import Johnny.Command.Compile
import Johnny.Command.Preview
import Johnny.Disk.Listing
import Johnny.Loader.Step
import Johnny.Main
import Johnny.Proofs.Assembler.Outcome
import Johnny.Proofs.Numeral.Spelling
import Johnny.Proofs.Source.Tokens
import Johnny.Proofs.Image.Words
import Johnny.Proofs.Assembler.Language
import Johnny.Proofs.Source.Lines
import Johnny.Proofs.Assembler.Concatenation
import Johnny.Proofs.Source.Layout
import Johnny.Proofs.Assembler.Layout
import Johnny.Proofs.Numeral.Decimal
import Johnny.Proofs.Ram.Word
import Johnny.Proofs.Text.Utf8
import Johnny.Proofs.Ram.Text
import Johnny.Proofs.Source.Document
import Johnny.Proofs.Disk.Write
import Johnny.Proofs.Image.Bounds
import Johnny.Proofs.Assembler.Run
import Johnny.Proofs.Assembler.Write
import Johnny.Proofs.Assembler.History
import Johnny.Proofs.Loader.RoundTrip
import Johnny.Proofs.Loader.Outcome
import Johnny.Proofs.Loader.File
import Johnny.Proofs.Program.Text
import Johnny.Proofs.Loader.Program
import Johnny.Proofs.Loader.Run
import Johnny.Proofs.Loader.Diagnostics
import Johnny.Proofs.Loader.History
import Johnny.Proofs.Command.Options
import Johnny.Proofs.Command.Compile
import Johnny.Proofs.Source.Decomposition
import Johnny.Proofs.Text.Trim
import Johnny.Proofs.Loader.Format
import Johnny.Proofs.Loader.Data
import Johnny.Proofs.Numeral.Operand
import Johnny.Proofs.Assembler.Meaning
import Johnny.Proofs.Assembler.Decoding
import Johnny.Proofs.Assembler.Limit
import Johnny.Proofs.Image.Fault
import Johnny.Proofs.Loader.Failure
import Johnny.Loader.Objects
import Johnny.Proofs.Assembler.Objects
import Johnny.Proofs.Loader.Objects
