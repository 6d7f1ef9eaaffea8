import Johnny.Command.Basic
import Johnny.Source.Document
import Johnny.Assembler
import Johnny.Text.Basic

namespace Johnny

def version : String := "1.0.0"

/-! The compiler: a source file in, a memory file out. -/
namespace Compile

def help : String :=
  Report.unlines
    ["usage: jasm [--inputFile:PATH] [--outputFile:PATH]",
     "",
     "Usage of the JOHNNY2 Assembly Compiler",
     "",
     "Options:",
     "  --inputFile:\"path/to/file.jasm\"   JOHNNY2 Assembly file to use (default: \"program.jasm\")",
     "    Shorthands: -i, --input",
     "  --outputFile:\"path/to/file.ram\"   Output file destination (default: \"output.ram\")",
     "    Shorthands: -o, --output",
     "",
     "Examples:",
     "  jasm -i:program.jasm -o:output.ram",
     "  jasm --input:count.jasm"]

/-- A path as messages show it, without double quotes around it. -/
def shown (path : String) : String :=
  String.ofList (Text.trim (· = Text.doubleQuote) path.toList)

def noteLines (label : String) (notes : List String) : String :=
  Report.unlines (notes.map fun note => label ++ ": " ++ note)

def warningLines (a : Assembler) : String := noteLines "Warning" a.warnings

def errorLines (a : Assembler) : String := noteLines "Error" a.errors

def usage : Report := ⟨help, "", .ok 2⟩

def unreadable (path : String) : Error → Report
  | .file (.missing _) =>
    .failure 1 ("Error: The provided input file \"" ++ shown path ++ "\" does not exist.\n")
  | .file .nulInPath => ⟨"", "", .error (.file .nulInPath)⟩
  | e => .failure 1 ("Error reading " ++ shown path ++ ": " ++ e.message ++ "\n")

/-- Assembles what was read. The result is an assembler with an image to write, or the report on
what came instead. -/
def assemble (o : Options) (source : Except Error String) : Except Report Assembler :=
  match source with
  | .error e => .error (unreadable o.input e)
  | .ok text =>
    match Assembler.fresh.assemble text with
    | (_, .error limit) => .error ⟨"", "", .error (.digits limit)⟩
    | (a, .ok false) => .error (.failure 1 (warningLines a ++ errorLines a))
    | (a, .ok true) => .ok a

def conclude (o : Options) (elapsed : String) (a : Assembler) : Except Error Unit → Report
  | .ok () =>
    ⟨"Successfully compiled \"" ++ shown o.input ++ "\" to \"" ++ shown o.output ++ "\" in "
        ++ elapsed ++ "ms\n",
      warningLines a, .ok 0⟩
  | .error (.file .nulInPath) => ⟨"", warningLines a, .error (.file .nulInPath)⟩
  | .error (.file e) =>
    .failure 1
      (warningLines a ++ "Error writing " ++ shown o.output ++ ": " ++ e.message ++ "\n")
  | .error e => ⟨"", warningLines a, .error e⟩

/-- Compiles on a disk. The time the assembling took, in milliseconds, is given. -/
def run (elapsed : String) (arguments : List String) (disk : Disk) : Report × Disk :=
  match Options.parse? arguments with
  | none => (usage, disk)
  | some o =>
    match assemble o (Source.ofFile disk o.input) with
    | .error report => (report, disk)
    | .ok a =>
      let (written, outcome) := a.writeRam disk o.output
      (conclude o elapsed a outcome, written)

end Compile

end Johnny
