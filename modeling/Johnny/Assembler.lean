import Johnny.Error

namespace Johnny

structure Assembler where
  image : Image := []
  errors : List String := []
  warnings : List String := []
  failure : Option Fault := none
  deriving DecidableEq

inductive Answer where
  | done
  | flag (value : Bool)
  | image (words : Image)
  | text (text : String)
  deriving DecidableEq

namespace Assembler

def fresh : Assembler := {}

def warningText (line message : String) : String := "Instruction in line " ++ line ++ " " ++ message

/-- A warning is refused if its address has too many digits. -/
def warn (a : Assembler) (address : Address) (message : String) :
    Assembler × Except DigitLimit Unit :=
  match writeDecimal address with
  | .error limit => (a, .error limit)
  | .ok line => ({ a with warnings := a.warnings ++ [warningText line message] }, .ok ())

def reset (a : Assembler) : Assembler :=
  { a with image := [], errors := [], warnings := [], failure := none }

/-- Assembles a source and tells whether that worked. A fault is kept in the assembler; an
operand with too many digits is not a fault, and leaves only the warnings before it. Lines in memory
have short addresses, so none of these warnings is refused. -/
def assemble (a : Assembler) (source : String) : Assembler × Except DigitLimit Bool :=
  match Image.build (some fun address message (a : Assembler) => (a.warn address message).1)
      (Source.lines source) a.reset with
  | (noted, .ok image) => ({ noted with image := image }, .ok true)
  | (noted, .error (.fault f)) =>
    ({ noted with failure := some f, errors := noted.errors ++ [f.message] }, .ok false)
  | (noted, .error (.digits limit)) => (noted, .error limit)

def ram (a : Assembler) : Except DigitLimit String := Ram.render a.image

/-- Writes the image to a file. The file is opened before the image is put into text, so it is
left empty if a word has too many digits. -/
def writeRam (a : Assembler) (disk : Disk) (path : String) : Disk × Except Error Unit :=
  if a.image.length ≠ memorySize then (disk, .error .noImage)
  else
    match disk.create path with
    | .error e => (disk, .error (.file e))
    | .ok (file, opened) =>
      match a.ram with
      | .error limit => (opened, .error (.digits limit))
      | .ok text =>
        let (written, outcome) := opened.write file (Text.encode text.toList)
        (written, outcome.mapError .file)

inductive Step where
  | assemble (source : String)
  | warn (address : Address) (message : String)
  | image
  | ram
  | writeRam (path : String)
  deriving DecidableEq

def step (a : Assembler) (disk : Disk) : Step → (Assembler × Disk) × Except Error Answer
  | .assemble source =>
    let (next, outcome) := a.assemble source
    ((next, disk), (outcome.map .flag).mapError .digits)
  | .warn address message =>
    let (next, outcome) := a.warn address message
    ((next, disk), (outcome.map fun _ => .done).mapError .digits)
  | .image => ((a, disk), .ok (.image a.image))
  | .ram => ((a, disk), (a.ram.map .text).mapError .digits)
  | .writeRam path =>
    let (written, outcome) := a.writeRam disk path
    ((a, written), outcome.map fun _ => .done)

end Assembler

end Johnny
