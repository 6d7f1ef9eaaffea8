import Johnny.Assembler
import Johnny.Source.Document

namespace Johnny

/-- A loader, the assembler of its latest run and the diagnostics it shows. While it is linked,
its lists are the lists of the assembler: a warning added there is seen here too. -/
structure Loader where
  assembler : Option Assembler := none
  errors : List String := []
  warnings : List String := []
  linked : Bool := false
  deriving DecidableEq

namespace Loader

def fresh : Loader := {}

/-- Assembles a source with a new assembler. An operand with too many digits ends the run before
the loader takes over the diagnostics. -/
def assemble (l : Loader) (source : String) : Loader × Except Error Image :=
  match Assembler.fresh.assemble source with
  | (a, .error limit) => ({ l with assembler := some a, linked := false }, .error (.digits limit))
  | (a, .ok false) =>
    (⟨some a, a.errors, a.warnings, true⟩, .error (.assembly a.errors))
  | (a, .ok true) => (⟨some a, [], a.warnings, true⟩, .ok a.image)

def assembleFile (l : Loader) (disk : Disk) (path : String) : Loader × Except Error Image :=
  match Source.ofFile disk path with
  | .error e => (l, .error e)
  | .ok source => l.assemble source

def loadImage (disk : Disk) (path : String) : Except Error Image :=
  match Source.ofFile disk path with
  | .error e => .error e
  | .ok text => (Ram.read text).mapError .load

def create (program : Program) : Except Error Image := program.image.mapError .program

/-- Takes over an assembler that has recorded a warning; while linked, the loader shows it too. -/
def follow (l : Loader) (a : Assembler) : Loader :=
  { l with assembler := some a, warnings := if l.linked then a.warnings else l.warnings }

/-- Takes over an assembler that has run alone, which gave it lists of its own. -/
def unlink (l : Loader) (a : Assembler) : Loader :=
  { l with assembler := some a, linked := false }

end Loader

end Johnny
