import Johnny.Assembler
import Johnny.Loader

namespace Johnny

def Assembler.Step.name : Assembler.Step → String
  | assemble _ => "assemble"
  | warn _ _ => "warning"
  | image => "get_image"
  | ram => "get_ram"
  | writeRam _ => "write_ram"

namespace Loader

/-- The operations of a loader. `detached` ones use a loader of their own. -/
inductive Step where
  | assemble (source : String)
  | assembleFile (path : String)
  | loadImage (path : String)
  | create (program : Program)
  | detachedAssemble (source : String)
  | detachedAssembleFile (path : String)
  | put (path : String) (content : Bytes)
  | direct (step : Assembler.Step)

/-- An operation on the assembler itself, past the loader. -/
def direct (l : Loader) (disk : Disk) (s : Assembler.Step) :
    (Loader × Disk) × Except Error Answer :=
  match l.assembler with
  | none => ((l, disk), .error (.noAssembler s.name))
  | some a =>
    let ((next, written), outcome) := a.step disk s
    match s with
    | .assemble _ => ((l.unlink next, written), outcome)
    | _ => ((l.follow next, written), outcome)

def step (l : Loader) (disk : Disk) : Step → (Loader × Disk) × Except Error Answer
  | .assemble source =>
    let (next, outcome) := l.assemble source
    ((next, disk), outcome.map .image)
  | .assembleFile path =>
    let (next, outcome) := l.assembleFile disk path
    ((next, disk), outcome.map .image)
  | .loadImage path => ((l, disk), (loadImage disk path).map .image)
  | .create program => ((l, disk), (create program).map .image)
  | .detachedAssemble source => ((l, disk), (fresh.assemble source).2.map .image)
  | .detachedAssembleFile path => ((l, disk), (fresh.assembleFile disk path).2.map .image)
  | .put path content =>
    let (written, outcome) := disk.save path content
    ((l, written), (outcome.map fun _ => .done).mapError .file)
  | .direct s => l.direct disk s

end Loader

end Johnny
