import Johnny.Loader.Step

namespace Johnny

/-- The place of a list in a store. Objects that hold the same place share the list. -/
abbrev Ref := Nat

structure Store where
  lists : List (List String) := []

namespace Store

def size (s : Store) : Nat := s.lists.length

def texts (s : Store) (r : Ref) : List String := s.lists.getD r []

/-- Makes an empty list, the place of which is the size that the store had. -/
def create (s : Store) : Store := ⟨s.lists ++ [[]]⟩

def append (s : Store) (r : Ref) (more : List String) : Store := ⟨s.lists.modify r (· ++ more)⟩

end Store

/-- An assembler that holds its lists by their places. -/
structure AssemblerObject where
  image : Image
  errors : Ref
  warnings : Ref
  failure : Option Fault

namespace AssemblerObject

def create (s : Store) : Store × AssemblerObject :=
  (s.create.create, ⟨[], s.size, s.size + 1, none⟩)

def view (o : AssemblerObject) (s : Store) : Assembler :=
  ⟨o.image, s.texts o.errors, s.texts o.warnings, o.failure⟩

def warn (o : AssemblerObject) (s : Store) (address : Address) (message : String) :
    Store × Except DigitLimit Unit :=
  match writeDecimal address with
  | .error limit => (s, .error limit)
  | .ok line => (s.append o.warnings [Assembler.warningText line message], .ok ())

/-- A run forgets the lists of the assembler and makes new ones. -/
def assemble (s : Store) (source : String) :
    (Store × AssemblerObject) × Except DigitLimit Bool :=
  let o := (create s).2
  match Image.build (some fun address message (s : Store) => (o.warn s address message).1)
      (Source.lines source) (create s).1 with
  | (noted, .ok image) => ((noted, { o with image := image }), .ok true)
  | (noted, .error (.fault f)) =>
    ((noted.append o.errors [f.message], { o with failure := some f }), .ok false)
  | (noted, .error (.digits limit)) => ((noted, o), .error limit)

def step (o : AssemblerObject) (s : Store) (disk : Disk) :
    Assembler.Step → ((Store × AssemblerObject) × Disk) × Except Error Answer
  | .assemble source =>
    let (next, outcome) := assemble s source
    ((next, disk), (outcome.map .flag).mapError .digits)
  | .warn address message =>
    let (next, outcome) := o.warn s address message
    (((next, o), disk), (outcome.map fun _ => .done).mapError .digits)
  | .image => (((s, o), disk), .ok (.image o.image))
  | .ram => (((s, o), disk), ((Ram.render o.image).map .text).mapError .digits)
  | .writeRam path =>
    let (written, outcome) := (o.view s).writeRam disk path
    (((s, o), written), outcome.map fun _ => .done)

end AssemblerObject

structure LoaderObject where
  store : Store
  assembler : Option AssemblerObject
  errors : Ref
  warnings : Ref

namespace LoaderObject

def create (s : Store) : LoaderObject := ⟨s.create.create, none, s.size, s.size + 1⟩

def fresh : LoaderObject := create {}

/-- The loader with the texts in its lists. It is linked if a warning of its assembler goes to a
list that it holds too. -/
def view (l : LoaderObject) : Loader where
  assembler := l.assembler.map (·.view l.store)
  errors := l.store.texts l.errors
  warnings := l.store.texts l.warnings
  linked := l.assembler.any (·.warnings = l.warnings)

/-- The loader takes over the lists of a new assembler. After a run without a fault it makes a list
of errors of its own. -/
def assemble (l : LoaderObject) (source : String) : LoaderObject × Except Error Image :=
  match AssemblerObject.assemble (AssemblerObject.create l.store).1 source with
  | ((s, a), .error limit) => ({ l with store := s, assembler := some a }, .error (.digits limit))
  | ((s, a), .ok false) =>
    (⟨s, some a, a.errors, a.warnings⟩, .error (.assembly (s.texts a.errors)))
  | ((s, a), .ok true) => (⟨s.create, some a, s.size, a.warnings⟩, .ok a.image)

def assembleFile (l : LoaderObject) (disk : Disk) (path : String) :
    LoaderObject × Except Error Image :=
  match Source.ofFile disk path with
  | .error e => (l, .error e)
  | .ok source => l.assemble source

def direct (l : LoaderObject) (disk : Disk) (s : Assembler.Step) :
    (LoaderObject × Disk) × Except Error Answer :=
  match l.assembler with
  | none => ((l, disk), .error (.noAssembler s.name))
  | some a =>
    let (((store, next), written), outcome) := a.step l.store disk s
    (({ l with store := store, assembler := some next }, written), outcome)

/-- A detached operation leaves its lists in the store and nothing else. -/
def step (l : LoaderObject) (disk : Disk) :
    Loader.Step → (LoaderObject × Disk) × Except Error Answer
  | .assemble source =>
    let (next, outcome) := l.assemble source
    ((next, disk), outcome.map .image)
  | .assembleFile path =>
    let (next, outcome) := l.assembleFile disk path
    ((next, disk), outcome.map .image)
  | .loadImage path => ((l, disk), (Loader.loadImage disk path).map .image)
  | .create program => ((l, disk), (Loader.create program).map .image)
  | .detachedAssemble source =>
    let (other, outcome) := (create l.store).assemble source
    (({ l with store := other.store }, disk), outcome.map .image)
  | .detachedAssembleFile path =>
    let (other, outcome) := (create l.store).assembleFile disk path
    (({ l with store := other.store }, disk), outcome.map .image)
  | .put path content =>
    let (written, outcome) := disk.save path content
    ((l, written), (outcome.map fun _ => .done).mapError .file)
  | .direct s => l.direct disk s

end LoaderObject

end Johnny
