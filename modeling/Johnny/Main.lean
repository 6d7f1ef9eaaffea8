import Johnny.Command.Compile

namespace Johnny.CommandLine

def numbered : IO.Error → Nat × String
  | .noFileOrDirectory _ n reason => (n.toNat, reason)
  | .permissionDenied _ n reason => (n.toNat, reason)
  | .inappropriateType _ n reason => (n.toNat, reason)
  | .invalidArgument _ n reason => (n.toNat, reason)
  | .resourceExhausted _ n reason => (n.toNat, reason)
  | .noSuchThing _ n reason => (n.toNat, reason)
  | .alreadyExists _ n reason => (n.toNat, reason)
  | .interrupted _ n reason => (n.toNat, reason)
  | .otherError n reason => (n.toNat, reason)
  | .resourceBusy n reason => (n.toNat, reason)
  | .hardwareFault n reason => (n.toNat, reason)
  | .unsupportedOperation n reason => (n.toNat, reason)
  | e => (0, toString e)

def fileError (path : Option String) (e : IO.Error) : FileError :=
  match path, numbered e with
  | some path, (2, _) => .missing path
  | some path, (20, _) => .notFolder path
  | some path, (21, _) => .isFolder path
  | some path, (36, _) => .nameTooLong path
  | path, (n, reason) => .denied n reason path

/-- Runs an operation on a file; it is known by its path until it is open. -/
def attempt {α : Type} (path : Option String) (operation : IO α) : IO (Except FileError α) := do
  try return .ok (← operation) catch e => return .error (fileError path e)

def openFile (path : String) (mode : IO.FS.Mode) : IO (Except FileError IO.FS.Handle) := do
  if '\x00' ∈ path.toList then return .error .nulInPath
  attempt (some path) (IO.FS.Handle.mk path mode)

def readSource (path : String) : IO (Except Error String) := do
  match ← openFile path .read with
  | .error e => return .error (.file e)
  | .ok file =>
    match ← attempt (some path) file.readBinToEnd with
    | .error e => return .error (.file e)
    | .ok bytes => return (Source.ofBytes bytes.toList).mapError .decode

def writeImage (a : Assembler) (path : String) : IO (Except Error Unit) := do
  match ← openFile path .write with
  | .error e => return .error (.file e)
  | .ok file =>
    match a.ram with
    | .error limit => return .error (.digits limit)
    | .ok text => return (← attempt none (do file.putStr text; file.flush)).mapError .file

/-- Prints a report. An error that the command does not handle goes to standard error. -/
def emit (r : Report) : IO UInt32 := do
  IO.print r.stdout
  IO.eprint r.stderr
  match r.ending with
  | .ok code => return code.toUInt32
  | .error e =>
    IO.eprintln e.message
    return 1

def compile (arguments : List String) : IO UInt32 := do
  match Options.parse? arguments with
  | none => emit Compile.usage
  | some o =>
    let source ← readSource o.input
    let start ← IO.monoMsNow
    match Compile.assemble o source with
    | .error report => emit report
    | .ok a =>
      let stop ← IO.monoMsNow
      let outcome ← writeImage a o.output
      emit (Compile.conclude o (decimal (stop - start : Nat)) a outcome)

end Johnny.CommandLine

def main (arguments : List String) : IO UInt32 :=
  Johnny.CommandLine.compile arguments
