import Johnny.Text.Utf8

namespace Johnny

/-- The names on the way from the root to a file or folder. -/
abbrev Path := List String

structure Route where
  absolute : Bool
  folders : List String
  last : String
  /-- Whether a slash follows the last name. -/
  closed : Bool

namespace Route

def splitSlashes : List Char → List (List Char)
  | [] => [[]]
  | c :: rest =>
    if c = '/' then [] :: splitSlashes rest
    else Text.extendHead c (splitSlashes rest)

/-- Slashes in a row count as one. A path without any name leads to where it starts. -/
def ofString (path : String) : Route :=
  let names := ((splitSlashes path.toList).filter (· ≠ [])).map String.ofList
  { absolute := path.toList.head? = some '/'
    folders := names.dropLast
    last := names.getLast?.getD "."
    closed := path.toList.getLast? = some '/' }

/-- The two names that every folder has for itself and for the folder around it. -/
def isDots (name : String) : Bool := name = "." || name = ".."

end Route

/-- A path that holds the character NUL is turned down before the disk is looked at. -/
inductive FileError where
  | missing (path : String)
  | notFolder (path : String)
  | isFolder (path : String)
  | nameTooLong (path : String)
  /-- Any other refusal. One that comes when the file is already open does not tell the path. -/
  | denied (number : Nat) (reason : String) (path : Option String)
  | nulInPath
  deriving DecidableEq

def FileError.message : FileError → String
  | missing path => refusal 2 "No such file or directory" path
  | notFolder path => refusal 20 "Not a directory" path
  | isFolder path => refusal 21 "Is a directory" path
  | nameTooLong path => refusal 36 "File name too long" path
  | denied number reason (some path) => refusal number reason path
  | denied number reason none => numbered number reason
  | nulInPath => "embedded null byte"
where
  numbered (number : Nat) (reason : String) : String :=
    "[Errno " ++ decimal number ++ "] " ++ reason
  refusal (number : Nat) (reason path : String) : String :=
    numbered number reason ++ ": " ++ Text.quoted path

structure Refusal where
  number : Nat
  reason : String
  deriving DecidableEq

def Refusal.pass (path : String) (p : Path) : Option Refusal → Except FileError Path
  | none => .ok p
  | some r => .error (.denied r.number r.reason (some path))

/-- How much of a text a file takes, in bytes, and why it takes no more. -/
structure Stop where
  kept : Nat
  refusal : Refusal
  deriving DecidableEq

def Stop.error (s : Stop) : FileError := .denied s.refusal.number s.refusal.reason none

/-- Folders and files by their paths, and the folder that relative paths start from. The root is
a folder without being listed. Beyond that a disk has rules of its own for what it refuses. -/
structure Disk where
  folders : List Path
  files : List (Path × Bytes)
  current : Path
  /-- Folders that cannot be entered, and files that can be neither read nor written. -/
  barred : Path → Option Refusal := fun _ => none
  readOnly : Path → Option Refusal := fun _ => none
  /-- Where an open file stops taking a text of some size, by all the files there are. -/
  stop : List (Path × Bytes) → Path → Nat → Option Stop := fun _ _ _ => none

namespace Disk

inductive Entry where
  | folder
  | file (content : Bytes)

def content? (d : Disk) (p : Path) : Option Bytes := d.files.lookup p

def entry? (d : Disk) (p : Path) : Option Entry :=
  match d.content? p with
  | some content => some (.file content)
  | none => if p = [] ∨ p ∈ d.folders then some .folder else none

def maxName : Nat := 255

def maxPath : Nat := 4095

/-- Goes from a folder through names that each have to lead to a folder. Every folder on the way,
the last one included, has to be entered. -/
def walk (d : Disk) (path : String) : Path → List String → Except FileError Path
  | start, [] => Refusal.pass path start (d.barred start)
  | start, name :: rest =>
    match Refusal.pass path start (d.barred start) with
    | .error e => .error e
    | .ok _ =>
      if name = "." then walk d path start rest
      else if name = ".." then walk d path start.dropLast rest
      else if maxName < name.utf8ByteSize then .error (.nameTooLong path)
      else
        match d.entry? (start ++ [name]) with
        | none => .error (.missing path)
        | some (.file _) => .error (.notFolder path)
        | some .folder => walk d path (start ++ [name]) rest

/-- The folder in which the last name of a path is looked up. -/
def locate (d : Disk) (path : String) : Except FileError Path :=
  if '\x00' ∈ path.toList then .error .nulInPath
  else if path = "" then .error (.missing path)
  else if maxPath < path.utf8ByteSize then .error (.nameTooLong path)
  else
    let route := Route.ofString path
    d.walk path (if route.absolute then [] else d.current) route.folders

def read (d : Disk) (path : String) : Except FileError Bytes :=
  match d.locate path with
  | .error e => .error e
  | .ok folder =>
    let route := Route.ofString path
    let p := folder ++ [route.last]
    if Route.isDots route.last then .error (.isFolder path)
    else if maxName < route.last.utf8ByteSize then .error (.nameTooLong path)
    else
      match d.entry? p with
      | none => .error (.missing path)
      | some .folder => .error (.isFolder path)
      | some (.file content) =>
        if route.closed then .error (.notFolder path)
        else (Refusal.pass path p (d.barred p)).map fun _ => content

def target (d : Disk) (path : String) : Except FileError Path :=
  match d.locate path with
  | .error e => .error e
  | .ok folder =>
    let route := Route.ofString path
    let p := folder ++ [route.last]
    if Route.isDots route.last ∨ route.closed then .error (.isFolder path)
    else if maxName < route.last.utf8ByteSize then .error (.nameTooLong path)
    else
      match d.entry? p with
      | some .folder => .error (.isFolder path)
      | _ => Refusal.pass path p ((d.barred p).or (d.readOnly p))

def setContent (p : Path) (content : Bytes) : List (Path × Bytes) → List (Path × Bytes)
  | [] => [(p, content)]
  | (q, old) :: rest =>
    if q = p then (q, content) :: rest else (q, old) :: setContent p content rest

def fill (d : Disk) (p : Path) (content : Bytes) : Disk :=
  { d with files := setContent p content d.files }

/-- Opens a file for writing: it is empty from then on. -/
def create (d : Disk) (path : String) : Except FileError (Path × Disk) :=
  (d.target path).map fun p => (p, d.fill p [])

def stop? (d : Disk) (p : Path) (content : Bytes) : Option Stop :=
  d.stop d.files p content.length

/-- Writes a text to an open file. Where the file does not take all of it, the beginning of the
text is left there. -/
def write (d : Disk) (p : Path) (content : Bytes) : Disk × Except FileError Unit :=
  match d.stop? p content with
  | none => (d.fill p content, .ok ())
  | some s => (d.fill p (content.take s.kept), .error s.error)

def save (d : Disk) (path : String) (content : Bytes) : Disk × Except FileError Unit :=
  match d.create path with
  | .error e => (d, .error e)
  | .ok (p, opened) => opened.write p content

end Disk

end Johnny
