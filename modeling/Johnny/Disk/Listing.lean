import Johnny.Disk.Basic

namespace Johnny.Disk

def addFolder (d : Disk) (p : Path) : Disk :=
  if d.folders.contains p then d else { d with folders := d.folders ++ [p] }

/-- Goes through names from a folder, adding the folders that are not there, and tells where that
leads. -/
def addFolders (d : Disk) : Path → List String → Disk × Path
  | start, [] => (d, start)
  | start, name :: rest =>
    if name = "." then addFolders d start rest
    else if name = ".." then addFolders d start.dropLast rest
    else addFolders (d.addFolder (start ++ [name])) (start ++ [name]) rest

def furnish (d : Disk) (path : String) : Disk :=
  let route := Route.ofString path
  (d.addFolders d.current (route.folders ++ [route.last])).1

def deposit (d : Disk) (path : String) (content : Bytes) : Disk :=
  let route := Route.ofString path
  let (opened, folder) := d.addFolders d.current route.folders
  opened.fill (folder ++ [route.last]) content

/-- The path of a working folder below a folder of its own. The two names hold a slash, which no
path text can give to a name: the folders are reached from inside only. -/
def workplace : Path := ["/", "/"]

/-- A file that can be opened and takes no byte. -/
def fullDevice : Path := ["dev", "full"]

def noSpace : Refusal := ⟨28, "No space left on device"⟩

def bare : Disk where
  folders := [["dev"], workplace.dropLast, workplace]
  files := [(fullDevice, [])]
  current := workplace
  stop _ p size := if p = fullDevice ∧ 0 < size then some ⟨0, noSpace⟩ else none

/-- The bare disk with what is listed in its working folder. -/
def ofListing (folders : List String) (files : List (String × Bytes)) : Disk :=
  files.foldl (fun d (path, content) => d.deposit path content) (folders.foldl furnish bare)

/-- The path below the current folder, as text, of a file in it. -/
def relative? (d : Disk) (p : Path) : Option String :=
  (d.current.isPrefixOf? p).map fun names => "/".intercalate names

/-- The files in the current folder that are new or differ from what they were. -/
def changesSince (d before : Disk) : List (String × Bytes) :=
  d.files.filterMap fun (p, content) =>
    if before.content? p = some content then none else (d.relative? p).map (·, content)

end Johnny.Disk
