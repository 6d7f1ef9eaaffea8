import Johnny.Command.Basic
import Johnny.Command.Request
import Johnny.Loader

namespace Johnny

/-! The preview: assembles a file and shows the beginning of its image. -/
namespace Preview

def usage : String := "usage: johnny_loader.py [-h] input"

def help : String :=
  Report.unlines
    [usage,
     "",
     "Test JOHNNY Loader",
     "",
     "positional arguments:",
     "  input       Input assembly file",
     "",
     "options:",
     "  -h, --help  show this help message and exit"]

def listText (words : List Word) : Except DigitLimit String :=
  (words.mapM writeDecimal).map fun texts => "[" ++ ", ".intercalate texts ++ "]"

def shownWords : Nat := 16

/-- The count of words is printed before the words are put into text. -/
def summary (image : Image) : Report :=
  let used := (image.filter (· ≠ 0)).length
  let counts := "Assembled " ++ decimal image.length ++ " words, " ++ decimal used ++ " non-zero\n"
  match listText (image.take shownWords) with
  | .error limit => ⟨counts, "", .error (.digits limit)⟩
  | .ok text =>
    ⟨counts ++ "First " ++ decimal shownWords ++ " words: " ++ text ++ "\n", "", .ok 0⟩

/-- Files that are not there and sources with errors are reported; other errors are not handled. -/
def conclude : Except Error Image → Report
  | .ok image => summary image
  | .error (.file (.missing path)) => .failure 1 (line (.file (.missing path)))
  | .error (.assembly errors) => .failure 1 (line (.assembly errors))
  | .error e => ⟨"", "", .error e⟩
where
  line (e : Error) : String := "Error: " ++ e.message ++ "\n"

def path (arguments : List String) : Except Report String :=
  match request arguments with
  | .help => .error ⟨help, "", .ok 0⟩
  | .misuse message =>
    .error (.failure 2 (Report.unlines [usage, "johnny_loader.py: error: " ++ message]))
  | .file path => .ok path

def run (arguments : List String) (disk : Disk) : Report :=
  match path arguments with
  | .error report => report
  | .ok path => conclude (Loader.fresh.assembleFile disk path).2

end Preview

end Johnny
