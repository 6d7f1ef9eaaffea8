import Johnny.Error

namespace Johnny.Source

/-- Every end of line, CR LF and CR included, becomes LF. -/
def unifyBreaks : List Char → List Char
  | [] => []
  | '\r' :: '\n' :: rest => '\n' :: unifyBreaks rest
  | '\r' :: rest => '\n' :: unifyBreaks rest
  | c :: rest => c :: unifyBreaks rest

def mark : Bytes := [0xEF, 0xBB, 0xBF]

/-- Takes off one byte order mark. A mark that the end of the bytes cuts short counts as one. -/
def dropMark (bytes : Bytes) : Bytes :=
  match mark.isPrefixOf? bytes with
  | some rest => rest
  | none => if bytes.isPrefixOf mark then [] else bytes

def ofBytes (bytes : Bytes) : Except Text.DecodeError String :=
  (Text.decode (dropMark bytes)).map fun text => String.ofList (unifyBreaks text)

def ofFile (disk : Disk) (path : String) : Except Error String :=
  match disk.read path with
  | .error e => .error (.file e)
  | .ok bytes => (ofBytes bytes).mapError .decode

end Johnny.Source
