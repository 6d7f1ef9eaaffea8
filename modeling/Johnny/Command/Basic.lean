import Johnny.Error

namespace Johnny

/-- What a command prints, and how it ends: with an exit code, or by an error that it does not
handle. -/
structure Report where
  stdout : String
  stderr : String
  ending : Except Error Nat

namespace Report

def unlines (lines : List String) : String :=
  String.join (lines.map fun line => line ++ "\n")

def failure (code : Nat) (stderr : String) : Report := ⟨"", stderr, .ok code⟩

end Report

structure Options where
  input : String
  output : String
  deriving DecidableEq

namespace Options

def default : Options := ⟨"program.jasm", "output.ram"⟩

def inputSpellings : List String := ["-i:", "--input:", "--inputFile:"]

def outputSpellings : List String := ["-o:", "--output:", "--outputFile:"]

/-- The rest of an argument behind the first spelling in the list that it starts with. -/
def valueAfter? (argument : String) (spellings : List String) : Option String :=
  spellings.findSome? fun spelling =>
    (spelling.toList.isPrefixOf? argument.toList).map String.ofList

/-- Takes one argument into account. A value replaces an earlier one and may be any text. -/
def set? (o : Options) (argument : String) : Option Options :=
  match valueAfter? argument inputSpellings with
  | some path => some { o with input := path }
  | none =>
    match valueAfter? argument outputSpellings with
    | some path => some { o with output := path }
    | none => none

def setAll? : Options → List String → Option Options
  | o, [] => some o
  | o, argument :: rest =>
    match o.set? argument with
    | none => none
    | some next => setAll? next rest

def parse? (arguments : List String) : Option Options := setAll? default arguments

end Options

end Johnny
