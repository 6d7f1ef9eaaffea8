import Johnny.Machine
import Johnny.Numeral
import Johnny.Source.Basic
import Johnny.Text.Basic

namespace Johnny.Ram

/-- One word in decimal on each line. Nothing is written if one word has too many digits. -/
def render : List Word → Except DigitLimit String
  | [] => .ok ""
  | word :: rest =>
    match writeDecimal word with
    | .error e => .error e
    | .ok text => (render rest).map fun texts => text ++ "\n" ++ texts

inductive LoadError where
  | tooManyLines (count : Nat)
  | invalidWord (text : String) (address : Address)
  deriving DecidableEq

def LoadError.message : LoadError → String
  | tooManyLines count =>
    "RAM image has " ++ decimal count ++ " lines, expected at most " ++ decimal memorySize
  | invalidWord text address =>
    "Invalid word \"" ++ text ++ "\" at address " ++ decimal address

/-- Digits of any script, with at most one underscore between two of them. -/
def groupedDigits? : List Char → Option (List Nat)
  | [] => none
  | [c] => (Text.decimalDigit? c).map ([·])
  | c :: '_' :: rest => consDigit c (groupedDigits? rest)
  | c :: rest => consDigit c (groupedDigits? rest)
where
  consDigit (c : Char) (digits : Option (List Nat)) : Option (List Nat) :=
    match Text.decimalDigit? c, digits with
    | some d, some ds => some (d :: ds)
    | _, _ => none

def numeral? (text : List Char) : Option Numeral :=
  let (negative, body) := Numeral.splitSign text
  (groupedDigits? body).map (⟨negative, ·⟩)

/-- The word on a line without blanks around it. An empty line holds 0. -/
def word? (text : List Char) : Option Word :=
  if text = [] then some 0
  else
    match numeral? text with
    | none => none
    | some n => n.read.toOption

def readWords : (address : Nat) → List String → Except LoadError (List Word)
  | _, [] => .ok []
  | address, line :: rest =>
    let text := Text.trim Text.isBlank line.toList
    match word? text with
    | none => .error (.invalidWord (String.ofList text) address)
    | some word => (readWords (address + 1) rest).map (word :: ·)

/-- The lines are counted before any is read. Memory after the last line holds 0. -/
def read (text : String) : Except LoadError Image :=
  let lines := Source.lines text
  if memorySize < lines.length then .error (.tooManyLines lines.length)
  else (readWords 0 lines).map fun words => words ++ List.replicate (memorySize - words.length) 0

end Johnny.Ram
