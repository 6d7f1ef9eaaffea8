import Johnny.Text.Basic
import Johnny.Text.Quoted

namespace Johnny.Preview

inductive Request where
  | help
  | file (path : String)
  | misuse (message : String)
  deriving DecidableEq

inductive Argument where
  | value
  | help
  /-- The help option with a text attached, which it does not take. -/
  | overloaded (attached : List Char)
  | unknown
  deriving DecidableEq

/-- What follows the letter that asks for help: the same letter again, any number of times, or a
text attached to it. -/
def afterHelpLetter : List Char → Argument
  | [] => .help
  | 'h' :: rest => afterHelpLetter rest
  | attached => .overloaded attached

/-- The long spelling of help may be cut short. -/
def helpName : List Char := ['-', '-', 'h', 'e', 'l', 'p']

/-- A text that looks like a negative number is a value; one last line break is let pass. -/
def isNegativeNumber (argument : List Char) : Bool :=
  let isDigit (c : Char) := (Text.decimalDigit? c).isSome
  let body := if argument.getLast? = some '\n' then argument.dropLast else argument
  match body with
  | '-' :: number =>
    match number.dropWhile isDigit with
    | [] => number ≠ []
    | '.' :: fraction => fraction ≠ [] && fraction.all isDigit
    | _ => false
  | _ => false

/-- An equals sign divides the long spelling of help from an attached text. Directly behind the
short one it is passed over, unless nothing comes after it. -/
def classify (argument : List Char) : Argument :=
  match argument with
  | '-' :: '-' :: _ =>
    let name := argument.takeWhile (· ≠ '=')
    if name.isPrefixOf helpName then
      match argument.dropWhile (· ≠ '=') with
      | [] => .help
      | _ :: attached => .overloaded attached
    else if ' ' ∈ argument then .value
    else .unknown
  | ['-', 'h', '='] => .overloaded []
  | '-' :: 'h' :: '=' :: attached => afterHelpLetter attached
  | '-' :: 'h' :: rest => afterHelpLetter rest
  | '-' :: _ :: _ => if isNegativeNumber argument ∨ ' ' ∈ argument then .value else .unknown
  | _ => .value

/-- The first value is the file and all else is left over. The first double dash makes values of
all arguments behind it; next to the file it is not left over itself. -/
def collect : (file : Option String) → (atFile : Bool) → (leftOver : List String) → List String →
    Request
  | none, _, _, [] => .misuse "the following arguments are required: input"
  | some path, _, [], [] => .file path
  | some _, _, leftOver, [] =>
    .misuse ("unrecognized arguments: " ++ " ".intercalate leftOver)
  | none, _, leftOver, "--" :: path :: rest => finish path (leftOver ++ rest)
  | none, _, _, ["--"] => .misuse "the following arguments are required: input"
  | some path, atFile, leftOver, "--" :: rest =>
    finish path (leftOver ++ if atFile then rest else "--" :: rest)
  | file, _, leftOver, argument :: rest =>
    match classify argument.toList with
    | .help => .help
    | .overloaded attached =>
      .misuse ("argument -h/--help: ignored explicit argument "
        ++ Text.quoted (String.ofList attached))
    | .unknown => collect file false (leftOver ++ [argument]) rest
    | .value =>
      match file with
      | none => collect (some argument) true leftOver rest
      | some path => collect (some path) false (leftOver ++ [argument]) rest
where
  finish (path : String) : List String → Request
    | [] => .file path
    | leftOver => .misuse ("unrecognized arguments: " ++ " ".intercalate leftOver)

def request (arguments : List String) : Request := collect none false [] arguments

end Johnny.Preview
