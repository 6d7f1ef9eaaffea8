import Johnny.Image

namespace Johnny

inductive Datum where
  | text (text : String)
  | number (value : Int)
  | flag (value : Bool)
  | nothing
  deriving DecidableEq

def Datum.toText : Datum → Except DigitLimit String
  | text t => .ok t
  | number n => writeDecimal n
  | flag true => .ok "True"
  | flag false => .ok "False"
  | nothing => .ok "None"

/-- Instructions given as data: a mnemonic, perhaps an operand, and parts that do not count. -/
abbrev Program := List (List Datum)

inductive ProgramError where
  | tooLong (count : Nat)
  | emptyInstruction
  | encode (error : EncodeError)
  deriving DecidableEq

namespace Program

/-- The operand is put into text before the mnemonic is looked at. -/
def encodeInstruction (parts : List Datum) (address : Address) : Except ProgramError Word := do
  match parts with
  | [] => .error .emptyInstruction
  | mnemonic :: rest =>
    let operand ← match rest.head? with
      | none => .ok none
      | some part => (part.toText.map some).mapError (.encode ∘ .digits)
    let name ← mnemonic.toText.mapError (.encode ∘ .digits)
    (Instruction.encode ⟨name, operand, address, []⟩).mapError .encode

def encodeFrom : (address : Nat) → Program → Except ProgramError (List Word)
  | _, [] => .ok []
  | address, parts :: rest =>
    match encodeInstruction parts address with
    | .error e => .error e
    | .ok word => (encodeFrom (address + 1) rest).map (word :: ·)

def image (program : Program) : Except ProgramError Image :=
  if memorySize < program.length then .error (.tooLong program.length)
  else
    (encodeFrom 0 program).map fun words =>
      words ++ List.replicate (memorySize - words.length) 0

end Program

end Johnny
