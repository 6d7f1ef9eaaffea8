import Johnny.Numeral
import Johnny.Machine
import Johnny.Source.Basic

namespace Johnny

inductive Fault where
  | unknownOpcode (mnemonic : String) (address : Address)
  | invalidOperand (token : String) (address : Address)
  deriving DecidableEq

namespace Fault

def address : Fault → Address
  | unknownOpcode _ a => a
  | invalidOperand _ a => a

/-- The address is taken to have few digits, as those of lines in memory have. -/
def message : Fault → String
  | unknownOpcode m a =>
    "Opcode \"" ++ m ++ "\" in line " ++ decimal a ++ " is unknown. Terminating."
  | invalidOperand t a =>
    "Invalid parameter \"" ++ t ++ "\" in line " ++ decimal a ++ ". Terminating."

end Fault

/-- How encoding fails: by a fault of the line, or by an operand with too many digits. -/
inductive EncodeError where
  | fault (fault : Fault)
  | digits (limit : DigitLimit)
  deriving DecidableEq

def asciiDigit? (c : Char) : Option Nat :=
  if '0' ≤ c ∧ c ≤ '9' then some (c.toNat - '0'.toNat) else none

/-- An operand is one optional sign and at least one of the digits 0 to 9. -/
def Numeral.ofOperand? (token : List Char) : Option Numeral :=
  let (negative, body) := splitSign token
  match body.mapM asciiDigit? with
  | some (d :: ds) => some ⟨negative, d :: ds⟩
  | _ => none

def readOperand (token : String) (address : Address) : Except EncodeError Int :=
  match Numeral.ofOperand? token.toList with
  | none => .error (.fault (.invalidOperand token address))
  | some n => n.read.mapError .digits

/-- A tokenized line. An empty mnemonic stands for no instruction. -/
structure Instruction where
  mnemonic : String
  operand : Option String
  address : Address
  surplus : List String := []

namespace Instruction

def ofTokens (tokens : List String) (address : Address) : Instruction :=
  match tokens with
  | [] => ⟨"", none, address, []⟩
  | [m] => ⟨m, none, address, []⟩
  | m :: operand :: surplus => ⟨m, some operand, address, surplus⟩

def parse (line : String) (address : Address) : Instruction :=
  ofTokens (Source.tokens line) address

def hasSurplus (i : Instruction) : Bool := !i.surplus.isEmpty

/-- The mnemonic is judged before the operand, and no instruction is the word 0 whatever its
operand looks like. -/
def encode (i : Instruction) : Except EncodeError Word :=
  if i.mnemonic = "" then .ok 0
  else
    match Opcode.ofMnemonic? i.mnemonic with
    | none => .error (.fault (.unknownOpcode i.mnemonic i.address))
    | some op =>
      match i.operand with
      | none => .ok op.base
      | some token => (readOperand token i.address).map (op.base + ·)

end Instruction

def encodeTokens (tokens : List String) (address : Address) : Except EncodeError Word :=
  (Instruction.ofTokens tokens address).encode

end Johnny
