namespace Johnny

/-- A memory word. Words have no bound in size. -/
abbrev Word := Int

/-- A place in memory, which is also the number of a source line counted from zero. -/
abbrev Address := Int

def memorySize : Nat := 1000

abbrev Image := List Word

inductive Opcode where
  | data | take | add | sub | save | jmp | tst | inc | dec | null | hlt
  deriving DecidableEq

namespace Opcode

def all : List Opcode := [data, take, add, sub, save, jmp, tst, inc, dec, null, hlt]

def mnemonic : Opcode → String
  | data => "DATA"
  | take => "TAKE"
  | add => "ADD"
  | sub => "SUB"
  | save => "SAVE"
  | jmp => "JMP"
  | tst => "TST"
  | inc => "INC"
  | dec => "DEC"
  | null => "NULL"
  | hlt => "HLT"

/-- The word of an instruction is the base value of its opcode plus its operand. -/
def base : Opcode → Word
  | data => 0
  | take => 1000
  | add => 2000
  | sub => 3000
  | save => 4000
  | jmp => 5000
  | tst => 6000
  | inc => 7000
  | dec => 8000
  | null => 9000
  | hlt => 10000

/-- Mnemonics are matched exactly: case and surrounding blanks count. -/
def ofMnemonic? (m : String) : Option Opcode :=
  all.find? fun op => op.mnemonic = m

theorem ofMnemonic?_mnemonic (op : Opcode) : ofMnemonic? op.mnemonic = some op := by
  cases op <;> rfl

end Opcode

end Johnny
