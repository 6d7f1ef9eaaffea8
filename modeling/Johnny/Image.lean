import Johnny.Instruction

namespace Johnny

namespace Image

/-- Takes note of a line with surplus tokens, in a record of type `σ`. -/
abbrev Sink (σ : Type) := Address → String → σ → σ

def surplusMessage : String := "contains excessive parameters. Ignoring."

def report {σ : Type} (sink : Option (Sink σ)) (i : Instruction) (record : σ) : σ :=
  match sink with
  | some note => if i.hasSurplus then note i.address surplusMessage record else record
  | none => record

/-- Fills `cells` words from an address on. A line is reported before it is encoded, and the
first line that cannot be encoded ends the work. -/
def fill {σ : Type} (sink : Option (Sink σ)) :
    (cells : Nat) → (address : Nat) → List String → σ → σ × Except EncodeError Image
  | 0, _, _, record => (record, .ok [])
  | cells + 1, _, [], record => (record, .ok (List.replicate (cells + 1) 0))
  | cells + 1, address, line :: rest, record =>
    let i := Instruction.parse line address
    let noted := report sink i record
    match i.encode with
    | .error e => (noted, .error e)
    | .ok word =>
      match fill sink cells (address + 1) rest noted with
      | (final, .ok words) => (final, .ok (word :: words))
      | (final, .error e) => (final, .error e)

/-- The image of source lines: line `i` gives the word at address `i`, addresses without a
line hold 0 and lines beyond the memory are not looked at. -/
def build {σ : Type} (sink : Option (Sink σ)) (lines : List String) (record : σ) :
    σ × Except EncodeError Image :=
  fill sink memorySize 0 lines record

end Image

end Johnny
