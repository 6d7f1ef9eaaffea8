import Johnny.Proofs.Assembler.Outcome
import Johnny.Proofs.Image.Words

namespace Johnny

namespace Image

open Numeral Source

/-- The first two tokens of a line are the mnemonic of an opcode and an integer. -/
def HasOperand (line : String) (op : Opcode) (s : Spelling) : Prop :=
  ∃ surplus, tokens line = op.mnemonic :: String.ofList s.text :: surplus

/-- The instruction on a line: its opcode and the value of its operand. An operand that is absent
counts as 0, and a line without a mnemonic as `DATA 0`. -/
inductive Instructs (line : String) : Opcode → Int → Prop
  | blank (rest : List String) (h : tokens line = "" :: rest) : Instructs line .data 0
  | bare (op : Opcode) (h : tokens line = [op.mnemonic]) : Instructs line op 0
  | full (op : Opcode) (s : Spelling) (h : HasOperand line op s) : Instructs line op s.value

variable {line : String} {address : Nat} {op : Opcode} {v : Int} {s : Spelling} {word : Word}

theorem HasOperand.of_lineWord (h : HasOperand line op s) (hw : lineWord line address = .ok word) :
    s.digits.length ≤ maxDigits ∧ word = op.base + s.value := by
  obtain ⟨surplus, ht⟩ := h
  rw [lineWord_of_mnemonic address ht] at hw
  obtain ⟨v, hv, rfl⟩ := map_eq_ok_iff.1 hw
  rw [readOperand_text] at hv
  split_ifs at hv with hd
  exact ⟨hd, congrArg (op.base + ·) (Except.ok.inj hv).symm⟩

theorem Instructs.word_eq (h : Instructs line op v) (hw : lineWord line address = .ok word) :
    word = op.base + v := by
  cases h with
  | blank rest ht =>
    rw [lineWord_of_empty address ht] at hw
    exact (Except.ok.inj hw).symm
  | bare op ht =>
    rw [lineWord_of_mnemonic address ht] at hw
    rw [Int.add_zero]
    exact (Except.ok.inj hw).symm
  | full op s h => exact (h.of_lineWord hw).2

theorem exists_instructs (hw : lineWord line address = .ok word) : ∃ op v, Instructs line op v := by
  cases ht : tokens line with
  | nil => exact absurd ht (tokens_ne_nil line)
  | cons m rest =>
    by_cases hm : m = ""
    · exact ⟨_, _, .blank rest (hm ▸ ht)⟩
    cases hop : Opcode.ofMnemonic? m with
    | none =>
      rw [lineWord_of_not_mnemonic address ht hm hop] at hw
      cases hw
    | some op =>
      obtain rfl := Opcode.ofMnemonic?_eq_some_iff.1 hop
      cases rest with
      | nil => exact ⟨op, 0, .bare op ht⟩
      | cons token surplus =>
        rw [lineWord_of_mnemonic address ht] at hw
        obtain ⟨v, hv, -⟩ := map_eq_ok_iff.1 hw
        obtain ⟨s, hs, -⟩ := readOperand_eq_ok_iff.1 hv
        have htoken : token = String.ofList s.text := by rw [← hs, String.ofList_toList]
        exact ⟨op, s.value, .full op s ⟨surplus, htoken ▸ ht⟩⟩

end Image

namespace Assembler

open Image Source

/-- The instruction that a source has for an address: that of the line there, and `DATA 0` behind
the last line. -/
inductive Places (source : String) (i : Nat) : Opcode → Int → Prop
  | line {line : String} {op : Opcode} {v : Int} (hl : (lines source)[i]? = some line)
      (h : Instructs line op v) : Places source i op v
  | past (hl : (lines source)[i]? = none) : Places source i .data 0

variable {a : Assembler} {source : String} {i : Nat} {op : Opcode} {v : Int}

theorem imageOf_assemble (h : (a.assemble source).2 = .ok true) :
    ImageOf (lines source) (a.assemble source).1.image := by
  obtain ⟨words, hw⟩ := (assemble_eq_true_iff a).1 h
  rw [assemble_of_encodeLines a hw]
  exact imageOf_of_encodeLines hw

theorem exists_places (h : (a.assemble source).2 = .ok true) (hi : i < memorySize) :
    ∃ op v, Places source i op v := by
  cases hl : (lines source)[i]? with
  | none => exact ⟨.data, 0, .past hl⟩
  | some line =>
    obtain ⟨word, -, hw⟩ := (imageOf_assemble h).word i hi line hl
    obtain ⟨op, v, hline⟩ := exists_instructs hw
    exact ⟨op, v, .line hl hline⟩

theorem Places.word (hp : Places source i op v) (h : (a.assemble source).2 = .ok true)
    (hi : i < memorySize) : (a.assemble source).1.image[i]? = some (op.base + v) := by
  cases hp with
  | line hl hline =>
    obtain ⟨word, himage, hw⟩ := (imageOf_assemble h).word i hi _ hl
    rw [himage, hline.word_eq hw]
  | past hl => exact (imageOf_assemble h).zero i hi hl

theorem exists_places_of_mem (h : (a.assemble source).2 = .ok true) {w : Word}
    (hw : w ∈ (a.assemble source).1.image) :
    ∃ i < memorySize, ∃ op v, Places source i op v ∧ w = op.base + v := by
  obtain ⟨i, hlt, hi⟩ := List.getElem_of_mem hw
  have hsize : i < memorySize := by rwa [(imageOf_assemble h).size] at hlt
  obtain ⟨op, v, hp⟩ := exists_places h hsize
  have hword := hp.word h hsize
  rw [List.getElem?_eq_getElem hlt, hi] at hword
  exact ⟨i, hsize, op, v, hp, Option.some.inj hword⟩

end Assembler

end Johnny
