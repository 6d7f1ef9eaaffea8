import Johnny.Proofs.Image.Lines
import Johnny.Proofs.Numeral.Spelling
import Johnny.Proofs.Source.Tokens

namespace Johnny

namespace Opcode

theorem mem_all (op : Opcode) : op ∈ all := by
  cases op <;> decide

theorem ofMnemonic?_eq_none_iff {m : String} :
    ofMnemonic? m = none ↔ ∀ op : Opcode, m ≠ op.mnemonic := by
  simp only [ofMnemonic?, List.find?_eq_none, decide_eq_true_eq]
  exact ⟨fun h op he => h op (mem_all op) he.symm, fun h op _ he => h op he.symm⟩

theorem ofMnemonic?_eq_some_iff {m : String} {op : Opcode} :
    ofMnemonic? m = some op ↔ m = op.mnemonic := by
  refine ⟨fun h => ?_, fun h => h ▸ ofMnemonic?_mnemonic op⟩
  have hfound := List.find?_some h
  exact (of_decide_eq_true hfound).symm

theorem solid_mnemonic (op : Opcode) : Source.Solid op.mnemonic.toList := by
  cases op <;> decide

theorem mnemonic_ne_empty (op : Opcode) : op.mnemonic ≠ "" := by
  cases op <;> decide

end Opcode

theorem Instruction.encode_unknown {i : Instruction} (hm : i.mnemonic ≠ "")
    (h : Opcode.ofMnemonic? i.mnemonic = none) :
    i.encode = .error (.fault (.unknownOpcode i.mnemonic i.address)) := by
  rw [encode, if_neg hm]
  simp only [h]

theorem Instruction.encode_mnemonic (op : Opcode) (operand : Option String) (address : Address)
    (surplus : List String) :
    Instruction.encode ⟨op.mnemonic, operand, address, surplus⟩ =
      match operand with
      | none => .ok op.base
      | some token => (readOperand token address).map (op.base + ·) := by
  rw [encode, if_neg op.mnemonic_ne_empty]
  cases operand <;> simp only [Opcode.ofMnemonic?_mnemonic]

namespace Image

open Source Numeral

theorem lineWord_eq (line : String) (address : Nat) :
    lineWord line address = Instruction.encode
      ⟨String.ofList (firstToken line.toList),
        (splitTokens line.toList)[1]?.map String.ofList, address, []⟩ := by
  rw [lineWord, tokens]
  rcases splitTokens_eq line.toList with ⟨-, h⟩ | ⟨-, h⟩
  · rw [h]
    rfl
  · rw [h]
    cases splitTokens (afterGap line.toList) with
    | nil => rfl
    | cons second rest => rfl

theorem lineWord_of_mnemonic {line : String} (address : Nat) {op : Opcode} {rest : List String}
    (h : tokens line = op.mnemonic :: rest) : lineWord line address =
      match rest.head? with
      | none => .ok op.base
      | some token => (readOperand token address).map (op.base + ·) := by
  rw [lineWord, h]
  cases rest with
  | nil => exact Instruction.encode_mnemonic op none address []
  | cons token surplus => exact Instruction.encode_mnemonic op (some token) address surplus

/-- A line without a mnemonic is the word 0, whatever else is on it. -/
theorem lineWord_of_empty {line : String} (address : Nat) {rest : List String}
    (h : tokens line = "" :: rest) : lineWord line address = .ok 0 := by
  rw [lineWord, h]
  cases rest <;> rfl

theorem lineWord_of_not_mnemonic {line : String} (address : Nat) {m : String} {rest : List String}
    (h : tokens line = m :: rest) (hne : m ≠ "") (hop : Opcode.ofMnemonic? m = none) :
    lineWord line address = .error (.fault (.unknownOpcode m address)) := by
  rw [lineWord, h]
  cases rest with
  | nil => exact Instruction.encode_unknown hne hop
  | cons token surplus => exact Instruction.encode_unknown hne hop

theorem splitTokens_second {line : List Char} (h : ¬ Solid line) :
    (splitTokens line)[1]? = some (secondToken line) := by
  rcases splitTokens_eq line with ⟨hs, -⟩ | ⟨-, ht⟩
  · exact absurd hs h
  · rw [ht]
    rcases splitTokens_eq (afterGap line) with ⟨-, ha⟩ | ⟨-, ha⟩ <;> simp [ha, secondToken]

theorem lineWord_of_indented {line : String} (address : Nat) (h : firstToken line.toList = []) :
    lineWord line address = .ok 0 := by
  rw [lineWord_eq, h]
  rfl

theorem ofList_eq_mnemonic_iff {word : List Char} {op : Opcode} :
    String.ofList word = op.mnemonic ↔ word = op.mnemonic.toList := by
  refine ⟨fun h => ?_, fun h => ?_⟩
  · rw [← h, String.toList_ofList]
  · rw [h, String.ofList_toList]

theorem lineWord_of_unknown {line : String} (address : Nat) (hne : firstToken line.toList ≠ [])
    (h : ∀ op : Opcode, firstToken line.toList ≠ op.mnemonic.toList) :
    lineWord line address =
      .error (.fault (.unknownOpcode (String.ofList (firstToken line.toList)) address)) := by
  have hm : Opcode.ofMnemonic? (String.ofList (firstToken line.toList)) = none :=
    Opcode.ofMnemonic?_eq_none_iff.2 fun op he => h op (ofList_eq_mnemonic_iff.1 he)
  rw [lineWord_eq]
  exact Instruction.encode_unknown (by simpa using hne) hm

theorem lineWord_of_bare {line : String} (address : Nat) {op : Opcode}
    (h : line.toList = op.mnemonic.toList) : lineWord line address = .ok op.base := by
  have hs := op.solid_mnemonic
  rw [lineWord_eq, h, firstToken_solid hs, splitTokens_solid hs, String.ofList_toList,
    Instruction.encode_mnemonic]
  rfl

theorem lineWord_of_operand {line : String} (address : Nat) {op : Opcode}
    (h : firstToken line.toList = op.mnemonic.toList) (hs : ¬ Solid line.toList) :
    lineWord line address =
      (readOperand (String.ofList (secondToken line.toList)) address).map (op.base + ·) := by
  rw [lineWord_eq, h, String.ofList_toList, splitTokens_second hs, Instruction.encode_mnemonic]
  rfl

end Image

end Johnny
