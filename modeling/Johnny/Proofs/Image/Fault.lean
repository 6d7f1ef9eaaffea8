import Johnny.Proofs.Image.Words
import Johnny.Proofs.Numeral.Operand

namespace Johnny

namespace Text

variable {front other back rest : List Char} {c : Char}

theorem eq_nil_of_last {more : List Char} (hb : c ∉ back) (h : c :: back = more ++ c :: rest) :
    more = [] ∧ back = rest := by
  cases more with
  | nil => exact ⟨rfl, (List.cons.inj h).2⟩
  | cons d ds =>
    have hback : back = ds ++ c :: rest := (List.cons.inj h).2
    exact absurd (by simp [hback]) hb

/-- The last place of a character divides a text in one way only. -/
theorem last_cancel (hb : c ∉ back) (hr : c ∉ rest)
    (h : front ++ c :: back = other ++ c :: rest) : front = other ∧ back = rest := by
  rcases List.append_eq_append_iff.1 h with ⟨more, rfl, ht⟩ | ⟨more, rfl, ht⟩
  · obtain ⟨rfl, rfl⟩ := eq_nil_of_last hb ht
    exact ⟨(List.append_nil front).symm, rfl⟩
  · obtain ⟨rfl, rfl⟩ := eq_nil_of_last hr ht
    exact ⟨List.append_nil other, rfl⟩

end Text

namespace Fault

/-- A token may hold anything, even the rest of a message, so the two parts are told apart from
behind: an address has no space in its text, and the last space there is stands right before it. -/
theorem token_address_inj {opening closing token other : String} {a b : Address}
    (h : opening ++ token ++ "\" in line " ++ decimal a ++ closing =
      opening ++ other ++ "\" in line " ++ decimal b ++ closing) : token = other ∧ a = b := by
  have hspace (n : Int) : ' ' ∉ decimalDigits n := by
    intro hn
    exact Numeral.forall_mem_decimalDigits (p := (· ≠ ' ')) (by decide) (by decide) n _ hn rfl
  have hline (text : String) (n : Int) : (text ++ "\" in line " ++ decimal n).toList =
      (text ++ "\" in line").toList ++ ' ' :: decimalDigits n := by
    simp [decimal]
  have htext := congrArg String.toList ((String.append_left_inj closing).1 h)
  rw [hline, hline] at htext
  obtain ⟨hfront, hdigits⟩ := Text.last_cancel (hspace a) (hspace b) htext
  have htoken := (String.append_left_inj _).1 (String.toList_inj.1 hfront)
  exact ⟨(String.append_right_inj opening).1 htoken, Numeral.decimalDigits_injective hdigits⟩

theorem message_unknownOpcode_ne (m token : String) (a b : Address) :
    (unknownOpcode m a).message ≠ (invalidOperand token b).message := by
  intro h
  have hhead := congrArg (fun text => text.toList.head?) h
  unfold message at hhead
  simp at hhead

theorem message_injective : Function.Injective message := by
  intro f g h
  cases f with
  | unknownOpcode m a =>
    cases g with
    | unknownOpcode n b =>
      obtain ⟨rfl, rfl⟩ := token_address_inj h
      rfl
    | invalidOperand token b => exact absurd h (message_unknownOpcode_ne m token a b)
  | invalidOperand token a =>
    cases g with
    | unknownOpcode m b => exact absurd h.symm (message_unknownOpcode_ne m token b a)
    | invalidOperand other b =>
      obtain ⟨rfl, rfl⟩ := token_address_inj h
      rfl

end Fault

namespace Image

open Numeral Source

/-- The fault of a line at an address. It names the first token, if that is neither empty nor a
mnemonic, or the second one, if that is no operand and stands behind a mnemonic. -/
inductive FaultOf (line : String) (address : Nat) : Fault → Prop
  | opcode {m : String} {rest : List String} (h : tokens line = m :: rest) (hne : m ≠ "")
      (hop : ∀ op : Opcode, m ≠ op.mnemonic) : FaultOf line address (.unknownOpcode m address)
  | operand {op : Opcode} {token : String} {surplus : List String}
      (h : tokens line = op.mnemonic :: token :: surplus) (ht : ¬ IsOperand token.toList) :
      FaultOf line address (.invalidOperand token address)

variable {line : String} {address : Nat} {f : Fault}

theorem FaultOf.address_eq (h : FaultOf line address f) : f.address = address := by
  cases h <;> rfl

theorem FaultOf.writeDecimal_address (h : FaultOf line address f) (hlt : address < memorySize) :
    writeDecimal f.address = .ok (decimal f.address) := by
  rw [h.address_eq]
  exact Johnny.writeDecimal_address hlt

theorem faultOf_of_lineWord (h : lineWord line address = .error (.fault f)) :
    FaultOf line address f := by
  cases ht : tokens line with
  | nil => exact absurd ht (tokens_ne_nil line)
  | cons m rest =>
    by_cases hm : m = ""
    · rw [lineWord_of_empty address (hm ▸ ht)] at h
      cases h
    cases hop : Opcode.ofMnemonic? m with
    | none =>
      rw [lineWord_of_not_mnemonic address ht hm hop] at h
      obtain rfl := EncodeError.fault.inj (Except.error.inj h)
      exact .opcode ht hm (Opcode.ofMnemonic?_eq_none_iff.1 hop)
    | some op =>
      obtain rfl := Opcode.ofMnemonic?_eq_some_iff.1 hop
      rw [lineWord_of_mnemonic address ht] at h
      cases rest with
      | nil => cases h
      | cons token surplus =>
        obtain ⟨hnot, rfl⟩ := readOperand_eq_fault_iff.1 (map_eq_error_iff.1 h)
        exact .operand ht hnot

theorem FaultOf.lineWord_eq (h : FaultOf line address f) :
    lineWord line address = .error (.fault f) := by
  cases h with
  | opcode ht hne hop =>
    exact lineWord_of_not_mnemonic address ht hne (Opcode.ofMnemonic?_eq_none_iff.2 hop)
  | operand ht hnot =>
    rw [lineWord_of_mnemonic address ht]
    exact map_eq_error_iff.2 (readOperand_eq_fault_iff.2 ⟨hnot, rfl⟩)

theorem lineWord_eq_fault_iff :
    lineWord line address = .error (.fault f) ↔ FaultOf line address f :=
  ⟨faultOf_of_lineWord, FaultOf.lineWord_eq⟩

theorem FirstFailure.exists_faultOf {lines : List String} {k : Nat}
    (h : FirstFailure 0 lines k (.fault f)) : ∃ line, lines[k]? = some line ∧ FaultOf line k f := by
  obtain ⟨line, hl, he⟩ := h.fails
  rw [Nat.zero_add] at he
  exact ⟨line, hl, lineWord_eq_fault_iff.1 he⟩

end Image

end Johnny
