import Johnny.Proofs.Numeral.Decimal
import Mathlib.Data.Set.List

namespace Johnny.Numeral

/-- One optional sign and at least one of the ten digits, with nothing around or between them. -/
def IsOperand (token : List Char) : Prop :=
  ∃ (sign : Sign) (body : List Char),
    token = sign.text ++ body ∧ body ≠ [] ∧ ∀ c ∈ body, '0' ≤ c ∧ c ≤ '9'

theorem isDigit_iff {c : Char} : '0' ≤ c ∧ c ≤ '9' ↔ ∃ d : Fin 10, Nat.digitChar d.val = c := by
  constructor
  · intro h
    have hc : asciiDigit? c = some (c.toNat - '0'.toNat) := if_pos h
    obtain ⟨d, hd, -⟩ := asciiDigit?_eq_some_iff.1 hc
    exact ⟨d, hd.symm⟩
  · rintro ⟨d, rfl⟩
    revert d
    decide

theorem isOperand_iff {token : List Char} : IsOperand token ↔ ∃ s : Spelling, token = s.text := by
  constructor
  · rintro ⟨sign, body, rfl, hne, hbody⟩
    have hrange : body ∈ Set.range (List.map fun d : Fin 10 => Nat.digitChar d.val) := by
      rw [Set.range_list_map]
      exact fun c hc => isDigit_iff.1 (hbody c hc)
    obtain ⟨digits, rfl⟩ := hrange
    exact ⟨⟨sign, digits, by simpa using hne⟩, rfl⟩
  · rintro ⟨s, rfl⟩
    refine ⟨s.sign, digitText s.digits, rfl, by simpa [digitText] using s.digits_ne_nil, ?_⟩
    intro c hc
    obtain ⟨d, -, rfl⟩ := List.mem_map.1 hc
    exact isDigit_iff.2 ⟨d, rfl⟩

namespace Spelling

end Spelling

section

variable {token : String} {address : Address}

theorem readOperand_eq_fault_iff {f : Fault} :
    readOperand token address = .error (.fault f) ↔
      ¬ IsOperand token.toList ∧ f = .invalidOperand token address := by
  rw [isOperand_iff]
  by_cases h : ∃ s : Spelling, token.toList = s.text
  · obtain ⟨s, hs⟩ := h
    rw [readOperand_spelling hs]
    split_ifs <;> simp [hs]
  · rw [readOperand_invalid (by simpa using h)]
    simp [h, eq_comm]

end

end Johnny.Numeral
