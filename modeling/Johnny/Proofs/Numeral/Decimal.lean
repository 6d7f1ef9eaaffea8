import Johnny.Proofs.Numeral.Spelling
import Mathlib.Data.List.TakeWhile

namespace Johnny

theorem writingBound_eq : writingBound = 10 ^ maxDigits := by
  unfold writingBound
  rfl

theorem writingBound_pos : 0 < writingBound := by
  rw [writingBound_eq]
  exact Nat.pow_pos (by decide)

theorem cast_writingBound : (writingBound : Int) = 10 ^ 4300 := by
  rw [writingBound_eq, maxDigits, Nat.cast_pow, Nat.cast_ofNat]

namespace Numeral

theorem magnitude_lt {n : Numeral} (h : ∀ d ∈ n.digits, d < 10) :
    n.magnitude < 10 ^ n.digits.length := by
  have hl := Nat.ofDigits_lt_base_pow_length (b := 10) (l := n.digits.reverse) (by decide)
    (by simpa using h)
  rwa [magnitude_eq_ofDigits, ← n.digits.length_reverse]

theorem exists_toDigits_eq (m : Nat) : ∃ digits : List (Fin 10), digits ≠ [] ∧
    Nat.toDigits 10 m = digitText digits ∧ Nat.ofDigits 10 (digits.map Fin.val).reverse = m := by
  induction m using Nat.strong_induction_on with
  | _ m ih =>
    by_cases hm : m < 10
    · refine ⟨[⟨m, hm⟩], by simp, Nat.toDigits_of_lt_base hm, ?_⟩
      simp [Nat.ofDigits_cons]
    · obtain ⟨digits, hne, ht, hv⟩ := ih (m / 10) (by omega)
      have hd : m % 10 < 10 := by omega
      refine ⟨digits ++ [⟨m % 10, hd⟩], by simp, ?_, ?_⟩
      · rw [Nat.toDigits_of_base_le (by decide) (by omega), ht]
        simp [digitText]
      · rw [List.map_append, List.reverse_append, List.map_singleton, List.reverse_singleton,
          List.singleton_append, Nat.ofDigits_cons, hv]
        exact Nat.mod_add_div m 10

/-- The decimal text of an integer spells it, with as many digits as its size needs. -/
theorem exists_spelling (n : Int) : ∃ s : Spelling, decimalDigits n = s.text ∧ s.value = n ∧
    (s.digits.length ≤ maxDigits ↔ n.natAbs < writingBound) := by
  obtain ⟨digits, hne, ht, hv⟩ := exists_toDigits_eq n.natAbs
  have hlen : digits.length ≤ maxDigits ↔ n.natAbs < writingBound := by
    have h := Nat.length_toDigits_le_iff (n := n.natAbs) (k := maxDigits) (b := 10) (by decide)
      (by decide)
    rwa [ht, digitText, List.length_map, ← writingBound_eq] at h
  by_cases hn : n < 0
  · refine ⟨⟨.minus, digits, hne⟩, by rw [decimalDigits, if_pos hn, ht]; rfl, ?_, hlen⟩
    simp only [Spelling.value, hv, if_true]
    omega
  · refine ⟨⟨.absent, digits, hne⟩, by rw [decimalDigits, if_neg hn, ht]; rfl, ?_, hlen⟩
    simp only [Spelling.value, hv, reduceCtorEq, if_false]
    omega

theorem forall_mem_decimalDigits {p : Char → Prop} (hm : p '-')
    (hd : ∀ d : Fin 10, p (Nat.digitChar d.val)) (n : Int) : ∀ c ∈ decimalDigits n, p c := by
  obtain ⟨digits, -, ht, -⟩ := exists_toDigits_eq n.natAbs
  have hdigits : ∀ c ∈ Nat.toDigits 10 n.natAbs, p c := by
    intro c hc
    rw [ht, digitText] at hc
    obtain ⟨d, -, rfl⟩ := List.mem_map.1 hc
    exact hd d
  unfold decimalDigits
  split_ifs
  · exact List.forall_mem_cons.2 ⟨hm, hdigits⟩
  · exact hdigits

theorem decimalDigits_injective : Function.Injective decimalDigits := by
  intro m n h
  obtain ⟨s, hs, rfl, -⟩ := exists_spelling m
  obtain ⟨t, ht, rfl, -⟩ := exists_spelling n
  apply value_eq_of_text_eq
  rw [← hs, h, ht]

theorem ofDigits_of_zeros {digits rest : List (Fin 10)} {k : Nat}
    (h : digits = List.replicate k 0 ++ rest) :
    Nat.ofDigits 10 (digits.map Fin.val).reverse = Nat.ofDigits 10 (rest.map Fin.val).reverse := by
  have hdigits : (digits.map Fin.val).reverse =
      (rest.map Fin.val).reverse ++ List.replicate k 0 := by
    rw [h]
    simp
  rw [hdigits, Nat.ofDigits_append_replicate_zero]

/-- The digits from the first that is not zero on. -/
def Spelling.significant (s : Spelling) : List (Fin 10) := s.digits.dropWhile (·.val = 0)

theorem digits_eq_significant (s : Spelling) :
    ∃ k, s.digits = List.replicate k 0 ++ s.significant := by
  refine ⟨(s.digits.takeWhile (·.val = 0)).length, ?_⟩
  have hzeros : s.digits.takeWhile (·.val = 0) =
      List.replicate (s.digits.takeWhile (·.val = 0)).length 0 := by
    apply List.eq_replicate_of_mem
    intro d hd
    have hzero := List.mem_takeWhile_imp hd
    exact Fin.ext (of_decide_eq_true hzero)
  rw [← hzeros]
  exact List.takeWhile_append_dropWhile.symm

theorem value_lt_pow_significant (s : Spelling) :
    s.value < (10 ^ s.significant.length : Nat) := by
  obtain ⟨k, hk⟩ := digits_eq_significant s
  have hlt := Nat.ofDigits_lt_base_pow_length (b := 10) (l := (s.significant.map Fin.val).reverse)
    (by decide) (by simp)
  rw [List.length_reverse, List.length_map] at hlt
  unfold Spelling.value
  rw [ofDigits_of_zeros hk]
  dsimp only
  split_ifs <;> omega

theorem length_significant_eq {s : Spelling} {n : Nat} (hl : s.digits.length ≤ n + 1)
    (hv : (10 ^ n : Nat) ≤ s.value) : s.significant.length = n + 1 := by
  have hle : s.significant.length ≤ s.digits.length := List.length_dropWhile_le _ _
  have hlt : 10 ^ n < 10 ^ s.significant.length := by
    have := value_lt_pow_significant s
    omega
  have hn : n < s.significant.length := (Nat.pow_lt_pow_iff_right (by decide)).1 hlt
  omega

end Numeral

end Johnny
