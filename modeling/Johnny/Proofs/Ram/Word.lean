import Johnny.Proofs.Numeral.Decimal
import Johnny.Ram

namespace Johnny.Ram

open Numeral

/-- A digit of any script and its value, which is how far it stands behind the zero of the
script. -/
def IsDigit (c : Char) (value : Nat) : Prop :=
  value < 10 ∧ ∃ first ∈ Text.digitZeros, c.toNat = first + value

theorem digitZeros_apart : ∀ a ∈ Text.digitZeros, ∀ b ∈ Text.digitZeros,
    a < b + 10 → b < a + 10 → a = b := by
  decide +kernel

theorem decimalDigit?_eq_some_iff {c : Char} {v : Nat} :
    Text.decimalDigit? c = some v ↔ IsDigit c v := by
  constructor
  · intro h
    obtain ⟨first, hf, rfl⟩ := Option.map_eq_some_iff.1 h
    have hrow := List.find?_some hf
    simp only [Bool.and_eq_true, decide_eq_true_eq] at hrow
    exact ⟨by omega, first, List.mem_of_find?_eq_some hf, by omega⟩
  · rintro ⟨hv, first, hm, hc⟩
    unfold Text.decimalDigit?
    generalize hfind : Text.digitZeros.find? _ = found
    cases found with
    | none =>
      have hnone := List.find?_eq_none.1 hfind first hm
      simp only [Bool.and_eq_true, decide_eq_true_eq] at hnone
      omega
    | some other =>
      have hrow := List.find?_some hfind
      simp only [Bool.and_eq_true, decide_eq_true_eq] at hrow
      have he : other = first :=
        digitZeros_apart _ (List.mem_of_find?_eq_some hfind) _ hm (by omega) (by omega)
      rw [Option.map_some, Option.some_inj]
      omega

theorem isDigit_digitChar (d : Fin 10) : IsDigit (Nat.digitChar d.val) d.val := by
  rw [← decimalDigit?_eq_some_iff]
  revert d
  decide

theorem IsDigit.ne_mark {c : Char} {v : Nat} (h : IsDigit c v) : c ∉ ['_', '+', '-'] := by
  have hmarks : ∀ m ∈ ['_', '+', '-'], Text.decimalDigit? m = none := by
    simp only [List.forall_mem_cons]
    exact ⟨by decide, by decide, by decide, nofun⟩
  intro hc
  rw [← decimalDigit?_eq_some_iff, hmarks c hc] at h
  cases h

/-- Digits and their values, with at most one underscore between two of them. -/
inductive Grouped : List Char → List Nat → Prop
  | last {c : Char} {d : Nat} (hd : IsDigit c d) : Grouped [c] [d]
  | next {c : Char} {d : Nat} {text : List Char} {digits : List Nat} (hd : IsDigit c d)
      (h : Grouped text digits) : Grouped (c :: text) (d :: digits)
  | group {c : Char} {d : Nat} {text : List Char} {digits : List Nat} (hd : IsDigit c d)
      (h : Grouped text digits) : Grouped (c :: '_' :: text) (d :: digits)

theorem Grouped.exists_cons {text : List Char} {digits : List Nat} (h : Grouped text digits) :
    ∃ c rest, text = c :: rest ∧ c ∉ ['_', '+', '-'] := by
  cases h with
  | last hd => exact ⟨_, _, rfl, hd.ne_mark⟩
  | next hd h => exact ⟨_, _, rfl, hd.ne_mark⟩
  | group hd h => exact ⟨_, _, rfl, hd.ne_mark⟩

theorem Grouped.lt {text : List Char} {digits : List Nat} (h : Grouped text digits) :
    ∀ d ∈ digits, d < 10 := by
  induction h with
  | last hd => exact List.forall_mem_singleton.2 hd.1
  | next hd h ih => exact List.forall_mem_cons.2 ⟨hd.1, ih⟩
  | group hd h ih => exact List.forall_mem_cons.2 ⟨hd.1, ih⟩

theorem grouped_digitText {digits : List (Fin 10)} (h : digits ≠ []) :
    Grouped (digitText digits) (digits.map Fin.val) := by
  induction digits with
  | nil => exact absurd rfl h
  | cons d rest ih =>
    cases rest with
    | nil => exact .last (isDigit_digitChar d)
    | cons e more => exact .next (isDigit_digitChar d) (ih (List.cons_ne_nil e more))

theorem consDigit_eq_some_iff {c : Char} {digits : Option (List Nat)} {values : List Nat} :
    groupedDigits?.consDigit c digits = some values ↔
      ∃ d ds, IsDigit c d ∧ digits = some ds ∧ values = d :: ds := by
  simp only [← decimalDigit?_eq_some_iff]
  unfold groupedDigits?.consDigit
  cases Text.decimalDigit? c with
  | none => simp
  | some d => cases digits <;> simp [eq_comm]

theorem groupedDigits?_of_grouped {text : List Char} {digits : List Nat}
    (h : Grouped text digits) : groupedDigits? text = some digits := by
  induction h with
  | last hd => rw [groupedDigits?, decimalDigit?_eq_some_iff.2 hd]; rfl
  | next hd h ih =>
    -- What follows is a digit, so this is not a digit with an underscore behind it.
    obtain ⟨e, rest, rfl, he⟩ := h.exists_cons
    rw [groupedDigits?.eq_4, consDigit_eq_some_iff]
    · exact ⟨_, _, hd, ih, rfl⟩
    · exact nofun
    · intro more hmore
      exact he (by simp [(List.cons.inj hmore).1])
  | group hd h ih =>
    rw [groupedDigits?, consDigit_eq_some_iff]
    exact ⟨_, _, hd, ih, rfl⟩

theorem grouped_of_groupedDigits? {text : List Char} {digits : List Nat}
    (h : groupedDigits? text = some digits) : Grouped text digits := by
  fun_induction groupedDigits? text generalizing digits with
  | case1 => cases h
  | case2 c =>
    obtain ⟨d, hd, rfl⟩ := Option.map_eq_some_iff.1 h
    exact .last (decimalDigit?_eq_some_iff.1 hd)
  | case3 c rest ih =>
    obtain ⟨d, ds, hd, hds, rfl⟩ := consDigit_eq_some_iff.1 h
    exact .group hd (ih hds)
  | case4 c rest h1 h2 ih =>
    obtain ⟨d, ds, hd, hds, rfl⟩ := consDigit_eq_some_iff.1 h
    exact .next hd (ih hds)

theorem numeral?_eq_some_iff {text : List Char} {n : Numeral} :
    numeral? text = some n ↔ ∃ (sign : Sign) (body : List Char) (digits : List Nat),
      text = sign.text ++ body ∧ Grouped body digits ∧ n = ⟨sign = .minus, digits⟩ := by
  constructor
  · intro h
    obtain ⟨sign, ht, hs⟩ := splitSign_eq text
    obtain ⟨digits, hd, rfl⟩ := Option.map_eq_some_iff.1 h
    exact ⟨sign, _, digits, ht, grouped_of_groupedDigits? hd, congrArg (Numeral.mk · digits) hs⟩
  · rintro ⟨sign, body, digits, rfl, hd, rfl⟩
    have hbody : ∀ c ∈ body.head?, c ≠ '+' ∧ c ≠ '-' := by
      obtain ⟨c, rest, rfl, hc⟩ := hd.exists_cons
      simp_all
    rw [numeral?, splitSign_append sign hbody]
    simp only [groupedDigits?_of_grouped hd, Option.map_some]

/-- The value of digits in base ten, the last one counting once, with a sign. -/
def signed (sign : Sign) (digits : List Nat) : Word :=
  let magnitude : Nat := Nat.ofDigits 10 digits.reverse
  if sign = .minus then -magnitude else magnitude

/-- What a line may hold between blanks, and the word that it stands for. -/
inductive Spells : List Char → Word → Prop
  | empty : Spells [] 0
  | number (sign : Sign) {text : List Char} {digits : List Nat} (h : Grouped text digits)
      (hl : digits.length ≤ 4300) : Spells (sign.text ++ text) (signed sign digits)

theorem value_eq_signed (sign : Sign) (digits : List Nat) :
    Numeral.value ⟨sign = .minus, digits⟩ = signed sign digits := by
  simp only [Numeral.value, magnitude_eq_ofDigits, signed, decide_eq_true_eq]

theorem word?_eq_some_iff {text : List Char} {w : Word} : word? text = some w ↔ Spells text w := by
  constructor
  · intro h
    unfold word? at h
    split_ifs at h with he
    · obtain rfl := Option.some.inj h
      exact he ▸ .empty
    cases hn : numeral? text with
    | none => rw [hn] at h; cases h
    | some n =>
      obtain ⟨sign, body, digits, rfl, hd, rfl⟩ := numeral?_eq_some_iff.1 hn
      simp only [hn, Numeral.read] at h
      split_ifs at h with hl
      · obtain rfl := Option.some.inj h
        rw [value_eq_signed]
        exact .number sign hd hl
      · cases h
  · intro h
    cases h with
    | empty => rfl
    | @number sign body digits hd hl =>
      have hne : sign.text ++ body ≠ [] := by
        obtain ⟨c, rest, rfl, -⟩ := hd.exists_cons
        simp
      have hl' : digits.length ≤ maxDigits := hl
      rw [word?, if_neg hne, numeral?_eq_some_iff.2 ⟨sign, body, digits, rfl, hd, rfl⟩]
      simp only [Numeral.read, if_pos hl', value_eq_signed]
      rfl

theorem spells_text {s : Spelling} (h : s.digits.length ≤ maxDigits) : Spells s.text s.value := by
  have hl : (s.digits.map Fin.val).length ≤ 4300 := by rwa [List.length_map]
  exact .number s.sign (grouped_digitText s.digits_ne_nil) hl

theorem not_spells_text {s : Spelling} (h : maxDigits < s.digits.length) (w : Word) :
    ¬ Spells s.text w := by
  have hn : numeral? s.text = some s.numeral :=
    numeral?_eq_some_iff.2 ⟨s.sign, _, _, rfl, grouped_digitText s.digits_ne_nil, rfl⟩
  rw [← word?_eq_some_iff, word?, if_neg (text_ne_nil s), hn]
  simp only [read_numeral, if_neg (Nat.not_le.2 h)]
  exact nofun

theorem natAbs_value (n : Numeral) : n.value.natAbs = n.magnitude := by
  unfold Numeral.value
  split_ifs <;> simp

/-- What can be read is small enough to be written. -/
theorem Spells.natAbs_lt {text : List Char} {w : Word} (h : Spells text w) :
    w.natAbs < writingBound := by
  cases h with
  | empty => exact writingBound_pos
  | @number sign body digits hd hl =>
    rw [← value_eq_signed, natAbs_value, writingBound_eq]
    apply Nat.lt_of_lt_of_le (magnitude_lt hd.lt)
    exact Nat.pow_le_pow_right (by decide) hl

end Johnny.Ram
