import Johnny.Instruction
import Mathlib.Data.Nat.Digits.Defs
import Mathlib.Tactic.IntervalCases

namespace Johnny.Numeral

inductive Sign where
  | absent
  | plus
  | minus
  deriving DecidableEq

def Sign.text : Sign → List Char
  | absent => []
  | plus => ['+']
  | minus => ['-']

/-- An integer as an operand spells it: perhaps a sign, and at least one of the ten digits. -/
structure Spelling where
  sign : Sign
  digits : List (Fin 10)
  digits_ne_nil : digits ≠ [] := by decide

def digitText (digits : List (Fin 10)) : List Char := digits.map fun d => Nat.digitChar d.val

namespace Spelling

def text (s : Spelling) : List Char := s.sign.text ++ digitText s.digits

def value (s : Spelling) : Int :=
  let magnitude : Nat := Nat.ofDigits 10 (s.digits.map Fin.val).reverse
  if s.sign = .minus then -magnitude else magnitude

def numeral (s : Spelling) : Numeral := ⟨s.sign = .minus, s.digits.map Fin.val⟩

end Spelling

theorem text_ne_nil (s : Spelling) : s.text ≠ [] := by
  simp [Spelling.text, digitText, s.digits_ne_nil]

theorem forall_mem_text {p : Char → Prop} (hs : p '+' ∧ p '-')
    (hd : ∀ d : Fin 10, p (Nat.digitChar d.val)) (s : Spelling) : ∀ c ∈ s.text, p c := by
  intro c hc
  rcases List.mem_append.1 hc with h | h
  · cases hsign : s.sign <;> simp_all [Sign.text]
  · obtain ⟨d, -, rfl⟩ := List.mem_map.1 h
    exact hd d

theorem magnitude_eq_ofDigits (n : Numeral) : n.magnitude = Nat.ofDigits 10 n.digits.reverse := by
  rw [Nat.ofDigits_eq_foldr, List.foldr_reverse, magnitude]
  congr 1
  funext v d
  simp [Nat.add_comm]

theorem Spelling.value_numeral (s : Spelling) : s.numeral.value = s.value := by
  simp only [Numeral.value, magnitude_eq_ofDigits, Spelling.value, Spelling.numeral,
    decide_eq_true_eq]

theorem asciiDigit?_digitChar (d : Fin 10) : asciiDigit? (Nat.digitChar d) = some d.val := by
  revert d
  decide

theorem asciiDigit?_eq_some_iff {c : Char} {v : Nat} :
    asciiDigit? c = some v ↔ ∃ d : Fin 10, c = Nat.digitChar d ∧ v = d.val := by
  constructor
  · intro h
    simp only [asciiDigit?, Option.ite_none_right_eq_some, Option.some.injEq] at h
    obtain ⟨⟨hl, hu⟩, hv⟩ := h
    have hl' : 48 ≤ c.toNat := hl
    have hu' : c.toNat ≤ 57 := hu
    change c.toNat - 48 = v at hv
    refine ⟨⟨v, by omega⟩, ?_, rfl⟩
    apply Char.toNat_inj.1
    rw [Nat.toNat_digitChar_of_lt_ten (by simp; omega)]
    simp
    omega
  · rintro ⟨d, rfl, rfl⟩
    exact asciiDigit?_digitChar d

theorem mapM_asciiDigit?_eq_some_iff {text : List Char} {values : List Nat} :
    text.mapM asciiDigit? = some values ↔ ∃ digits : List (Fin 10),
      text = digitText digits ∧ values = digits.map Fin.val := by
  induction text generalizing values with
  | nil =>
    constructor
    · intro h
      exact ⟨[], rfl, by simpa [eq_comm] using h⟩
    · rintro ⟨digits, ht, rfl⟩
      simp_all [digitText]
  | cons c rest ih =>
    simp only [List.mapM_cons, Option.bind_eq_bind, Option.bind_eq_some_iff, Option.pure_def,
      Option.some.injEq, asciiDigit?_eq_some_iff, ih]
    constructor
    · rintro ⟨_, ⟨d, rfl, rfl⟩, _, ⟨ds, rfl, rfl⟩, rfl⟩
      exact ⟨d :: ds, rfl, rfl⟩
    · rintro ⟨digits, ht, rfl⟩
      cases digits with
      | nil => simp [digitText] at ht
      | cons d ds =>
        obtain ⟨rfl, rfl⟩ := List.cons.inj ht
        exact ⟨_, ⟨d, rfl, rfl⟩, _, ⟨ds, rfl, rfl⟩, rfl⟩

theorem digitChar_ne_sign (d : Fin 10) :
    Nat.digitChar d.val ≠ '+' ∧ Nat.digitChar d.val ≠ '-' := by
  revert d
  decide

theorem splitSign_eq (token : List Char) : ∃ sign : Sign,
    token = sign.text ++ (splitSign token).2 ∧
      (splitSign token).1 = decide (sign = .minus) := by
  unfold splitSign
  split
  · exact ⟨.plus, rfl, rfl⟩
  · exact ⟨.minus, rfl, rfl⟩
  · exact ⟨.absent, rfl, rfl⟩

theorem splitSign_append (sign : Sign) {body : List Char}
    (h : ∀ c ∈ body.head?, c ≠ '+' ∧ c ≠ '-') :
    splitSign (sign.text ++ body) = (decide (sign = .minus), body) := by
  cases sign with
  | plus => rfl
  | minus => rfl
  | absent =>
    cases body with
    | nil => rfl
    | cons c rest =>
      obtain ⟨hp, hm⟩ := h c rfl
      rw [Sign.text, List.nil_append]
      unfold splitSign
      split <;> simp_all

theorem splitSign_text (s : Spelling) :
    splitSign s.text = (decide (s.sign = .minus), digitText s.digits) := by
  apply splitSign_append
  intro c hc
  obtain ⟨d, -, rfl⟩ := List.mem_map.1 (List.mem_of_mem_head? hc)
  exact digitChar_ne_sign d

theorem ofOperand?_eq_some_iff {token : List Char} {n : Numeral} :
    ofOperand? token = some n ↔ ∃ s : Spelling, token = s.text ∧ n = s.numeral := by
  constructor
  · intro h
    obtain ⟨sign, ht, hs⟩ := splitSign_eq token
    simp only [ofOperand?] at h
    split at h
    · rename_i d ds hb
      obtain ⟨digits, hbody, hvalues⟩ := mapM_asciiDigit?_eq_some_iff.1 hb
      have hne : digits ≠ [] := by rintro rfl; simp at hvalues
      refine ⟨⟨sign, digits, hne⟩, by rw [Spelling.text, ← hbody]; exact ht, ?_⟩
      rw [← Option.some.inj h, hs, hvalues]
      rfl
    · cases h
  · rintro ⟨s, rfl, rfl⟩
    have hd := mapM_asciiDigit?_eq_some_iff.2 ⟨s.digits, rfl, rfl⟩
    obtain ⟨d, ds, hds⟩ := List.exists_cons_of_ne_nil s.digits_ne_nil
    rw [hds, List.map_cons] at hd
    simp [ofOperand?, splitSign_text, hds, hd, Spelling.numeral]

theorem value_eq_of_text_eq {s t : Spelling} (h : s.text = t.text) : s.value = t.value := by
  have hs := ofOperand?_eq_some_iff.2 ⟨s, rfl, rfl⟩
  have ht := ofOperand?_eq_some_iff.2 ⟨t, h, rfl⟩
  have hn : s.numeral = t.numeral := Option.some.inj (hs.symm.trans ht)
  rw [← s.value_numeral, hn, t.value_numeral]

theorem read_numeral (s : Spelling) : s.numeral.read =
    if s.digits.length ≤ maxDigits then .ok s.value else .error (.reading s.digits.length) := by
  have hl : s.numeral.digits.length = s.digits.length := List.length_map _
  rw [Numeral.read, Spelling.value_numeral, hl]

theorem readOperand_spelling {token : String} {address : Address} {s : Spelling}
    (h : token.toList = s.text) : readOperand token address =
      if s.digits.length ≤ maxDigits then .ok s.value
      else .error (.digits (.reading s.digits.length)) := by
  rw [readOperand, ofOperand?_eq_some_iff.2 ⟨s, h, rfl⟩]
  simp only [read_numeral]
  split_ifs <;> rfl

theorem readOperand_text (s : Spelling) (address : Address) :
    readOperand (String.ofList s.text) address =
      if s.digits.length ≤ maxDigits then .ok s.value
      else .error (.digits (.reading s.digits.length)) :=
  readOperand_spelling String.toList_ofList

theorem readOperand_invalid {token : String} {address : Address}
    (h : ∀ s : Spelling, token.toList ≠ s.text) :
    readOperand token address = .error (.fault (.invalidOperand token address)) := by
  cases hn : ofOperand? token.toList with
  | none => rw [readOperand, hn]
  | some n =>
    obtain ⟨s, ht, -⟩ := ofOperand?_eq_some_iff.1 hn
    exact absurd ht (h s)

theorem readOperand_eq_ok_iff {token : String} {address : Address} {v : Int} :
    readOperand token address = .ok v ↔
      ∃ s : Spelling, token.toList = s.text ∧ s.digits.length ≤ maxDigits ∧ v = s.value := by
  constructor
  · intro h
    by_cases hs : ∃ s : Spelling, token.toList = s.text
    · obtain ⟨s, ht⟩ := hs
      rw [readOperand_spelling ht] at h
      split_ifs at h with hd
      exact ⟨s, ht, hd, (Except.ok.inj h).symm⟩
    · rw [readOperand_invalid (by simpa using hs)] at h
      cases h
  · rintro ⟨s, ht, hd, rfl⟩
    rw [readOperand_spelling ht, if_pos hd]

end Johnny.Numeral
