import Johnny.Proofs.Except
import Johnny.Proofs.Ram.Word
import Johnny.Proofs.Text.Trim
import Mathlib.Data.List.Forall2

namespace Johnny

theorem forall_or_exists_first {α : Type} (p : α → Prop) (members : List α) :
    (∀ a ∈ members, p a) ∨
      ∃ before a after, members = before ++ a :: after ∧ (∀ b ∈ before, p b) ∧ ¬ p a := by
  induction members with
  | nil => exact .inl nofun
  | cons a rest ih =>
    by_cases ha : p a
    · rcases ih with hrest | ⟨before, b, after, rfl, hbefore, hb⟩
      · exact .inl (List.forall_mem_cons.2 ⟨ha, hrest⟩)
      · exact .inr ⟨a :: before, b, after, rfl, List.forall_mem_cons.2 ⟨ha, hbefore⟩, hb⟩
    · exact .inr ⟨[], a, rest, rfl, nofun, ha⟩

namespace Ram

open Source Text

/-- What is left of a line without the blanks at its ends stands for a word. -/
def LineHolds (line : String) (word : Word) : Prop :=
  ∃ core, Trimmed isBlank line.toList core ∧ Spells core word

/-- The first line that holds no word, and the lines before it. -/
structure FirstInvalid (lines before : List String) (line : String) : Prop where
  split : ∃ after, lines = before ++ line :: after
  holds : ∀ earlier ∈ before, ∃ word, LineHolds earlier word
  invalid : ∀ word, ¬ LineHolds line word

section

variable {line : String} {word : Word} {rest lines before : List String} {words : List Word}
  {core : List Char}

theorem lineHolds_iff : LineHolds line word ↔ word? (trim isBlank line.toList) = some word := by
  rw [word?_eq_some_iff]
  constructor
  · rintro ⟨core, hc, hw⟩
    rwa [hc.trim_eq]
  · exact fun h => ⟨_, trimmed_trim isBlank line.toList, h⟩

instance (line : String) (word : Word) : Decidable (LineHolds line word) :=
  decidable_of_iff _ lineHolds_iff.symm

theorem not_lineHolds_iff :
    (∀ word, ¬ LineHolds line word) ↔ word? (trim isBlank line.toList) = none := by
  simp only [lineHolds_iff, Option.eq_none_iff_forall_ne_some, ne_eq]

theorem LineHolds.unique {other : Word} (h : LineHolds line word) (ho : LineHolds line other) :
    word = other := by
  rw [lineHolds_iff] at h ho
  exact Option.some.inj (h.symm.trans ho)

theorem exists_firstInvalid {bad : String} (hm : bad ∈ lines)
    (hbad : ∀ word, ¬ LineHolds bad word) : ∃ before line, FirstInvalid lines before line := by
  rcases forall_or_exists_first (fun line => ∃ word, LineHolds line word) lines with
    hall | ⟨before, line, after, hlines, hbefore, hline⟩
  · obtain ⟨word, hw⟩ := hall bad hm
    exact absurd hw (hbad word)
  · exact ⟨before, line, ⟨after, hlines⟩, hbefore, not_exists.1 hline⟩

theorem lineHolds_of_spells {text : List Char} (hb : ∀ c ∈ text, isBlank c = false)
    (h : Spells text word) : LineHolds (String.ofList text) word := by
  rw [lineHolds_iff, String.toList_ofList, trim_eq_self hb, word?_eq_some_iff]
  exact h

theorem readWords_cons_of_holds (h : LineHolds line word) (address : Nat) (rest : List String) :
    readWords address (line :: rest) = (readWords (address + 1) rest).map (word :: ·) := by
  simp only [readWords, lineHolds_iff.1 h]

theorem readWords_cons_of_invalid (h : ∀ word, ¬ LineHolds line word)
    (hc : Trimmed isBlank line.toList core) (address : Nat) (rest : List String) :
    readWords address (line :: rest) = .error (.invalidWord (String.ofList core) address) := by
  have hcore := not_lineHolds_iff.1 h
  rw [hc.trim_eq] at hcore
  simp only [readWords, hc.trim_eq, hcore]

theorem readWords_eq_ok_iff {address : Nat} :
    readWords address lines = .ok words ↔ List.Forall₂ LineHolds lines words := by
  induction lines generalizing address words with
  | nil =>
    rw [List.forall₂_nil_left_iff, readWords, Except.ok.injEq]
    exact eq_comm
  | cons line rest ih =>
    by_cases h : ∃ word, LineHolds line word
    · obtain ⟨word, hw⟩ := h
      rw [readWords_cons_of_holds hw, map_eq_ok_iff, List.forall₂_cons_left_iff]
      constructor
      · rintro ⟨more, hmore, rfl⟩
        exact ⟨word, more, hw, ih.1 hmore, rfl⟩
      · rintro ⟨other, more, ho, hmore, rfl⟩
        exact ⟨more, ih.2 hmore, by rw [hw.unique ho]⟩
    · rw [not_exists] at h
      rw [readWords_cons_of_invalid h (trimmed_trim _ _), List.forall₂_cons_left_iff]
      constructor
      · exact nofun
      · rintro ⟨word, -, hw, -⟩
        exact absurd hw (h word)

/-- The first line that holds no word ends the reading. -/
theorem readWords_of_firstInvalid (h : FirstInvalid lines before line)
    (hc : Trimmed isBlank line.toList core) (address : Nat) :
    readWords address lines =
      .error (.invalidWord (String.ofList core) (address + before.length : Nat)) := by
  obtain ⟨⟨after, rfl⟩, hholds, hinvalid⟩ := h
  induction before generalizing address with
  | nil => exact readWords_cons_of_invalid hinvalid hc address after
  | cons first more ih =>
    obtain ⟨⟨word, hw⟩, hmore⟩ := List.forall_mem_cons.1 hholds
    have ha : address + 1 + more.length = address + (first :: more).length := by
      rw [List.length_cons]
      omega
    rw [List.cons_append, readWords_cons_of_holds hw, ih _ hmore, ha]
    rfl

theorem exists_words_iff :
    (∃ words, List.Forall₂ LineHolds lines words) ↔
      ∀ line ∈ lines, ∃ word, LineHolds line word := by
  induction lines with
  | nil => exact ⟨fun _ => nofun, fun _ => ⟨[], .nil⟩⟩
  | cons line rest ih =>
    rw [List.forall_mem_cons, ← ih]
    constructor
    · rintro ⟨_, h⟩
      obtain ⟨word, words, hw, hwords, -⟩ := List.forall₂_cons_left_iff.1 h
      exact ⟨⟨word, hw⟩, words, hwords⟩
    · rintro ⟨⟨word, hw⟩, words, hwords⟩
      exact ⟨word :: words, .cons hw hwords⟩

end

variable {text : String} {image : Image}

/-- An image of the words on lines, with 0 at each address behind the last line. -/
structure Loaded (lines : List String) (image : Image) : Prop where
  size : image.length = memorySize
  word : ∀ (i : Nat) line, lines[i]? = some line → ∀ word, image[i]? = some word ↔ LineHolds line word
  zero : ∀ i < memorySize, lines.length ≤ i → image[i]? = some 0

theorem loaded_of_words {lines : List String} {words : List Word}
    (hl : lines.length ≤ memorySize) (h : List.Forall₂ LineHolds lines words) :
    Loaded lines (words ++ List.replicate (memorySize - words.length) 0) := by
  have hlen : lines.length = words.length := h.length_eq
  refine ⟨?_, fun i line hline word => ?_, fun i hi hge => ?_⟩
  · rw [List.length_append, List.length_replicate]
    omega
  · obtain ⟨hi, rfl⟩ := List.getElem?_eq_some_iff.1 hline
    have hiw : i < words.length := by omega
    have hholds : LineHolds lines[i] words[i] := h.get hi hiw
    rw [List.getElem?_append_left hiw, List.getElem?_eq_getElem hiw, Option.some_inj]
    exact ⟨fun he => he ▸ hholds, hholds.unique⟩
  · rw [List.getElem?_append_right (by omega), List.getElem?_replicate_of_lt (by omega)]

theorem read_of_tooManyLines (h : memorySize < (lines text).length) :
    read text = .error (.tooManyLines (lines text).length) := by
  rw [read]
  simp only [if_pos h]

theorem read_eq_readWords (h : (lines text).length ≤ memorySize) :
    read text = (readWords 0 (lines text)).map fun words =>
      words ++ List.replicate (memorySize - words.length) 0 := by
  rw [read]
  simp only [if_neg (Nat.not_lt.2 h)]

theorem read_eq_ok_iff (h : (lines text).length ≤ memorySize) :
    read text = .ok image ↔ ∃ words, List.Forall₂ LineHolds (lines text) words ∧
      words ++ List.replicate (memorySize - words.length) 0 = image := by
  simp only [read_eq_readWords h, map_eq_ok_iff, readWords_eq_ok_iff]

theorem read_of_firstInvalid {before : List String} {line : String} {core : List Char}
    (h : (lines text).length ≤ memorySize) (hf : FirstInvalid (lines text) before line)
    (hc : Trimmed isBlank line.toList core) :
    read text = .error (.invalidWord (String.ofList core) before.length) := by
  rw [read_eq_readWords h, readWords_of_firstInvalid hf hc, Nat.zero_add]
  rfl

end Ram

end Johnny
