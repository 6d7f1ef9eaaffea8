import Johnny.Proofs.Ram.Lines
import Johnny.Proofs.Source.Lines

namespace Johnny

namespace Ram

open Numeral Source

def page (words : List Word) : List Char := (words.map decimalDigits).flatMap (· ++ ['\n'])

def Writable (words : List Word) : Prop := ∀ w ∈ words, w.natAbs < writingBound

instance : DecidablePred Writable := fun words =>
  inferInstanceAs (Decidable (∀ w ∈ words, w.natAbs < writingBound))

theorem writable_cons {word : Word} {rest : List Word} :
    Writable (word :: rest) ↔ word.natAbs < writingBound ∧ Writable rest :=
  List.forall_mem_cons

theorem render_cons (word : Word) (rest : List Word) : render (word :: rest) =
    match writeDecimal word with
    | .error e => .error e
    | .ok text => (render rest).map fun texts => text ++ "\n" ++ texts :=
  rfl

theorem render_cons_of_lt {word : Word} (h : word.natAbs < writingBound) (rest : List Word) :
    render (word :: rest) = (render rest).map fun texts => decimal word ++ "\n" ++ texts := by
  have hword : writeDecimal word = .ok (decimal word) := if_pos h
  rw [render_cons, hword]

theorem render_of_writable {words : List Word} (h : Writable words) :
    render words = .ok (String.ofList (page words)) := by
  induction words with
  | nil => rfl
  | cons word rest ih =>
    obtain ⟨hw, hr⟩ := writable_cons.1 h
    rw [render_cons_of_lt hw, ih hr, Except.map]
    congr 1
    apply String.toList_inj.1
    simp [page, decimal]

theorem render_of_not_writable {words : List Word} (h : ¬ Writable words) :
    render words = .error .writing := by
  induction words with
  | nil => exact absurd (fun w hw => absurd hw List.not_mem_nil) h
  | cons word rest ih =>
    by_cases hw : word.natAbs < writingBound
    · rw [render_cons_of_lt hw, ih fun hr => h (writable_cons.2 ⟨hw, hr⟩)]
      rfl
    · have hword : writeDecimal word = .error .writing := if_neg hw
      rw [render_cons, hword]

theorem render_eq_ok_iff {words : List Word} {text : String} :
    render words = .ok text ↔ Writable words ∧ text = String.ofList (page words) := by
  by_cases h : Writable words
  · simp only [render_of_writable h, Except.ok.injEq, h, true_and, eq_comm]
  · simp [render_of_not_writable h, h]

theorem forall_mem_page {p : Char → Prop} (hm : p '-') (hn : p '\n')
    (hd : ∀ d : Fin 10, p (Nat.digitChar d.val)) (words : List Word) :
    ∀ c ∈ page words, p c := by
  intro c hc
  obtain ⟨line, hline, hc⟩ := List.mem_flatMap.1 hc
  obtain ⟨w, -, rfl⟩ := List.mem_map.1 hline
  rcases List.mem_append.1 hc with hc | hc
  · exact forall_mem_decimalDigits hm hd w c hc
  · exact List.mem_singleton.1 hc ▸ hn

theorem unbroken_decimalDigits (w : Word) : Unbroken (decimalDigits w) :=
  forall_mem_decimalDigits (by decide) (by decide) w

theorem splitLines_page (words : List Word) : splitLines (page words) = words.map decimalDigits :=
  splitLines_flatMap (List.forall_mem_map.2 fun w _ => unbroken_decimalDigits w)

theorem lineHolds_decimal {w : Word} (h : w.natAbs < writingBound) : LineHolds (decimal w) w := by
  obtain ⟨s, ht, hv, hl⟩ := exists_spelling w
  apply lineHolds_of_spells (forall_mem_decimalDigits (by decide) (by decide) w)
  rw [ht, ← hv]
  exact spells_text (hl.2 h)

theorem readWords_decimal {words : List Word} (h : Writable words) (address : Nat) :
    readWords address (words.map decimal) = .ok words := by
  rw [readWords_eq_ok_iff, List.forall₂_map_left_iff, List.forall₂_same]
  exact fun w hw => lineHolds_decimal (h w hw)

/-- What is written is read again, and the memory behind it is zero. -/
theorem read_page {words : List Word} (hl : words.length ≤ memorySize) (hw : Writable words) :
    read (String.ofList (page words)) =
      .ok (words ++ List.replicate (memorySize - words.length) 0) := by
  have hlines : lines (String.ofList (page words)) = words.map decimal := by
    rw [lines, String.toList_ofList, splitLines_page, List.map_map]
    rfl
  rw [read]
  simp only [hlines, List.length_map, readWords_decimal hw]
  rw [if_neg (by omega)]
  rfl

theorem of_readWords {address : Nat} {texts : List String} {words : List Word}
    (h : readWords address texts = .ok words) :
    words.length = texts.length ∧ Writable words := by
  have hholds := readWords_eq_ok_iff.1 h
  refine ⟨hholds.length_eq.symm, fun w hw => ?_⟩
  obtain ⟨i, hi, rfl⟩ := List.getElem_of_mem hw
  obtain ⟨core, -, hs⟩ := hholds.get (by rw [hholds.length_eq]; exact hi) hi
  exact hs.natAbs_lt

/-- Every image that is read fills the memory, and can be written. -/
theorem of_read {text : String} {image : Image} (h : read text = .ok image) :
    image.length = memorySize ∧ Writable image := by
  simp only [read] at h
  split_ifs at h with hl
  obtain ⟨words, hr, rfl⟩ := map_eq_ok_iff.1 h
  obtain ⟨hlength, hwords⟩ := of_readWords hr
  refine ⟨by rw [List.length_append, List.length_replicate]; omega, ?_⟩
  intro w hw
  rcases List.mem_append.1 hw with hm | hm
  · exact hwords w hm
  · rw [List.eq_of_mem_replicate hm]
    exact writingBound_pos

end Ram

end Johnny
