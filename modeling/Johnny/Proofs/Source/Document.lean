import Johnny.Proofs.Except
import Johnny.Proofs.Source.Lines
import Johnny.Proofs.Text.Utf8
import Johnny.Source.Document
import Mathlib.Data.List.Basic
import Mathlib.Tactic.IntervalCases

namespace Johnny.Source

open Text

theorem mark_eq : mark = String.utf8EncodeChar '\uFEFF' := by decide

theorem head?_of_decode_mark_append {rest : Bytes} {text : List Char}
    (h : decode (mark ++ rest) = .ok text) : text.head? = some '\uFEFF' := by
  obtain ⟨after, hd⟩ := decodeFrom_utf8EncodeChar '\uFEFF' 0 rest
  rw [decode, mark_eq, hd] at h
  obtain ⟨more, -, rfl⟩ := map_eq_ok_iff.1 h
  rfl

/-- A mark that is cut short is the code of no text. -/
theorem eq_nil_or_eq_mark {bytes : Bytes} {text : List Char} (hp : bytes <+: mark)
    (hd : decode bytes = .ok text) : bytes = [] ∨ bytes = mark := by
  have hl : bytes.length ≤ 3 := hp.length_le
  rw [List.prefix_iff_eq_take.1 hp] at hd ⊢
  generalize bytes.length = n at hl hd
  -- The beginnings of one and of two bytes leave the character incomplete.
  interval_cases n
  · exact .inl rfl
  · cases hd
  · cases hd
  · exact .inr rfl

theorem dropMark_encode {text : List Char} (h : text.head? ≠ some '\uFEFF') :
    dropMark (encode text) = encode text := by
  have hne : ∀ rest, mark ++ rest ≠ encode text := by
    intro rest he
    exact h (head?_of_decode_mark_append (he ▸ decode_encode text))
  have hnone : mark.isPrefixOf? (encode text) = none := by
    cases hp : mark.isPrefixOf? (encode text) with
    | none => rfl
    | some rest => exact absurd (List.isPrefixOf?_eq_some_iff_append_eq.1 hp) (hne rest)
  rw [dropMark, hnone]
  dsimp only
  split_ifs with hp
  · rcases eq_nil_or_eq_mark (List.isPrefixOf_iff_prefix.1 hp) (decode_encode text) with hn | hm
    · exact hn.symm
    · exact absurd (hm ▸ List.append_nil mark) (hne [])
  · rfl

theorem unifyBreaks_eq_self {text : List Char} (h : '\r' ∉ text) : unifyBreaks text = text := by
  fun_induction unifyBreaks text with
  | case1 => rfl
  | case2 => simp at h
  | case3 => simp at h
  | case4 c rest h1 h2 ih => rw [ih fun hr => h (List.mem_cons_of_mem _ hr)]

theorem ofBytes_encode {text : List Char} (h : text.head? ≠ some '\uFEFF') :
    ofBytes (encode text) = .ok (String.ofList (unifyBreaks text)) := by
  rw [ofBytes, dropMark_encode h, decode_encode]
  rfl

theorem ofBytes_mark_encode (text : List Char) :
    ofBytes (mark ++ encode text) = .ok (String.ofList (unifyBreaks text)) := by
  have hm : mark.isPrefixOf? (mark ++ encode text) = some (encode text) :=
    List.isPrefixOf?_eq_some_iff_append_eq.2 rfl
  rw [ofBytes, dropMark, hm]
  dsimp only
  rw [decode_encode]
  rfl

/-- One end of line becomes one LF, so the lines stay what they are. -/
theorem splitLines_unifyBreaks (text : List Char) :
    splitLines (unifyBreaks text) = splitLines text := by
  fun_induction unifyBreaks text with
  | case1 => rfl
  | case2 rest ih => rw [splitLines, splitLines, ih]
  | case3 rest hne ih =>
    rw [splitLines_cr (head?_ne_of_ne_cons hne), splitLines, ih]
  | case4 c rest h1 h2 ih =>
    by_cases hn : c = '\n'
    · rw [hn, splitLines, splitLines, ih]
    · rw [splitLines_char h2 hn, splitLines_char h2 hn, ih]

theorem lines_unifyBreaks (source : String) :
    lines (String.ofList (unifyBreaks source.toList)) = lines source := by
  rw [lines, lines, String.toList_ofList, splitLines_unifyBreaks]

end Johnny.Source
