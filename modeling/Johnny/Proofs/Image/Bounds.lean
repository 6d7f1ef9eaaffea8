import Johnny.Proofs.Assembler.Language
import Johnny.Proofs.Ram.Word

namespace Johnny.Image

open Assembler Numeral

theorem natAbs_spelling_lt {s : Spelling} (h : s.digits.length ≤ maxDigits) :
    s.value.natAbs < writingBound := by
  have hdigits : ∀ d ∈ s.numeral.digits, d < 10 := by
    intro d hd
    obtain ⟨e, -, rfl⟩ := List.mem_map.1 hd
    exact e.isLt
  have hlen : s.numeral.digits.length = s.digits.length := List.length_map _
  rw [← s.value_numeral, Ram.natAbs_value]
  apply Nat.lt_of_lt_of_le (magnitude_lt hdigits)
  rw [hlen, writingBound_eq]
  exact Nat.pow_le_pow_right (by decide) h

theorem base_bounds (op : Opcode) : 0 ≤ op.base ∧ op.base ≤ 10000 := by
  cases op <;> decide

/-- A word is less than the limit on written numbers, or above it by less than a base value: an
operand keeps to the limit, but the base value comes on top of it. -/
def Bounded (w : Int) : Prop := -(writingBound : Int) < w ∧ w < writingBound + 10000

theorem bounded_of_natAbs_lt {v b : Int} (hv : v.natAbs < writingBound) (hb : 0 ≤ b ∧ b ≤ 10000) :
    Bounded (b + v) := by
  unfold Bounded
  omega

theorem bounded_of_le {b : Int} (hb : 0 ≤ b ∧ b ≤ 10000) : Bounded b := by
  have hpos := writingBound_pos
  unfold Bounded
  omega

theorem natAbs_lt_iff {w : Int} (h : Bounded w) : w.natAbs < writingBound ↔ w < writingBound := by
  unfold Bounded at h
  omega

theorem bounded_lineWord {line : String} {address : Nat} {word : Word}
    (h : lineWord line address = .ok word) : Bounded word := by
  have hd := denotes_of_lineWord h
  generalize line.toList = cs at hd
  cases hd with
  | empty => exact bounded_of_le (by decide)
  | indented => exact bounded_of_le (by decide)
  | bare op => exact bounded_of_le (base_bounds op)
  | full op gap s rest hg hs => exact bounded_of_natAbs_lt (natAbs_spelling_lt hs) (base_bounds op)

theorem bounded_encodeLines {start : Nat} {lines : List String} {words : List Word}
    (h : encodeLines start lines = .ok words) : ∀ w ∈ words, Bounded w := by
  induction lines generalizing start words with
  | nil =>
    obtain rfl := Except.ok.inj h
    simp
  | cons line rest ih =>
    rw [encodeLines] at h
    cases hword : lineWord line start with
    | error e => simp [hword] at h
    | ok word =>
      rw [hword] at h
      obtain ⟨more, hmore, rfl⟩ := map_eq_ok_iff.1 h
      exact List.forall_mem_cons.2 ⟨bounded_lineWord hword, ih hmore⟩

theorem bounded_sourceImage {source : String} {image : Image}
    (h : sourceImage source = .ok image) : ∀ w ∈ image, Bounded w := by
  rw [sourceImage_eq] at h
  obtain ⟨words, hw, rfl⟩ := map_eq_ok_iff.1 h
  intro w hm
  rcases List.mem_append.1 hm with hm | hm
  · exact bounded_encodeLines hw w hm
  · rw [List.eq_of_mem_replicate hm]
    exact bounded_of_le (by decide)

end Johnny.Image
