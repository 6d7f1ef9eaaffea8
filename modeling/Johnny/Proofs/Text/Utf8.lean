import Johnny.Text.Utf8
import Mathlib.Tactic.SplitIfs

namespace Johnny.Text

theorem toNat_ofNat {n : Nat} (h : n < 256) : (UInt8.ofNat n).toNat = n := by
  rw [UInt8.toNat_ofNat']
  omega

theorem has_iff {r : ByteRange} {b : UInt8} :
    r.has b = true ↔ r.low.toNat ≤ b.toNat ∧ b.toNat ≤ r.high.toNat := by
  simp [ByteRange.has, UInt8.le_iff_toNat_le]

theorem anyTail_has (v : Nat) : anyTail.has (UInt8.ofNat (v % 64 + 0x80)) = true := by
  rw [has_iff, toNat_ofNat (by omega)]
  change 128 ≤ _ ∧ _ ≤ 191
  omega

/-! What the first byte of a character opens. The second byte is in the range that goes with it. -/

theorem lead_one {v : Nat} (h : v ≤ 0x7F) : lead (UInt8.ofNat v) = .whole v := by
  rw [lead, toNat_ofNat (by omega), if_pos (by omega)]

theorem lead_two {v : Nat} (hl : 0x80 ≤ v) (hu : v ≤ 0x7FF) :
    lead (UInt8.ofNat (v / 64 % 0x20 + 0xC0)) = .opens (v / 64) anyTail [] := by
  have hn : v / 64 % 0x20 + 0xC0 - 0xC0 = v / 64 := by omega
  rw [lead, toNat_ofNat (by omega), if_neg (by omega), if_neg (by omega), if_pos (by omega), hn]

theorem lead_three {v : Nat} (hl : 0x800 ≤ v) (hu : v ≤ 0xFFFF)
    (hs : v < 0xD800 ∨ 0xDFFF < v) :
    ∃ next, lead (UInt8.ofNat (v / 4096 % 0x10 + 0xE0)) = .opens (v / 4096) next [anyTail] ∧
      next.has (UInt8.ofNat (v / 64 % 64 + 0x80)) = true := by
  have hb : (UInt8.ofNat (v / 64 % 64 + 0x80)).toNat = v / 64 % 64 + 0x80 := toNat_ofNat (by omega)
  have hn : (UInt8.ofNat (v / 4096 % 0x10 + 0xE0)).toNat = v / 4096 + 0xE0 := by
    rw [toNat_ofNat (by omega)]
    omega
  rw [lead, hn, if_neg (by omega), if_neg (by omega), if_neg (by omega)]
  -- Two first bytes narrow the second one: to shut out short values, and surrogates.
  by_cases h0 : v / 4096 = 0
  · rw [if_pos (by omega), h0]
    refine ⟨_, rfl, has_iff.2 ?_⟩
    rw [hb]
    change 160 ≤ _ ∧ _ ≤ 191
    omega
  by_cases h13 : v / 4096 = 13
  · rw [if_neg (by omega), if_pos (by omega), h13]
    refine ⟨_, rfl, has_iff.2 ?_⟩
    rw [hb]
    change 128 ≤ _ ∧ _ ≤ 159
    omega
  · rw [if_neg (by omega), if_neg (by omega), if_pos (by omega), Nat.add_sub_cancel]
    exact ⟨_, rfl, anyTail_has _⟩

theorem lead_four {v : Nat} (hl : 0x10000 ≤ v) (hu : v < 0x110000) :
    ∃ next, lead (UInt8.ofNat (v / 262144 % 0x08 + 0xF0)) =
        .opens (v / 262144) next [anyTail, anyTail] ∧
      next.has (UInt8.ofNat (v / 4096 % 64 + 0x80)) = true := by
  have hb : (UInt8.ofNat (v / 4096 % 64 + 0x80)).toNat = v / 4096 % 64 + 0x80 :=
    toNat_ofNat (by omega)
  have hn : (UInt8.ofNat (v / 262144 % 0x08 + 0xF0)).toNat = v / 262144 + 0xF0 := by
    rw [toNat_ofNat (by omega)]
    omega
  rw [lead, hn, if_neg (by omega), if_neg (by omega), if_neg (by omega), if_neg (by omega),
    if_neg (by omega), if_neg (by omega)]
  by_cases h0 : v / 262144 = 0
  · rw [if_pos (by omega), h0]
    refine ⟨_, rfl, has_iff.2 ?_⟩
    rw [hb]
    change 144 ≤ _ ∧ _ ≤ 191
    omega
  by_cases h4 : v / 262144 = 4
  · rw [if_neg (by omega), if_neg (by omega), if_pos (by omega), h4]
    refine ⟨_, rfl, has_iff.2 ?_⟩
    rw [hb]
    change 128 ≤ _ ∧ _ ≤ 143
    omega
  · rw [if_neg (by omega), if_pos (by omega), Nat.add_sub_cancel]
    exact ⟨_, rfl, anyTail_has _⟩

/-! What a following byte does to a character that is not complete. -/

theorem decodeFrom_last {position taken bits v : Nat} {f : UInt8} {next : ByteRange}
    {rest : Bytes} (h : next.has (UInt8.ofNat (v % 64 + 0x80)) = true) :
    decodeFrom position (some ⟨f, taken, bits, next, []⟩)
        (UInt8.ofNat (v % 64 + 0x80) :: rest) =
      (decodeFrom (position + 1) none rest).map (Char.ofNat (64 * bits + v % 64) :: ·) := by
  have hb : (UInt8.ofNat (v % 64 + 0x80)).toNat = v % 64 + 0x80 := toNat_ofNat (by omega)
  rw [decodeFrom, if_pos h, hb, Nat.add_sub_cancel]

theorem decodeFrom_inner {position taken bits v : Nat} {f : UInt8} {next following : ByteRange}
    {later : List ByteRange} {rest : Bytes}
    (h : next.has (UInt8.ofNat (v % 64 + 0x80)) = true) :
    decodeFrom position (some ⟨f, taken, bits, next, following :: later⟩)
        (UInt8.ofNat (v % 64 + 0x80) :: rest) =
      decodeFrom (position + 1)
        (some ⟨f, taken + 1, 64 * bits + v % 64, following, later⟩) rest := by
  have hb : (UInt8.ofNat (v % 64 + 0x80)).toNat = v % 64 + 0x80 := toNat_ofNat (by omega)
  rw [decodeFrom, if_pos h, hb, Nat.add_sub_cancel]

/-- A character is decoded from its own bytes, whatever comes behind them. -/
theorem decodeFrom_utf8EncodeChar (c : Char) (position : Nat) (rest : Bytes) :
    ∃ after, decodeFrom position none (String.utf8EncodeChar c ++ rest) =
      (decodeFrom after none rest).map (c :: ·) := by
  have hvalid : c.val.toNat < 0xD800 ∨ 0xDFFF < c.val.toNat ∧ c.val.toNat < 0x110000 := c.valid
  have hc : c = Char.ofNat c.val.toNat := (Char.ofNat_toNat c).symm
  unfold String.utf8EncodeChar
  dsimp only
  generalize c.val.toNat = v at hc hvalid
  subst hc
  -- A case for each count of bytes; `hv` puts the value together from their bits again.
  split_ifs with h1 h2 h3
  · refine ⟨position + 1, ?_⟩
    simp only [List.cons_append, List.nil_append, decodeFrom, lead_one h1]
  · have hv : 64 * (v / 64) + v % 64 = v := by omega
    refine ⟨position + 1 + 1, ?_⟩
    simp only [List.cons_append, List.nil_append]
    rw [decodeFrom, lead_two (by omega) h2]
    simp only [decodeFrom_last (anyTail_has v), hv]
  · obtain ⟨next, hlead, hnext⟩ := lead_three (v := v) (by omega) h3 (by omega)
    have hv : 64 * (64 * (v / 4096) + v / 64 % 64) + v % 64 = v := by omega
    refine ⟨position + 1 + 1 + 1, ?_⟩
    simp only [List.cons_append, List.nil_append]
    rw [decodeFrom, hlead]
    simp only [decodeFrom_inner hnext, decodeFrom_last (anyTail_has v), hv]
  · obtain ⟨next, hlead, hnext⟩ := lead_four (v := v) (by omega) (by omega)
    have hv : 64 * (64 * (64 * (v / 262144) + v / 4096 % 64) + v / 64 % 64) + v % 64 = v := by
      omega
    refine ⟨position + 1 + 1 + 1 + 1, ?_⟩
    simp only [List.cons_append, List.nil_append]
    rw [decodeFrom, hlead]
    simp only [decodeFrom_inner hnext, decodeFrom_inner (anyTail_has (v / 64)),
      decodeFrom_last (anyTail_has v), hv]

theorem decodeFrom_encode (text : List Char) (position : Nat) :
    decodeFrom position none (encode text) = .ok text := by
  induction text generalizing position with
  | nil => rfl
  | cons c rest ih =>
    obtain ⟨after, h⟩ := decodeFrom_utf8EncodeChar c position (encode rest)
    rw [encode, List.flatMap_cons, ← encode, h, ih]
    rfl

theorem decode_encode (text : List Char) : decode (encode text) = .ok text :=
  decodeFrom_encode text 0

end Johnny.Text
