import Johnny.Proofs.Assembler.Meaning
import Johnny.Proofs.Assembler.Write

namespace Johnny

open Image Numeral Source

theorem limit_sub_le_iff (b v : Int) : 10 ^ 4300 - b ≤ v ↔ (writingBound : Int) ≤ b + v := by
  rw [cast_writingBound, sub_le_iff_le_add']

theorem ten_thousand_le_pow {n : Nat} (h : 4 ≤ n) : 10000 ≤ 10 ^ n :=
  Nat.pow_le_pow_right (by decide : 0 < 10) h

/-- A base value is small beside the limit on written numbers: what it takes to the limit has as
many digits as the limit allows. -/
theorem pow_le_of_limit_le {b v : Int} (hb : 0 ≤ b ∧ b ≤ 10000)
    (h : (writingBound : Int) ≤ b + v) : (10 ^ 4299 : Nat) ≤ v ∧ 0 < v := by
  have hbound : writingBound = 10 ^ 4299 * 10 := by
    rw [writingBound_eq, maxDigits, ← pow_succ]
  have hten := ten_thousand_le_pow (n := 4299) (by decide)
  generalize 10 ^ 4299 = p at hbound hten ⊢
  omega

theorem ne_zero_of_limit_le {b v : Int} (hv : v.natAbs < writingBound)
    (h : (writingBound : Int) ≤ b + v) : b ≠ 0 := by
  omega

namespace Assembler

variable {a : Assembler} {source line : String} {i : Nat} {op : Opcode} {s : Spelling} {v : Int}

theorem not_writable_iff (h : (a.assemble source).2 = .ok true) :
    ¬ Ram.Writable (a.assemble source).1.image ↔
      ∃ i < memorySize, ∃ op v, Places source i op v ∧ (writingBound : Int) ≤ op.base + v := by
  rw [(sourced_assemble a source).writable_iff]
  constructor
  · intro hlong
    simp only [not_forall, Int.not_lt] at hlong
    obtain ⟨w, hw, hle⟩ := hlong
    obtain ⟨i, hi, op, v, hp, rfl⟩ := exists_places_of_mem h hw
    exact ⟨i, hi, op, v, hp, hle⟩
  · intro ⟨i, hi, op, v, hp, hle⟩ hshort
    have hw := List.mem_of_getElem? (hp.word h hi)
    exact Int.not_lt.2 hle (hshort _ hw)

theorem Places.exists_hasOperand (hp : Places source i op v) (hv : 0 < v) :
    ∃ line s, (lines source)[i]? = some line ∧ HasOperand line op s ∧ v = s.value := by
  cases hp with
  | past => cases hv
  | line hl hline =>
    cases hline with
    | blank => cases hv
    | bare => cases hv
    | full op s h => exact ⟨_, s, hl, h, rfl⟩

/-- A word is too long to be written if and only if it is that of a line with an operand which the
base value takes to the limit. -/
theorem exists_long_iff :
    (∃ i < memorySize, ∃ op v, Places source i op v ∧ (writingBound : Int) ≤ op.base + v) ↔
      ∃ i < memorySize, ∃ line, (lines source)[i]? = some line ∧
        ∃ op s, HasOperand line op s ∧ (10 : Int) ^ 4300 - op.base ≤ s.value := by
  constructor
  · intro ⟨i, hi, op, v, hp, hle⟩
    obtain ⟨line, s, hl, ho, rfl⟩ :=
      hp.exists_hasOperand (pow_le_of_limit_le (base_bounds op) hle).2
    exact ⟨i, hi, line, hl, op, s, ho, (limit_sub_le_iff _ _).2 hle⟩
  · intro ⟨i, hi, line, hl, op, s, ho, hle⟩
    exact ⟨i, hi, op, s.value, .line hl (.full op s ho), (limit_sub_le_iff _ _).1 hle⟩

/-- Every word of an image is nearer to zero than what an operand and a base value can reach. The
image cannot be written if and only if there is a line whose base value takes its operand to the
limit on written numbers. Such a line is not one of data, and its operand is positive and has 4300
digits from the first that is not zero on. -/
theorem assemble_ram_limit (a : Assembler) {source : String}
    (h : (a.assemble source).2 = .ok true) :
    (∀ w ∈ (a.assemble source).1.image, -(10 : Int) ^ 4300 < w ∧ w < 10 ^ 4300 + 10000) ∧
    (∀ limit, (a.assemble source).1.ram = .error limit ↔ limit = .writing ∧
      ∃ i < memorySize, ∃ line, (lines source)[i]? = some line ∧
        ∃ op s, HasOperand line op s ∧ (10 : Int) ^ 4300 - op.base ≤ s.value) ∧
    ∀ i < memorySize, ∀ line, (lines source)[i]? = some line → ∀ op s, HasOperand line op s →
      (10 : Int) ^ 4300 - op.base ≤ s.value →
      op ≠ .data ∧ 0 < s.value ∧ s.significant.length = 4300 := by
  refine ⟨fun w hw => ?_, fun limit => ?_, fun i hi line hl op s ho hle => ?_⟩
  · have hbounded := (sourced_assemble a source).bounded w hw
    rwa [Bounded, cast_writingBound] at hbounded
  · rw [ram_eq_error_iff, not_writable_iff h, exists_long_iff]
  · obtain ⟨word, -, hword⟩ := (imageOf_assemble h).word i hi line hl
    obtain ⟨hd, -⟩ := ho.of_lineWord hword
    rw [limit_sub_le_iff] at hle
    obtain ⟨hvalue, hpos⟩ := pow_le_of_limit_le (base_bounds op) hle
    have hbase := ne_zero_of_limit_le (natAbs_spelling_lt hd) hle
    exact ⟨fun hop => hbase (congrArg Opcode.base hop), hpos, length_significant_eq hd hvalue⟩

theorem hasOperand_haltLine (s : Spelling) :
    HasOperand (String.ofList ("HLT ".toList ++ s.text)) .hlt s := by
  refine ⟨[], ?_⟩
  have hline : "HLT ".toList ++ s.text = Opcode.hlt.mnemonic.toList ++ [' '] ++ s.text := rfl
  have hfresh : Fresh s.text := fun c hc => solid_text s c (List.mem_of_mem_head? hc)
  rw [tokens, String.toList_ofList, hline,
    splitTokens_append Opcode.hlt.solid_mnemonic gap_space hfresh, splitTokens_solid (solid_text s)]
  rfl

/-- The base value of `HLT` takes the largest operand there is to the limit. -/
theorem assemble_ram_limit_nines :
    (fresh.assemble (haltSource (nines 4299))).2 = .ok true ∧
      (fresh.assemble (haltSource (nines 4299))).1.ram = .error .writing ∧
      (∀ w ∈ (fresh.assemble (haltSource (nines 4299))).1.image,
        -(10 : Int) ^ 4300 < w ∧ w < 10 ^ 4300 + 10000) ∧
      (nines 4299).significant.length = 4300 := by
  have hdigits : (nines 4299).digits.length ≤ maxDigits := by
    rw [length_nines, maxDigits]
  have h : (fresh.assemble (haltSource (nines 4299))).2 = .ok true := by
    rw [assemble_eq, sourceImage_haltSource hdigits]
    rfl
  have hline : (lines (haltSource (nines 4299)))[0]? =
      some (String.ofList ("HLT ".toList ++ (nines 4299).text)) := by
    rw [lines_haltSource]
    rfl
  have hvalue : (10 : Int) ^ 4300 - Opcode.hlt.base ≤ (nines 4299).value := by
    have hnext : (nines 4299).value + 1 = (writingBound : Int) := by
      rw [value_nines, writingBound_eq, maxDigits]
    have hbase : Opcode.hlt.base = (10000 : Int) := rfl
    rw [limit_sub_le_iff, hbase]
    omega
  obtain ⟨hbounds, hram, hform⟩ := assemble_ram_limit fresh h
  have ho := hasOperand_haltLine (nines 4299)
  refine ⟨h, (hram _).2 ⟨rfl, 0, by decide, _, hline, _, _, ho, hvalue⟩, hbounds, ?_⟩
  exact (hform 0 (by decide) _ hline _ _ ho hvalue).2.2

end Assembler

end Johnny
