import Johnny.Proofs.Assembler.Meaning
import Johnny.Proofs.Image.Bounds

namespace Johnny

theorem add_inj_of_emod {a b v w : Int} (ha : a % 1000 = 0) (hb : b % 1000 = 0)
    (hv : 0 ≤ v ∧ v ≤ 999) (hw : 0 ≤ w ∧ w ≤ 999) (h : a + v = b + w) : a = b ∧ v = w := by
  omega

theorem add_bounds {b v : Int} (hb : 0 ≤ b ∧ b ≤ 10000) (hv : 0 ≤ v ∧ v ≤ 999) :
    0 ≤ b + v ∧ b + v < 11000 := by
  omega

namespace Opcode

theorem base_emod (op : Opcode) : op.base % 1000 = 0 := by
  cases op <;> rfl

theorem base_injective {op other : Opcode} (h : op.base = other.base) : op = other := by
  revert h
  cases op <;> cases other <;> decide

/-- The base values are a thousand apart, so a word tells its opcode from a small operand. -/
theorem base_add_inj {op other : Opcode} {v w : Int} (hv : 0 ≤ v ∧ v ≤ 999)
    (hw : 0 ≤ w ∧ w ≤ 999) (h : op.base + v = other.base + w) : op = other ∧ v = w := by
  obtain ⟨hbase, hvalue⟩ := add_inj_of_emod op.base_emod other.base_emod hv hw h
  exact ⟨base_injective hbase, hvalue⟩

end Opcode

namespace Image

open Numeral Source

/-- A line has no mnemonic, or its operand is absent or a number from 0 to 999. -/
def Modest (line : String) : Prop :=
  (tokens line).head? = some "" ∨ (tokens line)[1]? = none ∨
    ∃ s : Spelling, (tokens line)[1]? = some (String.ofList s.text) ∧ 0 ≤ s.value ∧ s.value ≤ 999

theorem Modest.bounds {line : String} {op : Opcode} {v : Int} (hm : Modest line)
    (h : Instructs line op v) : 0 ≤ v ∧ v ≤ 999 := by
  cases h with
  | blank => decide
  | bare => decide
  | full op s h =>
    obtain ⟨surplus, ht⟩ := h
    rw [Modest, ht] at hm
    rcases hm with hempty | habsent | ⟨t, hoperand, hvalue⟩
    · exact absurd (Option.some.inj hempty) op.mnemonic_ne_empty
    · cases habsent
    · have htext : s.text = t.text := String.ofList_injective (Option.some.inj hoperand)
      rwa [value_eq_of_text_eq htext]

end Image

namespace Assembler

open Image Numeral Source

def AllModest (source : String) : Prop :=
  ∀ i < memorySize, ∀ line, (lines source)[i]? = some line → Modest line

theorem AllModest.bounds {source : String} {i : Nat} {op : Opcode} {v : Int}
    (hm : AllModest source) (hi : i < memorySize) (hp : Places source i op v) :
    0 ≤ v ∧ v ≤ 999 := by
  cases hp with
  | line hl h => exact (hm i hi _ hl).bounds h
  | past => decide

theorem AllModest.of_lines {source : String} (h : ∀ line ∈ lines source, Modest line) :
    AllModest source :=
  fun _ _ line hl => h line (List.mem_of_getElem? hl)

/-- Two sources with small operands have the same image if and only if they have the same
instruction for each address. -/
theorem image_eq_iff_places (x y : Assembler) {source other : String}
    (hx : (x.assemble source).2 = .ok true) (hy : (y.assemble other).2 = .ok true)
    (hs : AllModest source) (ho : AllModest other) :
    ((x.assemble source).1.image = (y.assemble other).1.image ↔
      ∀ i < memorySize, ∃ op v, Places source i op v ∧ Places other i op v) ∧
    ∀ w ∈ (x.assemble source).1.image, 0 ≤ w ∧ w < 11000 := by
  refine ⟨⟨fun h i hi => ?_, fun h => ?_⟩, fun w hw => ?_⟩
  · obtain ⟨op, v, hsource⟩ := exists_places hx hi
    obtain ⟨op', v', hother⟩ := exists_places hy hi
    have hword : some (op.base + v) = some (op'.base + v') := by
      rw [← hsource.word hx hi, ← hother.word hy hi, h]
    obtain ⟨rfl, rfl⟩ := Opcode.base_add_inj (hs.bounds hi hsource) (ho.bounds hi hother)
      (Option.some.inj hword)
    exact ⟨op, v, hsource, hother⟩
  · apply List.ext_getElem?'
    intro i hi
    rw [(imageOf_assemble hx).size, (imageOf_assemble hy).size, max_self] at hi
    obtain ⟨op, v, hsource, hother⟩ := h i hi
    rw [hsource.word hx hi, hother.word hy hi]
  · obtain ⟨i, hi, op, v, hp, rfl⟩ := exists_places_of_mem hx hw
    exact add_bounds (base_bounds op) (hs.bounds hi hp)

/-- An operand in two spellings, a line that is only indented, an operand that is 0, and a blank
line behind the last instruction make no difference. -/
theorem image_eq_iff_places_spellings :
    let source := "TAKE 5 x\r\n  DATA 7\nHLT"
    let other := "TAKE\t+005\n\nHLT -0 \n\n"
    AllModest source ∧ AllModest other ∧
      (fresh.assemble source).1.image = (fresh.assemble other).1.image ∧
      ∀ w ∈ (fresh.assemble source).1.image, 0 ≤ w ∧ w < 11000 := by
  intro source other
  have hlines : lines source = ["TAKE 5 x", "  DATA 7", "HLT"] := by decide
  have hlines' : lines other = ["TAKE\t+005", "", "HLT -0 ", ""] := by decide
  have hs : AllModest source := by
    apply AllModest.of_lines
    simp only [hlines, List.forall_mem_cons]
    exact ⟨.inr (.inr ⟨⟨.absent, [5], by decide⟩, by decide⟩), .inl (by decide),
      .inr (.inl (by decide)), nofun⟩
  have ho : AllModest other := by
    apply AllModest.of_lines
    simp only [hlines', List.forall_mem_cons]
    exact ⟨.inr (.inr ⟨⟨.plus, [0, 0, 5], by decide⟩, by decide⟩), .inl (by decide),
      .inr (.inr ⟨⟨.minus, [0], by decide⟩, by decide⟩), .inl (by decide), nofun⟩
  have hx : (fresh.assemble source).2 = .ok true :=
    (assemble_eq_true_iff fresh).2 ⟨[1005, 0, 10000], by decide⟩
  have hy : (fresh.assemble other).2 = .ok true :=
    (assemble_eq_true_iff fresh).2 ⟨[1005, 0, 10000, 0], by decide⟩
  have htake : Instructs "TAKE 5 x" .take 5 :=
    .full .take ⟨.absent, [5], by decide⟩ ⟨["x"], by decide⟩
  have htake' : Instructs "TAKE\t+005" .take 5 :=
    .full .take ⟨.plus, [0, 0, 5], by decide⟩ ⟨[], by decide⟩
  have hindented : Instructs "  DATA 7" .data 0 := .blank ["DATA", "7"] (by decide)
  have hblank : Instructs "" .data 0 := .blank [] (by decide)
  have hhalt : Instructs "HLT" .hlt 0 := .bare .hlt (by decide)
  have hhalt' : Instructs "HLT -0 " .hlt 0 :=
    .full .hlt ⟨.minus, [0], by decide⟩ ⟨[""], by decide⟩
  obtain ⟨hiff, hbounds⟩ := image_eq_iff_places fresh fresh hx hy hs ho
  refine ⟨hs, ho, hiff.2 fun i _ => ?_, hbounds⟩
  match i with
  | 0 => exact ⟨.take, 5, .line (by rw [hlines]; rfl) htake, .line (by rw [hlines']; rfl) htake'⟩
  | 1 =>
    exact ⟨.data, 0, .line (by rw [hlines]; rfl) hindented, .line (by rw [hlines']; rfl) hblank⟩
  | 2 => exact ⟨.hlt, 0, .line (by rw [hlines]; rfl) hhalt, .line (by rw [hlines']; rfl) hhalt'⟩
  | 3 => exact ⟨.data, 0, .past (by rw [hlines]; rfl), .line (by rw [hlines']; rfl) hblank⟩
  | i + 4 => exact ⟨.data, 0, .past (by rw [hlines]; rfl), .past (by rw [hlines']; rfl)⟩

end Assembler

end Johnny
