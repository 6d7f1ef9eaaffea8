import Johnny.Proofs.Assembler.Outcome
import Johnny.Proofs.Source.Layout

namespace Johnny

open Source

theorem Image.fill_of_tokens_eq {σ : Type} (sink : Option (Sink σ)) (cells address : Nat)
    {lines others : List String} (record : σ) (h : others.map tokens = lines.map tokens) :
    fill sink cells address others record = fill sink cells address lines record := by
  induction cells generalizing address lines others record with
  | zero => rfl
  | succ cells ih =>
    cases lines with
    | nil => rw [List.map_eq_nil_iff.1 h]
    | cons line rest =>
      obtain ⟨other, more, rfl, hline, hrest⟩ := List.map_eq_cons_iff.1 h
      simp only [fill, Instruction.parse, hline, ih _ _ hrest]

namespace Assembler

theorem assemble_of_tokens_eq (a : Assembler) {source other : String}
    (h : (lines other).map tokens = (lines source).map tokens) :
    a.assemble other = a.assemble source := by
  unfold assemble Image.build
  rw [Image.fill_of_tokens_eq _ _ _ _ h]

/-- Layout does not matter: which runs of separators and which ends of line a source has makes no
difference to a run. -/
theorem assemble_relaid (x y : Assembler) {source other : String}
    (h : Relaid source.toList other.toList) : y.assemble other = x.assemble source := by
  rw [assemble_of_tokens_eq y (map_tokens_relaid h), assemble_eq, assemble_eq]

/-- An indented line, a blank one between CR and CR LF, surplus tokens, and a last line that ends
with a separator instead of an end of line. -/
theorem assemble_relaid_blank_lines :
    let source := " TAKE 5\r\n\nADD\t3  x\nHLT\t"
    let other := "\t TAKE\t5\r\r\nADD 3 x\rHLT \n"
    Relaid source.toList other.toList ∧ fresh.assemble other = fresh.assemble source ∧
      (fresh.assemble other).1.warnings = [surplusWarning 0, surplusWarning 2] ∧
      (fresh.assemble other).1.failure = some (.invalidOperand "" 3) := by
  intro source other
  have hlines : splitLines source.toList =
      [" TAKE 5".toList, [], "ADD\t3  x".toList, "HLT\t".toList] := by decide
  have h : Relaid source.toList other.toList := by
    refine ⟨[("\t TAKE\t5".toList, .cr), ([], .crlf), ("ADD 3 x".toList, .cr),
      ("HLT ".toList, .lf)], ?_, by decide, by decide⟩
    rw [hlines]
    exact .cons (joined_splitTokens_iff.2 (by decide)) <|
      .cons (joined_splitTokens_iff.2 (by decide)) <|
      .cons (joined_splitTokens_iff.2 (by decide)) <|
      .cons (joined_splitTokens_iff.2 (by decide)) .nil
  exact ⟨h, assemble_relaid fresh fresh h, by decide +kernel, by decide⟩

end Assembler

end Johnny
