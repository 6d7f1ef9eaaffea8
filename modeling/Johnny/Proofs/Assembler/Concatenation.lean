import Johnny.Proofs.Assembler.Outcome
import Johnny.Proofs.Source.Lines

namespace Johnny.Assembler

open Image Source

/-- The warnings on surplus tokens below a bound, for lines that stand `k` addresses further on. -/
def movedWarnings (k : Nat) (lines : List String) (bound : Nat) : List String :=
  (surplusAddresses lines bound).map fun i => surplusWarning (k + i)

theorem assemble_append_of_failure (x y : Assembler) {front back : String} {k : Nat}
    {e : EncodeError} (hl : lines (front ++ back) = lines front ++ lines back)
    (hk : k < memorySize) (h : FirstFailure 0 (lines front) k e) :
    y.assemble (front ++ back) = x.assemble front := by
  have ha : FirstFailure 0 (lines (front ++ back)) k e := by
    rw [hl]
    exact h.append
  rw [assemble_of_firstFailure x hk h, assemble_of_firstFailure y hk ha, hl,
    surplusAddresses_append_left _ h.lt_length]

theorem assemble_append_of_full (x y : Assembler) {front back : String}
    (hl : lines (front ++ back) = lines front ++ lines back)
    (hk : memorySize ≤ (lines front).length) :
    y.assemble (front ++ back) = x.assemble front := by
  have ht : (lines (front ++ back)).take memorySize = (lines front).take memorySize := by
    rw [hl, List.take_append_of_le_length hk]
  unfold assemble
  rw [← build_take, ht, build_take]
  rfl

theorem surplusWarnings_append (front back : List String) (bound : Nat) :
    (surplusAddresses (front ++ back) (front.length + bound)).map surplusWarning =
      (surplusAddresses front front.length).map surplusWarning ++
        movedWarnings front.length back bound := by
  rw [surplusAddresses_append, List.map_append, List.map_map]
  rfl

theorem assemble_of_short (a : Assembler) {source : String} {words : List Word}
    (hk : (lines source).length < memorySize) (hw : encodeLines 0 (lines source) = .ok words) :
    a.assemble source = left
      ((surplusAddresses (lines source) (lines source).length).map surplusWarning)
      (.ok (words ++ List.replicate (memorySize - (lines source).length) 0)) := by
  have ht : (lines source).take memorySize = lines source := List.take_of_length_le (by omega)
  have hm : min (lines source).length memorySize = (lines source).length := by omega
  have h := assemble_of_encodeLines a (ht.symm ▸ hw)
  rwa [hm] at h

theorem assemble_append_of_failure_right (x y : Assembler) {front back : String}
    {words : List Word} {j : Nat} {e : EncodeError}
    (hl : lines (front ++ back) = lines front ++ lines back)
    (hw : encodeLines 0 (lines front) = .ok words) (hj : (lines front).length + j < memorySize)
    (h : FirstFailure 0 (lines back) j e) :
    y.assemble (front ++ back) =
      left ((x.assemble front).1.warnings ++
        movedWarnings (lines front).length (lines back) (j + 1))
        (.error (e.moved (lines front).length)) := by
  have hf : FirstFailure 0 (lines (front ++ back)) ((lines front).length + j)
      (e.moved (lines front).length) := by
    rw [hl]
    exact FirstFailure.append_right hw h.moved
  have hk : (lines front).length < memorySize := by omega
  rw [assemble_of_firstFailure y hj hf, assemble_of_short x hk hw, hl, Nat.add_assoc,
    surplusWarnings_append]
  rfl

theorem assemble_append_of_words (x y : Assembler) {front back : String}
    {words more : List Word}
    (hl : lines (front ++ back) = lines front ++ lines back)
    (hk : (lines front).length < memorySize) (hw : encodeLines 0 (lines front) = .ok words)
    (hm : encodeLines 0 ((lines back).take (memorySize - (lines front).length)) = .ok more) :
    y.assemble (front ++ back) =
      left ((x.assemble front).1.warnings ++ movedWarnings (lines front).length (lines back)
        (min (lines back).length (memorySize - (lines front).length)))
        (.ok ((x.assemble front).1.image.take (lines front).length ++ more ++
          List.replicate (memorySize - (lines front).length - more.length) 0)) := by
  have hwl := (encodeLines_eq_ok_iff.1 hw).1
  have hml := (encodeLines_eq_ok_iff.1 hm).1
  have ht : (lines front).take memorySize = lines front := List.take_of_length_le (by omega)
  have hboth : encodeLines 0 ((lines (front ++ back)).take memorySize) = .ok (words ++ more) := by
    rw [hl, List.take_append, ht, encodeLines_append, hw, encodeLines_moved, hm]
    rfl
  have hbound : min (lines front ++ lines back).length memorySize = (lines front).length +
      min (lines back).length (memorySize - (lines front).length) := by
    rw [List.length_append]
    omega
  have himage : (x.assemble front).1.image.take (lines front).length = words := by
    rw [assemble_of_short x hk hw, left, ← hwl]
    exact List.take_left
  have hzeros : memorySize - (lines front ++ lines back).length =
      memorySize - (lines front).length - more.length := by
    rw [List.length_take] at hml
    rw [List.length_append]
    omega
  rw [assemble_of_encodeLines y hboth, himage, assemble_of_short x hk hw, hl, hbound,
    surplusWarnings_append, hzeros]
  rfl

/-- Assembling one source after another. A source that fails, or that fills the memory, decides
alone. Behind any other the lines of the second source keep their words, and their addresses all
move on by the number of lines before them, in the failure as in the warnings. -/
theorem assemble_append (x y : Assembler) {front back : String} (hc : Closed front.toList)
    (ht : ¬ Torn front.toList back.toList) :
    ((x.assemble front).2 ≠ .ok true →
      y.assemble (front ++ back) = x.assemble front ∧ (x.assemble front).1.image = []) ∧
    ((x.assemble front).2 = .ok true → memorySize ≤ (lines front).length →
      y.assemble (front ++ back) = x.assemble front) ∧
    ((x.assemble front).2 = .ok true → (lines front).length < memorySize →
      (∀ j e, (lines front).length + j < memorySize → FirstFailure 0 (lines back) j e →
        y.assemble (front ++ back) =
          left ((x.assemble front).1.warnings ++
            movedWarnings (lines front).length (lines back) (j + 1))
            (.error (e.moved (lines front).length))) ∧
      ((∀ j e, FirstFailure 0 (lines back) j e → memorySize ≤ (lines front).length + j) →
        ∃ more : List Word,
          more.length = min (memorySize - (lines front).length) (lines back).length ∧
          (∀ i line word, (lines back)[i]? = some line → more[i]? = some word →
            lineWord line i = .ok word) ∧
          y.assemble (front ++ back) =
            left ((x.assemble front).1.warnings ++ movedWarnings (lines front).length (lines back)
              (min (lines back).length (memorySize - (lines front).length)))
              (.ok ((x.assemble front).1.image.take (lines front).length ++ more ++
                List.replicate (memorySize - (lines front).length - more.length) 0)))) := by
  have hl := lines_append hc ht
  refine ⟨fun hx => ?_, fun _ hk => assemble_append_of_full x y hl hk, fun hx hk => ?_⟩
  · rcases encodeLines_take_cases 0 memorySize (lines front) with hw | ⟨k, hk, e, hf⟩
    · exact absurd ((assemble_eq_true_iff x).2 hw) hx
    · refine ⟨assemble_append_of_failure x y hl hk hf, ?_⟩
      rw [assemble_of_firstFailure x hk hf, left_error_image]
  obtain ⟨words, hw⟩ := (assemble_eq_true_iff x).1 hx
  rw [List.take_of_length_le (by omega)] at hw
  refine ⟨fun j e hj hf => assemble_append_of_failure_right x y hl hw hj hf, fun hb => ?_⟩
  rcases encodeLines_take_cases 0 (memorySize - (lines front).length) (lines back) with
    ⟨more, hm⟩ | ⟨j, hj, e, hf⟩
  · obtain ⟨hlen, hall⟩ := encodeLines_eq_ok_iff.1 hm
    rw [List.length_take] at hlen
    refine ⟨more, hlen, fun i line word hi hword => ?_,
      assemble_append_of_words x y hl hk hw hm⟩
    have him := (List.getElem?_eq_some_iff.1 hword).1
    have hword' := hall i line word (by rwa [List.getElem?_take_of_lt (by omega)]) hword
    rwa [Nat.zero_add] at hword'
  · have hfar := hb j e hf
    omega

/-- A blank line, and a line that fails at address 2 behind one line, where it would fail at 1. -/
theorem assemble_append_blank_unknown :
    Closed "TAKE 5 x\r".toList ∧ ¬ Torn "TAKE 5 x\r".toList "\r\nFOO 1 2\n".toList ∧
      fresh.assemble ("TAKE 5 x\r" ++ "\r\nFOO 1 2\n") =
        left [surplusWarning 0, surplusWarning 2] (.error (.fault (.unknownOpcode "FOO" 2))) := by
  have hc : Closed "TAKE 5 x\r".toList := by decide
  have ht : ¬ Torn "TAKE 5 x\r".toList "\r\nFOO 1 2\n".toList := by decide
  have hw : encodeLines 0 ((lines "TAKE 5 x\r").take memorySize) = .ok [1005] := by decide
  have hf : FirstFailure 0 (lines "\r\nFOO 1 2\n") 1 (.fault (.unknownOpcode "FOO" 1)) := by
    refine ⟨⟨"FOO 1 2", by decide, by decide⟩, fun i hi => ⟨"", 0, ?_⟩⟩
    obtain rfl : i = 0 := by omega
    decide
  have hx := (assemble_eq_true_iff fresh).2 ⟨_, hw⟩
  have h := ((assemble_append fresh fresh hc ht).2.2 hx (by decide)).1 1 _ (by decide) hf
  refine ⟨hc, ht, ?_⟩
  rw [h, assemble_of_encodeLines fresh hw]
  decide

end Johnny.Assembler
