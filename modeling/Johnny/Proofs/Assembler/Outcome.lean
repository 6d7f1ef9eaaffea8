import Johnny.Assembler
import Johnny.Proofs.Image.Build

namespace Johnny.Assembler

open Image

def surplusWarning (address : Nat) : String := warningText (decimal address) surplusMessage

/-- What a run leaves behind and answers, by its warnings and by how building ended. -/
def left (warnings : List String) : Except EncodeError Image → Assembler × Except DigitLimit Bool
  | .ok image => ({ image, warnings }, .ok true)
  | .error (.fault f) => ({ errors := [f.message], warnings, failure := some f }, .ok false)
  | .error (.digits limit) => ({ warnings }, .error limit)

/-- The image of a source, or the error of its first line that cannot be encoded. -/
def sourceImage (source : String) : Except EncodeError Image :=
  (build none (Source.lines source) ()).2

/-- The warnings of a run over a source: one for each line looked at that has surplus tokens. -/
def sourceWarnings (source : String) : List String :=
  (surplusAddresses (Source.lines source)
    (examined 0 ((Source.lines source).take memorySize))).map surplusWarning

theorem sourceImage_eq (source : String) :
    sourceImage source = (encodeLines 0 ((Source.lines source).take memorySize)).map
      (· ++ List.replicate (memorySize - (Source.lines source).length) 0) := by
  have h := fill_none (fun _ _ (record : Unit) => record) memorySize 0 (Source.lines source) () ()
  rw [sourceImage, build, h, fill_eq]

theorem sourceImage_eq_error_iff {source : String} {e : EncodeError} :
    sourceImage source = .error e ↔
      ∃ k < memorySize, FirstFailure 0 (Source.lines source) k e := by
  rw [sourceImage_eq, map_eq_error_iff, encodeLines_eq_error_iff]
  simp only [firstFailure_take]

def noted (a : Assembler) (more : List String) : Assembler :=
  { a with warnings := a.warnings ++ more }

theorem noted_nil (a : Assembler) : a.noted [] = a := by simp only [noted, List.append_nil]

theorem noted_noted (a : Assembler) (first second : List String) :
    (a.noted first).noted second = a.noted (first ++ second) := by
  simp only [noted, List.append_assoc]

/-- A sink that adds the warnings on lines in memory to those in its record. -/
structure Collects {σ : Type} (note : Sink σ) (add : List String → σ → σ) : Prop where
  nil : ∀ record, add [] record = record
  append : ∀ first second record, add second (add first record) = add (first ++ second) record
  line : ∀ address : Nat, address < memorySize → ∀ record,
    note address surplusMessage record = add [surplusWarning address] record

section

variable {σ : Type} {note : Sink σ} {add : List String → σ → σ}

theorem Collects.reportAll_eq (h : Collects note add) {addresses : List Nat}
    (hlt : ∀ i ∈ addresses, i < memorySize) (record : σ) :
    reportAll note addresses record = add (addresses.map surplusWarning) record := by
  induction addresses generalizing record with
  | nil => exact (h.nil record).symm
  | cons address rest ih =>
    obtain ⟨haddress, hrest⟩ := List.forall_mem_cons.1 hlt
    rw [reportAll_cons, ih hrest, h.line address haddress, h.append]
    rfl

theorem Collects.build_eq (h : Collects note add) (source : String) (record : σ) :
    build (some note) (Source.lines source) record =
      (add (sourceWarnings source) record, sourceImage source) := by
  have hlt : ∀ i ∈ surplusAddresses (Source.lines source)
      (examined 0 ((Source.lines source).take memorySize)), i < memorySize :=
    fun i hi => Nat.lt_of_lt_of_le (lt_of_mem_surplusAddresses hi) (examined_take_le 0 _ _)
  rw [Image.build_eq, h.reportAll_eq hlt, sourceImage_eq]
  rfl

end

/-- No warning on a line in memory is refused. -/
theorem collects_warn :
    Collects (fun address message (a : Assembler) => (a.warn address message).1)
      (fun more a => a.noted more) where
  nil := noted_nil
  append first second a := noted_noted a first second
  line address h a := by
    rw [warn, writeDecimal_address h]
    rfl

/-- What a run leaves behind depends on its source alone. -/
theorem assemble_eq (a : Assembler) (source : String) :
    a.assemble source = left (sourceWarnings source) (sourceImage source) := by
  rw [assemble, collects_warn.build_eq source a.reset]
  rcases sourceImage source with (f | limit) | image <;> rfl

theorem assemble_of_encodeLines (a : Assembler) {source : String} {words : List Word}
    (h : encodeLines 0 ((Source.lines source).take memorySize) = .ok words) :
    a.assemble source = left
      ((surplusAddresses (Source.lines source)
        (min (Source.lines source).length memorySize)).map surplusWarning)
      (.ok (words ++ List.replicate (memorySize - (Source.lines source).length) 0)) := by
  rw [assemble_eq, sourceWarnings, sourceImage_eq, examined_of_ok h, h, List.length_take,
    Nat.min_comm]
  rfl

theorem assemble_of_firstFailure (a : Assembler) {source : String} {k : Nat} {e : EncodeError}
    (hk : k < memorySize) (h : FirstFailure 0 (Source.lines source) k e) :
    a.assemble source = left
      ((surplusAddresses (Source.lines source) (k + 1)).map surplusWarning) (.error e) := by
  have ht := firstFailure_take.2 ⟨hk, h⟩
  rw [assemble_eq, sourceWarnings, examined_of_firstFailure ht,
    sourceImage_eq_error_iff.2 ⟨k, hk, h⟩]

theorem left_error_ne_true (warnings : List String) (e : EncodeError) :
    (left warnings (.error e)).2 ≠ .ok true := by
  cases e <;> simp [left]

theorem left_error_image (warnings : List String) (e : EncodeError) :
    (left warnings (.error e)).1.image = [] := by
  cases e <;> rfl

theorem assemble_eq_true_iff (a : Assembler) {source : String} :
    (a.assemble source).2 = .ok true ↔
      ∃ words, encodeLines 0 ((Source.lines source).take memorySize) = .ok words := by
  refine ⟨fun h => ?_, fun ⟨words, hw⟩ => by rw [assemble_of_encodeLines a hw]; rfl⟩
  rcases encodeLines_take_cases 0 memorySize (Source.lines source) with hw | ⟨k, hk, e, hf⟩
  · exact hw
  · rw [assemble_of_firstFailure a hk hf] at h
    exact absurd h (left_error_ne_true _ e)

end Johnny.Assembler
