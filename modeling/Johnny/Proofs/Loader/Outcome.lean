import Johnny.Loader
import Johnny.Proofs.Assembler.Outcome

namespace Johnny.Loader

open Assembler

/-- What a loader holds and answers after a run, by the warnings and by how building ended. The
lists stay those of an earlier run where an operand has too many digits. -/
def left (l : Loader) (warnings : List String) :
    Except EncodeError Image → Loader × Except Error Image
  | .ok image => (⟨some { image, warnings }, [], warnings, true⟩, .ok image)
  | .error (.fault f) =>
    (⟨some { errors := [f.message], warnings, failure := some f }, [f.message], warnings, true⟩,
      .error (.assembly [f.message]))
  | .error (.digits limit) =>
    ({ l with assembler := some { warnings }, linked := false }, .error (.digits limit))

theorem assemble_eq (l : Loader) (source : String) :
    l.assemble source = l.left (sourceWarnings source) (sourceImage source) := by
  rw [assemble, Assembler.assemble_eq]
  cases sourceImage source with
  | ok image => rfl
  | error e => cases e <;> rfl

theorem assembly_message (message : String) :
    (Error.assembly [message]).message = "Assembly failed:\n" ++ message := rfl

section

variable (l : Loader) (warnings : List String) {built : Except EncodeError Image}

theorem left_eq_ok_iff {image : Image} :
    (l.left warnings built).2 = .ok image ↔ built = .ok image := by
  rcases built with (f | limit) | words <;> simp [left]

theorem left_eq_assembly_iff {errors : List String} :
    (l.left warnings built).2 = .error (.assembly errors) ↔
      ∃ f : Fault, built = .error (.fault f) ∧ errors = [f.message] := by
  rcases built with (f | limit) | words <;> simp [left, eq_comm]

theorem left_eq_digits_iff {limit : DigitLimit} :
    (l.left warnings built).2 = .error (.digits limit) ↔ built = .error (.digits limit) := by
  rcases built with (f | limit) | words <;> simp [left]

theorem left_assembler_warnings :
    ∃ a, (l.left warnings built).1.assembler = some a ∧ a.warnings = warnings := by
  rcases built with (f | limit) | words <;> exact ⟨_, rfl, rfl⟩

end

end Johnny.Loader
