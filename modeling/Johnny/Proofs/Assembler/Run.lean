import Johnny.Assembler
import Johnny.Proofs.Image.Bounds

namespace Johnny.Assembler

open Image

def Step.isRun : Step → Bool
  | assemble _ => true
  | _ => false

/-- The warning that an operation adds by itself, unless it is refused. -/
def Step.note? : Step → Option String
  | warn address message => (writeDecimal address).toOption.map (warningText · message)
  | _ => none

def notes (steps : List Step) : List String := steps.filterMap Step.note?

theorem warn_fst (a : Assembler) (address : Address) (message : String) :
    (a.warn address message).1 = a.noted (notes [.warn address message]) := by
  rw [warn]
  cases hw : writeDecimal address with
  | error limit => simp [notes, Step.note?, hw, Except.toOption, noted_nil]
  | ok line => simp [noted, notes, Step.note?, hw, Except.toOption]

theorem step_of_not_run (a : Assembler) (disk : Disk) {s : Step} (h : s.isRun = false) :
    (a.step disk s).1.1 = a.noted (notes [s]) := by
  cases s with
  | assemble source => cases h
  | warn address message => exact warn_fst a address message
  | image => exact (noted_nil a).symm
  | ram => exact (noted_nil a).symm
  | writeRam path => exact (noted_nil a).symm

theorem step_cases (a : Assembler) (disk : Disk) (s : Step) :
    (∃ source, (a.step disk s).1.1 = (a.assemble source).1) ∨
      ∃ more, (a.step disk s).1.1 = a.noted more := by
  cases hs : s.isRun with
  | false => exact .inr ⟨_, step_of_not_run a disk hs⟩
  | true =>
    cases s with
    | assemble source => exact .inl ⟨source, rfl⟩
    | _ => cases hs

/-- The assembler and the disk after operations one by one, whether they succeed or not. -/
def run (a : Assembler) (disk : Disk) : List Step → Assembler × Disk
  | [] => (a, disk)
  | s :: rest =>
    let (next, written) := (a.step disk s).1
    run next written rest

theorem run_assemble (a : Assembler) (disk : Disk) (source : String) :
    (run a disk [.assemble source]).1 = (a.assemble source).1 := rfl

theorem run_preserves {P : Assembler → Prop}
    (hstep : ∀ a disk s, P a → P (step a disk s).1.1) {a : Assembler} (disk : Disk)
    (steps : List Step) (h : P a) : P (run a disk steps).1 := by
  induction steps generalizing a disk with
  | nil => exact h
  | cons s rest ih => exact ih _ (hstep a disk s h)

def Sourced (a : Assembler) : Prop := a.image = [] ∨ ∃ source, sourceImage source = .ok a.image

theorem sourced_assemble (a : Assembler) (source : String) : Sourced (a.assemble source).1 := by
  rw [assemble_eq]
  cases hi : sourceImage source with
  | ok image => exact .inr ⟨source, hi⟩
  | error e => exact .inl (left_error_image _ e)

theorem sourced_step (a : Assembler) (disk : Disk) (s : Step) (h : Sourced a) :
    Sourced (a.step disk s).1.1 := by
  rcases step_cases a disk s with ⟨source, hs⟩ | ⟨more, hs⟩
  · rw [hs]
    exact sourced_assemble a source
  · rw [hs]
    exact h

theorem sourced_run (disk : Disk) (steps : List Step) : Sourced (run fresh disk steps).1 :=
  run_preserves sourced_step disk steps (.inl rfl)

theorem length_sourceImage {source : String} {image : Image} (h : sourceImage source = .ok image) :
    image.length = memorySize := by
  rw [sourceImage_eq] at h
  obtain ⟨words, hw, rfl⟩ := map_eq_ok_iff.1 h
  exact (imageOf_of_encodeLines hw).size

end Johnny.Assembler
