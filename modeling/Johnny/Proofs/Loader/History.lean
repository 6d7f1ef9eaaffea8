import Johnny.Proofs.Loader.Run

namespace Johnny.Loader

/-- The operations that a loader has no part in, and the attempt to assemble a file that cannot be
read. -/
def Step.Idle (disk : Disk) : Step → Prop
  | loadImage _ => True
  | create _ => True
  | detachedAssemble _ => True
  | detachedAssembleFile _ => True
  | assembleFile path => ∃ e, Source.ofFile disk path = .error e
  | _ => False

theorem step_of_idle (l : Loader) {disk : Disk} {s : Step} (h : s.Idle disk) :
    (l.step disk s).1 = (l, disk) := by
  cases s with
  | assembleFile path =>
    obtain ⟨e, he⟩ := h
    simp only [step, assembleFile, he]
  | loadImage path => rfl
  | create program => rfl
  | detachedAssemble source => rfl
  | detachedAssembleFile path => rfl
  | _ => exact h.elim

theorem run_of_idle (l : Loader) {disk : Disk} {steps : List Step}
    (h : ∀ s ∈ steps, s.Idle disk) : run l disk steps = (l, disk) := by
  induction steps with
  | nil => rfl
  | cons s rest ih =>
    obtain ⟨hs, hrest⟩ := List.forall_mem_cons.1 h
    rw [run, step_of_idle l hs]
    exact ih hrest

variable (l m : Loader)

theorem assemble_outcome (source : String) : (l.assemble source).2 = (m.assemble source).2 := by
  unfold assemble
  rcases Assembler.fresh.assemble source with ⟨a, limit | _ | _⟩ <;> rfl

theorem assembleFile_outcome (disk : Disk) (path : String) :
    (l.assembleFile disk path).2 = (m.assembleFile disk path).2 := by
  unfold assembleFile
  cases Source.ofFile disk path with
  | error e => rfl
  | ok source => exact assemble_outcome l m source

theorem assembler_assemble (source : String) :
    (l.assemble source).1.assembler = some (Assembler.fresh.assemble source).1 := by
  rcases assemble_cases l source with ⟨-, hl⟩ | ⟨limit, -, hl⟩
  · rw [hl]
    rfl
  · rw [hl]
    rfl

/-- What was done with a loader makes no difference to what it answers. It assembles as a new one
does and is then like the new one, but for the diagnostics that it keeps where an operand has too
many digits. Looking at files and data leaves it and the disk as they are. -/
theorem independent_of_history (disk : Disk) :
    (∀ steps : List Step, (∀ s ∈ steps, s.Idle disk) → run l disk steps = (l, disk)) ∧
    (∀ source : String,
      (l.assemble source).2 = (fresh.assemble source).2 ∧
      (l.assemble source).1.assembler = (fresh.assemble source).1.assembler ∧
      (Settled (l.assemble source).2 → (l.assemble source).1 = (fresh.assemble source).1) ∧
      (¬ Settled (l.assemble source).2 →
        (∃ limit, (l.assemble source).2 = .error (.digits limit)) ∧
        (l.assemble source).1.errors = l.errors ∧ (l.assemble source).1.warnings = l.warnings)) ∧
    (∀ source, (l.step disk (.detachedAssemble source)).2 = (l.step disk (.assemble source)).2) ∧
    ∀ path, (l.step disk (.detachedAssembleFile path)).2 =
      (l.step disk (.assembleFile path)).2 := by
  refine ⟨fun steps => run_of_idle l, fun source => ⟨?_, ?_, fun h => ?_, fun h => ?_⟩,
    fun source => ?_, fun path => ?_⟩
  · exact assemble_outcome l fresh source
  · rw [assembler_assemble, assembler_assemble]
  · have hfresh : Settled (fresh.assemble source).2 := assemble_outcome l fresh source ▸ h
    rw [assemble_of_settled h, assemble_of_settled hfresh]
  · obtain ⟨limit, hdigits, hl⟩ := assemble_of_not_settled h
    rw [hl]
    exact ⟨⟨limit, hdigits⟩, rfl, rfl⟩
  · exact congrArg (Except.map Answer.image) (assemble_outcome fresh l source)
  · exact congrArg (Except.map Answer.image) (assembleFile_outcome fresh l disk path)

end Johnny.Loader
