import Johnny.Loader.Step
import Johnny.Proofs.Assembler.History

namespace Johnny.Loader

def run (l : Loader) (disk : Disk) : List Step → Loader × Disk
  | [] => (l, disk)
  | s :: rest =>
    let (next, written) := (l.step disk s).1
    run next written rest

/-- The source that an operation makes the loader assemble. The loader gets none from a file that
cannot be read. -/
def Step.source? (disk : Disk) : Step → Option String
  | assemble source => some source
  | assembleFile path => (Source.ofFile disk path).toOption
  | _ => none

/-- Assembling came to an end of its own, with an image or with the errors of the source. -/
def Settled {α : Type} (outcome : Except Error α) : Prop :=
  (∃ a, outcome = .ok a) ∨ ∃ errors, outcome = .error (.assembly errors)

theorem settled_map_iff {α β : Type} {f : α → β} {outcome : Except Error α} :
    Settled (outcome.map f) ↔ Settled outcome := by
  cases outcome <;> simp [Settled, Except.map]

theorem not_settled_digits {α : Type} {limit : DigitLimit} :
    ¬ Settled (.error (.digits limit) : Except Error α) := by
  simp [Settled]

/-- A loader that has taken over the diagnostics of its assembler. -/
def adopt (a : Assembler) : Loader := ⟨some a, a.errors, a.warnings, true⟩

/-- The new assembler is adopted, unless an operand has too many digits: then the loader keeps
the diagnostics it had. -/
theorem assemble_cases (l : Loader) (source : String) :
    (Settled (l.assemble source).2 ∧
      (l.assemble source).1 = adopt (Assembler.fresh.assemble source).1) ∨
    ∃ limit, (l.assemble source).2 = .error (.digits limit) ∧
      (l.assemble source).1 = l.unlink (Assembler.fresh.assemble source).1 := by
  rw [assemble, Assembler.assemble_eq]
  rcases Assembler.sourceImage source with (f | limit) | image
  · exact .inl ⟨.inr ⟨_, rfl⟩, rfl⟩
  · exact .inr ⟨limit, rfl, rfl⟩
  · exact .inl ⟨.inl ⟨_, rfl⟩, rfl⟩

theorem assemble_of_settled {l : Loader} {source : String} (h : Settled (l.assemble source).2) :
    (l.assemble source).1 = adopt (Assembler.fresh.assemble source).1 := by
  rcases assemble_cases l source with ⟨-, hl⟩ | ⟨limit, hdigits, -⟩
  · exact hl
  · rw [hdigits] at h
    exact absurd h not_settled_digits

theorem assemble_of_not_settled {l : Loader} {source : String}
    (h : ¬ Settled (l.assemble source).2) :
    ∃ limit, (l.assemble source).2 = .error (.digits limit) ∧
      (l.assemble source).1 = l.unlink (Assembler.fresh.assemble source).1 :=
  (assemble_cases l source).resolve_left fun hsettled => h hsettled.1

theorem step_of_source {l : Loader} {disk : Disk} {s : Step} {source : String}
    (h : s.source? disk = some source) :
    l.step disk s = (((l.assemble source).1, disk), (l.assemble source).2.map .image) := by
  cases s with
  | assemble text =>
    obtain rfl := Option.some.inj h
    rfl
  | assembleFile path =>
    cases hf : Source.ofFile disk path with
    | error e => simp [Step.source?, hf, Except.toOption] at h
    | ok text =>
      obtain rfl : text = source := by simpa [Step.source?, hf, Except.toOption] using h
      simp only [step, assembleFile, hf]
  | _ => cases h

/-- What an operation can do to a loader. -/
inductive Change (l : Loader) (disk : Disk) : Step → Loader → Prop
  | adopts {s : Step} {source : String} (hs : s.source? disk = some source)
      (h : Settled (l.step disk s).2) : Change l disk s (adopt (Assembler.fresh.assemble source).1)
  | stops {s : Step} {source : String} {limit : DigitLimit} (hs : s.source? disk = some source)
      (h : (l.step disk s).2 = .error (.digits limit)) :
      Change l disk s (l.unlink (Assembler.fresh.assemble source).1)
  | reruns {a : Assembler} (ha : l.assembler = some a) (source : String) :
      Change l disk (.direct (.assemble source)) (l.unlink (a.assemble source).1)
  | notes {a : Assembler} (ha : l.assembler = some a) {s : Assembler.Step} (hs : s.isRun = false) :
      Change l disk (.direct s) (l.follow (a.noted (Assembler.notes [s])))
  | idles {s : Step} (hs : s.source? disk = none) : Change l disk s l

theorem change_of_source {l : Loader} {disk : Disk} {s : Step} {source : String}
    (hs : s.source? disk = some source) : Change l disk s (l.step disk s).1.1 := by
  have hstep : l.step disk s = _ := step_of_source hs
  rcases assemble_cases l source with ⟨hsettled, hl⟩ | ⟨limit, hdigits, hl⟩
  · have houtcome : Settled (l.step disk s).2 := by rwa [hstep, settled_map_iff]
    rw [hstep, hl]
    exact .adopts hs houtcome
  · have houtcome : (l.step disk s).2 = .error (.digits limit) := by
      rw [hstep, hdigits]
      rfl
    rw [hstep, hl]
    exact .stops hs houtcome

theorem direct_of_not_run {l : Loader} {a : Assembler} (ha : l.assembler = some a) (disk : Disk)
    {s : Assembler.Step} (hs : s.isRun = false) :
    (l.direct disk s).1.1 = l.follow (a.noted (Assembler.notes [s])) := by
  rw [← Assembler.step_of_not_run a disk hs, direct, ha]
  cases s with
  | assemble source => cases hs
  | _ => rfl

theorem direct_of_assembler {l : Loader} {a : Assembler} (ha : l.assembler = some a) (disk : Disk)
    (s : Assembler.Step) :
    (l.direct disk s).1.2 = (a.step disk s).1.2 ∧ (l.direct disk s).2 = (a.step disk s).2 := by
  rw [direct, ha]
  cases s <;> exact ⟨rfl, rfl⟩

theorem change_direct (l : Loader) (disk : Disk) (s : Assembler.Step) :
    Change l disk (.direct s) (l.direct disk s).1.1 := by
  cases ha : l.assembler with
  | none =>
    rw [direct, ha]
    exact .idles rfl
  | some a =>
    cases hs : s.isRun with
    | false =>
      rw [direct_of_not_run ha disk hs]
      exact .notes ha hs
    | true =>
      cases s with
      | assemble source =>
        rw [direct, ha]
        exact .reruns ha source
      | _ => cases hs

theorem change_step (l : Loader) (disk : Disk) (s : Step) :
    Change l disk s (l.step disk s).1.1 := by
  cases s with
  | assemble source => exact change_of_source rfl
  | assembleFile path =>
    cases hf : Source.ofFile disk path with
    | error e =>
      rw [step, assembleFile, hf]
      exact .idles (by rw [Step.source?, hf]; rfl)
    | ok source => exact change_of_source (by rw [Step.source?, hf]; rfl)
  | direct s => exact change_direct l disk s
  | _ => exact .idles rfl

def Throughout (P : Loader → Disk → Step → Prop) : Loader → Disk → List Step → Prop
  | _, _, [] => True
  | l, disk, s :: rest =>
    P l disk s ∧
      let (next, written) := (l.step disk s).1
      Throughout P next written rest

/-- What operations keep under a condition is kept by all of them together. -/
theorem run_preserves {P : Loader → Disk → Step → Prop} {I : Loader → Prop}
    (hstep : ∀ l disk s next, P l disk s → Change l disk s next → I l → I next) {l : Loader}
    {disk : Disk} {steps : List Step} (h : Throughout P l disk steps) (hl : I l) :
    I (run l disk steps).1 := by
  induction steps generalizing l disk with
  | nil => exact hl
  | cons s rest ih => exact ih h.2 (hstep l disk s _ h.1 (change_step l disk s) hl)

theorem throughout_true (l : Loader) (disk : Disk) (steps : List Step) :
    Throughout (fun _ _ _ => True) l disk steps := by
  induction steps generalizing l disk with
  | nil => trivial
  | cons s rest ih => exact ⟨trivial, ih _ _⟩

end Johnny.Loader
