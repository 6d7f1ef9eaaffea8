import Johnny.Proofs.Loader.Run

namespace Johnny.Loader

/-- The loader shows the diagnostics of its assembler. -/
def Mirrors (l : Loader) : Prop :=
  ∃ a, l.assembler = some a ∧ l.errors = a.errors ∧ l.warnings = a.warnings

/-- The loader assembles, and that comes to an end of its own. -/
def Step.Settles (l : Loader) (disk : Disk) (s : Step) : Prop :=
  (∃ source, s.source? disk = some source) ∧ Settled (l.step disk s).2

/-- The assembler runs past the loader, or the loader assembles up to an operand with too many
digits. -/
def Step.Separates (l : Loader) (disk : Disk) (s : Step) : Prop :=
  (∃ source, s = .direct (.assemble source)) ∨
    ∃ source limit, s.source? disk = some source ∧ (l.step disk s).2 = .error (.digits limit)

/-- Neither the loader nor its assembler goes over a source. -/
def Step.Spares (_ : Loader) (disk : Disk) (s : Step) : Prop :=
  s.source? disk = none ∧ ∀ source, s ≠ .direct (.assemble source)

variable {l next : Loader} {disk : Disk} {s : Step}

/-- A loader without an assembler is as it was when it was new, and there is never more than one
error. -/
structure Plain (l : Loader) : Prop where
  unused : l.assembler = none → l = fresh
  single : l.errors.length ≤ 1

theorem length_errors_le (source : String) :
    (Assembler.fresh.assemble source).1.errors.length ≤ 1 := by
  rcases Assembler.diagnosed_assemble Assembler.fresh source with ⟨-, h⟩ | ⟨f, -, h, -⟩
  · rw [h]
    exact Nat.zero_le 1
  · rw [h]
    exact Nat.le_refl 1

theorem Plain.change (h : Plain l) (hc : Change l disk s next) : Plain next := by
  cases hc with
  | adopts hs hsettled => exact ⟨nofun, length_errors_le _⟩
  | stops hs hdigits => exact ⟨nofun, h.single⟩
  | reruns ha source => exact ⟨nofun, h.single⟩
  | notes ha hs => exact ⟨nofun, h.single⟩
  | idles hs => exact h

theorem plain_run (disk : Disk) (steps : List Step) : Plain (run fresh disk steps).1 :=
  run_preserves (fun _ _ _ _ _ hc h => Plain.change h hc) (throughout_true fresh disk steps)
    ⟨fun _ => rfl, Nat.zero_le 1⟩

def Linked (l : Loader) : Prop := l.linked = true ∧ Mirrors l

theorem linked_adopt (a : Assembler) : Linked (adopt a) := ⟨rfl, a, rfl, rfl, rfl⟩

theorem Linked.change (h : Linked l) (hs : s.Spares l disk) (hc : Change l disk s next) :
    Linked next := by
  obtain ⟨hlinked, a, ha, herrors, hwarnings⟩ := h
  cases hc with
  | adopts hsource => exact absurd (hs.1.symm.trans hsource) nofun
  | stops hsource => exact absurd (hs.1.symm.trans hsource) nofun
  | reruns _ source => exact absurd rfl (hs.2 source)
  | notes hb =>
    obtain rfl := Option.some.inj (ha.symm.trans hb)
    exact ⟨hlinked, _, rfl, herrors, if_pos hlinked⟩
  | idles => exact ⟨hlinked, a, ha, herrors, hwarnings⟩

theorem linked_of_settles (h : s.Settles l disk) : Linked (l.step disk s).1.1 := by
  obtain ⟨⟨source, hs⟩, hsettled⟩ := h
  rw [step_of_source hs, settled_map_iff] at hsettled
  rw [step_of_source hs, assemble_of_settled hsettled]
  exact linked_adopt _

/-- The loader has lists of its own, with these diagnostics. -/
def Holds (errors warnings : List String) (l : Loader) : Prop :=
  l.linked = false ∧ l.errors = errors ∧ l.warnings = warnings

theorem Holds.change {errors warnings : List String} (h : Holds errors warnings l)
    (hs : ¬ s.Settles l disk) (hc : Change l disk s next) : Holds errors warnings next := by
  obtain ⟨hlinked, herrors, hwarnings⟩ := h
  cases hc with
  | adopts hsource hsettled => exact absurd ⟨⟨_, hsource⟩, hsettled⟩ hs
  | stops => exact ⟨rfl, herrors, hwarnings⟩
  | reruns => exact ⟨rfl, herrors, hwarnings⟩
  | notes =>
    refine ⟨hlinked, herrors, ?_⟩
    rw [follow, hlinked]
    exact hwarnings
  | idles => exact ⟨hlinked, herrors, hwarnings⟩

theorem holds_of_separates (h : Plain l) (hs : s.Separates l disk) :
    Holds l.errors l.warnings (l.step disk s).1.1 := by
  rcases hs with ⟨source, rfl⟩ | ⟨source, limit, hs, hdigits⟩
  · rw [step, direct]
    cases ha : l.assembler with
    | none =>
      rw [h.unused ha]
      exact ⟨rfl, rfl, rfl⟩
    | some a => exact ⟨rfl, rfl, rfl⟩
  · rw [step_of_source hs] at hdigits ⊢
    have hnot : ¬ Settled (l.assemble source).2 := by
      rw [map_eq_error_iff.1 hdigits]
      exact not_settled_digits
    obtain ⟨-, -, hl⟩ := assemble_of_not_settled hnot
    rw [hl]
    exact ⟨rfl, rfl, rfl⟩

/-- How the diagnostics of a loader stand to those of its assembler, now and after more
operations. -/
structure Sharing (l : Loader) (disk : Disk) : Prop where
  unused : l.assembler = none → l.errors = [] ∧ l.warnings = []
  single : l.errors.length ≤ 1
  /-- Once it has assembled, the loader has the diagnostics of its assembler, until one of the two
  goes over another source. -/
  shared : ∀ s next written, s.Settles l disk → (l.step disk s).1 = (next, written) →
    ∀ more, Throughout Step.Spares next written more → Mirrors (run next written more).1
  /-- Once its assembler has run by itself, or a run was cut short, the loader keeps the
  diagnostics that it has, until it assembles again. -/
  apart : ∀ s next written, s.Separates l disk → (l.step disk s).1 = (next, written) →
    ∀ more, Throughout (fun l disk s => ¬ s.Settles l disk) next written more →
      (run next written more).1.errors = l.errors ∧ (run next written more).1.warnings = l.warnings

/-- Whatever was done with a loader, the latest of these operations that takes over diagnostics or
parts them decides what the loader shows. -/
theorem run_sharing (origin : Disk) (steps : List Step) :
    Sharing (run fresh origin steps).1 (run fresh origin steps).2 where
  unused hnone := by
    rw [(plain_run origin steps).unused hnone]
    exact ⟨rfl, rfl⟩
  single := (plain_run origin steps).single
  shared s next written hs hstep more hmore := by
    have hlinked := linked_of_settles hs
    rw [hstep] at hlinked
    exact (run_preserves (fun _ _ _ _ hp hc h => Linked.change h hp hc) hmore hlinked).2
  apart s next written hs hstep more hmore := by
    have hholds := holds_of_separates (plain_run origin steps) hs
    rw [hstep] at hholds
    exact (run_preserves (fun _ _ _ _ hp hc h => Holds.change h hp hc) hmore hholds).2

/-- A warning added after the loader has assembled is seen in both; then the assembler runs by
itself, and the loader keeps what it had. -/
example :
    let l := (run fresh (Disk.single "image" []) [.assemble "FOO", .direct (.warn 7 "is odd"),
      .direct (.assemble "TAKE 1 2"), .direct (.warn 8 "is even")]).1
    l.errors = ["Opcode \"FOO\" in line 0 is unknown. Terminating."] ∧
      l.warnings = ["Instruction in line 7 is odd"] ∧
      l.assembler.map (·.warnings.length) = some 2 := by
  decide +kernel

end Johnny.Loader
