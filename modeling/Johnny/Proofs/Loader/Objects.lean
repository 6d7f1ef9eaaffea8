import Johnny.Proofs.Assembler.Objects
import Johnny.Proofs.Loader.Run

namespace Johnny.LoaderObject

open Store Assembler

variable {l : LoaderObject} {m : Loader} {a : AssemblerObject} {s t : Store}

/-- The places that a loader holds are those of lists, and no warning goes to a list of errors. -/
structure WellFormed (l : LoaderObject) : Prop where
  errors_lt : l.errors < l.store.size
  warnings_lt : l.warnings < l.store.size
  assembler : ∀ a ∈ l.assembler, a.WellFormed l.store ∧ a.warnings ≠ l.errors

/-- What the object shows is the loader. -/
structure Shows (l : LoaderObject) (m : Loader) : Prop where
  wellFormed : l.WellFormed
  view : l.view = m

theorem Shows.keeps (h : l.Shows m) (hk : Keeps l.store t) : Shows { l with store := t } m := by
  obtain ⟨⟨he, hw, hl⟩, rfl⟩ := h
  have hlt {r : Ref} (hr : r < l.store.size) : r < t.size := Nat.lt_of_lt_of_le hr hk.size
  refine ⟨⟨hlt he, hlt hw, fun a ha => ⟨(hl a ha).1.keeps hk, (hl a ha).2⟩⟩, ?_⟩
  have hassembler : l.assembler.map (·.view t) = l.assembler.map (·.view l.store) :=
    Option.map_congr fun a ha => (hl a ha).1.view_keeps hk
  simp only [LoaderObject.view, hassembler, hk.texts _ he, hk.texts _ hw]

theorem shows_create (s : Store) : (create s).Shows Loader.fresh := by
  have hown := AssemblerObject.ownLists_create s
  refine ⟨⟨hown.errors_new.2, hown.warnings_new.2, nofun⟩, ?_⟩
  simp only [view, create, texts_create, texts_of_size_le (Nat.le_refl s.size),
    texts_of_size_le (Nat.le_succ s.size)]
  rfl

theorem Shows.unlink (h : l.Shows m)
    (hown : AssemblerObject.OwnLists l.store t a.errors a.warnings) :
    Shows { l with store := t, assembler := some a } (m.unlink (a.view t)) := by
  have hold {r : Ref} (hr : r < l.store.size) : a.warnings ≠ r :=
    Ne.symm (Nat.ne_of_lt (Nat.lt_of_lt_of_le hr hown.warnings_new.1))
  have hwarnings := hold h.wellFormed.warnings_lt
  have herrors := hold h.wellFormed.errors_lt
  obtain ⟨hl, rfl⟩ := h.keeps hown.keeps
  refine ⟨⟨hl.errors_lt, hl.warnings_lt, fun b hb => ?_⟩, ?_⟩
  · obtain rfl := Option.some.inj hb
    exact ⟨hown.wellFormed, herrors⟩
  · simp only [LoaderObject.view, Loader.unlink, Option.map_some, Option.any_some, hwarnings,
      decide_false]

/-- A loader that holds the warnings of its assembler is linked. -/
theorem shows_linked (ha : a.WellFormed s) {errors : Ref} (herrors : errors < s.size)
    (hne : a.warnings ≠ errors) :
    Shows ⟨s, some a, errors, a.warnings⟩
      ⟨some (a.view s), s.texts errors, s.texts a.warnings, true⟩ := by
  refine ⟨⟨herrors, ha.warnings_lt, fun b hb => ?_⟩, ?_⟩
  · obtain rfl := Option.some.inj hb
    exact ⟨ha, hne⟩
  · simp only [view, Option.map_some, Option.any_some, decide_true]

theorem shows_assemble (h : l.Shows m) (source : String) :
    Keeps l.store (l.assemble source).1.store ∧
      (l.assemble source).1.Shows (m.assemble source).1 ∧
      (l.assemble source).2 = (m.assemble source).2 := by
  have hnew := (AssemblerObject.ownLists_create l.store).keeps
  have hspec := AssemblerObject.assemble_spec (AssemblerObject.create l.store).1 source
  rw [assemble, Loader.assemble]
  generalize AssemblerObject.assemble (AssemblerObject.create l.store).1 source = run at hspec ⊢
  generalize Assembler.fresh.assemble source = ran at hspec ⊢
  obtain ⟨⟨s, a⟩, outcome⟩ := run
  obtain ⟨b, answer⟩ := ran
  obtain ⟨hown, rfl, rfl⟩ := hspec
  have ha := hown.wellFormed
  have hkeeps := hnew.trans hown.keeps
  rcases outcome with limit | (_ | _)
  · exact ⟨hkeeps, (h.keeps hnew).unlink hown, rfl⟩
  · exact ⟨hkeeps, shows_linked ha ha.errors_lt ha.apart, rfl⟩
  · -- The list of errors that the loader makes for itself is behind all others.
    have hsize : s.size < s.create.size := size_create s ▸ Nat.lt_succ_self _
    have hlinked := shows_linked (ha.keeps (keeps_create s)) hsize (Nat.ne_of_lt ha.warnings_lt)
    rw [ha.view_keeps (keeps_create s), texts_create, texts_create,
      texts_of_size_le (Nat.le_refl s.size)] at hlinked
    exact ⟨hkeeps.trans (keeps_create s), hlinked, rfl⟩

theorem shows_assembleFile (h : l.Shows m) (disk : Disk) (path : String) :
    Keeps l.store (l.assembleFile disk path).1.store ∧
      (l.assembleFile disk path).1.Shows (m.assembleFile disk path).1 ∧
      (l.assembleFile disk path).2 = (m.assembleFile disk path).2 := by
  rw [assembleFile, Loader.assembleFile]
  cases Source.ofFile disk path with
  | error e => exact ⟨keeps_refl l.store, h, rfl⟩
  | ok source => exact shows_assemble h source

/-- A warning at the list of the assembler is one at that of the loader if they are one list. -/
theorem Shows.follow (h : l.Shows m) (ha : l.assembler = some a) (more : List String) :
    Shows { l with store := l.store.append a.warnings more, assembler := some a }
      (m.follow ((a.view l.store).noted more)) := by
  obtain ⟨⟨he, hw, hl⟩, rfl⟩ := h
  obtain ⟨hwell, hne⟩ := hl a ha
  have hsize := size_append l.store a.warnings more
  have hwarnings : (l.store.append a.warnings more).texts l.warnings =
      if a.warnings = l.warnings then l.store.texts a.warnings ++ more
      else l.store.texts l.warnings := by
    split_ifs with heq
    · rw [← heq, texts_append_self hwell.warnings_lt]
    · rw [texts_append_of_ne (Ne.symm heq)]
  refine ⟨⟨hsize.symm ▸ he, hsize.symm ▸ hw, fun b hb => ?_⟩, ?_⟩
  · obtain rfl := Option.some.inj hb
    exact ⟨⟨hsize.symm ▸ hwell.errors_lt, hsize.symm ▸ hwell.warnings_lt, hwell.apart⟩, hne⟩
  · simp only [LoaderObject.view, Loader.follow, Option.map_some, Option.any_some, ha,
      AssemblerObject.view_append_warnings hwell, texts_append_of_ne hne.symm, hwarnings,
      decide_eq_true_eq]
    rfl

theorem shows_direct (h : l.Shows m) (disk : Disk) (s : Assembler.Step) :
    (l.direct disk s).1.1.Shows (m.direct disk s).1.1 ∧
      (l.direct disk s).1.2 = (m.direct disk s).1.2 ∧
      (l.direct disk s).2 = (m.direct disk s).2 := by
  cases ha : l.assembler with
  | none =>
    have hm : m.assembler = none := by simp [← h.view, view, ha]
    rw [direct, ha, Loader.direct, hm]
    exact ⟨h, rfl, rfl⟩
  | some a =>
    have hm : m.assembler = some (a.view l.store) := by simp [← h.view, view, ha]
    obtain ⟨hdisk, hanswer⟩ := Loader.direct_of_assembler hm disk s
    rw [hdisk, hanswer, direct, ha]
    dsimp only
    cases hs : s.isRun with
    | false =>
      rw [Loader.direct_of_not_run hm disk hs, a.step_of_not_run l.store disk hs]
      exact ⟨h.follow ha _, rfl, rfl⟩
    | true =>
      cases s with
      | assemble source =>
        obtain ⟨hown, hview, houtcome⟩ := AssemblerObject.assemble_spec l.store source
        have hrun : Assembler.fresh.assemble source = (a.view l.store).assemble source := by
          rw [Assembler.assemble_eq, Assembler.assemble_eq]
        rw [hrun] at hview houtcome
        rw [Loader.direct, hm]
        refine ⟨?_, rfl, ?_⟩
        · have hl := h.unlink hown
          rw [hview] at hl
          exact hl
        · exact congrArg (fun outcome => (outcome.map Answer.flag).mapError Error.digits) houtcome
      | _ => cases hs

/-- An operation on an object is that operation on the loader that the object shows. -/
theorem shows_step (h : l.Shows m) (disk : Disk) (s : Loader.Step) :
    (l.step disk s).1.1.Shows (m.step disk s).1.1 ∧
      (l.step disk s).1.2 = (m.step disk s).1.2 ∧ (l.step disk s).2 = (m.step disk s).2 := by
  cases s with
  | assemble source =>
    obtain ⟨-, hl, ho⟩ := shows_assemble h source
    exact ⟨hl, rfl, congrArg (Except.map Answer.image) ho⟩
  | assembleFile path =>
    obtain ⟨-, hl, ho⟩ := shows_assembleFile h disk path
    exact ⟨hl, rfl, congrArg (Except.map Answer.image) ho⟩
  | detachedAssemble source =>
    obtain ⟨hk, -, ho⟩ := shows_assemble (shows_create l.store) source
    exact ⟨h.keeps ((AssemblerObject.ownLists_create l.store).keeps.trans hk), rfl,
      congrArg (Except.map Answer.image) ho⟩
  | detachedAssembleFile path =>
    obtain ⟨hk, -, ho⟩ := shows_assembleFile (shows_create l.store) disk path
    exact ⟨h.keeps ((AssemblerObject.ownLists_create l.store).keeps.trans hk), rfl,
      congrArg (Except.map Answer.image) ho⟩
  | direct s => exact shows_direct h disk s
  | _ => exact ⟨h, rfl, rfl⟩

def run (l : LoaderObject) (disk : Disk) : List Loader.Step → LoaderObject × Disk
  | [] => (l, disk)
  | s :: rest =>
    let (next, written) := (l.step disk s).1
    run next written rest

theorem shows_run (h : l.Shows m) (disk : Disk) (steps : List Loader.Step) :
    (l.run disk steps).1.Shows (m.run disk steps).1 ∧
      (l.run disk steps).2 = (m.run disk steps).2 := by
  induction steps generalizing l m disk with
  | nil => exact ⟨h, rfl⟩
  | cons s rest ih =>
    obtain ⟨hnext, hwritten, -⟩ := shows_step h disk s
    have hrun : m.run disk (s :: rest) = (m.step disk s).1.1.run (l.step disk s).1.2 rest := by
      rw [hwritten]
      rfl
    rw [hrun]
    exact ih hnext _

/-- Whatever is done, a loader with a flag is what a loader with shared lists shows, and both answer
the next operation alike: the flag follows the sharing of lists. -/
theorem run_view (disk : Disk) (steps : List Loader.Step) :
    (run fresh disk steps).1.view = (Loader.run Loader.fresh disk steps).1 ∧
      (run fresh disk steps).2 = (Loader.run Loader.fresh disk steps).2 ∧
      ∀ s, ((run fresh disk steps).1.step (run fresh disk steps).2 s).2 =
        ((Loader.run Loader.fresh disk steps).1.step (run fresh disk steps).2 s).2 := by
  obtain ⟨hl, hdisk⟩ := shows_run (shows_create {}) disk steps
  exact ⟨hl.view, hdisk, fun s => (shows_step hl _ s).2.2⟩

end Johnny.LoaderObject
