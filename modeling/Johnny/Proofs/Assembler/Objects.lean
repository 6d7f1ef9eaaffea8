import Johnny.Loader.Objects
import Johnny.Proofs.Assembler.Run

namespace Johnny

open Image

namespace Store

variable {s t : Store} {q r : Ref}

theorem size_create (s : Store) : s.create.size = s.size + 1 := List.length_append

theorem size_append (s : Store) (r : Ref) (more : List String) : (s.append r more).size = s.size :=
  List.length_modify ..

theorem texts_of_size_le (h : s.size ≤ r) : s.texts r = [] := by
  rw [texts, List.getD_eq_getElem?_getD, List.getElem?_eq_none h, Option.getD_none]

theorem texts_create (s : Store) (r : Ref) : s.create.texts r = s.texts r := by
  rcases Nat.lt_or_ge r s.size with h | h
  · simp only [texts, create, List.getD_eq_getElem?_getD, List.getElem?_append_left h]
  · rw [texts_of_size_le h, texts, create, List.getD_eq_getElem?_getD, List.getElem?_append_right h]
    cases r - s.lists.length <;> rfl

theorem texts_append_self (h : r < s.size) (more : List String) :
    (s.append r more).texts r = s.texts r ++ more := by
  have hr : s.lists[r]? = some s.lists[r] := List.getElem?_eq_getElem h
  simp [texts, append, hr]

theorem texts_append_of_ne (h : q ≠ r) (more : List String) :
    (s.append r more).texts q = s.texts q := by
  simp [texts, append, Ne.symm h]

theorem append_nil (s : Store) (r : Ref) : s.append r [] = s := by
  have hid : (· ++ ([] : List String)) = id := funext List.append_nil
  rw [append, hid, List.modify_id]

theorem append_append (s : Store) (r : Ref) (first second : List String) :
    (s.append r first).append r second = s.append r (first ++ second) := by
  have hcomp : (· ++ second) ∘ (· ++ first) = (· ++ (first ++ second)) := by
    funext texts
    exact List.append_assoc ..
  rw [append, append, append, List.modify_modify_eq, hcomp]

/-- No list is gone, and those there were have not changed. -/
structure Keeps (s t : Store) : Prop where
  size : s.size ≤ t.size
  texts : ∀ r < s.size, t.texts r = s.texts r

theorem Keeps.trans {u : Store} (h : Keeps s t) (hu : Keeps t u) : Keeps s u :=
  ⟨Nat.le_trans h.size hu.size, fun r hr =>
    (hu.texts r (Nat.lt_of_lt_of_le hr h.size)).trans (h.texts r hr)⟩

theorem keeps_refl (s : Store) : Keeps s s := ⟨Nat.le_refl _, fun _ _ => rfl⟩

theorem keeps_create (s : Store) : Keeps s s.create :=
  ⟨by rw [size_create]; omega, fun r _ => texts_create s r⟩

theorem Keeps.append (h : Keeps s t) (hr : s.size ≤ r) (more : List String) :
    Keeps s (t.append r more) := by
  refine ⟨by rw [size_append]; exact h.size, fun q hq => ?_⟩
  have hne : q ≠ r := Nat.ne_of_lt (Nat.lt_of_lt_of_le hq hr)
  rw [texts_append_of_ne hne, h.texts q hq]

end Store

namespace AssemblerObject

open Store Assembler

variable {s t : Store} {o : AssemblerObject} {r : Ref}

/-- Two lists that an assembler has for itself: they were not there before, and no other list has
changed. -/
structure OwnLists (s t : Store) (errors warnings : Ref) : Prop where
  keeps : Keeps s t
  errors_new : s.size ≤ errors ∧ errors < t.size
  warnings_new : s.size ≤ warnings ∧ warnings < t.size
  apart : warnings ≠ errors

theorem OwnLists.append {errors warnings : Ref} (h : OwnLists s t errors warnings)
    (hr : s.size ≤ r) (more : List String) : OwnLists s (t.append r more) errors warnings where
  keeps := h.keeps.append hr more
  errors_new := by rw [size_append]; exact h.errors_new
  warnings_new := by rw [size_append]; exact h.warnings_new
  apart := h.apart

/-- The places that an assembler holds are those of two lists. -/
structure WellFormed (o : AssemblerObject) (s : Store) : Prop where
  errors_lt : o.errors < s.size
  warnings_lt : o.warnings < s.size
  apart : o.warnings ≠ o.errors

theorem OwnLists.wellFormed (h : OwnLists s t o.errors o.warnings) : o.WellFormed t :=
  ⟨h.errors_new.2, h.warnings_new.2, h.apart⟩

theorem WellFormed.keeps (h : o.WellFormed s) (hk : Keeps s t) : o.WellFormed t :=
  ⟨Nat.lt_of_lt_of_le h.errors_lt hk.size, Nat.lt_of_lt_of_le h.warnings_lt hk.size, h.apart⟩

theorem WellFormed.view_keeps (h : o.WellFormed s) (hk : Keeps s t) : o.view t = o.view s := by
  simp only [view, hk.texts _ h.errors_lt, hk.texts _ h.warnings_lt]

theorem ownLists_create (s : Store) :
    OwnLists s (create s).1 (create s).2.errors (create s).2.warnings := by
  have hsize : s.create.create.size = s.size + 2 := by rw [size_create, size_create]
  constructor
  · exact (keeps_create s).trans (keeps_create _)
  · exact ⟨Nat.le_refl _, hsize ▸ Nat.lt_add_of_pos_right (by decide)⟩
  · exact ⟨Nat.le_succ _, hsize ▸ Nat.lt_succ_self _⟩
  · exact Nat.succ_ne_self _

theorem view_create (s : Store) : (create s).2.view (create s).1 = Assembler.fresh := by
  simp only [view, create, texts_create, texts_of_size_le (Nat.le_refl s.size),
    texts_of_size_le (Nat.le_succ s.size)]
  rfl

theorem collects_warn (o : AssemblerObject) :
    Collects (fun address message (s : Store) => (o.warn s address message).1)
      (fun more s => s.append o.warnings more) where
  nil s := append_nil s o.warnings
  append first second s := append_append s o.warnings first second
  line address h s := by
    rw [warn, writeDecimal_address h]
    rfl

theorem view_append_warnings (h : o.WellFormed s) (more : List String) :
    o.view (s.append o.warnings more) = (o.view s).noted more := by
  simp only [view, noted, texts_append_self h.warnings_lt, texts_append_of_ne h.apart.symm]

theorem view_append_errors (h : o.WellFormed s) {a : Assembler} (ha : o.view s = a)
    (more : List String) :
    o.view (s.append o.errors more) = { a with errors := a.errors ++ more } := by
  subst ha
  simp only [view, texts_append_self h.errors_lt, texts_append_of_ne h.apart]

/-- A run makes new lists. With the texts in them it is a run of a new assembler. -/
theorem assemble_spec (s : Store) (source : String) :
    OwnLists s (assemble s source).1.1 (assemble s source).1.2.errors
        (assemble s source).1.2.warnings ∧
      (assemble s source).1.2.view (assemble s source).1.1 =
        (Assembler.fresh.assemble source).1 ∧
      (assemble s source).2 = (Assembler.fresh.assemble source).2 := by
  have hown := ownLists_create s
  have hnoted := hown.append hown.warnings_new.1 (sourceWarnings source)
  have hview := view_append_warnings hown.wellFormed (sourceWarnings source)
  have hbuild := (create s).2.collects_warn.build_eq source (create s).1
  rw [view_create] at hview
  rw [assemble, hbuild, Assembler.assemble_eq]
  rcases sourceImage source with (f | limit) | image
  · have herrors := view_append_errors hnoted.wellFormed hview [f.message]
    refine ⟨hnoted.append hown.errors_new.1 [f.message], ?_, rfl⟩
    exact congrArg (fun a : Assembler => { a with failure := some f }) herrors
  · exact ⟨hnoted, hview, rfl⟩
  · refine ⟨hnoted, ?_, rfl⟩
    exact congrArg (fun a : Assembler => { a with image := image }) hview

theorem warn_fst (o : AssemblerObject) (s : Store) (address : Address) (message : String) :
    (o.warn s address message).1 = s.append o.warnings (notes [.warn address message]) := by
  rw [warn]
  cases hw : writeDecimal address with
  | error limit => simp [notes, Step.note?, hw, Except.toOption, append_nil]
  | ok line => simp [notes, Step.note?, hw, Except.toOption]

theorem warn_snd (o : AssemblerObject) (s : Store) (address : Address) (message : String) :
    (o.warn s address message).2 = ((o.view s).warn address message).2 := by
  rw [warn, Assembler.warn]
  cases writeDecimal address <;> rfl

/-- An operation other than a run adds at most a warning, to the list that the assembler holds. -/
theorem step_of_not_run (o : AssemblerObject) (s : Store) (disk : Disk) {a : Assembler.Step}
    (h : a.isRun = false) :
    o.step s disk a = (((s.append o.warnings (notes [a]), o), ((o.view s).step disk a).1.2),
      ((o.view s).step disk a).2) := by
  cases a with
  | assemble source => cases h
  | warn address message =>
    rw [← warn_fst]
    refine Prod.ext rfl ?_
    change ((o.warn s address message).2.map fun _ => Answer.done).mapError Error.digits = _
    rw [warn_snd]
    rfl
  | _ => exact Prod.ext (congrArg (fun t => ((t, o), _)) (append_nil s o.warnings).symm) rfl

end AssemblerObject

end Johnny
