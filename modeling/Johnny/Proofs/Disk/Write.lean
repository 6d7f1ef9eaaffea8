import Johnny.Disk.Basic
import Mathlib.Data.List.Basic
import Mathlib.Tactic.SplitIfs

namespace Johnny.Disk

variable {d : Disk} {p q : Path} {path : String}

theorem lookup_cons_eq_ite (q k : Path) (old : Bytes) (rest : List (Path × Bytes)) :
    ((k, old) :: rest).lookup q = if q = k then some old else rest.lookup q := by
  by_cases hq : q = k
  · rw [List.lookup_cons, hq, beq_self_eq_true, if_pos rfl]
  · rw [List.lookup_cons, beq_false_of_ne hq, if_neg hq]

theorem lookup_setContent (p q : Path) (content : Bytes) (files : List (Path × Bytes)) :
    (setContent p content files).lookup q =
      if q = p then some content else files.lookup q := by
  induction files with
  | nil => rw [setContent, lookup_cons_eq_ite]
  | cons entry rest ih =>
    obtain ⟨k, old⟩ := entry
    by_cases hk : k = p
    · rw [setContent, if_pos hk, lookup_cons_eq_ite, lookup_cons_eq_ite, hk]
      split_ifs <;> rfl
    · rw [setContent, if_neg hk, lookup_cons_eq_ite, lookup_cons_eq_ite, ih]
      by_cases hq : q = k
      · rw [if_pos hq, if_pos hq, if_neg (hq ▸ hk)]
      · rw [if_neg hq, if_neg hq]

theorem setContent_setContent (p : Path) (first second : Bytes) (files : List (Path × Bytes)) :
    setContent p second (setContent p first files) = setContent p second files := by
  induction files with
  | nil => simp [setContent]
  | cons entry rest ih =>
    obtain ⟨k, old⟩ := entry
    by_cases hk : k = p
    · simp [setContent, hk]
    · simp [setContent, hk, ih]

theorem content?_fill (d : Disk) (p q : Path) (content : Bytes) :
    (d.fill p content).content? q = if q = p then some content else d.content? q :=
  lookup_setContent p q content d.files

theorem fill_fill (d : Disk) (p : Path) (first second : Bytes) :
    (d.fill p first).fill p second = d.fill p second := by
  rw [fill, fill, fill, setContent_setContent]

theorem entry?_fill_self (d : Disk) (p : Path) (content : Bytes) :
    entry? (d.fill p content) p = some (.file content) := by
  unfold entry?
  rw [content?_fill, if_pos rfl]

theorem entry?_fill_of_ne (d : Disk) (content : Bytes) (h : q ≠ p) :
    entry? (d.fill p content) q = d.entry? q := by
  unfold entry?
  rw [content?_fill, if_neg h]
  rfl

theorem pass_eq_ok_iff {refusal : Option Refusal} {folder : Path} :
    Refusal.pass path p refusal = .ok folder ↔ refusal = none ∧ p = folder := by
  cases refusal <;> simp [Refusal.pass]

theorem walk_fill (hp : d.entry? p ≠ some .folder) (content : Bytes) {start folder : Path}
    {names : List String} (h : d.walk path start names = .ok folder) :
    (d.fill p content).walk path start names = .ok folder := by
  induction names generalizing start with
  | nil => exact h
  | cons name rest ih =>
    have hbarred : (d.fill p content).barred start = d.barred start := rfl
    rw [walk] at h ⊢
    rw [hbarred]
    cases hs : Refusal.pass path start (d.barred start) with
    | error e => rw [hs] at h; cases h
    | ok _ =>
      simp only [hs] at h ⊢
      split_ifs at h ⊢ with hdot hdots hlong
      · exact ih h
      · exact ih h
      · cases he : d.entry? (start ++ [name]) with
        | none => rw [he] at h; cases h
        | some entry =>
          cases entry with
          | file old => rw [he] at h; cases h
          | folder =>
            -- `p` holds no folder, so this name is still the folder it was.
            have hne : start ++ [name] ≠ p := fun hs => hp (hs ▸ he)
            rw [he] at h
            rw [entry?_fill_of_ne d content hne, he]
            exact ih h

theorem locate_fill (hp : d.entry? p ≠ some .folder) (content : Bytes) {folder : Path}
    (h : d.locate path = .ok folder) : (d.fill p content).locate path = .ok folder := by
  unfold locate at h ⊢
  split_ifs at h ⊢
  exact walk_fill hp content h

/-- A file can only be written under a proper name that no folder has, in a folder that the
path leads to, and only where it can also be read. -/
theorem of_target (h : d.target path = .ok p) :
    ∃ folder, d.locate path = .ok folder ∧ p = folder ++ [(Route.ofString path).last] ∧
      Route.isDots (Route.ofString path).last = false ∧ (Route.ofString path).closed = false ∧
      ¬ maxName < (Route.ofString path).last.utf8ByteSize ∧ d.entry? p ≠ some .folder ∧
      d.barred p = none := by
  unfold target at h
  cases hl : d.locate path with
  | error e => rw [hl] at h; cases h
  | ok folder =>
    simp only [hl] at h
    split_ifs at h with hdots hlong
    simp only [not_or, Bool.not_eq_true] at hdots
    split at h
    · cases h
    · rename_i hentry
      obtain ⟨hrefusal, rfl⟩ := pass_eq_ok_iff.1 h
      obtain ⟨hbarred, -⟩ := Option.or_eq_none_iff.1 hrefusal
      exact ⟨folder, rfl, rfl, hdots.1, hdots.2, hlong, hentry, hbarred⟩

/-- What is written at a path is read there. -/
theorem read_fill (h : d.target path = .ok p) (content : Bytes) :
    (d.fill p content).read path = .ok content := by
  obtain ⟨folder, hl, rfl, hdots, hclosed, hname, hentry, hbarred⟩ := of_target h
  have hpass : Refusal.pass path (folder ++ [(Route.ofString path).last])
      ((d.fill (folder ++ [(Route.ofString path).last]) content).barred
        (folder ++ [(Route.ofString path).last])) = .ok (folder ++ [(Route.ofString path).last]) :=
    pass_eq_ok_iff.2 ⟨hbarred, rfl⟩
  simp only [read, locate_fill hentry content hl, hdots, hclosed, hname, entry?_fill_self, hpass,
    Bool.false_eq_true, if_false, Except.map]

def Takes (d : Disk) (p : Path) (content : Bytes) : Prop := (d.fill p []).stop? p content = none

/-- A file that has just been opened stops short of a text, and keeps the beginning of it. -/
def Stops (d : Disk) (p : Path) (content kept : Bytes) (e : FileError) : Prop :=
  ∃ s, (d.fill p []).stop? p content = some s ∧ content.take s.kept = kept ∧ s.error = e

theorem takes_or_stops (d : Disk) (p : Path) (content : Bytes) :
    d.Takes p content ∨ ∃ kept e, d.Stops p content kept e := by
  unfold Takes Stops
  cases (d.fill p []).stop? p content with
  | none => exact .inl rfl
  | some s => exact .inr ⟨_, _, s, rfl, rfl, rfl⟩

variable {content kept : Bytes} {e : FileError}

theorem Stops.not_takes (h : d.Stops p content kept e) : ¬ d.Takes p content := by
  obtain ⟨s, hs, -⟩ := h
  simp [Takes, hs]

theorem write_of_takes (h : d.Takes p content) :
    (d.fill p []).write p content = (d.fill p content, .ok ()) := by
  rw [Takes] at h
  simp only [write, h, fill_fill]

theorem write_of_stops (h : d.Stops p content kept e) :
    (d.fill p []).write p content = (d.fill p kept, .error e) := by
  obtain ⟨s, hs, rfl, rfl⟩ := h
  simp only [write, hs, fill_fill]

/-- No file is on one of two disks and not, or with another content, on the other. -/
def SameFiles (d e : Disk) : Prop := ∀ p, e.content? p = d.content? p

/-- The file at a path has a content, and all other files are as they were. -/
structure Written (before : Disk) (path : String) (content : Bytes) (after : Disk) : Prop where
  read : after.read path = .ok content
  others : ∃ file, before.target path = .ok file ∧ after.content? file = some content ∧
    ∀ p, p ≠ file → after.content? p = before.content? p

/-- A file can be opened for writing at a path and takes the whole of a text. -/
def Accepts (d : Disk) (path : String) (content : Bytes) : Prop :=
  ∃ file, d.target path = .ok file ∧ d.Takes file content

/-- A file was opened for writing at a path and did not take the whole of a text. No other file has
changed, and nothing is said of that one. -/
structure CutShort (before : Disk) (path : String) (content : Bytes) (after : Disk) : Prop where
  target : ∃ file, before.target path = .ok file ∧ ¬ before.Takes file content ∧
    ∀ p, p ≠ file → after.content? p = before.content? p

theorem cutShort_fill (h : d.target path = .ok p) (hs : d.Stops p content kept e) :
    d.CutShort path content (d.fill p kept) :=
  ⟨p, h, hs.not_takes, fun q hq => by rw [content?_fill, if_neg hq]⟩

theorem CutShort.not_accepts {after : Disk} (h : d.CutShort path content after) :
    ¬ d.Accepts path content := by
  rintro ⟨file, hfile, htakes⟩
  obtain ⟨other, hother, hnot, -⟩ := h.target
  obtain rfl := Except.ok.inj (hfile.symm.trans hother)
  exact hnot htakes

theorem written_fill (h : d.target path = .ok p) (content : Bytes) :
    d.Written path content (d.fill p content) := by
  refine ⟨read_fill h content, p, h, ?_, fun q hq => ?_⟩
  · rw [content?_fill, if_pos rfl]
  · rw [content?_fill, if_neg hq]

theorem sameFiles_fill_iff {content : Bytes} :
    d.SameFiles (d.fill p content) ↔ d.content? p = some content := by
  constructor
  · intro h
    have hp := h p
    rw [content?_fill, if_pos rfl] at hp
    exact hp.symm
  · intro h q
    rw [content?_fill]
    split_ifs with hq
    · rw [hq, h]
    · rfl

def single (name : String) (content : Bytes) : Disk where
  folders := []
  files := [([name], content)]
  current := []

end Johnny.Disk
