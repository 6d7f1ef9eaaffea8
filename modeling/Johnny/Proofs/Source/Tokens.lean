import Johnny.Proofs.Text.Trim
import Johnny.Source.Basic
import Mathlib.Data.List.SplitBy
import Mathlib.Data.List.TakeWhile

namespace Johnny.Source

theorem isSeparator_iff {c : Char} : isSeparator c = true ↔ c = ' ' ∨ c = '\t' := by
  simp [isSeparator]

def Solid (text : List Char) : Prop := ∀ c ∈ text, isSeparator c = false

instance (text : List Char) : Decidable (Solid text) := List.decidableBAll _ text

/-- A run of separators. -/
def Gap (text : List Char) : Prop := text ≠ [] ∧ ∀ c ∈ text, isSeparator c = true

theorem gap_space : Gap [' '] := by
  refine ⟨by simp, ?_⟩
  intro c hc
  obtain rfl := List.mem_singleton.1 hc
  rfl

/-- A text that no separator starts, so that a run of separators before it ends there. -/
def Fresh (text : List Char) : Prop := ∀ c ∈ text.head?, isSeparator c = false

def firstToken (line : List Char) : List Char := line.takeWhile (!isSeparator ·)

def afterGap (line : List Char) : List Char :=
  (line.dropWhile (!isSeparator ·)).dropWhile isSeparator

def secondToken (line : List Char) : List Char := firstToken (afterGap line)

/-- The maximal runs of separators in a line. -/
def separatorRuns (line : List Char) : List (List Char) :=
  (line.splitBy fun a b => isSeparator a == isSeparator b).filter (·.all isSeparator)

theorem solid_firstToken (line : List Char) : Solid (firstToken line) := by
  intro c hc
  simpa using List.mem_takeWhile_imp hc

theorem firstToken_eq_nil_iff {line : List Char} :
    firstToken line = [] ↔ line = [] ∨ ∃ c rest, line = c :: rest ∧ (c = ' ' ∨ c = '\t') := by
  cases line with
  | nil => simp [firstToken]
  | cons c rest => simp [firstToken, List.takeWhile_cons, ← isSeparator_iff]

theorem head_rest_isSeparator (line : List Char) :
    ∀ c ∈ (line.dropWhile (!isSeparator ·)).head?, c = ' ' ∨ c = '\t' := by
  intro c hc
  rw [← isSeparator_iff]
  simpa using Text.drop_head?_dropWhile (!isSeparator ·) line c hc

theorem fresh_dropWhile (line : List Char) : Fresh (line.dropWhile isSeparator) :=
  Text.drop_head?_dropWhile isSeparator line

theorem Solid.fresh {text rest : List Char} (h : Solid text) (hne : text ≠ []) :
    Fresh (text ++ rest) := by
  obtain ⟨c, cs, rfl⟩ := List.exists_cons_of_ne_nil hne
  intro d hd
  exact h d (by simp_all)

theorem Gap.not_solid {gap front back : List Char} (h : Gap gap) :
    ¬ Solid (front ++ gap ++ back) := by
  obtain ⟨c, hc⟩ := List.exists_mem_of_ne_nil gap h.1
  intro hs
  have := hs c (by simp [hc])
  simp [h.2 c hc] at this

/-- A line is one token, or a token, a run of separators and a rest. -/
theorem line_cases (line : List Char) :
    Solid line ∨ ∃ gap, Gap gap ∧ line = firstToken line ++ gap ++ afterGap line := by
  have h : firstToken line ++ line.dropWhile (!isSeparator ·) = line :=
    List.takeWhile_append_dropWhile
  cases hd : line.dropWhile (!isSeparator ·) with
  | nil =>
    left
    rw [hd, List.append_nil] at h
    rw [← h]
    exact solid_firstToken line
  | cons c rest =>
    right
    have hc : isSeparator c = true := isSeparator_iff.2 (head_rest_isSeparator line c (hd ▸ rfl))
    refine ⟨(c :: rest).takeWhile isSeparator, ⟨by simp [hc], ?_⟩, ?_⟩
    · intro d hd'
      exact List.mem_takeWhile_imp hd'
    · rw [afterGap, hd, List.append_assoc, List.takeWhile_append_dropWhile, ← hd]
      exact h.symm

theorem firstToken_append {word rest : List Char} (hw : Solid word)
    (hr : ∀ c ∈ rest.head?, isSeparator c = true) : firstToken (word ++ rest) = word := by
  rw [firstToken, List.takeWhile_append_of_pos (by simpa [Solid] using hw)]
  cases rest with
  | nil => simp
  | cons c cs => simp [hr c rfl]

theorem firstToken_solid {word : List Char} (h : Solid word) : firstToken word = word := by
  have hf : firstToken (word ++ []) = word := firstToken_append h (by simp)
  rwa [List.append_nil] at hf

theorem Gap.head {gap rest : List Char} (h : Gap gap) :
    ∀ c ∈ (gap ++ rest).head?, isSeparator c = true := by
  obtain ⟨hne, hall⟩ := h
  cases gap with
  | nil => exact absurd rfl hne
  | cons c cs => intro d hd; exact hall d (by simp_all)

theorem afterGap_append {word gap rest : List Char} (hw : Solid word) (hg : Gap gap)
    (hr : Fresh rest) : afterGap (word ++ gap ++ rest) = rest := by
  have hword : (word ++ (gap ++ rest)).dropWhile (!isSeparator ·) = gap ++ rest :=
    Text.dropWhile_append (by simpa [Solid] using hw) (by simpa using hg.head)
  rw [afterGap, List.append_assoc, hword, Text.dropWhile_append hg.2 hr]

theorem line_induction {P : List Char → Prop} (token : ∀ word, Solid word → P word)
    (gap : ∀ word gap rest, Solid word → Gap gap → Fresh rest → P rest → P (word ++ gap ++ rest))
    (line : List Char) : P line := by
  induction h : line.length using Nat.strong_induction_on generalizing line with
  | _ n ih =>
    rcases line_cases line with hs | ⟨g, hg, hl⟩
    · exact token line hs
    · rw [hl]
      -- The run is not empty, so what follows it is shorter than the line.
      refine gap _ g _ (solid_firstToken line) hg (fresh_dropWhile _) (ih _ ?_ _ rfl)
      have hlen := congrArg List.length hl
      have := List.length_pos_of_ne_nil hg.1
      simp only [List.length_append] at hlen
      omega

theorem splitTokens_solid {word : List Char} (h : Solid word) : splitTokens word = [word] := by
  induction word with
  | nil => rfl
  | cons c cs ih =>
    rw [splitTokens, h c (by simp), ih fun d hd => h d (by simp [hd])]
    rfl

theorem splitTokens_gap {gap rest : List Char} (hg : Gap gap) (hr : Fresh rest) :
    splitTokens (gap ++ rest) = [] :: splitTokens rest := by
  obtain ⟨hne, hall⟩ := hg
  induction gap with
  | nil => exact absurd rfl hne
  | cons c cs ih =>
    rw [List.cons_append, splitTokens, hall c (by simp)]
    cases cs with
    | nil =>
      have : rest.head?.any isSeparator = false := by
        cases rest with
        | nil => rfl
        | cons d ds => simpa using hr d rfl
      simp [this]
    | cons d ds =>
      have hd : isSeparator d = true := hall d (by simp)
      simpa [hd] using ih (by simp) fun e he => hall e (by simp_all)

theorem splitTokens_append {word gap rest : List Char} (hw : Solid word) (hg : Gap gap)
    (hr : Fresh rest) : splitTokens (word ++ gap ++ rest) = word :: splitTokens rest := by
  induction word with
  | nil => exact splitTokens_gap hg hr
  | cons c cs ih =>
    rw [List.cons_append, List.cons_append, splitTokens, hw c (by simp),
      ih fun d hd => hw d (by simp [hd])]
    rfl

theorem splitTokens_eq (line : List Char) :
    (Solid line ∧ splitTokens line = [firstToken line]) ∨
    (¬ Solid line ∧ splitTokens line = firstToken line :: splitTokens (afterGap line)) := by
  rcases line_cases line with hs | ⟨gap, hg, hl⟩
  · left
    exact ⟨hs, by rw [firstToken_solid hs, splitTokens_solid hs]⟩
  · right
    refine ⟨fun hs => hg.not_solid (hl ▸ hs), ?_⟩
    · conv_lhs => rw [hl]
      exact splitTokens_append (solid_firstToken line) hg (fresh_dropWhile _)

theorem tokens_ne_nil (line : String) : tokens line ≠ [] := by
  rw [tokens]
  rcases splitTokens_eq line.toList with ⟨-, h⟩ | ⟨-, h⟩ <;> simp [h]

theorem separatorRuns_solid {word : List Char} (h : Solid word) : separatorRuns word = [] := by
  simp only [separatorRuns, List.filter_eq_nil_iff]
  intro run hrun hall
  have hne := List.ne_nil_of_mem_splitBy hrun
  obtain ⟨c, hc⟩ := List.exists_mem_of_ne_nil run hne
  have hm : c ∈ word := by
    rw [← List.flatten_splitBy (fun a b => isSeparator a == isSeparator b) word]
    exact List.mem_flatten_of_mem hrun hc
  have := List.all_eq_true.1 hall c hc
  simp [h c hm] at this

theorem separatorRuns_gap {gap : List Char} (h : Gap gap) : separatorRuns gap = [gap] := by
  have hc : gap.IsChain fun a b => (isSeparator a == isSeparator b) = true :=
    (List.pairwise_of_forall_mem_list fun a ha b hb => by simp [h.2 a ha, h.2 b hb]).isChain
  rw [separatorRuns, List.splitBy_of_isChain h.1 hc]
  simpa using h.2

theorem separatorRuns_append {front back : List Char}
    (h : ∀ a ∈ front.getLast?, ∀ b ∈ back.head?, isSeparator a ≠ isSeparator b) :
    separatorRuns (front ++ back) = separatorRuns front ++ separatorRuns back := by
  rw [separatorRuns, List.splitBy_append (by simpa using h), List.filter_append]
  rfl

/-- Each maximal run of separators divides the line once. -/
theorem length_splitTokens (line : List Char) :
    (splitTokens line).length = (separatorRuns line).length + 1 := by
  induction line using line_induction with
  | token word hw => rw [splitTokens_solid hw, separatorRuns_solid hw]; rfl
  | gap word gap rest hw hg hr ih =>
    rw [splitTokens_append hw hg hr, List.append_assoc, separatorRuns_append, separatorRuns_append,
      separatorRuns_solid hw, separatorRuns_gap hg]
    · simp [ih]
    · intro a ha b hb
      rw [hg.2 a (List.mem_of_mem_getLast? ha), hr b hb]
      decide
    · intro a ha b hb
      rw [hw a (List.mem_of_mem_getLast? ha), hg.head b hb]
      decide

end Johnny.Source
