import Johnny.Proofs.Source.Lines
import Johnny.Proofs.Source.Tokens

namespace Johnny.Source

/-- Tokens written as a line, with a run of separators between each two. -/
inductive Joined : List (List Char) → List Char → Prop
  | last (token : List Char) : Joined [token] token
  | next (token gap : List Char) {tokens : List (List Char)} {line : List Char} (hg : Gap gap)
      (h : Joined tokens line) : Joined (token :: tokens) (token ++ gap ++ line)

/-- The tokens before the last one are not empty. -/
def Filled (tokens : List (List Char)) : Prop := ∀ token ∈ tokens.dropLast, token ≠ []

theorem filled_singleton (token : List Char) : Filled [token] :=
  fun _ h => absurd h List.not_mem_nil

theorem filled_cons {token : List Char} {tokens : List (List Char)} (h : tokens ≠ []) :
    Filled (token :: tokens) ↔ token ≠ [] ∧ Filled tokens := by
  unfold Filled
  rw [List.dropLast_cons_of_ne_nil h, List.forall_mem_cons]

theorem Filled.tail {tokens : List (List Char)} (h : Filled tokens) : Filled tokens.tail := by
  intro token ht
  rw [← List.tail_dropLast] at ht
  exact h token (List.mem_of_mem_tail ht)

theorem Joined.ne_nil {tokens : List (List Char)} {line : List Char} (h : Joined tokens line) :
    tokens ≠ [] := by
  cases h <;> exact List.cons_ne_nil _ _

theorem Joined.fresh {tokens : List (List Char)} {line : List Char} (h : Joined tokens line)
    (hs : ∀ token ∈ tokens, Solid token) (hf : Filled tokens) : Fresh line := by
  cases h with
  | last => exact fun c hc => hs line List.mem_cons_self c (List.mem_of_mem_head? hc)
  | next token gap hg h =>
    rw [List.append_assoc]
    exact (hs token List.mem_cons_self).fresh ((filled_cons h.ne_nil).1 hf).1

theorem splitTokens_joined {tokens : List (List Char)} {line : List Char} (h : Joined tokens line)
    (hs : ∀ token ∈ tokens, Solid token) (hf : Filled tokens.tail) : splitTokens line = tokens := by
  induction h with
  | last token => exact splitTokens_solid (hs token List.mem_cons_self)
  | next token gap hg h ih =>
    obtain ⟨htoken, hrest⟩ := List.forall_mem_cons.1 hs
    rw [splitTokens_append htoken hg (h.fresh hrest hf), ih hrest hf.tail]

theorem joined_splitTokens (line : List Char) : Joined (splitTokens line) line := by
  induction line using line_induction with
  | token word hw =>
    rw [splitTokens_solid hw]
    exact .last word
  | gap word gap rest hw hg hr ih =>
    rw [splitTokens_append hw hg hr]
    exact .next word gap hg ih

theorem solid_of_mem_splitTokens {line token : List Char} (h : token ∈ splitTokens line) :
    Solid token := by
  induction line using line_induction with
  | token word hw =>
    rw [splitTokens_solid hw] at h
    rwa [List.mem_singleton.1 h]
  | gap word gap rest hw hg hr ih =>
    rw [splitTokens_append hw hg hr] at h
    rcases List.mem_cons.1 h with rfl | h
    · exact hw
    · exact ih h

theorem filled_splitTokens {line : List Char} (h : Fresh line) : Filled (splitTokens line) := by
  induction line using line_induction with
  | token word hw =>
    rw [splitTokens_solid hw]
    exact filled_singleton word
  | gap word gap rest hw hg hr ih =>
    rw [splitTokens_append hw hg hr, filled_cons (joined_splitTokens rest).ne_nil]
    refine ⟨?_, ih hr⟩
    rintro rfl
    obtain ⟨c, cs, rfl⟩ := List.exists_cons_of_ne_nil hg.1
    have hc : isSeparator c = true := hg.2 c List.mem_cons_self
    rw [h c rfl] at hc
    cases hc

/-- Only a token at an end of the line can be empty: what follows a run of separators does not
start with one. -/
theorem filled_tail_splitTokens (line : List Char) : Filled (splitTokens line).tail := by
  rcases splitTokens_eq line with ⟨-, h⟩ | ⟨-, h⟩
  · rw [h]
    exact fun _ ht => absurd ht List.not_mem_nil
  · rw [h]
    exact filled_splitTokens (fresh_dropWhile _)

theorem joined_splitTokens_iff {line text : List Char} :
    Joined (splitTokens line) text ↔ splitTokens text = splitTokens line := by
  refine ⟨fun h => ?_, fun h => h ▸ joined_splitTokens text⟩
  exact splitTokens_joined h (fun _ => solid_of_mem_splitTokens) (filled_tail_splitTokens line)

theorem Joined.mem_line {tokens : List (List Char)} {line token : List Char} {c : Char}
    (h : Joined tokens line) (ht : token ∈ tokens) (hc : c ∈ token) : c ∈ line := by
  induction h with
  | last last => rwa [← List.mem_singleton.1 ht]
  | next first gap hg h ih =>
    rcases List.mem_cons.1 ht with rfl | ht
    · exact List.mem_append_left _ (List.mem_append_left _ hc)
    · exact List.mem_append_right _ (ih ht)

theorem Joined.mem_cases {tokens : List (List Char)} {line : List Char} {c : Char}
    (h : Joined tokens line) (hc : c ∈ line) :
    isSeparator c = true ∨ ∃ token ∈ tokens, c ∈ token := by
  induction h with
  | last token => exact .inr ⟨token, List.mem_cons_self, hc⟩
  | next token gap hg h ih =>
    rcases List.mem_append.1 hc with hc | hc
    · rcases List.mem_append.1 hc with hc | hc
      · exact .inr ⟨token, List.mem_cons_self, hc⟩
      · exact .inl (hg.2 c hc)
    · rcases ih hc with hsep | ⟨other, hm, ho⟩
      · exact .inl hsep
      · exact .inr ⟨other, List.mem_cons_of_mem _ hm, ho⟩

theorem unbroken_of_joined {line text : List Char} (hu : Unbroken line)
    (h : Joined (splitTokens line) text) : Unbroken text := by
  intro c hc
  rcases h.mem_cases hc with hsep | ⟨token, ht, hm⟩
  · constructor
    · rintro rfl
      cases hsep
    · rintro rfl
      cases hsep
  · exact hu c ((joined_splitTokens line).mem_line ht hm)

theorem unbroken_cons {c : Char} {line : List Char} :
    Unbroken (c :: line) ↔ (c ≠ '\r' ∧ c ≠ '\n') ∧ Unbroken line := List.forall_mem_cons

theorem unbroken_nil : Unbroken [] := fun _ h => absurd h List.not_mem_nil

theorem unbroken_of_mem_splitLines {text line : List Char} (h : line ∈ splitLines text) :
    Unbroken line := by
  fun_induction splitLines text generalizing line with
  | case1 => exact absurd h List.not_mem_nil
  | case2 rest ih | case3 rest hne ih | case4 rest ih =>
    rcases List.mem_cons.1 h with rfl | h
    · exact unbroken_nil
    · exact ih h
  | case5 c rest h1 hcr hlf ih =>
    -- `c` belongs to the first line of the rest, or is a line by itself.
    cases hrest : splitLines rest with
    | nil =>
      rw [hrest] at h
      obtain rfl := List.mem_singleton.1 h
      exact unbroken_cons.2 ⟨⟨hcr, hlf⟩, unbroken_nil⟩
    | cons first more =>
      rw [hrest] at h ih
      rcases List.mem_cons.1 h with rfl | h
      · exact unbroken_cons.2 ⟨⟨hcr, hlf⟩, ih List.mem_cons_self⟩
      · exact ih (List.mem_cons_of_mem _ h)

/-- Another layout of a text: the tokens of each line with any runs of separators between them, and
any end of line behind them. -/
def Relaid (text other : List Char) : Prop :=
  ∃ pieces : List (List Char × Ending),
    List.Forall₂ (fun line piece => Joined (splitTokens line) piece.1) (splitLines text) pieces ∧
      pieces.IsChain Apart ∧ other = written pieces

theorem unbroken_pieces {lines : List (List Char)} {pieces : List (List Char × Ending)}
    (h : List.Forall₂ (fun line piece => Joined (splitTokens line) piece.1) lines pieces)
    (hu : ∀ line ∈ lines, Unbroken line) : ∀ piece ∈ pieces, Unbroken piece.1 := by
  induction h with
  | nil => exact fun _ h => absurd h List.not_mem_nil
  | cons hjoined hrest ih =>
    obtain ⟨hline, hlines⟩ := List.forall_mem_cons.1 hu
    exact List.forall_mem_cons.2 ⟨unbroken_of_joined hline hjoined, ih hlines⟩

theorem map_splitTokens_relaid {text other : List Char} (h : Relaid text other) :
    (splitLines other).map splitTokens = (splitLines text).map splitTokens := by
  obtain ⟨pieces, hpieces, ha, rfl⟩ := h
  have hu := unbroken_pieces hpieces fun _ => unbroken_of_mem_splitLines
  rw [splitLines_written hu ha, List.map_map, ← List.forall₂_eq_eq_eq, List.forall₂_map_left_iff,
    List.forall₂_map_right_iff]
  exact hpieces.flip.imp fun piece line => joined_splitTokens_iff.1

theorem map_tokens_lines (source : String) :
    (lines source).map tokens =
      ((splitLines source.toList).map splitTokens).map (·.map String.ofList) := by
  rw [lines, List.map_map, List.map_map]
  apply List.map_congr_left
  intro line _
  simp only [Function.comp_apply, tokens, String.toList_ofList]

theorem map_tokens_relaid {source other : String} (h : Relaid source.toList other.toList) :
    (lines other).map tokens = (lines source).map tokens := by
  rw [map_tokens_lines, map_tokens_lines, map_splitTokens_relaid h]

end Johnny.Source
