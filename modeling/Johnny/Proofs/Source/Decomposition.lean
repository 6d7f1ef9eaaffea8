import Johnny.Proofs.Source.Layout

namespace Johnny.Source

open Text

/-- A text in lines, each with its end of line, and a rest that ends no line. A CR is an end of
line by itself only if no LF comes right behind it. -/
inductive Divided : List (List Char × Ending) → List Char → List Char → Prop
  | rest {rest : List Char} (hu : Unbroken rest) : Divided [] rest rest
  | line (line : List Char) (ending : Ending) {pieces : List (List Char × Ending)}
      {rest text : List Char} (hu : Unbroken line) (hcr : ending = .cr → text.head? ≠ some '\n')
      (h : Divided pieces rest text) :
      Divided ((line, ending) :: pieces) rest (line ++ ending.text ++ text)

variable {pieces others : List (List Char × Ending)} {rest other text : List Char}

/-- A character that ends no line belongs to the first line, or to the rest if there is no line. -/
theorem Divided.exists_cons {c : Char} (hc : c ≠ '\r' ∧ c ≠ '\n') (h : Divided pieces rest text) :
    ∃ more last, Divided more last (c :: text) := by
  cases h with
  | rest hu => exact ⟨_, _, .rest (unbroken_cons.2 ⟨hc, hu⟩)⟩
  | line line ending hu hcr h =>
    exact ⟨_, _, .line (c :: line) ending (unbroken_cons.2 ⟨hc, hu⟩) hcr h⟩

theorem exists_divided (text : List Char) : ∃ pieces rest, Divided pieces rest text := by
  fun_induction splitLines text with
  | case1 => exact ⟨_, _, .rest unbroken_nil⟩
  | case2 rest ih =>
    obtain ⟨_, _, h⟩ := ih
    exact ⟨_, _, .line [] .crlf unbroken_nil (fun hcr => by cases hcr) h⟩
  | case3 rest hne ih =>
    obtain ⟨_, _, h⟩ := ih
    exact ⟨_, _, .line [] .cr unbroken_nil (fun _ => head?_ne_of_ne_cons hne) h⟩
  | case4 rest ih =>
    obtain ⟨_, _, h⟩ := ih
    exact ⟨_, _, .line [] .lf unbroken_nil (fun hcr => by cases hcr) h⟩
  | case5 c rest h1 hcr hlf ih =>
    obtain ⟨_, _, h⟩ := ih
    exact h.exists_cons ⟨hcr, hlf⟩

theorem not_unbroken_ending (line : List Char) (ending : Ending) (text : List Char) :
    ¬ Unbroken (line ++ ending.text ++ text) := by
  intro h
  cases ending with
  | lf => exact (h '\n' (by simp [Ending.text])).2 rfl
  | crlf => exact (h '\n' (by simp [Ending.text])).2 rfl
  | cr => exact (h '\r' (by simp [Ending.text])).1 rfl

theorem ending_cancel {ending another : Ending} {more : List Char}
    (ht : ending = .cr → text.head? ≠ some '\n') (hm : another = .cr → more.head? ≠ some '\n')
    (h : ending.text ++ text = another.text ++ more) : ending = another ∧ text = more := by
  -- Only CR and CR LF start alike, and then an LF is right behind the CR.
  by_cases hc : ending = .crlf ∧ another = .cr ∨ ending = .cr ∧ another = .crlf
  · rcases hc with ⟨rfl, rfl⟩ | ⟨rfl, rfl⟩
    · have hmore : '\n' :: text = more := (List.cons.inj h).2
      exact absurd (hmore ▸ rfl) (hm rfl)
    · have htext : text = '\n' :: more := (List.cons.inj h).2
      exact absurd (htext ▸ rfl) (ht rfl)
  · cases ending <;> cases another <;> simp_all [Ending.text]

/-- The first line and its end can be taken off a text in one way only: as a line they are found
again by the splitter, which leaves the two ends to be compared. -/
theorem line_cancel {line first more : List Char} {ending another : Ending} (hl : Unbroken line)
    (hf : Unbroken first) (ht : ending = .cr → text.head? ≠ some '\n')
    (hm : another = .cr → more.head? ≠ some '\n')
    (h : line ++ ending.text ++ text = first ++ another.text ++ more) :
    line = first ∧ ending = another ∧ text = more := by
  have hsplit := congrArg splitLines h
  rw [splitLines_ending hl ht, splitLines_ending hf hm] at hsplit
  obtain rfl : line = first := (List.cons.inj hsplit).1
  rw [List.append_assoc, List.append_assoc] at h
  exact ⟨rfl, ending_cancel ht hm (List.append_cancel_left h)⟩

theorem Divided.unique (h : Divided pieces rest text) (ho : Divided others other text) :
    others = pieces ∧ other = rest := by
  induction h generalizing others other with
  | rest hu =>
    cases ho with
    | rest => exact ⟨rfl, rfl⟩
    | line line ending => exact absurd hu (not_unbroken_ending line ending _)
  | line line ending hu hcr h ih =>
    generalize hw : line ++ ending.text ++ _ = whole at ho
    cases ho with
    | rest hr => exact absurd (hw ▸ hr) (not_unbroken_ending line ending _)
    | line first another hf hm ho =>
      obtain ⟨rfl, rfl, rfl⟩ := line_cancel hu hf hcr hm hw
      obtain ⟨rfl, rfl⟩ := ih ho
      exact ⟨rfl, rfl⟩

theorem splitLines_unbroken (h : Unbroken rest) :
    splitLines rest = if rest = [] then [] else [rest] := by
  induction rest with
  | nil => rfl
  | cons c cs ih =>
    obtain ⟨⟨hcr, hlf⟩, hcs⟩ := unbroken_cons.1 h
    rw [splitLines_char hcr hlf, ih hcs]
    cases cs <;> rfl

theorem Divided.splitLines_eq (h : Divided pieces rest text) :
    splitLines text = pieces.map Prod.fst ++ if rest = [] then [] else [rest] := by
  induction h with
  | rest hu => exact splitLines_unbroken hu
  | line line ending hu hcr h ih =>
    rw [splitLines_ending hu hcr, ih, List.map_cons, List.cons_append]

theorem flatten_extendHead (c : Char) (pieces : List (List Char)) :
    (extendHead c pieces).flatten = c :: pieces.flatten := by
  cases pieces <;> rfl

/-- Nothing but the ends of line is lost, and nothing is moved. -/
theorem flatten_splitLines (text : List Char) :
    (splitLines text).flatten = text.filter fun c => c ≠ '\r' ∧ c ≠ '\n' := by
  fun_induction splitLines text with
  | case1 => rfl
  | case2 rest ih => simpa using ih
  | case3 rest hne ih => simpa using ih
  | case4 rest ih => simpa using ih
  | case5 c rest h1 hcr hlf ih =>
    have hc : c ≠ '\r' ∧ c ≠ '\n' := ⟨hcr, hlf⟩
    rw [flatten_extendHead, ih, List.filter_cons_of_pos (by simpa using hc)]

/-- A source divides into lines with their ends and a rest in one way. Its lines are these lines,
and the rest if that is not empty; all characters but CR and LF are in them, in their order. -/
theorem lines_divided (source : String) :
    (∃! division : List (List Char × Ending) × List Char,
      Divided division.1 division.2 source.toList) ∧
    (∀ pieces rest, Divided pieces rest source.toList →
      (lines source).map String.toList = pieces.map Prod.fst ++ if rest = [] then [] else [rest]) ∧
    (lines source).flatMap String.toList = source.toList.filter fun c => c ≠ '\r' ∧ c ≠ '\n' := by
  have htexts : (lines source).map String.toList = splitLines source.toList := by
    simp [lines, Function.comp_def]
  refine ⟨?_, fun pieces rest h => ?_, ?_⟩
  · obtain ⟨pieces, rest, h⟩ := exists_divided source.toList
    refine ⟨(pieces, rest), h, fun other ho => ?_⟩
    exact Prod.ext_iff.2 (h.unique ho)
  · rw [htexts, h.splitLines_eq]
  · rw [List.flatMap_def, htexts, flatten_splitLines]

/-- CR CR LF is two ends of line, and the form feed none. -/
example : lines "a\r\r\n\u000c\n\n b" = ["a", "", "\u000c", "", " b"] := by decide

/-- Tokens with runs of spaces and tabs between each two. No token holds a space or a tab, and none
but the first and the last may be empty. -/
structure Separated (tokens : List (List Char)) (line : List Char) : Prop where
  solid : ∀ token ∈ tokens, ∀ c ∈ token, c ≠ ' ' ∧ c ≠ '\t'
  filled : ∀ token ∈ tokens.tail.dropLast, token ≠ []
  joined : Joined tokens line

theorem solid_iff {token : List Char} : Solid token ↔ ∀ c ∈ token, c ≠ ' ' ∧ c ≠ '\t' := by
  apply forall₂_congr
  intro c _
  rw [← not_or, ← isSeparator_iff, Bool.not_eq_true]

theorem splitTokens_eq_iff {line : List Char} {tokens : List (List Char)} :
    splitTokens line = tokens ↔ Separated tokens line := by
  constructor
  · rintro rfl
    refine ⟨fun token ht => ?_, filled_tail_splitTokens line, joined_splitTokens line⟩
    exact solid_iff.1 (solid_of_mem_splitTokens ht)
  · intro h
    exact splitTokens_joined h.joined (fun token ht => solid_iff.2 (h.solid token ht)) h.filled

theorem tokens_eq_iff {line : String} {texts : List String} :
    tokens line = texts ↔ Separated (texts.map String.toList) line.toList := by
  rw [← splitTokens_eq_iff, tokens]
  constructor
  · rintro rfl
    simp [Function.comp_def]
  · intro h
    simp [h, Function.comp_def]

theorem head?_splitTokens (line : List Char) :
    (splitTokens line).head? = some (firstToken line) := by
  rcases splitTokens_eq line with ⟨-, h⟩ | ⟨-, h⟩ <;> rw [h, List.head?_cons]

theorem Gap.getLast_append {gap : List Char} (hg : Gap gap) (front : List Char) :
    ∃ c ∈ (front ++ gap).getLast?, isSeparator c = true := by
  rw [List.getLast?_append_of_ne_nil _ hg.1]
  exact ⟨gap.getLast hg.1, List.getLast?_eq_some_getLast hg.1, hg.2 _ (List.getLast_mem hg.1)⟩

theorem getLast?_splitTokens_eq_nil_iff {line : List Char} :
    (splitTokens line).getLast? = some [] ↔
      line = [] ∨ ∃ c ∈ line.getLast?, isSeparator c = true := by
  induction line using line_induction with
  | token word hw =>
    rw [splitTokens_solid hw, List.getLast?_singleton, Option.some_inj, or_iff_left]
    rintro ⟨c, hc, hsep⟩
    rw [hw c (List.mem_of_getLast? hc)] at hsep
    cases hsep
  | gap word gap rest hw hg hr ih =>
    have hline : word ++ gap ++ rest ≠ [] := by simp [hg.1]
    rw [splitTokens_append hw hg hr, List.getLast?_cons_of_ne_nil (joined_splitTokens rest).ne_nil,
      ih, or_iff_right hline]
    cases rest with
    | nil => simpa using hg.getLast_append word
    | cons c cs => rw [List.getLast?_append_of_ne_nil _ (List.cons_ne_nil c cs),
        or_iff_right (List.cons_ne_nil c cs)]

/-- The tokens of a line are the one way to see it as tokens with runs of separators between them,
and whatever runs stand between such tokens, they are the tokens of that line. There is one more of
them than there are maximal runs. The first one is empty in an empty line and before a run at the
start, the last one in an empty line and behind a run at the end. -/
theorem tokens_separated (line : String) :
    (∀ texts : List String, tokens line = texts ↔
      Separated (texts.map String.toList) line.toList) ∧
    (tokens line).length = (separatorRuns line.toList).length + 1 ∧
    ((tokens line).head? = some "" ↔
      line = "" ∨ ∃ c ∈ line.toList.head?, c = ' ' ∨ c = '\t') ∧
    ((tokens line).getLast? = some "" ↔
      line = "" ∨ ∃ c ∈ line.toList.getLast?, c = ' ' ∨ c = '\t') := by
  have hempty (token : Option (List Char)) :
      token.map String.ofList = some "" ↔ token = some [] := by
    cases token with
    | none => simp
    | some t => simp
  have hline : line = "" ↔ line.toList = [] := by simp
  refine ⟨fun texts => tokens_eq_iff, ?_, ?_, ?_⟩
  · rw [tokens, List.length_map, length_splitTokens]
  · rw [tokens, List.head?_map, hempty, head?_splitTokens, Option.some_inj, firstToken_eq_nil_iff,
      hline]
    cases line.toList <;> simp
  · rw [tokens, List.getLast?_map, hempty, getLast?_splitTokens_eq_nil_iff, hline]
    simp only [isSeparator_iff]

/-- A line of separators has two empty tokens. -/
example : tokens " \t " = ["", ""] ∧ tokens "\tADD  5" = ["", "ADD", "5"] := by decide

end Johnny.Source
