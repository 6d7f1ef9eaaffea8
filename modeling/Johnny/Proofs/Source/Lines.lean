import Johnny.Source.Basic
import Mathlib.Data.List.Chain

namespace Johnny.Source

open Text

/-- A text that leaves no line open: it is empty, or its last character ends a line. -/
def Closed (text : List Char) : Prop := ∀ c ∈ text.getLast?, c = '\n' ∨ c = '\r'

instance (text : List Char) : Decidable (Closed text) := Option.decidableForallMem text.getLast?

/-- Between the two texts there is a CR LF, which is one end of line. -/
def Torn (front back : List Char) : Prop := front.getLast? = some '\r' ∧ back.head? = some '\n'

instance (front back : List Char) : Decidable (Torn front back) :=
  inferInstanceAs (Decidable (_ ∧ _))

theorem splitLines_cr {rest : List Char} (h : rest.head? ≠ some '\n') :
    splitLines ('\r' :: rest) = [] :: splitLines rest := by
  cases rest with
  | nil => rfl
  | cons c cs => rw [splitLines.eq_3]; simpa using h

theorem head?_ne_of_ne_cons {c : Char} {rest : List Char}
    (h : ∀ more, rest = c :: more → False) : rest.head? ≠ some c := by
  intro hc
  obtain ⟨more, hm⟩ := List.head?_eq_some_iff.1 hc
  exact h more hm

theorem splitLines_char {c : Char} {rest : List Char} (hr : c ≠ '\r') (hn : c ≠ '\n') :
    splitLines (c :: rest) = extendHead c (splitLines rest) := by
  rw [splitLines.eq_5] <;> simp_all

theorem splitLines_ne_nil {text : List Char} (h : text ≠ []) : splitLines text ≠ [] := by
  fun_cases splitLines text with
  | case1 => exact absurd rfl h
  | case5 c rest => cases splitLines rest <;> simp [extendHead]
  | _ => simp

theorem extendHead_append {c : Char} {front back : List (List Char)} (h : front ≠ []) :
    extendHead c (front ++ back) = extendHead c front ++ back := by
  cases front with
  | nil => exact absurd rfl h
  | cons piece pieces => rfl

theorem getLast?_cons_of_eq_some {c d : Char} {rest : List Char} (h : rest.getLast? = some d) :
    (c :: rest).getLast? = some d := by
  rw [List.getLast?_cons, h]
  rfl

theorem Closed.tail {c : Char} {rest : List Char} (h : Closed (c :: rest)) : Closed rest :=
  fun d hd => h d (getLast?_cons_of_eq_some hd)

theorem Torn.cons {c : Char} {rest back : List Char} (h : Torn rest back) :
    Torn (c :: rest) back :=
  ⟨getLast?_cons_of_eq_some h.1, h.2⟩

theorem splitLines_append {front back : List Char} (hc : Closed front)
    (ht : ¬ Torn front back) :
    splitLines (front ++ back) = splitLines front ++ splitLines back := by
  fun_induction splitLines front with
  | case1 => rfl
  | case2 rest ih =>
    rw [List.cons_append, List.cons_append, splitLines,
      ih hc.tail.tail fun h => ht h.cons.cons]
    rfl
  | case3 rest hne ih =>
    have hhead : (rest ++ back).head? ≠ some '\n' := by
      cases rest with
      | nil => exact fun h => ht ⟨rfl, h⟩
      | cons d ds => simpa using hne
    rw [List.cons_append, splitLines_cr hhead, ih hc.tail fun h => ht h.cons]
    rfl
  | case4 rest ih =>
    rw [List.cons_append, splitLines, ih hc.tail fun h => ht h.cons]
    rfl
  | case5 c rest h1 h2 h3 ih =>
    have hr : c ≠ '\r' := h2
    have hn : c ≠ '\n' := h3
    -- `c` ends no line, so the line that it is in ends further on.
    have hne : rest ≠ [] := by
      intro he
      have := hc c (by simp [he])
      simp_all
    rw [List.cons_append, splitLines_char hr hn, ih hc.tail fun h => ht h.cons,
      extendHead_append (splitLines_ne_nil hne)]

theorem lines_append {front back : String} (hc : Closed front.toList)
    (ht : ¬ Torn front.toList back.toList) : lines (front ++ back) = lines front ++ lines back := by
  rw [lines, String.toList_append, splitLines_append hc ht, List.map_append]
  rfl

/-- No character of the text ends a line. -/
def Unbroken (line : List Char) : Prop := ∀ c ∈ line, c ≠ '\r' ∧ c ≠ '\n'

instance (line : List Char) : Decidable (Unbroken line) := List.decidableBAll _ line

inductive Ending where
  | lf
  | crlf
  | cr
  deriving DecidableEq

def Ending.text : Ending → List Char
  | lf => ['\n']
  | crlf => ['\r', '\n']
  | cr => ['\r']

theorem splitLines_ending {line : List Char} (h : Unbroken line) {ending : Ending}
    {rest : List Char} (hr : ending = .cr → rest.head? ≠ some '\n') :
    splitLines (line ++ ending.text ++ rest) = line :: splitLines rest := by
  induction line with
  | nil =>
    cases ending with
    | cr => exact splitLines_cr (hr rfl)
    | _ => rfl
  | cons c cs ih =>
    obtain ⟨hcr, hlf⟩ := h c List.mem_cons_self
    rw [List.cons_append, List.cons_append, splitLines_char hcr hlf,
      ih fun d hd => h d (List.mem_cons_of_mem _ hd)]
    rfl

theorem splitLines_line {line : List Char} (h : Unbroken line) (rest : List Char) :
    splitLines (line ++ '\n' :: rest) = line :: splitLines rest := by
  have hline : splitLines (line ++ Ending.lf.text ++ rest) = line :: splitLines rest :=
    splitLines_ending h nofun
  rwa [List.append_assoc] at hline

def written (pieces : List (List Char × Ending)) : List Char :=
  pieces.flatMap fun piece => piece.1 ++ piece.2.text

theorem written_cons (piece : List Char × Ending) (rest : List (List Char × Ending)) :
    written (piece :: rest) = piece.1 ++ piece.2.text ++ written rest := List.flatMap_cons

/-- No CR is followed by an LF, which would make one end of line of the two. -/
def Apart (piece next : List Char × Ending) : Prop :=
  ¬ (piece.2 = .cr ∧ next.1 = [] ∧ next.2 = .lf)

instance (piece next : List Char × Ending) : Decidable (Apart piece next) :=
  inferInstanceAs (Decidable (¬ _))

theorem head?_written_ne {piece : List Char × Ending} {rest : List (List Char × Ending)}
    (hp : piece.2 = .cr) (hu : ∀ next ∈ rest, Unbroken next.1)
    (ha : ∀ next ∈ rest.head?, Apart piece next) : (written rest).head? ≠ some '\n' := by
  cases rest with
  | nil => exact nofun
  | cons next more =>
    obtain ⟨line, ending⟩ := next
    have hline : Unbroken line := hu _ List.mem_cons_self
    have hnext := ha _ rfl
    cases line with
    | nil =>
      cases ending with
      | lf => exact absurd ⟨hp, rfl, rfl⟩ hnext
      | crlf => exact nofun
      | cr => exact nofun
    | cons c cs =>
      have hc := (hline c List.mem_cons_self).2
      rw [written_cons]
      simpa using hc

theorem splitLines_written {pieces : List (List Char × Ending)}
    (hu : ∀ piece ∈ pieces, Unbroken piece.1) (ha : pieces.IsChain Apart) :
    splitLines (written pieces) = pieces.map Prod.fst := by
  induction pieces with
  | nil => rfl
  | cons piece rest ih =>
    obtain ⟨hpiece, hrest⟩ := List.forall_mem_cons.1 hu
    obtain ⟨hnext, hchain⟩ := List.isChain_cons.1 ha
    rw [written_cons, splitLines_ending hpiece fun hp => head?_written_ne hp hrest hnext,
      ih hrest hchain]
    rfl

theorem splitLines_flatMap {texts : List (List Char)} (h : ∀ line ∈ texts, Unbroken line) :
    splitLines (texts.flatMap (· ++ ['\n'])) = texts := by
  induction texts with
  | nil => rfl
  | cons line rest ih =>
    rw [List.flatMap_cons, List.append_assoc, List.singleton_append,
      splitLines_line (h line List.mem_cons_self), ih fun l hl => h l (List.mem_cons_of_mem _ hl)]

end Johnny.Source
