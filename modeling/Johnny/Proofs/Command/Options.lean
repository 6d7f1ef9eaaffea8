import Johnny.Command.Basic
import Mathlib.Data.List.Basic

namespace Johnny.Options

def Recognized (argument : String) : Prop :=
  ∃ spelling ∈ inputSpellings ++ outputSpellings, spelling.toList <+: argument.toList

instance : DecidablePred Recognized := fun argument =>
  inferInstanceAs (Decidable (∃ spelling ∈ inputSpellings ++ outputSpellings,
    spelling.toList <+: argument.toList))

def OfKind (spellings : List String) (argument : String) : Prop :=
  ∃ spelling ∈ spellings, spelling.toList <+: argument.toList

instance (spellings : List String) (argument : String) : Decidable (OfKind spellings argument) :=
  List.decidableBEx _ spellings

/-- The value of the last argument that gives one, among arguments of all kinds. -/
def lastValue (spellings : List String) (default : String) (arguments : List String) : String :=
  (arguments.filterMap (valueAfter? · spellings)).getLast?.getD default

variable {argument : String} {arguments spellings : List String} {o : Options}

theorem isPrefixOf?_eq_none_iff {front text : List Char} :
    front.isPrefixOf? text = none ↔ ¬ front <+: text := by
  rw [← List.isPrefixOf_iff_prefix, ← List.isSome_isPrefixOf?_eq_isPrefixOf, Bool.not_eq_true,
    Option.isSome_eq_false_iff, Option.isNone_iff_eq_none]

theorem valueAfter?_eq_none_iff :
    valueAfter? argument spellings = none ↔ ¬ OfKind spellings argument := by
  simp only [valueAfter?, List.findSome?_eq_none_iff, Option.map_eq_none_iff,
    isPrefixOf?_eq_none_iff, OfKind, not_exists, not_and]

theorem spellings_apart : ∀ i ∈ inputSpellings, ∀ j ∈ outputSpellings,
    ¬ i.toList <+: j.toList ∧ ¬ j.toList <+: i.toList := by
  decide

theorem valueAfter?_output_eq_none {path : String}
    (h : valueAfter? argument inputSpellings = some path) :
    valueAfter? argument outputSpellings = none := by
  have hsome : valueAfter? argument inputSpellings ≠ none := by simp [h]
  rw [ne_eq, valueAfter?_eq_none_iff, not_not] at hsome
  obtain ⟨i, hi, hia⟩ := hsome
  rw [valueAfter?_eq_none_iff]
  rintro ⟨j, hj, hja⟩
  obtain ⟨hij, hji⟩ := spellings_apart i hi j hj
  rcases List.prefix_or_prefix_of_prefix hia hja with h | h
  · exact hij h
  · exact hji h

theorem recognized_iff : Recognized argument ↔
    ¬ (valueAfter? argument inputSpellings = none ∧
      valueAfter? argument outputSpellings = none) := by
  rw [valueAfter?_eq_none_iff, valueAfter?_eq_none_iff, ← not_or, not_not]
  simp only [Recognized, OfKind, List.mem_append, or_and_right, exists_or]

theorem set?_of_recognized (h : Recognized argument) : o.set? argument =
    some ⟨(valueAfter? argument inputSpellings).getD o.input,
      (valueAfter? argument outputSpellings).getD o.output⟩ := by
  rw [recognized_iff] at h
  unfold set?
  cases hi : valueAfter? argument inputSpellings with
  | some path => simp [valueAfter?_output_eq_none hi]
  | none =>
    cases ho : valueAfter? argument outputSpellings with
    | some path => rfl
    | none => simp [hi, ho] at h

theorem set?_of_not_recognized (h : ¬ Recognized argument) : o.set? argument = none := by
  rw [recognized_iff, not_not] at h
  rw [set?, h.1, h.2]

theorem lastValue_cons (spellings : List String) (default : String) :
    lastValue spellings default (argument :: arguments) =
      lastValue spellings ((valueAfter? argument spellings).getD default) arguments := by
  rw [lastValue, lastValue, List.filterMap_cons]
  cases valueAfter? argument spellings with
  | none => rfl
  | some path => rw [List.getLast?_cons]; rfl

theorem setAll?_of_recognized (h : ∀ argument ∈ arguments, Recognized argument) :
    setAll? o arguments = some ⟨lastValue inputSpellings o.input arguments,
      lastValue outputSpellings o.output arguments⟩ := by
  induction arguments generalizing o with
  | nil => rfl
  | cons argument rest ih =>
    obtain ⟨hargument, hrest⟩ := List.forall_mem_cons.1 h
    rw [setAll?, set?_of_recognized hargument, lastValue_cons, lastValue_cons]
    exact ih hrest

theorem setAll?_of_not_recognized (hm : argument ∈ arguments) (h : ¬ Recognized argument) :
    setAll? o arguments = none := by
  induction arguments generalizing o with
  | nil => cases hm
  | cons first rest ih =>
    rw [setAll?]
    rcases List.mem_cons.1 hm with rfl | hrest
    · rw [set?_of_not_recognized h]
    · cases o.set? first with
      | none => rfl
      | some next => exact ih hrest

def selected (arguments : List String) : Options :=
  ⟨lastValue inputSpellings default.input arguments,
    lastValue outputSpellings default.output arguments⟩

theorem parse?_of_recognized (h : ∀ argument ∈ arguments, Recognized argument) :
    parse? arguments = some (selected arguments) :=
  setAll?_of_recognized h

theorem parse?_of_not_recognized (h : ∃ argument ∈ arguments, ¬ Recognized argument) :
    parse? arguments = none := by
  obtain ⟨argument, hm, h⟩ := h
  exact setAll?_of_not_recognized hm h

/-- No spelling starts with another one. -/
def Apart (spellings : List String) : Prop :=
  ∀ i ∈ spellings, ∀ j ∈ spellings, i.toList <+: j.toList → i = j

theorem apart_inputSpellings : Apart inputSpellings := by
  unfold Apart
  decide

theorem apart_outputSpellings : Apart outputSpellings := by
  unfold Apart
  decide

/-- The value that the last argument of a kind gives. It is all of the text behind the spelling,
and no argument after it is of the kind. -/
inductive LastGiven (spellings : List String) (default : String) (arguments : List String) :
    String → Prop
  | absent (h : ∀ argument ∈ arguments, ¬ OfKind spellings argument) :
      LastGiven spellings default arguments default
  | given (before : List String) (spelling value : String) (after : List String)
      (hs : spelling ∈ spellings) (h : arguments = before ++ (spelling ++ value) :: after)
      (hafter : ∀ argument ∈ after, ¬ OfKind spellings argument) :
      LastGiven spellings default arguments value

theorem ofKind_append {spelling : String} (hs : spelling ∈ spellings) (value : String) :
    OfKind spellings (spelling ++ value) := by
  refine ⟨spelling, hs, ?_⟩
  rw [String.toList_append]
  exact List.prefix_append _ _

theorem exists_of_valueAfter?_eq_some {value : String}
    (h : valueAfter? argument spellings = some value) :
    ∃ spelling ∈ spellings, argument = spelling ++ value := by
  obtain ⟨spelling, hs, hv⟩ := List.exists_of_findSome?_eq_some h
  obtain ⟨rest, hr, rfl⟩ := Option.map_eq_some_iff.1 hv
  refine ⟨spelling, hs, String.toList_inj.1 ?_⟩
  rw [String.toList_append, String.toList_ofList]
  exact (List.isPrefixOf?_eq_some_iff_append_eq.1 hr).symm

/-- Where no spelling starts with another one, an argument can be taken apart in one way only. -/
theorem valueAfter?_append (ha : Apart spellings) {spelling : String} (hs : spelling ∈ spellings)
    (value : String) : valueAfter? (spelling ++ value) spellings = some value := by
  cases h : valueAfter? (spelling ++ value) spellings with
  | none => exact absurd (ofKind_append hs value) (valueAfter?_eq_none_iff.1 h)
  | some other =>
    obtain ⟨found, hf, he⟩ := exists_of_valueAfter?_eq_some h
    have htext := congrArg String.toList he
    rw [String.toList_append, String.toList_append] at htext
    have hfound : found = spelling := by
      rcases List.append_eq_append_iff.1 htext with ⟨more, hm, -⟩ | ⟨more, hm, -⟩
      · exact (ha spelling hs found hf ⟨more, hm.symm⟩).symm
      · exact ha found hf spelling hs ⟨more, hm.symm⟩
    rw [hfound, List.append_cancel_left_eq] at htext
    rw [String.toList_inj.1 htext]

theorem LastGiven.cons {default value : String}
    (h : LastGiven spellings ((valueAfter? argument spellings).getD default) arguments value) :
    LastGiven spellings default (argument :: arguments) value := by
  cases h with
  | given before spelling value after hs h hafter =>
    exact .given (argument :: before) spelling value after hs (congrArg (argument :: ·) h) hafter
  | absent hrest =>
    cases hv : valueAfter? argument spellings with
    | none => exact .absent (List.forall_mem_cons.2 ⟨valueAfter?_eq_none_iff.1 hv, hrest⟩)
    | some value =>
      obtain ⟨spelling, hs, rfl⟩ := exists_of_valueAfter?_eq_some hv
      exact .given [] spelling value arguments hs rfl hrest

theorem lastGiven_lastValue (spellings : List String) (default : String)
    (arguments : List String) :
    LastGiven spellings default arguments (lastValue spellings default arguments) := by
  induction arguments generalizing default with
  | nil => exact .absent fun _ h => absurd h List.not_mem_nil
  | cons argument rest ih =>
    rw [lastValue_cons]
    exact (ih _).cons

theorem LastGiven.eq_lastValue (ha : Apart spellings) {default value : String}
    (h : LastGiven spellings default arguments value) :
    value = lastValue spellings default arguments := by
  cases h with
  | absent h =>
    have hnone : arguments.filterMap (valueAfter? · spellings) = [] :=
      List.filterMap_eq_nil_iff.2 fun a hm => valueAfter?_eq_none_iff.2 (h a hm)
    rw [lastValue, hnone]
    rfl
  | given before spelling value after hs h hafter =>
    have hnone : after.filterMap (valueAfter? · spellings) = [] :=
      List.filterMap_eq_nil_iff.2 fun a hm => valueAfter?_eq_none_iff.2 (hafter a hm)
    rw [lastValue, h, List.filterMap_append, List.filterMap_cons, valueAfter?_append ha hs, hnone]
    simp

theorem lastGiven_iff (ha : Apart spellings) {default value : String} :
    LastGiven spellings default arguments value ↔
      value = lastValue spellings default arguments :=
  ⟨LastGiven.eq_lastValue ha, fun h => h ▸ lastGiven_lastValue spellings default arguments⟩

theorem lastValue_filter (spellings : List String) (default : String) (arguments : List String) :
    lastValue spellings default (arguments.filter (OfKind spellings ·)) =
      lastValue spellings default arguments := by
  have h : (arguments.filter (OfKind spellings ·)).filterMap (valueAfter? · spellings) =
      arguments.filterMap (valueAfter? · spellings) := by
    rw [List.filterMap_filter]
    apply List.filterMap_congr
    intro argument _
    simp only [decide_eq_true_eq]
    split_ifs with hk
    · rfl
    · exact (valueAfter?_eq_none_iff.2 hk).symm
  rw [lastValue, h, lastValue]

theorem parse?_eq_none_iff :
    parse? arguments = none ↔ ∃ argument ∈ arguments, ¬ Recognized argument := by
  refine ⟨fun h => ?_, parse?_of_not_recognized⟩
  by_contra hno
  rw [parse?_of_recognized (by simpa using hno)] at h
  cases h

theorem parse?_eq_some_iff : parse? arguments = some o ↔
    (∀ argument ∈ arguments, Recognized argument) ∧ o = selected arguments := by
  constructor
  · intro h
    have hall : ∀ argument ∈ arguments, Recognized argument := by
      by_contra hno
      rw [parse?_of_not_recognized (by simpa using hno)] at h
      cases h
    rw [parse?_of_recognized hall] at h
    exact ⟨hall, (Option.some.inj h).symm⟩
  · rintro ⟨hall, rfl⟩
    exact parse?_of_recognized hall

theorem eq_selected_iff : o = selected arguments ↔
    LastGiven inputSpellings default.input arguments o.input ∧
      LastGiven outputSpellings default.output arguments o.output := by
  obtain ⟨input, output⟩ := o
  rw [lastGiven_iff apart_inputSpellings, lastGiven_iff apart_outputSpellings, selected,
    Options.mk.injEq]

/-- A command line is refused if one argument of it is no option, wherever it stands. Otherwise
each option has the value of the last argument of its kind, or its default where there is none, and
the arguments of the other kind make no difference to it. -/
theorem parse?_last_given (arguments : List String) :
    (parse? arguments = none ↔ ∃ argument ∈ arguments, ¬ Recognized argument) ∧
    (∀ o, parse? arguments = some o ↔ (∀ argument ∈ arguments, Recognized argument) ∧
      LastGiven inputSpellings "program.jasm" arguments o.input ∧
      LastGiven outputSpellings "output.ram" arguments o.output) ∧
    ∀ (others : List String) (o p : Options),
      parse? arguments = some o → parse? others = some p →
      (arguments.filter (OfKind inputSpellings ·) = others.filter (OfKind inputSpellings ·) →
        o.input = p.input) ∧
      (arguments.filter (OfKind outputSpellings ·) = others.filter (OfKind outputSpellings ·) →
        o.output = p.output) := by
  refine ⟨parse?_eq_none_iff, fun o => ?_, fun others o p ho hp => ?_⟩
  · rw [parse?_eq_some_iff, eq_selected_iff]
    rfl
  · obtain ⟨-, rfl⟩ := parse?_eq_some_iff.1 ho
    obtain ⟨-, rfl⟩ := parse?_eq_some_iff.1 hp
    refine ⟨fun h => ?_, fun h => ?_⟩
    · rw [selected, selected, ← lastValue_filter, h, lastValue_filter]
    · rw [selected, selected, ← lastValue_filter outputSpellings, h, lastValue_filter]

/-- A value may be empty, and may look like another option. -/
example : parse? ["-o:a", "--input:b", "--outputFile:-i:c=\"d e\"", "-i:"] =
    some ⟨"", "-i:c=\"d e\""⟩ := by
  decide

end Johnny.Options
