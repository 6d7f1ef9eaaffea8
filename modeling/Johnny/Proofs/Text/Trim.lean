import Johnny.Text.Basic
import Mathlib.Data.List.DropRight

namespace Johnny.Text

/-- A text is its core with characters of a class before and behind it, and no such character is at
either end of the core. -/
structure Trimmed (drop : Char → Bool) (text core : List Char) : Prop where
  around : ∃ front back, text = front ++ core ++ back ∧
    (∀ c ∈ front, drop c = true) ∧ ∀ c ∈ back, drop c = true
  head : ∀ c ∈ core.head?, drop c = false
  last : ∀ c ∈ core.getLast?, drop c = false

variable {drop : Char → Bool} {text core : List Char}

theorem dropWhile_append {front rest : List Char} (hf : ∀ c ∈ front, drop c = true)
    (hr : ∀ c ∈ rest.head?, drop c = false) : (front ++ rest).dropWhile drop = rest := by
  rw [List.dropWhile_append_of_pos hf]
  cases rest with
  | nil => rfl
  | cons c cs => rw [List.dropWhile_cons, hr c rfl]; rfl

theorem drop_head?_dropWhile (drop : Char → Bool) (text : List Char) :
    ∀ c ∈ (text.dropWhile drop).head?, drop c = false := by
  intro c hc
  have h := List.head?_dropWhile_not drop text
  rw [Option.mem_def] at hc
  simpa [hc] using h

theorem trimmed_trim (drop : Char → Bool) (text : List Char) :
    Trimmed drop text (trim drop text) := by
  let rest := text.dropWhile drop
  have hrest : trim drop text ++ rest.rtakeWhile drop = rest := by
    change rest.rdropWhile drop ++ rest.rtakeWhile drop = rest
    rw [List.rdropWhile, List.rtakeWhile, ← List.reverse_append, List.takeWhile_append_dropWhile,
      List.reverse_reverse]
  refine ⟨⟨text.takeWhile drop, rest.rtakeWhile drop, ?_, ?_, ?_⟩, ?_, ?_⟩
  · rw [List.append_assoc, hrest, List.takeWhile_append_dropWhile]
  · exact fun c hc => List.mem_takeWhile_imp hc
  · exact fun c hc => List.mem_rtakeWhile_imp hc
  · intro c hc
    -- What is taken off behind leaves the first character where it is.
    apply drop_head?_dropWhile drop text c
    change c ∈ rest.head?
    rw [← hrest, List.head?_append, hc]
    rfl
  · intro c hc
    rw [trim, List.getLast?_reverse] at hc
    exact drop_head?_dropWhile drop _ c hc

theorem Trimmed.trim_eq (h : Trimmed drop text core) : trim drop text = core := by
  obtain ⟨⟨front, back, rfl, hf, hb⟩, hhead, hlast⟩ := h
  rw [trim, List.append_assoc]
  cases core with
  | nil =>
    have hall : ∀ c ∈ front ++ back, drop c = true := by
      simpa only [List.forall_mem_append] using ⟨hf, hb⟩
    rw [List.nil_append, List.dropWhile_eq_nil_iff.2 hall]
    rfl
  | cons c cs =>
    have hback : ∀ d ∈ back.reverse, drop d = true := by simpa using hb
    have hcore : ∀ d ∈ (c :: cs).reverse.head?, drop d = false := by
      rwa [List.head?_reverse]
    rw [dropWhile_append hf (by simpa using hhead), List.reverse_append,
      dropWhile_append hback hcore, List.reverse_reverse]

theorem trim_eq_iff : trim drop text = core ↔ Trimmed drop text core :=
  ⟨fun h => h ▸ trimmed_trim drop text, Trimmed.trim_eq⟩

instance (drop : Char → Bool) (text core : List Char) : Decidable (Trimmed drop text core) :=
  decidable_of_iff _ trim_eq_iff

theorem trim_eq_self (h : ∀ c ∈ text, drop c = false) : trim drop text = text := by
  apply Trimmed.trim_eq
  refine ⟨⟨[], [], by simp, nofun, nofun⟩, ?_, ?_⟩
  · exact fun c hc => h c (List.mem_of_mem_head? hc)
  · exact fun c hc => h c (List.mem_of_mem_getLast? hc)

end Johnny.Text
