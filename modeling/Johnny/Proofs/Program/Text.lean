import Johnny.Command.Basic
import Johnny.Program
import Johnny.Proofs.Image.Lines
import Johnny.Proofs.Source.Lines
import Johnny.Proofs.Source.Tokens
import Mathlib.Data.List.Forall2

namespace Johnny

open Source

/-- A text that can stand in a line as one token. -/
structure Plain (text : String) : Prop where
  solid : Solid text.toList
  unbroken : Unbroken text.toList

instance (text : String) : Decidable (Plain text) :=
  decidable_of_iff (Solid text.toList ∧ Unbroken text.toList)
    ⟨fun h => ⟨h.1, h.2⟩, fun h => ⟨h.solid, h.unbroken⟩⟩

def operandLine (mnemonic operand : String) : String := mnemonic ++ " " ++ operand

/-- The line that says the same as an instruction given as data. Parts after the second one are
not in it. -/
inductive Says : List Datum → String → Prop where
  | bare {m : String} (hm : Plain m) : Says [.text m] m
  | full {m t : String} {part : Datum} (more : List Datum) (hm : Plain m) (ht : Plain t)
      (h : part.toText = .ok t) : Says (.text m :: part :: more) (operandLine m t)

theorem tokens_bare {m : String} (h : Plain m) : tokens m = [m] := by
  rw [tokens, splitTokens_solid h.solid, List.map_singleton, String.ofList_toList]

/-- Either text may be empty: a space divides the line all the same. -/
theorem tokens_operandLine {m t : String} (hm : Plain m) (ht : Plain t) :
    tokens (operandLine m t) = [m, t] := by
  have hline : (operandLine m t).toList = m.toList ++ [' '] ++ t.toList := by
    rw [operandLine, String.toList_append, String.toList_append]
    rfl
  have hfresh : Fresh t.toList := fun c hc => ht.solid c (List.mem_of_mem_head? hc)
  rw [tokens, hline, splitTokens_append hm.solid gap_space hfresh, splitTokens_solid ht.solid]
  simp

theorem Says.length_tokens_le {parts : List Datum} {line : String} (h : Says parts line) :
    (tokens line).length ≤ 2 := by
  cases h with
  | bare hm => simp [tokens_bare hm]
  | full more hm ht => simp [tokens_operandLine hm ht]

theorem Says.unbroken {parts : List Datum} {line : String} (h : Says parts line) :
    Unbroken line.toList := by
  cases h with
  | bare hm => exact hm.unbroken
  | @full m t part more hm ht =>
    intro c hc
    rw [operandLine, String.toList_append, String.toList_append, List.mem_append,
      List.mem_append] at hc
    rcases hc with (hc | hc) | hc
    · exact hm.unbroken c hc
    · obtain rfl : c = ' ' := by simpa using hc
      decide
    · exact ht.unbroken c hc

namespace Program

open Image

theorem encodeInstruction_of_says {parts : List Datum} {line : String} (h : Says parts line)
    (address : Nat) :
    encodeInstruction parts address = (lineWord line address).mapError .encode := by
  cases h with
  | bare hm =>
    rw [lineWord, encodeTokens, tokens_bare hm]
    rfl
  | @full m t part more hm ht htext =>
    rw [lineWord, encodeTokens, tokens_operandLine hm ht]
    simp only [encodeInstruction, List.head?_cons, htext]
    rfl

theorem encodeFrom_of_says {program : Program} {lines : List String}
    (h : List.Forall₂ Says program lines) (address : Nat) :
    encodeFrom address program = (encodeLines address lines).mapError .encode := by
  induction h generalizing address with
  | nil => rfl
  | cons hline hrest ih =>
    rw [encodeFrom, encodeLines, encodeInstruction_of_says hline, ih]
    cases lineWord _ address with
    | error e => rfl
    | ok word => cases encodeLines (address + 1) _ <;> rfl

theorem image_of_says {program : Program} {lines : List String}
    (hn : program.length ≤ memorySize) (h : List.Forall₂ Says program lines) :
    program.image = ((encodeLines 0 lines).map
      (· ++ List.replicate (memorySize - lines.length) 0)).mapError .encode := by
  rw [image, if_neg (Nat.not_lt.2 hn), encodeFrom_of_says h]
  cases hw : encodeLines 0 lines with
  | error e => rfl
  | ok words =>
    have hlen : words.length = lines.length := (encodeLines_eq_ok_iff.1 hw).1
    simp only [mapError_ok, Except.map, hlen]

theorem encodeInstruction_take (parts : List Datum) (address : Address) :
    encodeInstruction (parts.take 2) address = encodeInstruction parts address := by
  rcases parts with _ | ⟨m, _ | ⟨operand, more⟩⟩ <;> rfl

theorem encodeFrom_map_take (program : Program) (address : Nat) :
    encodeFrom address (program.map (·.take 2)) = encodeFrom address program := by
  induction program generalizing address with
  | nil => rfl
  | cons parts rest ih => rw [List.map_cons, encodeFrom, encodeFrom, encodeInstruction_take, ih]

theorem image_map_take (program : Program) : image (program.map (·.take 2)) = program.image := by
  rw [image, image, List.length_map, encodeFrom_map_take]

end Program

theorem lines_unlines {texts : List String} (h : ∀ line ∈ texts, Unbroken line.toList) :
    lines (Report.unlines texts) = texts := by
  have htext : (Report.unlines texts).toList =
      (texts.map String.toList).flatMap (· ++ ['\n']) := by
    rw [Report.unlines, String.toList_join, List.flatMap_map, List.flatMap_map]
    simp
  rw [lines, htext, splitLines_flatMap (by simpa using h), List.map_map]
  simp

end Johnny
