import Johnny.Proofs.Loader.Outcome
import Johnny.Proofs.Program.Text

namespace Johnny.Loader

open Assembler Image Source

variable {program : Program} {lines : List String}

theorem exists_says_of_mem (h : List.Forall₂ Says program lines) {line : String}
    (hline : line ∈ lines) : ∃ parts, Says parts line := by
  induction h with
  | nil => cases hline
  | cons hs hrest ih =>
    rcases List.mem_cons.1 hline with rfl | hm
    · exact ⟨_, hs⟩
    · exact ih hm

theorem lines_of_says (h : List.Forall₂ Says program lines) :
    Source.lines (Report.unlines lines) = lines := by
  apply lines_unlines
  intro line hline
  obtain ⟨parts, hs⟩ := exists_says_of_mem h hline
  exact hs.unbroken

theorem sourceImage_of_says (hn : program.length ≤ memorySize)
    (h : List.Forall₂ Says program lines) :
    sourceImage (Report.unlines lines) =
      (encodeLines 0 lines).map (· ++ List.replicate (memorySize - lines.length) 0) := by
  have hlen : lines.length ≤ memorySize := h.length_eq ▸ hn
  rw [sourceImage_eq, lines_of_says h, List.take_of_length_le hlen]

theorem sourceWarnings_of_says (h : List.Forall₂ Says program lines) :
    sourceWarnings (Report.unlines lines) = [] := by
  rw [sourceWarnings, lines_of_says h, surplusAddresses, List.map_eq_nil_iff,
    List.filter_eq_nil_iff]
  intro i _ hi
  obtain ⟨line, hl, hsurplus⟩ := (Option.any_eq_true _ _).1 hi
  obtain ⟨parts, hs⟩ := exists_says_of_mem h (List.mem_of_getElem? hl)
  have := hs.length_tokens_le
  have := of_decide_eq_true hsurplus
  omega

theorem create_eq_ok_iff {image : Image} : create program = .ok image ↔ program.image = .ok image :=
  mapError_eq_ok_iff

theorem create_eq_encode_iff {e : EncodeError} :
    create program = .error (.program (.encode e)) ↔ program.image = .error (.encode e) := by
  simp [create, mapError_eq_error_iff]

theorem create_of_take_eq {other : Program}
    (h : other.map (·.take 2) = program.map (·.take 2)) : create other = create program := by
  rw [create, create, ← Program.image_map_take other, h, Program.image_map_take]

/-- Giving instructions as data and assembling their lines come to the same image, and fail with
the same message or at the same limit. Parts of an instruction after the second one do not count,
and the lines give no warnings. -/
theorem create_agrees_with_assemble (l : Loader) (hn : program.length ≤ memorySize)
    (h : List.Forall₂ Says program lines) :
    (∀ image, create program = .ok image ↔
      (l.assemble (Report.unlines lines)).2 = .ok image) ∧
    (∀ message,
      (∃ f : Fault, create program = .error (.program (.encode (.fault f))) ∧
        f.message = message) ↔
      ∃ errors, (l.assemble (Report.unlines lines)).2 = .error (.assembly errors) ∧
        (Error.assembly errors).message = "Assembly failed:\n" ++ message) ∧
    (∀ limit, create program = .error (.program (.encode (.digits limit))) ↔
      (l.assemble (Report.unlines lines)).2 = .error (.digits limit)) ∧
    (∀ other : Program, other.map (·.take 2) = program.map (·.take 2) →
      create other = create program) ∧
    ∃ a, (l.assemble (Report.unlines lines)).1.assembler = some a ∧ a.warnings = [] := by
  have himage : program.image = (sourceImage (Report.unlines lines)).mapError .encode := by
    rw [Program.image_of_says hn h, sourceImage_of_says hn h]
  have herror (e : EncodeError) : create program = .error (.program (.encode e)) ↔
      sourceImage (Report.unlines lines) = .error e := by
    rw [create_eq_encode_iff, himage]
    simp [mapError_eq_error_iff]
  rw [assemble_eq, sourceWarnings_of_says h]
  refine ⟨fun image => ?_, fun message => ?_, fun limit => ?_, fun other => create_of_take_eq,
    left_assembler_warnings l []⟩
  · rw [create_eq_ok_iff, left_eq_ok_iff, himage, mapError_eq_ok_iff]
  · simp only [herror, left_eq_assembly_iff]
    constructor
    · rintro ⟨f, hf, rfl⟩
      exact ⟨_, ⟨f, hf, rfl⟩, assembly_message f.message⟩
    · rintro ⟨_, ⟨f, hf, rfl⟩, hm⟩
      rw [assembly_message, String.append_right_inj] at hm
      exact ⟨f, hf, hm⟩
  · rw [herror, left_eq_digits_iff]

/-- Of two instructions with unknown mnemonics the first one fails, in both forms. -/
theorem create_agrees_with_assemble_unknown :
    let program : Program := [[.text "TAKE", .number (-5), .flag true], [.text "", .text "x"],
      [.text "HLT"], [.text "FOO", .nothing], [.text "BAR"]]
    let lines := ["TAKE -5", " x", "HLT", "FOO None", "BAR"]
    program.length ≤ memorySize ∧ List.Forall₂ Says program lines ∧
      create program = .error (.program (.encode (.fault (.unknownOpcode "FOO" 3)))) ∧
      ∃ errors, (fresh.assemble (Report.unlines lines)).2 = .error (.assembly errors) ∧
        (Error.assembly errors).message =
          "Assembly failed:\nOpcode \"FOO\" in line 3 is unknown. Terminating." := by
  intro program lines
  have hn : program.length ≤ memorySize := by decide
  have htext : Datum.toText (.number (-5)) = .ok "-5" := by decide +kernel
  have h : List.Forall₂ Says program lines :=
    .cons (.full (m := "TAKE") (t := "-5") _ (by decide) (by decide) htext) <|
    .cons (.full (m := "") (t := "x") _ (by decide) (by decide) rfl) <|
    .cons (.bare (by decide)) <|
    .cons (.full (m := "FOO") (t := "None") _ (by decide) (by decide) rfl) <|
    .cons (.bare (by decide)) .nil
  have hc : create program = .error (.program (.encode (.fault (.unknownOpcode "FOO" 3)))) := by
    decide +kernel
  exact ⟨hn, h, hc, ((create_agrees_with_assemble fresh hn h).2.1 _).1 ⟨_, hc, rfl⟩⟩

end Johnny.Loader
