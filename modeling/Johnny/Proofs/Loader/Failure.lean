import Johnny.Proofs.Image.Fault
import Johnny.Proofs.Loader.Outcome

namespace Johnny.Loader

open Assembler Image Source

/-- A run of a loader ends by a fault: its assembler keeps that fault, which is the one of the first
line in memory that cannot be encoded. -/
structure FailsBy (l : Loader) (source : String) (f : Fault) : Prop where
  kept : ∃ a, (l.assemble source).1.assembler = some a ∧ a.failure = some f
  first : ∃ k < memorySize, FirstFailure 0 (lines source) k (.fault f) ∧
    ∃ line, (lines source)[k]? = some line ∧ FaultOf line k f
  written : writeDecimal f.address = .ok (decimal f.address)

variable {l : Loader} {source : String} {errors : List String} {f g : Fault}

theorem FailsBy.unique (hf : FailsBy l source f) (hg : FailsBy l source g) : f = g := by
  obtain ⟨a, ha, hfailure⟩ := hf.kept
  obtain ⟨b, hb, hother⟩ := hg.kept
  obtain rfl := Option.some.inj (ha.symm.trans hb)
  exact Option.some.inj (hfailure.symm.trans hother)

theorem exists_failsBy (h : (l.assemble source).2 = .error (.assembly errors)) :
    ∃ f, FailsBy l source f ∧ errors = [f.message] := by
  rw [assemble_eq, left_eq_assembly_iff] at h
  obtain ⟨f, hf, rfl⟩ := h
  obtain ⟨k, hk, hfirst⟩ := sourceImage_eq_error_iff.1 hf
  obtain ⟨line, hl, hfault⟩ := hfirst.exists_faultOf
  refine ⟨f, ⟨?_, ⟨k, hk, hfirst, line, hl, hfault⟩, hfault.writeDecimal_address hk⟩, rfl⟩
  rw [assemble_eq, hf]
  exact ⟨_, rfl, rfl⟩

theorem assembly_message_inj :
    (Error.assembly [f.message]).message = (Error.assembly [g.message]).message ↔ f = g := by
  rw [assembly_message, assembly_message, String.append_right_inj, Fault.message_injective.eq_iff]

/-- A message tells the kind of a fault, its token and its address, whatever the token holds. Two
runs of loaders that end with errors therefore show the same text if and only if they end by the
same fault, and each of them has it from its first line that cannot be encoded. -/
theorem message_identifies_failure :
    Function.Injective Fault.message ∧
    ∀ (l m : Loader) (source other : String) (errors others : List String),
      (l.assemble source).2 = .error (.assembly errors) →
      (m.assemble other).2 = .error (.assembly others) →
      ((Error.assembly errors).message = (Error.assembly others).message ↔
        ∃ f, FailsBy l source f ∧ FailsBy m other f) := by
  refine ⟨Fault.message_injective, fun l m source other errors others hs ho => ?_⟩
  obtain ⟨f, hf, rfl⟩ := exists_failsBy hs
  obtain ⟨g, hg, rfl⟩ := exists_failsBy ho
  rw [assembly_message_inj]
  constructor
  · rintro rfl
    exact ⟨f, hf, hg⟩
  · intro ⟨fault, hsource, hother⟩
    rw [hf.unique hsource, hg.unique hother]

/-- Two sources fail alike for a token that ends in a quotation mark, and a token that holds the
rest of a message is told from it. -/
theorem message_identifies_failure_quotes :
    let source := "HLT\r\nFOO\" 1 2"
    let other := "\tx\nFOO\"\tHLT\nBAR"
    let used := (fresh.assemble "DATA 1 2").1
    let errors := ["Opcode \"FOO\"\" in line 1 is unknown. Terminating."]
    (fresh.assemble source).2 = .error (.assembly errors) ∧
      (used.assemble other).2 = .error (.assembly errors) ∧
      (∃ f, FailsBy fresh source f ∧ FailsBy used other f) ∧
      ∀ f : Fault, f.message = "Invalid parameter \"1\" in line 2. Terminating.\" in line 3. " ++
        "Terminating." → f = .invalidOperand "1\" in line 2. Terminating." 3 := by
  intro source other used errors
  have hs : (fresh.assemble source).2 = .error (.assembly errors) := by decide +kernel
  have ho : (used.assemble other).2 = .error (.assembly errors) := by decide +kernel
  obtain ⟨hinjective, hruns⟩ := message_identifies_failure
  refine ⟨hs, ho, (hruns _ _ _ _ _ _ hs ho).1 rfl, fun f hf => ?_⟩
  apply hinjective
  rw [hf]
  decide

end Johnny.Loader
