import Johnny.Proofs.Assembler.Outcome
import Johnny.Proofs.Image.Words

namespace Johnny.Assembler

open Image Numeral Source

/-- The lines of the language, character by character, with the words they stand for. -/
inductive Denotes : List Char → Word → Prop where
  | empty : Denotes [] 0
  | indented (c : Char) (rest : List Char) (hc : c = ' ' ∨ c = '\t') : Denotes (c :: rest) 0
  | bare (op : Opcode) : Denotes op.mnemonic.toList op.base
  | full (op : Opcode) (gap : List Char) (s : Spelling) (rest : List Char) (hg : Gap gap)
      (hs : s.digits.length ≤ 4300) (hr : ∀ c ∈ rest.head?, c = ' ' ∨ c = '\t') :
      Denotes (op.mnemonic.toList ++ gap ++ s.text ++ rest) (op.base + s.value)

theorem solid_text (s : Spelling) : Solid s.text := forall_mem_text (by decide) (by decide) s

theorem denotes_of_lineWord {line : String} {address : Nat} {word : Word}
    (h : lineWord line address = .ok word) : Denotes line.toList word := by
  by_cases hf : firstToken line.toList = []
  · rw [lineWord_of_indented address hf] at h
    obtain rfl := Except.ok.inj h
    rcases firstToken_eq_nil_iff.1 hf with hl | ⟨c, rest, hl, hc⟩
    · rw [hl]; exact .empty
    · rw [hl]; exact .indented c rest hc
  by_cases hm : ∃ op : Opcode, firstToken line.toList = op.mnemonic.toList
  · obtain ⟨op, hop⟩ := hm
    -- Without a separator the line is its mnemonic; otherwise there is an operand to read.
    rcases line_cases line.toList with hs | ⟨gap, hg, hl⟩
    · rw [firstToken_solid hs] at hop
      rw [lineWord_of_bare address hop] at h
      obtain rfl := Except.ok.inj h
      rw [hop]
      exact .bare op
    · have hs : ¬ Solid line.toList := hl ▸ hg.not_solid
      rw [lineWord_of_operand address hop hs] at h
      obtain ⟨v, hv, rfl⟩ := map_eq_ok_iff.1 h
      obtain ⟨s, ht, hd, rfl⟩ := readOperand_eq_ok_iff.1 hv
      rw [String.toList_ofList] at ht
      have ha : s.text ++ (afterGap line.toList).dropWhile (!isSeparator ·) =
          afterGap line.toList := by
        rw [← ht]
        exact List.takeWhile_append_dropWhile
      rw [hl, hop, ← ha, ← List.append_assoc]
      exact .full op gap s _ hg hd (head_rest_isSeparator _)
  · rw [lineWord_of_unknown address hf fun op he => hm ⟨op, he⟩] at h
    cases h

theorem lineWord_of_denotes {line : String} {word : Word} (address : Nat)
    (h : Denotes line.toList word) : lineWord line address = .ok word := by
  generalize hl : line.toList = cs at h
  cases h with
  | empty => exact lineWord_of_indented address (firstToken_eq_nil_iff.2 (.inl hl))
  | indented c rest hc =>
    exact lineWord_of_indented address (firstToken_eq_nil_iff.2 (.inr ⟨c, rest, hl, hc⟩))
  | bare op => exact lineWord_of_bare address hl
  | full op gap s rest hg hd hr =>
    rw [List.append_assoc _ s.text] at hl
    have hfresh : Fresh (s.text ++ rest) := (solid_text s).fresh (text_ne_nil s)
    have hfirst : firstToken line.toList = op.mnemonic.toList := by
      rw [hl, List.append_assoc]
      exact firstToken_append op.solid_mnemonic hg.head
    have hsecond : secondToken line.toList = s.text := by
      rw [hl, secondToken, afterGap_append op.solid_mnemonic hg hfresh]
      exact firstToken_append (solid_text s) fun c hc => isSeparator_iff.2 (hr c hc)
    rw [lineWord_of_operand address hfirst (hl ▸ hg.not_solid), hsecond,
      readOperand_eq_ok_iff.2 ⟨s, String.toList_ofList, hd, rfl⟩]
    rfl

theorem lineWord_eq_ok_iff {line : String} {address : Nat} {word : Word} :
    lineWord line address = .ok word ↔ Denotes line.toList word :=
  ⟨denotes_of_lineWord, lineWord_of_denotes address⟩

theorem lineWord_unknown_of_not_denotes {line : String} (address : Nat)
    (h : ∀ word, ¬ Denotes line.toList word)
    (hop : ∀ op : Opcode, firstToken line.toList ≠ op.mnemonic.toList) :
    lineWord line address =
      .error (.fault (.unknownOpcode (String.ofList (firstToken line.toList)) address)) := by
  apply lineWord_of_unknown address _ hop
  intro hf
  exact h 0 (denotes_of_lineWord (lineWord_of_indented address hf))

theorem lineWord_operand_of_not_denotes {line : String} (address : Nat) {op : Opcode}
    (h : ∀ word, ¬ Denotes line.toList word)
    (hop : firstToken line.toList = op.mnemonic.toList) :
    lineWord line address =
      (readOperand (String.ofList (secondToken line.toList)) address).map (op.base + ·) := by
  apply lineWord_of_operand address hop
  intro hs
  rw [firstToken_solid hs] at hop
  exact h op.base (denotes_of_lineWord (lineWord_of_bare address hop))

/-- The warnings at addresses below a bound: one for each line that holds at least two maximal
runs of separators. -/
def runWarnings (lines : List String) (bound : Nat) : List String :=
  ((List.range bound).filter fun i =>
    lines[i]?.any fun line => 2 ≤ (separatorRuns line.toList).length).map surplusWarning

theorem map_surplusAddresses (lines : List String) (bound : Nat) :
    (surplusAddresses lines bound).map surplusWarning = runWarnings lines bound := by
  simp only [surplusAddresses, runWarnings, tokens, List.length_map, length_splitTokens,
    Nat.lt_add_one_iff]

theorem firstFailure_of_denotes {lines : List String} {k : Nat} {line : String}
    {e : EncodeError} (hl : lines[k]? = some line) (he : lineWord line k = .error e)
    (hb : ∀ i < k, ∀ earlier, lines[i]? = some earlier → ∃ word, Denotes earlier.toList word) :
    FirstFailure 0 lines k e := by
  refine ⟨⟨line, hl, by rwa [Nat.zero_add]⟩, fun i hi => ?_⟩
  have hk := (List.getElem?_eq_some_iff.1 hl).1
  have hi' : lines[i]? = some lines[i] := List.getElem?_eq_getElem (by omega)
  obtain ⟨word, hw⟩ := hb i hi _ hi'
  exact ⟨_, word, hi', lineWord_of_denotes _ hw⟩

theorem assemble_eq_true_iff_denotes (a : Assembler) (source : String) :
    (a.assemble source).2 = .ok true ↔ ∀ i < memorySize, ∀ line,
      (lines source)[i]? = some line → ∃ word, Denotes line.toList word := by
  rw [assemble_eq_true_iff]
  refine ⟨fun ⟨words, hw⟩ i hi line hl => ?_, fun h => ?_⟩
  · obtain ⟨word, -, hlw⟩ := (imageOf_of_encodeLines hw).word i hi line hl
    exact ⟨word, denotes_of_lineWord hlw⟩
  · rcases encodeLines_take_cases 0 memorySize (lines source) with hw | ⟨k, hk, e, hf⟩
    · exact hw
    · obtain ⟨line, hl, he⟩ := hf.fails
      obtain ⟨word, hd⟩ := h k hk line hl
      rw [lineWord_of_denotes _ hd] at he
      cases he

/-- The sources that assemble are those whose lines in memory all belong to the language. Then
each address holds the word of its line; else the first line outside of the language ends the
run, by its first token if that is no mnemonic, and by its second token otherwise. -/
theorem assemble_iff_denotes (a : Assembler) (source : String) :
    ((a.assemble source).2 = .ok true ↔ ∀ i < memorySize, ∀ line,
      (lines source)[i]? = some line → ∃ word, Denotes line.toList word) ∧
    ((a.assemble source).2 = .ok true →
      (a.assemble source).1.image.length = memorySize ∧
      (∀ i < memorySize, ∀ line, (lines source)[i]? = some line → ∀ word,
        (a.assemble source).1.image[i]? = some word ↔ Denotes line.toList word) ∧
      (∀ i < memorySize, (lines source)[i]? = none →
        (a.assemble source).1.image[i]? = some 0) ∧
      (a.assemble source).1.warnings =
        runWarnings (lines source) (min (lines source).length memorySize)) ∧
    ∀ k < memorySize, ∀ line, (lines source)[k]? = some line →
      (∀ word, ¬ Denotes line.toList word) →
      (∀ i < k, ∀ earlier, (lines source)[i]? = some earlier →
        ∃ word, Denotes earlier.toList word) →
      ((∀ op : Opcode, firstToken line.toList ≠ op.mnemonic.toList) →
        a.assemble source = left (runWarnings (lines source) (k + 1))
          (.error (.fault (.unknownOpcode (String.ofList (firstToken line.toList)) k)))) ∧
      ∀ op : Opcode, firstToken line.toList = op.mnemonic.toList →
        ((∀ s : Spelling, secondToken line.toList ≠ s.text) →
          a.assemble source = left (runWarnings (lines source) (k + 1))
            (.error (.fault (.invalidOperand (String.ofList (secondToken line.toList)) k)))) ∧
        ∀ s : Spelling, secondToken line.toList = s.text → 4300 < s.digits.length ∧
          a.assemble source = left (runWarnings (lines source) (k + 1))
            (.error (.digits (.reading s.digits.length))) := by
  refine ⟨assemble_eq_true_iff_denotes a source, fun h => ?_, ?_⟩
  · obtain ⟨words, hw⟩ := (assemble_eq_true_iff a).1 h
    have hi := imageOf_of_encodeLines hw
    rw [assemble_of_encodeLines a hw, map_surplusAddresses]
    refine ⟨hi.size, fun i him line hl word => ?_, hi.zero, rfl⟩
    obtain ⟨w, hiw, hlw⟩ := hi.word i him line hl
    rw [← @lineWord_eq_ok_iff line i, hlw, left, hiw, Option.some_inj, Except.ok.injEq]
  · intro k hk line hl hd hb
    have hfail {e : EncodeError} (he : lineWord line k = .error e) :
        a.assemble source = left (runWarnings (lines source) (k + 1)) (.error e) := by
      rw [assemble_of_firstFailure a hk (firstFailure_of_denotes hl he hb), map_surplusAddresses]
    refine ⟨fun hop => hfail (lineWord_unknown_of_not_denotes k hd hop), fun op hop => ?_⟩
    have hw := lineWord_operand_of_not_denotes k hd hop
    refine ⟨fun hs => hfail ?_, fun s hs => ?_⟩
    · rw [hw, readOperand_invalid (by simpa using hs)]
      rfl
    · have hlong : ¬ s.digits.length ≤ maxDigits := by
        intro hle
        rw [readOperand_eq_ok_iff.2 ⟨s, by rw [String.toList_ofList, hs], hle, rfl⟩] at hw
        exact hd _ (denotes_of_lineWord hw)
      refine ⟨Nat.lt_of_not_le hlong, hfail ?_⟩
      rw [hw, readOperand_spelling (by rw [String.toList_ofList, hs]), if_neg hlong]
      rfl

end Johnny.Assembler
