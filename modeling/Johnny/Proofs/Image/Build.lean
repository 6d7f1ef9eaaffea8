import Johnny.Proofs.Image.Lines
import Mathlib.Data.List.Basic

namespace Johnny.Image

variable {σ : Type}

/-- The addresses below a bound at which lines have more than two tokens, in increasing order. -/
def surplusAddresses (lines : List String) (bound : Nat) : List Nat :=
  (List.range bound).filter fun i => lines[i]?.any fun line => 2 < (Source.tokens line).length

theorem lt_of_mem_surplusAddresses {lines : List String} {bound i : Nat}
    (h : i ∈ surplusAddresses lines bound) : i < bound :=
  List.mem_range.1 (List.mem_of_mem_filter h)

def reportAll (note : Sink σ) (addresses : List Nat) (record : σ) : σ :=
  addresses.foldl (fun r (a : Nat) => note a surplusMessage r) record

theorem reportAll_nil (note : Sink σ) (record : σ) : reportAll note [] record = record := rfl

theorem reportAll_cons (note : Sink σ) (address : Nat) (rest : List Nat) (record : σ) :
    reportAll note (address :: rest) record =
      reportAll note rest (note address surplusMessage record) := rfl

theorem hasSurplus_parse (line : String) (address : Address) :
    (Instruction.parse line address).hasSurplus = decide (2 < (Source.tokens line).length) := by
  unfold Instruction.parse Instruction.ofTokens Instruction.hasSurplus
  rcases Source.tokens line with _ | ⟨a, _ | ⟨b, _ | ⟨c, rest⟩⟩⟩ <;> simp

@[simp] theorem parse_address (line : String) (address : Address) :
    (Instruction.parse line address).address = address := by
  unfold Instruction.parse Instruction.ofTokens
  split <;> rfl

theorem surplusAddresses_cons (line : String) (rest : List String) (bound : Nat) :
    surplusAddresses (line :: rest) (bound + 1) =
      (if 2 < (Source.tokens line).length then [0] else []) ++
        (surplusAddresses rest bound).map (· + 1) := by
  simp only [surplusAddresses, List.range_succ_eq_map, List.filter_cons, List.filter_map]
  split_ifs <;> simp_all [Function.comp_def]

theorem surplusAddresses_append_left {front : List String} (back : List String) {bound : Nat}
    (h : bound ≤ front.length) :
    surplusAddresses (front ++ back) bound = surplusAddresses front bound := by
  apply List.filter_congr
  intro i hi
  rw [List.getElem?_append_left (by have := List.mem_range.1 hi; omega)]

theorem surplusAddresses_append (front back : List String) (bound : Nat) :
    surplusAddresses (front ++ back) (front.length + bound) =
      surplusAddresses front front.length ++
        (surplusAddresses back bound).map (front.length + ·) := by
  rw [← surplusAddresses_append_left back (Nat.le_refl _)]
  simp only [surplusAddresses, List.range_add, List.filter_append, List.filter_map]
  -- The addresses below the length agree by now; those from it on look into the second list.
  congr 2
  apply List.filter_congr
  intro i _
  simp [List.getElem?_append_right]

theorem reportAll_surplusAddresses_cons (note : Sink σ) (line : String) (rest : List String)
    (address bound : Nat) (record : σ) :
    reportAll note ((surplusAddresses (line :: rest) (bound + 1)).map (address + ·)) record =
      reportAll note ((surplusAddresses rest bound).map (address + 1 + ·))
        (report (some note) (Instruction.parse line address) record) := by
  have ha : (address + ·) ∘ (· + 1) = (address + 1 + ·) := by funext i; simp; omega
  rw [surplusAddresses_cons, List.map_append, List.map_map, ha]
  by_cases h : 2 < (Source.tokens line).length
  · simp [reportAll, report, hasSurplus_parse, h]
  · simp [reportAll, report, hasSurplus_parse, h]

theorem fill_eq (note : Sink σ) (cells address : Nat) (lines : List String) (record : σ) :
    fill (some note) cells address lines record =
      (reportAll note ((surplusAddresses lines (examined address (lines.take cells))).map
          (address + ·)) record,
        (encodeLines address (lines.take cells)).map
          (· ++ List.replicate (cells - lines.length) 0)) := by
  induction lines generalizing cells address record with
  | nil =>
    cases cells <;>
      simp [fill, encodeLines, examined, surplusAddresses, reportAll, Except.map]
  | cons line rest ih =>
    cases cells with
    | zero => simp [fill, encodeLines, examined, surplusAddresses, reportAll, Except.map]
    | succ cells =>
      simp only [fill, parse_encode, List.take_succ_cons, encodeLines, examined]
      cases lineWord line address with
      | error e =>
        -- One line is looked at: it is reported although it fails.
        have h := reportAll_surplusAddresses_cons note line rest address 0 record
        simp only [surplusAddresses, List.range_zero, List.filter_nil, List.map_nil] at h
        simpa [Except.map, surplusAddresses, reportAll_nil] using h.symm
      | ok word =>
        simp only [ih, reportAll_surplusAddresses_cons]
        cases encodeLines (address + 1) (rest.take cells) <;> simp [Except.map]

theorem fill_none {τ : Type} (note : Sink σ) (cells address : Nat) (lines : List String)
    (record : σ) (other : τ) :
    fill none cells address lines other =
      (other, (fill (some note) cells address lines record).2) := by
  induction lines generalizing cells address record other with
  | nil => cases cells <;> rfl
  | cons line rest ih =>
    cases cells with
    | zero => rfl
    | succ cells =>
      simp only [fill, report]
      cases (Instruction.parse line address).encode with
      | error e => rfl
      | ok word =>
        have h := ih cells (address + 1)
          (report (some note) (Instruction.parse line address) record) other
        simp only [report] at h
        dsimp only
        rw [h]
        rcases fill (some note) cells (address + 1) rest _ with ⟨final, _ | words⟩ <;> rfl

theorem fill_take (sink : Option (Sink σ)) (cells address : Nat) (lines : List String)
    (record : σ) :
    fill sink cells address (lines.take cells) record = fill sink cells address lines record := by
  induction lines generalizing cells address record with
  | nil => simp
  | cons line rest ih =>
    cases cells with
    | zero => rfl
    | succ cells => simp only [List.take_succ_cons, fill, ih]

theorem build_take (sink : Option (Sink σ)) (lines : List String) (record : σ) :
    build sink (lines.take memorySize) record = build sink lines record :=
  fill_take sink memorySize 0 lines record

theorem build_eq (note : Sink σ) (lines : List String) (record : σ) :
    build (some note) lines record =
      (reportAll note (surplusAddresses lines (examined 0 (lines.take memorySize))) record,
        (encodeLines 0 (lines.take memorySize)).map
          (· ++ List.replicate (memorySize - lines.length) 0)) := by
  simp [build, fill_eq]

/-- An image of the words of lines, with 0 at each address without a line. -/
structure ImageOf (lines : List String) (image : Image) : Prop where
  size : image.length = memorySize
  word : ∀ i < memorySize, ∀ line, lines[i]? = some line →
    ∃ word, image[i]? = some word ∧ lineWord line i = .ok word
  zero : ∀ i < memorySize, lines[i]? = none → image[i]? = some 0

theorem imageOf_of_encodeLines {lines : List String} {words : List Word}
    (h : encodeLines 0 (lines.take memorySize) = .ok words) :
    ImageOf lines (words ++ List.replicate (memorySize - lines.length) 0) := by
  obtain ⟨hlen, hall⟩ := encodeLines_eq_ok_iff.1 h
  rw [List.length_take] at hlen
  refine ⟨by simp; omega, fun i hi line hl => ?_, fun i hi hl => ?_⟩
  · have hlt : i < words.length := by
      have := (List.getElem?_eq_some_iff.1 hl).1
      omega
    refine ⟨words[i], by simp [List.getElem?_append_left hlt], ?_⟩
    have hw := hall i line words[i] (by rw [List.getElem?_take_of_lt hi, hl])
      (List.getElem?_eq_getElem hlt)
    rwa [Nat.zero_add] at hw
  · have hge : lines.length ≤ i := List.getElem?_eq_none_iff.1 hl
    rw [List.getElem?_append_right (by omega), List.getElem?_replicate_of_lt (by omega)]

theorem build_of_encodeLines (note : Sink σ) {lines : List String} {words : List Word}
    (record : σ) (h : encodeLines 0 (lines.take memorySize) = .ok words) :
    build (some note) lines record =
      (reportAll note (surplusAddresses lines (min lines.length memorySize)) record,
        .ok (words ++ List.replicate (memorySize - lines.length) 0)) := by
  rw [build_eq, examined_of_ok h, h, List.length_take, Nat.min_comm]
  rfl

theorem build_of_firstFailure (note : Sink σ) {lines : List String} {k : Nat} {e : EncodeError}
    (record : σ) (hk : k < memorySize) (h : FirstFailure 0 lines k e) :
    build (some note) lines record =
      (reportAll note (surplusAddresses lines (k + 1)) record, .error e) := by
  have ht := firstFailure_take.2 ⟨hk, h⟩
  rw [build_eq, examined_of_firstFailure ht, encodeLines_eq_error_iff.2 ⟨k, ht⟩]
  rfl

/-- Building is encoding line by line up to the first error. The lines looked at are reported in
order, the failing one included, and neither the sink nor a line beyond the memory has a part in
the outcome. -/
theorem build_line_by_line (note : Sink σ) (lines : List String) (record : σ) :
    ((∀ i < memorySize, ∀ line, lines[i]? = some line → ∃ word, lineWord line i = .ok word) →
      ∃ image, ImageOf lines image ∧
        build (some note) lines record =
          (reportAll note (surplusAddresses lines (min lines.length memorySize)) record,
            .ok image)) ∧
    ((∃ i < memorySize, ∃ line e, lines[i]? = some line ∧ lineWord line i = .error e) →
      ∃ k < memorySize, ∃ e, FirstFailure 0 lines k e ∧
        build (some note) lines record =
          (reportAll note (surplusAddresses lines (k + 1)) record, .error e)) ∧
    (∀ {τ : Type} (other : τ),
      build none lines other = (other, (build (some note) lines record).2)) ∧
    ∀ more : List String, more.take memorySize = lines.take memorySize →
      build (some note) more record = build (some note) lines record := by
  refine ⟨fun hall => ?_, ?_, fun other => fill_none note memorySize 0 lines record other, ?_⟩
  · rcases encodeLines_take_cases 0 memorySize lines with ⟨words, h⟩ | ⟨k, hk, e, hf⟩
    · exact ⟨_, imageOf_of_encodeLines h, build_of_encodeLines note record h⟩
    · obtain ⟨line, hl, he⟩ := hf.fails
      obtain ⟨word, hw⟩ := hall k hk line hl
      simp [hw] at he
  · intro ⟨i, hi, line, e, hl, he⟩
    rcases encodeLines_take_cases 0 memorySize lines with ⟨words, h⟩ | ⟨k, hk, d, hf⟩
    · have hword := (imageOf_of_encodeLines h).word i hi line hl
      simp [he] at hword
    · exact ⟨k, hk, d, hf, build_of_firstFailure note record hk hf⟩
  · intro more hm
    rw [← build_take, hm, build_take]

/-- A failing line is reported before it fails. -/
example : build (some fun a _ (seen : List Address) => seen ++ [a])
    ["TAKE 5", "ADD 3 x", "FOO 1 2", "DATA 1 2 3"] [] =
      ([1, 2], .error (.fault (.unknownOpcode "FOO" 2))) := by
  decide

end Johnny.Image
