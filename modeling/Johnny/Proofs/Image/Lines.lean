import Johnny.Image
import Johnny.Proofs.Except
import Mathlib.Tactic.SplitIfs

namespace Johnny

theorem writeDecimal_address {k : Nat} (h : k < memorySize) : writeDecimal k = .ok (decimal k) := by
  have hbound : memorySize ≤ writingBound := by
    unfold writingBound
    exact (Nat.pow_le_pow_right (by decide) (by decide) : 10 ^ 3 ≤ 10 ^ maxDigits)
  exact if_pos (Nat.lt_of_lt_of_le h hbound)

def Fault.moved (k : Nat) : Fault → Fault
  | unknownOpcode m a => unknownOpcode m (a + k)
  | invalidOperand t a => invalidOperand t (a + k)

def EncodeError.moved (k : Nat) : EncodeError → EncodeError
  | fault f => fault (f.moved k)
  | digits limit => digits limit

theorem readOperand_moved (token : String) (address : Address) (k : Nat) :
    readOperand token (address + k) =
      (readOperand token address).mapError (EncodeError.moved k) := by
  unfold readOperand
  cases Numeral.ofOperand? token.toList with
  | none => rfl
  | some n =>
    dsimp only
    cases n.read <;> rfl

theorem Instruction.encode_moved (i : Instruction) (k : Nat) :
    ({ i with address := i.address + k } : Instruction).encode =
      i.encode.mapError (EncodeError.moved k) := by
  unfold encode
  split_ifs with hm
  · rfl
  · cases Opcode.ofMnemonic? i.mnemonic with
    | none => rfl
    | some op =>
      cases ho : i.operand with
      | none => rfl
      | some token =>
        dsimp only
        rw [readOperand_moved]
        cases readOperand token i.address <;> rfl

namespace Image

def lineWord (line : String) (address : Nat) : Except EncodeError Word :=
  encodeTokens (Source.tokens line) address

theorem parse_encode (line : String) (address : Nat) :
    (Instruction.parse line address).encode = lineWord line address := rfl

theorem lineWord_moved (line : String) (address k : Nat) :
    lineWord line (address + k) = (lineWord line address).mapError (EncodeError.moved k) := by
  have h := Instruction.encode_moved (Instruction.ofTokens (Source.tokens line) address) k
  unfold lineWord encodeTokens
  rw [← h]
  congr 1
  unfold Instruction.ofTokens
  split <;> simp

/-- The words of lines, the first of which is at `start`, or the first error. -/
def encodeLines (start : Nat) : List String → Except EncodeError (List Word)
  | [] => .ok []
  | line :: rest =>
    match lineWord line start with
    | .error e => .error e
    | .ok word => (encodeLines (start + 1) rest).map (word :: ·)

/-- How many lines are looked at: all of them, or those up to the first error. -/
def examined (start : Nat) : List String → Nat
  | [] => 0
  | line :: rest =>
    match lineWord line start with
    | .error _ => 1
    | .ok _ => examined (start + 1) rest + 1

/-- Line `k` is the first that cannot be encoded, and `e` says why. The first line is at
`start`. -/
structure FirstFailure (start : Nat) (lines : List String) (k : Nat) (e : EncodeError) :
    Prop where
  fails : ∃ line, lines[k]? = some line ∧ lineWord line (start + k) = .error e
  before : ∀ i < k, ∃ line word, lines[i]? = some line ∧ lineWord line (start + i) = .ok word

theorem FirstFailure.lt_length {start k : Nat} {lines : List String} {e : EncodeError}
    (h : FirstFailure start lines k e) : k < lines.length := by
  obtain ⟨line, hl, -⟩ := h.fails
  exact (List.getElem?_eq_some_iff.1 hl).1

theorem FirstFailure.congr {start k : Nat} {lines others : List String} {e : EncodeError}
    (h : FirstFailure start lines k e) (hl : ∀ i ≤ k, others[i]? = lines[i]?) :
    FirstFailure start others k e := by
  refine ⟨?_, fun i hi => ?_⟩
  · rw [hl k (Nat.le_refl k)]
    exact h.fails
  · rw [hl i (Nat.le_of_lt hi)]
    exact h.before i hi

theorem firstFailure_take {start n k : Nat} {lines : List String} {e : EncodeError} :
    FirstFailure start (lines.take n) k e ↔ k < n ∧ FirstFailure start lines k e := by
  have ht (hk : k < n) (i : Nat) (hi : i ≤ k) : (lines.take n)[i]? = lines[i]? :=
    List.getElem?_take_of_lt (by omega)
  constructor
  · intro h
    have hk : k < n := Nat.lt_of_lt_of_le h.lt_length (List.length_take_le n lines)
    exact ⟨hk, h.congr fun i hi => (ht hk i hi).symm⟩
  · intro ⟨hk, h⟩
    exact h.congr (ht hk)

theorem FirstFailure.append {start k : Nat} {front back : List String} {e : EncodeError}
    (h : FirstFailure start front k e) : FirstFailure start (front ++ back) k e := by
  have hk := h.lt_length
  apply h.congr
  intro i hi
  exact List.getElem?_append_left (by omega)

theorem FirstFailure.moved {start j k : Nat} {lines : List String} {e : EncodeError}
    (h : FirstFailure start lines j e) : FirstFailure (start + k) lines j (e.moved k) := by
  have ha (i : Nat) : start + k + i = start + i + k := by omega
  refine ⟨?_, fun i hi => ?_⟩
  · obtain ⟨line, hl, he⟩ := h.fails
    exact ⟨line, hl, by rw [ha, lineWord_moved, he]; rfl⟩
  · obtain ⟨line, word, hl, hw⟩ := h.before i hi
    exact ⟨line, word, hl, by rw [ha, lineWord_moved, hw]; rfl⟩

theorem firstFailure_zero {start : Nat} {line : String} {rest : List String} {e : EncodeError} :
    FirstFailure start (line :: rest) 0 e ↔ lineWord line start = .error e :=
  ⟨fun h => by simpa using h.fails, fun h => ⟨⟨line, rfl, h⟩, by simp⟩⟩

theorem firstFailure_succ {start k : Nat} {line : String} {rest : List String} {word : Word}
    {e : EncodeError} (hw : lineWord line start = .ok word) :
    FirstFailure start (line :: rest) (k + 1) e ↔ FirstFailure (start + 1) rest k e := by
  constructor
  · intro ⟨hf, hb⟩
    refine ⟨by simpa [Nat.add_assoc, Nat.add_comm 1] using hf, fun i hi => ?_⟩
    simpa [Nat.add_assoc, Nat.add_comm 1] using hb (i + 1) (by omega)
  · intro ⟨hf, hb⟩
    refine ⟨by simpa [Nat.add_assoc, Nat.add_comm 1] using hf, fun i hi => ?_⟩
    cases i with
    | zero => exact ⟨line, word, rfl, hw⟩
    | succ i => simpa [Nat.add_assoc, Nat.add_comm 1] using hb i (by omega)

theorem encodeLines_eq_error_iff {start : Nat} {lines : List String} {e : EncodeError} :
    encodeLines start lines = .error e ↔ ∃ k, FirstFailure start lines k e := by
  induction lines generalizing start with
  | nil => simpa [encodeLines] using fun k h => absurd (FirstFailure.lt_length h) (by simp)
  | cons line rest ih =>
    rw [encodeLines]
    cases hw : lineWord line start with
    | error d =>
      constructor
      · rintro ⟨⟩
        exact ⟨0, firstFailure_zero.2 hw⟩
      · intro ⟨k, hk⟩
        cases k with
        | zero => rw [firstFailure_zero, hw] at hk; simpa using hk
        | succ k =>
          obtain ⟨l, word, hl, hword⟩ := hk.before 0 (by omega)
          simp_all
    | ok word =>
      -- The first line is none that fails, so a failure is one line earlier in the rest.
      dsimp only
      rw [map_eq_error_iff, ih]
      constructor
      · intro ⟨k, hk⟩
        exact ⟨k + 1, (firstFailure_succ hw).2 hk⟩
      · intro ⟨k, hk⟩
        cases k with
        | zero => rw [firstFailure_zero, hw] at hk; simp at hk
        | succ k => exact ⟨k, (firstFailure_succ hw).1 hk⟩

theorem encodeLines_eq_ok_iff {start : Nat} {lines : List String} {words : List Word} :
    encodeLines start lines = .ok words ↔ words.length = lines.length ∧
      ∀ i line word, lines[i]? = some line → words[i]? = some word →
        lineWord line (start + i) = .ok word := by
  induction lines generalizing start words with
  | nil => simp [encodeLines, eq_comm]
  | cons line rest ih =>
    rw [encodeLines]
    constructor
    · intro h
      cases hw : lineWord line start with
      | error e => simp [hw] at h
      | ok first =>
        rw [hw] at h
        obtain ⟨others, hr, rfl⟩ := map_eq_ok_iff.1 h
        obtain ⟨hlen, hall⟩ := ih.1 hr
        refine ⟨by simp [hlen], fun i l w hl hword => ?_⟩
        cases i with
        | zero => simp_all
        | succ i => simpa [Nat.add_assoc, Nat.add_comm 1] using hall i l w hl hword
    · intro ⟨hlen, hall⟩
      cases words with
      | nil => simp at hlen
      | cons first others =>
        have hw : lineWord line start = .ok first := hall 0 line first rfl rfl
        have hr : encodeLines (start + 1) rest = .ok others := by
          refine ih.2 ⟨by simpa using hlen, fun i l w hl hword => ?_⟩
          simpa [Nat.add_assoc, Nat.add_comm 1] using hall (i + 1) l w hl hword
        simp [hw, hr, Except.map]

theorem encodeLines_take_cases (start n : Nat) (lines : List String) :
    (∃ words, encodeLines start (lines.take n) = .ok words) ∨
      ∃ k < n, ∃ e, FirstFailure start lines k e := by
  cases h : encodeLines start (lines.take n) with
  | ok words => exact .inl ⟨words, rfl⟩
  | error e =>
    right
    obtain ⟨k, hf⟩ := encodeLines_eq_error_iff.1 h
    obtain ⟨hk, hf⟩ := firstFailure_take.1 hf
    exact ⟨k, hk, e, hf⟩

theorem FirstFailure.append_right {start j : Nat} {front back : List String} {words : List Word}
    {e : EncodeError} (hw : encodeLines start front = .ok words)
    (h : FirstFailure (start + front.length) back j e) :
    FirstFailure start (front ++ back) (front.length + j) e := by
  obtain ⟨hlen, hall⟩ := encodeLines_eq_ok_iff.1 hw
  have ha (i : Nat) : start + front.length + i = start + (front.length + i) := by omega
  refine ⟨?_, fun i hi => ?_⟩
  · simpa [ha, List.getElem?_append_right] using h.fails
  by_cases hf : i < front.length
  · have hi' : i < words.length := by omega
    refine ⟨front[i], words[i], by simp [List.getElem?_append_left hf], ?_⟩
    exact hall i _ _ (List.getElem?_eq_getElem hf) (List.getElem?_eq_getElem hi')
  · have hs : front.length + (i - front.length) = i := by omega
    have hb := h.before (i - front.length) (by omega)
    rw [ha, hs] at hb
    rwa [List.getElem?_append_right (by omega)]

theorem encodeLines_append (start : Nat) (front back : List String) :
    encodeLines start (front ++ back) = (encodeLines start front).bind fun words =>
      (encodeLines (start + front.length) back).map (words ++ ·) := by
  induction front generalizing start with
  | nil =>
    simp only [encodeLines, List.nil_append, List.length_nil, Nat.add_zero, Except.bind]
    cases encodeLines start back <;> rfl
  | cons line rest ih =>
    simp only [List.cons_append, encodeLines]
    cases lineWord line start with
    | error e => rfl
    | ok word =>
      have ha : start + 1 + rest.length = start + (line :: rest).length := by simp; omega
      simp only [ih, ha]
      cases encodeLines (start + 1) rest with
      | error e => rfl
      | ok words => cases encodeLines (start + (line :: rest).length) back <;> rfl

theorem encodeLines_moved (start k : Nat) (lines : List String) :
    encodeLines (start + k) lines = (encodeLines start lines).mapError (EncodeError.moved k) := by
  induction lines generalizing start with
  | nil => rfl
  | cons line rest ih =>
    simp only [encodeLines, lineWord_moved]
    cases lineWord line start with
    | error e => rfl
    | ok word =>
      have ha : start + k + 1 = start + 1 + k := by omega
      simp only [mapError_ok, ha, ih]
      cases encodeLines (start + 1) rest <;> rfl

theorem examined_of_ok {start : Nat} {lines : List String} {words : List Word}
    (h : encodeLines start lines = .ok words) : examined start lines = lines.length := by
  induction lines generalizing start words with
  | nil => rfl
  | cons line rest ih =>
    rw [encodeLines] at h
    rw [examined]
    cases hw : lineWord line start with
    | error e => simp [hw] at h
    | ok word =>
      rw [hw] at h
      obtain ⟨others, hr, -⟩ := map_eq_ok_iff.1 h
      simp [ih hr]

theorem examined_of_firstFailure {start k : Nat} {lines : List String} {e : EncodeError}
    (h : FirstFailure start lines k e) : examined start lines = k + 1 := by
  induction lines generalizing start k with
  | nil => exact absurd h.lt_length (by simp)
  | cons line rest ih =>
    rw [examined]
    cases k with
    | zero => simp [firstFailure_zero.1 h]
    | succ k =>
      obtain ⟨l, word, hl, hw⟩ := h.before 0 (by omega)
      obtain rfl : line = l := by simpa using hl
      simp only [Nat.add_zero] at hw
      simp [hw, ih ((firstFailure_succ hw).1 h)]

theorem examined_take_le (start n : Nat) (lines : List String) :
    examined start (lines.take n) ≤ n := by
  rcases encodeLines_take_cases start n lines with ⟨words, h⟩ | ⟨k, hk, e, hf⟩
  · rw [examined_of_ok h]
    exact List.length_take_le n lines
  · rw [examined_of_firstFailure (firstFailure_take.2 ⟨hk, hf⟩)]
    exact hk

end Image

end Johnny
