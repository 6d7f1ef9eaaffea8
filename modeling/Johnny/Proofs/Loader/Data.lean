import Johnny.Proofs.Image.Words
import Johnny.Proofs.Loader.File
import Johnny.Proofs.Loader.Format
import Johnny.Proofs.Loader.Outcome
import Johnny.Proofs.Program.Text

namespace Johnny

open Image Numeral Ram Source

/-- A line of a memory file in plain decimal: blank, or an integer. -/
abbrev Entry := Option Spelling

namespace Entry

def line : Entry → String
  | none => ""
  | some s => String.ofList s.text

def dataLine : Entry → String
  | none => ""
  | some s => operandLine "DATA" (String.ofList s.text)

def word : Entry → Word
  | none => 0
  | some s => s.value

def Short (e : Entry) : Prop := ∀ s ∈ e, s.digits.length ≤ 4300

/-- The first integer that does not keep to the limit, and the entries before it. -/
structure FirstLong (entries before : List Entry) (s : Spelling) : Prop where
  split : ∃ after, entries = before ++ some s :: after
  short : ∀ e ∈ before, Short e
  long : 4300 < s.digits.length

variable {entries before : List Entry} {e : Entry} {s : Spelling}

theorem short_or_firstLong (entries : List Entry) :
    (∀ e ∈ entries, Short e) ∨ ∃ before s, FirstLong entries before s := by
  rcases forall_or_exists_first Short entries with h | ⟨before, e, after, hsplit, hbefore, he⟩
  · exact .inl h
  · simp only [Short, not_forall, Nat.not_le] at he
    obtain ⟨s, hs, hlong⟩ := he
    obtain rfl : e = some s := hs
    exact .inr ⟨before, s, ⟨after, hsplit⟩, hbefore, hlong⟩

theorem plain_text (s : Spelling) : Plain (String.ofList s.text) := by
  constructor
  · rw [String.toList_ofList]
    exact forall_mem_text (by decide) (by decide) s
  · rw [String.toList_ofList]
    exact forall_mem_text (by decide) (by decide) s

theorem isBlank_text (s : Spelling) : ∀ c ∈ s.text, Text.isBlank c = false :=
  forall_mem_text (by decide) (by decide) s

theorem plain_line (e : Entry) : Plain e.line := by
  cases e with
  | none => decide
  | some s => exact plain_text s

theorem unbroken_dataLine (e : Entry) : Unbroken e.dataLine.toList := by
  cases e with
  | none => exact nofun
  | some s =>
    have hsays : Says [.text "DATA", .text (String.ofList s.text)] (dataLine (some s)) :=
      .full [] (by decide) (plain_text s) rfl
    exact hsays.unbroken

/-- The lines of a memory file, as they are and as a program. -/
def page (entries : List Entry) : String := Report.unlines (entries.map line)

def program (entries : List Entry) : String := Report.unlines (entries.map dataLine)

theorem lines_page (entries : List Entry) : lines (page entries) = entries.map line :=
  lines_unlines (List.forall_mem_map.2 fun e _ => e.plain_line.unbroken)

theorem lines_program (entries : List Entry) : lines (program entries) = entries.map dataLine :=
  lines_unlines (List.forall_mem_map.2 fun e _ => e.unbroken_dataLine)

theorem lineHolds_line (h : e.Short) : LineHolds e.line e.word := by
  cases e with
  | none => decide
  | some s => exact lineHolds_of_spells (isBlank_text s) (spells_text (h s rfl))

theorem trimmed_line (s : Spelling) :
    Text.Trimmed Text.isBlank (line (some s)).toList s.text := by
  rw [line, String.toList_ofList, ← Text.trim_eq_iff]
  exact Text.trim_eq_self (isBlank_text s)

theorem not_lineHolds_line (h : 4300 < s.digits.length) (w : Word) :
    ¬ LineHolds (line (some s)) w := by
  rintro ⟨core, hc, hw⟩
  obtain rfl : core = s.text := hc.trim_eq.symm.trans (trimmed_line s).trim_eq
  exact not_spells_text h w hw

theorem forall₂_lineHolds (h : ∀ e ∈ entries, Short e) :
    List.Forall₂ LineHolds (entries.map line) (entries.map word) := by
  rw [List.forall₂_map_left_iff, List.forall₂_map_right_iff, List.forall₂_same]
  exact fun e he => lineHolds_line (h e he)

theorem FirstLong.firstInvalid (h : FirstLong entries before s) :
    FirstInvalid (entries.map line) (before.map line) (line (some s)) := by
  obtain ⟨⟨after, rfl⟩, hshort, hlong⟩ := h
  refine ⟨⟨after.map line, by rw [List.map_append, List.map_cons]⟩, ?_, not_lineHolds_line hlong⟩
  exact List.forall_mem_map.2 fun e he => ⟨e.word, lineHolds_line (hshort e he)⟩

theorem lineWord_dataLine (s : Spelling) (address : Nat) :
    lineWord (dataLine (some s)) address = readOperand (String.ofList s.text) address := by
  have htokens : tokens (dataLine (some s)) = [Opcode.data.mnemonic, String.ofList s.text] :=
    tokens_operandLine (by decide) (plain_text s)
  rw [lineWord_of_mnemonic address htokens]
  change (readOperand (String.ofList s.text) address).map ((0 : Int) + ·) = _
  cases readOperand (String.ofList s.text) address <;> simp [Except.map]

theorem lineWord_of_short (h : e.Short) (address : Nat) :
    lineWord e.dataLine address = .ok e.word := by
  cases e with
  | none => rfl
  | some s =>
    have hs : s.digits.length ≤ maxDigits := h s rfl
    rw [lineWord_dataLine, readOperand_text, if_pos hs]
    rfl

theorem lineWord_of_long (h : 4300 < s.digits.length) (address : Nat) :
    lineWord (dataLine (some s)) address = .error (.digits (.reading s.digits.length)) := by
  have hs : ¬ s.digits.length ≤ maxDigits := Nat.not_le.2 h
  rw [lineWord_dataLine, readOperand_text, if_neg hs]

theorem encodeLines_of_short (h : ∀ e ∈ entries, Short e) (start : Nat) :
    encodeLines start (entries.map dataLine) = .ok (entries.map word) := by
  induction entries generalizing start with
  | nil => rfl
  | cons e rest ih =>
    obtain ⟨he, hrest⟩ := List.forall_mem_cons.1 h
    simp only [List.map_cons, encodeLines, lineWord_of_short he, ih hrest, Except.map]

theorem FirstLong.encodeLines_eq (h : FirstLong entries before s) (start : Nat) :
    encodeLines start (entries.map dataLine) = .error (.digits (.reading s.digits.length)) := by
  obtain ⟨⟨after, rfl⟩, hshort, hlong⟩ := h
  rw [List.map_append, encodeLines_append, encodeLines_of_short hshort, List.map_cons, encodeLines,
    lineWord_of_long hlong]
  rfl

theorem exists_entries {words : List Word} (h : ∀ w ∈ words, w.natAbs < 10 ^ maxDigits) :
    ∃ entries : List Entry, entries.map word = words ∧ ∀ e ∈ entries, Short e := by
  rw [← writingBound_eq] at h
  choose spell _ hvalue hlength using exists_spelling
  refine ⟨words.map fun w => some (spell w), ?_, List.forall_mem_map.2 fun w hw s hs => ?_⟩
  · rw [List.map_map]
    exact (List.map_congr_left fun w _ => hvalue w).trans words.map_id
  · obtain rfl : spell w = s := Option.some.inj hs
    exact (hlength w).2 (h w hw)

end Entry

namespace Loader

open Assembler Entry

variable {disk : Disk} {path source : String} {bytes : Bytes} {entries before : List Entry}
  {s : Spelling}

theorem loadImage_of_fileOf (hr : disk.read path = .ok bytes) (hb : FileOf source bytes) :
    loadImage disk path = (Ram.read source).mapError .load := by
  have hfile : ofFile disk path = .ok (String.ofList (unifyBreaks source.toList)) := by
    simp only [ofFile, hr, ofBytes_of_fileOf hb, mapError_ok]
  rw [loadImage_of_ofFile hfile, Ram.read, Ram.read, lines_unifyBreaks]

def entryImage (entries : List Entry) : Image :=
  entries.map word ++ List.replicate (memorySize - entries.length) 0

theorem length_lines_page (hn : entries.length ≤ memorySize) :
    (lines (page entries)).length ≤ memorySize := by
  rwa [lines_page, List.length_map]

theorem read_page_of_short (hn : entries.length ≤ memorySize) (h : ∀ e ∈ entries, Short e) :
    Ram.read (page entries) = .ok (entryImage entries) := by
  rw [read_eq_ok_iff (length_lines_page hn), lines_page]
  exact ⟨_, forall₂_lineHolds h, by rw [entryImage, List.length_map]⟩

theorem read_page_of_firstLong (hn : entries.length ≤ memorySize)
    (h : FirstLong entries before s) :
    Ram.read (page entries) = .error (.invalidWord (String.ofList s.text) before.length) := by
  have hf := h.firstInvalid
  rw [← lines_page] at hf
  rw [read_of_firstInvalid (length_lines_page hn) hf (trimmed_line s), List.length_map]

theorem sourceImage_program (hn : entries.length ≤ memorySize) :
    sourceImage (program entries) = (encodeLines 0 (entries.map dataLine)).map
      (· ++ List.replicate (memorySize - entries.length) 0) := by
  rw [sourceImage_eq, lines_program, List.take_of_length_le (by rwa [List.length_map]),
    List.length_map]

theorem assemble_program_of_short (l : Loader) (hn : entries.length ≤ memorySize)
    (h : ∀ e ∈ entries, Short e) :
    (l.assemble (program entries)).2 = .ok (entryImage entries) := by
  rw [assemble_eq, left_eq_ok_iff, sourceImage_program hn, encodeLines_of_short h]
  rfl

theorem assemble_program_of_firstLong (l : Loader) (hn : entries.length ≤ memorySize)
    (h : FirstLong entries before s) :
    (l.assemble (program entries)).2 = .error (.digits (.reading s.digits.length)) := by
  rw [assemble_eq, left_eq_digits_iff, sourceImage_program hn, h.encodeLines_eq]
  rfl

/-- Memory files of plain integers and the programs that say the same with `DATA` come to the same
image. An integer with too many digits is refused by both, at the first place where there is one;
and every image of words that can be written is the image of a source. -/
theorem loadImage_agrees_with_data (l : Loader) :
    (∀ {disk : Disk} {path : String} {bytes : Bytes} {entries : List Entry},
      entries.length ≤ memorySize → disk.read path = .ok bytes → FileOf (page entries) bytes →
      (∀ image, loadImage disk path = .ok image ↔
        (l.assemble (program entries)).2 = .ok image) ∧
      (∀ text address, loadImage disk path = .error (.load (.invalidWord text address)) ↔
        ∃ before s, FirstLong entries before s ∧ text = String.ofList s.text ∧
          address = before.length) ∧
      ∀ before s, FirstLong entries before s →
        (l.assemble (program entries)).2 = .error (.digits (.reading s.digits.length))) ∧
    ∀ words : List Word, words.length ≤ memorySize → (∀ w ∈ words, w.natAbs < 10 ^ maxDigits) →
      ∃ source, (l.assemble source).2 =
        .ok (words ++ List.replicate (memorySize - words.length) 0) := by
  refine ⟨fun {disk path bytes entries} hn hr hb => ?_, fun words hn hw => ?_⟩
  · have hload := loadImage_of_fileOf hr hb
    have hshort (h : ∀ e ∈ entries, Short e) :
        loadImage disk path = .ok (entryImage entries) := by
      rw [hload, read_page_of_short hn h, mapError_ok]
    have hlong {before : List Entry} {s : Spelling} (h : FirstLong entries before s) :
        loadImage disk path =
          .error (.load (.invalidWord (String.ofList s.text) before.length)) := by
      rw [hload, read_page_of_firstLong hn h, mapError_error]
    refine ⟨fun image => ?_, fun text address => ⟨fun h => ?_, ?_⟩, fun before s h => ?_⟩
    · rcases short_or_firstLong entries with h | ⟨before, s, h⟩
      · rw [hshort h, l.assemble_program_of_short hn h]
      · rw [hlong h, l.assemble_program_of_firstLong hn h]
        exact ⟨nofun, nofun⟩
    · rcases short_or_firstLong entries with hs | ⟨before, s, hs⟩
      · rw [hshort hs] at h
        cases h
      · rw [hlong hs] at h
        cases h
        exact ⟨before, s, hs, rfl, rfl⟩
    · rintro ⟨before, s, hs, rfl, rfl⟩
      exact hlong hs
    · exact l.assemble_program_of_firstLong hn h
  · obtain ⟨entries, rfl, hshort⟩ := exists_entries hw
    rw [List.length_map] at hn ⊢
    exact ⟨program entries, l.assemble_program_of_short hn hshort⟩

def repeated (digit : Fin 10) (count : Nat) (h : 0 < count) : Spelling :=
  ⟨.absent, List.replicate count digit, by simpa using Nat.ne_of_gt h⟩

/-- Leading zeros and a blank line are read alike. An integer with one digit too many behind them is
refused on its line by the one reader and for its digits by the other. -/
theorem loadImage_agrees_with_data_ones :
    let long := repeated 1 4301 (by decide)
    let entries : List Entry := [some ⟨.plus, [0, 0, 7], by decide⟩, none, some long]
    let disk := Disk.single "image" (mark ++ Text.encode (page entries).toList)
    entries.length ≤ memorySize ∧
      disk.read "image" = .ok (mark ++ Text.encode (page entries).toList) ∧
      FileOf (page entries) (mark ++ Text.encode (page entries).toList) ∧
      loadImage disk "image" = .error (.load (.invalidWord (String.ofList long.text) 2)) ∧
      (fresh.assemble (program entries)).2 = .error (.digits (.reading 4301)) := by
  intro long entries disk
  have hn : entries.length ≤ memorySize := by
    change 3 ≤ 1000
    decide
  have hr : disk.read "image" = .ok (mark ++ Text.encode (page entries).toList) := rfl
  have hlength : long.digits.length = 4301 := List.length_replicate
  have hf : FirstLong entries [some ⟨.plus, [0, 0, 7], by decide⟩, none] long := by
    refine ⟨⟨[], rfl⟩, ?_, by omega⟩
    intro e he s hs
    simp only [List.mem_cons, List.not_mem_nil, or_false] at he
    rcases he with rfl | rfl
    · obtain rfl := Option.some.inj hs
      decide
    · cases hs
  obtain ⟨-, hinvalid, hdigits⟩ := (loadImage_agrees_with_data fresh).1 hn hr .marked
  have hsource := hdigits _ _ hf
  rw [hlength] at hsource
  exact ⟨hn, hr, .marked, (hinvalid _ _).2 ⟨_, _, hf, rfl, rfl⟩, hsource⟩

end Loader

end Johnny
