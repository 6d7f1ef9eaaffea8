import Johnny.Proofs.Assembler.Run
import Johnny.Proofs.Disk.Write
import Johnny.Proofs.Ram.Text

namespace Johnny.Assembler

open Image

variable {a : Assembler} {disk : Disk} {path : String}

theorem ram_eq_error_iff {limit : DigitLimit} :
    a.ram = .error limit ↔ limit = .writing ∧ ¬ Ram.Writable a.image := by
  by_cases h : Ram.Writable a.image
  · simp only [ram, Ram.render_of_writable h, reduceCtorEq, h, not_true, and_false]
  · rw [ram, Ram.render_of_not_writable h, Except.error.injEq, eq_comm]
    exact (and_iff_left h).symm

/-- A writing fails with the file open: a word is too long to be put into text, or the file stops
short of the text. The beginning of it is in the file then. -/
inductive BreaksOff (a : Assembler) (disk : Disk) (path : String) : Path → Bytes → Error → Prop
  | tooLong {file : Path} {limit : DigitLimit} (h : a.image.length = memorySize)
      (ht : disk.target path = .ok file) (hr : a.ram = .error limit) :
      BreaksOff a disk path file [] (.digits limit)
  | stopped {file : Path} {text : String} {kept : Bytes} {e : FileError}
      (h : a.image.length = memorySize) (ht : disk.target path = .ok file)
      (hr : a.ram = .ok text) (hs : disk.Stops file (Text.encode text.toList) kept e) :
      BreaksOff a disk path file kept (.file e)

/-- What a writing can come to. -/
inductive Writing (a : Assembler) (disk : Disk) (path : String) : Disk × Except Error Unit → Prop
  | noImage (h : a.image.length ≠ memorySize) : Writing a disk path (disk, .error .noImage)
  | noTarget {e : FileError} (h : a.image.length = memorySize)
      (ht : disk.target path = .error e) : Writing a disk path (disk, .error (.file e))
  | broken {file : Path} {kept : Bytes} {e : Error} (hb : BreaksOff a disk path file kept e) :
      Writing a disk path (disk.fill file kept, .error e)
  | written {file : Path} {text : String} (h : a.image.length = memorySize)
      (ht : disk.target path = .ok file) (hr : a.ram = .ok text)
      (hs : disk.Takes file (Text.encode text.toList)) :
      Writing a disk path (disk.fill file (Text.encode text.toList), .ok ())

theorem writeRam_of_no_image (h : a.image.length ≠ memorySize) :
    a.writeRam disk path = (disk, .error .noImage) := if_pos h

theorem writeRam_of_target_error (h : a.image.length = memorySize) {e : FileError}
    (ht : disk.target path = .error e) : a.writeRam disk path = (disk, .error (.file e)) := by
  rw [writeRam, if_neg (Decidable.not_not.2 h), Disk.create, ht]
  rfl

theorem writeRam_of_ram_error (h : a.image.length = memorySize) {file : Path}
    (ht : disk.target path = .ok file) {limit : DigitLimit} (hr : a.ram = .error limit) :
    a.writeRam disk path = (disk.fill file [], .error (.digits limit)) := by
  rw [writeRam, if_neg (Decidable.not_not.2 h), Disk.create, ht]
  simp only [Except.map, hr]

theorem writeRam_of_ram_ok (h : a.image.length = memorySize) {file : Path}
    (ht : disk.target path = .ok file) {text : String} (hr : a.ram = .ok text) :
    a.writeRam disk path =
      (((disk.fill file []).write file (Text.encode text.toList)).1,
        ((disk.fill file []).write file (Text.encode text.toList)).2.mapError .file) := by
  rw [writeRam, if_neg (Decidable.not_not.2 h), Disk.create, ht]
  simp only [Except.map, hr]

theorem BreaksOff.writeRam_eq {file : Path} {kept : Bytes} {e : Error}
    (h : BreaksOff a disk path file kept e) :
    a.writeRam disk path = (disk.fill file kept, .error e) := by
  cases h with
  | tooLong h ht hr => exact writeRam_of_ram_error h ht hr
  | stopped h ht hr hs =>
    rw [writeRam_of_ram_ok h ht hr, Disk.write_of_stops hs]
    rfl

theorem writing (a : Assembler) (disk : Disk) (path : String) :
    Writing a disk path (a.writeRam disk path) := by
  by_cases h : a.image.length = memorySize
  swap
  · rw [writeRam_of_no_image h]
    exact .noImage h
  cases ht : disk.target path with
  | error e =>
    rw [writeRam_of_target_error h ht]
    exact .noTarget h ht
  | ok file =>
    cases hr : a.ram with
    | error limit =>
      rw [writeRam_of_ram_error h ht hr]
      exact .broken (.tooLong h ht hr)
    | ok text =>
      rcases disk.takes_or_stops file (Text.encode text.toList) with hs | ⟨kept, e, hs⟩
      · rw [writeRam_of_ram_ok h ht hr, Disk.write_of_takes hs]
        exact .written h ht hr hs
      · rw [(BreaksOff.stopped h ht hr hs).writeRam_eq]
        exact .broken (.stopped h ht hr hs)

theorem writing_of_eq {outcome : Disk × Except Error Unit}
    (h : a.writeRam disk path = outcome) : Writing a disk path outcome := h ▸ writing a disk path

/-- A writing that fails changes no file. One that succeeds leaves the words of the image at the
path, on as many lines as the memory has cells, and changes no other file. -/
structure AllOrNothing (a : Assembler) (disk : Disk) (path : String) : Prop where
  nothing : ∀ after e, a.writeRam disk path = (after, .error e) → disk.SameFiles after
  all : ∀ after, a.writeRam disk path = (after, .ok ()) → ∃ text, a.ram = .ok text ∧
    (Source.lines text).length = memorySize ∧
    disk.Written path (Text.encode text.toList) after

theorem length_lines_ram (h : a.image.length = memorySize) {text : String} (hr : a.ram = .ok text) :
    (Source.lines text).length = memorySize := by
  obtain ⟨-, rfl⟩ := Ram.render_eq_ok_iff.1 hr
  rw [Source.lines, String.toList_ofList, Ram.splitLines_page, List.length_map, List.length_map, h]

/-- A writing is all or nothing unless it breaks off and the file was not already as it is left. -/
theorem allOrNothing_iff : AllOrNothing a disk path ↔
    ∀ file kept e, BreaksOff a disk path file kept e → disk.content? file = some kept := by
  constructor
  · intro hall file kept e hb
    exact Disk.sameFiles_fill_iff.1 (hall.nothing _ _ hb.writeRam_eq)
  · intro hkept
    refine ⟨fun after e hwrite => ?_, fun after hwrite => ?_⟩
    · cases writing_of_eq hwrite with
      | noImage h => exact fun p => rfl
      | noTarget h ht => exact fun p => rfl
      | broken hb => exact Disk.sameFiles_fill_iff.2 (hkept _ _ _ hb)
    · cases writing_of_eq hwrite with
      | written h ht hr hs => exact ⟨_, hr, length_lines_ram h hr, Disk.written_fill ht _⟩

theorem Sourced.bounded (h : Sourced a) : ∀ w ∈ a.image, Bounded w := by
  rcases h with h | ⟨source, h⟩
  · simp [h]
  · exact bounded_sourceImage h

theorem Sourced.writable_iff (h : Sourced a) :
    Ram.Writable a.image ↔ ∀ w ∈ a.image, w < (writingBound : Int) :=
  forall₂_congr fun w hm => natAbs_lt_iff (h.bounded w hm)

theorem Sourced.length_of_not_writable (h : Sourced a) (hw : ¬ Ram.Writable a.image) :
    a.image.length = memorySize := by
  rcases h with h | ⟨source, h⟩
  · exact absurd (fun w hm => by simp [h] at hm) hw
  · exact length_sourceImage h

/-- After any operations, on a disk that may turn down any opening and cut any text short, a
writing is all or nothing unless it breaks off and the file was not already as it is left: a word of
the image has too many digits and the file was not empty, or the file stops short of the text and
did not hold the beginning of it. A disk that cuts no text short leaves the first of the two. -/
theorem run_writeRam_all_or_nothing_iff (origin disk : Disk) (steps : List Step) (path : String) :
    (AllOrNothing (run fresh origin steps).1 disk path ↔
      ((∀ w ∈ (run fresh origin steps).1.image, w < (writingBound : Int)) ∨
        ∀ file, disk.target path = .ok file → disk.content? file = some []) ∧
      ∀ file text kept e, (run fresh origin steps).1.image.length = memorySize →
        disk.target path = .ok file → (run fresh origin steps).1.ram = .ok text →
        disk.Stops file (Text.encode text.toList) kept e → disk.content? file = some kept) ∧
    (¬ AllOrNothing (run fresh origin steps).1 disk path →
      ∃ file kept e, BreaksOff (run fresh origin steps).1 disk path file kept e ∧
        (run fresh origin steps).1.writeRam disk path = (disk.fill file kept, .error e)) := by
  have hs := sourced_run origin steps
  generalize (run fresh origin steps).1 = a at hs
  rw [allOrNothing_iff]
  refine ⟨⟨fun hkept => ⟨?_, ?_⟩, ?_⟩, fun hnot => ?_⟩
  · rw [← hs.writable_iff]
    by_cases hw : Ram.Writable a.image
    · exact .inl hw
    · have hlen := hs.length_of_not_writable hw
      exact .inr fun file ht => hkept _ _ _ (.tooLong hlen ht (ram_eq_error_iff.2 ⟨rfl, hw⟩))
  · intro file text kept e hlen ht hr hstops
    exact hkept _ _ _ (.stopped hlen ht hr hstops)
  · rintro ⟨hwords, hstopped⟩ file kept e hb
    cases hb with
    | tooLong hlen ht hr =>
      rw [← hs.writable_iff] at hwords
      exact hwords.resolve_left (ram_eq_error_iff.1 hr).2 _ ht
    | stopped hlen ht hr hstops => exact hstopped _ _ _ _ hlen ht hr hstops
  · simp only [not_forall] at hnot
    obtain ⟨file, kept, e, hb, -⟩ := hnot
    exact ⟨file, kept, e, hb, hb.writeRam_eq⟩

theorem unbroken_text (s : Numeral.Spelling) : Source.Unbroken s.text :=
  Numeral.forall_mem_text (by decide) (by decide) s

def haltSource (s : Numeral.Spelling) : String := "HLT " ++ String.ofList s.text ++ "\n"

theorem lines_haltSource (s : Numeral.Spelling) :
    Source.lines (haltSource s) = [String.ofList ("HLT ".toList ++ s.text)] := by
  have hmnemonic : Source.Unbroken "HLT ".toList := by decide
  have hline : Source.Unbroken ("HLT ".toList ++ s.text) := by
    intro c hc
    rcases List.mem_append.1 hc with h | h
    · exact hmnemonic c h
    · exact unbroken_text s c h
  have hsource : (haltSource s).toList = ("HLT ".toList ++ s.text) ++ '\n' :: [] := by
    simp only [haltSource, String.toList_append, String.toList_ofList]
    rfl
  rw [Source.lines, hsource, Source.splitLines_line hline]
  rfl

theorem sourceImage_haltSource {s : Numeral.Spelling} (h : s.digits.length ≤ maxDigits) :
    sourceImage (haltSource s) = .ok ((10000 + s.value) :: List.replicate 999 0) := by
  have hd : Denotes ("HLT ".toList ++ s.text) (10000 + s.value) := by
    have hfull := Denotes.full .hlt [' '] s [] Source.gap_space h (by simp)
    rwa [List.append_nil] at hfull
  have hword : lineWord (String.ofList ("HLT ".toList ++ s.text)) 0 = .ok (10000 + s.value) := by
    apply lineWord_of_denotes
    rwa [String.toList_ofList]
  rw [sourceImage_eq, lines_haltSource]
  simp only [memorySize, List.take_succ_cons, List.take_nil, encodeLines, hword]
  rfl

theorem ofDigits_replicate_nine (n : Nat) :
    Nat.ofDigits 10 (List.replicate n 9) + 1 = 10 ^ n := by
  induction n with
  | zero => rfl
  | succ n ih =>
    rw [List.replicate_succ, Nat.ofDigits_cons, Nat.pow_succ, ← ih]
    ring

def nines (n : Nat) : Numeral.Spelling := ⟨.absent, List.replicate (n + 1) 9, List.cons_ne_nil _ _⟩

theorem length_nines (n : Nat) : (nines n).digits.length = n + 1 := List.length_replicate

theorem value_nines (n : Nat) : (nines n).value + 1 = (10 ^ (n + 1) : Nat) := by
  have hvalue : (nines n).value = (Nat.ofDigits 10 (List.replicate (n + 1) 9) : Nat) := by
    simp only [Numeral.Spelling.value, nines, List.map_replicate, List.reverse_replicate,
      reduceCtorEq, if_false]
    rfl
  rw [hvalue, ← ofDigits_replicate_nine (n + 1), Nat.cast_succ]

theorem not_writable_of_lt {word : Int} {rest : List Word} (h : (writingBound : Int) ≤ word) :
    ¬ Ram.Writable (word :: rest) := by
  intro hw
  have hword : word.natAbs < writingBound := hw word List.mem_cons_self
  omega

/-- A source is assembled, and writing its image leaves the file there was before empty. -/
theorem writeRam_haltSource_nines :
    let disk := Disk.single "output.ram" (Text.encode "0\n".toList)
    let a := (run fresh disk [.assemble (haltSource (nines 4299))]).1
    a.writeRam disk "output.ram" = (Disk.single "output.ram" [], .error (.digits .writing)) ∧
      ¬ AllOrNothing a disk "output.ram" := by
  intro disk a
  have hmax : maxDigits = 4299 + 1 := rfl
  have hdigits : (nines 4299).digits.length ≤ maxDigits := by
    rw [length_nines, hmax]
  have ha : a.image = (10000 + (nines 4299).value) :: List.replicate 999 0 := by
    have hrun : a = (fresh.assemble (haltSource (nines 4299))).1 := run_assemble ..
    rw [hrun, assemble_eq, sourceImage_haltSource hdigits]
    rfl
  have hlen : a.image.length = memorySize := by
    rw [ha, List.length_cons, List.length_replicate]
    rfl
  have hw : ¬ Ram.Writable a.image := by
    have hvalue : (nines 4299).value + 1 = (writingBound : Int) := by
      rw [value_nines, writingBound_eq, hmax]
    rw [ha]
    apply not_writable_of_lt
    omega
  have ht : disk.target "output.ram" = .ok ["output.ram"] := by decide
  have hb : BreaksOff a disk "output.ram" ["output.ram"] [] (.digits .writing) :=
    .tooLong hlen ht (ram_eq_error_iff.2 ⟨rfl, hw⟩)
  refine ⟨hb.writeRam_eq, fun hall => ?_⟩
  exact absurd (allOrNothing_iff.1 hall _ _ _ hb) (by decide)

end Johnny.Assembler
