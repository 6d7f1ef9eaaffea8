import Johnny.Command.Compile
import Johnny.Disk.Listing
import Johnny.Proofs.Assembler.Write
import Johnny.Proofs.Command.Options
import Johnny.Proofs.Loader.Outcome

namespace Johnny

theorem Source.ofFile_ne_assembly {disk : Disk} {path : String} {errors : List String} :
    ofFile disk path ≠ .error (.assembly errors) := by
  unfold ofFile
  cases disk.read path with
  | error e => simp
  | ok bytes => simp [mapError_eq_error_iff]

/-- Where a loader fails by a fault of the text, that is the first fault of building, and the
warnings are those of the whole text. -/
theorem Loader.of_assembleFile_eq_assembly {l : Loader} {disk : Disk} {path : String}
    {errors : List String} (h : (l.assembleFile disk path).2 = .error (.assembly errors)) :
    ∃ text f, Source.ofFile disk path = .ok text ∧
      Assembler.sourceImage text = .error (.fault f) ∧ errors = [f.message] ∧
      (l.assembleFile disk path).1.warnings = Assembler.sourceWarnings text := by
  unfold assembleFile at h ⊢
  cases hfile : Source.ofFile disk path with
  | error e =>
    rw [hfile] at h
    obtain rfl := Except.error.inj h
    exact absurd hfile Source.ofFile_ne_assembly
  | ok text =>
    rw [hfile] at h
    dsimp only at h ⊢
    rw [assemble_eq] at h ⊢
    obtain ⟨f, hf, he⟩ := (left_eq_assembly_iff ..).1 h
    exact ⟨text, f, rfl, hf, he, by rw [hf]; rfl⟩

theorem Report.unlines_append (front back : List String) :
    unlines (front ++ back) = unlines front ++ unlines back := by
  simp only [unlines, List.map_append, String.join_append]

namespace Compile

open Assembler Options

variable {elapsed : String} {arguments : List String} {disk after : Disk} {o : Options}
  {report : Report} {code : Nat}

theorem assemble_ok_eq (o : Options) (text : String) : assemble o (.ok text) =
    match sourceImage text with
    | .ok image => .ok { image, warnings := sourceWarnings text }
    | .error (.fault f) => .error (.failure 1
        (noteLines "Warning" (sourceWarnings text) ++ noteLines "Error" [f.message]))
    | .error (.digits limit) => .error ⟨"", "", .error (.digits limit)⟩ := by
  simp only [assemble, Assembler.assemble_eq]
  cases sourceImage text with
  | ok image => rfl
  | error e => cases e <;> rfl

theorem code_of_unreadable {path : String} {e : Error}
    (h : (unreadable path e).ending = .ok code) : code = 1 := by
  unfold unreadable at h
  split at h
  · exact (Except.ok.inj h).symm
  · cases h
  · exact (Except.ok.inj h).symm

theorem code_of_conclude_file {a : Assembler} {e : FileError}
    (h : (conclude o elapsed a (.error (.file e))).ending = .ok code) : code = 1 := by
  cases e with
  | nulInPath => cases h
  | _ => exact (Except.ok.inj h).symm

/-- How a run ends that has an image to write: the output cannot be opened, it is opened and stops
short of the text, or it takes all of it. A word that is too long ends the run without an exit
code. -/
theorem conclude_cases {a : Assembler} (hlen : a.image.length = memorySize)
    (h : (conclude o elapsed a (a.writeRam disk o.output).2).ending = .ok code) :
    (code = 1 ∧ (a.writeRam disk o.output).1 = disk ∧ ∃ e, disk.target o.output = .error e) ∨
    (code = 1 ∧ ∃ text, a.ram = .ok text ∧
      disk.CutShort o.output (Text.encode text.toList) (a.writeRam disk o.output).1) ∨
    (code = 0 ∧ ∃ file text, a.ram = .ok text ∧ disk.target o.output = .ok file ∧
      disk.Takes file (Text.encode text.toList) ∧
      a.writeRam disk o.output = (disk.fill file (Text.encode text.toList), .ok ())) := by
  have hw := writing a disk o.output
  generalize a.writeRam disk o.output = outcome at h hw ⊢
  cases hw with
  | noImage hne => exact absurd hlen hne
  | noTarget _ ht => exact .inl ⟨code_of_conclude_file h, rfl, _, ht⟩
  | broken hb =>
    cases hb with
    | tooLong => cases h
    | stopped _ ht hr hs =>
      exact .inr (.inl ⟨code_of_conclude_file h, _, hr, Disk.cutShort_fill ht hs⟩)
  | written _ ht hr hs => exact .inr (.inr ⟨(Except.ok.inj h).symm, _, _, hr, ht, hs, rfl⟩)

theorem run_of_not_recognized (h : ∃ argument ∈ arguments, ¬ Recognized argument) :
    run elapsed arguments disk = (usage, disk) := by
  rw [run, parse?_of_not_recognized h]

theorem run_of_recognized (h : ∀ argument ∈ arguments, Recognized argument) :
    run elapsed arguments disk =
      match assemble (selected arguments) (Source.ofFile disk (selected arguments).input) with
      | .error report => (report, disk)
      | .ok a =>
        (conclude (selected arguments) elapsed a
            (a.writeRam disk (selected arguments).output).2,
          (a.writeRam disk (selected arguments).output).1) := by
  cases ha : assemble (selected arguments) (Source.ofFile disk (selected arguments).input) with
  | error report => simp only [run, parse?_of_recognized h, ha]
  | ok a => simp only [run, parse?_of_recognized h, ha]

theorem noteLines_append (notes : List String) (message : String) :
    noteLines "Warning" notes ++ noteLines "Error" [message] =
      Report.unlines (notes.map ("Warning: " ++ ·) ++ ["Error: " ++ message]) :=
  (Report.unlines_append _ _).symm

theorem stderr_of_assembly_error (l : Loader)
    (h : ∀ argument ∈ arguments, Recognized argument)
    (hrun : run elapsed arguments disk = (report, after)) {errors : List String}
    (herrors : (l.assembleFile disk (selected arguments).input).2 = .error (.assembly errors)) :
    ∃ f : Fault, errors = [f.message] ∧ report.stderr = Report.unlines
      ((l.assembleFile disk (selected arguments).input).1.warnings.map ("Warning: " ++ ·) ++
        ["Error: " ++ f.message]) := by
  obtain ⟨text, f, hfile, hf, he, hwarnings⟩ := Loader.of_assembleFile_eq_assembly herrors
  rw [run_of_recognized h, hfile, assemble_ok_eq, hf] at hrun
  obtain ⟨rfl, -⟩ := Prod.mk.inj hrun
  rw [hwarnings]
  exact ⟨f, he, noteLines_append _ _⟩

/-- What a run comes to that gets as far as an exit code: it is cut short and touches no file, the
output stops short of the image, or the image that a loader has of the same file is written. -/
theorem run_cases (l : Loader) (h : ∀ argument ∈ arguments, Recognized argument)
    (hrun : run elapsed arguments disk = (report, after)) (hcode : report.ending = .ok code) :
    (code = 1 ∧ after = disk ∧
      ((∃ e, (l.assembleFile disk (selected arguments).input).2 = .error e) ∨
        ∃ e, disk.target (selected arguments).output = .error e)) ∨
    (code = 1 ∧ ∃ image text,
      (l.assembleFile disk (selected arguments).input).2 = .ok image ∧
      Ram.render image = .ok text ∧
      disk.CutShort (selected arguments).output (Text.encode text.toList) after) ∨
    (code = 0 ∧ ∃ image text file,
      (l.assembleFile disk (selected arguments).input).2 = .ok image ∧
      Ram.render image = .ok text ∧ disk.target (selected arguments).output = .ok file ∧
      disk.Takes file (Text.encode text.toList) ∧
      after = disk.fill file (Text.encode text.toList) ∧
      report.stderr = noteLines "Warning"
        (l.assembleFile disk (selected arguments).input).1.warnings) := by
  rw [run_of_recognized h] at hrun
  unfold Loader.assembleFile
  cases hfile : Source.ofFile disk (selected arguments).input with
  | error e =>
    rw [hfile] at hrun
    obtain ⟨rfl, rfl⟩ := Prod.mk.inj hrun
    exact .inl ⟨code_of_unreadable hcode, rfl, .inl ⟨e, rfl⟩⟩
  | ok text =>
    rw [hfile, assemble_ok_eq] at hrun
    dsimp only
    rw [Loader.assemble_eq]
    rcases hi : sourceImage text with (f | limit) | image
    · rw [hi] at hrun
      obtain ⟨rfl, rfl⟩ := Prod.mk.inj hrun
      exact .inl ⟨(Except.ok.inj hcode).symm, rfl, .inl ⟨_, rfl⟩⟩
    · -- An operand with too many digits is not handled, so there is no exit code.
      rw [hi] at hrun
      obtain ⟨rfl, -⟩ := Prod.mk.inj hrun
      cases hcode
    · rw [hi] at hrun
      obtain ⟨rfl, rfl⟩ := Prod.mk.inj hrun
      rcases conclude_cases (length_sourceImage hi) hcode with
        ⟨hone, hdisk, htarget⟩ | ⟨hone, page, hr, hcut⟩ |
          ⟨hzero, file, page, hr, htarget, htakes, hwrite⟩
      · exact .inl ⟨hone, hdisk, .inr htarget⟩
      · exact .inr (.inl ⟨hone, image, page, rfl, hr, hcut⟩)
      · refine .inr (.inr ⟨hzero, image, page, file, rfl, hr, htarget, htakes, ?_, ?_⟩)
        · rw [hwrite]
        · rw [hwrite]
          rfl

/-- The exit code tells how far a run got. It is 2 if an argument is no option, and 0 if a loader
assembles the input and the output can be opened and takes the whole text of the image. Then the
image that the loader has of the input before the run is in the output, even where the two are one
file, and no other file has changed. A run with another code changes no file, unless the output
was opened and stopped short of the text: then no file but the output has changed. Standard error
has the warnings of the loader, and behind them the message of a fault of the source. -/
theorem run_agrees_with_loader (l : Loader)
    (hrun : run elapsed arguments disk = (report, after)) (hcode : report.ending = .ok code) :
    let loaded := l.assembleFile disk (selected arguments).input
    let output := (selected arguments).output
    (code = 2 ↔ ∃ argument ∈ arguments, ¬ Recognized argument) ∧
    (code = 0 ↔ (∀ argument ∈ arguments, Recognized argument) ∧
      ∃ image text, loaded.2 = .ok image ∧ Ram.render image = .ok text ∧
        disk.Accepts output (Text.encode text.toList)) ∧
    (code = 0 ∨ code = 1 ∨ code = 2) ∧
    (code = 0 → ∃ image text, loaded.2 = .ok image ∧ Ram.render image = .ok text ∧
      disk.Written output (Text.encode text.toList) after ∧
      report.stderr = Report.unlines (loaded.1.warnings.map ("Warning: " ++ ·))) ∧
    (code = 1 → after = disk ∨ ∃ image text, loaded.2 = .ok image ∧ Ram.render image = .ok text ∧
      disk.CutShort output (Text.encode text.toList) after) ∧
    (code = 2 → after = disk) ∧
    ∀ errors, (∀ argument ∈ arguments, Recognized argument) →
      loaded.2 = .error (.assembly errors) →
      code = 1 ∧ after = disk ∧ ∃ f : Fault, errors = [f.message] ∧ report.stderr =
        Report.unlines (loaded.1.warnings.map ("Warning: " ++ ·) ++ ["Error: " ++ f.message]) := by
  intro loaded output
  by_cases h : ∀ argument ∈ arguments, Recognized argument
  swap
  · have hno : ∃ argument ∈ arguments, ¬ Recognized argument := by
      simpa only [not_forall, exists_prop] using h
    obtain ⟨rfl, rfl⟩ := Prod.mk.inj ((run_of_not_recognized hno).symm.trans hrun)
    obtain rfl : 2 = code := Except.ok.inj hcode
    exact ⟨iff_of_true rfl hno, iff_of_false (by decide) fun hall => h hall.1, .inr (.inr rfl),
      fun hzero => absurd hzero (by decide), fun hone => absurd hone (by decide), fun _ => rfl,
      fun _ hall => absurd hall h⟩
  have hall : ¬ ∃ argument ∈ arguments, ¬ Recognized argument := by
    rintro ⟨argument, hm, hargument⟩
    exact hargument (h argument hm)
  rcases run_cases l h hrun hcode with ⟨rfl, rfl, hfail⟩ | ⟨rfl, image, text, himage, ht, hcut⟩ |
    ⟨rfl, image, text, file, himage, ht, hfile, htakes, rfl, hstderr⟩
  · refine ⟨iff_of_false (by decide) hall, iff_of_false (by decide) ?_, .inr (.inl rfl),
      fun hzero => absurd hzero (by decide), fun _ => .inl rfl, fun _ => rfl,
      fun errors _ herrors => ⟨rfl, rfl, stderr_of_assembly_error l h hrun herrors⟩⟩
    rintro ⟨-, image, text, himage, -, file, hfile, -⟩
    rcases hfail with ⟨e, he⟩ | ⟨e, he⟩
    · cases himage.symm.trans he
    · cases hfile.symm.trans he
  · refine ⟨iff_of_false (by decide) hall, iff_of_false (by decide) ?_, .inr (.inl rfl),
      fun hzero => absurd hzero (by decide), fun _ => .inr ⟨image, text, himage, ht, hcut⟩,
      fun htwo => absurd htwo (by decide), fun errors _ herrors => ?_⟩
    · rintro ⟨-, other, page, hother, hpage, haccepts⟩
      obtain rfl := Except.ok.inj (himage.symm.trans hother)
      obtain rfl := Except.ok.inj (ht.symm.trans hpage)
      exact hcut.not_accepts haccepts
    · cases himage.symm.trans herrors
  · refine ⟨iff_of_false (by decide) hall,
      iff_of_true rfl ⟨h, image, text, himage, ht, file, hfile, htakes⟩, .inl rfl,
      fun _ => ⟨image, text, himage, ht, Disk.written_fill hfile _, hstderr⟩,
      fun hone => absurd hone (by decide), fun htwo => absurd htwo (by decide),
      fun errors _ herrors => ?_⟩
    cases himage.symm.trans herrors

/-- The output is the input, and an earlier option for it does not count. -/
theorem run_agrees_with_loader_same_file :
    let disk := Disk.single "a" (Text.encode "TAKE 5 x\nHLT\n".toList)
    let arguments := ["--output:b", "-i:a", "-o:a"]
    (run "0" arguments disk).1.ending = .ok 0 ∧
      ∃ image text, (Loader.fresh.assembleFile disk "a").2 = .ok image ∧
        Ram.render image = .ok text ∧
        disk.Written "a" (Text.encode text.toList) (run "0" arguments disk).2 ∧
        (run "0" arguments disk).1.stderr = Report.unlines
          ((Loader.fresh.assembleFile disk "a").1.warnings.map ("Warning: " ++ ·)) := by
  intro disk arguments
  have hcode : (run "0" arguments disk).1.ending = .ok 0 := by decide +kernel
  have hselected : selected arguments = ⟨"a", "a"⟩ := by decide
  have hwritten := (run_agrees_with_loader Loader.fresh Prod.mk.eta.symm hcode).2.2.2.1 rfl
  rw [hselected] at hwritten
  exact ⟨hcode, hwritten⟩

theorem run_of_stops {source text : String} {image : Image} {file : Path} {kept : Bytes}
    {e : FileError} (h : ∀ argument ∈ arguments, Recognized argument)
    (hfile : Source.ofFile disk (selected arguments).input = .ok source)
    (hi : sourceImage source = .ok image) (hr : Ram.render image = .ok text)
    (ht : disk.target (selected arguments).output = .ok file)
    (hs : disk.Stops file (Text.encode text.toList) kept e) :
    run elapsed arguments disk =
      (conclude (selected arguments) elapsed { image, warnings := sourceWarnings source }
        (.error (.file e)), disk.fill file kept) := by
  have hb : BreaksOff { image, warnings := sourceWarnings source } disk (selected arguments).output
      file kept (.file e) := .stopped (length_sourceImage hi) ht hr hs
  rw [run_of_recognized h, hfile, assemble_ok_eq, hi]
  dsimp only
  rw [hb.writeRam_eq]

/-- It is not enough that the output can be opened: a device without space ends a run with the
code 1. On a disk without space the output that was there before is lost as well. -/
theorem run_no_space :
    let program := ("program.jasm", Text.encode "HLT\n".toList)
    let image : Image := 10000 :: List.replicate 999 0
    let device := Disk.ofListing [] [program]
    let disk := { Disk.ofListing [] [program, ("output.ram", Text.encode "0\n".toList)] with
      stop := fun _ _ _ => some ⟨0, Disk.noSpace⟩ }
    ((∀ argument ∈ ["-o:/dev/full"], Recognized argument) ∧
      (Loader.fresh.assembleFile device "program.jasm").2 = .ok image ∧
      device.target "/dev/full" = .ok Disk.fullDevice ∧
      (run "N" ["-o:/dev/full"] device).1.ending = .ok 1 ∧
      (run "N" ["-o:/dev/full"] device).1.stderr =
        "Error writing /dev/full: [Errno 28] No space left on device\n") ∧
    (Loader.fresh.assembleFile disk "program.jasm").2 = .ok image ∧
      disk.target "output.ram" = .ok (Disk.workplace ++ ["output.ram"]) ∧
      (run "N" [] disk).1.ending = .ok 1 ∧ ¬ disk.SameFiles (run "N" [] disk).2 := by
  intro program image device disk
  have hi : sourceImage "HLT\n" = .ok image := by decide +kernel
  have hw : Ram.Writable image := by decide +kernel
  have hr := Ram.render_of_writable hw
  have hrecognized : ∀ argument ∈ ["-o:/dev/full"], Recognized argument := by decide
  have htarget : device.target "/dev/full" = .ok Disk.fullDevice := by decide
  have hdevice : device.Stops Disk.fullDevice
      (Text.encode (String.ofList (Ram.page image)).toList) []
      (.denied 28 "No space left on device" none) := by
    rw [String.toList_ofList]
    exact ⟨⟨0, Disk.noSpace⟩, by decide +kernel, rfl, rfl⟩
  have houtput : disk.target "output.ram" = .ok (Disk.workplace ++ ["output.ram"]) := by decide
  have hdisk : disk.Stops (Disk.workplace ++ ["output.ram"])
      (Text.encode (String.ofList (Ram.page image)).toList) []
      (.denied 28 "No space left on device" none) :=
    ⟨⟨0, Disk.noSpace⟩, rfl, rfl, rfl⟩
  have hselected : selected ["-o:/dev/full"] = ⟨"program.jasm", "/dev/full"⟩ := by decide
  have hrunDevice : run "N" ["-o:/dev/full"] device = _ :=
    run_of_stops hrecognized (by decide +kernel) hi hr (hselected ▸ htarget) hdevice
  have hrunDisk : run "N" [] disk = _ :=
    run_of_stops nofun (by decide +kernel) hi hr houtput hdisk
  rw [hrunDevice, hrunDisk]
  refine ⟨⟨hrecognized, by decide +kernel, htarget, rfl, by decide +kernel⟩, by decide +kernel,
    houtput, rfl, ?_⟩
  rw [Disk.sameFiles_fill_iff]
  decide

end Compile

end Johnny
