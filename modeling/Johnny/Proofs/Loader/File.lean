import Johnny.Loader
import Johnny.Proofs.Disk.Write
import Johnny.Proofs.Source.Document

namespace Johnny

theorem Assembler.assemble_of_lines_eq (a : Assembler) {source other : String}
    (h : Source.lines source = Source.lines other) : a.assemble source = a.assemble other := by
  unfold assemble
  rw [h]

namespace Loader

open Source Text

theorem assemble_of_lines_eq (l : Loader) {source other : String}
    (h : lines source = lines other) : l.assemble source = l.assemble other := by
  unfold assemble
  rw [Assembler.assemble_of_lines_eq Assembler.fresh h]

/-- The bytes of a file that holds a text, with or without a mark in front. A text that starts
with the character of the mark needs one. -/
inductive FileOf (source : String) : Bytes → Prop where
  | plain (h : source.toList.head? ≠ some '\uFEFF') : FileOf source (encode source.toList)
  | marked : FileOf source (mark ++ encode source.toList)

theorem ofBytes_of_fileOf {source : String} {bytes : Bytes} (h : FileOf source bytes) :
    ofBytes bytes = .ok (String.ofList (unifyBreaks source.toList)) := by
  cases h with
  | plain hs => exact ofBytes_encode hs
  | marked => exact ofBytes_mark_encode source.toList

/-- Assembling a file is assembling the text in it: the ends of line of the text are not those
that are read, but they divide it at the same places. -/
theorem assembleFile_eq_assemble (l : Loader) {disk : Disk} {path source : String} {bytes : Bytes}
    (hr : disk.read path = .ok bytes) (hb : FileOf source bytes) :
    l.assembleFile disk path = l.assemble source := by
  have hfile : ofFile disk path = .ok (String.ofList (unifyBreaks source.toList)) := by
    simp only [ofFile, hr, ofBytes_of_fileOf hb, mapError_ok]
  rw [assembleFile, hfile]
  exact l.assemble_of_lines_eq (lines_unifyBreaks source)

/-- A file with a mark, in which CR LF, CR and LF end lines. -/
theorem assembleFile_marked :
    let source := "\r\nTAKE 5 x\r\rADD 3\n"
    let disk := Disk.single "source" (mark ++ encode source.toList)
    disk.read "source" = .ok (mark ++ encode source.toList) ∧
      FileOf source (mark ++ encode source.toList) ∧
      fresh.assembleFile disk "source" = fresh.assemble source ∧
      (fresh.assemble source).2.toOption.map (·.take 5) = some [0, 1005, 0, 2003, 0] := by
  intro source disk
  have hr : disk.read "source" = .ok (mark ++ encode source.toList) := by decide
  exact ⟨hr, .marked, assembleFile_eq_assemble fresh hr .marked, by decide⟩

end Loader

end Johnny
