import Johnny.Loader
import Johnny.Proofs.Assembler.Write
import Johnny.Proofs.Source.Document

namespace Johnny

namespace Loader

theorem ofBytes_page (words : List Word) :
    Source.ofBytes (Text.encode (Ram.page words)) = .ok (String.ofList (Ram.page words)) := by
  have hmark : (Ram.page words).head? ≠ some '\uFEFF' := by
    intro h
    exact Ram.forall_mem_page (p := (· ≠ '\uFEFF')) (by decide) (by decide) (by decide) words _
      (List.mem_of_mem_head? h) rfl
  have hcr : '\r' ∉ Ram.page words := fun h =>
    Ram.forall_mem_page (p := (· ≠ '\r')) (by decide) (by decide) (by decide) words _ h rfl
  rw [Source.ofBytes_encode hmark, Source.unifyBreaks_eq_self hcr]

theorem loadImage_of_read {disk : Disk} {path text : String} {words : List Word}
    (hl : words.length ≤ memorySize) (ht : Ram.render words = .ok text)
    (hd : disk.read path = .ok (Text.encode text.toList)) :
    loadImage disk path = .ok (words ++ List.replicate (memorySize - words.length) 0) := by
  obtain ⟨hw, rfl⟩ := Ram.render_eq_ok_iff.1 ht
  rw [String.toList_ofList] at hd
  have hfile : Source.ofFile disk path = .ok (String.ofList (Ram.page words)) := by
    simp only [Source.ofFile, hd, ofBytes_page, mapError_ok]
  simp only [loadImage, hfile, Ram.read_page hl hw, mapError_ok]

theorem loadImage_of_read_full {disk : Disk} {path text : String} {image : Image}
    (hl : image.length = memorySize) (ht : Ram.render image = .ok text)
    (hd : disk.read path = .ok (Text.encode text.toList)) :
    loadImage disk path = .ok image := by
  rw [loadImage_of_read (Nat.le_of_eq hl) ht hd, hl, Nat.sub_self, List.replicate_zero,
    List.append_nil]

theorem read_of_loadImage {disk : Disk} {path : String} {image : Image}
    (h : loadImage disk path = .ok image) : ∃ text, Ram.read text = .ok image := by
  unfold loadImage at h
  split at h
  · cases h
  · rename_i text hfile
    exact ⟨text, mapError_eq_ok_iff.1 h⟩

/-- Memory images survive the way through a file. What is written is read again, with zeros up to
the size of the memory; and what is read, however it is spelled, can be written and is read again
as it was. -/
theorem loadImage_render :
    (∀ words : List Word, words.length ≤ memorySize → (∀ w ∈ words, w.natAbs < 10 ^ maxDigits) →
      ∃ text, Ram.render words = .ok text ∧ ∀ (disk : Disk) (path : String),
        disk.read path = .ok (Text.encode text.toList) →
        loadImage disk path = .ok (words ++ List.replicate (memorySize - words.length) 0)) ∧
    (∀ (a : Assembler) (disk written : Disk) (path : String),
      a.writeRam disk path = (written, .ok ()) → loadImage written path = .ok a.image) ∧
    (∀ (disk : Disk) (path : String) (image : Image), loadImage disk path = .ok image →
      ∃ text, Ram.render image = .ok text ∧ ∀ (other : Disk) (place : String),
        other.read place = .ok (Text.encode text.toList) →
        loadImage other place = .ok image) := by
  refine ⟨?_, ?_, ?_⟩
  · intro words hl hw
    rw [← writingBound_eq] at hw
    have ht := Ram.render_of_writable hw
    exact ⟨_, ht, fun disk path hd => loadImage_of_read hl ht hd⟩
  · intro a disk written path h
    cases Assembler.writing_of_eq h with
    | written hl hfile hr hs => exact loadImage_of_read_full hl hr (Disk.read_fill hfile _)
  · intro disk path image h
    obtain ⟨source, hr⟩ := read_of_loadImage h
    obtain ⟨hl, hw⟩ := Ram.of_read hr
    have ht := Ram.render_of_writable hw
    exact ⟨_, ht, fun other place hd => loadImage_of_read_full hl ht hd⟩

/-- A file with two words, the image of which is those words and zeros. -/
theorem loadImage_render_two :
    Ram.render [10, -3] = .ok "10\n-3\n" ∧
      loadImage (Disk.single "image" (Text.encode "10\n-3\n".toList)) "image" =
        .ok ([10, -3] ++ List.replicate 998 0) := by
  have hw : ∀ w ∈ ([10, -3] : List Word), w.natAbs < 10 ^ maxDigits := by
    intro w hm
    have hcases : w = 10 ∨ w = -3 := by simpa using hm
    have hsmall : w.natAbs < 10 ^ 2 := by rcases hcases with h | h <;> rw [h] <;> decide
    exact Nat.lt_of_lt_of_le hsmall (Nat.pow_le_pow_right (by decide) (by decide))
  obtain ⟨text, ht, hload⟩ := loadImage_render.1 [10, -3] (by decide) hw
  obtain ⟨-, rfl⟩ := Ram.render_eq_ok_iff.1 ht
  have hpage : String.ofList (Ram.page [10, -3]) = "10\n-3\n" := by decide
  rw [hpage] at ht hload
  exact ⟨ht, hload _ "image" (by decide)⟩

/-- Words are read with signs, underscores and blanks, and in the digits of any script. -/
example : (loadImage (Disk.single "image" (Text.encode "+1_0\r\n\t-٣\n".toList))
    "image").toOption.map (·.take 3) = some [10, -3, 0] := by
  decide

end Loader

end Johnny
