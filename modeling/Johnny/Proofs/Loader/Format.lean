import Johnny.Loader
import Johnny.Proofs.Disk.Write
import Johnny.Proofs.Ram.Lines

namespace Johnny.Loader

open Ram Source Text

variable {disk : Disk} {path text : String}

theorem loadImage_of_ofFile (h : ofFile disk path = .ok text) :
    loadImage disk path = (Ram.read text).mapError .load := by
  simp only [loadImage, h]

theorem loadImage_eq_ok_iff {image : Image} (h : ofFile disk path = .ok text)
    (hl : (lines text).length ≤ memorySize) :
    loadImage disk path = .ok image ↔ ∃ words, List.Forall₂ LineHolds (lines text) words ∧
      words ++ List.replicate (memorySize - words.length) 0 = image := by
  rw [loadImage_of_ofFile h, mapError_eq_ok_iff, read_eq_ok_iff hl]

theorem tooManyLines_message (count : Nat) : (LoadError.tooManyLines count).message =
    "RAM image has " ++ decimal count ++ " lines, expected at most 1000" := by
  have hsize : " lines, expected at most " ++ decimal memorySize =
      " lines, expected at most 1000" := by decide
  calc (LoadError.tooManyLines count).message
      = "RAM image has " ++ decimal count ++ (" lines, expected at most " ++ decimal memorySize) :=
        String.append_assoc
    _ = _ := congrArg ("RAM image has " ++ decimal count ++ ·) hsize

/-- A memory file is read exactly if it has no more lines than memory has words and each line,
without the blanks at its ends, is empty or a number. Then the image has the words of the lines in
order, and zeros behind them. Too many lines are refused whatever they hold, and otherwise the first
line that holds no word is refused. -/
theorem loadImage_format (h : ofFile disk path = .ok text) :
    (memorySize < (lines text).length →
      let error := LoadError.tooManyLines (lines text).length
      loadImage disk path = .error (.load error) ∧ error.message =
        "RAM image has " ++ decimal (lines text).length ++ " lines, expected at most 1000") ∧
    ((lines text).length ≤ memorySize →
      ((∃ image, loadImage disk path = .ok image) ↔
        ∀ line ∈ lines text, ∃ word, LineHolds line word) ∧
      (∀ image, loadImage disk path = .ok image → Loaded (lines text) image) ∧
      (∀ bad ∈ lines text, (∀ word, ¬ LineHolds bad word) →
        ∃ before line core, FirstInvalid (lines text) before line ∧
          Trimmed isBlank line.toList core) ∧
      ∀ before line core, FirstInvalid (lines text) before line →
        Trimmed isBlank line.toList core →
        let error := LoadError.invalidWord (String.ofList core) before.length
        loadImage disk path = .error (.load error) ∧ error.message =
          "Invalid word \"" ++ String.ofList core ++ "\" at address " ++ decimal before.length) := by
  refine ⟨fun hlong => ⟨?_, tooManyLines_message _⟩, fun hl => ⟨?_, ?_, ?_, ?_⟩⟩
  · rw [loadImage_of_ofFile h, read_of_tooManyLines hlong, mapError_error]
  · rw [← exists_words_iff]
    constructor
    · rintro ⟨image, himage⟩
      obtain ⟨words, hwords, -⟩ := (loadImage_eq_ok_iff h hl).1 himage
      exact ⟨words, hwords⟩
    · rintro ⟨words, hwords⟩
      exact ⟨_, (loadImage_eq_ok_iff h hl).2 ⟨words, hwords, rfl⟩⟩
  · intro image himage
    obtain ⟨words, hwords, rfl⟩ := (loadImage_eq_ok_iff h hl).1 himage
    exact loaded_of_words hl hwords
  · intro bad hm hbad
    obtain ⟨before, line, hf⟩ := exists_firstInvalid hm hbad
    exact ⟨before, line, trim isBlank line.toList, hf, trimmed_trim isBlank line.toList⟩
  · intro before line core hf hc
    refine ⟨?_, rfl⟩
    rw [loadImage_of_ofFile h, read_of_firstInvalid hl hf hc, mapError_error]

/-- Signs, single underscores, blanks, an empty line and digits of another script are read; two
underscores in a row are not. -/
theorem loadImage_format_underscores :
    let disk := Disk.single "image" (encode "+1_0\r\n\t-٣ \r\r5__0\x0c\n7".toList)
    let text := "+1_0\n\t-٣ \n\n5__0\x0c\n7"
    ofFile disk "image" = .ok text ∧
      FirstInvalid (lines text) ["+1_0", "\t-٣ ", ""] "5__0\x0c" ∧
      loadImage disk "image" = .error (.load (.invalidWord "5__0" 3)) := by
  intro disk text
  have h : ofFile disk "image" = .ok text := by decide
  have hholds : LineHolds "+1_0" 10 ∧ LineHolds "\t-٣ " (-3) ∧ LineHolds "" 0 := by decide
  have hf : FirstInvalid (lines text) ["+1_0", "\t-٣ ", ""] "5__0\x0c" := by
    refine ⟨⟨["7"], by decide⟩, ?_, not_lineHolds_iff.2 (by decide)⟩
    simp only [List.forall_mem_cons]
    exact ⟨⟨_, hholds.1⟩, ⟨_, hholds.2.1⟩, ⟨_, hholds.2.2⟩, nofun⟩
  obtain ⟨-, -, -, hinvalid⟩ := (loadImage_format h).2 (by decide)
  exact ⟨h, hf, (hinvalid _ _ "5__0".toList hf (by decide)).1⟩

end Johnny.Loader
