import Johnny.Proofs.Assembler.Write

namespace Johnny.Assembler

open Image

/-- There is a failure if and only if there is an error, which is its message; and then there is
no image. -/
def Diagnosed (a : Assembler) : Prop :=
  (a.failure = none ∧ a.errors = []) ∨
    ∃ f : Fault, a.failure = some f ∧ a.errors = [f.message] ∧ a.image = []

theorem diagnosed_assemble (a : Assembler) (source : String) : Diagnosed (a.assemble source).1 := by
  rw [assemble_eq]
  rcases sourceImage source with (f | limit) | image
  · exact .inr ⟨f, rfl, rfl, rfl⟩
  · exact .inl ⟨rfl, rfl⟩
  · exact .inl ⟨rfl, rfl⟩

theorem Sourced.length_eq {a : Assembler} (h : Sourced a) :
    a.image.length = 0 ∨ a.image.length = memorySize := by
  rcases h with h | ⟨source, h⟩
  · exact .inl (List.length_eq_zero_iff.2 h)
  · exact .inr (length_sourceImage h)

section

variable (disk : Disk) {steps before since : List Step} {source : String}

end

end Johnny.Assembler
