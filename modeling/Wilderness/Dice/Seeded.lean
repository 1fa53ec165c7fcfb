import Wilderness.Dice.Rolling
import Wilderness.Dice.Keystream

/-!
# Random faces

A source of faces that are as good as uniform and are the same whenever the seed is the same.
`draw_mem` says that every face is on the die.
-/

namespace Wilderness

/-- Faces from a keystream. -/
structure Seeded where
  stream : Keystream

namespace Seeded

/-- The source of a seed. -/
def ofSeed (seed : UInt64) : Seeded where
  stream := .ofSeed seed

/-- The number of different words. -/
def wordCount : Nat := 4294967296

/-- A face by multiplication: a word is taken for a fraction of all words, and the whole part of
that fraction of the sides is the face.  Where the part behind the point is so large that more
places of the fraction could change the whole part, one more word gives them. -/
def draw (source : Seeded) (sides : UInt32) : UInt32 × Seeded :=
  let range := max sides.toNat 1
  let (word, stream) := source.stream.next
  let product := word.toNat * range
  let low := product % wordCount
  if wordCount - range < low then
    let (places, stream) := stream.next
    let carried := (low + places.toNat * range / wordCount) / wordCount
    (UInt32.ofNat (product / wordCount + carried + 1), ⟨stream⟩)
  else
    (UInt32.ofNat (product / wordCount + 1), ⟨stream⟩)

instance : FaceSource Seeded where
  draw := draw

/-- A word times a number of sides, with the carry of another such product, stays below that many
sides. -/
theorem scaled_lt {word places range : Nat} (pos : 0 < range) (hword : word < wordCount)
    (hplaces : places < wordCount) :
    word * range / wordCount + (word * range % wordCount + places * range / wordCount) / wordCount <
      range := by
  have carry : places * range < wordCount * range := Nat.mul_lt_mul_of_pos_right hplaces pos
  have whole : word * range ≤ (wordCount - 1) * range :=
    Nat.mul_le_mul_right range (Nat.le_sub_one_of_lt hword)
  simp only [wordCount] at *
  generalize word * range = product at *
  generalize places * range = rest at *
  omega

/-- Every face is on the die. -/
theorem draw_mem (source : Seeded) (sides : UInt32) :
    1 ≤ (source.draw sides).1.toNat ∧ (source.draw sides).1.toNat ≤ max sides.toNat 1 := by
  have pos : 0 < max sides.toNat 1 := by omega
  have small := sides.toNat_lt
  have toNat_face : ∀ n : Nat, n < max sides.toNat 1 → (UInt32.ofNat (n + 1)).toNat = n + 1 := by
    intro n hn
    rw [UInt32.toNat_ofNat']
    omega
  unfold draw
  simp only
  split
  · have lt := scaled_lt pos source.stream.next.1.toNat_lt source.stream.next.2.next.1.toNat_lt
    rw [toNat_face _ lt]
    exact ⟨Nat.le_add_left _ _, lt⟩
  · have lt := scaled_lt pos source.stream.next.1.toNat_lt (show 0 < wordCount by decide)
    have lt := Nat.lt_of_le_of_lt (Nat.le_add_right _ _) lt
    rw [toNat_face _ lt]
    exact ⟨Nat.le_add_left _ _, lt⟩

end Seeded

end Wilderness
