import Wilderness.Dice.Rolling

/-!
# Scripted faces

A source that replays a list of faces, over and over, and counts what it hands out.
-/

namespace Wilderness

/-- Faces to be handed out in turn, starting again after the last one. -/
structure Script where
  faces : Array UInt32
  /-- How many faces have been handed out; none is counted where none is scripted. -/
  drawn : Nat := 0
deriving DecidableEq, Repr

namespace Script

/-- A script from its beginning. -/
def ofList (faces : List UInt32) : Script where
  faces := faces.toArray

/-- A scripted face put on a die: zero counts as one, and a face beyond the last side goes round to
the first.  A die without sides is taken for one with a single side. -/
def wrap (face sides : UInt32) : UInt32 :=
  (max face 1 - 1) % max sides 1 + 1

/-- The next scripted face.  An empty script always gives a one. -/
def draw (script : Script) (sides : UInt32) : UInt32 × Script :=
  match script.faces[script.drawn % script.faces.size]? with
  | some face => (wrap face sides, { script with drawn := script.drawn + 1 })
  | none => (1, script)

instance : FaceSource Script where
  draw := draw

theorem toNat_max_one (a : UInt32) : (max a 1).toNat = max a.toNat 1 := by
  have one : (1 : UInt32).toNat = 1 := rfl
  change (if a ≤ 1 then 1 else a).toNat = max a.toNat 1
  split
  · next h =>
    rw [UInt32.le_iff_toNat_le, one] at h
    rw [one]
    omega
  · next h =>
    rw [UInt32.le_iff_toNat_le, one] at h
    omega

theorem toNat_wrap (face sides : UInt32) :
    (wrap face sides).toNat = (max face.toNat 1 - 1) % max sides.toNat 1 + 1 := by
  have one : (1 : UInt32).toNat = 1 := rfl
  have face_lt := face.toNat_lt
  have sides_lt := sides.toNat_lt
  have bound : (max face.toNat 1 - 1) % max sides.toNat 1 < max sides.toNat 1 :=
    Nat.mod_lt _ (by omega)
  unfold wrap
  rw [UInt32.toNat_add, UInt32.toNat_mod, UInt32.toNat_sub_of_le, toNat_max_one, toNat_max_one,
    one]
  · omega
  · rw [UInt32.le_iff_toNat_le, toNat_max_one, one]
    omega

/-- A face that is on the die is handed out as it is. -/
theorem wrap_of_mem {face sides : UInt32} (low : 1 ≤ face) (high : face ≤ sides) :
    wrap face sides = face := by
  apply UInt32.toNat_inj.1
  rw [UInt32.le_iff_toNat_le] at low high
  have one : (1 : UInt32).toNat = 1 := rfl
  rw [toNat_wrap, Nat.mod_eq_of_lt] <;> omega

end Script

end Wilderness
