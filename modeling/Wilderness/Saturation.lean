/-!
# Capped integers

Totals are kept in two ranges: the signed 64-bit range for the value of a throw, and the unsigned
32-bit range for counts of creatures and their worth.  An exact integer that leaves its range
stops at the nearer end.
-/

namespace Wilderness

/-- The least value of a throw. -/
def leastTotal : Int := -9223372036854775808

/-- The greatest value of a throw. -/
def greatestTotal : Int := 9223372036854775807

/-- The value of a throw nearest to an exact integer. -/
def saturate (value : Int) : Int :=
  max leastTotal (min value greatestTotal)

/-- The greatest count. -/
def greatestCount : Nat := 4294967295

/-- The count nearest to an exact integer. -/
def tally (value : Int) : UInt32 :=
  UInt32.ofNat (min value.toNat greatestCount)

theorem saturate_of_mem {value : Int} (low : leastTotal ≤ value) (high : value ≤ greatestTotal) :
    saturate value = value := by
  unfold saturate
  omega

theorem saturate_le_greatestTotal (value : Int) : saturate value ≤ greatestTotal := by
  unfold saturate leastTotal greatestTotal
  omega

theorem saturate_mono {a b : Int} (h : a ≤ b) : saturate a ≤ saturate b := by
  unfold saturate
  omega

theorem toNat_tally (value : Int) : (tally value).toNat = min value.toNat greatestCount := by
  unfold tally greatestCount
  rw [UInt32.toNat_ofNat']
  omega

end Wilderness
