import Mathlib.Tactic.ByContra
import Wilderness.Proofs.Tiling

/-!
# Looking up a roll

The rows of a table are searched by halving.  Two places enclose the first row that does not end
below the roll (`Encloses`), each step keeps that (`Encloses.halve`), and there are steps enough for
the places to meet.  So the search finds what a scan of the rows from the front finds
(`RollTable.select?_eq_find?`): a value for every roll of the die and for no other roll
(`RollTable.lookup_of_mem`, `RollTable.lookup_of_not_mem`).
-/

namespace Wilderness

variable {α : Type}

/-! ## Halving -/

/-- All rows before `low` end below the roll, and none of the rows from `high` on does. -/
structure Encloses (rows : Array (Row α)) (roll : UInt32) (low high : Nat) : Prop where
  le : low ≤ high
  high_le : high ≤ rows.size
  below : ∀ (i : Nat) (h : i < rows.size), i < low → rows[i].high < roll
  above : ∀ (i : Nat) (h : i < rows.size), high ≤ i → ¬rows[i].high < roll

/-- The rows end in ascending order. -/
def EndsAscend (rows : Array (Row α)) : Prop :=
  ∀ (i j : Nat) (hi : i < rows.size) (hj : j < rows.size), i < j → rows[i].high < rows[j].high

/-- With as many steps as there are places left, the two places meet. -/
theorem Encloses.halve {rows : Array (Row α)} {roll : UInt32} (ascend : EndsAscend rows) :
    ∀ {steps low high : Nat}, Encloses rows roll low high → high - low ≤ steps →
      Encloses rows roll (Wilderness.halve rows roll steps low high)
        (Wilderness.halve rows roll steps low high) := by
  intro steps
  induction steps with
  | zero =>
    intro low high h hsteps
    have hmet : high = low := by have := h.le; omega
    exact hmet ▸ h
  | succ steps ih =>
    intro low high h hsteps
    simp only [Wilderness.halve]
    split
    · rename_i hlt
      have hmiddle : (low + high) / 2 < rows.size := by have := h.high_le; omega
      rw [Array.getElem?_eq_getElem hmiddle]
      simp only
      split
      · rename_i hbelow
        refine ih ⟨by omega, h.high_le, fun i hi hlow => ?_, h.above⟩ (by omega)
        rcases Nat.lt_or_eq_of_le (Nat.le_of_lt_succ hlow) with hlow | rfl
        · exact UInt32.lt_trans (ascend i _ hi hmiddle hlow) hbelow
        · exact hbelow
      · rename_i habove
        refine ih ⟨by omega, by omega, h.below, fun i hi hhigh => ?_⟩ (by omega)
        rcases Nat.lt_or_eq_of_le hhigh with hhigh | rfl
        · exact fun hlt => habove (UInt32.lt_trans (ascend _ i hmiddle hi hhigh) hlt)
        · exact habove
    · have hmet : high = low := by have := h.le; omega
      exact hmet ▸ h

/-- The partition point parts the rows that end below the roll from the others. -/
theorem encloses_partitionPoint {rows : Array (Row α)} (ascend : EndsAscend rows)
    (roll : UInt32) :
    Encloses rows roll (partitionPoint rows roll) (partitionPoint rows roll) :=
  Encloses.halve ascend
    ⟨Nat.zero_le _, Nat.le_refl _, fun _ _ h => absurd h (Nat.not_lt_zero _),
      fun _ hi h => absurd hi (Nat.not_lt_of_le h)⟩
    (Nat.sub_le _ _)

/-! ## Rows of a table -/

namespace RollTable

variable (table : RollTable α)

/-- A row lies on the die. -/
theorem row_mem {row : Row α} (h : row ∈ table.rows) :
    1 ≤ row.low ∧ row.low ≤ row.high ∧ row.high ≤ table.die.sides := by
  have one : (1 : UInt32).toNat = 1 := rfl
  simpa only [UInt32.le_iff_toNat_le, one] using table.tiled.within row h

/-- A roll in a row is a roll of the die. -/
theorem roll_mem {row : Row α} (h : row ∈ table.rows) {roll : UInt32}
    (hcontains : row.contains roll = true) : 1 ≤ roll ∧ roll ≤ table.die.sides := by
  obtain ⟨hlow, -, hhigh⟩ := table.row_mem h
  obtain ⟨hfrom, hto⟩ := (Row.contains_iff row roll).1 hcontains
  rw [← UInt32.le_iff_toNat_le] at hfrom hto
  exact ⟨UInt32.le_trans hlow hfrom, UInt32.le_trans hto hhigh⟩

/-- A row ends before any later row begins. -/
theorem high_lt_low {i j : Nat} (hi : i < table.rows.length) (hj : j < table.rows.length)
    (hij : i < j) : table.rows[i].high < table.rows[j].low :=
  List.pairwise_iff_getElem.1 table.tiled.pairwise i j hi hj hij

theorem endsAscend : EndsAscend table.rows.toArray := by
  intro i j hi hj hij
  simp only [List.getElem_toArray]
  rw [List.size_toArray] at hi hj
  exact UInt32.lt_of_lt_of_le (table.high_lt_low hi hj hij)
    (table.row_mem (List.getElem_mem hj)).2.1

/-- The row that a roll selects, found by halving. -/
def select? (roll : UInt32) : Option (Row α) :=
  let rows := table.rows.toArray
  rows[partitionPoint rows roll]?.filter (·.contains roll)

theorem lookup?_eq_map_select? (roll : UInt32) :
    table.lookup? roll = (table.select? roll).map Row.value :=
  rfl

/-- **Halving finds what a scan finds.** -/
theorem select?_eq_find? (roll : UInt32) :
    table.select? roll = table.rows.find? (·.contains roll) := by
  obtain ⟨-, -, below, above⟩ := encloses_partitionPoint table.endsAscend roll
  simp only [select?]
  generalize partitionPoint table.rows.toArray roll = point at below above
  simp only [List.size_toArray, List.getElem_toArray, List.getElem?_toArray] at below above ⊢
  -- a row before the point ends below the roll
  have hbefore : ∀ (i : Nat) (hi : i < table.rows.length), i < point →
      ¬table.rows[i].contains roll = true := by
    intro i hi hlt hcontains
    have := below i hi hlt
    rw [Row.contains_iff] at hcontains
    rw [UInt32.lt_iff_toNat_lt] at this
    omega
  by_cases hpoint : point < table.rows.length
  · rw [List.getElem?_eq_getElem hpoint]
    by_cases hcontains : table.rows[point].contains roll = true
    · have hfound : table.rows.find? (·.contains roll) = some table.rows[point] :=
        List.find?_eq_some_iff_getElem.2 ⟨hcontains, point, hpoint, rfl,
          fun i hi => by simpa using hbefore i (Nat.lt_trans hi hpoint) hi⟩
      simp only [hfound, Option.filter, hcontains, ↓reduceIte]
    · -- the row at the point begins above the roll, and so do all later ones
      have hnone : table.rows.find? (·.contains roll) = none := by
        refine List.find?_eq_none.2 fun row hrow hrolled => ?_
        obtain ⟨i, hi, rfl⟩ := List.getElem_of_mem hrow
        have hends := above point hpoint (Nat.le_refl _)
        rw [UInt32.lt_iff_toNat_lt] at hends
        rw [Row.contains_iff] at hcontains hrolled
        rcases Nat.lt_trichotomy i point with hlt | rfl | hgt
        · exact hbefore i hi hlt ((Row.contains_iff _ _).2 hrolled)
        · exact hcontains hrolled
        · have := UInt32.lt_iff_toNat_lt.1 (table.high_lt_low hpoint hi hgt)
          omega
      simp only [hnone, Option.filter, hcontains, Bool.false_eq_true, ↓reduceIte]
  · have hnone : table.rows.find? (·.contains roll) = none := by
      refine List.find?_eq_none.2 fun row hrow => ?_
      obtain ⟨i, hi, rfl⟩ := List.getElem_of_mem hrow
      exact hbefore i hi (by omega)
    rw [hnone, List.getElem?_eq_none (Nat.le_of_not_lt hpoint)]
    rfl

theorem lookup?_eq_find? (roll : UInt32) :
    table.lookup? roll = (table.rows.find? (·.contains roll)).map Row.value := by
  rw [lookup?_eq_map_select?, select?_eq_find?]

/-- A roll of the die leads to the value of a row that contains it. -/
theorem lookup_of_mem {roll : UInt32} (low : 1 ≤ roll) (high : roll ≤ table.die.sides) :
    ∃ row ∈ table.rows, row.contains roll = true ∧ table.lookup roll = .ok row.value := by
  have hone : table.rows.countP (·.contains roll) = 1 := by
    rw [table.tiled.countP_contains, if_pos]
    exact ⟨UInt32.le_iff_toNat_le.1 low, UInt32.le_iff_toNat_le.1 high⟩
  obtain ⟨row, hrow, hcontains⟩ := List.countP_pos_iff.1 (hone ▸ Nat.one_pos)
  obtain ⟨found, hfound⟩ := Option.isSome_iff_exists.1
    ((List.find?_isSome (p := (·.contains roll))).2 ⟨row, hrow, hcontains⟩)
  obtain ⟨hrolled, -⟩ := List.find?_eq_some_iff_getElem.1 hfound
  refine ⟨found, List.mem_of_find?_eq_some hfound, hrolled, ?_⟩
  rw [lookup, lookup?_eq_find?, hfound]
  rfl

/-- A roll that is not on the die is a miss. -/
theorem lookup_of_not_mem {roll : UInt32} (h : ¬(1 ≤ roll ∧ roll ≤ table.die.sides)) :
    table.lookup roll = .error ⟨table.name, roll⟩ := by
  have hnone : table.rows.find? (·.contains roll) = none :=
    List.find?_eq_none.2 fun row hrow hcontains => h (table.roll_mem hrow hcontains)
  rw [lookup, lookup?_eq_find?, hnone]
  rfl

end RollTable

end Wilderness
