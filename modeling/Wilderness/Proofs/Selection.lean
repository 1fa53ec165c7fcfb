import Mathlib.Data.Set.Card
import Mathlib.Order.Interval.Finset.Nat
import Wilderness.Proofs.Lookup

/-!
# The rolls of a row

A row is selected by the rolls of its range and by no others (`RollTable.select?_eq_some_iff`), so
as many faces of the die select it as its range is wide (`RollTable.ncard_select`), and the widths
of all rows add up to the sides (`Tiles.sum_width`).  `RollTable.ofRows_selects` says this of the
rows that a table was built from, in whatever order they were given.
-/

namespace Wilderness

variable {α : Type}

/-! ## Ranges -/

theorem ncard_faces {low high : Nat} (small : high < UInt32.size) :
    {face : UInt32 | low ≤ face.toNat ∧ face.toNat ≤ high}.ncard = high + 1 - low := by
  have himage : UInt32.toNat '' {face : UInt32 | low ≤ face.toNat ∧ face.toNat ≤ high} =
      Finset.Icc low high := by
    ext n
    simp only [Set.mem_image, Set.mem_ofPred_eq, Finset.coe_Icc, Set.mem_Icc]
    constructor
    · rintro ⟨face, hface, rfl⟩
      exact hface
    · intro hn
      have hface : (UInt32.ofNat n).toNat = n :=
        UInt32.toNat_ofNat_of_lt' (Nat.lt_of_le_of_lt hn.2 small)
      exact ⟨UInt32.ofNat n, by rwa [hface], hface⟩
  rw [← Set.ncard_image_of_injective _ (fun _ _ => UInt32.toNat_inj.1), himage,
    Set.ncard_coe_finset, Nat.card_Icc]

/-- The number of rolls in the range of a row. -/
def Row.width (row : Row α) : Nat :=
  row.high.toNat - row.low.toNat + 1

/-- The widths of a tiling fill the space between its ends. -/
theorem Tiles.sum_width {first last : Nat} {rows : List (Row α)} (h : Tiles first rows last) :
    first + (rows.map Row.width).sum = last + 1 := by
  induction rows generalizing first with
  | nil => exact h
  | cons row rows ih =>
    obtain ⟨hlow, hle, hrest⟩ := h
    have hsum := ih hrest
    rw [UInt32.le_iff_toNat_le] at hle
    simp only [List.map_cons, List.sum_cons, Row.width] at hsum ⊢
    omega

/-! ## Rows and their rolls -/

namespace RollTable

variable (table : RollTable α)

theorem filter_contains {roll : UInt32} (h : 1 ≤ roll ∧ roll ≤ table.die.sides) :
    ∃ row, table.rows.filter (·.contains roll) = [row] := by
  have hone := table.covers.once roll h.1 h.2
  rw [List.countP_eq_length_filter] at hone
  exact List.length_eq_one_iff.1 hone

theorem select?_eq_some_iff {roll : UInt32} {row : Row α} :
    table.select? roll = some row ↔ row ∈ table.rows ∧ row.contains roll = true := by
  rw [select?_eq_find?]
  constructor
  · intro h
    have hcontains := List.find?_some h
    exact ⟨List.mem_of_find?_eq_some h, hcontains⟩
  · rintro ⟨hrow, hcontains⟩
    obtain ⟨only, honly⟩ := table.filter_contains (table.roll_mem hrow hcontains)
    have hmem : row ∈ [only] := honly ▸ List.mem_filter.2 ⟨hrow, hcontains⟩
    rw [← List.head?_filter, honly, List.mem_singleton.1 hmem]
    rfl

/-- Every row is selected by the first roll of its range. -/
theorem select?_low {row : Row α} (h : row ∈ table.rows) : table.select? row.low = some row := by
  have hle := UInt32.le_iff_toNat_le.1 (table.row_mem h).2.1
  exact table.select?_eq_some_iff.2 ⟨h, (Row.contains_iff row row.low).2 ⟨Nat.le_refl _, hle⟩⟩

theorem ncard_select {row : Row α} (h : row ∈ table.rows) :
    {face | 1 ≤ face ∧ face ≤ table.die.sides ∧ table.select? face = some row}.ncard =
      row.width := by
  have hrange : {face | 1 ≤ face ∧ face ≤ table.die.sides ∧ table.select? face = some row} =
      {face | row.low.toNat ≤ face.toNat ∧ face.toNat ≤ row.high.toNat} := by
    ext face
    simp only [Set.mem_ofPred_eq, select?_eq_some_iff, ← Row.contains_iff]
    constructor
    · rintro ⟨-, -, -, hcontains⟩
      exact hcontains
    · intro hcontains
      obtain ⟨hlow, hhigh⟩ := table.roll_mem h hcontains
      exact ⟨hlow, hhigh, h, hcontains⟩
  have hle := UInt32.le_iff_toNat_le.1 (table.row_mem h).2.1
  rw [hrange, ncard_faces row.high.toNat_lt, Row.width]
  omega

theorem lookup_eq_elim (roll : UInt32) :
    table.lookup roll =
      (table.select? roll).elim (.error ⟨table.name, roll⟩) fun row => .ok row.value := by
  rw [lookup, lookup?_eq_map_select?]
  cases table.select? roll with
  | none => rfl
  | some row => rfl

theorem lookup_eq_error_iff {roll : UInt32} {miss : OffTable} :
    table.lookup roll = .error miss ↔
      (roll = 0 ∨ table.die.sides < roll) ∧ miss = ⟨table.name, roll⟩ := by
  have hoff : (roll = 0 ∨ table.die.sides < roll) ↔ ¬(1 ≤ roll ∧ roll ≤ table.die.sides) := by
    have one : (1 : UInt32).toNat = 1 := rfl
    have zero : (0 : UInt32).toNat = 0 := rfl
    rw [← UInt32.toNat_inj, UInt32.lt_iff_toNat_lt, UInt32.le_iff_toNat_le,
      UInt32.le_iff_toNat_le, one, zero]
    omega
  rw [hoff]
  constructor
  · intro h
    by_cases hdie : 1 ≤ roll ∧ roll ≤ table.die.sides
    · obtain ⟨row, -, -, hrow⟩ := table.lookup_of_mem hdie.1 hdie.2
      rw [hrow] at h
      cases h
    · rw [table.lookup_of_not_mem hdie] at h
      cases h
      exact ⟨hdie, rfl⟩
  · rintro ⟨hdie, rfl⟩
    exact table.lookup_of_not_mem hdie

/-- **What the rolls of a die select.**  The rows are those that the table was built from. -/
theorem ofRows_selects {name : String} {die : Die} {rows : List (Row α)} {table : RollTable α}
    (built : ofRows name die rows = .ok table) :
    -- halving agrees with a scan of the table
    (∀ roll, table.select? roll = table.rows.find? (·.contains roll) ∧
      table.lookup roll =
        (table.select? roll).elim (.error ⟨name, roll⟩) fun row => .ok row.value) ∧
    -- a roll of the die leads to the one row that contains it, and any other roll is a miss
    (∀ roll, 1 ≤ roll → roll ≤ die.sides → ∃ row,
      rows.filter (·.contains roll) = [row] ∧ table.lookup roll = .ok row.value) ∧
    (∀ roll miss, table.lookup roll = .error miss ↔
      (roll = 0 ∨ die.sides < roll) ∧ miss = ⟨name, roll⟩) ∧
    -- the faces of the die are shared out among the rows by their widths
    (∀ row ∈ rows,
      {face | 1 ≤ face ∧ face ≤ die.sides ∧ table.select? face = some row}.ncard = row.width) ∧
    (rows.map Row.width).sum = die.sides.toNat ∧
    ∀ row ∈ rows, ∃ face, 1 ≤ face ∧ face ≤ die.sides ∧ table.select? face = some row := by
  have hperm := rows_perm_of_ofRows built
  obtain ⟨rfl, rfl, -⟩ := ofRows_eq_ok_iff.1 built
  refine ⟨fun roll => ⟨table.select?_eq_find? roll, table.lookup_eq_elim roll⟩,
    fun roll low high => ?_, fun roll miss => table.lookup_eq_error_iff,
    fun row hrow => table.ncard_select (hperm.mem_iff.2 hrow), ?_, fun row hrow => ?_⟩
  · obtain ⟨row, hrow⟩ := table.filter_contains ⟨low, high⟩
    have hgiven := hperm.filter (·.contains roll)
    rw [hrow] at hgiven
    have hselect : table.select? roll = some row := by
      rw [select?_eq_find?, ← List.head?_filter, hrow]
      rfl
    refine ⟨row, (List.singleton_perm.1 hgiven).symm, ?_⟩
    rw [table.lookup_eq_elim, hselect]
    rfl
  · have hsum := table.tiled.sum_width
    rw [(hperm.map Row.width).sum_nat] at hsum
    exact Nat.add_left_cancel (hsum.trans (Nat.add_comm _ _))
  · have hrow := hperm.mem_iff.2 hrow
    obtain ⟨hlow, hle, hhigh⟩ := table.row_mem hrow
    exact ⟨row.low, hlow, UInt32.le_trans hle hhigh, table.select?_low hrow⟩

theorem ofRows_selects_giants :
    let rows : List (Row String) := [⟨7, 9, "Fire"⟩, ⟨10, 10, "Cloud"⟩, ⟨1, 6, "Hill"⟩]
    ∃ table, ofRows "Giant" .d10 rows = .ok table ∧ table.lookup 8 = .ok "Fire" ∧
      table.lookup 11 = .error ⟨"Giant", 11⟩ ∧
      {face | 1 ≤ face ∧ face ≤ 10 ∧ table.select? face = some ⟨1, 6, "Hill"⟩}.ncard = 6 := by
  intro rows
  let table : RollTable String :=
    .ofTiles "Giant" .d10 [(1, 6, "Hill"), (7, 9, "Fire"), (10, 10, "Cloud")]
  have built : ofRows "Giant" .d10 rows = .ok table := by rfl
  obtain ⟨-, hlookup, hmiss, hwidth, -, -⟩ := ofRows_selects built
  obtain ⟨row, hfilter, hrow⟩ := hlookup 8 (by decide) (by decide)
  obtain rfl : ⟨7, 9, "Fire"⟩ = row := (List.cons.inj hfilter).1
  exact ⟨table, built, hrow, (hmiss 11 _).2 ⟨.inr (by decide), rfl⟩,
    hwidth ⟨1, 6, "Hill"⟩ (by simp [rows])⟩

end RollTable

end Wilderness
