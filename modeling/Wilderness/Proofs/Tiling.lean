import Mathlib.Tactic.ByContra
import Wilderness.Table.RollTable

/-!
# Rows that cover a die

`RollTable.ofRows` sorts the rows and sweeps them once, with nothing but the next roll in hand.
What the sweep accepts is a condition on the rows as they were given, in whatever order: every roll
of the die is in exactly one of them and no row leaves the die (`Covers`).  A tiling counts every
roll once (`Tiles.countP_contains`), and sorted rows that count every roll once are a tiling
(`tiles_of_once`).  `ofRows_accepts` is the main statement.
-/

namespace Wilderness

variable {α : Type}

/-- The rows, in any order, give every roll of the die exactly one row and stay on the die. -/
structure Covers (die : Die) (rows : List (Row α)) : Prop where
  sides_pos : 1 ≤ die.sides
  within : ∀ row ∈ rows, 1 ≤ row.low ∧ row.low ≤ row.high ∧ row.high ≤ die.sides
  once : ∀ roll, 1 ≤ roll → roll ≤ die.sides → rows.countP (·.contains roll) = 1

theorem Row.contains_iff (row : Row α) (roll : UInt32) :
    row.contains roll = true ↔
      row.low.toNat ≤ roll.toNat ∧ roll.toNat ≤ row.high.toNat := by
  simp only [Row.contains, Bool.and_eq_true, decide_eq_true_eq, UInt32.le_iff_toNat_le]

theorem Covers.perm {die : Die} {rows other : List (Row α)} (h : Covers die rows)
    (hp : other.Perm rows) : Covers die other where
  sides_pos := h.sides_pos
  within := fun row hrow => h.within row (hp.mem_iff.1 hrow)
  once := fun roll hlow hhigh => by rw [hp.countP_eq]; exact h.once roll hlow hhigh

/-! ## Sorting -/

theorem insertRow_perm (row : Row α) (rows : List (Row α)) :
    (insertRow row rows).Perm (row :: rows) := by
  induction rows with
  | nil => exact List.Perm.refl _
  | cons next rows ih =>
    simp only [insertRow]
    split
    · exact List.Perm.refl _
    · exact (ih.cons next).trans (List.Perm.swap row next rows)

theorem sortRows_perm (rows : List (Row α)) : (sortRows rows).Perm rows := by
  induction rows with
  | nil => exact List.Perm.refl _
  | cons row rows ih => exact (insertRow_perm row (sortRows rows)).trans (ih.cons row)

theorem insertRow_sorted (row : Row α) {rows : List (Row α)}
    (h : rows.Pairwise fun a b => a.low ≤ b.low) :
    (insertRow row rows).Pairwise fun a b => a.low ≤ b.low := by
  induction rows with
  | nil => simp [insertRow]
  | cons next rows ih =>
    obtain ⟨hnext, hrows⟩ := List.pairwise_cons.1 h
    simp only [insertRow]
    split
    · rename_i hle
      refine List.pairwise_cons.2 ⟨?_, h⟩
      intro other hother
      rcases List.mem_cons.1 hother with rfl | hother
      · exact hle
      · exact UInt32.le_trans hle (hnext other hother)
    · rename_i hlt
      refine List.pairwise_cons.2 ⟨?_, ih hrows⟩
      intro other hother
      rcases List.mem_cons.1 ((insertRow_perm row rows).mem_iff.1 hother) with rfl | hother
      · exact UInt32.le_of_lt (UInt32.not_le.1 hlt)
      · exact hnext other hother

theorem sortRows_sorted (rows : List (Row α)) :
    (sortRows rows).Pairwise fun a b => a.low ≤ b.low := by
  induction rows with
  | nil => exact List.Pairwise.nil
  | cons row rows ih => exact insertRow_sorted row ih

/-! ## What a tiling says of its rows -/

namespace Tiles

variable {first last : Nat} {rows : List (Row α)}

theorem within (h : Tiles first rows last) :
    ∀ row ∈ rows, first ≤ row.low.toNat ∧ row.low.toNat ≤ row.high.toNat ∧
      row.high.toNat ≤ last := by
  induction rows generalizing first with
  | nil => intro row hrow; cases hrow
  | cons next rows ih =>
    obtain ⟨hlow, hle, hrest⟩ := h
    rw [UInt32.le_iff_toNat_le] at hle
    have hfirst := hrest.first_le
    intro row hrow
    rcases List.mem_cons.1 hrow with rfl | hrow
    · omega
    · have := ih hrest row hrow
      omega

/-- Each row of a tiling ends before the next one begins. -/
theorem pairwise (h : Tiles first rows last) : rows.Pairwise fun a b => a.high < b.low := by
  induction rows generalizing first with
  | nil => exact List.Pairwise.nil
  | cons row rows ih =>
    refine List.pairwise_cons.2 ⟨fun other hother => ?_, ih h.2.2⟩
    have := h.2.2.within other hother
    rw [UInt32.lt_iff_toNat_lt]
    omega

/-- A tiling has one row for every roll between its ends and none for the others. -/
theorem countP_contains (h : Tiles first rows last) (roll : UInt32) :
    rows.countP (·.contains roll) =
      if first ≤ roll.toNat ∧ roll.toNat ≤ last then 1 else 0 := by
  induction rows generalizing first with
  | nil =>
    have hend : first = last + 1 := h
    rw [List.countP_nil, if_neg (by omega)]
  | cons row rows ih =>
    obtain ⟨hlow, hle, hrest⟩ := h
    rw [UInt32.le_iff_toNat_le] at hle
    have hfirst := hrest.first_le
    simp only [List.countP_cons, ih hrest, Row.contains_iff]
    split <;> split <;> split <;> omega

end Tiles

/-! ## Rows that count every roll once -/

/-- Sorted rows between two ends, of which every roll between the ends has exactly one, are a
tiling. -/
theorem tiles_of_once {first last : Nat} {rows : List (Row α)}
    (sorted : rows.Pairwise fun a b => a.low ≤ b.low)
    (within : ∀ row ∈ rows, first ≤ row.low.toNat ∧ row.low.toNat ≤ row.high.toNat ∧
      row.high.toNat ≤ last)
    (once : ∀ roll : UInt32, first ≤ roll.toNat → roll.toNat ≤ last →
      rows.countP (·.contains roll) = 1)
    (le : first ≤ last + 1) (small : last < UInt32.size) : Tiles first rows last := by
  induction rows generalizing first with
  | nil =>
    -- a roll at `first` would have no row
    by_contra hne
    have hlt : first ≤ last := by simp only [Tiles] at hne; omega
    have hroll : (UInt32.ofNat first).toNat = first :=
      UInt32.toNat_ofNat_of_lt' (Nat.lt_of_le_of_lt hlt small)
    have := once (UInt32.ofNat first) (by omega) (by omega)
    simp at this
  | cons row rows ih =>
    obtain ⟨hleast, hsorted⟩ := List.pairwise_cons.1 sorted
    obtain ⟨hfirst, hrange, hlast⟩ := within row List.mem_cons_self
    -- the one row of the roll `first` begins there, and no row begins before `row`
    have hlow : row.low.toNat = first := by
      have hroll : (UInt32.ofNat first).toNat = first :=
        UInt32.toNat_ofNat_of_lt' (by omega)
      have hone := once (UInt32.ofNat first) (by omega) (by omega)
      obtain ⟨found, hmem, hfound⟩ := List.countP_pos_iff.1 (hone ▸ Nat.one_pos)
      rw [Row.contains_iff, hroll] at hfound
      rcases List.mem_cons.1 hmem with rfl | hmem
      · omega
      · have := UInt32.le_iff_toNat_le.1 (hleast found hmem)
        omega
    -- a later row that began within `row` would be a second one for its first roll
    have hafter : ∀ other ∈ rows, row.high.toNat + 1 ≤ other.low.toNat := by
      intro other hother
      by_contra hwithin
      obtain ⟨hother1, hother2, hother3⟩ := within other (List.mem_cons_of_mem row hother)
      have hone := once other.low hother1 (by omega)
      have hrow : row.contains other.low = true :=
        (row.contains_iff _).2 ⟨by omega, by omega⟩
      have hsecond : 0 < rows.countP (·.contains other.low) :=
        List.countP_pos_iff.2 ⟨other, hother, (other.contains_iff _).2 ⟨Nat.le_refl _, hother2⟩⟩
      simp only [List.countP_cons, hrow, ↓reduceIte] at hone
      omega
    refine ⟨hlow, UInt32.le_iff_toNat_le.2 hrange, ih hsorted ?_ ?_ (by omega)⟩
    · intro other hother
      obtain ⟨-, hother2, hother3⟩ := within other (List.mem_cons_of_mem row hother)
      exact ⟨hafter other hother, hother2, hother3⟩
    · intro roll hroll1 hroll2
      have hone := once roll (by omega) hroll2
      have hnot : ¬row.contains roll = true := by rw [Row.contains_iff]; omega
      simpa only [List.countP_cons, hnot, Bool.false_eq_true, ↓reduceIte, Nat.add_zero] using hone

/-- The sorted rows tile the die exactly if the rows, as they were given, cover it. -/
theorem tiles_sortRows_iff {die : Die} (sides_pos : 1 ≤ die.sides) (rows : List (Row α)) :
    Tiles 1 (sortRows rows) die.sides.toNat ↔ Covers die rows := by
  have one : (1 : UInt32).toNat = 1 := rfl
  constructor
  · intro h
    refine Covers.perm ⟨sides_pos, fun row hrow => ?_, fun roll hlow hhigh => ?_⟩
      (sortRows_perm rows).symm
    · simpa only [UInt32.le_iff_toNat_le, one] using h.within row hrow
    · rw [UInt32.le_iff_toNat_le] at hlow hhigh
      rw [h.countP_contains, if_pos ⟨hlow, hhigh⟩]
  · intro h
    have hs := h.perm (sortRows_perm rows)
    apply tiles_of_once (sortRows_sorted rows)
    · intro row hrow
      simpa only [UInt32.le_iff_toNat_le, one] using hs.within row hrow
    · intro roll hlow hhigh
      exact hs.once roll (UInt32.le_iff_toNat_le.2 hlow) (UInt32.le_iff_toNat_le.2 hhigh)
    · omega
    · exact die.sides.toNat_lt

/-! ## Building a table -/

namespace RollTable

/-- A table is what is built from some rows exactly if it has the name, the die and, in order, the
rows. -/
theorem ofRows_eq_ok_iff {name : String} {die : Die} {rows : List (Row α)}
    {table : RollTable α} :
    ofRows name die rows = .ok table ↔
      table.name = name ∧ table.die = die ∧ table.rows = sortRows rows := by
  constructor
  · intro h
    unfold ofRows at h
    split at h
    · cases h
    · split at h
      · cases h
      · cases h
        exact ⟨rfl, rfl, rfl⟩
  · intro h
    obtain ⟨rfl, rfl, hrows⟩ := h
    have hswept : sweep table.die 1 (sortRows rows) = none := by
      rw [← hrows]
      exact (sweep_eq_none_iff table.die _ Nat.one_pos (by omega)).2 table.tiled
    unfold ofRows
    rw [dif_neg (UInt32.pos_iff_ne_zero.1 table.sides_pos)]
    split
    · rename_i defect hdefect
      rw [hdefect] at hswept
      cases hswept
    · cases table
      cases hrows
      rfl

/-- Rows that cover the die build a table. -/
theorem ofRows_of_covers (name : String) {die : Die} {rows : List (Row α)}
    (h : Covers die rows) : ∃ table, ofRows name die rows = .ok table :=
  ⟨⟨name, die, sortRows rows, UInt32.lt_of_lt_of_le (by decide) h.sides_pos,
    (tiles_sortRows_iff h.sides_pos rows).2 h⟩, ofRows_eq_ok_iff.2 ⟨rfl, rfl, rfl⟩⟩

/-- The rows of a table that was built are the given ones. -/
theorem rows_perm_of_ofRows {name : String} {die : Die} {rows : List (Row α)}
    {table : RollTable α} (h : ofRows name die rows = .ok table) : table.rows.Perm rows :=
  (ofRows_eq_ok_iff.1 h).2.2 ▸ sortRows_perm rows

theorem covers_of_ofRows {name : String} {die : Die} {rows : List (Row α)}
    {table : RollTable α} (h : ofRows name die rows = .ok table) : Covers die rows := by
  obtain ⟨-, rfl, hrows⟩ := ofRows_eq_ok_iff.1 h
  exact (tiles_sortRows_iff (UInt32.le_iff_toNat_le.2 table.sides_pos) rows).1
    (hrows ▸ table.tiled)

/-- Tables of one name and die are equal if their rows agree up to order. -/
theorem eq_of_perm {table other : RollTable α} (hname : table.name = other.name)
    (hdie : table.die = other.die) (hp : table.rows.Perm other.rows) : table = other := by
  have hrows : table.rows = other.rows := by
    refine List.Perm.eq_of_pairwise (fun a b ha hb hab hba => ?_) table.tiled.pairwise
      other.tiled.pairwise hp
    have hrange := other.tiled.within b hb
    have hrange' := table.tiled.within a ha
    rw [UInt32.lt_iff_toNat_lt] at hab hba
    omega
  cases table
  cases other
  cases hname
  cases hdie
  cases hrows
  rfl

/-- The rows of a table cover its die. -/
theorem covers (table : RollTable α) : Covers table.die table.rows where
  sides_pos := UInt32.le_iff_toNat_le.2 table.sides_pos
  within := fun row hrow => by
    obtain ⟨hlow, hle, hhigh⟩ := table.tiled.within row hrow
    exact ⟨UInt32.le_iff_toNat_le.2 hlow, UInt32.le_iff_toNat_le.2 hle,
      UInt32.le_iff_toNat_le.2 hhigh⟩
  once := fun roll hlow hhigh => by
    rw [UInt32.le_iff_toNat_le] at hlow hhigh
    rw [table.tiled.countP_contains, if_pos ⟨hlow, hhigh⟩]

/-- A table is what its own rows build. -/
theorem ofRows_self (table : RollTable α) : ofRows table.name table.die table.rows = .ok table := by
  obtain ⟨other, h⟩ := ofRows_of_covers table.name table.covers
  obtain ⟨hname, hdie, -⟩ := ofRows_eq_ok_iff.1 h
  rw [h, eq_of_perm hname hdie (rows_perm_of_ofRows h)]

/-- **What is accepted.** Rows build a table exactly if they cover the die.  The table keeps the
name and the die and has the given rows in ascending order, so it is the same table in whatever
order they are given. -/
theorem ofRows_accepts (name : String) (die : Die) (rows : List (Row α)) :
    ((∃ table, ofRows name die rows = .ok table) ↔ Covers die rows) ∧
      ∀ table, ofRows name die rows = .ok table →
        table.name = name ∧ table.die = die ∧ table.rows.Perm rows ∧
          (table.rows.Pairwise fun a b => a.high < b.low) ∧
          ∀ other : List (Row α), other.Perm rows → ofRows name die other = .ok table := by
  refine ⟨⟨fun ⟨table, h⟩ => covers_of_ofRows h, ofRows_of_covers name⟩, fun table h => ?_⟩
  have hrows := rows_perm_of_ofRows h
  obtain ⟨hname, hdie, -⟩ := ofRows_eq_ok_iff.1 h
  refine ⟨hname, hdie, hrows, table.tiled.pairwise, fun other hp => ?_⟩
  obtain ⟨table', h'⟩ := ofRows_of_covers name ((covers_of_ofRows h).perm hp)
  obtain ⟨hname', hdie', -⟩ := ofRows_eq_ok_iff.1 h'
  have hsame : table' = table :=
    eq_of_perm (hname'.trans hname.symm) (hdie'.trans hdie.symm)
      (((rows_perm_of_ofRows h').trans hp).trans hrows.symm)
  rw [h', hsame]

end RollTable

end Wilderness
