import Mathlib.Algebra.GroupWithZero.Nat
import Wilderness.Monster
import Wilderness.Proofs.Rendering
import Wilderness.Proofs.Trace

/-!
# Rolling groups

A throw asks for its dice, whatever the faces, and its value depends on nothing but their sum
(`Throw.trace_roll_iff`).  The only thing that can go wrong is a division by zero, so a monster
without bands of no width always makes a group, and the group has someone in it
(`Monster.rollGroup_yields`).  Throws that are read from their written form have no such bands.
-/

namespace Wilderness

open Rolling

/-- The exact sum of the faces that were handed out. -/
def faceSum (handed : List (UInt32 × UInt32)) : Nat :=
  (handed.map fun throw => throw.2.toNat).sum

/-! ## Throws -/

namespace Throw

theorem trace_sumFaces_iff {ε : Type} {sides : UInt32} {count sum : Nat}
    {handed : List (UInt32 × UInt32)} {outcome : Except ε Nat} :
    Trace (sumFaces sides count sum) handed outcome ↔
      handed.map Prod.fst = List.replicate count sides ∧ outcome = .ok (sum + faceSum handed) := by
  induction count generalizing sum handed with
  | zero =>
    simp only [sumFaces, trace_done_iff, List.replicate_zero, List.map_eq_nil_iff]
    constructor
    · rintro ⟨rfl, rfl⟩; exact ⟨rfl, rfl⟩
    · rintro ⟨rfl, rfl⟩; exact ⟨rfl, rfl⟩
  | succ count ih =>
    simp only [sumFaces, trace_ask_iff, ih, List.replicate_succ]
    constructor
    · rintro ⟨face, rest, rfl, hsides, rfl⟩
      refine ⟨by rw [List.map_cons, hsides], ?_⟩
      simp only [faceSum, List.map_cons, List.sum_cons, Nat.add_assoc]
    · rintro ⟨hsides, rfl⟩
      cases handed with
      | nil => cases hsides
      | cons throw rest =>
        obtain ⟨hfirst, hrest⟩ := List.cons.inj hsides
        refine ⟨throw.2, rest, by rw [← hfirst], hrest, ?_⟩
        simp only [faceSum, List.map_cons, List.sum_cons, Nat.add_assoc]

/-- A throw asks for all its dice and is worth what its scaling and modifier make of their sum. -/
theorem trace_roll_iff {t : Throw} {handed : List (UInt32 × UInt32)}
    {outcome : Except Fault Int} :
    Trace t.roll handed outcome ↔
      handed.map Prod.fst = List.replicate t.count.toNat t.sides ∧
        outcome = t.adjust (saturate (faceSum handed)) := by
  simp only [roll, trace_bind_iff, trace_sumFaces_iff, trace_ofExcept_iff, reduceCtorEq, and_false,
    exists_false, false_or, Except.ok.injEq, Nat.zero_add]
  constructor
  · rintro ⟨_, first, _, rfl, ⟨hsides, rfl⟩, rfl, rfl⟩
    rw [List.append_nil]
    exact ⟨hsides, rfl⟩
  · rintro ⟨hsides, rfl⟩
    exact ⟨_, handed, [], (List.append_nil _).symm, ⟨hsides, rfl⟩, rfl, rfl⟩

theorem trace_rollAtLeast_iff {t : Throw} {floor : Int} {handed : List (UInt32 × UInt32)}
    {outcome : Except Fault Int} :
    Trace (t.rollAtLeast floor) handed outcome ↔
      handed.map Prod.fst = List.replicate t.count.toNat t.sides ∧
        outcome = (t.adjust (saturate (faceSum handed))).map (max · floor) := by
  simp only [rollAtLeast, pure_eq, trace_bind_done_iff, trace_roll_iff]
  constructor
  · rintro ⟨_, ⟨hsides, rfl⟩, rfl⟩; exact ⟨hsides, rfl⟩
  · rintro ⟨hsides, rfl⟩; exact ⟨_, ⟨hsides, rfl⟩, rfl⟩

/-- A throw has a value for every sum, unless it divides by zero. -/
theorem adjust_ok {t : Throw} (h : t.scaling ≠ .bands 0) (sum : Int) :
    ∃ value, t.adjust sum = .ok value := by
  unfold adjust
  split
  · exact ⟨_, rfl⟩
  · cases hscaling : t.scaling with
    | times factor => exact ⟨_, rfl⟩
    | bands width =>
      have hwidth : width ≠ 0 := fun hzero => h (hzero ▸ hscaling)
      rw [Scaling.apply, if_neg hwidth]
      exact ⟨_, rfl⟩

theorem rollAtLeast_yields {t : Throw} (h : t.scaling ≠ .bands 0) (floor : Int) :
    Yields (t.rollAtLeast floor) (floor ≤ ·) := by
  intro handed outcome htrace
  obtain ⟨-, rfl⟩ := trace_rollAtLeast_iff.1 htrace
  obtain ⟨value, hvalue⟩ := adjust_ok h (saturate (faceSum handed))
  rw [hvalue]
  exact ⟨max value floor, rfl, Int.le_max_right value floor⟩

theorem rollAtLeast_of_isConstant {t : Throw} (h : t.isConstant = true) (floor : Int) :
    t.rollAtLeast floor = .done (max t.modifier.toInt floor) := by
  have hcount : t.count = 0 := by simpa [isConstant] using h
  have hsum : (sumFaces t.sides t.count.toNat 0 : Rolling Fault Nat) = .done 0 := by
    rw [hcount]
    rfl
  rw [rollAtLeast, roll, hsum, done_bind, adjust, if_pos h]
  rfl

end Throw

/-! ## Groups -/

namespace Monster

/-- All throws that the statistics are made of. -/
def throws (monster : Monster) : List Throw :=
  monster.number :: match monster.worth with
    | .each _ => []
    | .leader _ entourage retainer => [entourage, retainer]

/-- No throw puts its sums into bands of no width. -/
def NoZeroBands (monster : Monster) : Prop :=
  ∀ t ∈ monster.throws, t.scaling ≠ .bands 0

instance (monster : Monster) : Decidable monster.NoZeroBands :=
  inferInstanceAs (Decidable (∀ t ∈ monster.throws, t.scaling ≠ .bands 0))

theorem noZeroBands_of_expressible {monster : Monster} (h : ∀ t ∈ monster.throws, t.Expressible) :
    monster.NoZeroBands :=
  fun t ht => (h t ht).scaling_ne

theorem expressible_of_ofWritten {name number : String} {hitDice : Float} {worth : UInt32}
    {monster : Monster} (h : ofWritten name number hitDice worth = .ok monster) :
    ∀ t ∈ monster.throws, t.Expressible := by
  obtain ⟨number, hnumber, rfl⟩ := map_eq_ok_iff.1 h
  intro t ht
  obtain rfl : t = number := by simpa [throws, creature] using ht
  exact Throw.expressible_of_parse hnumber

theorem expressible_leader (name : String) (level : UInt32) :
    ∀ t ∈ (leader name level).throws, t.Expressible := by
  have hentourage := Throw.expressible_of_parse parse_usualEntourage
  have hretainer := Throw.expressible_of_parse parse_usualRetainer
  simp only [throws, leader, withEntourage, List.forall_mem_cons]
  exact ⟨.inl rfl, hentourage, hretainer, by simp⟩

/-- A throw below the floor of zero counts as nothing either way. -/
theorem tally_max_zero (value : Int) : tally (max value 0) = tally value := by
  unfold tally
  congr 2
  omega

theorem tally_toNat (count : UInt32) : tally count.toNat = count := by
  have hlt := count.toNat_lt
  rw [← UInt32.toNat_inj, toNat_tally, greatestCount]
  omega

/-- Capped sums of counts are added up to the capped sum. -/
theorem tally_add {total : UInt32} {worth rest : Nat} :
    tally ((tally (total.toNat + worth : Nat)).toNat + rest : Nat) =
      tally (total.toNat + (worth + rest) : Nat) := by
  rw [← UInt32.toNat_inj]
  simp only [toNat_tally, greatestCount]
  omega

theorem one_le_tally {value : Int} (h : 1 ≤ value) : 1 ≤ tally value := by
  have one : (1 : UInt32).toNat = 1 := rfl
  rw [UInt32.le_iff_toNat_le, toNat_tally, one]
  unfold greatestCount
  omega

/-- Retainers whose worth takes no dice are summed up to their product, capped. -/
theorem sumRetainers_of_isConstant {retainer : Throw} (h : retainer.isConstant = true)
    (count : Nat) (total : UInt32) :
    sumRetainers retainer count total =
      .done (tally (total.toNat + count * (tally retainer.modifier.toInt).toNat : Nat)) := by
  induction count generalizing total with
  | zero =>
    rw [Nat.zero_mul, Nat.add_zero, tally_toNat]
    rfl
  | succ count ih =>
    rw [sumRetainers, Throw.rollAtLeast_of_isConstant h, done_bind, tally_max_zero, ih]
    congr 1
    rw [← Int.natCast_add, tally_add, Nat.succ_mul, Nat.add_comm (count * _)]

/-- Multiplied or summed, the worth of an entourage is the same. -/
theorem rollRetainers_eq_sumRetainers (retainer : Throw) (count : Nat) :
    rollRetainers retainer count = sumRetainers retainer count 0 := by
  unfold rollRetainers
  by_cases hconstant : retainer.isConstant = true
  · rw [if_pos hconstant, sumRetainers_of_isConstant hconstant, UInt32.toNat_zero, Nat.zero_add,
      Int.natCast_mul]
  · rw [if_neg hconstant]

theorem sumRetainers_yields {retainer : Throw} (h : retainer.scaling ≠ .bands 0) (count : Nat)
    (total : UInt32) : Yields (sumRetainers retainer count total) fun _ => True := by
  induction count generalizing total with
  | zero => exact .done trivial
  | succ count ih => exact (Throw.rollAtLeast_yields h 0).bind fun _ _ => ih _

/-- A monster without them always makes a group, and the group is not empty. -/
theorem rollGroup_yields {monster : Monster} (h : monster.NoZeroBands) :
    Yields monster.rollGroup fun group => 1 ≤ group.quantity := by
  unfold NoZeroBands throws at h
  unfold rollGroup
  cases hworth : monster.worth with
  | each hitDice =>
    simp only [hworth] at h ⊢
    have hnumber := h monster.number List.mem_cons_self
    exact (Throw.rollAtLeast_yields hnumber 1).bind fun number hfloor =>
      .done (one_le_tally hfloor)
  | leader level entourage retainer =>
    simp only [hworth] at h ⊢
    have hentourage := h entourage (by simp)
    have hretainer := h retainer (by simp)
    refine (Throw.rollAtLeast_yields hentourage 0).bind fun number _ => ?_
    rw [rollRetainers_eq_sumRetainers]
    exact (sumRetainers_yields hretainer _ 0).bind fun worth _ => .done (one_le_tally (by omega))

end Monster

end Wilderness
