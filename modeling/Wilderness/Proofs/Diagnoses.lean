import Wilderness.Proofs.Numerals
import Wilderness.Proofs.Tiling

/-!
# What is said of refused rows

Rows that do not tile their die are refused with the first defect that the sweep meets.  Up to there
the sorted rows do tile (`exists_stops`), and from this it follows that the defect is one of the
rows as they were given (`RollTable.ofRows_eq_error`).  There is one exception: behind rows that
cover the whole die the sweep may look for a roll that is not on the die any more, and miss it
(`RollTable.ofRows_pond`).
-/

namespace Wilderness

open Text

variable {α : Type}

/-! ## Defects of rows -/

/-- What the defect says is true of the rows. -/
inductive Diagnosis (die : Die) (rows : List (Row α)) : Defect → Prop
  | noSides : die.sides = 0 → Diagnosis die rows .noSides
  | emptyRange {row : Row α} : row ∈ rows → row.high < row.low →
      Diagnosis die rows (.emptyRange row.low row.high)
  | startsAtZero {row : Row α} : row ∈ rows → row.low = 0 → Diagnosis die rows .startsAtZero
  | overlap {row other : Row α} {others : List (Row α)} {face : UInt32} :
      rows.Perm (row :: other :: others) → 1 ≤ face → face ≤ die.sides →
      row.contains face = true → other.contains face = true →
      Diagnosis die rows (.overlap row.low row.high)
  | uncovered {roll : Nat} : 1 ≤ roll → roll ≤ die.sides.toNat →
      (∀ row ∈ rows, roll < row.low.toNat ∨ row.high.toNat < roll) →
      Diagnosis die rows (.uncovered roll)
  | exceeds {row : Row α} : row ∈ rows → die.sides < row.high →
      Diagnosis die rows (.exceeds row.low row.high die)

/-- The roll behind the last face is missed, as no row has it but a row beyond it is there.  Every
face of the die has its row. -/
inductive Misdiagnosis (die : Die) (rows : List (Row α)) : Defect → Prop
  | behindLast {row : Row α} :
      (∀ face, 1 ≤ face → face ≤ die.sides → rows.countP (·.contains face) = 1) →
      row ∈ rows → row.low ≤ row.high → die.sides.toNat + 1 < row.low.toNat →
      Misdiagnosis die rows (.uncovered (die.sides.toNat + 1))

theorem Diagnosis.perm {die : Die} {rows other : List (Row α)} {defect : Defect}
    (h : Diagnosis die rows defect) (hp : rows.Perm other) : Diagnosis die other defect := by
  cases h with
  | noSides hsides => exact .noSides hsides
  | emptyRange hrow hempty => exact .emptyRange (hp.mem_iff.1 hrow) hempty
  | startsAtZero hrow hzero => exact .startsAtZero (hp.mem_iff.1 hrow) hzero
  | overlap hrows hlow hhigh hface hother =>
    exact .overlap (hp.symm.trans hrows) hlow hhigh hface hother
  | uncovered hlow hhigh hmiss =>
    exact .uncovered hlow hhigh fun row hrow => hmiss row (hp.mem_iff.2 hrow)
  | exceeds hrow hbeyond => exact .exceeds (hp.mem_iff.1 hrow) hbeyond

theorem Misdiagnosis.perm {die : Die} {rows other : List (Row α)} {defect : Defect}
    (h : Misdiagnosis die rows defect) (hp : rows.Perm other) : Misdiagnosis die other defect := by
  cases h with
  | behindLast honce hrow hrange hbeyond =>
    refine .behindLast (fun face hlow hhigh => ?_) (hp.mem_iff.1 hrow) hrange hbeyond
    rw [← hp.countP_eq]
    exact honce face hlow hhigh

/-! ## Where the sweep stops -/

/-- Why a sweep stops at these rows, if those before them cover all rolls up to the last one. -/
inductive Stops (die : Die) (last : Nat) : List (Row α) → Defect → Prop
  | emptyRange {row : Row α} {rows : List (Row α)} : row.high < row.low →
      Stops die last (row :: rows) (.emptyRange row.low row.high)
  | startsAtZero {row : Row α} {rows : List (Row α)} : row.low = 0 →
      Stops die last (row :: rows) .startsAtZero
  | overlap {row : Row α} {rows : List (Row α)} : row.low ≤ row.high → 0 < row.low →
      row.low.toNat ≤ last → Stops die last (row :: rows) (.overlap row.low row.high)
  | gap {row : Row α} {rows : List (Row α)} : row.low ≤ row.high → last + 1 < row.low.toNat →
      Stops die last (row :: rows) (.uncovered (last + 1))
  | exceeds {row : Row α} {rows : List (Row α)} : die.sides < row.high →
      Stops die last (row :: rows) (.exceeds row.low row.high die)
  | short : last < die.sides.toNat → Stops die last [] (.uncovered (last + 1))

theorem exists_stops {die : Die} {last : Nat} {rows : List (Row α)} {defect : Defect}
    (h : sweep die (last + 1) rows = some defect) (le : last ≤ die.sides.toNat) :
    ∃ before after reach, rows = before ++ after ∧ Tiles (last + 1) before reach ∧
      reach ≤ die.sides.toNat ∧ Stops die reach after defect := by
  induction rows generalizing last with
  | nil =>
    simp only [sweep] at h
    split at h
    · next hshort =>
      obtain rfl := Option.some.inj h
      exact ⟨[], [], last, rfl, rfl, le, .short hshort⟩
    · cases h
  | cons row rows ih =>
    -- at every check the sweep stops here, with no row before it, or goes on to the next check
    have stop : Stops die last (row :: rows) defect → ∃ before after reach,
        row :: rows = before ++ after ∧ Tiles (last + 1) before reach ∧
          reach ≤ die.sides.toNat ∧ Stops die reach after defect :=
      fun hstops => ⟨[], row :: rows, last, rfl, rfl, le, hstops⟩
    rw [sweep] at h
    by_cases hempty : row.high < row.low
    · rw [if_pos hempty] at h
      exact stop (Option.some.inj h ▸ .emptyRange hempty)
    have hrange := UInt32.not_lt.1 hempty
    rw [if_neg hempty] at h
    by_cases hzero : row.low = 0
    · rw [if_pos hzero] at h
      exact stop (Option.some.inj h ▸ .startsAtZero hzero)
    rw [if_neg hzero] at h
    by_cases hwithin : row.low.toNat < last + 1
    · rw [if_pos hwithin] at h
      exact stop (Option.some.inj h ▸ .overlap hrange (UInt32.pos_iff_ne_zero.2 hzero)
        (Nat.le_of_lt_succ hwithin))
    rw [if_neg hwithin] at h
    by_cases hgap : last + 1 < row.low.toNat
    · rw [if_pos hgap] at h
      exact stop (Option.some.inj h ▸ .gap hrange hgap)
    rw [if_neg hgap] at h
    by_cases hbeyond : die.sides < row.high
    · rw [if_pos hbeyond] at h
      exact stop (Option.some.inj h ▸ .exceeds hbeyond)
    rw [if_neg hbeyond] at h
    obtain ⟨before, after, reach, rfl, htiles, hreach, hstops⟩ :=
      ih h (UInt32.le_iff_toNat_le.1 (UInt32.not_lt.1 hbeyond))
    exact ⟨row :: before, after, reach, rfl, ⟨by omega, hrange, htiles⟩, hreach, hstops⟩

section Stopped

variable {die : Die} {before after : List (Row α)} {reach : Nat}

/-- Every roll of a tiling is in one of its rows. -/
theorem Tiles.exists_contains {first last : Nat} {rows : List (Row α)} (h : Tiles first rows last)
    {roll : UInt32} (hlow : first ≤ roll.toNat) (hhigh : roll.toNat ≤ last) :
    ∃ row ∈ rows, row.contains roll = true := by
  have hone := h.countP_contains roll
  rw [if_pos ⟨hlow, hhigh⟩] at hone
  exact List.countP_pos_iff.1 (hone ▸ Nat.one_pos)

/-- Sorted rows begin no lower than the first of them. -/
theorem lt_low_of_sorted {row : Row α} {rows : List (Row α)} {roll : Nat}
    (sorted : (row :: rows).Pairwise fun a b => a.low ≤ b.low) (hrow : roll < row.low.toNat) :
    ∀ other ∈ row :: rows, roll < other.low.toNat := by
  intro other hother
  rcases List.mem_cons.1 hother with rfl | hother
  · exact hrow
  · have hle := UInt32.le_iff_toNat_le.1 ((List.pairwise_cons.1 sorted).1 other hother)
    omega

theorem diagnosis_of_stops {defect : Defect} (htiles : Tiles 1 before reach)
    (hreach : reach ≤ die.sides.toNat) (sorted : after.Pairwise fun a b => a.low ≤ b.low)
    (h : Stops die reach after defect) :
    Diagnosis die (before ++ after) defect ∨ Misdiagnosis die (before ++ after) defect := by
  cases h with
  | emptyRange hempty => exact .inl (.emptyRange (by simp) hempty)
  | startsAtZero hzero => exact .inl (.startsAtZero (by simp) hzero)
  | exceeds hbeyond => exact .inl (.exceeds (by simp) hbeyond)
  | @overlap row rows hrange hpos hwithin =>
    have hone : 1 ≤ row.low.toNat := UInt32.lt_iff_toNat_lt.1 hpos
    have hrow : row.contains row.low = true :=
      (row.contains_iff _).2 ⟨Nat.le_refl _, UInt32.le_iff_toNat_le.1 hrange⟩
    obtain ⟨other, hmem, hother⟩ := htiles.exists_contains hone hwithin
    obtain ⟨front, back, rfl⟩ := List.append_of_mem hmem
    have hperm : (front ++ other :: back ++ row :: rows).Perm
        (row :: other :: (front ++ back ++ rows)) :=
      List.perm_middle.trans ((List.perm_middle.append_right rows).cons row)
    exact .inl (.overlap hperm (UInt32.le_iff_toNat_le.2 hone)
      (UInt32.le_iff_toNat_le.2 (Nat.le_trans hwithin hreach)) hrow hother)
  | @gap row rows hrange hgap =>
    have hbehind := lt_low_of_sorted sorted hgap
    rcases Nat.lt_or_eq_of_le hreach with hshort | rfl
    · refine .inl (.uncovered (Nat.succ_pos _) hshort fun other hother => ?_)
      rcases List.mem_append.1 hother with hother | hother
      · exact .inr (Nat.lt_succ_of_le (htiles.within other hother).2.2)
      · exact .inl (hbehind other hother)
    · refine .inr (.behindLast (fun face hlow hhigh => ?_) (by simp) hrange hgap)
      rw [UInt32.le_iff_toNat_le] at hlow hhigh
      have hnone : (row :: rows).countP (·.contains face) = 0 := by
        refine List.countP_eq_zero.2 fun other hother hface => ?_
        have hlt := hbehind other hother
        have hle := (other.contains_iff face).1 hface
        omega
      rw [List.countP_append, htiles.countP_contains, if_pos ⟨hlow, hhigh⟩, hnone]
  | short hshort =>
    refine .inl (.uncovered (Nat.succ_pos _) hshort fun row hrow => ?_)
    rw [List.append_nil] at hrow
    exact .inr (Nat.lt_succ_of_le (htiles.within row hrow).2.2)

end Stopped

/-! ## Wording -/

theorem repr_inj {m n : Nat} (h : m.repr.toList = n.repr.toList) : m = n :=
  Option.some.inj ((natural?_repr m).symm.trans (h ▸ natural?_repr n))

theorem word_repr_inj {a b : UInt32} (h : a.toNat.repr.toList = b.toNat.repr.toList) : a = b :=
  UInt32.toNat_inj.1 (repr_inj h)

/-- Two numbers with a mark between them that is no digit. -/
theorem rangeText_inj {low high low' high' : UInt32}
    (h : low.toNat.repr.toList ++ '-' :: high.toNat.repr.toList =
      low'.toNat.repr.toList ++ '-' :: high'.toNat.repr.toList) : low = low' ∧ high = high' := by
  have hends : ∀ word : UInt32, EndsRun Char.isDigit ('-' :: word.toNat.repr.toList) :=
    fun word => endsRun_cons (by decide)
  obtain ⟨hlow, hrest⟩ := cut_eq_iff.2 ⟨h, (numeral_repr low'.toNat).isDigit, hends high'⟩
  obtain ⟨hlow', hrest'⟩ := cut_eq_iff.2 ⟨rfl, (numeral_repr low.toNat).isDigit, hends high⟩
  rw [hlow'] at hlow
  rw [hrest'] at hrest
  exact ⟨word_repr_inj hlow, word_repr_inj (List.cons.inj hrest).2⟩

/-- A single number is no label of two. -/
theorem repr_ne_rangeText {word low high : UInt32} :
    word.toNat.repr.toList ≠ low.toNat.repr.toList ++ '-' :: high.toNat.repr.toList := by
  intro h
  have hdigit := (numeral_repr word.toNat).isDigit '-' (by rw [h]; simp)
  cases hdigit

theorem rangeLabel_inj {low high low' high' : UInt32}
    (h : rangeLabel low high = rangeLabel low' high') : low = low' ∧ high = high' := by
  have htwo : ∀ a b : UInt32, (a.toNat.repr ++ "-" ++ b.toNat.repr).toList =
      a.toNat.repr.toList ++ '-' :: b.toNat.repr.toList := by simp
  rw [← String.toList_inj] at h
  unfold rangeLabel at h
  by_cases hsame : low = high
  · by_cases hsame' : low' = high'
    · rw [if_pos hsame, if_pos hsame'] at h
      obtain rfl := word_repr_inj h
      exact ⟨rfl, hsame.symm.trans hsame'⟩
    · rw [if_pos hsame, if_neg hsame', htwo] at h
      exact absurd h repr_ne_rangeText
  · by_cases hsame' : low' = high'
    · rw [if_neg hsame, if_pos hsame', htwo] at h
      exact absurd h.symm repr_ne_rangeText
    · rw [if_neg hsame, if_neg hsame', htwo, htwo] at h
      exact rangeText_inj h

theorem getLast?_repr (n : Nat) : ∃ d, n.repr.toList.getLast? = some d ∧ d.isDigit = true := by
  cases hlast : n.repr.toList.getLast? with
  | none => exact absurd (List.getLast?_eq_none_iff.1 hlast) (numeral_repr n).ne_nil
  | some d => exact ⟨d, rfl, (numeral_repr n).isDigit d (List.mem_of_getLast? hlast)⟩

namespace Defect

/-- The defects that rows can have on their die. -/
inductive OfRows (die : Die) : Defect → Prop
  | noSides : OfRows die .noSides
  | emptyRange (low high : UInt32) : OfRows die (.emptyRange low high)
  | startsAtZero : OfRows die .startsAtZero
  | overlap (low high : UInt32) : OfRows die (.overlap low high)
  | uncovered (roll : Nat) : OfRows die (.uncovered roll)
  | exceeds (low high : UInt32) : OfRows die (.exceeds low high die)

/-- Only one of the two ends with a digit. -/
theorem reason_overlap_ne_exceeds {low high low' high' : UInt32} {die : Die} :
    (overlap low high).reason ≠ (exceeds low' high' die).reason := by
  intro h
  obtain ⟨d, hlast, hdigit⟩ := getLast?_repr die.sides.toNat
  have hsame := congrArg (fun text => text.toList.getLast?) h
  unfold reason at hsame
  simp only [Die.render, String.toList_append, String.reduceToList, List.getLast?_append, hlast,
    Option.some_or] at hsame
  obtain rfl : 'w' = d := Option.some.inj hsame
  cases hdigit

/-- Defects of rows are told apart by their wording. -/
theorem OfRows.eq_of_reason {die : Die} {a b : Defect} (ha : a.OfRows die) (hb : b.OfRows die)
    (h : a.reason = b.reason) : a = b := by
  have htext := String.toList_inj.2 h
  unfold reason at htext
  -- the first two letters tell most of them apart
  cases ha <;> cases hb <;> simp only [Die.render, String.toList_append,
    String.reduceToList, List.cons_append, List.nil_append, List.append_assoc, List.cons.injEq,
    Char.reduceEq, false_and, true_and, reduceCtorEq] at htext
  case noSides.noSides => rfl
  case startsAtZero.startsAtZero => rfl
  case uncovered.uncovered => rw [repr_inj htext]
  case emptyRange.emptyRange =>
    obtain ⟨rfl, rfl⟩ := rangeText_inj htext
    rfl
  case overlap.overlap =>
    obtain ⟨rfl, rfl⟩ := rangeLabel_inj (String.toList_inj.1 (List.append_cancel_right htext))
    rfl
  case exceeds.exceeds =>
    obtain ⟨rfl, rfl⟩ := rangeLabel_inj (String.toList_inj.1 (List.append_cancel_right htext))
    rfl
  case overlap.exceeds => exact absurd h reason_overlap_ne_exceeds
  case exceeds.overlap => exact absurd h.symm reason_overlap_ne_exceeds

end Defect

theorem Diagnosis.ofRows {die : Die} {rows : List (Row α)} {defect : Defect}
    (h : Diagnosis die rows defect) : defect.OfRows die := by
  cases h with
  | noSides => exact .noSides
  | emptyRange => exact .emptyRange _ _
  | startsAtZero => exact .startsAtZero
  | overlap => exact .overlap _ _
  | uncovered => exact .uncovered _
  | exceeds => exact .exceeds _ _

theorem Misdiagnosis.ofRows {die : Die} {rows : List (Row α)} {defect : Defect}
    (h : Misdiagnosis die rows defect) : defect.OfRows die := by
  cases h with
  | behindLast => exact .uncovered _

/-! ## Refused rows -/

namespace RollTable

theorem diagnosis_of_ofRows {name : String} {die : Die} {rows : List (Row α)} {flaw : Flaw}
    (h : ofRows name die rows = .error flaw) :
    flaw.table = name ∧
      (Diagnosis die rows flaw.defect ∨ Misdiagnosis die rows flaw.defect) := by
  unfold ofRows at h
  split at h
  · next hsides =>
    obtain rfl := Except.error.inj h
    exact ⟨rfl, .inl (.noSides hsides)⟩
  · split at h
    · next defect hswept =>
      obtain rfl := Except.error.inj h
      obtain ⟨before, after, reach, hrows, htiles, hreach, hstops⟩ :=
        @exists_stops _ _ 0 _ _ hswept (Nat.zero_le _)
      have hsorted := sortRows_sorted rows
      rw [hrows] at hsorted
      have hperm : (before ++ after).Perm rows := hrows ▸ sortRows_perm rows
      rcases diagnosis_of_stops htiles hreach (List.pairwise_append.1 hsorted).2.1 hstops with
        htrue | hmissed
      · exact ⟨rfl, .inl (htrue.perm hperm)⟩
      · exact ⟨rfl, .inr (hmissed.perm hperm)⟩
    · cases h

/-- **What is said of refused rows.** The defect is one of the rows, but for the roll behind the
last face, and its wording is that of no other defect that rows can have. -/
theorem ofRows_eq_error {name : String} {die : Die} {rows : List (Row α)} {flaw : Flaw}
    (h : ofRows name die rows = .error flaw) :
    flaw.table = name ∧
      (Diagnosis die rows flaw.defect ∨ Misdiagnosis die rows flaw.defect) ∧
      ∀ other : Defect, other.OfRows die → other.reason = flaw.defect.reason →
        other = flaw.defect := by
  obtain ⟨hname, hdefect⟩ := diagnosis_of_ofRows h
  have hkind : flaw.defect.OfRows die := hdefect.elim Diagnosis.ofRows Misdiagnosis.ofRows
  exact ⟨hname, hdefect, fun other hother hreason => hother.eq_of_reason hkind hreason⟩

/-- Rows in the wrong order that share a face. -/
theorem ofRows_eq_error_pack :
    let rows : List (Row String) := [⟨3, 6, "wolf"⟩, ⟨1, 3, "bear"⟩]
    ofRows "Pack" .d6 rows = .error ⟨"Pack", .overlap 3 6⟩ ∧ Diagnosis .d6 rows (.overlap 3 6) ∧
      ∀ other : Defect, other.OfRows .d6 → other.reason = "range 3-6 overlaps an earlier row" →
        other = .overlap 3 6 := by
  intro rows
  have herror : ofRows "Pack" .d6 rows = .error ⟨"Pack", .overlap 3 6⟩ := by rfl
  obtain ⟨-, hdefect, hwording⟩ := ofRows_eq_error herror
  refine ⟨herror, hdefect.resolve_right fun hmissed => ?_, hwording⟩
  cases hmissed

/-- A die of four sides, all of them covered, and a row beyond them: what is missed is the roll
five, which the die never shows, and nothing is said of the row. -/
theorem ofRows_pond :
    let rows : List (Row String) := [⟨1, 4, "frog"⟩, ⟨6, 7, "pike"⟩]
    ofRows "Pond" .d4 rows = .error ⟨"Pond", .uncovered 5⟩ ∧
      (Defect.uncovered 5).reason = "no row covers roll 5" ∧ ¬5 ≤ Die.d4.sides.toNat ∧
      ¬Diagnosis .d4 rows (.uncovered 5) ∧ Diagnosis .d4 rows (.exceeds 6 7 .d4) := by
  intro rows
  have hface : ¬5 ≤ Die.d4.sides.toNat := by decide
  have hpike : ⟨6, 7, "pike"⟩ ∈ rows := by simp [rows]
  refine ⟨by rfl, by rfl, hface, ?_, .exceeds hpike (by decide)⟩
  intro h
  cases h with
  | uncovered _ hhigh => exact hface hhigh

end RollTable

end Wilderness
