import Wilderness.Proofs.Bounds
import Wilderness.Proofs.Entourages

/-!
# Bounds of groups

A number that is made from faces on their dice spans from what all ones make of it to what all last
faces do (`Spans`).  Sums and monotone steps keep this, caps among them.  So it passes from the faces
to the sum of a throw, to the value of the throw (`Throw.spans_roll`), to the worth of retainers one
after another (`Monster.spans_exactWorth`), and to the group (`Monster.rollGroup_spans`).
-/

namespace Wilderness

open Rolling

/-! ## Spans -/

/-- All faces are ones. -/
def Ones (handed : List (UInt32 × UInt32)) : Prop :=
  ∀ throw ∈ handed, throw.2.toNat = 1

/-- All faces are the last ones of their dice, a die without sides being taken for one with a single
side. -/
def Lasts (handed : List (UInt32 × UInt32)) : Prop :=
  ∀ throw ∈ handed, throw.2.toNat = max throw.1.toNat 1

/-- The value lies between two ends, of which all ones bring it down to the lower one and all last
faces up to the upper one. -/
structure Spans {α : Type} [LE α] (handed : List (UInt32 × UInt32)) (low high value : α) :
    Prop where
  low_le : low ≤ value
  le_high : value ≤ high
  of_ones : Ones handed → value = low
  of_lasts : Lasts handed → value = high

namespace Spans

variable {α β : Type} [Preorder α] [Preorder β] {handed more : List (UInt32 × UInt32)}
  {low high value : α}

theorem refl (handed : List (UInt32 × UInt32)) (value : α) : Spans handed value value value :=
  ⟨le_refl value, le_refl value, fun _ => rfl, fun _ => rfl⟩

theorem mono (h : Spans handed low high value) (hsub : handed ⊆ more) :
    Spans more low high value where
  low_le := h.low_le
  le_high := h.le_high
  of_ones ones := h.of_ones fun throw hthrow => ones throw (hsub hthrow)
  of_lasts lasts := h.of_lasts fun throw hthrow => lasts throw (hsub hthrow)

theorem map (h : Spans handed low high value) {f : α → β} (hf : Monotone f) :
    Spans handed (f low) (f high) (f value) where
  low_le := hf h.low_le
  le_high := hf h.le_high
  of_ones ones := congrArg f (h.of_ones ones)
  of_lasts lasts := congrArg f (h.of_lasts lasts)

theorem add {a b c d x y : Nat} (hx : Spans handed a b x) (hy : Spans more c d y) :
    Spans (handed ++ more) (a + c) (b + d) (x + y) where
  low_le := Nat.add_le_add hx.low_le hy.low_le
  le_high := Nat.add_le_add hx.le_high hy.le_high
  of_ones ones := by
    obtain ⟨hfirst, hsecond⟩ := List.forall_mem_append.1 ones
    rw [hx.of_ones hfirst, hy.of_ones hsecond]
  of_lasts lasts := by
    obtain ⟨hfirst, hsecond⟩ := List.forall_mem_append.1 lasts
    rw [hx.of_lasts hfirst, hy.of_lasts hsecond]

end Spans

/-! ## Throws -/

/-- The sum of dice of one kind spans from their number to so many times their sides. -/
theorem spans_faceSum {sides : UInt32} {count : Nat} {handed : List (UInt32 × UInt32)}
    (hsides : handed.map Prod.fst = List.replicate count sides) (onDice : OnDice handed) :
    Spans handed count (count * max sides.toNat 1) (faceSum handed) := by
  induction handed generalizing count with
  | nil =>
    obtain rfl : count = 0 := by simpa using hsides.symm
    rw [Nat.zero_mul]
    exact .refl [] 0
  | cons throw handed ih =>
    cases count with
    | zero => cases hsides
    | succ count =>
      obtain ⟨rfl, hrest⟩ := List.cons.inj hsides
      obtain ⟨hface, honDice⟩ := List.forall_mem_cons.1 onDice
      have hthrow : Spans [throw] 1 (max throw.1.toNat 1) throw.2.toNat :=
        ⟨hface.1, hface.2, fun ones => ones throw List.mem_cons_self,
          fun lasts => lasts throw List.mem_cons_self⟩
      have hsum := hthrow.add (ih hrest honDice)
      rwa [Nat.add_comm 1, Nat.add_comm (max throw.1.toNat 1), ← Nat.succ_mul] at hsum

namespace Throw

theorem saturate_count (count : UInt32) : saturate count.toNat = count.toNat := by
  have hlt := count.toNat_lt
  exact saturate_of_mem (by unfold leastTotal; omega) (by unfold greatestTotal; omega)

theorem Rollable.exists_bounds {t : Throw} (h : t.Rollable) :
    ∃ least greatest, t.least = .ok least ∧ t.greatest = .ok greatest := by
  obtain ⟨least, hleast, -⟩ := leastStrict_eq h.faultless
  obtain ⟨greatest, hgreatest, -⟩ := greatestStrict_eq h.faultless
  exact ⟨least, greatest, hleast, hgreatest⟩

/-- The highest sum of a throw that can be rolled; a constant has no dice, whatever their sides. -/
theorem Rollable.count_mul_sides {t : Throw} (h : t.Rollable) :
    t.count.toNat * max t.sides.toNat 1 = t.count.toNat * t.sides.toNat := by
  rcases h with hconstant | ⟨hsides, -⟩
  · have hcount : t.count = 0 := by simpa [isConstant] using hconstant
    rw [hcount, UInt32.toNat_zero, Nat.zero_mul, Nat.zero_mul]
  · have hone : 1 ≤ t.sides.toNat := UInt32.le_iff_toNat_le.1 hsides
    rw [Nat.max_eq_left hone]

section Bounds

variable {t : Throw} (h : t.Rollable) {least greatest : Int} (hleast : t.least = .ok least)
  (hgreatest : t.greatest = .ok greatest) {ρ : Type} [FaceSource ρ] {source rest : ρ} {value : Int}
  (hroll : t.roll.run source = (.ok value, rest)) (onDice : OnDice (t.roll.transcript source))

include h hleast hgreatest hroll onDice

theorem spans_roll : Spans (t.roll.transcript source) least greatest value := by
  obtain ⟨hsides, houtcome⟩ := trace_roll_iff.1 (trace_run t.roll source)
  have hvalue : t.adjust (saturate (faceSum (t.roll.transcript source))) = .ok value := by
    rw [← houtcome, hroll]
  have hsum := (spans_faceSum hsides onDice).map (f := fun sum : Nat => saturate sum)
    fun _ _ hle => saturate_mono (Int.ofNat_le.2 hle)
  simp only [saturate_count, h.count_mul_sides, Int.natCast_mul] at hsum
  refine ⟨adjust_mono hsum.low_le hleast hvalue, adjust_mono hsum.le_high hvalue hgreatest,
    fun ones => ?_, fun lasts => ?_⟩
  · rw [hsum.of_ones ones] at hvalue
    exact Except.ok.inj (hvalue.symm.trans hleast)
  · rw [hsum.of_lasts lasts] at hvalue
    exact Except.ok.inj (hvalue.symm.trans hgreatest)

end Bounds

end Throw

/-! ## Loaded dice -/

/-- A source of dice that always show the same face if they have the same sides. -/
structure Loaded (face : UInt32 → UInt32) where

namespace Loaded

instance (face : UInt32 → UInt32) : FaceSource (Loaded face) where
  draw source sides := (face sides, source)

/-- Dice that show nothing but ones. -/
def ones : Loaded fun _ => 1 := ⟨⟩

/-- Dice that show nothing but their last faces. -/
def lasts : Loaded fun sides => max sides 1 := ⟨⟩

end Loaded

section Loaded

variable {handed : List (UInt32 × UInt32)}

theorem Ones.onDice (h : Ones handed) : OnDice handed := by
  intro throw hthrow
  rw [h throw hthrow]
  exact ⟨le_refl 1, Nat.le_max_right _ 1⟩

theorem Lasts.onDice (h : Lasts handed) : OnDice handed := by
  intro throw hthrow
  rw [h throw hthrow]
  exact ⟨Nat.le_max_right _ 1, le_refl _⟩

variable {ε α : Type} (p : Rolling ε α)

theorem ones_transcript : Ones (p.transcript Loaded.ones) :=
  forall_mem_transcript (fun _ _ => rfl) p Loaded.ones

theorem lasts_transcript : Lasts (p.transcript Loaded.lasts) :=
  forall_mem_transcript (fun _ sides => Script.toNat_max_one sides) p Loaded.lasts

end Loaded

/-! ## Groups -/

namespace Monster

/-- An exact number of creatures or hit dice, capped to the range of counts. -/
def capped (value : Int) : Nat :=
  min value.toNat greatestCount

theorem capped_mono {a b : Int} (hle : a ≤ b) : capped a ≤ capped b := by
  unfold capped
  omega

variable {ρ : Type} [FaceSource ρ] {monster : Monster} {source mid rest : ρ}

/-- What all ones and all last faces make of a group, and what any faces make of it in between. -/
inductive Spanned (monster : Monster) (source : ρ) (group : Group) : Prop
  | each {hitDice : UInt32} {least greatest : Int} : monster.worth = .each hitDice →
      monster.number.least = .ok least → monster.number.greatest = .ok greatest →
      Spans (monster.rollGroup.transcript source) (capped (max least 1)) (capped (max greatest 1))
        group.quantity.toNat →
      Spanned monster source group
  | leader {level : UInt32} {entourage retainer : Throw} {least greatest worst best number : Int}
      {mid : ρ} {retainers : Nat} : monster.worth = .leader level entourage retainer →
      entourage.least = .ok least → entourage.greatest = .ok greatest →
      retainer.least = .ok worst → retainer.greatest = .ok best →
      -- as many retainers as the throw of the entourage comes to
      entourage.roll.run source = (.ok number, mid) → retainers = capped (max number 0) →
      Spans (monster.rollGroup.transcript source) (capped (max least 0)) (capped (max greatest 0))
        retainers →
      group.quantity.toNat = capped (1 + retainers) →
      Spans (monster.rollGroup.transcript source) (capped (level.toNat + retainers * max worst 0))
        (capped (level.toNat + retainers * max best 0)) group.total.toNat →
      Spanned monster source group

theorem spanned_of_each {hitDice : UInt32} (each : monster.worth = .each hitDice)
    (h : monster.number.Rollable) (onDice : OnDice (monster.rollGroup.transcript source)) :
    ∃ group, (monster.rollGroup.run source).1 = .ok group ∧ monster.Spanned source group := by
  obtain ⟨least, greatest, hleast, hgreatest⟩ := h.exists_bounds
  obtain ⟨number, rest, hnumber⟩ := h.faultless.exists_run_roll source
  have hdice : monster.rollGroup.transcript source = monster.number.roll.transcript source := by
    simp only [rollGroup, each, pure_eq, transcript_bind_done, Throw.transcript_rollAtLeast]
  have hspans : Spans (monster.rollGroup.transcript source) least greatest number := by
    rw [hdice] at onDice ⊢
    exact Throw.spans_roll h hleast hgreatest hnumber onDice
  refine ⟨_, congrArg Prod.fst (run_rollGroup_of_each each hnumber),
    .each each hleast hgreatest ?_⟩
  rw [toNat_tally]
  exact hspans.map (f := fun value => capped (max value 1)) fun _ _ hle =>
    capped_mono (max_le_max_right 1 hle)

theorem transcript_sumRetainers_succ {retainer : Throw} {value : Int}
    (hroll : retainer.roll.run source = (.ok value, mid)) (count : Nat) (total : UInt32) :
    (sumRetainers retainer (count + 1) total).transcript source =
      retainer.roll.transcript source ++ (sumRetainers retainer count
        (tally (total.toNat + (tally (max value 0)).toNat))).transcript mid := by
  rw [sumRetainers, transcript_bind, Throw.run_rollAtLeast hroll 0, Throw.transcript_rollAtLeast]

/-- The exact worth of retainers thrown for one after another. -/
theorem spans_exactWorth {retainer : Throw} (h : retainer.Rollable) {worst best : Int}
    (hworst : retainer.least = .ok worst) (hbest : retainer.greatest = .ok best)
    {values : List Int} (hgives : retainer.Gives source values rest) (total : UInt32)
    (onDice : OnDice ((sumRetainers retainer values.length total).transcript source)) :
    Spans ((sumRetainers retainer values.length total).transcript source)
      (values.length * (max worst 0).toNat) (values.length * (max best 0).toNat)
      (exactWorth values) := by
  induction hgives generalizing total with
  | none source =>
    rw [List.length_nil, Nat.zero_mul, Nat.zero_mul]
    exact .refl _ 0
  | @more source mid rest value values hroll _ ih =>
    rw [List.length_cons, transcript_sumRetainers_succ hroll] at onDice ⊢
    obtain ⟨hfirst, hsecond⟩ := List.forall_mem_append.1 onDice
    have hvalue := (Throw.spans_roll h hworst hbest hroll hfirst).map
      (f := fun value => (max value 0).toNat) fun _ _ hle =>
        Int.toNat_le_toNat (max_le_max_right 0 hle)
    rw [exactWorth_cons, Nat.succ_mul, Nat.succ_mul, Nat.add_comm (values.length * _),
      Nat.add_comm (values.length * _)]
    exact hvalue.add (ih _ hsecond)

theorem spanned_of_leader {level : UInt32} {entourage retainer : Throw}
    (leads : monster.worth = .leader level entourage retainer) (hentourage : entourage.Rollable)
    (hretainer : retainer.Rollable) (onDice : OnDice (monster.rollGroup.transcript source)) :
    ∃ group, (monster.rollGroup.run source).1 = .ok group ∧ monster.Spanned source group := by
  obtain ⟨least, greatest, hleast, hgreatest⟩ := hentourage.exists_bounds
  obtain ⟨worst, best, hworst, hbest⟩ := hretainer.exists_bounds
  obtain ⟨number, mid, hnumber⟩ := hentourage.faultless.exists_run_roll source
  obtain ⟨values, rest, hlength, hgives⟩ :=
    hretainer.faultless.exists_gives (tally (max number 0)).toNat mid
  have hdice := transcript_rollGroup_eq_append leads hnumber hlength hgives
  rw [hdice] at onDice
  obtain ⟨hfirst, hsecond⟩ := List.forall_mem_append.1 onDice
  have hretainers : values.length = capped (max number 0) := by rw [hlength, toNat_tally, capped]
  have hspans : Spans (monster.rollGroup.transcript source) (capped (max least 0))
      (capped (max greatest 0)) values.length := by
    rw [hdice, hretainers]
    have hnumber := Throw.spans_roll hentourage hleast hgreatest hnumber hfirst
    exact (hnumber.map (f := fun value => capped (max value 0)) fun _ _ hle =>
      capped_mono (max_le_max_right 0 hle)).mono (List.subset_append_left _ _)
  refine ⟨_, congrArg Prod.fst (run_rollGroup_of_leader leads hnumber hlength hgives),
    .leader leads hleast hgreatest hworst hbest hnumber hretainers hspans ?quantity ?total⟩
  case quantity =>
    rw [toNat_tally, Int.add_comm, capped]
  case total =>
    have hworth := (spans_exactWorth hretainer hworst hbest hgives 0 hsecond).map
      (f := fun worth : Nat => capped (level.toNat + worth)) fun _ _ hle =>
        capped_mono (Int.add_le_add_left (Int.ofNat_le.2 hle) level.toNat)
    have hcapped : (tally (level.toNat + (tally (exactWorth values)).toNat)).toNat =
        capped (level.toNat + exactWorth values) := by
      simp only [toNat_tally, capped, greatestCount]
      omega
    have hcast (value : Int) : ((values.length * (max value 0).toNat : Nat) : Int) =
        values.length * max value 0 := by
      rw [Int.natCast_mul, Int.toNat_of_nonneg (Int.le_max_right value 0)]
    rw [hdice, hcapped]
    simp only [hcast] at hworth
    exact hworth.mono (List.subset_append_right _ _)

/-- **A group lies between what all ones and all last faces make of it, and both are made.** -/
theorem rollGroup_spans (rollable : ∀ t ∈ monster.throws, t.Rollable) :
    (∀ {ρ : Type} [FaceSource ρ] (source : ρ), OnDice (monster.rollGroup.transcript source) →
      ∃ group, (monster.rollGroup.run source).1 = .ok group ∧ monster.Spanned source group) ∧
    -- some faces on their dice are all ones, and some are all last faces
    (OnDice (monster.rollGroup.transcript Loaded.ones) ∧
      Ones (monster.rollGroup.transcript Loaded.ones)) ∧
    OnDice (monster.rollGroup.transcript Loaded.lasts) ∧
      Lasts (monster.rollGroup.transcript Loaded.lasts) := by
  refine ⟨fun source onDice => ?spanned, ?ones, ?lasts⟩
  case spanned =>
    obtain ⟨hnumber, hothers⟩ := List.forall_mem_cons.1 rollable
    cases hworth : monster.worth with
    | each hitDice => exact spanned_of_each hworth hnumber onDice
    | leader level entourage retainer =>
      rw [hworth] at hothers
      exact spanned_of_leader hworth (hothers entourage List.mem_cons_self)
        (hothers retainer (List.mem_cons_of_mem _ List.mem_cons_self)) onDice
  case ones => exact ⟨(ones_transcript _).onDice, ones_transcript _⟩
  case lasts => exact ⟨(lasts_transcript _).onDice, lasts_transcript _⟩

/-- A chief whose retainers are worth something only if they throw better than a two. -/
theorem rollGroup_spans_chief :
    let chief : Monster :=
      ⟨"Chief", .constant 1, 9.0, .leader 9 (dice 1 6) (dice 1 4 (.times 1) (-2))⟩
    let source := Script.ofList [3, 1, 4, 2]
    (∀ t ∈ chief.throws, t.Rollable) ∧ OnDice (chief.rollGroup.transcript source) ∧
      ∃ group, (chief.rollGroup.run source).1 = .ok group ∧ chief.Spanned source group ∧
        group.total = 11 := by
  intro chief source
  have rollable : ∀ t ∈ chief.throws, t.Rollable := by
    simp only [chief, throws, List.forall_mem_cons]
    exact ⟨by decide, by decide, by decide, by simp⟩
  have onDice : OnDice (chief.rollGroup.transcript source) := by decide
  obtain ⟨group, hgroup, hspanned⟩ := (rollGroup_spans rollable).1 source onDice
  have hrun : ((⟨"Chief", .constant 1, 9.0, .leader 9 (dice 1 6)
      (dice 1 4 (.times 1) (-2))⟩ : Monster).rollGroup.run (Script.ofList [3, 1, 4, 2])).1 =
      .ok ⟨4, 11⟩ := by rfl
  obtain rfl := Except.ok.inj (hgroup.symm.trans hrun)
  exact ⟨rollable, onDice, _, hgroup, hspanned, rfl⟩

end Monster

end Wilderness
