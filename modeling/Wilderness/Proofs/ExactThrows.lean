import Wilderness.Dice.Script
import Wilderness.Proofs.Rendering
import Wilderness.Proofs.Selection
import Wilderness.Proofs.Sources
import Wilderness.Proofs.Strict

/-!
# Exact values of written throws

The limits of the written form keep every step of a throw far within the range of totals, whatever
faces are handed out.  So the caps make no difference, and the value is that of exact arithmetic
(`Throw.Expressible.exact`).  A sum lies in exactly one band (`existsUnique_inBand`), and a whole
band of a single die has as many faces as it is wide (`Throw.ncard_band`).
-/

namespace Wilderness

open Rolling

/-! ## Bands -/

/-- A sum lies in a band: the bands are so many neighbours wide, and the first one begins at one. -/
def InBand (width sum : Nat) (band : Int) : Prop :=
  (band - 1) * width < sum ∧ (sum : Int) ≤ band * width

theorem inBand_iff {width sum : Nat} (pos : 0 < width) {band : Int} :
    InBand width sum band ↔ band = ((sum : Int) - 1) / width + 1 := by
  have hpos : (0 : Int) < width := Int.ofNat_lt.2 pos
  have hlow : (band - 1) * width < sum ↔ band - 1 ≤ ((sum : Int) - 1) / width := by
    rw [Int.le_ediv_iff_mul_le hpos]
    omega
  have hhigh : (sum : Int) ≤ band * width ↔ ((sum : Int) - 1) / width < band := by
    rw [Int.ediv_lt_iff_lt_mul hpos]
    omega
  rw [InBand, hlow, hhigh]
  omega

theorem existsUnique_inBand {width : Nat} (pos : 0 < width) (sum : Nat) :
    ∃! band, InBand width sum band :=
  ⟨_, (inBand_iff pos).2 rfl, fun _ h => (inBand_iff pos).1 h⟩

/-! ## Exact arithmetic -/

/-- Within the range of totals, where nothing is capped. -/
def InRange (value : Int) : Prop :=
  leastTotal ≤ value ∧ value ≤ greatestTotal

/-- What a scaling makes of a sum by exact arithmetic. -/
inductive Scaling.Makes : Scaling → Nat → Int → Prop
  | times {factor : UInt32} {sum : Nat} : Makes (.times factor) sum (factor.toNat * sum : Nat)
  | bands {width : UInt32} {sum : Nat} {band : Int} : InBand width.toNat sum band →
      Makes (.bands width) sum band

theorem faceSum_le (handed : List (UInt32 × UInt32)) :
    faceSum handed ≤ handed.length * 4294967295 := by
  induction handed with
  | nil => exact Nat.le_refl 0
  | cons throw handed ih =>
    have hface := throw.2.toNat_lt
    simp only [faceSum, List.map_cons, List.sum_cons, List.length_cons] at ih ⊢
    omega

theorem faceSum_perm {handed other : List (UInt32 × UInt32)} (h : handed.Perm other) :
    faceSum handed = faceSum other :=
  (h.map fun throw : UInt32 × UInt32 => throw.2.toNat).sum_nat

/-- The sum of a hundred dice is scaled without a cap. -/
theorem Scaling.apply_makes {scaling : Scaling} {sum : Nat}
    (limits : 1 ≤ scaling.factor.toNat ∧ scaling.factor.toNat ≤ 1000)
    (hsum : sum ≤ 429496729500) :
    ∃ scaled, scaling.apply sum = .ok scaled ∧ scaling.Makes sum scaled ∧
      -1 ≤ scaled ∧ scaled ≤ 429496729500000 := by
  cases scaling with
  | times factor =>
    have hproduct : factor.toNat * sum ≤ 1000 * 429496729500 := Nat.mul_le_mul limits.2 hsum
    have hmakes : (times factor).Makes sum (factor.toNat * sum : Nat) := .times
    rw [apply, ← Int.natCast_mul, Nat.mul_comm]
    generalize factor.toNat * sum = product at hproduct hmakes
    rw [saturate_of_mem (by unfold leastTotal; omega) (by unfold greatestTotal; omega)]
    exact ⟨product, rfl, hmakes, by omega, by omega⟩
  | bands width =>
    have hpos : (0 : Int) < width.toNat := Int.ofNat_lt.2 limits.1
    have hleast : -1 ≤ ((sum : Int) - 1) / width.toNat := by
      rw [Int.le_ediv_iff_mul_le hpos]
      omega
    have hgreatest : ((sum : Int) - 1) / width.toNat < 429496729500 := by
      rw [Int.ediv_lt_iff_lt_mul hpos]
      omega
    refine ⟨((sum : Int) - 1) / width.toNat + 1, ?_, .bands ((inBand_iff limits.1).2 rfl), ?_, ?_⟩
    · exact if_neg (Throw.one_le_toNat_iff.1 limits.1)
    · omega
    · omega

namespace Throw

variable {t : Throw} {handed : List (UInt32 × UInt32)}

/-- The value of a throw for the dice that were handed out, by exact arithmetic that stays within
the range of totals all the time. -/
inductive Exact (t : Throw) (handed : List (UInt32 × UInt32)) : Int → Prop
  | constant : t = .constant t.modifier → handed = [] → Exact t handed t.modifier.toInt
  | dice {scaled : Int} : 1 ≤ t.count → (∀ shown, InRange (faceSum (handed.take shown))) →
      t.scaling.Makes (faceSum handed) scaled → InRange scaled →
      InRange (scaled + t.modifier.toInt) → Exact t handed (scaled + t.modifier.toInt)

theorem Writable.exact (h : t.Writable) (hlength : handed.length = t.count.toNat) :
    ∃ value, t.adjust (saturate (faceSum handed)) = .ok value ∧ t.Exact handed value := by
  have hcount := h.count.2
  have hsum : ∀ shown, faceSum (handed.take shown) ≤ 429496729500 := by
    intro shown
    have hle := faceSum_le (handed.take shown)
    rw [List.length_take, hlength] at hle
    omega
  have htotal : faceSum handed ≤ 429496729500 := by
    have hall := hsum handed.length
    rwa [List.take_length] at hall
  obtain ⟨scaled, happly, hmakes, hlow, hhigh⟩ := Scaling.apply_makes h.factor htotal
  have hmodifier := h.modifier
  have hscaled : InRange scaled := by
    unfold InRange leastTotal greatestTotal
    omega
  have hvalue : InRange (scaled + t.modifier.toInt) := by
    unfold InRange leastTotal greatestTotal
    omega
  have hshown : ∀ shown, InRange (faceSum (handed.take shown)) := by
    intro shown
    have hle := hsum shown
    unfold InRange leastTotal greatestTotal
    omega
  refine ⟨_, ?_, .dice (UInt32.le_iff_toNat_le.2 h.count.1) hshown hmakes hscaled hvalue⟩
  have hconstant : ¬t.isConstant = true := by
    simpa [isConstant] using one_le_toNat_iff.1 h.count.1
  rw [adjust, if_neg hconstant, saturate_of_mem (by unfold leastTotal; omega)
    (by unfold greatestTotal; omega), happly]
  exact congrArg Except.ok (saturate_of_mem hvalue.1 hvalue.2)

/-- A throw that can be written has its exact value. -/
theorem Expressible.exact (h : t.Expressible)
    (hsides : handed.map Prod.fst = List.replicate t.count.toNat t.sides) :
    ∃ value, t.adjust (saturate (faceSum handed)) = .ok value ∧ t.Exact handed value := by
  have hlength := congrArg List.length hsides
  rw [List.length_map, List.length_replicate] at hlength
  rcases h with h | h
  · have hcount : t.count = 0 := by rw [h]; rfl
    rw [hcount] at hlength
    have hconstant : t.isConstant = true := by simpa [isConstant] using hcount
    exact ⟨_, if_pos hconstant, .constant h (List.length_eq_zero_iff.1 hlength)⟩
  · exact h.exact hlength

/-! ## Faces of a band -/

theorem Expressible.width_pos (h : t.Expressible) {width : UInt32}
    (scaling : t.scaling = .bands width) : 0 < width.toNat :=
  one_le_toNat_iff.2 fun hzero => h.scaling_ne (hzero ▸ scaling)

theorem trace_roll_iff_inBand (h : t.Writable) {width : UInt32} (count : t.count = 1)
    (modifier : t.modifier = 0) (scaling : t.scaling = .bands width) {face : UInt32} {band : Int} :
    Trace t.roll [(t.sides, face)] (.ok band) ↔ InBand width.toNat face.toNat band := by
  have hpos : 0 < width.toNat := Expressible.width_pos (.inr h) scaling
  have hsum : faceSum [(t.sides, face)] = face.toNat := by simp [faceSum]
  have hlength : [(t.sides, face)].length = t.count.toNat := by rw [count]; rfl
  obtain ⟨value, hvalue, hexact⟩ := h.exact hlength
  have hband : InBand width.toNat face.toNat value := by
    cases hexact with
    | constant _ hnone => cases hnone
    | dice _ _ hmakes =>
      rw [scaling, hsum] at hmakes
      rw [modifier]
      cases hmakes with
      | bands hband => simpa using hband
  rw [trace_roll_iff, hvalue]
  constructor
  · rintro ⟨-, hsame⟩
    obtain rfl := Except.ok.inj hsame
    exact hband
  · intro hother
    refine ⟨by rw [count]; rfl, ?_⟩
    rw [(existsUnique_inBand hpos face.toNat).unique hother hband]

/-- A whole band of a single die has as many faces as it is wide. -/
theorem ncard_band (h : t.Writable) {width : UInt32} (count : t.count = 1)
    (modifier : t.modifier = 0) (scaling : t.scaling = .bands width) {band : Nat}
    (low : 1 ≤ band) (high : band ≤ t.sides.toNat / width.toNat) :
    {face | 1 ≤ face ∧ face ≤ t.sides ∧
      Trace t.roll [(t.sides, face)] (.ok (band : Int))}.ncard = width.toNat := by
  have hpos : 0 < width.toNat := Expressible.width_pos (.inr h) scaling
  have hlast : band * width.toNat ≤ t.sides.toNat := (Nat.le_div_iff_mul_le hpos).1 high
  obtain ⟨before, rfl⟩ := Nat.exists_eq_add_of_le' low
  rw [Nat.succ_mul] at hlast
  have hrange : {face | 1 ≤ face ∧ face ≤ t.sides ∧
        Trace t.roll [(t.sides, face)] (.ok ((before + 1 : Nat) : Int))} =
      {face | before * width.toNat + 1 ≤ face.toNat ∧
        face.toNat ≤ before * width.toNat + width.toNat} := by
    ext face
    have hband : InBand width.toNat face.toNat (before + 1 : Nat) ↔
        before * width.toNat < face.toNat ∧ face.toNat ≤ before * width.toNat + width.toNat := by
      have hbefore : ((before + 1 : Nat) : Int) - 1 = before := by omega
      rw [InBand, hbefore, ← Int.natCast_mul, ← Int.natCast_mul, Nat.succ_mul]
      omega
    have one : (1 : UInt32).toNat = 1 := rfl
    simp only [Set.mem_ofPred_eq, trace_roll_iff_inBand h count modifier scaling, hband,
      UInt32.le_iff_toNat_le, one]
    omega
  rw [hrange, ncard_faces (Nat.lt_of_le_of_lt hlast t.sides.toNat_lt)]
  omega

/-! ## Parsed throws -/

theorem Expressible.writable (h : t.Expressible) (count : t.count ≠ 0) : t.Writable :=
  h.resolve_left fun hconstant => count (by rw [hconstant]; rfl)

/-- **A throw that was read from a text has its exact value, whatever faces it is handed.** -/
theorem roll_exact_of_parse {text : String} (parsed : parse text = .ok t) :
    (∀ {ρ : Type} [FaceSource ρ] (source : ρ),
      let handed := t.roll.transcript source
      handed.map Prod.fst = List.replicate t.count.toNat t.sides ∧
      (∃ value, (t.roll.run source).1 = .ok value ∧ (t.rollStrict.run source).1 = .ok value ∧
        t.Exact handed value) ∧
      ∀ width, t.scaling = .bands width →
        ∃! band, InBand width.toNat (faceSum handed) band) ∧
    -- the order of the faces does not matter
    (∀ {ρ ρ' : Type} [FaceSource ρ] [FaceSource ρ'] (source : ρ) (other : ρ'),
      (t.roll.transcript source).Perm (t.roll.transcript other) →
        (t.roll.run source).1 = (t.roll.run other).1) ∧
    -- the whole bands of a single plain die have as many faces as they are wide
    ∀ (width : UInt32) (band : Nat), t.count = 1 → t.modifier = 0 → t.scaling = .bands width →
      1 ≤ band → band ≤ t.sides.toNat / width.toNat →
        {face | 1 ≤ face ∧ face ≤ t.sides ∧
          Trace t.roll [(t.sides, face)] (.ok (band : Int))}.ncard = width.toNat := by
  have h := expressible_of_parse parsed
  refine ⟨?values, ?orders, ?bands⟩
  case values =>
    intro ρ _ source handed
    obtain ⟨hsides, houtcome⟩ := trace_roll_iff.1 (trace_run t.roll source)
    refine ⟨hsides, ?_, fun width hwidth => existsUnique_inBand (h.width_pos hwidth) _⟩
    obtain ⟨value, hvalue, hexact⟩ := h.exact hsides
    obtain ⟨rolled, rest, hroll, hstrict⟩ :=
      (together_roll (.inr h.scaling_ne)).exists_run source
    rw [hroll, hvalue] at houtcome
    obtain rfl := Except.ok.inj houtcome
    exact ⟨rolled, by rw [hroll], by rw [hstrict], hexact⟩
  case orders =>
    intro ρ ρ' _ _ source other hperm
    rw [(trace_roll_iff.1 (trace_run t.roll source)).2,
      (trace_roll_iff.1 (trace_run t.roll other)).2, faceSum_perm hperm]
  case bands =>
    intro width band count modifier scaling low high
    have hcount : t.count ≠ 0 := by rw [count]; decide
    exact ncard_band (h.writable hcount) count modifier scaling low high

/-- The two bands of a six-sided die, and dice whose sum ends a band. -/
theorem roll_exact_of_parse_bands :
    let die := dice 1 6 (.bands 3)
    let pair := dice 2 6 (.bands 4) 1
    parse "1d6/3" = .ok die ∧ parse "2d6/4+1" = .ok pair ∧
      {face | 1 ≤ face ∧ face ≤ 6 ∧ Trace die.roll [(6, face)] (.ok 2)}.ncard = 3 ∧
      ∃ value, (pair.roll.run (Script.ofList [6, 2])).1 = .ok value ∧
        pair.Exact [(6, 6), (6, 2)] value := by
  intro die pair
  have hdie : parse "1d6/3" = .ok die := by rfl
  have hpair : parse "2d6/4+1" = .ok pair := by rfl
  obtain ⟨-, -, hbands⟩ := roll_exact_of_parse hdie
  obtain ⟨hvalues, -, -⟩ := roll_exact_of_parse hpair
  obtain ⟨-, ⟨value, hvalue, -, hexact⟩, -⟩ := hvalues (Script.ofList [6, 2])
  exact ⟨hdie, hpair, hbands 3 2 rfl rfl rfl (by decide) (by decide), value, hvalue, hexact⟩

end Throw

end Wilderness
