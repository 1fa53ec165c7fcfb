import Wilderness.Proofs.Decoded
import Wilderness.Proofs.Strict
import Wilderness.Proofs.Tiling

/-!
# Values from outside

Whatever way a monster, a worth, a listing or a table is made from texts or JSON, its throws are
ones that can be written, and its tables cover their dice.  Such throws neither divide by zero nor
leave the range of words, for any faces at all (`Exchange.guarded_of_decode`).
-/

namespace Wilderness

open Rolling

/-- A throw within the limits of the written form, which has the same values by strict arithmetic
as by exact arithmetic. -/
structure Throw.Guarded (t : Throw) : Prop where
  limits : t = .constant t.modifier ∨ t.Writable
  least : ∃ value, t.least = .ok value ∧ t.leastStrict = .ok value
  greatest : ∃ value, t.greatest = .ok value ∧ t.greatestStrict = .ok value
  roll : ∀ {ρ : Type} [FaceSource ρ] (source : ρ), ∃ value rest,
    t.roll.run source = (.ok value, rest) ∧ t.rollStrict.run source = (.ok value, rest)

/-- A monster of such throws, whose groups are the same by strict arithmetic. -/
structure Monster.Guarded (monster : Monster) : Prop where
  throws : ∀ t ∈ monster.throws, t.Guarded
  group : ∀ {ρ : Type} [FaceSource ρ] (source : ρ), ∃ group rest,
    monster.rollGroup.run source = (.ok group, rest) ∧
      monster.rollGroupStrict.run source = (.ok group, rest)

/-- A table with exactly one row for every face, in ascending order. -/
structure RollTable.Guarded {α : Type} (table : RollTable α) : Prop where
  covers : Covers table.die table.rows
  ascending : table.rows.Pairwise fun a b => a.high < b.low

/-- A listing of a guarded monster or of a guarded table. -/
def Listing.Guarded : Listing → Prop
  | .single monster => monster.Guarded
  | .family variants => variants.Guarded

/-! ## Limits are enough -/

theorem Throw.Expressible.guarded {t : Throw} (h : t.Expressible) : t.Guarded where
  limits := h
  least := leastStrict_eq (.inr h.scaling_ne)
  greatest := greatestStrict_eq (.inr h.scaling_ne)
  roll := (together_roll (.inr h.scaling_ne)).exists_run

theorem Monster.guarded_of_expressible {monster : Monster}
    (h : ∀ t ∈ monster.throws, t.Expressible) : monster.Guarded where
  throws := fun t ht => (h t ht).guarded
  group := (together_rollGroup (noZeroBands_of_expressible h)).exists_run

theorem RollTable.guarded {α : Type} (table : RollTable α) : table.Guarded :=
  ⟨table.covers, table.tiled.pairwise⟩

namespace Exchange

/-- **No value gets around the checks.** -/
theorem guarded_of_decode :
    (∀ (value : Json) (monster : Monster), decode value = .ok monster → monster.Guarded) ∧
    (∀ (value : Json) (listing : Listing), decode value = .ok listing → listing.Guarded) ∧
    (∀ (value : Json) (worth : Worth), decode value = .ok worth →
      ∀ t ∈ worth.throws, t.Guarded) ∧
    (∀ {α : Type} [Exchange α] (value : Json) (table : RollTable α), decode value = .ok table →
      table.Guarded) ∧
    (∀ (name number : String) (hitDice : Float) (worth : UInt32) (monster : Monster),
      Monster.ofWritten name number hitDice worth = .ok monster → monster.Guarded) ∧
    (∀ (name : String) (level : UInt32), (Monster.leader name level).Guarded) := by
  refine ⟨?monsters, ?listings, ?worths, ?tables, ?written, ?leaders⟩
  case monsters =>
    intro value monster h
    exact Monster.guarded_of_expressible (expressible_of_decode_monster h)
  case listings =>
    intro value listing h
    have hthrows := expressible_of_decode_listing h
    cases listing with
    | single monster => exact Monster.guarded_of_expressible hthrows
    | family variants => exact variants.guarded
  case worths =>
    intro value worth h t ht
    exact (expressible_of_decode_worth h t ht).guarded
  case tables => exact fun _ table _ => table.guarded
  case written =>
    intro name number hitDice worth monster h
    exact Monster.guarded_of_expressible (Monster.expressible_of_ofWritten h)
  case leaders =>
    exact fun name level => Monster.guarded_of_expressible (Monster.expressible_leader name level)

/-- A monster whose number has bands, and a table of two rows that are given in the wrong order. -/
theorem guarded_of_decode_ogre :
    (∃ monster : Monster, monster.number = dice 3 6 (.bands 2) 4 ∧ monster.Guarded) ∧
      ∃ variants : RollTable String, variants.values = ["Hill", "Frost"] ∧ variants.Guarded := by
  obtain ⟨hmonsters, -, -, htables, -, -⟩ := guarded_of_decode
  constructor
  · let value : Json :=
      .array [.string "Ogre", .string "3d6/2+4", .int 4, .object [("PerIndividual", .int 4)]]
    have hdecode : decode value =
        .ok (Monster.creature "Ogre" (dice 3 6 (.bands 2) 4) (Float.ofInt 4) 4) := by rfl
    exact ⟨_, rfl, hmonsters value _ hdecode⟩
  · let value : Json := .array [.string "Giant", .string "D6", .array [
      .array [.int 5, .int 6, .string "Frost"], .array [.int 1, .int 4, .string "Hill"]]]
    let variants : RollTable String := .ofTiles "Giant" .d6 [(1, 4, "Hill"), (5, 6, "Frost")]
    have hdecode : decode value = .ok variants := by rfl
    exact ⟨variants, rfl, htables value variants hdecode⟩

end Exchange

end Wilderness
