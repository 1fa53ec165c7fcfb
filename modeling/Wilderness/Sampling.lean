import Wilderness.Dice.Seeded
import Wilderness.Encounter

/-!
# Sampling

A sampling rolls encounters one after another from one source of faces, as many as are asked for.
It ends early at the first encounter that fails.
-/

namespace Wilderness

/-- Encounters of a terrain that are still to be rolled. -/
structure Sampling (ρ : Type) where
  atlas : Atlas
  terrain : Terrain
  remaining : Nat
  source : ρ

/-- An encounter or the reason why there is none. -/
abbrev Outcome := Except EncounterError Encounter

namespace Sampling

variable {ρ : Type} [FaceSource ρ]

/-- The next encounter and the sampling after it, which is over if the encounter failed.  By
convention faults share the channel of the errors: a division by zero, which breaks off the roll
and answers nothing, is handed out as the last item and leaves nothing remaining. -/
def next? (sampling : Sampling ρ) : Option (Outcome × Sampling ρ) :=
  match sampling.remaining with
  | 0 => none
  | remaining + 1 =>
    match (sampling.atlas.encounter sampling.terrain).run sampling.source with
    | (.ok encounter, source) => some (.ok encounter, { sampling with remaining, source })
    | (.error error, source) => some (.error error, { sampling with remaining := 0, source })

/-- Up to `limit` encounters, put behind those that came before, and the sampling after them. -/
def pull (sampling : Sampling ρ) (limit : Nat) (before : Array Outcome := #[]) :
    Array Outcome × Sampling ρ :=
  match limit with
  | 0 => (before, sampling)
  | limit + 1 =>
    match sampling.next? with
    | some (outcome, rest) => rest.pull limit (before.push outcome)
    | none => (before, sampling)

/-- All encounters that are left. -/
def drain (sampling : Sampling ρ) : Array Outcome × Sampling ρ :=
  sampling.pull sampling.remaining

omit [FaceSource ρ] in
/-- The least and the greatest number of encounters that may still come. -/
def bounds (sampling : Sampling ρ) : Nat × Nat :=
  (0, sampling.remaining)

end Sampling

/-! ## Options -/

/-- What to sample: how many encounters, and the seed if they are to be the same every time. -/
structure SamplingOptions where
  seed : Option UInt64 := none
  repetitions : Nat := 1000
deriving DecidableEq, Repr

/-- The sampling of a terrain that the options ask for.  Without a seed of their own they take the
one that is at hand. -/
def SamplingOptions.start (options : SamplingOptions) (atlas : Atlas) (terrain : Terrain)
    (entropy : UInt64) : Sampling Seeded where
  atlas := atlas
  terrain := terrain
  remaining := options.repetitions
  source := .ofSeed (options.seed.getD entropy)

end Wilderness
