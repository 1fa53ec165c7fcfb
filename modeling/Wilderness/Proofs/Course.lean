import Wilderness.Proofs.Encounters
import Wilderness.Proofs.Sources
import Wilderness.Sampling

/-!
# The course of a sampling

Whoever samples calls for one encounter after another and may stop at any call.  What a sampling
still brings, and how it ends, is fixed at every moment (`Brings`): each call takes the first
encounter off (`Brings.call`), so after any number of calls the rest is still to come
(`Brings.after`).  Calls, draws and bounds of a sampling are read off from there (`drain_course`).
-/

namespace Wilderness

open Rolling

namespace Sampling

variable {ρ : Type} [FaceSource ρ]

/-! ## Calls -/

/-- A call for the next encounter: the answer, and the sampling as the call leaves it. -/
def call (sampling : Sampling ρ) : Option Outcome × Sampling ρ :=
  match sampling.next? with
  | some (outcome, rest) => (some outcome, rest)
  | none => (none, sampling)

/-- The sampling after so many calls. -/
def after (sampling : Sampling ρ) : (calls : Nat) → Sampling ρ
  | 0 => sampling
  | calls + 1 => (sampling.after calls).call.2

/-- The answer to the call that comes after so many others. -/
def answer (sampling : Sampling ρ) (calls : Nat) : Option Outcome :=
  (sampling.after calls).call.1

theorem next?_eq_none_iff {sampling : Sampling ρ} :
    sampling.next? = none ↔ sampling.remaining = 0 := by
  unfold next?
  split
  · rename_i hover
    simp only [hover]
  · rename_i remaining hremaining
    rw [hremaining]
    split <;> simp

/-- Where encounters remain, the next one is rolled; there is one less to come, or none if it
failed. -/
theorem next?_eq_some_iff {sampling rest : Sampling ρ} {outcome : Outcome} :
    sampling.next? = some (outcome, rest) ↔
      ∃ remaining, sampling.remaining = remaining + 1 ∧
        (sampling.atlas.encounter sampling.terrain).run sampling.source = (outcome, rest.source) ∧
        rest = { sampling with
          remaining := if outcome.isOk then remaining else 0
          source := rest.source } := by
  unfold next?
  constructor
  · intro h
    split at h
    · cases h
    · rename_i remaining hremaining
      refine ⟨remaining, hremaining, ?_⟩
      split at h
      · rename_i encounter source hrun
        cases h
        exact ⟨hrun, rfl⟩
      · rename_i error source hrun
        cases h
        exact ⟨hrun, rfl⟩
  · rintro ⟨remaining, hremaining, hrun, hrest⟩
    rw [hremaining, hrest]
    simp only
    rw [hrun]
    cases outcome with
    | ok encounter => rfl
    | error error => rfl

theorem call_of_ended {sampling : Sampling ρ} (h : sampling.remaining = 0) :
    sampling.call = (none, sampling) := by
  rw [call, next?_eq_none_iff.2 h]

theorem call_of_next? {sampling rest : Sampling ρ} {outcome : Outcome}
    (h : sampling.next? = some (outcome, rest)) : sampling.call = (some outcome, rest) := by
  rw [call, h]

theorem after_succ (sampling : Sampling ρ) (calls : Nat) :
    sampling.after (calls + 1) = sampling.call.2.after calls := by
  induction calls with
  | zero => rfl
  | succ calls ih => rw [after, ih, after]

theorem after_of_ended {sampling : Sampling ρ} (h : sampling.remaining = 0) (calls : Nat) :
    sampling.after calls = sampling := by
  induction calls with
  | zero => rfl
  | succ calls ih => rw [after, ih, call_of_ended h]

theorem after_frame (sampling : Sampling ρ) (calls : Nat) :
    (sampling.after calls).atlas = sampling.atlas ∧
      (sampling.after calls).terrain = sampling.terrain := by
  induction calls with
  | zero => exact ⟨rfl, rfl⟩
  | succ calls ih =>
    rw [after, call]
    split
    · rename_i outcome rest hnext
      obtain ⟨_, -, -, hrest⟩ := next?_eq_some_iff.1 hnext
      rw [hrest]
      exact ih
    · exact ih

/-! ## What a sampling brings -/

/-- All encounters that a sampling brings from now on, and the sampling when it is over. -/
inductive Brings : Sampling ρ → List Outcome → Sampling ρ → Prop
  | ended {sampling : Sampling ρ} : sampling.remaining = 0 → Brings sampling [] sampling
  | next {sampling rest last : Sampling ρ} {outcome : Outcome} {items : List Outcome} :
      sampling.next? = some (outcome, rest) → Brings rest items last →
      Brings sampling (outcome :: items) last

theorem exists_brings (sampling : Sampling ρ) : ∃ items last, Brings sampling items last := by
  induction hn : sampling.remaining using Nat.strongRecOn generalizing sampling with
  | ind n ih =>
    cases hnext : sampling.next? with
    | none => exact ⟨[], sampling, .ended (next?_eq_none_iff.1 hnext)⟩
    | some found =>
      obtain ⟨outcome, rest⟩ := found
      obtain ⟨remaining, hremaining, -, hrest⟩ := next?_eq_some_iff.1 hnext
      have hlt : rest.remaining < n := by
        rw [hrest, ← hn, hremaining]
        simp only
        split <;> omega
      obtain ⟨items, last, hbrings⟩ := ih _ hlt rest rfl
      exact ⟨outcome :: items, last, .next hnext hbrings⟩

namespace Brings

variable {sampling last : Sampling ρ} {items : List Outcome}

/-- A call is answered with the first encounter, and the others are still to come. -/
theorem call (h : Brings sampling items last) :
    sampling.call.1 = items.head? ∧ Brings sampling.call.2 items.tail last := by
  cases h with
  | ended hover =>
    rw [call_of_ended hover]
    exact ⟨rfl, .ended hover⟩
  | next hnext hrest =>
    rw [call_of_next? hnext]
    exact ⟨rfl, hrest⟩

theorem after (h : Brings sampling items last) (calls : Nat) :
    Brings (sampling.after calls) (items.drop calls) last := by
  induction calls with
  | zero => exact h
  | succ calls ih =>
    rw [← List.tail_drop]
    exact ih.call.2

theorem length_le (h : Brings sampling items last) : items.length ≤ sampling.remaining := by
  induction h with
  | ended => exact Nat.zero_le _
  | next hnext _ ih =>
    obtain ⟨remaining, hremaining, -, hrest⟩ := next?_eq_some_iff.1 hnext
    rw [hrest] at ih
    rw [hremaining, List.length_cons]
    simp only at ih
    split at ih <;> omega

theorem eq_nil_of_error {error : EncounterError}
    (h : Brings sampling (.error error :: items) last) : items = [] := by
  cases h with
  | next hnext hrest =>
    obtain ⟨_, -, -, hover⟩ := next?_eq_some_iff.1 hnext
    have hlength := hrest.length_le
    rw [hover] at hlength
    exact List.eq_nil_of_length_eq_zero (Nat.le_zero.1 hlength)

theorem length_eq (h : Brings sampling items last) (hok : ∀ outcome ∈ items, outcome.isOk) :
    items.length = sampling.remaining := by
  induction h with
  | ended hover => exact hover.symm
  | @next _ _ _ outcome _ hnext _ ih =>
    obtain ⟨remaining, hremaining, -, hrest⟩ := next?_eq_some_iff.1 hnext
    have hlength := ih fun outcome hmem => hok outcome (List.mem_cons_of_mem _ hmem)
    rw [hrest] at hlength
    simp only [hok outcome List.mem_cons_self, ↓reduceIte] at hlength
    rw [hremaining, List.length_cons, hlength]

theorem error_of_lt (h : Brings sampling items last) (hlt : items.length < sampling.remaining) :
    ∃ error, items.getLast? = some (.error error) := by
  induction h with
  | ended hover => exact absurd hlt (by simp [hover])
  | @next _ _ _ outcome items hnext hrest ih =>
    cases outcome with
    | error error =>
      have hnil := (Brings.next hnext hrest).eq_nil_of_error
      exact ⟨error, by rw [hnil]; rfl⟩
    | ok encounter =>
      obtain ⟨remaining, hremaining, -, hshape⟩ := next?_eq_some_iff.1 hnext
      rw [hremaining, List.length_cons] at hlt
      obtain ⟨error, herror⟩ := ih (by rw [hshape]; exact Nat.lt_of_succ_lt_succ hlt)
      exact ⟨error, by rw [List.getLast?_cons, herror]; rfl⟩

/-- With faces on their dice, and no throw in bands of no width, all that comes is encounters of the
terrain. -/
theorem meets (h : Brings sampling items last) (bands : sampling.atlas.bestiary.NoZeroBands)
    (onDice : ∀ source : ρ,
      OnDice ((sampling.atlas.encounter sampling.terrain).transcript source)) :
    ∃ encounters : List Encounter, items = encounters.map .ok ∧
      ∀ encounter ∈ encounters, sampling.atlas.Meets sampling.terrain encounter := by
  induction h with
  | ended => exact ⟨[], rfl, by simp⟩
  | @next sampling rest _ outcome items hnext _ ih =>
    obtain ⟨_, -, hrun, hrest⟩ := next?_eq_some_iff.1 hnext
    have harrives := Atlas.trace_encounter bands
      (trace_run (sampling.atlas.encounter sampling.terrain) sampling.source)
    rw [hrun] at harrives
    rw [hrest] at ih
    obtain ⟨encounters, rfl, hmeets⟩ := ih bands onDice
    rcases harrives with ⟨encounter, rfl, hmeet⟩ | ⟨miss, -, hmisses⟩
    · exact ⟨encounter :: encounters, rfl, List.forall_mem_cons.2 ⟨hmeet, hmeets⟩⟩
    · exact absurd hmisses (Atlas.not_misses_of_onDice (onDice sampling.source) miss)

theorem isOk (h : Brings sampling items last) (bands : sampling.atlas.bestiary.NoZeroBands)
    (onDice : ∀ source : ρ,
      OnDice ((sampling.atlas.encounter sampling.terrain).transcript source)) :
    ∀ outcome ∈ items, outcome.isOk := by
  obtain ⟨encounters, rfl, -⟩ := h.meets bands onDice
  intro outcome hmem
  obtain ⟨encounter, -, rfl⟩ := List.mem_map.1 hmem
  rfl

theorem pull (h : Brings sampling items last) (limit : Nat) (before : Array Outcome) :
    sampling.pull limit before =
      (before ++ (items.take limit).toArray, sampling.after limit) := by
  induction limit generalizing sampling items before with
  | zero => simp [Sampling.pull, Sampling.after]
  | succ limit ih =>
    cases h with
    | ended hover =>
      rw [after_of_ended hover]
      simp [Sampling.pull, next?_eq_none_iff.2 hover]
    | next hnext hrest =>
      rw [after_succ, call_of_next? hnext]
      simp [Sampling.pull, hnext, ih hrest]

theorem remaining_eq_zero_iff (h : Brings sampling items last) :
    sampling.remaining = 0 ↔ items = [] := by
  cases h with
  | ended hover => simp [hover]
  | next hnext _ =>
    obtain ⟨remaining, hremaining, -, -⟩ := next?_eq_some_iff.1 hnext
    simp [hremaining]

theorem eq_of_nil (h : Brings sampling [] last) : sampling = last ∧ sampling.remaining = 0 := by
  cases h with
  | ended hover => exact ⟨rfl, hover⟩

theorem after_eq (h : Brings sampling items last) {calls : Nat} (hle : items.length ≤ calls) :
    sampling.after calls = last := by
  have hafter := h.after calls
  rw [List.drop_eq_nil_of_le hle] at hafter
  exact hafter.eq_of_nil.1

theorem drain (h : Brings sampling items last) : sampling.drain = (items.toArray, last) := by
  rw [Sampling.drain, h.pull, List.take_of_length_le h.length_le, h.after_eq h.length_le]
  simp

theorem answer (h : Brings sampling items last) (calls : Nat) :
    sampling.answer calls = items[calls]? := by
  rw [Sampling.answer, (h.after calls).call.1, List.head?_drop]

/-- An encounter that comes is the one rolled from the source as it was left before. -/
theorem run_after (h : Brings sampling items last) {calls : Nat} {outcome : Outcome}
    (hitem : items[calls]? = some outcome) :
    (sampling.atlas.encounter sampling.terrain).run (sampling.after calls).source =
      (outcome, (sampling.after (calls + 1)).source) := by
  have hcall := (h.after calls).call.1
  rw [List.head?_drop, hitem] at hcall
  obtain ⟨hatlas, hterrain⟩ := sampling.after_frame calls
  rw [Sampling.after]
  cases hnext : (sampling.after calls).next? with
  | none =>
    rw [Sampling.call, hnext] at hcall
    cases hcall
  | some found =>
    obtain ⟨_, rest⟩ := found
    rw [call_of_next? hnext] at hcall ⊢
    cases hcall
    obtain ⟨_, -, hrun, -⟩ := next?_eq_some_iff.1 hnext
    rw [hatlas, hterrain] at hrun
    exact hrun

end Brings

theorem brings_drain (sampling : Sampling ρ) :
    Brings sampling sampling.drain.1.toList sampling.drain.2 := by
  obtain ⟨items, last, h⟩ := sampling.exists_brings
  rw [h.drain]
  exact h

/-! ## Dice -/

/-- The same sampling, from a source that keeps what it hands out. -/
def recorded (sampling : Sampling ρ) (handed : List (UInt32 × UInt32)) : Sampling (Recorder ρ) where
  atlas := sampling.atlas
  terrain := sampling.terrain
  remaining := sampling.remaining
  source := ⟨sampling.source, handed⟩

/-- The dice drawn by so many calls, each with the face that was handed out. -/
def drawn (sampling : Sampling ρ) (calls : Nat) : List (UInt32 × UInt32) :=
  ((sampling.recorded []).after calls).source.handed

theorem call_recorded (sampling : Sampling ρ) (handed : List (UInt32 × UInt32)) :
    (sampling.recorded handed).call = (sampling.call.1, sampling.call.2.recorded (handed ++
      if sampling.remaining = 0 then []
      else (sampling.atlas.encounter sampling.terrain).transcript sampling.source)) := by
  by_cases hover : sampling.remaining = 0
  · have hrecorded : (sampling.recorded handed).remaining = 0 := hover
    rw [call_of_ended hover, call_of_ended hrecorded, if_pos hover, List.append_nil]
  · cases hnext : sampling.next? with
    | none => exact absurd (next?_eq_none_iff.1 hnext) hover
    | some found =>
      obtain ⟨outcome, rest⟩ := found
      rw [call_of_next? hnext, if_neg hover]
      obtain ⟨remaining, hremaining, hrun, hrest⟩ := next?_eq_some_iff.1 hnext
      refine call_of_next? (next?_eq_some_iff.2 ⟨remaining, hremaining, ?_, ?_⟩)
      · simp only [recorded, run_recorder, hrun]
      · rw [hrest]
        rfl

theorem after_recorded (sampling : Sampling ρ) (calls : Nat) :
    (sampling.recorded []).after calls =
      (sampling.after calls).recorded (sampling.drawn calls) := by
  induction calls with
  | zero => rfl
  | succ calls ih =>
    rw [drawn, after, ih, call_recorded]
    rfl

theorem drawn_succ (sampling : Sampling ρ) (calls : Nat) :
    sampling.drawn (calls + 1) = sampling.drawn calls ++
      if (sampling.after calls).remaining = 0 then []
      else
        (sampling.atlas.encounter sampling.terrain).transcript (sampling.after calls).source := by
  obtain ⟨hatlas, hterrain⟩ := sampling.after_frame calls
  rw [drawn, after, after_recorded, call_recorded, hatlas, hterrain]
  rfl

/-- Calls draw the dice of the encounters that they are answered with, and no others. -/
theorem Brings.drawn {sampling last : Sampling ρ} {items : List Outcome}
    (h : Brings sampling items last) (calls : Nat) :
    sampling.drawn calls = ((List.range (min calls items.length)).map fun i =>
      (sampling.atlas.encounter sampling.terrain).transcript
        (sampling.after i).source).flatten := by
  induction calls with
  | zero => simp [Sampling.drawn, recorded, Sampling.after]
  | succ calls ih =>
    have hover := (h.after calls).remaining_eq_zero_iff
    rw [List.drop_eq_nil_iff] at hover
    rw [drawn_succ, ih]
    by_cases hle : items.length ≤ calls
    · rw [if_pos (hover.2 hle), Nat.min_eq_right hle, Nat.min_eq_right (Nat.le_succ_of_le hle),
        List.append_nil]
    · have hlt : calls < items.length := Nat.lt_of_not_le hle
      rw [if_neg (mt hover.1 hle), Nat.min_eq_left (Nat.le_of_lt hlt), Nat.min_eq_left hlt,
        List.range_succ]
      simp

/-- **A sampling is a series of encounters that ends with the first failure.** -/
theorem drain_course (sampling : Sampling ρ) :
    let items := sampling.drain.1.toList
    -- no more come than were asked for; fewer come only if the last one failed
    items.length ≤ sampling.remaining ∧
    (∀ i error, items[i]? = some (.error error) → i + 1 = items.length) ∧
    (items.length < sampling.remaining → ∃ error, items.getLast? = some (.error error)) ∧
    -- they are called for one by one, and after them no call is answered or changes anything
    (∀ calls, sampling.answer calls = items[calls]?) ∧
    (∀ calls, sampling.pull calls = ((items.take calls).toArray, sampling.after calls)) ∧
    (∀ calls, items.length ≤ calls → sampling.after calls = sampling.drain.2) ∧
    -- each is rolled from the source that the one before it left, and no other dice are drawn
    (∀ i outcome, items[i]? = some outcome →
      (sampling.atlas.encounter sampling.terrain).run (sampling.after i).source =
        (outcome, (sampling.after (i + 1)).source)) ∧
    (∀ calls, sampling.drawn calls = ((List.range (min calls items.length)).map fun i =>
      (sampling.atlas.encounter sampling.terrain).transcript
        (sampling.after i).source).flatten) ∧
    -- the bounds enclose what is still to come
    (∀ calls, (sampling.after calls).bounds.1 ≤ items.length - calls ∧
      items.length - calls ≤ (sampling.after calls).bounds.2) ∧
    ∀ calls, (∀ outcome ∈ items.drop calls, outcome.isOk) →
      (sampling.after calls).bounds.2 = items.length - calls := by
  intro items
  have h : Brings sampling items sampling.drain.2 := sampling.brings_drain
  refine ⟨h.length_le, fun i error hitem => ?_, h.error_of_lt, h.answer, fun calls => ?_,
    fun calls hle => h.after_eq hle, fun i outcome hitem => h.run_after hitem, h.drawn,
    fun calls => ⟨Nat.zero_le _, ?_⟩, fun calls hok => ?_⟩
  · have hafter := h.after i
    obtain ⟨hlt, hget⟩ := List.getElem?_eq_some_iff.1 hitem
    rw [List.drop_eq_getElem_cons hlt, hget] at hafter
    have hnil := List.drop_eq_nil_iff.1 hafter.eq_nil_of_error
    omega
  · rw [h.pull]
    simp
  · have hlength := (h.after calls).length_le
    rw [List.length_drop] at hlength
    exact hlength
  · have hlength := (h.after calls).length_eq hok
    rw [List.length_drop] at hlength
    exact hlength.symm

end Sampling

end Wilderness
