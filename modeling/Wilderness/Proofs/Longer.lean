import Wilderness.Proofs.Course

/-!
# Longer samplings

A sampling without errors goes on where another one would begin (`Brings.append`), and one that has
failed is over however many encounters were asked for (`Brings.failed`).  So samplings add up, and
what a longer one brings at first is what a shorter one brings (`drain_add`).
-/

namespace Wilderness

open Rolling

namespace Sampling

variable {ρ : Type} [FaceSource ρ]

/-! ## More encounters -/

/-- The sampling with more encounters asked for. -/
def extend (sampling : Sampling ρ) (extra : Nat) : Sampling ρ :=
  { sampling with remaining := sampling.remaining + extra }

/-- More encounters asked for leave the next one as it is, and a failure is the end all the same. -/
theorem next?_extend {sampling rest : Sampling ρ} {outcome : Outcome}
    (h : sampling.next? = some (outcome, rest)) (extra : Nat) :
    (sampling.extend extra).next? =
      some (outcome, if outcome.isOk then rest.extend extra else rest) := by
  obtain ⟨remaining, hremaining, hrun, hrest⟩ := next?_eq_some_iff.1 h
  refine next?_eq_some_iff.2 ⟨remaining + extra, ?_, ?_, ?_⟩
  · rw [extend, hremaining]
    exact Nat.add_right_comm remaining 1 extra
  · split
    · exact hrun
    · exact hrun
  · cases outcome with
    | ok encounter =>
      rw [hrest]
      rfl
    | error error =>
      rw [hrest]
      rfl

namespace Brings

variable {sampling last final : Sampling ρ} {items more : List Outcome}

/-- Without a failure, what is asked for besides comes after everything else. -/
theorem append (h : Brings sampling items last) (hok : ∀ outcome ∈ items, outcome.isOk)
    {extra : Nat} (hmore : Brings (last.extend extra) more final) :
    Brings (sampling.extend extra) (items ++ more) final := by
  induction h with
  | ended => exact hmore
  | @next _ _ _ outcome _ hnext _ ih =>
    have hextend := next?_extend hnext extra
    rw [if_pos (hok outcome List.mem_cons_self)] at hextend
    exact .next hextend (ih (fun outcome hmem => hok outcome (List.mem_cons_of_mem _ hmem)) hmore)

theorem failed (h : Brings sampling items last) (hfail : ∃ outcome ∈ items, ¬outcome.isOk)
    (extra : Nat) : Brings (sampling.extend extra) items last := by
  induction h with
  | ended =>
    obtain ⟨_, hmem, -⟩ := hfail
    cases hmem
  | @next _ _ _ outcome _ hnext hrest ih =>
    have hextend := next?_extend hnext extra
    by_cases hok : outcome.isOk
    · rw [if_pos hok] at hextend
      obtain ⟨other, hmem, hother⟩ := hfail
      rcases List.mem_cons.1 hmem with rfl | hmem
      · exact absurd hok hother
      · exact .next hextend (ih ⟨other, hmem, hother⟩)
    · rw [if_neg hok] at hextend
      exact .next hextend hrest

end Brings

end Sampling

/-- So many encounters of a terrain, to be rolled from a source. -/
def Atlas.sampling {ρ : Type} (atlas : Atlas) (terrain : Terrain) (repetitions : Nat)
    (source : ρ) : Sampling ρ where
  atlas := atlas
  terrain := terrain
  remaining := repetitions
  source := source

namespace Sampling

variable {ρ : Type} [FaceSource ρ]

namespace Brings

variable {atlas : Atlas} {terrain : Terrain} {repetitions : Nat} {source : ρ}
  {items : List Outcome} {last : Sampling ρ}

theorem extend_last (h : Brings (atlas.sampling terrain repetitions source) items last)
    (extra : Nat) : last.extend extra = atlas.sampling terrain extra last.source := by
  obtain ⟨hatlas, hterrain⟩ := (atlas.sampling terrain repetitions source).after_frame items.length
  have hover := (h.after items.length).remaining_eq_zero_iff.2 (by simp)
  rw [h.after_eq (Nat.le_refl _)] at hatlas hterrain hover
  rw [extend, hatlas, hterrain, hover, Nat.zero_add]
  rfl

theorem add (h : Brings (atlas.sampling terrain repetitions source) items last)
    (hok : ∀ outcome ∈ items, outcome.isOk) {extra : Nat} {more : List Outcome} {final : Sampling ρ}
    (hmore : Brings (atlas.sampling terrain extra last.source) more final) :
    Brings (atlas.sampling terrain (repetitions + extra) source) (items ++ more) final := by
  rw [← h.extend_last] at hmore
  exact h.append hok hmore

end Brings

/-- **Samplings add up.** A sampling without errors and another one from the source that it leaves
bring what one sampling brings that asks for all of it.  A shorter sampling always brings what a
longer one brings at first, errors included. -/
theorem drain_add (atlas : Atlas) (terrain : Terrain) (source : ρ) :
    (∀ a b,
      let first := (atlas.sampling terrain a source).drain
      let second := (atlas.sampling terrain b first.2.source).drain
      let whole := (atlas.sampling terrain (a + b) source).drain
      (∀ outcome ∈ first.1, outcome.isOk) →
        whole.1 = first.1 ++ second.1 ∧ whole.2.source = second.2.source) ∧
    ∀ a m, a ≤ m →
      (atlas.sampling terrain a source).drain.1 =
        (atlas.sampling terrain m source).drain.1.take a := by
  constructor
  · intro a b first second whole hok
    have hfirst := (atlas.sampling terrain a source).brings_drain
    have hsecond := (atlas.sampling terrain b first.2.source).brings_drain
    have hwhole := (hfirst.add (fun outcome hmem => hok outcome (Array.mem_def.2 hmem))
      hsecond).drain
    simp only [whole, hwhole]
    simp [first, second]
  · intro a m hle
    obtain ⟨extra, rfl⟩ := Nat.exists_eq_add_of_le hle
    obtain ⟨items, last, h⟩ := (atlas.sampling terrain a source).exists_brings
    by_cases hok : ∀ outcome ∈ items, outcome.isOk
    · obtain ⟨more, final, hmore⟩ := (atlas.sampling terrain extra last.source).exists_brings
      have hlength : items.length = a := h.length_eq hok
      rw [h.drain, (h.add hok hmore).drain]
      simp [← hlength]
    · have hlength : items.length ≤ a := h.length_le
      have hlonger := h.failed (by simpa using hok) extra
      rw [h.drain, show atlas.sampling terrain (a + extra) source =
        (atlas.sampling terrain a source).extend extra from rfl, hlonger.drain]
      simp [List.take_of_length_le hlength]

theorem drain_add_standard :
    let source := Seeded.ofSeed 42
    let first := (Atlas.standard.sampling .swamp 200 source).drain
    let second := (Atlas.standard.sampling .swamp 300 first.2.source).drain
    let whole := (Atlas.standard.sampling .swamp (200 + 300) source).drain
    (∀ outcome ∈ first.1, outcome.isOk) ∧
      whole.1 = first.1 ++ second.1 ∧ whole.2.source = second.2.source ∧
      first.1 = whole.1.take 200 := by
  -- for any numbers, so that no sampling is carried out
  have hany : ∀ (a b : Nat) (source : Seeded),
      let first := (Atlas.standard.sampling .swamp a source).drain
      let second := (Atlas.standard.sampling .swamp b first.2.source).drain
      let whole := (Atlas.standard.sampling .swamp (a + b) source).drain
      (∀ outcome ∈ first.1, outcome.isOk) ∧
        whole.1 = first.1 ++ second.1 ∧ whole.2.source = second.2.source ∧
        first.1 = whole.1.take a := by
    intro a b source first second whole
    have hok : ∀ outcome ∈ first.1, outcome.isOk := by
      intro outcome hmem
      exact (Atlas.standard.sampling .swamp a source).brings_drain.isOk Atlas.noZeroBands_standard
        (fun source => onDice_transcript Seeded.draw_mem _ source) outcome (Array.mem_def.1 hmem)
    obtain ⟨hadd, hshorter⟩ := drain_add Atlas.standard .swamp source
    obtain ⟨hitems, hsource⟩ := hadd a b hok
    exact ⟨hok, hitems, hsource, hshorter a (a + b) (Nat.le_add_right a b)⟩
  exact hany 200 300 (Seeded.ofSeed 42)

end Sampling

end Wilderness
