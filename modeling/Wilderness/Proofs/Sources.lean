import Wilderness.Proofs.Trace

/-!
# What a source is asked and what it answers

A source can be made to keep what it hands out (`Recorder`), and what is kept of a run is its
transcript (`run_recorder`).  Two sources that answer alike on the dice of a run cannot be told
apart by it, whatever they would answer later (`run_of_trace`, `run_eq_of_answers`).
-/

namespace Wilderness

variable {ε α ρ : Type} [FaceSource ρ]

/-! ## Recorders -/

/-- A source and all that it has handed out. -/
structure Recorder (ρ : Type) where
  source : ρ
  handed : List (UInt32 × UInt32)

instance : FaceSource (Recorder ρ) where
  draw recorder sides :=
    let (face, rest) := FaceSource.draw recorder.source sides
    (face, ⟨rest, recorder.handed ++ [(sides, face)]⟩)

namespace Rolling

/-- A recorder hands out what its source does, and the transcript is put behind what it has kept
before. -/
theorem run_recorder (p : Rolling ε α) (source : ρ) (handed : List (UInt32 × UInt32)) :
    p.run (⟨source, handed⟩ : Recorder ρ) =
      ((p.run source).1, ⟨(p.run source).2, handed ++ p.transcript source⟩) := by
  induction p generalizing source handed with
  | done result => simp only [run, transcript, List.append_nil]
  | fail error => simp only [run, transcript, List.append_nil]
  | ask sides next ih =>
    simp only [run, transcript, FaceSource.draw, ih, List.append_assoc, List.singleton_append]

/-! ## Sources that answer alike -/

/-- The source, if it is asked for these dice in turn, hands out these faces. -/
def Answers : ρ → List (UInt32 × UInt32) → Prop
  | _, [] => True
  | source, (sides, face) :: handed =>
    (FaceSource.draw source sides).1 = face ∧ Answers (FaceSource.draw source sides).2 handed

instance Answers.decidable :
    (source : ρ) → (handed : List (UInt32 × UInt32)) → Decidable (Answers source handed)
  | _, [] => inferInstanceAs (Decidable True)
  | source, (sides, face) :: handed =>
    have := Answers.decidable (FaceSource.draw source sides).2 handed
    inferInstanceAs (Decidable ((FaceSource.draw source sides).1 = face ∧
      Answers (FaceSource.draw source sides).2 handed))

/-- A trace is the run on any source that answers like this. -/
theorem run_of_trace {p : Rolling ε α} {handed : List (UInt32 × UInt32)}
    {outcome : Except ε α} (h : Trace p handed outcome) {source : ρ}
    (answers : Answers source handed) :
    (p.run source).1 = outcome ∧ p.transcript source = handed := by
  induction h generalizing source with
  | done result => exact ⟨rfl, rfl⟩
  | fail error => exact ⟨rfl, rfl⟩
  | ask face _ ih =>
    obtain ⟨hface, hrest⟩ := answers
    cases hface
    obtain ⟨houtcome, htranscript⟩ := ih hrest
    exact ⟨houtcome, congrArg (List.cons _) htranscript⟩

/-- A source that answers like another one during a run leads to the same end over the same
dice. -/
theorem run_eq_of_answers {ρ' : Type} [FaceSource ρ'] (p : Rolling ε α) {source : ρ} {other : ρ'}
    (h : Answers other (p.transcript source)) :
    (p.run other).1 = (p.run source).1 ∧ p.transcript other = p.transcript source :=
  run_of_trace (trace_run p source) h

end Rolling

end Wilderness
