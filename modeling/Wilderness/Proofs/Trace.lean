import Wilderness.Dice.Rolling

/-!
# Traces of rolling procedures

A trace is one way through a procedure: the dice that it asks for, each with a face that it is
handed, and how it ends (`Rolling.Trace`).  Nothing is said of where the faces come from, and a run
on any source is a trace (`trace_run`), so what holds of all traces holds for every source.  The
lemmas here take traces apart along the operations that procedures are put together with.
-/

namespace Wilderness.Rolling

variable {ε ε' α β : Type}

/-- The procedure, if it is handed these faces for these dice, ends in this way. -/
inductive Trace : Rolling ε α → List (UInt32 × UInt32) → Except ε α → Prop
  | done (result : α) : Trace (.done result) [] (.ok result)
  | fail (error : ε) : Trace (.fail error) [] (.error error)
  | ask {sides : UInt32} {next : UInt32 → Rolling ε α} (face : UInt32)
      {handed : List (UInt32 × UInt32)} {outcome : Except ε α} :
      Trace (next face) handed outcome → Trace (.ask sides next) ((sides, face) :: handed) outcome

/-- A run on a source is a trace. -/
theorem trace_run {ρ : Type} [FaceSource ρ] (p : Rolling ε α) (source : ρ) :
    Trace p (p.transcript source) (p.run source).1 := by
  induction p generalizing source with
  | done result => exact .done result
  | fail error => exact .fail error
  | ask sides next ih => exact .ask _ (ih _ _)

@[simp] theorem trace_done_iff {result : α} {handed : List (UInt32 × UInt32)}
    {outcome : Except ε α} :
    Trace (.done result) handed outcome ↔ handed = [] ∧ outcome = .ok result := by
  constructor
  · intro h; cases h; exact ⟨rfl, rfl⟩
  · rintro ⟨rfl, rfl⟩; exact .done result

@[simp] theorem trace_fail_iff {error : ε} {handed : List (UInt32 × UInt32)}
    {outcome : Except ε α} :
    Trace (.fail error) handed outcome ↔ handed = [] ∧ outcome = .error error := by
  constructor
  · intro h; cases h; exact ⟨rfl, rfl⟩
  · rintro ⟨rfl, rfl⟩; exact .fail error

theorem trace_ask_iff {sides : UInt32} {next : UInt32 → Rolling ε α}
    {handed : List (UInt32 × UInt32)} {outcome : Except ε α} :
    Trace (.ask sides next) handed outcome ↔
      ∃ face rest, handed = (sides, face) :: rest ∧ Trace (next face) rest outcome := by
  constructor
  · intro h
    cases h with
    | ask face h => exact ⟨face, _, rfl, h⟩
  · rintro ⟨face, rest, rfl, h⟩; exact .ask face h

/-- A sequence of two procedures ends with the first one if that fails, and otherwise the second
one goes on from there. -/
theorem trace_bind_iff {p : Rolling ε α} {f : α → Rolling ε β}
    {handed : List (UInt32 × UInt32)} {outcome : Except ε β} :
    Trace (p >>= f) handed outcome ↔
      (∃ error, outcome = .error error ∧ Trace p handed (.error error)) ∨
      ∃ result first second, handed = first ++ second ∧ Trace p first (.ok result) ∧
        Trace (f result) second outcome := by
  induction p generalizing handed with
  | done result =>
    simp only [done_bind, trace_done_iff, reduceCtorEq, and_false, exists_false, false_or]
    constructor
    · intro h; exact ⟨result, [], handed, rfl, ⟨rfl, rfl⟩, h⟩
    · rintro ⟨result, _, second, rfl, ⟨rfl, hresult⟩, h⟩
      cases hresult
      exact h
  | fail error =>
    simp only [fail_bind, trace_fail_iff, reduceCtorEq, and_false, false_and, exists_false,
      or_false]
    constructor
    · rintro ⟨rfl, rfl⟩; exact ⟨error, rfl, rfl, rfl⟩
    · rintro ⟨_, rfl, rfl, herror⟩
      cases herror
      exact ⟨rfl, rfl⟩
  | ask sides next ih =>
    simp only [ask_bind, trace_ask_iff, ih]
    constructor
    · rintro ⟨face, rest, rfl, ⟨error, rfl, h⟩ | ⟨result, first, second, rfl, h, hf⟩⟩
      · exact .inl ⟨error, rfl, face, rest, rfl, h⟩
      · exact .inr ⟨result, (sides, face) :: first, second, rfl, ⟨face, first, rfl, h⟩, hf⟩
    · rintro (⟨error, rfl, face, rest, rfl, h⟩ |
        ⟨result, _, second, rfl, ⟨face, first, rfl, h⟩, hf⟩)
      · exact ⟨face, rest, rfl, .inl ⟨error, rfl, h⟩⟩
      · exact ⟨face, first ++ second, rfl, .inr ⟨result, first, second, rfl, h, hf⟩⟩

/-- A last step that asks for nothing only changes the result. -/
theorem trace_bind_done_iff {p : Rolling ε α} {f : α → β} {handed : List (UInt32 × UInt32)}
    {outcome : Except ε β} :
    Trace (p >>= fun result => .done (f result)) handed outcome ↔
      ∃ before, Trace p handed before ∧ outcome = before.map f := by
  simp only [trace_bind_iff, trace_done_iff]
  constructor
  · rintro (⟨error, rfl, h⟩ | ⟨result, first, _, rfl, h, rfl, rfl⟩)
    · exact ⟨.error error, h, rfl⟩
    · exact ⟨.ok result, by rwa [List.append_nil], rfl⟩
  · rintro ⟨before, h, rfl⟩
    cases before with
    | error error => exact .inl ⟨error, rfl, h⟩
    | ok result => exact .inr ⟨result, handed, [], (List.append_nil _).symm, h, rfl, rfl⟩

theorem trace_ofExcept_iff {result : Except ε α} {handed : List (UInt32 × UInt32)}
    {outcome : Except ε α} :
    Trace (ofExcept result) handed outcome ↔ handed = [] ∧ outcome = result := by
  cases result with
  | ok result => exact trace_done_iff
  | error error => exact trace_fail_iff

/-- An error told in another way changes nothing that the procedure asks for. -/
theorem trace_mapError_iff {tell : ε → ε'} {p : Rolling ε α} {handed : List (UInt32 × UInt32)}
    {outcome : Except ε' α} :
    Trace (p.mapError tell) handed outcome ↔
      ∃ untold, outcome = untold.mapError tell ∧ Trace p handed untold := by
  induction p generalizing handed with
  | done result =>
    simp only [mapError, trace_done_iff]
    constructor
    · rintro ⟨rfl, rfl⟩; exact ⟨.ok result, rfl, rfl, rfl⟩
    · rintro ⟨_, rfl, rfl, rfl⟩; exact ⟨rfl, rfl⟩
  | fail error =>
    simp only [mapError, trace_fail_iff]
    constructor
    · rintro ⟨rfl, rfl⟩; exact ⟨.error error, rfl, rfl, rfl⟩
    · rintro ⟨_, rfl, rfl, rfl⟩; exact ⟨rfl, rfl⟩
  | ask sides next ih =>
    simp only [mapError, trace_ask_iff, ih]
    constructor
    · rintro ⟨face, rest, rfl, untold, rfl, h⟩; exact ⟨untold, rfl, face, rest, rfl, h⟩
    · rintro ⟨untold, rfl, face, rest, rfl, h⟩; exact ⟨face, rest, rfl, untold, rfl, h⟩

/-! ## Procedures that cannot fail -/

/-- Whatever it is handed, the procedure ends with a result, and with one as described. -/
def Yields (p : Rolling ε α) (post : α → Prop) : Prop :=
  ∀ (handed : List (UInt32 × UInt32)) (outcome : Except ε α), Trace p handed outcome →
    ∃ result, outcome = .ok result ∧ post result

theorem Yields.done {result : α} {post : α → Prop} (h : post result) :
    Yields (.done result : Rolling ε α) post := by
  intro handed outcome htrace
  exact ⟨result, (trace_done_iff.1 htrace).2, h⟩

theorem Yields.bind {p : Rolling ε α} {f : α → Rolling ε β} {mid : α → Prop} {post : β → Prop}
    (hp : Yields p mid) (hf : ∀ result, mid result → Yields (f result) post) :
    Yields (p >>= f) post := by
  intro handed outcome htrace
  rcases trace_bind_iff.1 htrace with ⟨error, -, hfirst⟩ | ⟨result, _, _, -, hfirst, hsecond⟩
  · obtain ⟨_, hresult, -⟩ := hp _ _ hfirst
    cases hresult
  · obtain ⟨_, hresult, hmid⟩ := hp _ _ hfirst
    cases hresult
    exact hf result hmid _ _ hsecond

/-! ## Faces on their dice -/

/-- Faces on their dice, a die without sides being taken for one with a single side. -/
def OnDice (handed : List (UInt32 × UInt32)) : Prop :=
  ∀ throw ∈ handed, 1 ≤ throw.2.toNat ∧ throw.2.toNat ≤ max throw.1.toNat 1

instance (handed : List (UInt32 × UInt32)) : Decidable (OnDice handed) :=
  -- over the list, as the pairs of this type can be gone through as well
  List.decidableBAll (fun throw : UInt32 × UInt32 =>
    1 ≤ throw.2.toNat ∧ throw.2.toNat ≤ max throw.1.toNat 1) handed

/-- What holds of every face that a source can hand out holds of those that it does. -/
theorem forall_mem_transcript {ρ : Type} [FaceSource ρ] {holds : UInt32 × UInt32 → Prop}
    (h : ∀ (source : ρ) (sides : UInt32), holds (sides, (FaceSource.draw source sides).1))
    (p : Rolling ε α) (source : ρ) : ∀ throw ∈ p.transcript source, holds throw := by
  induction p generalizing source with
  | done result => intro throw hthrow; cases hthrow
  | fail error => intro throw hthrow; cases hthrow
  | ask sides next ih =>
    intro throw hthrow
    rcases List.mem_cons.1 hthrow with rfl | hthrow
    · exact h source sides
    · exact ih _ _ throw hthrow

/-- Whatever die the source is asked for, and whenever, the face is on it. -/
def KeepsToDice (ρ : Type) [FaceSource ρ] : Prop :=
  ∀ (source : ρ) (sides : UInt32), 1 ≤ (FaceSource.draw source sides).1.toNat ∧
    (FaceSource.draw source sides).1.toNat ≤ max sides.toNat 1

theorem onDice_transcript {ρ : Type} [FaceSource ρ] (h : KeepsToDice ρ) (p : Rolling ε α)
    (source : ρ) : OnDice (p.transcript source) :=
  forall_mem_transcript (fun source sides => h source sides) p source

end Wilderness.Rolling
