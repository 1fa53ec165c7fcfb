import Wilderness.Dice.Die

/-!
# Rolling procedures

A procedure that rolls dice is a tree: it ends with a result or an error, or asks for a face of a
die and goes on with whatever face it is handed.  It can look at nothing else, so what it asks for
and what it ends with depend on the faces alone.  `Rolling.run` feeds it from a source of faces, and
`Rolling.transcript` keeps what passes between the two.  `run_bind` and `transcript_bind` say that
procedures one after another share one source.
-/

namespace Wilderness

/-- A procedure that asks for faces of dice and ends with an `α` or an error. -/
inductive Rolling (ε α : Type) where
  /-- The procedure is over and has a result. -/
  | done (result : α)
  /-- The procedure is over and has failed. -/
  | fail (error : ε)
  /-- A die with so many sides is to be rolled. -/
  | ask (sides : UInt32) (next : UInt32 → Rolling ε α)

/-- Whatever hands out faces, one for each number of sides asked for. -/
class FaceSource (ρ : Type) where
  /-- The next face for a die with so many sides, and the source after it. -/
  draw : ρ → UInt32 → UInt32 × ρ

namespace Rolling

variable {ε ε' α β ρ : Type}

/-- One procedure after another. -/
protected def bind : Rolling ε α → (α → Rolling ε β) → Rolling ε β
  | done result, f => f result
  | fail error, _ => fail error
  | ask sides next, f => ask sides fun face => (next face).bind f

instance : Monad (Rolling ε) where
  pure := done
  bind := Rolling.bind

/-- One face of a die. -/
def face (die : Die) : Rolling ε UInt32 :=
  ask die.sides done

/-- The procedure that asks for nothing and ends as given. -/
def ofExcept : Except ε α → Rolling ε α
  | .ok result => done result
  | .error error => fail error

/-- The same procedure with its errors told in another way. -/
def mapError (tell : ε → ε') : Rolling ε α → Rolling ε' α
  | done result => done result
  | fail error => fail (tell error)
  | ask sides next => ask sides fun face => (next face).mapError tell

/-- The end of a procedure that is fed from a source, and what is left of the source. -/
def run [FaceSource ρ] : Rolling ε α → ρ → Except ε α × ρ
  | done result, source => (.ok result, source)
  | fail error, source => (.error error, source)
  | ask sides next, source =>
    let (face, rest) := FaceSource.draw source sides
    (next face).run rest

/-- The dice that a procedure asks a source for, by their sides, each with the face that it is
handed. -/
def transcript [FaceSource ρ] : Rolling ε α → ρ → List (UInt32 × UInt32)
  | done _, _ => []
  | fail _, _ => []
  | ask sides next, source =>
    let (face, rest) := FaceSource.draw source sides
    (sides, face) :: (next face).transcript rest

/-! ## Laws -/

@[simp] theorem pure_eq (result : α) : (pure result : Rolling ε α) = done result := rfl

@[simp] theorem done_bind (result : α) (f : α → Rolling ε β) : (done result >>= f) = f result := rfl

@[simp] theorem fail_bind (error : ε) (f : α → Rolling ε β) : (fail error >>= f) = fail error := rfl

@[simp] theorem ask_bind (sides : UInt32) (next : UInt32 → Rolling ε α) (f : α → Rolling ε β) :
    (ask sides next >>= f) = ask sides fun face => next face >>= f := rfl

theorem bind_done (p : Rolling ε α) : (p >>= done) = p := by
  induction p with
  | done result => rfl
  | fail error => rfl
  | ask sides next ih => exact congrArg (ask sides) (funext ih)

theorem bind_bind (p : Rolling ε α) (f : α → Rolling ε β) {γ : Type} (g : β → Rolling ε γ) :
    ((p >>= f) >>= g) = (p >>= fun result => f result >>= g) := by
  induction p with
  | done result => rfl
  | fail error => rfl
  | ask sides next ih => exact congrArg (ask sides) (funext ih)

instance : LawfulMonad (Rolling ε) :=
  LawfulMonad.mk' _ bind_done (fun _ _ => rfl) (fun p f g => bind_bind p f g)

/-- The second procedure starts from the source that the first one left. -/
theorem run_bind [FaceSource ρ] (p : Rolling ε α) (f : α → Rolling ε β) (source : ρ) :
    (p >>= f).run source =
      match p.run source with
      | (.ok result, rest) => (f result).run rest
      | (.error error, rest) => (.error error, rest) := by
  induction p generalizing source with
  | done result => rfl
  | fail error => rfl
  | ask sides next ih => exact ih _ _

/-- A last step that asks for nothing only changes the result. -/
theorem run_bind_done [FaceSource ρ] (p : Rolling ε α) (f : α → β) (source : ρ) :
    (p >>= fun result => done (f result)).run source =
      ((p.run source).1.map f, (p.run source).2) := by
  induction p generalizing source with
  | done result => rfl
  | fail error => rfl
  | ask sides next ih => exact ih _ _

/-- The second procedure goes on with the transcript where the first one left it. -/
theorem transcript_bind [FaceSource ρ] (p : Rolling ε α) (f : α → Rolling ε β) (source : ρ) :
    (p >>= f).transcript source =
      p.transcript source ++
        match p.run source with
        | (.ok result, rest) => (f result).transcript rest
        | (.error _, _) => [] := by
  induction p generalizing source with
  | done result => rfl
  | fail error => rfl
  | ask sides next ih => exact congrArg (List.cons _) (ih _ _)

theorem transcript_bind_done [FaceSource ρ] (p : Rolling ε α) (f : α → β) (source : ρ) :
    (p >>= fun result => done (f result)).transcript source = p.transcript source := by
  induction p generalizing source with
  | done result => rfl
  | fail error => rfl
  | ask sides next ih => exact congrArg (List.cons _) (ih _ _)

/-- A retold error changes neither what is asked for nor any result. -/
theorem run_mapError [FaceSource ρ] (tell : ε → ε') (p : Rolling ε α) (source : ρ) :
    (p.mapError tell).run source = ((p.run source).1.mapError tell, (p.run source).2) := by
  induction p generalizing source with
  | done result => rfl
  | fail error => rfl
  | ask sides next ih => exact ih _ _

theorem transcript_mapError [FaceSource ρ] (tell : ε → ε') (p : Rolling ε α) (source : ρ) :
    (p.mapError tell).transcript source = p.transcript source := by
  induction p generalizing source with
  | done result => rfl
  | fail error => rfl
  | ask sides next ih => exact congrArg (List.cons _) (ih _ _)

end Rolling

end Wilderness
