import Wilderness.Dice.Script

/-!
# The faces of a script

Asked for one die after another, a script goes round its faces and puts each of them on the die that
it is asked for (`Script.getElem?_deal`), and it counts what it has handed out (`Script.deal_rest`).
Scripts with the same face for every turn answer alike for ever (`Script.Alike.deal`), so nobody who
asks for dice can tell how often the faces of a script were written down one after another
(`Script.deal_ofList`).
-/

namespace Wilderness

/-! ## Dice in a row -/

namespace FaceSource

variable {ρ : Type} [FaceSource ρ]

/-- The faces that a source hands out for these dice in turn, and what is left of the source. -/
def deal : ρ → List UInt32 → List UInt32 × ρ
  | source, [] => ([], source)
  | source, sides :: dice =>
    let (face, rest) := draw source sides
    let (faces, last) := deal rest dice
    (face :: faces, last)

theorem length_deal (source : ρ) (dice : List UInt32) :
    (deal source dice).1.length = dice.length := by
  induction dice generalizing source with
  | nil => rfl
  | cons sides dice ih => exact congrArg (· + 1) (ih _)

end FaceSource

namespace Script

open FaceSource

/-! ## Turns -/

/-- The face that is scripted for a turn, if there is any. -/
def scripted? (script : Script) (turn : Nat) : Option UInt32 :=
  script.faces[turn % script.faces.size]?

/-- The face that is handed out for a die at a turn. -/
def answer (script : Script) (turn : Nat) (sides : UInt32) : UInt32 :=
  (script.scripted? turn).elim 1 fun face => wrap face sides

/-- The script after so many turns. -/
def advance (script : Script) (turns : Nat) : Script :=
  if script.faces = #[] then script else { script with drawn := script.drawn + turns }

theorem scripted?_eq_none_iff (script : Script) (turn : Nat) :
    script.scripted? turn = none ↔ script.faces = #[] := by
  rw [scripted?, Array.getElem?_eq_none_iff, ← Array.size_eq_zero_iff]
  constructor
  · intro hle
    by_cases hzero : script.faces.size = 0
    · exact hzero
    · exact absurd (Nat.mod_lt turn (Nat.pos_of_ne_zero hzero)) (Nat.not_lt.2 hle)
  · intro hzero
    omega

theorem draw_eq (script : Script) (sides : UInt32) :
    script.draw sides = (script.answer script.drawn sides, script.advance 1) := by
  have hread : script.faces[script.drawn % script.faces.size]? = script.scripted? script.drawn := rfl
  rw [draw, hread, answer, advance]
  cases hface : script.scripted? script.drawn with
  | none =>
    rw [if_pos ((script.scripted?_eq_none_iff _).1 hface)]
    rfl
  | some face =>
    have hne : script.faces ≠ #[] := by
      intro hempty
      rw [(script.scripted?_eq_none_iff _).2 hempty] at hface
      cases hface
    rw [if_neg hne]
    rfl

/-- Whatever is scripted, the face that is handed out is on the die. -/
theorem answer_mem (script : Script) (turn : Nat) (sides : UInt32) :
    1 ≤ (script.answer turn sides).toNat ∧
      (script.answer turn sides).toNat ≤ max sides.toNat 1 := by
  unfold answer
  cases script.scripted? turn with
  | none => exact ⟨Nat.le_refl 1, Nat.le_max_right _ 1⟩
  | some face =>
    have hlt : (max face.toNat 1 - 1) % max sides.toNat 1 < max sides.toNat 1 :=
      Nat.mod_lt _ (by omega)
    rw [Option.elim_some, toNat_wrap]
    omega

theorem advance_zero (script : Script) : script.advance 0 = script := by
  unfold advance
  split <;> rfl

theorem advance_advance (script : Script) (turns more : Nat) :
    (script.advance turns).advance more = script.advance (turns + more) := by
  unfold advance
  by_cases hempty : script.faces = #[]
  · simp only [if_pos hempty]
  · simp only [if_neg hempty, Nat.add_assoc]

/-- An empty script answers the same at all turns, so it does not matter that it counts none. -/
theorem answer_advance (script : Script) (turns more : Nat) (sides : UInt32) :
    (script.advance turns).answer ((script.advance turns).drawn + more) sides =
      script.answer (script.drawn + (turns + more)) sides := by
  unfold advance
  by_cases hempty : script.faces = #[]
  · rw [if_pos hempty, answer, answer, (script.scripted?_eq_none_iff _).2 hempty,
      (script.scripted?_eq_none_iff _).2 hempty]
  · rw [if_neg hempty, Nat.add_assoc]
    rfl

/-! ## Turns in a row -/

theorem deal_cons (script : Script) (sides : UInt32) (dice : List UInt32) :
    deal script (sides :: dice) =
      (script.answer script.drawn sides :: (deal (script.advance 1) dice).1,
        (deal (script.advance 1) dice).2) := by
  have hdraw : FaceSource.draw script sides = _ := draw_eq script sides
  rw [deal, hdraw]

theorem getElem?_deal (script : Script) (dice : List UInt32) (i : Nat) :
    (deal script dice).1[i]? = dice[i]?.map (script.answer (script.drawn + i)) := by
  induction dice generalizing script i with
  | nil => rfl
  | cons sides dice ih =>
    rw [deal_cons]
    cases i with
    | zero => rfl
    | succ i =>
      rw [List.getElem?_cons_succ, List.getElem?_cons_succ, ih, Nat.add_comm i 1]
      exact congrArg (dice[i]?.map ·) (funext (script.answer_advance 1 i))

theorem deal_rest (script : Script) (dice : List UInt32) :
    (deal script dice).2 = script.advance dice.length := by
  induction dice generalizing script with
  | nil => exact script.advance_zero.symm
  | cons sides dice ih =>
    rw [deal_cons, ih, advance_advance, List.length_cons, Nat.add_comm]

/-! ## Scripts that are alike -/

/-- Two scripts at the same turn, with the same face for every turn. -/
structure Alike (script other : Script) : Prop where
  drawn_eq : script.drawn = other.drawn
  scripted?_eq : ∀ turn, script.scripted? turn = other.scripted? turn

namespace Alike

variable {script other : Script}

theorem answer_eq (h : Alike script other) (turn : Nat) (sides : UInt32) :
    script.answer turn sides = other.answer turn sides := by
  rw [answer, answer, h.scripted?_eq]

theorem advance (h : Alike script other) (turns : Nat) :
    Alike (script.advance turns) (other.advance turns) := by
  have hempty : script.faces = #[] ↔ other.faces = #[] := by
    rw [← script.scripted?_eq_none_iff 0, h.scripted?_eq, other.scripted?_eq_none_iff]
  unfold Script.advance
  by_cases hnone : script.faces = #[]
  · rwa [if_pos hnone, if_pos (hempty.1 hnone)]
  · rw [if_neg hnone, if_neg (mt hempty.2 hnone)]
    exact ⟨congrArg (· + turns) h.drawn_eq, h.scripted?_eq⟩

theorem draw (h : Alike script other) (sides : UInt32) :
    (script.draw sides).1 = (other.draw sides).1 ∧
      Alike (script.draw sides).2 (other.draw sides).2 := by
  rw [draw_eq, draw_eq]
  exact ⟨h.drawn_eq ▸ h.answer_eq script.drawn sides, h.advance 1⟩

/-- Not even a procedure that chooses its dice by the faces before can tell them apart. -/
theorem run {ε α : Type} (p : Rolling ε α) (h : Alike script other) :
    (p.run script).1 = (p.run other).1 ∧ p.transcript script = p.transcript other ∧
      Alike (p.run script).2 (p.run other).2 := by
  induction p generalizing script other with
  | done result => exact ⟨rfl, rfl, h⟩
  | fail error => exact ⟨rfl, rfl, h⟩
  | ask sides next ih =>
    obtain ⟨hface, hrest⟩ := h.draw sides
    obtain ⟨hend, htranscript, hlast⟩ := ih (script.draw sides).1 hrest
    simp only [Rolling.run, Rolling.transcript, FaceSource.draw]
    rw [← hface]
    exact ⟨hend, congrArg (List.cons _) htranscript, hlast⟩

theorem deal (h : Alike script other) (dice : List UInt32) :
    (FaceSource.deal script dice).1 = (FaceSource.deal other dice).1 ∧
      (FaceSource.deal script dice).2.drawn = (FaceSource.deal other dice).2.drawn := by
  constructor
  · apply List.ext_getElem?
    intro i
    rw [getElem?_deal, getElem?_deal, h.drawn_eq, funext (h.answer_eq _)]
  · rw [deal_rest, deal_rest, (h.advance _).drawn_eq]

end Alike

/-! ## Scripts written down again -/

theorem getElem?_flatten_replicate {α : Type} (items : List α) {times i : Nat}
    (h : i < times * items.length) :
    (List.replicate times items).flatten[i]? = items[i % items.length]? := by
  induction times generalizing i with
  | zero =>
    rw [Nat.zero_mul] at h
    exact absurd h (Nat.not_lt_zero i)
  | succ times ih =>
    rw [List.replicate_succ, List.flatten_cons, List.getElem?_append]
    rw [Nat.succ_mul] at h
    split
    · next hfirst => rw [Nat.mod_eq_of_lt hfirst]
    · next hlater => rw [ih (by omega), ← Nat.mod_eq_sub_mod (Nat.not_lt.1 hlater)]

theorem scripted?_ofList (faces : List UInt32) (turn : Nat) :
    (ofList faces).scripted? turn = faces[turn % faces.length]? := by
  simp only [scripted?, ofList, List.size_toArray, List.getElem?_toArray]

theorem alike_replicate (faces : List UInt32) {times : Nat} (pos : 0 < times) :
    Alike (ofList (List.replicate times faces).flatten) (ofList faces) where
  drawn_eq := rfl
  scripted?_eq turn := by
    have hlength : (List.replicate times faces).flatten.length = times * faces.length := by simp
    rw [scripted?_ofList, scripted?_ofList, hlength]
    cases faces with
    | nil => simp
    | cons face faces =>
      have hlt : turn % (times * (face :: faces).length) < times * (face :: faces).length :=
        Nat.mod_lt _ (Nat.mul_pos pos (Nat.succ_pos _))
      rw [getElem?_flatten_replicate _ hlt, Nat.mod_mul_left_mod]

/-- **What a script hands out** for any dice in a row. -/
theorem deal_ofList (faces dice : List UInt32) :
    let dealt := (FaceSource.deal (ofList faces) dice).1
    let rest := (FaceSource.deal (ofList faces) dice).2
    -- there is a face for every die, and it is on the die
    dealt.length = dice.length ∧
    (∀ (i : Nat) (sides face : UInt32), dice[i]? = some sides → dealt[i]? = some face →
      1 ≤ face.toNat ∧ face.toNat ≤ max sides.toNat 1) ∧
    -- the scripted faces come one after another, starting again after the last one
    (faces ≠ [] → rest.drawn = dice.length ∧
      ∀ (i : Nat) (sides : UInt32), dice[i]? = some sides → ∃ scripted face,
        faces[i % faces.length]? = some scripted ∧ dealt[i]? = some face ∧
        face.toNat = (max scripted.toNat 1 - 1) % max sides.toNat 1 + 1 ∧
        (1 ≤ scripted → scripted ≤ sides → face = scripted)) ∧
    -- without scripted faces there are ones for ever
    (faces = [] → rest.drawn = 0 ∧ ∀ face ∈ dealt, face = 1) ∧
    -- nobody can tell how often the faces were written down
    ∀ times, 0 < times →
      let again := ofList (List.replicate times faces).flatten
      (FaceSource.deal again dice).1 = dealt ∧ (FaceSource.deal again dice).2.drawn = rest.drawn ∧
      ∀ {ε α : Type} (p : Rolling ε α), (p.run again).1 = (p.run (ofList faces)).1 ∧
        p.transcript again = p.transcript (ofList faces) ∧
        (p.run again).2.drawn = (p.run (ofList faces)).2.drawn := by
  intro dealt rest
  have hdealt : ∀ i, dealt[i]? = dice[i]?.map ((ofList faces).answer i) := by
    intro i
    have hturn := (ofList faces).getElem?_deal dice i
    rwa [show (ofList faces).drawn + i = i from Nat.zero_add i] at hturn
  have hrest : rest = (ofList faces).advance dice.length := (ofList faces).deal_rest dice
  refine ⟨length_deal _ _, ?onDie, ?turns, ?ones, ?again⟩
  case onDie =>
    intro i sides face hsides hface
    rw [hdealt, hsides] at hface
    obtain rfl := Option.some.inj hface
    exact (ofList faces).answer_mem i sides
  case turns =>
    intro hfaces
    have hne : (ofList faces).faces ≠ #[] := by simpa [ofList] using hfaces
    refine ⟨?_, fun i sides hsides => ?_⟩
    · rw [hrest, advance, if_neg hne]
      exact Nat.zero_add _
    · obtain ⟨scripted, hscripted⟩ := Option.ne_none_iff_exists'.1
        (mt ((ofList faces).scripted?_eq_none_iff i).1 hne)
      have hface : dealt[i]? = some (wrap scripted sides) := by
        rw [hdealt, hsides, Option.map_some, answer, hscripted, Option.elim_some]
      rw [scripted?_ofList] at hscripted
      exact ⟨scripted, _, hscripted, hface, toNat_wrap scripted sides, wrap_of_mem⟩
  case ones =>
    rintro rfl
    refine ⟨?_, fun face hface => ?_⟩
    · rw [hrest]
      rfl
    · obtain ⟨i, hi⟩ := List.mem_iff_getElem?.1 hface
      rw [hdealt, Option.map_eq_some_iff] at hi
      obtain ⟨sides, -, rfl⟩ := hi
      rfl
  case again =>
    intro times pos again
    have halike := alike_replicate faces pos
    obtain ⟨hfaces, hdrawn⟩ := halike.deal dice
    refine ⟨hfaces, hdrawn, fun p => ?_⟩
    obtain ⟨hend, htranscript, hlast⟩ := halike.run p
    exact ⟨hend, htranscript, hlast.drawn_eq⟩

example : (FaceSource.deal (ofList [7, 12, 0]) [6, 6, 6, 8]).1 = [1, 6, 1, 7] := by decide

end Script

end Wilderness
