import Wilderness.Proofs.WrittenThrows

/-!
# Rendered throws

A rendered throw is one of the texts that describe it, provided that there is such a text at all
(`Throw.Expressible.denotes`).  So the throws that rendering and reading give back are exactly
those that some text describes.
-/

namespace Wilderness

/-! ## Normal characters -/

namespace Text

/-- A character that reading leaves as it is. -/
def IsNormal (c : Char) : Prop :=
  isBlank c = false ∧ c.toLower = c

theorem isNormal_of_isDigit {c : Char} (h : c.isDigit = true) : IsNormal c := by
  obtain ⟨hlow, hhigh⟩ := Char.isDigit_iff_toNat.1 h
  have hzero : '0'.toNat = 48 := rfl
  have hnine : '9'.toNat = 57 := rfl
  constructor
  · simp only [isBlank, blankRanges, List.any_cons, List.any_nil, Bool.or_eq_false_iff,
      Bool.and_eq_false_iff, decide_eq_false_iff_not, and_true]
    omega
  · refine dif_neg fun hupper => ?_
    have hA : 65 ≤ c.toNat := UInt32.le_iff_toNat_le.1 hupper.1
    omega

theorem Numeral.isNormal {text : List Char} {n : Nat} (h : Numeral text n) :
    ∀ c ∈ text, IsNormal c :=
  fun c hc => isNormal_of_isDigit (h.isDigit c hc)

theorem SignedNumeral.isNormal {text : List Char} {value : Int} (h : SignedNumeral text value) :
    ∀ c ∈ text, IsNormal c := by
  cases h with
  | plain h => exact h.isNormal
  | plus h => exact List.forall_mem_cons.2 ⟨⟨by decide, by decide⟩, h.isNormal⟩
  | minus h => exact List.forall_mem_cons.2 ⟨⟨by decide, by decide⟩, h.isNormal⟩

end Text

namespace Throw

open Text

/-! ## Throws that can be written -/

/-- The throws that some text describes: the constants, and dice whose numbers have room. -/
def Expressible (t : Throw) : Prop :=
  t = .constant t.modifier ∨ t.Writable

theorem Denotes.expressible {text : List Char} {t : Throw} (h : Denotes text t) :
    t.Expressible := by
  cases h with
  | constant => exact .inl rfl
  | dice _ _ _ _ h => exact .inr h

theorem Expressible.scaling_ne {t : Throw} (h : t.Expressible) : t.scaling ≠ .bands 0 := by
  intro hzero
  rcases h with h | h
  · rw [h] at hzero
    cases hzero
  · have hfactor := h.factor.1
    rw [hzero] at hfactor
    exact absurd hfactor (by decide)

/-! ## Rendered parts -/

theorem scalingText_render (scaling : Scaling) :
    ScalingText (renderScaling scaling).toList scaling := by
  cases scaling with
  | times n =>
    by_cases hn : n = 1
    · subst hn
      exact .absent
    · rw [renderScaling, if_neg hn, String.toList_append]
      exact .times (numeral_repr n.toNat)
  | bands n =>
    rw [renderScaling, String.toList_append]
    exact .bands (numeral_repr n.toNat)

theorem modifierText_render (modifier : Int) :
    ModifierText (renderModifier modifier).toList modifier := by
  rcases Int.lt_trichotomy modifier 0 with hneg | rfl | hpos
  · obtain ⟨n, rfl⟩ := Int.eq_negSucc_of_lt_zero hneg
    have htext : (renderModifier (Int.negSucc n)).toList = '-' :: (n + 1).repr.toList := by
      simp [renderModifier, Int.repr]
    rw [htext]
    exact .minus (numeral_repr (n + 1))
  · exact .absent
  · obtain ⟨n, rfl⟩ := Int.eq_ofNat_of_zero_le (Int.le_of_lt hpos)
    have htext : (renderModifier n).toList = '+' :: n.repr.toList := by
      rw [renderModifier, if_neg (Int.ne_of_gt hpos), if_pos hpos, String.toList_append]
      rfl
    rw [htext]
    exact .plus (numeral_repr n)

theorem toList_render {t : Throw} (h : t.count ≠ 0) :
    t.render.toList = t.count.toNat.repr.toList ++ 'd' :: (t.sides.toNat.repr.toList ++
      ((renderScaling t.scaling).toList ++ (renderModifier t.modifier.toInt).toList)) := by
  simp [render, isConstant, h]

theorem Expressible.denotes {t : Throw} (h : t.Expressible) : Denotes t.render.toList t := by
  rcases h with h | h
  · rw [h]
    exact .constant (signedNumeral_repr _)
  · rw [toList_render (one_le_toNat_iff.1 h.count.1)]
    exact .dice (.written (numeral_repr _)) (numeral_repr _) (scalingText_render _)
      (modifierText_render _) h

/-! ## Rendered texts are normal -/

theorem ScalingText.isNormal {text : List Char} {scaling : Scaling} (h : ScalingText text scaling) :
    ∀ c ∈ text, IsNormal c := by
  cases h with
  | absent => simp
  | times h => exact List.forall_mem_cons.2 ⟨⟨by decide, by decide⟩, h.isNormal⟩
  | bands h => exact List.forall_mem_cons.2 ⟨⟨by decide, by decide⟩, h.isNormal⟩

theorem ModifierText.isNormal {text : List Char} {value : Int} (h : ModifierText text value) :
    ∀ c ∈ text, IsNormal c := by
  cases h with
  | absent => simp
  | plus h => exact List.forall_mem_cons.2 ⟨⟨by decide, by decide⟩, h.isNormal⟩
  | minus h => exact List.forall_mem_cons.2 ⟨⟨by decide, by decide⟩, h.isNormal⟩

theorem Denotes.isNormal {text : List Char} {t : Throw} (h : Denotes text t) :
    ∀ c ∈ text, IsNormal c := by
  cases h with
  | constant h => exact h.isNormal
  | dice hcount hsides hscaling hmodifier =>
    have hcount : ∀ c ∈ _, IsNormal c := fun c hc => isNormal_of_isDigit (hcount.isDigit c hc)
    have hbehind := List.forall_mem_append.2
      ⟨hsides.isNormal, List.forall_mem_append.2 ⟨hscaling.isNormal, hmodifier.isNormal⟩⟩
    exact List.forall_mem_append.2
      ⟨hcount, List.forall_mem_cons.2 ⟨⟨by decide, by decide⟩, hbehind⟩⟩

theorem normalize_eq_self {text : List Char} (h : ∀ c ∈ text, IsNormal c) :
    normalize text = text := by
  rw [normalize, trim_eq_self fun c hc => (h c hc).1]
  exact (List.map_congr_left fun c hc => (h c hc).2).trans (List.map_id text)

theorem parse_render_of_expressible {t : Throw} (h : t.Expressible) : parse t.render = .ok t := by
  rw [parse_eq_ok_iff_normalize, normalize_eq_self h.denotes.isNormal]
  exact h.denotes

theorem expressible_of_parse {text : String} {t : Throw} (h : parse text = .ok t) :
    t.Expressible :=
  (parse_eq_ok_iff_normalize.1 h).expressible

/-- **Rendering and reading give back the throws that some text describes, and no others.** -/
theorem parse_render_eq_ok_iff (t : Throw) :
    (parse t.render = .ok t ↔ t.Expressible) ∧
      ∀ text, parse text = .ok t →
        parse t.render = .ok t ∧ (parse t.render).map render = .ok t.render := by
  refine ⟨⟨expressible_of_parse, parse_render_of_expressible⟩, fun text h => ?_⟩
  have hround := parse_render_of_expressible (expressible_of_parse h)
  rw [hround]
  exact ⟨rfl, rfl⟩

end Throw

end Wilderness
