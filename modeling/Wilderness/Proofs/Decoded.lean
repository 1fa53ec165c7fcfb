import Wilderness.Exchange.Monster
import Wilderness.Proofs.Groups
import Wilderness.Proofs.JsonTexts
import Wilderness.Proofs.Rendering
import Wilderness.Proofs.WholeDoubles

/-!
# What is decoded

A decoder read backwards: what a monster, a leader's worth or a listing was decoded from has the
values that its fields were decoded from.  So every throw inside was read from its written form
(`Exchange.expressible_of_decode_listing`), and hit dice are a finite number
(`Exchange.isFinite_of_decode_monster`).
-/

namespace Wilderness

/-! ## Parts of JSON values -/

namespace Json

/-- A value of a member of an object, or an element of an array. -/
inductive Part : Json → Json → Prop
  | member {members : List (String × Json)} {name : String} {part : Json} :
      (name, part) ∈ members → Part (object members) part
  | element {elements : List Json} {part : Json} : part ∈ elements → Part (array elements) part

theorem Sized.part {value part : Json} (h : value.Sized) (hpart : value.Part part) :
    part.Sized := by
  cases hpart with
  | member hmem =>
    cases h with
    | object h => exact h _ hmem
  | element hmem =>
    cases h with
    | array h => exact h _ hmem

end Json

/-! ## Throws inside -/

/-- The throws that a worth is made of. -/
def Worth.throws : Worth → List Throw
  | .each _ => []
  | .leader _ entourage retainer => [entourage, retainer]

theorem Monster.throws_eq (monster : Monster) :
    monster.throws = monster.number :: monster.worth.throws := by
  cases monster with
  | mk name number hitDice worth => cases worth <;> rfl

/-- The throws in a listing, which has none if it is a family. -/
def Listing.throws : Listing → List Throw
  | .single monster => monster.throws
  | .family _ => []

namespace Exchange

/-! ## Fields and alternatives -/

section Fields

variable {α : Type} [Exchange α]

/-- The value has a part that is decoded to this. -/
def HasPart (value : Json) (x : α) : Prop :=
  ∃ part, value.Part part ∧ decode part = .ok x

theorem hasPart_of_field? {members : List (String × Json)} {name : String} {found : Option α}
    {x : α} (h : field? members name = .ok found) (hpresent : present found = .ok x) :
    HasPart (.object members) x := by
  cases found with
  | none => cases hpresent
  | some y =>
    obtain rfl : y = x := Except.ok.inj hpresent
    unfold field? Json.member? at h
    split at h
    · next value hvalue =>
      obtain ⟨member, hfind, rfl⟩ := Option.map_eq_some_iff.1 hvalue
      obtain ⟨z, hz, hsame⟩ := map_eq_ok_iff.1 h
      obtain rfl := Option.some.inj hsame
      exact ⟨member.2, .member (List.mem_of_find?_eq_some hfind), hz⟩
    · cases h

theorem part_of_alternative? {value part : Json} {name : String}
    (h : alternative? value = some (name, some part)) : value.Part part := by
  unfold alternative? at h
  split at h
  · cases h
  · cases h
    exact .member List.mem_cons_self
  · cases h

end Fields

/-! ## Throws and doubles -/

theorem expressible_of_decode {value : Json} {t : Throw} (h : decode value = .ok t) :
    t.Expressible := by
  obtain ⟨text, -, h⟩ := bind_eq_ok_iff.1 h
  cases hparse : Throw.parse text with
  | error e =>
    rw [hparse] at h
    cases h
  | ok parsed =>
    rw [hparse] at h
    cases h
    exact Throw.expressible_of_parse hparse

theorem isFinite_of_decode {value : Json} (sized : value.Sized) {x : Float}
    (h : decode value = .ok x) : x.isFinite = true := by
  cases sized with
  | int hfits =>
    cases h
    exact Double.isFinite_ofInt hfits.1 hfits.2
  | float value finite =>
    cases h
    exact finite
  | _ => cases h

/-! ## Monsters -/

theorem hasPart_of_decodeLeader {members : List (String × Json)} {worth : Worth}
    (h : decodeLeader members = .ok worth) :
    ∃ level entourage retainer, worth = .leader level entourage retainer ∧
      HasPart (.object members) entourage ∧ HasPart (.object members) retainer := by
  obtain ⟨_, hentourage, h⟩ := bind_eq_ok_iff.1 h
  obtain ⟨_, -, h⟩ := bind_eq_ok_iff.1 h
  obtain ⟨_, hretainer, h⟩ := bind_eq_ok_iff.1 h
  obtain ⟨level, -, h⟩ := bind_eq_ok_iff.1 h
  obtain ⟨entourage, hpresentEntourage, h⟩ := bind_eq_ok_iff.1 h
  obtain ⟨retainer, hpresentRetainer, h⟩ := bind_eq_ok_iff.1 h
  cases h
  exact ⟨level, entourage, retainer, rfl, hasPart_of_field? hentourage hpresentEntourage,
    hasPart_of_field? hretainer hpresentRetainer⟩

theorem expressible_of_decode_worth {value : Json} {worth : Worth} (h : decode value = .ok worth) :
    ∀ t ∈ worth.throws, t.Expressible := by
  simp only [decode] at h
  split at h
  · obtain ⟨hitDice, -, rfl⟩ := map_eq_ok_iff.1 h
    intro t ht
    cases ht
  · obtain ⟨level, entourage, retainer, rfl, ⟨_, -, hentourage⟩, ⟨_, -, hretainer⟩⟩ :=
      hasPart_of_decodeLeader h
    simp only [Worth.throws, List.forall_mem_cons]
    exact ⟨expressible_of_decode hentourage, expressible_of_decode hretainer, by simp⟩
  · cases h

theorem hasPart_of_decode_monster {value : Json} {monster : Monster}
    (h : decode value = .ok monster) :
    HasPart value monster.number ∧ HasPart value monster.hitDice ∧ HasPart value monster.worth := by
  cases value with
  | object members =>
    -- the fields are decoded in the order of their names, and only then missed
    obtain ⟨_, hworth, h⟩ := bind_eq_ok_iff.1 h
    obtain ⟨_, hhitDice, h⟩ := bind_eq_ok_iff.1 h
    obtain ⟨_, -, h⟩ := bind_eq_ok_iff.1 h
    obtain ⟨_, hnumber, h⟩ := bind_eq_ok_iff.1 h
    obtain ⟨_, -, h⟩ := bind_eq_ok_iff.1 h
    obtain ⟨_, hpresentNumber, h⟩ := bind_eq_ok_iff.1 h
    obtain ⟨_, hpresentHitDice, h⟩ := bind_eq_ok_iff.1 h
    obtain ⟨_, hpresentWorth, h⟩ := bind_eq_ok_iff.1 h
    cases h
    exact ⟨hasPart_of_field? hnumber hpresentNumber, hasPart_of_field? hhitDice hpresentHitDice,
      hasPart_of_field? hworth hpresentWorth⟩
  | array elements =>
    match elements, h with
    | [name, number, hitDice, worth], h =>
      obtain ⟨_, -, h⟩ := bind_eq_ok_iff.1 h
      obtain ⟨_, hnumber, h⟩ := bind_eq_ok_iff.1 h
      obtain ⟨_, hhitDice, h⟩ := bind_eq_ok_iff.1 h
      obtain ⟨_, hworth, h⟩ := bind_eq_ok_iff.1 h
      cases h
      exact ⟨⟨number, .element (by simp), hnumber⟩, ⟨hitDice, .element (by simp), hhitDice⟩,
        ⟨worth, .element (by simp), hworth⟩⟩
    | [], h | [_], h | [_, _], h | [_, _, _], h | _ :: _ :: _ :: _ :: _ :: _, h => cases h
  | _ => cases h

theorem expressible_of_decode_monster {value : Json} {monster : Monster}
    (h : decode value = .ok monster) : ∀ t ∈ monster.throws, t.Expressible := by
  obtain ⟨⟨_, -, hnumber⟩, -, ⟨_, -, hworth⟩⟩ := hasPart_of_decode_monster h
  rw [Monster.throws_eq]
  exact List.forall_mem_cons.2
    ⟨expressible_of_decode hnumber, expressible_of_decode_worth hworth⟩

theorem isFinite_of_decode_monster {value : Json} (sized : value.Sized) {monster : Monster}
    (h : decode value = .ok monster) : monster.hitDice.isFinite = true := by
  obtain ⟨-, ⟨part, hpart, hhitDice⟩, -⟩ := hasPart_of_decode_monster h
  exact isFinite_of_decode (sized.part hpart) hhitDice

/-! ## Listings -/

theorem hasPart_of_decode_listing {value : Json} {listing : Listing}
    (h : decode value = .ok listing) :
    (∃ monster, listing = .single monster ∧ HasPart value monster) ∨
      ∃ variants, listing = .family variants ∧ HasPart value variants := by
  simp only [decode] at h
  split at h
  · next part hpart =>
    obtain ⟨monster, hmonster, rfl⟩ := map_eq_ok_iff.1 h
    exact .inl ⟨monster, rfl, part, part_of_alternative? hpart, hmonster⟩
  · next part hpart =>
    obtain ⟨variants, hvariants, rfl⟩ := map_eq_ok_iff.1 h
    exact .inr ⟨variants, rfl, part, part_of_alternative? hpart, hvariants⟩
  · cases h

theorem expressible_of_decode_listing {value : Json} {listing : Listing}
    (h : decode value = .ok listing) : ∀ t ∈ listing.throws, t.Expressible := by
  rcases hasPart_of_decode_listing h with ⟨monster, rfl, _, -, hmonster⟩ | ⟨variants, rfl, -⟩
  · exact expressible_of_decode_monster hmonster
  · intro t ht
    cases ht

theorem isFinite_of_decode_listing {value : Json} (sized : value.Sized) {listing : Listing}
    (h : decode value = .ok listing) :
    ∀ monster, listing = .single monster → monster.hitDice.isFinite = true := by
  rintro monster rfl
  rcases hasPart_of_decode_listing h with ⟨_, ⟨⟩, part, hpart, hmonster⟩ | ⟨_, ⟨⟩, -⟩
  exact isFinite_of_decode_monster (sized.part hpart) hmonster

end Exchange

end Wilderness
