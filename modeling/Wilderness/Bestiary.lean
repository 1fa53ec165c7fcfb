import Std.Data.TreeMap
import Wilderness.Monster
import Wilderness.Table.RollTable

/-!
# Bestiaries

A bestiary knows monsters by name.  A name may also stand for a family of monsters, which a roll
tells apart.  Names are in the order of their code points, and a name that is listed again takes
the place of the old one.
-/

namespace Wilderness

/-- What is listed under a name. -/
inductive Listing where
  | single (monster : Monster)
  | family (variants : RollTable String)
deriving DecidableEq

/-- The name that a listing goes by. -/
def Listing.name : Listing → String
  | single monster => monster.name
  | family variants => variants.name

/-- Whether several monsters share the name. -/
def Listing.isFamily : Listing → Bool
  | single _ => false
  | family _ => true

/-- Monsters and families by name. -/
structure Bestiary where
  listings : Std.TreeMap String Listing
  /-- Everything is listed under its own name. -/
  named : ∀ {name : String} {listing : Listing}, listings[name]? = some listing → listing.name = name

/-- Why a name does not lead to one monster. -/
inductive Unidentified where
  /-- The name, or the variant that was rolled, is not listed. -/
  | unknown (name : String)
  /-- The variant that was rolled is a family again. -/
  | flaw (flaw : Flaw)
  /-- The roll missed the rows of a family. -/
  | offTable (miss : OffTable)
deriving DecidableEq

namespace Bestiary

/-- The bestiary without monsters. -/
def empty : Bestiary where
  listings := ∅
  named := by simp

/-- The bestiary with one more listing, under its own name. -/
def insert (bestiary : Bestiary) (listing : Listing) : Bestiary where
  listings := bestiary.listings.insert listing.name listing
  named := by
    intro name found h
    rw [Std.TreeMap.getElem?_insert] at h
    split at h
    · next same =>
      cases h
      exact Std.LawfulEqCmp.eq_of_compare same
    · exact bestiary.named h

/-- The bestiary of some listings, the last one of a name winning. -/
def ofList (listings : List Listing) : Bestiary :=
  listings.foldl insert empty

/-- What is listed under a name. -/
def get? (bestiary : Bestiary) (name : String) : Option Listing :=
  bestiary.listings[name]?

/-- Whether anything is listed under a name. -/
def contains (bestiary : Bestiary) (name : String) : Bool :=
  bestiary.listings.contains name

/-- The number of names. -/
def size (bestiary : Bestiary) : Nat :=
  bestiary.listings.size

/-- Whether nothing is listed. -/
def isEmpty (bestiary : Bestiary) : Bool :=
  bestiary.listings.isEmpty

/-- All names in order, with what is listed under them. -/
def toList (bestiary : Bestiary) : List (String × Listing) :=
  bestiary.listings.toList

/-- The one monster that a variant of a family names. -/
def variant (bestiary : Bestiary) (family variant : String) : Except Unidentified Monster :=
  match bestiary.get? variant with
  | some (.single monster) => .ok monster
  | some (.family _) => .error (.flaw ⟨family, .familyVariant variant⟩)
  | none => .error (.unknown variant)

/-- The monster of a name; a family takes a roll for the variant. -/
def identify (bestiary : Bestiary) (name : String) : Rolling Unidentified Monster :=
  match bestiary.get? name with
  | some (.single monster) => .done monster
  | some (.family variants) => do
    let (_, variant) ← variants.roll.mapError .offTable
    .ofExcept (bestiary.variant name variant)
  | none => .fail (.unknown name)

/-! ## Checks -/

/-- What is wrong with hit dice, which have to be a finite number and not a negative one. -/
def hitDiceDefect? (hitDice : Float) : Option Defect :=
  if !hitDice.isFinite || hitDice < 0.0 then some (.hitDice hitDice) else none

/-- What is wrong with a variant, which has to be listed as a single monster. -/
def variantDefect? (bestiary : Bestiary) (variant : String) : Option Defect :=
  match bestiary.get? variant with
  | some (.single _) => none
  | some (.family _) => some (.familyVariant variant)
  | none => some (.unlistedVariant variant)

/-- What is wrong with a listing. -/
def listingDefect? (bestiary : Bestiary) : Listing → Option Defect
  | .single monster => hitDiceDefect? monster.hitDice
  | .family variants => variants.values.findSome? bestiary.variantDefect?

/-- The first flaw in the order of names. -/
def flaw? (bestiary : Bestiary) : Option Flaw :=
  bestiary.toList.findSome? fun (name, listing) =>
    (bestiary.listingDefect? listing).map fun defect => ⟨name, defect⟩

end Bestiary

end Wilderness
