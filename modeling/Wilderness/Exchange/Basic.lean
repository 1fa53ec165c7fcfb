import Wilderness.Dice.Throw.Written
import Wilderness.Json.Basic
import Wilderness.Table.Flaw

/-!
# Exchange

How values are exchanged as JSON: each type has one form that is written, and possibly more that
are read.  A structure is an object with a member for every field, and is also read from an array
of its fields in order.  A choice is an object with one member, named for the alternative; an
alternative without data is just its name.
-/

namespace Wilderness

/-- Why a JSON value does not describe what is asked for. -/
inductive DecodeError where
  /-- The value has a wrong shape. -/
  | shape
  /-- The value describes a table that is flawed. -/
  | flaw (flaw : Flaw)
  /-- The value holds a text that is no throw. -/
  | written (error : ThrowError)
deriving DecidableEq

/-- What the error says, if there is more to it than the shape. -/
def DecodeError.message? : DecodeError → Option String
  | .shape => none
  | .flaw found => some found.message
  | .written error => some error.message

/-- A type whose values are exchanged as JSON. -/
class Exchange (α : Type) where
  encode : α → Json
  decode : Json → Except DecodeError α

export Exchange (encode decode)

namespace Exchange

variable {α : Type}

/-- The decoded member of an object, if there is one of this name. -/
def field? (members : List (String × Json)) (name : String) [Exchange α] :
    Except DecodeError (Option α) :=
  match Json.member? members name with
  | some value => (decode value).map some
  | none => .ok none

/-- What must not be missing. -/
def present : Option α → Except DecodeError α
  | some value => .ok value
  | none => .error .shape

/-- The name of an alternative, and its data if there are any. -/
def alternative? : Json → Option (String × Option Json)
  | .string name => some (name, none)
  | .object [(name, value)] => some (name, some value)
  | _ => none

/-- The name of an alternative without data, which may also be written with a `null`. -/
def plainAlternative? (value : Json) : Option String :=
  match alternative? value with
  | some (name, none) => some name
  | some (name, some .null) => some name
  | _ => none

/-- An alternative with data. -/
def tagged (name : String) [Exchange α] (value : α) : Json :=
  .object [(name, encode value)]

instance : Exchange UInt32 where
  encode n := .int n.toNat
  decode
    | .int value =>
      if 0 ≤ value ∧ value < UInt32.size then .ok (UInt32.ofNat value.toNat) else .error .shape
    | _ => .error .shape

instance : Exchange Float where
  encode := .ofFloat
  decode
    | .int value => .ok (Float.ofInt value)
    | .float value _ => .ok value
    | _ => .error .shape

instance : Exchange String where
  encode := .string
  decode
    | .string value => .ok value
    | _ => .error .shape

/-- The decoded elements of an array. -/
def decodeList [Exchange α] : List Json → Except DecodeError (List α)
  | [] => .ok []
  | element :: rest => do return (← decode element) :: (← decodeList rest)

instance [Exchange α] : Exchange (List α) where
  encode values := .array (values.map encode)
  decode
    | .array elements => decodeList elements
    | _ => .error .shape

end Exchange

end Wilderness
