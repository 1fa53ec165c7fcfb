import Wilderness.Proofs.Decoded
import Wilderness.Proofs.Tiling

/-!
# Values restored

Values are written in one form and read in several, and reading checks them: the notation of a
throw, the rows of a table.  What has passed the checks is written so that it passes them again and
is the same value (`decode_encode_monster`, `decode_encode_table` and so on, one for each type,
each from the ones of its parts), and what is written is a text that is read as it was written.
`Exchange.restored_of_decode` puts this together.
-/

namespace Wilderness.Exchange

/-! ## Values decoded again -/

theorem decode_encode_word (n : UInt32) : decode (encode n) = .ok n := by
  have hrange : (0 : Int) ≤ n.toNat ∧ (n.toNat : Int) < UInt32.size := by
    have := n.toNat_lt
    constructor
    · omega
    · exact Int.ofNat_lt.2 this
  simp only [encode, decode]
  rw [if_pos hrange, Int.toNat_natCast, UInt32.ofNat_toNat]

theorem decode_encode_string (text : String) : decode (encode text) = .ok text := rfl

theorem decode_encode_die (die : Die) : decode (encode die) = .ok die := by
  cases die with
  | other sides =>
    have hsides := decode_encode_word sides
    change (decode (encode sides)).map Die.other = _
    rw [hsides]
    rfl
  | _ => rfl

theorem decode_encode_entry (entry : Entry) : decode (encode entry) = .ok entry := by
  cases entry <;> rfl

theorem decode_encode_throw {t : Throw} (h : t.Expressible) : decode (encode t) = .ok t := by
  change (Throw.parse t.render).mapError _ = _
  exact mapError_eq_ok_iff.2 (Throw.parse_render_of_expressible h)

variable {α : Type} [Exchange α]

theorem field?_cons_self (name : String) (value : Json) (members : List (String × Json)) :
    (field? ((name, value) :: members) name : Except DecodeError (Option α)) =
      (decode value).map some := by
  simp [field?, Json.member?]

theorem field?_cons_of_ne {name other : String} (h : other ≠ name) (value : Json)
    (members : List (String × Json)) :
    (field? ((other, value) :: members) name : Except DecodeError (Option α)) =
      field? members name := by
  simp [field?, Json.member?, h]

theorem decode_encode_list {values : List α}
    (h : ∀ value ∈ values, decode (encode value) = .ok value) :
    decode (encode values) = .ok values := by
  change decodeList (values.map encode) = .ok values
  induction values with
  | nil => rfl
  | cons value values ih =>
    obtain ⟨hvalue, hvalues⟩ := List.forall_mem_cons.1 h
    rw [List.map_cons, decodeList, hvalue, ih hvalues]
    rfl

theorem field?_head {name : String} {value : Json} {members : List (String × Json)} {x : α}
    (h : decode value = .ok x) : field? ((name, value) :: members) name = .ok (some x) := by
  rw [field?_cons_self, h]
  rfl

theorem field?_tail {name other : String} {value : Json} {members : List (String × Json)}
    {found : Option α} (hne : other ≠ name) (h : field? members name = .ok found) :
    field? ((other, value) :: members) name = .ok found := by
  rw [field?_cons_of_ne hne, h]

theorem decode_encode_row {row : Row α} (h : decode (encode row.value) = .ok row.value) :
    decode (encode row) = .ok row := by
  have hlow := decode_encode_word row.low
  have hhigh := decode_encode_word row.high
  refine bind_eq_ok_iff.2 ⟨_, field?_tail (by decide) (field?_head hhigh), ?_⟩
  refine bind_eq_ok_iff.2 ⟨_, field?_head hlow, ?_⟩
  exact bind_eq_ok_iff.2
    ⟨_, field?_tail (by decide) (field?_tail (by decide) (field?_head h)), rfl⟩

theorem decode_encode_table {table : RollTable α}
    (h : ∀ value ∈ table.values, decode (encode value) = .ok value) :
    decode (encode table) = .ok table := by
  have hname := decode_encode_string table.name
  have hdie := decode_encode_die table.die
  have hrows : decode (encode table.rows) = .ok table.rows :=
    decode_encode_list fun row hrow => decode_encode_row (h _ (List.mem_map_of_mem hrow))
  have hchecked : checkTable table.name table.die table.rows = .ok table :=
    mapError_eq_ok_iff.2 table.ofRows_self
  refine bind_eq_ok_iff.2 ⟨_, field?_tail (by decide) (field?_head hdie), ?_⟩
  refine bind_eq_ok_iff.2 ⟨_, field?_head hname, ?_⟩
  refine bind_eq_ok_iff.2
    ⟨_, field?_tail (by decide) (field?_tail (by decide) (field?_head hrows)), ?_⟩
  exact hchecked

theorem decode_encode_worth {worth : Worth} (h : ∀ t ∈ worth.throws, t.Expressible) :
    decode (encode worth) = .ok worth := by
  cases worth with
  | each hitDice =>
    change (decode (encode hitDice)).map Worth.each = _
    rw [decode_encode_word]
    rfl
  | leader level entourage retainer =>
    have hentourage := decode_encode_throw (h entourage (by simp [Worth.throws]))
    have hretainer := decode_encode_throw (h retainer (by simp [Worth.throws]))
    have hlevel := decode_encode_word level
    change decodeLeader [("level", encode level), ("entourage", encode entourage),
      ("retainer", encode retainer)] = _
    refine bind_eq_ok_iff.2 ⟨_, field?_tail (by decide) (field?_head hentourage), ?_⟩
    refine bind_eq_ok_iff.2 ⟨_, field?_head hlevel, ?_⟩
    exact bind_eq_ok_iff.2
      ⟨_, field?_tail (by decide) (field?_tail (by decide) (field?_head hretainer)), rfl⟩

theorem decode_encode_double {x : Float} (finite : x.isFinite = true) :
    decode (encode x) = .ok x := by
  change decode (Json.ofFloat x) = _
  rw [Json.ofFloat, dif_pos finite]
  rfl

theorem decode_encode_monster {monster : Monster} (h : ∀ t ∈ monster.throws, t.Expressible)
    (finite : monster.hitDice.isFinite = true) : decode (encode monster) = .ok monster := by
  rw [Monster.throws_eq, List.forall_mem_cons] at h
  have hname := decode_encode_string monster.name
  have hnumber := decode_encode_throw h.1
  have hhitDice := decode_encode_double finite
  have hworth := decode_encode_worth h.2
  -- in the order in which the decoder looks for the fields, not in which they are written
  refine bind_eq_ok_iff.2 ⟨_, field?_tail (by decide)
    (field?_tail (by decide) (field?_tail (by decide) (field?_head hworth))), ?_⟩
  refine bind_eq_ok_iff.2
    ⟨_, field?_tail (by decide) (field?_tail (by decide) (field?_head hhitDice)), ?_⟩
  refine bind_eq_ok_iff.2 ⟨_, field?_head hname, ?_⟩
  exact bind_eq_ok_iff.2 ⟨_, field?_tail (by decide) (field?_head hnumber), rfl⟩

theorem decode_encode_listing {listing : Listing} (h : ∀ t ∈ listing.throws, t.Expressible)
    (finite : ∀ monster, listing = .single monster → monster.hitDice.isFinite = true) :
    decode (encode listing) = .ok listing := by
  cases listing with
  | single monster =>
    change (decode (encode monster)).map Listing.single = _
    rw [decode_encode_monster h (finite monster rfl)]
    rfl
  | family variants =>
    change (decode (encode variants)).map Listing.family = _
    rw [decode_encode_table fun name _ => decode_encode_string name]
    rfl

/-! ## Texts -/

theorem legible_word (n : UInt32) : (encode n).Legible := by
  have hlt : n.toNat < Nat.pow 2 64 := Nat.lt_of_lt_of_le n.toNat_lt (by decide)
  exact .int ⟨by omega, Int.ofNat_lt.2 hlt⟩

theorem legible_tagged {name : String} {value : α} (h : (encode value).Legible) :
    (tagged name value).Legible :=
  .object (by simp) (by simpa using h)

theorem legible_die (die : Die) : (encode die).Legible := by
  cases die with
  | other sides => exact legible_tagged (legible_word sides)
  | _ => exact .string _

theorem legible_entry (entry : Entry) : (encode entry).Legible := by
  cases entry with
  | monster name => exact legible_tagged (.string name)
  | subTable name => exact legible_tagged (.string name)

theorem legible_row {row : Row α} (h : (encode row.value).Legible) : (encode row).Legible := by
  refine .object (by simp) ?_
  simp only [List.forall_mem_cons]
  exact ⟨legible_word row.low, legible_word row.high, h, by simp⟩

theorem legible_table {table : RollTable α} (h : ∀ value ∈ table.values, (encode value).Legible) :
    (encode table).Legible := by
  have hrows : (encode table.rows).Legible := by
    refine .array fun element helement => ?_
    obtain ⟨row, hrow, rfl⟩ := List.mem_map.1 helement
    exact legible_row (h _ (List.mem_map_of_mem hrow))
  refine .object (by simp) ?_
  simp only [List.forall_mem_cons]
  exact ⟨.string table.name, legible_die table.die, hrows, by simp⟩

theorem legible_worth (worth : Worth) : (encode worth).Legible := by
  cases worth with
  | each hitDice => exact legible_tagged (legible_word hitDice)
  | leader level entourage retainer =>
    refine .object (by simp) ?_
    simp only [List.forall_mem_cons]
    refine ⟨.object (by simp) ?_, by simp⟩
    simp only [List.forall_mem_cons]
    exact ⟨legible_word level, .string _, .string _, by simp⟩

/-- The double that a text is read as. -/
def readDouble? (text : String) : Option Float :=
  match Json.readNumber text.toList with
  | some (.float value _, []) => some value
  | _ => none

/-- The text of a double is read as the same double. -/
def ReadsBack (x : Float) : Prop :=
  readDouble? (Decimal.json.write x) = some x

instance (x : Float) : Decidable (ReadsBack x) :=
  inferInstanceAs (Decidable (readDouble? (Decimal.json.write x) = some x))

theorem readNumber_of_readDouble? {text : String} {x : Float} (h : readDouble? text = some x) :
    ∃ finite, Json.readNumber text.toList = some (.float x finite, []) := by
  unfold readDouble? at h
  split at h
  · next value finite hread =>
    obtain rfl := Option.some.inj h
    exact ⟨finite, hread⟩
  · cases h

theorem legible_double {x : Float} (h : ReadsBack x) : (encode x).Legible := by
  obtain ⟨finite, h⟩ := readNumber_of_readDouble? h
  change (Json.ofFloat x).Legible
  rw [Json.ofFloat, dif_pos finite]
  exact .float h

theorem legible_monster {monster : Monster} (h : ReadsBack monster.hitDice) :
    (encode monster).Legible := by
  refine .object (by simp) ?_
  simp only [List.forall_mem_cons]
  exact ⟨.string monster.name, .string _, legible_double h, legible_worth monster.worth, by simp⟩

theorem legible_listing {listing : Listing}
    (h : ∀ monster, listing = .single monster → ReadsBack monster.hitDice) :
    (encode listing).Legible := by
  cases listing with
  | single monster => exact legible_tagged (legible_monster (h monster rfl))
  | family variants => exact legible_tagged (legible_table fun name _ => .string name)

/-! ## Values restored -/

/-- One pass over a text: it is read, decoded, and what is found is written. -/
def rewrite (α : Type) [Exchange α] (text : String) : Option String := do
  let value ← Json.parse? text
  let found : α ← (decode value).toOption
  return (encode found).compact

/-- A value that is the same after it is written as a text and read. -/
structure Restored (x : α) : Prop where
  /-- The text is read as what was written. -/
  text : Json.parse? (encode x).compact = some (encode x)
  value : decode (encode x) = .ok x
  /-- The text is left unchanged by another pass. -/
  settled : rewrite α (encode x).compact = some (encode x).compact

theorem restored_of_legible {x : α} (hlegible : (encode x).Legible)
    (hvalue : decode (encode x) = .ok x) : Restored x := by
  have htext := Json.parse?_compact hlegible
  refine ⟨htext, hvalue, ?_⟩
  simp only [rewrite, htext, hvalue, Option.bind_eq_bind, Option.bind_some, Except.toOption]
  rfl

theorem restored_throw {t : Throw} (h : t.Expressible) : Restored t :=
  restored_of_legible (.string t.render) (decode_encode_throw h)

theorem restored_table_string (table : RollTable String) : Restored table :=
  restored_of_legible (legible_table fun name _ => .string name)
    (decode_encode_table fun name _ => decode_encode_string name)

theorem restored_table_entry (table : RollTable Entry) : Restored table :=
  restored_of_legible (legible_table fun entry _ => legible_entry entry)
    (decode_encode_table fun entry _ => decode_encode_entry entry)

theorem restored_worth {worth : Worth} (h : ∀ t ∈ worth.throws, t.Expressible) : Restored worth :=
  restored_of_legible (legible_worth worth) (decode_encode_worth h)

/-- **What is decoded is restored**, and so is every table that is built.  A monster of a value that
can be read is decoded again in any case; its text is read back if that of its hit dice is. -/
theorem restored_of_decode :
    (∀ (value : Json) (t : Throw), decode value = .ok t → Restored t) ∧
    (∀ (value : Json) (table : RollTable String), decode value = .ok table → Restored table) ∧
    (∀ (value : Json) (table : RollTable Entry), decode value = .ok table → Restored table) ∧
    (∀ (value : Json) (worth : Worth), decode value = .ok worth → Restored worth) ∧
    (∀ (text : String) (value : Json), Json.parse? text = some value → value.Sized) ∧
    (∀ (value : Json) (monster : Monster), value.Sized → decode value = .ok monster →
      decode (encode monster) = .ok monster ∧
        (ReadsBack monster.hitDice → Restored monster)) ∧
    (∀ (value : Json) (listing : Listing), value.Sized → decode value = .ok listing →
      decode (encode listing) = .ok listing ∧
        ((∀ monster, listing = .single monster → ReadsBack monster.hitDice) →
          Restored listing)) ∧
    (∀ (name : String) (die : Die) (rows : List (Row String)) (table : RollTable String),
      RollTable.ofRows name die rows = .ok table →
        table.die = die ∧ table.rows = sortRows rows ∧ Restored table) ∧
    (∀ (name : String) (die : Die) (rows : List (Row Entry)) (table : RollTable Entry),
      RollTable.ofRows name die rows = .ok table →
        table.die = die ∧ table.rows = sortRows rows ∧ Restored table) := by
  refine ⟨?throws, ?strings, ?entries, ?worths, ?texts, ?monsters, ?listings, ?builtStrings,
    ?builtEntries⟩
  case throws => exact fun _ _ h => restored_throw (expressible_of_decode h)
  case strings => exact fun _ table _ => restored_table_string table
  case entries => exact fun _ table _ => restored_table_entry table
  case worths => exact fun _ _ h => restored_worth (expressible_of_decode_worth h)
  case texts => exact fun _ _ h => Json.parse?_sized h
  case monsters =>
    intro value monster sized h
    have hvalue := decode_encode_monster (expressible_of_decode_monster h)
      (isFinite_of_decode_monster sized h)
    exact ⟨hvalue, fun hdouble => restored_of_legible (legible_monster hdouble) hvalue⟩
  case listings =>
    intro value listing sized h
    have hvalue := decode_encode_listing (expressible_of_decode_listing h)
      (isFinite_of_decode_listing sized h)
    exact ⟨hvalue, fun hdouble => restored_of_legible (legible_listing hdouble) hvalue⟩
  case builtStrings =>
    intro name die rows table h
    obtain ⟨-, hdie, hrows⟩ := RollTable.ofRows_eq_ok_iff.1 h
    exact ⟨hdie, hrows, restored_table_string table⟩
  case builtEntries =>
    intro name die rows table h
    obtain ⟨-, hdie, hrows⟩ := RollTable.ofRows_eq_ok_iff.1 h
    exact ⟨hdie, hrows, restored_table_entry table⟩

/-- A bandit chief, with his fields out of order. -/
def chief : Json :=
  .object [("number", .string " 3D6x10"), ("name", .string "Bandit \"chief\""),
    ("hit_dice", .float 1.1 (by decide +kernel)),
    ("ehd", .object [("Leader", .object [("retainer", .string "1d4-1"), ("level", .int 9),
      ("entourage", .string "D20/3")])])]

theorem sized_chief : chief.Sized := by
  refine .object ?_
  simp only [List.forall_mem_cons]
  refine ⟨.string _, .string _, .float _ _, .object ?_, by simp⟩
  simp only [List.forall_mem_cons]
  refine ⟨.object ?_, by simp⟩
  simp only [List.forall_mem_cons]
  exact ⟨.string _, .int ⟨by decide, by decide⟩, .string _, by simp⟩

theorem restored_of_decode_chief :
    ∃ monster : Monster, decode chief = .ok monster ∧ ReadsBack monster.hitDice ∧
      Restored monster := by
  have hdecode : (decode chief : Except DecodeError Monster).toOption =
      some ⟨"Bandit \"chief\"", dice 3 6 (.times 10), 1.1,
        .leader 9 (dice 1 20 (.bands 3)) (dice 1 4 (.times 1) (-1))⟩ := by decide +kernel
  have hdouble : ReadsBack 1.1 := by decide +kernel
  cases h : (decode chief : Except DecodeError Monster) with
  | error e =>
    rw [h] at hdecode
    cases hdecode
  | ok monster =>
    rw [h] at hdecode
    obtain rfl := Option.some.inj hdecode
    obtain ⟨-, -, -, -, -, hmonsters, -⟩ := restored_of_decode
    exact ⟨_, rfl, hdouble, (hmonsters chief _ sized_chief h).2 hdouble⟩

end Wilderness.Exchange
