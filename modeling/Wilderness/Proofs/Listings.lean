import Mathlib.Data.List.Dedup
import Wilderness.Proofs.Building

/-!
# What a bestiary lists

Listings are put into a bestiary one after another, and each takes the place of an earlier one of
its name, whether that was a single monster or a family.  So what is left of them is the last one
of each name (`Bestiary.get?_ofList`), as many as there are different names
(`Bestiary.size_ofList`).  Names are in the order of their characters, which is that of their bytes
in UTF-8 as well: a greater code point has a greater first byte, or the same one and then a greater
byte behind it (`utf8EncodeChar_append_lt`, `utf8Bytes_lt`).
-/

namespace Wilderness

/-! ## The order of bytes -/

/-- The bytes of a text in UTF-8. -/
def utf8Bytes (text : String) : List UInt8 :=
  text.toUTF8.data.toList

theorem utf8Bytes_eq_flatMap (text : String) :
    utf8Bytes text = text.toList.flatMap String.utf8EncodeChar := by
  conv_lhs => rw [utf8Bytes, ← String.ofList_toList (s := text)]
  rw [String.toUTF8_eq_toByteArray, String.toByteArray_ofList, List.utf8Encode,
    List.data_toByteArray]

theorem ofNat_cons_lt_iff {a b : Nat} (ha : a < 256) (hb : b < 256) {x y : List UInt8} :
    UInt8.ofNat a :: x < UInt8.ofNat b :: y ↔ a < b ∨ a = b ∧ x < y := by
  rw [List.cons_lt_cons_iff, UInt8.lt_iff_toNat_lt, ← UInt8.toNat_inj,
    UInt8.toNat_ofNat_of_lt' ha, UInt8.toNat_ofNat_of_lt' hb]

/-- Of two characters the lesser one has the lesser bytes, whatever comes behind them. -/
theorem utf8EncodeChar_append_lt {c d : Char} (h : c < d) (x y : List UInt8) :
    String.utf8EncodeChar c ++ x < String.utf8EncodeChar d ++ y := by
  have hlt : c.val.toNat < d.val.toNat := h
  have hd : d.val.toNat < 1114112 := by
    rcases d.valid with hlow | ⟨-, hhigh⟩
    · exact Nat.lt_trans hlow (by decide)
    · exact hhigh
  simp only [String.utf8EncodeChar]
  generalize c.val.toNat = m at hlt
  generalize d.val.toNat = n at hlt hd
  -- one quotient by 64 after another, so that all groups of six bits are remainders by 64
  have hquotient : ∀ k : Nat, k / 4096 = k / 64 / 64 ∧ k / 262144 = k / 64 / 64 / 64 := by omega
  simp only [hquotient]
  -- the first byte tells how many there are, and longer characters have greater first bytes
  split_ifs <;>
    simp (disch := omega) only [List.cons_append, List.nil_append, ofNat_cons_lt_iff] <;> omega

theorem flatMap_utf8EncodeChar_lt {s t : List Char} (h : s < t) :
    s.flatMap String.utf8EncodeChar < t.flatMap String.utf8EncodeChar := by
  induction s generalizing t with
  | nil =>
    cases t with
    | nil => exact absurd h (List.not_lt_nil _)
    | cons d t =>
      have hd : (String.utf8EncodeChar d).length ≠ 0 := by
        rw [String.length_utf8EncodeChar]
        exact Nat.ne_of_gt d.utf8Size_pos
      rw [List.flatMap_nil, List.flatMap_cons]
      cases hbytes : String.utf8EncodeChar d with
      | nil => exact absurd (congrArg List.length hbytes) hd
      | cons byte bytes => exact List.nil_lt_cons byte _
  | cons c s ih =>
    cases t with
    | nil => exact absurd h (List.not_lt_nil _)
    | cons d t =>
      rw [List.flatMap_cons, List.flatMap_cons]
      rcases List.cons_lt_cons_iff.1 h with hlt | ⟨rfl, hlt⟩
      · exact utf8EncodeChar_append_lt hlt _ _
      · exact List.append_left_lt (ih hlt)

theorem utf8Bytes_lt {a b : String} (h : a < b) : utf8Bytes a < utf8Bytes b := by
  rw [utf8Bytes_eq_flatMap, utf8Bytes_eq_flatMap]
  exact flatMap_utf8EncodeChar_lt h

/-! ## Listings one after another -/

namespace Bestiary

variable {bestiary : Bestiary} {given : List Listing} {name : String} {listing : Listing}

theorem listings_foldl_insert (given : List Listing) :
    (given.foldl insert bestiary).listings =
      given.foldl (fun found listing => found.insert listing.name listing) bestiary.listings := by
  induction given generalizing bestiary with
  | nil => rfl
  | cons listing given ih => exact ih

theorem get?_ofList_eq_find? :
    (ofList given).get? name = given.reverse.find? (·.name == name) := by
  rw [get?, ofList, listings_foldl_insert, getElem?_foldl_insert]
  simp [empty]

/-- Of the listings of a name the last one is kept. -/
theorem get?_ofList :
    (ofList given).get? name = some listing ↔ LastGiven Listing.name given name listing := by
  rw [get?_ofList_eq_find?, find?_reverse_eq_some_iff]

theorem get?_ofList_eq_none :
    (ofList given).get? name = none ↔ ∀ listing ∈ given, listing.name ≠ name := by
  rw [get?_ofList_eq_find?]
  simp

theorem ofList_append (given : List Listing) (added : Listing) :
    ofList (given ++ [added]) = (ofList given).insert added :=
  List.foldl_append

theorem contains_eq_isSome : bestiary.contains name = (bestiary.get? name).isSome := by
  rw [contains, Std.TreeMap.contains_eq_isSome_getElem?]
  rfl

theorem mem_toList :
    (name, listing) ∈ bestiary.toList ↔ bestiary.get? name = some listing :=
  Std.TreeMap.mem_toList_iff_getElem?_eq_some

theorem mem_names_ofList :
    name ∈ (ofList given).toList.map Prod.fst ↔ name ∈ given.map Listing.name := by
  have hlisted : name ∈ (ofList given).toList.map Prod.fst ↔ (ofList given).get? name ≠ none := by
    simp [mem_toList, Option.ne_none_iff_exists']
  rw [hlisted, ne_eq, get?_ofList_eq_none]
  simp

/-- There are as many listings as different names were given. -/
theorem size_ofList : (ofList given).size = (given.map Listing.name).dedup.length := by
  have hnodup : ((ofList given).toList.map Prod.fst).Nodup :=
    List.pairwise_map.2 ((pairwise_toList _).imp fun hlt => String.ne_of_lt hlt)
  have hnames : ((ofList given).toList.map Prod.fst).Perm (given.map Listing.name).dedup :=
    (List.perm_ext_iff_of_nodup hnodup (List.nodup_dedup _)).2 fun name => by
      rw [mem_names_ofList, List.mem_dedup]
  rw [← hnames.length_eq, List.length_map, toList, Std.TreeMap.length_toList, size]

/-- **What is listed.**  Whatever is put into a bestiary one after another, it lists the last one of
each name under that name, in the order of the bytes of the names. -/
theorem ofList_lists (given : List Listing) :
    let bestiary := ofList given
    -- the last listing of a name, be it a single monster or a family, and nothing without one
    (∀ name listing,
      bestiary.get? name = some listing ↔ LastGiven Listing.name given name listing) ∧
    (∀ name, bestiary.get? name = none ↔ ∀ listing ∈ given, listing.name ≠ name) ∧
    (∀ name listing, bestiary.get? name = some listing → listing.name = name) ∧
    (∀ name, bestiary.contains name = (bestiary.get? name).isSome) ∧
    -- as many as there are names
    bestiary.size = (given.map Listing.name).dedup.length ∧
    (bestiary.isEmpty = true ↔ bestiary.size = 0) ∧
    -- each of them once, in ascending order
    ((bestiary.toList.map fun found => utf8Bytes found.1).Pairwise (· < ·)) ∧
    (∀ name listing, (name, listing) ∈ bestiary.toList ↔ bestiary.get? name = some listing) ∧
    -- one more listing counts for its own name and for no other
    ∀ added, ofList (given ++ [added]) = bestiary.insert added ∧
      (bestiary.insert added).get? added.name = some added ∧
      ∀ name, added.name ≠ name → (bestiary.insert added).get? name = bestiary.get? name := by
  intro bestiary
  refine ⟨fun name listing => get?_ofList, fun name => get?_ofList_eq_none,
    fun name listing h => ?_, fun name => contains_eq_isSome, size_ofList, ?_, ?_,
    fun name listing => mem_toList, fun added => ⟨ofList_append given added, ?_, ?_⟩⟩
  · obtain ⟨_, _, -, hname, -⟩ := get?_ofList.1 h
    exact hname
  · rw [isEmpty, Std.TreeMap.isEmpty_eq_size_eq_zero, size, beq_iff_eq]
  · exact List.pairwise_map.2 ((pairwise_toList _).imp utf8Bytes_lt)
  · rw [get?_insert, if_pos rfl]
  · intro name hne
    rw [get?_insert, if_neg hne]

end Bestiary

end Wilderness
