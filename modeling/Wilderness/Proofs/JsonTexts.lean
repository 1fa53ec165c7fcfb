import Wilderness.Proofs.JsonNumbers

/-!
# JSON texts read back

The text of a value without blanks is read as the value (`Json.parse?_compact`), provided that its
numbers are read back one by one and that its objects have no name twice (`Json.Legible`).  The
reader works with a bound on its steps; every value takes at most two for each of its characters.
-/

namespace Wilderness.Json

open Text

/-! ## Quoted texts -/

theorem hexValue?_hexDigit :
    ∀ {value : Nat}, value < 16 → hexValue? (hexDigit value) = some value := by
  decide

theorem readEscapedUnit_control {c : Char} (hc : c.toNat < 32) (rest : List Char) :
    readEscapedUnit ('0' :: '0' :: hexDigit (c.toNat / 16) :: hexDigit (c.toNat % 16) :: rest) =
      some (c, rest) := by
  have hzero : hexValue? '0' = some 0 := rfl
  have hhigh := hexValue?_hexDigit (by omega : c.toNat / 16 < 16)
  have hlow := hexValue?_hexDigit (by omega : c.toNat % 16 < 16)
  have hunit : ((0 * 16 + 0) * 16 + c.toNat / 16) * 16 + c.toNat % 16 = c.toNat := by omega
  simp only [readEscapedUnit, readUnit, hzero, hhigh, hlow, hunit, Option.bind_eq_bind,
    Option.pure_def, Option.bind_some]
  rw [if_neg (by omega), if_neg (by omega), Char.ofNat_toNat]

theorem readQuoted_escape (c : Char) (fuel : Nat) (before rest : List Char) :
    readQuoted (fuel + 1) before (escape c ++ rest) = readQuoted fuel (c :: before) rest := by
  unfold escape
  split
  · next h => subst h; rfl
  split
  · next h => subst h; rfl
  split
  · next h => subst h; rfl
  split
  · next h => subst h; rfl
  split
  · next h => subst h; rfl
  split
  · next h => subst h; rfl
  split
  · next h => subst h; rfl
  split
  · next h =>
    simp only [List.cons_append, List.nil_append, readQuoted, readEscapedUnit_control h,
      Option.bind_eq_bind, Option.bind_some]
  · next hquote hslash _ _ _ _ _ hcontrol =>
    rw [List.singleton_append, readQuoted]
    · rw [if_neg (by simp [hslash, Nat.le_of_not_lt hcontrol])]
    · exact hquote
    · exact fun _ h _ => hslash h
    · exact fun _ _ h _ => hslash h

theorem escape_ne_nil (c : Char) : escape c ≠ [] := by
  unfold escape
  repeat' split
  all_goals simp

theorem readQuoted_flatMap_escape {text : List Char} {fuel : Nat} (before rest : List Char)
    (h : text.length ≤ fuel) :
    readQuoted fuel before (text.flatMap escape ++ '"' :: rest) =
      some (String.ofList (before.reverse ++ text), rest) := by
  induction text generalizing fuel before with
  | nil => cases fuel <;> simp [readQuoted]
  | cons c text ih =>
    obtain ⟨fuel, rfl⟩ : ∃ n, fuel = n + 1 := Nat.exists_eq_add_one.2 (by simp at h; omega)
    rw [List.flatMap_cons, List.append_assoc, readQuoted_escape, ih _ (by simpa using h)]
    simp

/-! ## Values -/

theorem skipBlanks_of_endsRun {text : List Char}
    (h : EndsRun (fun c => c == ' ' || c == '\t' || c == '\n' || c == '\r') text) :
    skipBlanks text = text :=
  h.dropWhile_eq_self

/-- The values that a text without blanks gives back: whole numbers fit, doubles are read as they
are written, and no object has two members of a name. -/
inductive Legible : Json → Prop
  | null : Legible null
  | bool (value : Bool) : Legible (bool value)
  | int {value : Int} : Fits value → Legible (int value)
  | float {value : Float} {finite : value.isFinite = true} :
      readNumber (Decimal.json.write value).toList = some (.float value finite, []) →
      Legible (float value finite)
  | string (value : String) : Legible (string value)
  | array {elements : List Json} : (∀ element ∈ elements, Legible element) →
      Legible (array elements)
  | object {members : List (String × Json)} : (members.map Prod.fst).Nodup →
      (∀ member ∈ members, Legible member.2) → Legible (object members)

/-- The text is read as the value, whatever comes next, if it cannot go on with a number.  A value
takes two steps for each of its characters at the most. -/
def ReadsAs (text : List Char) (value : Json) : Prop :=
  ∀ (fuel : Nat) (rest : List Char), 2 * text.length ≤ fuel → EndsNumber rest →
    readValue fuel (text ++ rest) = some (value, rest)

theorem readValue_number {c : Char} (hc : c = '-' ∨ c.isDigit = true) (fuel : Nat)
    (text : List Char) : readValue (fuel + 1) (c :: text) = readNumber (c :: text) := by
  have hne : ∀ d : Char, d ≠ '-' → d.isDigit = false → c ≠ d := by
    rintro d hminus hdigit rfl
    rcases hc with rfl | hc
    · exact hminus rfl
    · rw [hc] at hdigit
      cases hdigit
  have hskip : skipBlanks (c :: text) = c :: text := by
    refine skipBlanks_of_endsRun (endsRun_cons ?_)
    simp [hne ' ' (by decide) (by decide), hne '\t' (by decide) (by decide),
      hne '\n' (by decide) (by decide), hne '\r' (by decide) (by decide)]
  rw [readValue, hskip]
  split
  · next h => exact absurd (List.cons.inj h).1 (hne 'n' (by decide) (by decide))
  · next h => exact absurd (List.cons.inj h).1 (hne 't' (by decide) (by decide))
  · next h => exact absurd (List.cons.inj h).1 (hne 'f' (by decide) (by decide))
  · next h => exact absurd (List.cons.inj h).1 (hne '"' (by decide) (by decide))
  · next h => exact absurd (List.cons.inj h).1 (hne '[' (by decide) (by decide))
  · next h => exact absurd (List.cons.inj h).1 (hne '\x7b' (by decide) (by decide))
  · rfl

theorem exists_steps {text : List Char} {fuel : Nat} (h : 2 * text.length ≤ fuel)
    (hne : text ≠ []) : ∃ steps, fuel = steps + 1 ∧ 2 * text.length ≤ steps + 1 :=
  ⟨fuel - 1, by have := List.length_pos_iff.2 hne; omega, by omega⟩

theorem ReadsAs.number {text : List Char} {value : Json} (h : readNumber text = some (value, [])) :
    ReadsAs text value := by
  intro fuel rest hfuel hrest
  obtain ⟨c, behind, rfl, hc⟩ := readNumber_head h
  obtain ⟨fuel, rfl, -⟩ := exists_steps hfuel (List.cons_ne_nil _ _)
  rw [List.cons_append, readValue_number hc, ← List.cons_append]
  exact readNumber_append hrest h

theorem toList_quote (text : String) :
    (quote text).toList = '"' :: (text.toList.flatMap escape ++ ['"']) := by
  simp [quote]

theorem readQuoted_quote (text : String) (rest : List Char) :
    readQuoted (text.toList.flatMap escape ++ '"' :: rest).length []
      (text.toList.flatMap escape ++ '"' :: rest) = some (text, rest) := by
  -- escapes only make a text longer, so its written form has steps enough
  have hlength : text.toList.length ≤ (text.toList.flatMap escape).length := by
    generalize text.toList = text
    induction text with
    | nil => simp
    | cons c text ih =>
      have := List.length_pos_iff.2 (escape_ne_nil c)
      simp only [List.flatMap_cons, List.length_cons, List.length_append]
      omega
  rw [readQuoted_flatMap_escape _ _ (hlength.trans (by rw [List.length_append]; omega))]
  simp

theorem ReadsAs.quoted (text : String) : ReadsAs (quote text).toList (.string text) := by
  intro fuel rest hfuel _
  rw [toList_quote] at hfuel ⊢
  obtain ⟨fuel, rfl, -⟩ := exists_steps hfuel (List.cons_ne_nil _ _)
  rw [List.cons_append, List.append_assoc, List.singleton_append]
  have hread : readValue (fuel + 1) ('"' :: (text.toList.flatMap escape ++ '"' :: rest)) =
      (readQuoted (text.toList.flatMap escape ++ '"' :: rest).length []
        (text.toList.flatMap escape ++ '"' :: rest)).map fun found => (string found.1, found.2) :=
    rfl
  rw [hread, readQuoted_quote]
  rfl

/-! ### Elements and members -/

section Steps

variable {text : List Char} {value : Json} {fuel : Nat}

theorem readElements_comma (h : ReadsAs text value) (hfuel : 2 * text.length ≤ fuel)
    (before : List Json) (rest : List Char) :
    readElements (fuel + 1) before (text ++ ',' :: rest) =
      readElements fuel (value :: before) rest := by
  rw [readElements, h fuel _ hfuel (endsRun_cons (by decide))]
  rfl

theorem readElements_close (h : ReadsAs text value) (hfuel : 2 * text.length ≤ fuel)
    (before : List Json) (rest : List Char) :
    readElements (fuel + 1) before (text ++ ']' :: rest) =
      some (array (value :: before).reverse, rest) := by
  rw [readElements, h fuel _ hfuel (endsRun_cons (by decide))]
  rfl

theorem readMembers_name (fuel : Nat) (before : List (String × Json)) (name : String)
    (rest : List Char) :
    readMembers (fuel + 1) before ((quote name).toList ++ ':' :: rest) =
      (readValue fuel rest).bind fun (value, rest) =>
        match skipBlanks rest with
        | ',' :: rest => readMembers fuel (setMember before name value) rest
        | '\x7d' :: rest => some (object (setMember before name value), rest)
        | _ => none := by
  have hquoted := readQuoted_quote name (':' :: rest)
  rw [toList_quote, List.cons_append, List.append_assoc, List.singleton_append, readMembers]
  change (readQuoted _ [] _ >>= _) = _
  rw [hquoted]
  rfl

theorem readMembers_comma (h : ReadsAs text value) (hfuel : 2 * text.length ≤ fuel)
    (before : List (String × Json)) (name : String) (rest : List Char) :
    readMembers (fuel + 1) before ((quote name).toList ++ ':' :: (text ++ ',' :: rest)) =
      readMembers fuel (setMember before name value) rest := by
  rw [readMembers_name, h fuel _ hfuel (endsRun_cons (by decide))]
  rfl

theorem readMembers_close (h : ReadsAs text value) (hfuel : 2 * text.length ≤ fuel)
    (before : List (String × Json)) (name : String) (rest : List Char) :
    readMembers (fuel + 1) before ((quote name).toList ++ ':' :: (text ++ '\x7d' :: rest)) =
      some (object (setMember before name value), rest) := by
  rw [readMembers_name, h fuel _ hfuel (endsRun_cons (by decide))]
  rfl

end Steps

theorem setMember_of_not_mem {members : List (String × Json)} {name : String}
    (h : name ∉ members.map Prod.fst) (value : Json) :
    setMember members name value = members ++ [(name, value)] := by
  induction members with
  | nil => rfl
  | cons member members ih =>
    rw [List.map_cons, List.mem_cons, not_or] at h
    rw [setMember, if_neg (Ne.symm h.1), ih h.2, List.cons_append]

/-- Texts with commas between them. -/
def joined (texts : List String) : List Char :=
  (",".intercalate texts).toList

theorem joined_singleton (text : String) : joined [text] = text.toList := by
  rw [joined, String.intercalate_singleton]

theorem joined_cons_cons (text next : String) (texts : List String) :
    joined (text :: next :: texts) = text.toList ++ ',' :: joined (next :: texts) := by
  rw [joined, String.intercalate_cons_cons, String.toList_append, String.toList_append,
    List.append_assoc]
  rfl

theorem exists_step {text : List Char} {fuel : Nat} (h : 2 * text.length + 1 ≤ fuel) :
    ∃ steps, fuel = steps + 1 ∧ 2 * text.length ≤ steps :=
  ⟨fuel - 1, by omega, by omega⟩

/-- The elements of an array up to its end, put behind those before. -/
theorem readElements_joined {element : Json} {elements : List Json}
    (h : ∀ value ∈ element :: elements, ReadsAs value.compact.toList value) (before : List Json)
    {fuel : Nat} (hfuel : 2 * (joined (compactElements (element :: elements))).length + 1 ≤ fuel)
    (rest : List Char) :
    readElements fuel before (joined (compactElements (element :: elements)) ++ ']' :: rest) =
      some (array (before.reverse ++ element :: elements), rest) := by
  induction elements generalizing element before fuel with
  | nil =>
    obtain ⟨fuel, rfl, hsteps⟩ := exists_step hfuel
    rw [compactElements, compactElements, joined_singleton] at hsteps ⊢
    rw [readElements_close (h element List.mem_cons_self) hsteps, List.reverse_cons]
  | cons next elements ih =>
    obtain ⟨fuel, rfl, hsteps⟩ := exists_step hfuel
    obtain ⟨helement, hrest⟩ := List.forall_mem_cons.1 h
    rw [compactElements, compactElements, joined_cons_cons, List.length_append,
      List.length_cons] at hsteps
    rw [compactElements, compactElements, joined_cons_cons, List.append_assoc, List.cons_append,
      readElements_comma helement (by omega)]
    rw [← compactElements, ih hrest _ (by rw [compactElements]; omega), List.reverse_cons,
      List.append_assoc, List.singleton_append]

theorem toList_member (name : String) (value : Json) :
    (quote name ++ ":" ++ value.compact).toList =
      (quote name).toList ++ ':' :: value.compact.toList := by
  rw [String.toList_append, String.toList_append, List.append_assoc]
  rfl

/-- The members of an object up to its end, put behind those before.  A name that came twice would
be read as one member. -/
theorem readMembers_joined {member : String × Json} {members : List (String × Json)}
    (h : ∀ other ∈ member :: members, ReadsAs other.2.compact.toList other.2)
    {before : List (String × Json)}
    (names : ((before ++ member :: members).map Prod.fst).Nodup) {fuel : Nat}
    (hfuel : 2 * (joined (compactMembers (member :: members))).length + 1 ≤ fuel)
    (rest : List Char) :
    readMembers fuel before (joined (compactMembers (member :: members)) ++ '\x7d' :: rest) =
      some (object (before ++ member :: members), rest) := by
  induction members generalizing member before fuel with
  | nil =>
    obtain ⟨fuel, rfl, hsteps⟩ := exists_step hfuel
    have hname : member.1 ∉ before.map Prod.fst := by
      rw [List.map_append, List.nodup_append] at names
      exact fun hmem => names.2.2 _ hmem _ List.mem_cons_self rfl
    rw [compactMembers, compactMembers, joined_singleton, toList_member] at hsteps ⊢
    rw [List.length_append, List.length_cons] at hsteps
    rw [List.append_assoc, List.cons_append,
      readMembers_close (h member List.mem_cons_self) (by omega), setMember_of_not_mem hname]
  | cons next members ih =>
    obtain ⟨fuel, rfl, hsteps⟩ := exists_step hfuel
    obtain ⟨hmember, hrest⟩ := List.forall_mem_cons.1 h
    have hname : member.1 ∉ before.map Prod.fst := by
      rw [List.map_append, List.nodup_append] at names
      exact fun hmem => names.2.2 _ hmem _ List.mem_cons_self rfl
    have hafter : before ++ member :: next :: members =
        (before ++ [member]) ++ next :: members := by
      rw [List.append_assoc, List.singleton_append]
    rw [compactMembers, compactMembers, joined_cons_cons, toList_member] at hsteps ⊢
    simp only [List.length_append, List.length_cons] at hsteps
    rw [List.append_assoc, List.append_assoc, List.cons_append, List.cons_append,
      readMembers_comma hmember (by omega), setMember_of_not_mem hname, hafter]
    rw [← compactMembers]
    exact ih hrest (hafter ▸ names) (by rw [compactMembers]; omega)

/-! ### Arrays and objects -/

theorem joined_append (text : String) (texts : List String) :
    ∃ behind, joined (text :: texts) = text.toList ++ behind := by
  cases texts with
  | nil => exact ⟨[], by rw [joined_singleton, List.append_nil]⟩
  | cons next texts => exact ⟨_, joined_cons_cons text next texts⟩

theorem toList_array (elements : List Json) :
    (array elements).compact.toList = '[' :: (joined (compactElements elements) ++ [']']) := by
  rw [compact, String.append_assoc, String.toList_append, String.toList_append]
  rfl

theorem toList_object (members : List (String × Json)) :
    (object members).compact.toList =
      '\x7b' :: (joined (compactMembers members) ++ ['\x7d']) := by
  rw [compact, String.append_assoc, String.toList_append, String.toList_append]
  rfl

/-- A blank, or the end of an array. -/
def isBlankOrClose (c : Char) : Bool :=
  c == ' ' || c == '\t' || c == '\n' || c == '\r' || c == ']'

theorem readValue_elements {c : Char} (hc : isBlankOrClose c = false) (fuel : Nat)
    (text : List Char) :
    readValue (fuel + 1) ('[' :: c :: text) = readElements fuel [] (c :: text) := by
  simp only [isBlankOrClose, Bool.or_eq_false_iff] at hc
  obtain ⟨hblank, hclose⟩ := hc
  have hskip : skipBlanks (c :: text) = c :: text :=
    skipBlanks_of_endsRun (endsRun_cons (by simp [hblank]))
  have hopen : skipBlanks ('[' :: c :: text) = '[' :: c :: text :=
    skipBlanks_of_endsRun (endsRun_cons rfl)
  simp only [readValue, hopen, hskip]
  split
  · next h =>
    rw [(List.cons.inj h).1] at hclose
    cases hclose
  · rfl

theorem Legible.head {value : Json} (h : value.Legible) :
    ∃ c rest, value.compact.toList = c :: rest ∧ isBlankOrClose c = false := by
  have hnumber : ∀ {text : List Char} {value : Json}, readNumber text = some (value, []) →
      ∃ c rest, text = c :: rest ∧ isBlankOrClose c = false := by
    intro text value h
    obtain ⟨c, rest, htext, hc⟩ := readNumber_head h
    refine ⟨c, rest, htext, ?_⟩
    rcases hc with rfl | hc
    · rfl
    · simp only [isBlankOrClose, Bool.or_eq_false_iff, beq_eq_false_iff_ne]
      refine ⟨⟨⟨⟨?_, ?_⟩, ?_⟩, ?_⟩, ?_⟩ <;> rintro rfl <;> cases hc
  cases h with
  | null => exact ⟨_, _, rfl, rfl⟩
  | bool value => cases value <;> exact ⟨_, _, rfl, rfl⟩
  | int h => exact hnumber (readNumber_repr h)
  | float h => exact hnumber h
  | string value => exact ⟨_, _, toList_quote value, rfl⟩
  | array => exact ⟨_, _, toList_array _, rfl⟩
  | object => exact ⟨_, _, toList_object _, rfl⟩

theorem readsAs_array {elements : List Json} (hlegible : ∀ value ∈ elements, value.Legible)
    (h : ∀ value ∈ elements, ReadsAs value.compact.toList value) :
    ReadsAs (array elements).compact.toList (array elements) := by
  intro fuel rest hfuel _
  rw [toList_array] at hfuel ⊢
  obtain ⟨fuel, rfl, hsteps⟩ := exists_steps hfuel (List.cons_ne_nil _ _)
  rw [List.length_cons, List.length_append, List.length_singleton] at hsteps
  rw [List.cons_append, List.append_assoc, List.singleton_append]
  cases elements with
  | nil => rfl
  | cons element elements =>
    -- by its first character an element is told from the end of an empty array
    obtain ⟨c, behind, hhead, hc⟩ := (hlegible element List.mem_cons_self).head
    obtain ⟨more, hjoined⟩ := joined_append element.compact (compactElements elements)
    have hread := readElements_joined h [] (by omega : _ ≤ fuel) rest
    rw [compactElements, hjoined, hhead] at hread ⊢
    rw [List.cons_append, List.cons_append, readValue_elements hc]
    exact hread

theorem readsAs_object {members : List (String × Json)} (names : (members.map Prod.fst).Nodup)
    (h : ∀ member ∈ members, ReadsAs member.2.compact.toList member.2) :
    ReadsAs (object members).compact.toList (object members) := by
  intro fuel rest hfuel _
  rw [toList_object] at hfuel ⊢
  obtain ⟨fuel, rfl, hsteps⟩ := exists_steps hfuel (List.cons_ne_nil _ _)
  rw [List.length_cons, List.length_append, List.length_singleton] at hsteps
  rw [List.cons_append, List.append_assoc, List.singleton_append]
  cases members with
  | nil => rfl
  | cons member members =>
    have hnames : (([] ++ member :: members).map Prod.fst).Nodup := names
    have hread := readMembers_joined h hnames (by omega : _ ≤ fuel) rest
    obtain ⟨more, hjoined⟩ :=
      joined_append (quote member.1 ++ ":" ++ member.2.compact) (compactMembers members)
    rw [compactMembers, hjoined, toList_member, toList_quote] at hread ⊢
    exact hread

/-- By induction on the value: every part of it takes up its own text and nothing behind. -/
theorem Legible.readsAs {value : Json} (h : value.Legible) :
    ReadsAs value.compact.toList value := by
  induction h with
  | null =>
    intro fuel rest hfuel _
    obtain ⟨fuel, rfl, -⟩ := exists_steps hfuel (List.cons_ne_nil _ _)
    rfl
  | bool value =>
    intro fuel rest hfuel _
    cases value
    · obtain ⟨fuel, rfl, -⟩ := exists_steps hfuel (List.cons_ne_nil _ _)
      rfl
    · obtain ⟨fuel, rfl, -⟩ := exists_steps hfuel (List.cons_ne_nil _ _)
      rfl
  | int h => exact .number (readNumber_repr h)
  | float h => exact .number h
  | string value => exact .quoted value
  | array h ih => exact readsAs_array h ih
  | object names h ih => exact readsAs_object names ih

/-- **The text of a legible value is read as the value.** -/
theorem parse?_compact {value : Json} (h : value.Legible) : parse? value.compact = some value := by
  have hread := h.readsAs (2 * value.compact.toList.length + 2) [] (by omega) endsRun_nil
  rw [List.append_nil] at hread
  rw [parse?, hread]
  rfl

/-! ## Sizes of whole numbers -/

/-- Every whole number in the value fits into 64 bits. -/
inductive Sized : Json → Prop
  | null : Sized null
  | bool (value : Bool) : Sized (bool value)
  | int {value : Int} : Fits value → Sized (int value)
  | float (value : Float) (finite : value.isFinite = true) : Sized (float value finite)
  | string (value : String) : Sized (string value)
  | array {elements : List Json} : (∀ element ∈ elements, Sized element) → Sized (array elements)
  | object {members : List (String × Json)} : (∀ member ∈ members, Sized member.2) →
      Sized (object members)

theorem sized_of_finite? {value : Float} {number : Json} (h : finite? value = some number) :
    number.Sized := by
  unfold finite? at h
  split at h
  · cases h
    exact .float _ _
  · cases h

theorem sized_of_wholeNumber {negative : Bool} {magnitude : Nat} {number : Json}
    (h : wholeNumber negative magnitude = some number) : number.Sized := by
  unfold wholeNumber at h
  split at h
  · split at h
    · exact sized_of_finite? h
    · next hfits =>
      cases h
      exact .int ⟨by omega, by omega⟩
  · split at h
    · next hfits =>
      cases h
      exact .int ⟨by omega, Int.ofNat_lt.2 hfits⟩
    · exact sized_of_finite? h

theorem sized_of_readNumber {text behind : List Char} {value : Json}
    (h : readNumber text = some (value, behind)) : value.Sized := by
  obtain ⟨-, places, _, exponent, -, -, hvalue⟩ := readNumber_eq_some_iff.1 h
  simp only [numberOf] at hvalue
  split at hvalue
  · obtain ⟨magnitude, -, hvalue⟩ := Option.bind_eq_some_iff.1 hvalue
    exact sized_of_wholeNumber hvalue
  · obtain ⟨digits, -, hvalue⟩ := Option.bind_eq_some_iff.1 hvalue
    exact sized_of_finite? hvalue

theorem mem_setMember {members : List (String × Json)} {name : String} {value : Json}
    {member : String × Json} (h : member ∈ setMember members name value) :
    member.2 = value ∨ member ∈ members := by
  induction members with
  | nil =>
    rw [setMember, List.mem_singleton] at h
    exact .inl (h ▸ rfl)
  | cons next members ih =>
    rw [setMember] at h
    split at h
    · rcases List.mem_cons.1 h with rfl | h
      · exact .inl rfl
      · exact .inr (List.mem_cons_of_mem next h)
    · rcases List.mem_cons.1 h with rfl | h
      · exact .inr List.mem_cons_self
      · exact (ih h).imp_right (List.mem_cons_of_mem next)

/-- What a bounded reading gives is sized, if what it was begun with is. -/
structure GivesSized (fuel : Nat) : Prop where
  value : ∀ {text rest : List Char} {value : Json},
    readValue fuel text = some (value, rest) → value.Sized
  elements : ∀ {before : List Json} {text rest : List Char} {value : Json},
    (∀ element ∈ before, element.Sized) →
    readElements fuel before text = some (value, rest) → value.Sized
  members : ∀ {before : List (String × Json)} {text rest : List Char} {value : Json},
    (∀ member ∈ before, member.2.Sized) →
    readMembers fuel before text = some (value, rest) → value.Sized

section Steps

variable {fuel : Nat} {text rest : List Char} {value : Json}

theorem GivesSized.readValue (ih : GivesSized fuel)
    (h : Json.readValue (fuel + 1) text = some (value, rest)) : value.Sized := by
  rw [Json.readValue] at h
  split at h
  · cases h; exact .null
  · cases h; exact .bool true
  · cases h; exact .bool false
  · obtain ⟨_, -, h⟩ := Option.map_eq_some_iff.1 h
    cases h
    exact .string _
  · split at h
    · cases h; exact .array (by simp)
    · exact ih.elements (by simp) h
  · split at h
    · cases h; exact .object (by simp)
    · exact ih.members (by simp) h
  · exact sized_of_readNumber h

theorem GivesSized.readElements (ih : GivesSized fuel) {before : List Json}
    (hbefore : ∀ element ∈ before, element.Sized)
    (h : Json.readElements (fuel + 1) before text = some (value, rest)) : value.Sized := by
  rw [Json.readElements] at h
  obtain ⟨⟨element, behind⟩, helement, h⟩ := Option.bind_eq_some_iff.1 h
  have hafter := List.forall_mem_cons.2 ⟨ih.value helement, hbefore⟩
  dsimp only at h
  split at h
  · exact ih.elements hafter h
  · cases h
    exact .array fun element hmem => hafter element (List.mem_reverse.1 hmem)
  · cases h

theorem GivesSized.readMembers (ih : GivesSized fuel) {before : List (String × Json)}
    (hbefore : ∀ member ∈ before, member.2.Sized)
    (h : Json.readMembers (fuel + 1) before text = some (value, rest)) : value.Sized := by
  rw [Json.readMembers] at h
  split at h
  · obtain ⟨⟨name, behind⟩, -, h⟩ := Option.bind_eq_some_iff.1 h
    dsimp only at h
    split at h
    · obtain ⟨⟨part, behind⟩, hpart, h⟩ := Option.bind_eq_some_iff.1 h
      have hafter : ∀ member ∈ setMember before name part, member.2.Sized := by
        intro member hmem
        rcases mem_setMember hmem with hvalue | hmem
        · exact hvalue ▸ ih.value hpart
        · exact hbefore member hmem
      dsimp only at h
      split at h
      · exact ih.members hafter h
      · cases h
        exact .object hafter
      · cases h
    · cases h
  · cases h

end Steps

theorem givesSized (fuel : Nat) : GivesSized fuel := by
  induction fuel with
  | zero => exact ⟨fun h => (nomatch h), fun _ h => (nomatch h), fun _ h => (nomatch h)⟩
  | succ fuel ih => exact ⟨ih.readValue, ih.readElements, ih.readMembers⟩

/-- **A text is read as a value whose whole numbers fit into 64 bits.** -/
theorem parse?_sized {text : String} {value : Json} (h : parse? text = some value) :
    value.Sized := by
  obtain ⟨⟨_, rest⟩, hread, h⟩ := Option.bind_eq_some_iff.1 h
  dsimp only at h
  split at h
  · cases h
    exact (givesSized _).value hread
  · cases h

end Wilderness.Json
