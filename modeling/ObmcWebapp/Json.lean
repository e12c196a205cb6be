import ObmcWebapp.Library.Utf8

/-!
# JSON values

The values of {lit}`nlohmann::json` as far as the program builds and reads them:
the iteration forms, the typed pointers of {lit}`get_ptr`, insertion of members in
key order, and whether {lit}`dump` with its default handler accepts a value.

Main results:

- Theorems {lit}`utf8Valid_of_mem_items`, {lit}`utf8Valid_of_mem_elements`: the
  parts of a value that {lit}`dump` accepts are accepted themselves.
- Theorem {lit}`member_set`: the members after one is set.
- Theorem {lit}`ofMembers_ext`: an object is determined by its members.
- Theorem {lit}`utf8Valid_iff`: validity is a property of the value's texts.
-/

open Library

namespace ObmcWebapp

/-- A JSON value; the members of an object stand in key order, and a float is
kept by its bits. -/
inductive Json
  | null
  | boolean (value : Bool)
  | numberInteger (value : Int64)
  | numberUnsigned (value : UInt64)
  | numberFloat (bits : UInt64)
  | string (value : Bytes)
  | array (values : List Json)
  | object (members : List (Bytes × Json))

namespace Json

/-! ## Reading -/

/-- {lit}`get_ptr<const std::string*>` -/
def getString : Json → Option Bytes
  | .string value => some value
  | _ => none

/-- {lit}`get_ptr<const int64_t*>`: an unsigned number is read through the same bits. -/
def getInteger : Json → Option Int64
  | .numberInteger value => some value
  | .numberUnsigned value => some value.toInt64
  | _ => none

/-- {lit}`is_boolean` and {lit}`get<bool>` -/
def getBoolean : Json → Option Bool
  | .boolean value => some value
  | _ => none

/-- The pairs of {lit}`items()`: an array counts its elements, a primitive value
is its own only element. -/
def items : Json → List (Bytes × Json)
  | .null => []
  | .array values => values.mapIdx fun index value => (bytes (toString index), value)
  | .object members => members
  | value => [([], value)]

/-- The values of a range-based loop. -/
def elements : Json → List Json
  | .null => []
  | .array values => values
  | .object members => members.map Prod.snd
  | value => [value]

/-! ## Building -/

/-- Put a member at its place in key order, over an old one. -/
def insertMember (key : Bytes) (value : Json) : List (Bytes × Json) → List (Bytes × Json)
  | [] => [(key, value)]
  | (other, old) :: rest =>
      if key = other then (key, value) :: rest
      else if key < other then (key, value) :: (other, old) :: rest
      else (other, old) :: insertMember key value rest

/-- {lit}`json[key] = value` for a value that is an object or null so far. -/
def set (json : Json) (key : Bytes) (value : Json) : Json :=
  match json with
  | .null => .object [(key, value)]
  | .object members => .object (insertMember key value members)
  | other => other

/-- An object from a list of members. -/
def ofMembers (members : List (Bytes × Json)) : Json :=
  members.foldl (fun json member => json.set member.1 member.2) (.object [])

/-- {lit}`push_back` -/
def pushBack (json value : Json) : Json :=
  match json with
  | .null => .array [value]
  | .array values => .array (values ++ [value])
  | other => other

/-! ## Serialisation -/

mutual

/-- Every string and key is valid UTF-8: {lit}`dump` throws on any other value. -/
def utf8Valid : Json → Bool
  | .string value => Utf8.Valid value
  | .array values => allUtf8Valid values
  | .object members => membersUtf8Valid members
  | _ => true

/-- The same for the elements of an array. -/
def allUtf8Valid : List Json → Bool
  | [] => true
  | value :: rest => utf8Valid value && allUtf8Valid rest

/-- The same for the members of an object. -/
def membersUtf8Valid : List (Bytes × Json) → Bool
  | [] => true
  | (key, value) :: rest => Utf8.Valid key && utf8Valid value && membersUtf8Valid rest

end

/-- A text is valid if its bytes are. -/
theorem utf8Valid_string {value : Bytes} : (string value).utf8Valid = true ↔ Utf8.Valid value := by
  simp [utf8Valid]

/-- An array is valid if its elements are. -/
theorem utf8Valid_array {values : List Json} :
    (array values).utf8Valid = true ↔ ∀ value ∈ values, value.utf8Valid = true := by
  simp only [utf8Valid]
  induction values with
  | nil => simp [allUtf8Valid]
  | cons value rest ih => simp [allUtf8Valid, ih]

/-- An object is valid if its keys and values are. -/
theorem utf8Valid_object {members : List (Bytes × Json)} :
    (object members).utf8Valid = true ↔
      ∀ member ∈ members, Utf8.Valid member.1 ∧ member.2.utf8Valid = true := by
  simp only [utf8Valid]
  induction members with
  | nil => simp [membersUtf8Valid]
  | cons member rest ih => simp [membersUtf8Valid, ih]

/-- What {lit}`items()` hands out of a value fit for {lit}`dump` is fit itself. -/
theorem utf8Valid_of_mem_items {json : Json} (hvalid : json.utf8Valid = true) {item : Bytes × Json}
    (hmem : item ∈ json.items) : item.2.utf8Valid = true := by
  cases json with
  | null => simp [items] at hmem
  | array values =>
      obtain ⟨index, hindex, rfl⟩ := List.mem_mapIdx.mp hmem
      exact utf8Valid_array.mp hvalid _ (List.getElem_mem hindex)
  | object members => exact (utf8Valid_object.mp hvalid item hmem).2
  | boolean value => rw [List.mem_singleton.mp hmem]; rfl
  | numberInteger value => rw [List.mem_singleton.mp hmem]; rfl
  | numberUnsigned value => rw [List.mem_singleton.mp hmem]; rfl
  | numberFloat bits => rw [List.mem_singleton.mp hmem]; rfl
  | string value => rw [List.mem_singleton.mp hmem]; exact hvalid

/-- So is what a range-based loop visits. -/
theorem utf8Valid_of_mem_elements {json : Json} (hvalid : json.utf8Valid = true) {value : Json}
    (hmem : value ∈ json.elements) : value.utf8Valid = true := by
  cases json with
  | null => simp [elements] at hmem
  | array values => exact utf8Valid_array.mp hvalid value hmem
  | object members =>
      obtain ⟨member, hmember, rfl⟩ := List.mem_map.mp hmem
      exact (utf8Valid_object.mp hvalid member hmember).2
  | boolean value => rw [List.mem_singleton.mp hmem]; rfl
  | numberInteger value => rw [List.mem_singleton.mp hmem]; rfl
  | numberUnsigned value => rw [List.mem_singleton.mp hmem]; rfl
  | numberFloat bits => rw [List.mem_singleton.mp hmem]; rfl
  | string value => rw [List.mem_singleton.mp hmem]; exact hvalid

/-- The text of a valid value is valid. -/
theorem utf8Valid_of_getString {json : Json} (hvalid : json.utf8Valid = true) {value : Bytes}
    (hget : json.getString = some value) : Utf8.Valid value := by
  cases json with
  | string text =>
      obtain rfl : text = value := Option.some.inj hget
      exact utf8Valid_string.mp hvalid
  | _ => exact absurd hget (by simp [getString])

/-! ## Members -/

/-- {lit}`find(key)`: the value of a member, none where the value is no object or has
no such member. -/
def member (key : Bytes) : Json → Option Json
  | .object members => members.lookup key
  | _ => none

/-- {lit}`is_object` -/
def isObject : Json → Bool
  | .object _ => true
  | _ => false

/-- {lit}`is_array` -/
def isArray : Json → Bool
  | .array _ => true
  | _ => false

/-- What is looked up is in front or behind it. -/
private theorem lookup_cons_eq_ite (key other : Bytes) (value : Json)
    (rest : List (Bytes × Json)) :
    ((key, value) :: rest).lookup other = if other = key then some value else rest.lookup other := by
  rw [List.lookup_cons]
  by_cases hother : other = key
  · simp [hother]
  · rw [if_neg hother, beq_eq_false_iff_ne.mpr hother]

/-- The member that is inserted is found. -/
theorem lookup_insertMember (key other : Bytes) (value : Json) (members : List (Bytes × Json)) :
    (insertMember key value members).lookup other =
      if other = key then some value else members.lookup other := by
  induction members with
  | nil => exact lookup_cons_eq_ite key other value []
  | cons first rest ih =>
      obtain ⟨name, old⟩ := first
      unfold insertMember
      split
      · next hkey =>
          subst hkey
          rw [lookup_cons_eq_ite, lookup_cons_eq_ite]
          by_cases hother : other = key
          · rw [if_pos hother, if_pos hother]
          · rw [if_neg hother, if_neg hother, if_neg hother]
      · next hkey =>
          split
          · exact lookup_cons_eq_ite key other value _
          · rw [lookup_cons_eq_ite, lookup_cons_eq_ite, ih]
            by_cases hother : other = key
            · subst hother
              rw [if_neg hkey, if_pos rfl, if_pos rfl]
            · rw [if_neg hother, if_neg hother]

/-- A member that is found is there. -/
private theorem mem_of_lookup {key : Bytes} {value : Json} {members : List (Bytes × Json)}
    (hlookup : members.lookup key = some value) : (key, value) ∈ members := by
  induction members with
  | nil => exact absurd hlookup (by simp)
  | cons first rest ih =>
      obtain ⟨name, old⟩ := first
      rw [lookup_cons_eq_ite] at hlookup
      split at hlookup
      · next hkey =>
          rw [hkey, Option.some.inj hlookup]
          exact List.mem_cons_self ..
      · exact List.mem_cons_of_mem _ (ih hlookup)

/-- A member is the inserted one or was there before. -/
theorem mem_insertMember {key : Bytes} {value : Json} {members : List (Bytes × Json)}
    {entry : Bytes × Json} (hmem : entry ∈ insertMember key value members) :
    entry = (key, value) ∨ entry ∈ members := by
  induction members with
  | nil => exact Or.inl (List.mem_singleton.mp hmem)
  | cons first rest ih =>
      obtain ⟨name, old⟩ := first
      unfold insertMember at hmem
      split at hmem
      · rcases List.mem_cons.mp hmem with heq | hrest
        · exact Or.inl heq
        · exact Or.inr (List.mem_cons_of_mem _ hrest)
      · split at hmem
        · exact List.mem_cons.mp hmem
        · rcases List.mem_cons.mp hmem with heq | hrest
          · exact Or.inr (heq ▸ List.mem_cons_self ..)
          · exact (ih hrest).imp_right (List.mem_cons_of_mem _)

/-- The members of an object stand in strict key order. -/
def Ordered (members : List (Bytes × Json)) : Prop :=
  members.Pairwise fun a b => a.1 < b.1

/-- Inserting keeps the order of the keys. -/
theorem ordered_insertMember {members : List (Bytes × Json)} (hordered : Ordered members)
    (key : Bytes) (value : Json) : Ordered (insertMember key value members) := by
  induction members with
  | nil => exact List.pairwise_singleton _ _
  | cons first rest ih =>
      obtain ⟨name, old⟩ := first
      obtain ⟨hfirst, hrest⟩ := List.pairwise_cons.mp hordered
      unfold insertMember
      split
      · next hkey =>
          subst hkey
          exact List.pairwise_cons.mpr ⟨hfirst, hrest⟩
      · next hkey =>
          split
          · next hless =>
              refine List.pairwise_cons.mpr ⟨?_, hordered⟩
              intro entry hmem
              rcases List.mem_cons.mp hmem with rfl | hlater
              · exact hless
              · exact List.lt_trans hless (hfirst entry hlater)
          · next hless =>
              refine List.pairwise_cons.mpr ⟨?_, ih hrest⟩
              intro entry hmem
              rcases mem_insertMember hmem with rfl | hold
              · by_contra hnot
                exact hkey (List.le_antisymm (List.not_lt.mp hnot) (List.not_lt.mp hless))
              · exact hfirst entry hold

/-- Below the first key there is none. -/
private theorem lookup_eq_none_of_lt {key : Bytes} {members : List (Bytes × Json)}
    (h : ∀ entry ∈ members, key < entry.1) : members.lookup key = none := by
  cases hlookup : members.lookup key with
  | none => rfl
  | some value => exact absurd (h _ (mem_of_lookup hlookup)) (List.lt_irrefl key)

/-- Objects with the same members are equal. -/
theorem eq_of_lookup_eq {members others : List (Bytes × Json)} (hordered : Ordered members)
    (hothers : Ordered others) (hsame : ∀ key, members.lookup key = others.lookup key) :
    members = others := by
  induction members generalizing others with
  | nil =>
      cases others with
      | nil => rfl
      | cons first rest =>
          have hfirst := hsame first.1
          rw [lookup_cons_eq_ite, if_pos rfl] at hfirst
          cases hfirst
  | cons first rest ih =>
      obtain ⟨key, value⟩ := first
      obtain ⟨hlater, hrest⟩ := List.pairwise_cons.mp hordered
      cases others with
      | nil =>
          have hfirst := hsame key
          rw [lookup_cons_eq_ite, if_pos rfl] at hfirst
          cases hfirst
      | cons other others =>
          obtain ⟨otherKey, otherValue⟩ := other
          obtain ⟨hotherLater, hotherRest⟩ := List.pairwise_cons.mp hothers
          -- the smaller of the two first keys would be missing in the other object
          have hkey : key = otherKey := by
            by_contra hne
            have hfirst := hsame key
            have hother := hsame otherKey
            rw [lookup_cons_eq_ite, if_pos rfl, lookup_cons_eq_ite, if_neg hne] at hfirst
            rw [lookup_cons_eq_ite, if_neg (Ne.symm hne), lookup_cons_eq_ite, if_pos rfl] at hother
            by_cases hless : key < otherKey
            · rw [lookup_eq_none_of_lt fun entry hmem =>
                List.lt_trans hless (hotherLater entry hmem)] at hfirst
              cases hfirst
            · have hgreater : otherKey < key := by
                by_contra hnot
                exact hne (List.le_antisymm (List.not_lt.mp hnot) (List.not_lt.mp hless))
              rw [lookup_eq_none_of_lt fun entry hmem =>
                List.lt_trans hgreater (hlater entry hmem)] at hother
              cases hother
          subst hkey
          have hvalue := hsame key
          rw [lookup_cons_eq_ite, lookup_cons_eq_ite, if_pos rfl, if_pos rfl] at hvalue
          rw [Option.some.inj hvalue, ih hrest hotherRest]
          intro name
          by_cases hname : name = key
          · rw [hname, lookup_eq_none_of_lt hlater, lookup_eq_none_of_lt hotherLater]
          · have hnext := hsame name
            rw [lookup_cons_eq_ite, lookup_cons_eq_ite, if_neg hname, if_neg hname] at hnext
            exact hnext

/-- The member that is set is found. -/
theorem member_set {json : Json} (hobject : json.isObject = true) (key other : Bytes)
    (value : Json) :
    (json.set key value).member other = if other = key then some value else json.member other := by
  cases json with
  | object members => exact lookup_insertMember key other value members
  | _ => exact absurd hobject (by simp [isObject])

/-- An object stays one. -/
theorem isObject_set {json : Json} (hobject : json.isObject = true) (key : Bytes)
    (value : Json) : (json.set key value).isObject = true := by
  cases json with
  | object members => rfl
  | _ => exact absurd hobject (by simp [isObject])

/-- Members that are set one after the other are in the order of their keys. -/
private theorem foldl_set_ordered (members : List (Bytes × Json)) {inner : List (Bytes × Json)}
    (hordered : Ordered inner) :
    ∃ final, members.foldl (fun json member => json.set member.1 member.2) (Json.object inner) =
      Json.object final ∧ Ordered final := by
  induction members generalizing inner with
  | nil => exact ⟨inner, rfl, hordered⟩
  | cons member rest ih => exact ih (ordered_insertMember hordered member.1 member.2)

theorem ordered_ofMembers (members : List (Bytes × Json)) :
    ∃ inner, ofMembers members = .object inner ∧ Ordered inner :=
  foldl_set_ordered members List.Pairwise.nil

/-- An object is determined by its members. -/
theorem ofMembers_ext {members others : List (Bytes × Json)}
    (h : ∀ key, (ofMembers members).member key = (ofMembers others).member key) :
    ofMembers members = ofMembers others := by
  obtain ⟨inner, hinner, hordered⟩ := ordered_ofMembers members
  obtain ⟨other, hother, hotherOrdered⟩ := ordered_ofMembers others
  rw [hinner, hother] at h ⊢
  rw [eq_of_lookup_eq hordered hotherOrdered h]

/-! ## Texts -/

mutual

/-- All strings and keys of a value have a property. -/
def AllTexts (p : Bytes → Prop) : Json → Prop
  | .string value => p value
  | .array values => AllOfTexts p values
  | .object members => MembersTexts p members
  | _ => True

/-- The same for the elements of an array. -/
def AllOfTexts (p : Bytes → Prop) : List Json → Prop
  | [] => True
  | value :: rest => AllTexts p value ∧ AllOfTexts p rest

/-- The same for the members of an object. -/
def MembersTexts (p : Bytes → Prop) : List (Bytes × Json) → Prop
  | [] => True
  | (key, value) :: rest => p key ∧ AllTexts p value ∧ MembersTexts p rest

end

variable {p : Bytes → Prop}

/-- The texts of an array are those of its elements. -/
theorem allTexts_array {values : List Json} :
    (array values).AllTexts p ↔ ∀ value ∈ values, value.AllTexts p := by
  simp only [AllTexts]
  induction values with
  | nil => simp [AllOfTexts]
  | cons value rest ih => simp [AllOfTexts, ih]

/-- The texts of an object are its keys and those of its values. -/
theorem allTexts_object {members : List (Bytes × Json)} :
    (object members).AllTexts p ↔ ∀ entry ∈ members, p entry.1 ∧ entry.2.AllTexts p := by
  simp only [AllTexts]
  induction members with
  | nil => simp [MembersTexts]
  | cons entry rest ih => simp [MembersTexts, ih, and_assoc]

mutual

/-- {lit}`dump` throws exactly when some text is not valid UTF-8. -/
theorem utf8Valid_iff : (json : Json) → (json.utf8Valid = true ↔ json.AllTexts Utf8.Valid)
  | .null => by simp [utf8Valid, AllTexts]
  | .boolean _ => by simp [utf8Valid, AllTexts]
  | .numberInteger _ => by simp [utf8Valid, AllTexts]
  | .numberUnsigned _ => by simp [utf8Valid, AllTexts]
  | .numberFloat _ => by simp [utf8Valid, AllTexts]
  | .string _ => by simp [utf8Valid, AllTexts]
  | .array values => by simpa [utf8Valid, AllTexts] using allUtf8Valid_iff values
  | .object members => by simpa [utf8Valid, AllTexts] using membersUtf8Valid_iff members

/-- Valid elements are those with valid texts. -/
theorem allUtf8Valid_iff :
    (values : List Json) → (allUtf8Valid values = true ↔ AllOfTexts Utf8.Valid values)
  | [] => by simp [allUtf8Valid, AllOfTexts]
  | value :: rest => by
      simp [allUtf8Valid, AllOfTexts, utf8Valid_iff value, allUtf8Valid_iff rest]

/-- Valid members are those with valid texts. -/
theorem membersUtf8Valid_iff : (members : List (Bytes × Json)) →
    (membersUtf8Valid members = true ↔ MembersTexts Utf8.Valid members)
  | [] => by simp [membersUtf8Valid, MembersTexts]
  | (_, value) :: rest => by
      simp [membersUtf8Valid, MembersTexts, utf8Valid_iff value, membersUtf8Valid_iff rest,
        and_assoc]

end

mutual

/-- What all texts have, they have in a weaker form. -/
theorem AllTexts.mono {q : Bytes → Prop} : {json : Json} → json.AllTexts p →
    (∀ text, p text → q text) → json.AllTexts q
  | .string _, h, hpq => by
      rw [AllTexts] at h ⊢
      exact hpq _ h
  | .array _, h, hpq => by
      rw [AllTexts] at h ⊢
      exact AllOfTexts.mono h hpq
  | .object _, h, hpq => by
      rw [AllTexts] at h ⊢
      exact MembersTexts.mono h hpq
  | .null, _, _ => by simp [AllTexts]
  | .boolean _, _, _ => by simp [AllTexts]
  | .numberInteger _, _, _ => by simp [AllTexts]
  | .numberUnsigned _, _, _ => by simp [AllTexts]
  | .numberFloat _, _, _ => by simp [AllTexts]

theorem AllOfTexts.mono {q : Bytes → Prop} : {values : List Json} → AllOfTexts p values →
    (∀ text, p text → q text) → AllOfTexts q values
  | [], _, _ => by simp [AllOfTexts]
  | _ :: _, h, hpq => by
      rw [AllOfTexts] at h ⊢
      exact ⟨AllTexts.mono h.1 hpq, AllOfTexts.mono h.2 hpq⟩

theorem MembersTexts.mono {q : Bytes → Prop} : {members : List (Bytes × Json)} →
    MembersTexts p members → (∀ text, p text → q text) → MembersTexts q members
  | [], _, _ => by simp [MembersTexts]
  | (_, _) :: _, h, hpq => by
      rw [MembersTexts] at h ⊢
      exact ⟨hpq _ h.1, AllTexts.mono h.2.1 hpq, MembersTexts.mono h.2.2 hpq⟩

end

/-- The texts of a member are texts of the object. -/
theorem allTexts_of_member {json value : Json} {key : Bytes} (hall : json.AllTexts p)
    (hmember : json.member key = some value) : value.AllTexts p := by
  cases json with
  | object members =>
      have hmem : (key, value) ∈ members := mem_of_lookup hmember
      exact (allTexts_object.mp hall _ hmem).2
  | _ => exact absurd hmember (by simp [member])

/-- Setting a member adds its texts alone. -/
theorem allTexts_set {json value : Json} {key : Bytes} (hall : json.AllTexts p) (hkey : p key)
    (hvalue : value.AllTexts p) : (json.set key value).AllTexts p := by
  cases json with
  | null =>
      apply allTexts_object.mpr
      intro entry hmem
      rw [List.mem_singleton.mp hmem]
      exact ⟨hkey, hvalue⟩
  | object members =>
      apply allTexts_object.mpr
      intro entry hmem
      rcases mem_insertMember hmem with rfl | hold
      · exact ⟨hkey, hvalue⟩
      · exact allTexts_object.mp hall entry hold
  | _ => exact hall

end Json
end ObmcWebapp
