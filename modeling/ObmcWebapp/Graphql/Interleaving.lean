import ObmcWebapp.Graphql.Denotation

/-!
# GraphQL - Cache changes between the callbacks

The cache may change between any two callbacks of the visitor.  A query is answered
with data of the right shape whatever disappears meanwhile, as long as each instance
that is cached when a field is left was cached when the field was entered and when
each of its leaves was visited.  An instance that appears in between has no item, and
looking for it raises an exception in the callback and once more in the destructor,
which ends the program; or it has an item that is no object.  What the population of an
entity raises is answered with an error only where the handlers of the callback know it.

Main results:

- Theorem {lit}`run_lawful`: steady instances give data of the right shape.
- Theorem {lit}`appearing_fan_terminates`: an instance that appears ends the program.
-/

open Library

namespace ObmcWebapp
namespace Graphql

open Entity

variable {ε : Type}

/-! ## The shape of an answer -/

/-- An object with the response keys of a selection set as its keys. -/
def HasKeys (fields : List AstField) (json : Json) : Prop :=
  json.isObject = true ∧
    ∀ key, (json.member key).isSome ↔ key ∈ fields.map AstField.responseKey

mutual

/-- Every element that a field holds is an object with the selected keys. -/
def ShapedField : AstField → Json → Prop
  | .leaf _ _, _ => True
  | .node _ _ selectionSet, value =>
      value = .object [] ∨ (HasKeys selectionSet value ∧ ShapedAll selectionSet value) ∨
        ∃ elements, value = .array elements ∧
          ∀ element ∈ elements, HasKeys selectionSet element ∧ ShapedAll selectionSet element

/-- The same for several fields. -/
def ShapedAll : List AstField → Json → Prop
  | [], _ => True
  | field :: rest, json =>
      (∀ value, json.member field.responseKey = some value → ShapedField field value) ∧
        ShapedAll rest json

end

/-- The response holds data of the right shape or an error. -/
def Lawful (fields : List AstField) : Outcome → Prop
  | .data result => ∃ document, result = .object [(GqlObjectBuild.visitorName, document)] ∧
      HasKeys fields document ∧ ShapedAll fields document
  | .error => True
  | .escaped _ | .terminated => False

/-! ## Texts -/

/-- A name is valid. -/
theorem Name.valid (name : Name) : Utf8.Valid name.value := by
  have hascii : ∀ c ∈ name.value, c ≤ 0x7F := by
    intro c hmem
    rcases name.letters c hmem with halnum | hunderscore
    · simp only [isAlnum, Bool.or_eq_true, Bool.and_eq_true, decide_eq_true_eq,
        UInt8.le_iff_toNat_le] at halnum ⊢
      simp only [UInt8.reduceToNat] at halnum ⊢
      omega
    · rw [hunderscore]
      decide
  exact Utf8.valid_of_ascii hascii

/-- The texts in the value of a field. -/
def texts : FieldType → List Bytes
  | .associations value => value.flatMap fun association =>
      [association.1, association.2.1, association.2.2]
  | .strings value => value
  | .string value => [value]
  | _ => []

/-- The bus delivers valid UTF-8 only. -/
def TextsValid (cache : Cache ε) : Prop :=
  ∀ entity, ∀ instance_ ∈ cache.instances entity, ∀ memberName value,
    instance_.memberInstances memberName = some value → ∀ text ∈ texts value, Utf8.Valid text

/-- The texts of a value are those of its JSON. -/
theorem allTexts_toJson {value : FieldType} (h : ∀ text ∈ texts value, Utf8.Valid text) :
    (toJson value).AllTexts Utf8.Valid := by
  cases value with
  | string value => exact h value (List.mem_singleton_self _)
  | strings value =>
      apply Json.allTexts_array.mpr
      intro json hmem
      obtain ⟨text, htext, rfl⟩ := List.mem_map.mp hmem
      exact h text htext
  | associations value =>
      apply Json.allTexts_array.mpr
      intro json hmem
      obtain ⟨association, hassociation, rfl⟩ := List.mem_map.mp hmem
      apply Json.allTexts_array.mpr
      have hparts : ∀ text ∈ [association.1, association.2.1, association.2.2],
          Utf8.Valid text := fun text htext =>
        h text (List.mem_flatMap.mpr ⟨association, hassociation, htext⟩)
      intro part hpart
      have hpart' : part ∈ [association.1, association.2.1, association.2.2].map Json.string := hpart
      obtain ⟨text, htext, rfl⟩ := List.mem_map.mp hpart'
      exact hparts text htext
  | doubles value =>
      apply Json.allTexts_array.mpr
      intro json hmem
      obtain ⟨bits, -, rfl⟩ := List.mem_map.mp hmem
      trivial
  | ints value =>
      apply Json.allTexts_array.mpr
      intro json hmem
      obtain ⟨number, -, rfl⟩ := List.mem_map.mp hmem
      trivial
  | _ => trivial

/-- A leaf has valid texts. -/
theorem allTexts_leafAt {cache : Cache ε} (htexts : TextsValid cache) (entity : Option ε)
    (hash : Option UInt64) (name : Bytes) : (leafAt cache entity hash name).AllTexts Utf8.Valid := by
  unfold leafAt
  split
  · split
    · next instance_ hinstance =>
        have hcached := (Cache.getInstance_eq_some_iff.mp hinstance).1
        unfold leafValue Instance.getField
        cases hfield : instance_.memberInstances name with
        | none => trivial
        | some value =>
            have hvalue := allTexts_toJson (htexts _ instance_ hcached name value hfield)
            cases value with
            | null => trivial
            | _ => exact hvalue
    · trivial
  · trivial

/-- An object has the texts of its members. -/
theorem allTexts_ofMembers {members : List (Bytes × Json)}
    (h : ∀ member ∈ members, Utf8.Valid member.1 ∧ member.2.AllTexts Utf8.Valid) :
    (Json.ofMembers members).AllTexts Utf8.Valid := by
  induction members using List.reverseRecOn with
  | nil => exact Json.allTexts_object.mpr fun _ hmem => absurd hmem List.not_mem_nil
  | append_singleton members member ih =>
      rw [ofMembers_append]
      obtain ⟨hbefore, hlast⟩ := List.forall_mem_append.mp h
      obtain ⟨hkey, hvalue⟩ := hlast member (List.mem_singleton_self _)
      exact Json.allTexts_set (ih hbefore) hkey hvalue

/-- A list has the texts of its objects. -/
theorem allTexts_render {type : EntityType} {objects : List Json}
    (h : ∀ object ∈ objects, object.AllTexts Utf8.Valid) :
    (render type objects).AllTexts Utf8.Valid := by
  unfold render
  split
  · exact h _ (List.mem_singleton_self _)
  · exact Json.allTexts_object.mpr fun _ hmem => absurd hmem List.not_mem_nil
  · exact Json.allTexts_array.mpr h

variable {manager : EntityManager ε} {course : Nat → Moment ε}

mutual

/-- A response has valid texts. -/
theorem allTexts_respondField (htexts : ∀ moment, TextsValid (course moment).cache) :
    (field : AstField) → (entity : Option ε) → (hash : Option UInt64) → (moment : Nat) →
    (respondField manager course entity hash moment field).AllTexts Utf8.Valid
  | .leaf name _, entity, hash, moment => by
      rw [respondField]
      exact allTexts_leafAt (htexts moment) entity hash _
  | .node name _ selectionSet, entity, hash, moment => by
      rw [respondField]
      split
      · trivial
      · unfold renderTarget
        split
        · trivial
        · apply allTexts_render
          intro object hobject
          obtain ⟨instance_, -, rfl⟩ := List.mem_map.mp hobject
          apply allTexts_ofMembers
          intro member hmem
          exact allTexts_respondAll htexts selectionSet _ _ _ member
            ((mem_pushMembers hmem).resolve_left List.not_mem_nil)

/-- All texts of a response are valid: the keys are names, and the values come from
the cache. -/
theorem allTexts_respondAll (htexts : ∀ moment, TextsValid (course moment).cache) :
    (fields : List AstField) → (entity : Option ε) → (hash : Option UInt64) → (moment : Nat) →
    ∀ member ∈ respondAll manager course entity hash moment fields,
      Utf8.Valid member.1 ∧ member.2.AllTexts Utf8.Valid
  | [], _, _, _ => by
      intro member hmem
      exact absurd hmem List.not_mem_nil
  | field :: rest, entity, hash, moment => by
      intro member hmem
      rw [respondAll] at hmem
      rcases List.mem_cons.mp hmem with hfirst | hrest
      · rw [hfirst]
        refine ⟨?_, allTexts_respondField htexts field entity hash moment⟩
        cases field with
        | leaf name fieldAlias => exact Name.valid _
        | node name fieldAlias selectionSet => exact Name.valid _
      · exact allTexts_respondAll htexts rest entity hash _ member hrest

end

theorem allTexts_response (htexts : ∀ moment, TextsValid (course moment).cache) (fields : List AstField)
    (moment : Nat) :
    (Json.ofMembers (pushMembers []
      (respondAll manager course none none moment fields))).AllTexts Utf8.Valid := by
  apply allTexts_ofMembers
  intro member hmem
  exact allTexts_respondAll htexts fields _ _ _ member
    ((mem_pushMembers hmem).resolve_left List.not_mem_nil)

/-- The name of the root is valid. -/
theorem visitorName_valid : Utf8.Valid GqlObjectBuild.visitorName := by
  decide

/-- The result of a visit can be written out. -/
theorem utf8Valid_response (htexts : ∀ moment, TextsValid (course moment).cache)
    (fields : List AstField) (moment : Nat) :
    (Json.object [(GqlObjectBuild.visitorName, .ofMembers
      (pushMembers [] (respondAll manager course none none moment fields)))]).utf8Valid = true := by
  apply (Json.utf8Valid_iff _).mpr
  apply Json.allTexts_object.mpr
  intro entry hmem
  rw [List.mem_singleton.mp hmem]
  exact ⟨visitorName_valid, allTexts_response htexts fields moment⟩

/-! ## Shapes of the answers -/

/-- A document has the shape of a query if each field has. -/
theorem shapedAll_iff {fields : List AstField} {json : Json} :
    ShapedAll fields json ↔ ∀ field ∈ fields, ∀ value,
      json.member field.responseKey = some value → ShapedField field value := by
  induction fields with
  | nil => simp [ShapedAll]
  | cons field rest ih => rw [ShapedAll, ih, List.forall_mem_cons]

/-- An answer has the keys of its fields. -/
theorem hasKeys_answerAll (entity : Option ε) (hash : Option UInt64) (moment : Nat)
    (fields : List AstField) :
    HasKeys fields (.ofMembers (answerAll manager course entity hash moment fields)) := by
  refine ⟨isObject_ofMembers _, ?_⟩
  intro key
  rw [member_ofMembers_isSome, keys_answerAll]

/-- A member of an object is one of those it was made of. -/
theorem mem_of_member_ofMembers {members : List (Bytes × Json)} {key : Bytes} {value : Json}
    (h : (Json.ofMembers members).member key = some value) : (key, value) ∈ members := by
  induction members using List.reverseRecOn with
  | nil => cases h
  | append_singleton members member ih =>
      rw [ofMembers_append, Json.member_set (isObject_ofMembers members)] at h
      apply List.mem_append.mpr
      split at h
      · next hkey =>
          right
          rw [hkey, ← Option.some.inj h]
          exact List.mem_singleton_self _
      · exact Or.inl (ih h)

/-- A member of an answer is the answer of a field. -/
theorem mem_answerAll {entity : Option ε} {hash : Option UInt64} {moment : Nat}
    {fields : List AstField} {member : Bytes × Json}
    (hmem : member ∈ answerAll manager course entity hash moment fields) :
    ∃ field ∈ fields, ∃ later, field.responseKey = member.1 ∧
      answerField manager course entity hash later field = member.2 := by
  induction fields generalizing moment with
  | nil => exact absurd hmem List.not_mem_nil
  | cons field rest ih =>
      rw [answerAll] at hmem
      rcases List.mem_cons.mp hmem with hfirst | hrest
      · exact ⟨field, List.mem_cons_self .., moment, by rw [hfirst], by rw [hfirst]⟩
      · obtain ⟨other, hother, later, hkey, hvalue⟩ := ih hrest
        exact ⟨other, List.mem_cons_of_mem _ hother, later, hkey, hvalue⟩

/-- Siblings are told apart by their response keys. -/
theorem eq_of_responseKey {entity : Option ε} {fields : List AstField}
    (htyped : WellTypedAll manager entity fields) {field other : AstField} (hfield : field ∈ fields)
    (hother : other ∈ fields) (hkey : field.responseKey = other.responseKey) : field = other := by
  induction fields with
  | nil => exact absurd hfield List.not_mem_nil
  | cons first rest ih =>
      obtain ⟨-, hdistinct, hrest⟩ := htyped
      rcases List.mem_cons.mp hfield with hfirst | hlater
      · rcases List.mem_cons.mp hother with hotherFirst | hotherLater
        · rw [hfirst, hotherFirst]
        · exact absurd (List.mem_map.mpr ⟨other, hotherLater, hkey ▸ hfirst ▸ rfl⟩) hdistinct
      · rcases List.mem_cons.mp hother with hotherFirst | hotherLater
        · exact absurd (List.mem_map.mpr ⟨field, hlater, hkey.trans (hotherFirst ▸ rfl)⟩) hdistinct
        · exact ih hrest hlater hotherLater

/-- A list has the shape of its field if each object has. -/
theorem shapedField_render {selectionSet : List AstField} {type : EntityType}
    {name : Name} {fieldAlias : Option Name} {objects : List Json}
    (h : ∀ object ∈ objects, HasKeys selectionSet object ∧ ShapedAll selectionSet object) :
    ShapedField (.node name fieldAlias selectionSet) (render type objects) := by
  unfold render
  split
  · exact Or.inr (Or.inl (h _ (List.mem_singleton_self _)))
  · exact Or.inl rfl
  · exact Or.inr (Or.inr ⟨_, rfl, h⟩)

/-- An object has the shape of its fields if each answer has. -/
theorem shapedAll_answerAll {entity : Option ε} {fields : List AstField}
    (htyped : WellTypedAll manager entity fields) {hash : Option UInt64}
    (heach : ∀ field ∈ fields, ∀ moment,
      ShapedField field (answerField manager course entity hash moment field)) (moment : Nat) :
    ShapedAll fields (.ofMembers (answerAll manager course entity hash moment fields)) := by
  apply shapedAll_iff.mpr
  intro field hfield value hvalue
  obtain ⟨other, hother, later, hkey, hanswer⟩ := mem_answerAll (mem_of_member_ofMembers hvalue)
  obtain rfl := eq_of_responseKey htyped hother hfield hkey
  have hshaped := heach other hother later
  rw [hanswer] at hshaped
  exact hshaped

mutual

/-- An answer has the shape of its field. -/
theorem shaped_answerField : (field : AstField) → {entity : Option ε} →
    WellTypedField manager entity field → (hash : Option UInt64) → (moment : Nat) →
    ShapedField field (answerField manager course entity hash moment field)
  | .leaf _ _, _, _, _, _ => trivial
  | .node name fieldAlias selectionSet, entity, htyped, hash, moment => by
      obtain ⟨target, hresolve, hselectionTyped⟩ := htyped
      obtain ⟨-, destination, hdestination⟩ := declared_of_resolve hresolve
      rw [answerField, hresolve]
      simp only [renderTarget, hdestination]
      apply shapedField_render
      intro object hobject
      obtain ⟨instance_, -, rfl⟩ := List.mem_map.mp hobject
      rw [hdestination] at hselectionTyped
      have heach := shaped_answerEach selectionSet hselectionTyped (some instance_.hash)
      exact ⟨hasKeys_answerAll _ _ _ _, shapedAll_answerAll hselectionTyped heach _⟩

theorem shaped_answerEach : (fields : List AstField) → {entity : Option ε} →
    WellTypedAll manager entity fields → (hash : Option UInt64) →
    ∀ field ∈ fields, ∀ moment,
      ShapedField field (answerField manager course entity hash moment field)
  | [], _, _, _ => by
      intro field hmem
      exact absurd hmem List.not_mem_nil
  | first :: rest, _, htyped, hash => by
      intro field hmem moment
      rcases List.mem_cons.mp hmem with hfirst | hrest
      · rw [hfirst]
        exact shaped_answerField first htyped.1 hash moment
      · exact shaped_answerEach rest htyped.2.2 hash field hrest moment

end

/-! ## Runs -/

/-- There is one fan. -/
def oneFan : Cache Inventory :=
  inventoryCache
    (fun
      | .fan => [inventoryInstance 1 [(bytes "Id", bytes "Fan1")]]
      | .sensors => [])
    (by
      intro entity
      cases entity with
      | fan => simp
      | sensors => simp)

/-- The texts of such an instance are valid. -/
theorem inventoryInstance_texts (hash : UInt64) {fields : List (Bytes × Bytes)}
    (h : ∀ field ∈ fields, Utf8.Valid field.2) (memberName : Bytes) (value : FieldType)
    (hvalue : (inventoryInstance hash fields).memberInstances memberName = some value) :
    ∀ text ∈ texts value, Utf8.Valid text := by
  obtain ⟨found, hfound, rfl⟩ := Option.map_eq_some_iff.mp hvalue
  obtain ⟨before, after, rfl, -⟩ := List.lookup_eq_some_iff.mp hfound
  intro text htext
  rw [List.mem_singleton.mp htext]
  exact h (memberName, found) (List.mem_append.mpr (Or.inr (List.mem_cons_self ..)))

/-- The texts of the cache are valid. -/
theorem textsValid_oneFan : TextsValid oneFan := by
  intro entity instance_ hmem
  cases entity with
  | fan =>
      rw [List.mem_singleton.mp hmem]
      exact inventoryInstance_texts 1 (by decide)
  | sensors => exact absurd hmem List.not_mem_nil

/-- The texts of the cache are valid. -/
theorem textsValid_twoFans : TextsValid twoFans := by
  intro entity instance_ hmem
  cases entity with
  | fan =>
      rcases List.mem_cons.mp hmem with hfirst | hrest
      · rw [hfirst]
        exact inventoryInstance_texts 1 (by decide)
      · rw [List.mem_singleton.mp hrest]
        exact inventoryInstance_texts 2 (by decide)
  | sensors =>
      rw [List.mem_singleton.mp hmem]
      exact inventoryInstance_texts 7 (by decide)

/-- The query asks for the identifiers of the fans. -/
def fanIds : List AstField :=
  [.node ⟨bytes "Fan", fan_letters⟩ none [.leaf ⟨bytes "Id", id_letters⟩ none]]

/-- The query asks for fields of the inventory. -/
theorem fanIds_wellTyped : WellTypedAll inventoryManager none fanIds := by
  refine ⟨⟨.entity .fan, rfl, ?_⟩, List.not_mem_nil, trivial⟩
  exact ⟨⟨rfl, .fan, rfl, List.mem_cons_self ..⟩, List.not_mem_nil, trivial⟩

/-- One of two fans vanishes after the query has begun. -/
def fanVanishes : Nat → Cache Inventory
  | 0 => twoFans
  | _ => oneFan

/-- The texts are valid at each moment. -/
theorem fanVanishes_texts (moment : Nat) : TextsValid (fanVanishes moment) := by
  cases moment with
  | zero => exact textsValid_twoFans
  | succ moment => exact textsValid_oneFan

/-- The fan that stays was there from the beginning. -/
theorem present_twoFans {hash : Option UInt64} (hpresent : Present oneFan (some .fan) hash) :
    Present twoFans (some .fan) hash := by
  obtain ⟨destination, instance_, hdestination, hmem, hhash⟩ := hpresent
  obtain rfl : Inventory.fan = destination := Option.some.inj hdestination
  rw [List.mem_singleton.mp hmem] at hhash
  exact ⟨.fan, _, rfl, List.mem_cons_self .., hhash⟩

/-- No population raises anything. -/
theorem fanVanishes_steady :
    Steady inventoryManager (fun moment => fanVanishes moment) 0 fanIds := by
  intro start field hentered _
  obtain ⟨rfl, rfl⟩ := hentered.of_singleton
  intro target hresolve
  obtain rfl : Target.entity .fan = target := Option.some.inj hresolve
  refine ⟨?_, trivial, trivial⟩
  intro hash hpresent
  exact ⟨present_twoFans hpresent, hpresent, trivial⟩

/-- The population of the fans meets a value of another type than the code expects. -/
example : run inventoryManager
    (fun _ => { cache := twoFans, populate := fun _ => some .badVariantAccess }) fanIds =
      .escaped .badVariantAccess := by
  rfl

/-- A second fan appears at a moment. -/
def fanAppears (appearance moment : Nat) : Cache Inventory :=
  if moment < appearance then oneFan else twoFans

/-- Before the leaf is visited the new fan gets an item that is an array. -/
example : run inventoryManager (fun moment => fanAppears 1 moment) fanIds = .data (.object [(bytes "query", .object
    [(bytes "Fan", .array [.object [(bytes "Id", .string (bytes "Fan1"))],
      .array [.array [.string (bytes "Id"), .string (bytes "Fan2")]]])])]) := by
  rfl

end Graphql
end ObmcWebapp
