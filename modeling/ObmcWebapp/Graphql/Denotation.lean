import ObmcWebapp.Graphql.Simulation

/-!
# GraphQL - The meaning of a query

A query means the same by plain recursion: an entity at the top stands for all its
instances, one below for the instances that are related to the enclosing one, and
each instance for the object of the selected leaves and sub-selections.  While the
cache does not change, the visitor with its chain of builders produces exactly this.

Main results:

- Theorem {lit}`answerAll_constant`: the moments do not matter to a fixed cache.
- Theorem {lit}`visitor_denotes`: the document of the visitor is the denotation.
-/

open Library

namespace ObmcWebapp
namespace Graphql

open Entity

variable {ε : Type}

/-! ## The denotation -/

instance {relation : Relation ε} {source target : Instance} :
    Decidable (Related relation source target) :=
  inferInstanceAs (Decidable (∀ rule ∈ relation.conditionBuildRules,
    rule.compare source target = .ok true))

/-- The instances that satisfy the conditions of a relation for a source instance. -/
def relatedInstances (cache : Cache ε) (relation : Relation ε) (source : Instance) :
    List Instance :=
  (cache.instances relation.destination).filter fun target => Related relation source target

mutual

/-- What a field means for an instance. -/
def denoteField (manager : EntityManager ε) (cache : Cache ε) (entity : ε)
    (instance_ : Instance) : AstField → Json
  | .leaf name _ => leafValue (instance_.getField name.value)
  | .node name _ selectionSet =>
      match manager.getRelation entity name.value with
      | none => .null
      | some relation =>
          render (manager.type relation.destination)
            ((relatedInstances cache relation instance_).map fun target =>
              .ofMembers (denoteAll manager cache relation.destination target selectionSet))

/-- The members of an instance's object. -/
def denoteAll (manager : EntityManager ε) (cache : Cache ε) (entity : ε)
    (instance_ : Instance) : List AstField → List (Bytes × Json)
  | [] => []
  | field :: rest =>
      (field.responseKey, denoteField manager cache entity instance_ field) ::
        denoteAll manager cache entity instance_ rest

end

/-- What a field at the top means. -/
def denoteTop (manager : EntityManager ε) (cache : Cache ε) : AstField → Json
  | .leaf _ _ => .null
  | .node name _ selectionSet =>
      match manager.entityDictionary name.value with
      | none => .null
      | some entity =>
          render (manager.type entity) ((cache.instances entity).map fun instance_ =>
            .ofMembers (denoteAll manager cache entity instance_ selectionSet))

/-- The document of a query. -/
def denote (manager : EntityManager ε) (cache : Cache ε) (fields : List AstField) : Json :=
  .ofMembers (fields.map fun field => (field.responseKey, denoteTop manager cache field))

/-! ## A fixed cache -/

variable {manager : EntityManager ε} {cache : Cache ε}

/-- For a cached source the selection is that of the related instances. -/
theorem selected_eq_relatedInstances (hcomparable : Comparable manager.toSchema cache)
    {entity : ε} {relation : Relation ε} (hrelation : relation ∈ manager.relations entity)
    {source : Instance} (hsource : source ∈ cache.instances entity) :
    selected manager cache (.relation entity relation) (some source.hash) =
      relatedInstances cache relation source := by
  obtain ⟨conditions, instances, hconditions, hinstances⟩ :=
    getConditions_getInstances_ok hcomparable hrelation source.hash
  have hselected : selected manager cache (.relation entity relation) (some source.hash) =
      instances := by
    simp only [selected, GqlObjectBuild.selectInstances, hconditions, bind, Except.bind]
    rw [hinstances]
    rfl
  rw [hselected, (Cache.getInstances_ok_iff.mp hinstances).2]
  apply List.filter_congr
  intro target _
  rw [decide_eq_decide, checkConditions_true_iff, satisfies_getConditions hsource hconditions]

mutual

/-- In a fixed cache an answer does not depend on the moment. -/
theorem answerField_constant (hcomparable : Comparable manager.toSchema cache) :
    (field : AstField) → {entity : ε} → {instance_ : Instance} →
    WellTypedField manager (some entity) field → instance_ ∈ cache.instances entity →
    (moment : Nat) →
    answerField manager (fun _ => cache) (some entity) (some instance_.hash) moment field =
      denoteField manager cache entity instance_ field
  | .leaf name fieldAlias, entity, instance_, _, hinstance, moment => by
      rw [answerField, denoteField, leafAt, Cache.getInstance_eq_some_iff.mpr ⟨hinstance, rfl⟩]
  | .node name fieldAlias selectionSet, entity, instance_, htyped, hinstance, moment => by
      obtain ⟨target, hresolve, hselectionTyped⟩ := htyped
      obtain ⟨relation, hrelation, rfl⟩ := Option.map_eq_some_iff.mp hresolve
      have hmem := Schema.mem_relations_of_getRelation hrelation
      rw [answerField, denoteField, hresolve, hrelation]
      simp only [renderTarget, Target.getEntity]
      rw [selected_eq_relatedInstances hcomparable hmem hinstance]
      congr 1
      apply List.map_congr_left
      intro other hother
      rw [answerAll_constant hcomparable selectionSet hselectionTyped (List.mem_filter.mp hother).1]

/-- While the cache is fixed, the moments do not matter. -/
theorem answerAll_constant (hcomparable : Comparable manager.toSchema cache) :
    (fields : List AstField) → {entity : ε} → {instance_ : Instance} →
    WellTypedAll manager (some entity) fields → instance_ ∈ cache.instances entity →
    (moment : Nat) →
    answerAll manager (fun _ => cache) (some entity) (some instance_.hash) moment fields =
      denoteAll manager cache entity instance_ fields
  | [], _, _, _, _, _ => by
      rw [answerAll, denoteAll]
  | field :: rest, entity, instance_, htyped, hinstance, moment => by
      rw [answerAll, denoteAll, answerField_constant hcomparable field htyped.1 hinstance moment,
        answerAll_constant hcomparable rest htyped.2.2 hinstance _]

end

/-- So it is for the fields at the top. -/
theorem answerAll_top (hcomparable : Comparable manager.toSchema cache) {fields : List AstField}
    (htyped : WellTypedAll manager none fields) (moment : Nat) :
    answerAll manager (fun _ => cache) none none moment fields =
      fields.map fun field => (field.responseKey, denoteTop manager cache field) := by
  induction fields generalizing moment with
  | nil => rw [answerAll, List.map_nil]
  | cons field rest ih =>
      obtain ⟨hfield, -, hrest⟩ := htyped
      rw [answerAll, List.map_cons, ih hrest]
      cases field with
      | leaf name fieldAlias => rfl
      | node name fieldAlias selectionSet =>
          obtain ⟨target, hresolve, hselectionTyped⟩ := hfield
          obtain ⟨entity, hentity, rfl⟩ := Option.map_eq_some_iff.mp hresolve
          rw [answerField, denoteTop, hresolve, hentity]
          simp only [renderTarget, Target.getEntity, selected, GqlObjectBuild.selectInstances,
            Cache.getInstances_nil, Except.toOption, Option.getD_some]
          congr 3
          apply List.map_congr_left
          intro instance_ hinstance
          rw [answerAll_constant hcomparable selectionSet hselectionTyped hinstance]

/-- For a fixed cache the visitor's document is the denotation of the query, and after
every field the builder before it is current again: only its items have changed. -/
theorem visitor_denotes (manager : EntityManager ε) (cache : Cache ε)
    (hcomparable : Comparable manager.toSchema cache) (fields : List AstField)
    (htyped : WellTypedAll manager none fields) :
    (∃ visitor, acceptAll manager (fun _ => cache) fields .initial = .ok visitor ∧
      visitor.document manager cache = .ok (denote manager cache fields)) ∧
    ∀ (field : AstField) (before after : Visitor ε),
      acceptField manager (fun _ => cache) field before = .ok after →
        ∃ fragment, after.current = { before.current with fragment } ∧
          after.parents = before.parents := by
  constructor
  · obtain ⟨visitor, haccept, hdocument⟩ :=
      run_answers (fun _ => hcomparable) htyped
        (quietAll_fixed cache fields).steady (populatedAll_returning fields fun _ _ => rfl)
    refine ⟨visitor, haccept, ?_⟩
    rw [hdocument, answerAll_top hcomparable htyped, denote]
  · intro field before after haccept
    obtain ⟨fragment, rfl⟩ := acceptField_ok field haccept
    exact ⟨fragment, rfl, rfl⟩

/-! ## Fans and their sensors -/

/-- The two entities of the inventory. -/
inductive Inventory
  | fan
  | sensors
deriving DecidableEq

/-- The sensors of a fan are those that name it as their inventory. -/
def sensorsOfFan : Relation Inventory where
  destination := .sensors
  conditionBuildRules := [⟨bytes "Id", bytes "AssociatedInventoryId", equal⟩]

/-- The inventory with its relation from fans to sensors. -/
def inventoryManager : EntityManager Inventory where
  name
    | .fan => bytes "Fan"
    | .sensors => bytes "Sensors"
  name_injective := by
    intro a b h
    cases a with
    | fan => cases b with
      | fan => rfl
      | sensors => exact absurd h (by decide)
    | sensors => cases b with
      | fan => exact absurd h (by decide)
      | sensors => rfl
  type _ := .array
  members
    | .fan => [bytes "Id", bytes "Status"]
    | .sensors => [bytes "Id", bytes "AssociatedInventoryId"]
  relations
    | .fan => [sensorsOfFan]
    | .sensors => []
  entityDictionary entityName :=
    if entityName = bytes "Fan" then some .fan
    else if entityName = bytes "Sensors" then some .sensors
    else none
  entityDictionary_eq_some_iff := by
    intro entityName entity
    constructor
    · intro h
      split at h
      · next hfan =>
          cases h
          exact hfan.symm
      · split at h
        · next hsensors =>
            cases h
            exact hsensors.symm
        · cases h
    · intro h
      subst h
      cases entity with
      | fan => rfl
      | sensors => rfl

/-- An instance with some texts. -/
def inventoryInstance (hash : UInt64) (fields : List (Bytes × Bytes)) : Instance where
  hash := hash
  memberInstances := fun memberName => (fields.lookup memberName).map .string

/-- A cache with some instances. -/
def inventoryCache (instances : Inventory → List Instance)
    (ordered : ∀ entity, (instances entity).Pairwise fun a b => a.hash < b.hash) :
    Cache Inventory where
  instances := instances
  initDefaultFieldsValue := fun _ object => .ok object
  verifyState := fun _ object => .ok object
  providers := fun _ => []
  ordered := ordered
  settled := fun _ _ _ => rfl

/-- The texts of the cache can be compared. -/
theorem inventoryCache_comparable (cache : Cache Inventory) :
    Comparable inventoryManager.toSchema cache where
  member := by
    intro entity relation hrelation rule hrule
    cases entity with
    | fan =>
        obtain rfl := List.mem_singleton.mp hrelation
        obtain rfl := List.mem_singleton.mp hrule
        exact Or.inr (List.mem_cons_self ..)
    | sensors => exact absurd hrelation List.not_mem_nil
  compared := by
    intro entity relation hrelation rule hrule source target _ _
    cases entity with
    | fan =>
        obtain rfl := List.mem_singleton.mp hrelation
        obtain rfl := List.mem_singleton.mp hrule
        unfold RuleSet.compare
        split
        · exact ⟨_, rfl⟩
        · exact ⟨_, rfl⟩
    | sensors => exact absurd hrelation List.not_mem_nil

/-- There are two fans and a sensor. -/
def twoFans : Cache Inventory :=
  inventoryCache
    (fun
      | .fan => [inventoryInstance 1 [(bytes "Id", bytes "Fan1")],
          inventoryInstance 2 [(bytes "Id", bytes "Fan2")]]
      | .sensors => [inventoryInstance 7 [(bytes "Id", bytes "Speed"),
          (bytes "AssociatedInventoryId", bytes "Fan2")]])
    (by
      intro entity
      cases entity with
      | fan => simp [inventoryInstance]
      | sensors => simp)

/-- The name is one of GraphQL. -/
theorem fan_letters : ∀ c ∈ bytes "Fan", isAlnum c = true ∨ c = 0x5F := by
  decide +kernel

theorem id_letters : ∀ c ∈ bytes "Id", isAlnum c = true ∨ c = 0x5F := by
  decide +kernel

/-- The fans, each with its sensors. -/
def fanQuery : List AstField :=
  [.node ⟨bytes "Fan", fan_letters⟩ none
    [.leaf ⟨bytes "Id", id_letters⟩ none,
      .node ⟨bytes "Sensors", by decide +kernel⟩ none
        [.leaf ⟨bytes "Id", id_letters⟩ none]]]

/-- The query asks for fields of the inventory. -/
theorem fanQuery_wellTyped : WellTypedAll inventoryManager none fanQuery := by
  refine ⟨⟨.entity .fan, rfl, ?_⟩, List.not_mem_nil, trivial⟩
  refine ⟨⟨rfl, .fan, rfl, List.mem_cons_self ..⟩, by decide, ?_⟩
  refine ⟨⟨.relation .fan sensorsOfFan, rfl, ?_⟩, List.not_mem_nil, trivial⟩
  exact ⟨⟨rfl, .sensors, rfl, List.mem_cons_self ..⟩, List.not_mem_nil, trivial⟩

/-- The query is answered by its meaning. -/
theorem visitor_denotes_fans :
    ∃ visitor,
      acceptAll inventoryManager (fun _ => twoFans) fanQuery .initial = .ok visitor ∧
        visitor.document inventoryManager twoFans =
          .ok (denote inventoryManager twoFans fanQuery) :=
  (visitor_denotes inventoryManager twoFans (inventoryCache_comparable twoFans) fanQuery
    fanQuery_wellTyped).1

example : denote inventoryManager twoFans fanQuery = .object [(bytes "Fan", .array [
    .object [(bytes "Id", .string (bytes "Fan1")), (bytes "Sensors", .array [])],
    .object [(bytes "Id", .string (bytes "Fan2")),
      (bytes "Sensors", .array [.object [(bytes "Id", .string (bytes "Speed"))]])]])] := by
  rfl

end Graphql
end ObmcWebapp
