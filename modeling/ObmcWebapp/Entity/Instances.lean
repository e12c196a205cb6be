import ObmcWebapp.Core

/-!
# Entity - Instances, conditions and relations

The instances of the entities with their fields, the conditions that
{lit}`getInstances` checks, and the relations between entities, whose rules become
conditions for one source instance.

The objects of {lit}`getComplex` are left out: {lit}`FieldType` holds associations
itself, so {lit}`captureDBusAssociations`, which alone makes such objects, is never
called.

Main results:

- Theorem {lit}`Cache.getInstances_ok_iff`: the instances that satisfy all conditions.
- Theorems {lit}`Cache.getInstances_insert`, {lit}`getRelatedInstances_cons`: one more condition,
  and one more relation rule, in front.
-/

open Library

namespace ObmcWebapp
namespace Entity

/-! ## Fields -/

/-- {lit}`FieldType`; a double is given by its bits. -/
inductive FieldType
  | associations (value : List (Bytes × Bytes × Bytes))
  | strings (value : List Bytes)
  | doubles (value : List UInt64)
  | ints (value : List Int32)
  | string (value : Bytes)
  | int64 (value : Int64)
  | uint64 (value : UInt64)
  | double (value : UInt64)
  | int32 (value : Int32)
  | uint32 (value : UInt32)
  | int16 (value : Int16)
  | uint16 (value : UInt16)
  | uint8 (value : UInt8)
  | bool (value : Bool)
  | null
deriving DecidableEq

/-- Equality of doubles: not a number differs from everything, the zeros are equal. -/
def sameDouble (a b : UInt64) : Bool :=
  let isNaN (bits : UInt64) : Bool := (0xFFE0000000000000 : UInt64) < (bits <<< 1)
  !isNaN a && !isNaN b && (a = b || (a ||| b) <<< 1 = 0)

/-- {lit}`operator==` of the variant. -/
def FieldType.equals : FieldType → FieldType → Bool
  | .double a, .double b => sameDouble a b
  | .doubles a, .doubles b => a.length = b.length && (a.zip b).all fun pair =>
      sameDouble pair.1 pair.2
  | a, b => a = b

/-- A text equals itself alone. -/
theorem FieldType.equals_string (left : FieldType) (value : Bytes) :
    left.equals (.string value) = decide (left = .string value) := by
  cases left <;> rfl

/-- An {lit}`EntityMember::StaticInstance`, none without a value. -/
abbrev Field := Option FieldType

/-- What stands for a value that is not there. -/
def fieldValueNotAvailable : Bytes := bytes "N/A"

namespace Field

/-- {lit}`isNull` -/
def isNull : Field → Bool
  | none | some .null => true
  | _ => false

/-- {lit}`getValue` -/
def getValue (field : Field) : FieldType :=
  match field with
  | none | some .null => .string fieldValueNotAvailable
  | some value => value

/-- {lit}`getStringValue` -/
def getStringValue (field : Field) : Bytes :=
  match field.getValue with
  | .string value => value
  | _ => fieldValueNotAvailable

end Field

/-- An instance with its hash and its fields. -/
structure Instance where
  hash : UInt64
  memberInstances : Bytes → Option FieldType

/-- {lit}`getField` -/
def Instance.getField (instance_ : Instance) (memberName : Bytes) : Field :=
  instance_.memberInstances memberName

/-! ## Conditions -/

/-- The field of a condition on the object itself. -/
def dummyField : Bytes := bytes "_"

/-- A comparison of a field, none for the dummy field, with a value. -/
abbrev CompareCallback := Option Field → FieldType → Except Exception Bool

/-- {lit}`Equal`; the value has the type that both sides must hold. -/
def equal : CompareCallback := fun field value =>
  match field with
  | none => .ok false
  | some field => .ok (field.getValue.equals value)

/-- A comparison of a field with a value. -/
structure Rule where
  memberName : Bytes
  value : FieldType
  compareCallback : CompareCallback

/-- Comparisons that all have to hold. -/
structure Condition where
  rules : List Rule

namespace Condition

/-- A condition of one comparison. -/
def ofRule (memberName : Bytes) (value : FieldType) (compareCallback : CompareCallback) :
    Condition :=
  ⟨[⟨memberName, value, compareCallback⟩]⟩

/-- {lit}`buildEqual` -/
def buildEqual (memberName : Bytes) (value : FieldType) : Condition :=
  ofRule memberName value equal

/-- {lit}`fieldValueCompare`: all rules are evaluated, whatever their results. -/
def check (condition : Condition) (instance_ : Instance) : Except Exception Bool :=
  condition.rules.foldlM (fun result rule => do
    let memberInstance :=
      if rule.memberName = dummyField then none
      else some (instance_.getField rule.memberName)
    let passed ← rule.compareCallback memberInstance rule.value
    return result && passed) true

end Condition

/-- The loop over the conditions; it ends at the first that fails. -/
def checkConditions : List Condition → Instance → Except Exception Bool
  | [], _ => .ok true
  | condition :: rest, instance_ => do
      if ← condition.check instance_ then checkConditions rest instance_ else return false

/-- An instance satisfies every condition. -/
def Satisfies (conditions : List Condition) (instance_ : Instance) : Prop :=
  ∀ condition ∈ conditions, condition.check instance_ = .ok true

/-- The check returns true where all conditions are satisfied. -/
theorem checkConditions_true_iff {conditions : List Condition} {instance_ : Instance} :
    checkConditions conditions instance_ = .ok true ↔ Satisfies conditions instance_ := by
  induction conditions with
  | nil => simp [checkConditions, Satisfies]
  | cons condition rest ih =>
      unfold Satisfies at ih ⊢
      rw [List.forall_mem_cons, ← ih, checkConditions]
      cases hcheck : condition.check instance_ with
      | error exception => simp [bind, Except.bind]
      | ok passed => cases passed <;> simp [bind, Except.bind, pure, Except.pure]

/-! ## Entities -/

/-- {lit}`IEntity::Type` -/
inductive EntityType
  | object
  | array
  | reference
deriving DecidableEq

/-- A rule of a relation. -/
structure RuleSet where
  memberSource : Bytes
  memberDest : Bytes
  compareLiteral : CompareCallback

/-- The other entity and the rules of a relation. -/
structure Relation (ε : Type) where
  destination : ε
  conditionBuildRules : List RuleSet

/-- What the classes of the entities fix.  {lit}`members` are the names that
{lit}`getMember` finds, also those of the providers. -/
structure Schema (ε : Type) where
  name : ε → Bytes
  name_injective : Function.Injective name
  type : ε → EntityType
  members : ε → List Bytes
  relations : ε → List (Relation ε)

variable {ε : Type}

/-- {lit}`getRelation`: the first to an entity of that name. -/
def Schema.getRelation (schema : Schema ε) (entity : ε) (entityName : Bytes) :
    Option (Relation ε) :=
  (schema.relations entity).find? fun relation =>
    schema.name relation.destination = entityName

/-- A relation that is found by a name leads to the entity of that name. -/
theorem Schema.getRelation_destination {schema : Schema ε} {entity destination : ε}
    {relation : Relation ε}
    (h : schema.getRelation entity (schema.name destination) = some relation) :
    relation.destination = destination := by
  have hname := List.find?_some h
  exact schema.name_injective (of_decide_eq_true hname)

/-! ## The cache -/

/-- A provider with its own instances and the rule that supplements another one. -/
structure Provider where
  instances : List Instance
  linkRule : Instance → Instance → Except Exception Instance

/-- A provider links its instances one after the other. -/
def Provider.supplementInstance (provider : Provider) (instance_ : Instance) :
    Except Exception Instance :=
  provider.instances.foldlM (fun target supplement => provider.linkRule supplement target)
    instance_

/-- What is cached of each entity, with what {lit}`getInstances` does to an object
before it reads it. -/
structure Cached (ε : Type) where
  instances : ε → List Instance
  initDefaultFieldsValue : ε → Instance → Except Exception Instance
  verifyState : ε → Instance → Except Exception Instance
  providers : ε → List Provider

/-- An object as {lit}`getInstances` leaves it. -/
def Cached.refresh (cached : Cached ε) (entity : ε) (object : Instance) :
    Except Exception Instance := do
  let object ← cached.initDefaultFieldsValue entity object
  let object ← cached.verifyState entity object
  (cached.providers entity).foldlM (fun target provider => provider.supplementInstance target)
    object

/-- A cache in the order of the hashes, whose objects are up to date. -/
structure Cache (ε : Type) extends Cached ε where
  ordered : ∀ entity, (instances entity).Pairwise fun a b => a.hash < b.hash
  settled : ∀ entity, ∀ object ∈ instances entity, toCached.refresh entity object = .ok object

namespace Cached

/-- The loop of {lit}`getInstances`. -/
def collect (cached : Cached ε) (entity : ε) (conditions : List Condition) :
    List Instance → Except Exception (List Instance)
  | [] => .ok []
  | object :: rest => do
      let instance_ ← cached.refresh entity object
      let passed ← checkConditions conditions instance_
      let result ← cached.collect entity conditions rest
      return if passed then instance_ :: result else result

/-- {lit}`getInstances` -/
def getInstances (cached : Cached ε) (entity : ε) (conditions : List Condition) :
    Except Exception (List Instance) :=
  cached.collect entity conditions (cached.instances entity)

/-- {lit}`getInstance` -/
def getInstance (cached : Cached ε) (entity : ε) (hash : UInt64) : Option Instance :=
  (cached.instances entity).find? fun instance_ => instance_.hash = hash

end Cached

/-- The condition that a rule makes for a source instance, none where that is not
found. -/
def Relation.buildCondition (schema : Schema ε) (cached : Cached ε) (source : ε)
    (hash : UInt64) (rule : RuleSet) : Except Exception (Option Condition) :=
  if rule.memberSource = dummyField then
    .ok (some (.ofRule rule.memberDest .null rule.compareLiteral))
  else if rule.memberSource ∈ schema.members source then
    .ok ((cached.getInstance source hash).map fun sourceInstance =>
      .ofRule rule.memberDest (sourceInstance.getField rule.memberSource).getValue
        rule.compareLiteral)
  else
    .error .entityException

/-- {lit}`getConditions` -/
def Relation.getConditions (schema : Schema ε) (cached : Cached ε) (source : ε)
    (relation : Relation ε) (hash : UInt64) : Except Exception (List Condition) := do
  let conditions ← relation.conditionBuildRules.mapM
    (Relation.buildCondition schema cached source hash)
  return conditions.filterMap id

/-- {lit}`getRelatedInstances` -/
def getRelatedInstances (schema : Schema ε) (cached : Cached ε) (source : ε)
    (instance_ : Instance) (relation : Relation ε) (conditions : List Condition) :
    Except Exception (List Instance) := do
  let relConditions ← relation.getConditions schema cached source instance_.hash
  cached.getInstances relation.destination (relConditions ++ conditions)

/-! ## What is selected -/

namespace Cache

variable {cache : Cache ε} {entity : ε} {conditions : List Condition}

/-- An object that is refreshed is checked, and then the rest. -/
private theorem collect_cons {object : Instance} {rest : List Instance}
    (hobject : cache.refresh entity object = .ok object) :
    cache.collect entity conditions (object :: rest) =
      (checkConditions conditions object).bind fun passed =>
        (cache.collect entity conditions rest).map fun result =>
          if passed then object :: result else result := by
  rw [Cached.collect, hobject]
  rfl

/-- What is collected of settled objects. -/
private theorem collect_ok_iff {objects selected : List Instance}
    (hsettled : ∀ object ∈ objects, cache.refresh entity object = .ok object) :
    cache.collect entity conditions objects = .ok selected ↔
      (∀ object ∈ objects, ∃ passed, checkConditions conditions object = .ok passed) ∧
        selected = objects.filter fun object =>
          checkConditions conditions object = .ok true := by
  induction objects generalizing selected with
  | nil => simp [Cached.collect, eq_comm]
  | cons object rest ih =>
      obtain ⟨hobject, hrest⟩ := List.forall_mem_cons.mp hsettled
      rw [collect_cons hobject, List.forall_mem_cons, List.filter_cons]
      cases hcheck : checkConditions conditions object with
      | error exception => simp [Except.bind]
      | ok passed =>
          cases hcollect : cache.collect entity conditions rest with
          | error exception =>
              have hnone : ¬ ∀ other ∈ rest,
                  ∃ passed, checkConditions conditions other = .ok passed := by
                intro hall
                have hok := (ih hrest).mpr ⟨hall, rfl⟩
                rw [hcollect] at hok
                cases hok
              constructor
              · intro hok
                cases hok
              · intro hboth
                exact absurd hboth.1.2 hnone
          | ok others =>
              obtain ⟨hall, hothers⟩ := (ih hrest).mp hcollect
              rw [and_iff_right ⟨⟨passed, rfl⟩, hall⟩, ← hothers]
              cases passed with
              | true => simp [Except.bind, Except.map, eq_comm]
              | false => simp [Except.bind, Except.map, eq_comm]

/-- What a read of a settled cache returns. -/
theorem getInstances_ok_iff {selected : List Instance} :
    cache.getInstances entity conditions = .ok selected ↔
      (∀ object ∈ cache.instances entity,
        ∃ passed, checkConditions conditions object = .ok passed) ∧
        selected = (cache.instances entity).filter fun object =>
          checkConditions conditions object = .ok true :=
  collect_ok_iff (cache.settled entity)

/-- The selected instances are those that satisfy every condition. -/
theorem mem_getInstances {selected : List Instance}
    (h : cache.getInstances entity conditions = .ok selected) (instance_ : Instance) :
    instance_ ∈ selected ↔ instance_ ∈ cache.instances entity ∧ Satisfies conditions instance_ := by
  rw [(getInstances_ok_iff.mp h).2, List.mem_filter, decide_eq_true_iff,
    checkConditions_true_iff]

/-- Without conditions all objects are returned. -/
theorem getInstances_nil : cache.getInstances entity [] = .ok (cache.instances entity) := by
  apply getInstances_ok_iff.mpr
  refine ⟨fun _ _ => ⟨true, rfl⟩, ?_⟩
  simp [checkConditions]

/-- A condition that never raises, put between others. -/
theorem checkConditions_insert {before after : List Condition} {condition : Condition}
    {instance_ : Instance} {passed also : Bool}
    (h : checkConditions (before ++ after) instance_ = .ok passed)
    (hcheck : condition.check instance_ = .ok also) :
    checkConditions (before ++ condition :: after) instance_ = .ok (also && passed) := by
  induction before with
  | nil =>
      rw [List.nil_append] at h ⊢
      rw [checkConditions, hcheck]
      cases also with
      | true => simpa [bind, Except.bind] using h
      | false => simp [bind, Except.bind, pure, Except.pure]
  | cons first rest ih =>
      rw [List.cons_append, checkConditions] at h ⊢
      cases hfirst : first.check instance_ with
      | error exception =>
          rw [hfirst] at h
          cases h
      | ok firstPassed =>
          rw [hfirst] at h
          cases firstPassed with
          | true => exact ih h
          | false =>
              cases h
              simp [bind, Except.bind, pure, Except.pure]

/-- A condition more selects among the instances. -/
theorem getInstances_insert {before after : List Condition} {condition : Condition}
    {selected : List Instance} {also : Instance → Bool}
    (h : cache.getInstances entity (before ++ after) = .ok selected)
    (hcheck : ∀ instance_, condition.check instance_ = .ok (also instance_)) :
    cache.getInstances entity (before ++ condition :: after) = .ok (selected.filter also) := by
  obtain ⟨hall, hselected⟩ := getInstances_ok_iff.mp h
  apply getInstances_ok_iff.mpr
  constructor
  · intro object hmem
    obtain ⟨passed, hpassed⟩ := hall object hmem
    exact ⟨_, checkConditions_insert hpassed (hcheck object)⟩
  · rw [hselected, List.filter_filter]
    apply List.filter_congr
    intro object hmem
    obtain ⟨passed, hpassed⟩ := hall object hmem
    rw [checkConditions_insert hpassed (hcheck object), hpassed]
    simp

/-- An instance is found by its hash. -/
theorem getInstance_eq_some_iff {hash : UInt64} {instance_ : Instance} :
    cache.getInstance entity hash = some instance_ ↔
      instance_ ∈ cache.instances entity ∧ instance_.hash = hash := by
  unfold Cached.getInstance
  constructor
  · intro h
    have hhash := List.find?_some h
    exact ⟨List.mem_of_find?_eq_some h, by simpa using hhash⟩
  · rintro ⟨hmem, rfl⟩
    have hpairwise := cache.ordered entity
    generalize cache.instances entity = objects at hmem hpairwise
    induction objects with
    | nil => exact absurd hmem List.not_mem_nil
    | cons object rest ih =>
        rw [List.pairwise_cons] at hpairwise
        rcases List.mem_cons.mp hmem with hfirst | hrest
        · rw [hfirst, List.find?_cons_of_pos (by simp)]
        · have hlt := hpairwise.1 instance_ hrest
          rw [List.find?_cons_of_neg]
          · exact ih hrest hpairwise.2
          · rw [decide_eq_true_iff]
            exact UInt64.ne_of_lt hlt

end Cache

/-! ## Relations -/

/-- A rule of a relation holds between two instances. -/
def RuleHolds (rule : RuleSet) (source target : Instance) : Prop :=
  rule.compareLiteral
    (if rule.memberDest = dummyField then none else some (target.getField rule.memberDest))
    (if rule.memberSource = dummyField then .null
      else (source.getField rule.memberSource).getValue) = .ok true

/-- All rules of the relation hold. -/
def Related (relation : Relation ε) (source target : Instance) : Prop :=
  ∀ rule ∈ relation.conditionBuildRules, RuleHolds rule source target

/-- The check of a single comparison. -/
theorem check_ofRule {memberName : Bytes} {value : FieldType} {compareCallback : CompareCallback}
    {instance_ : Instance} :
    (Condition.ofRule memberName value compareCallback).check instance_ =
      compareCallback (if memberName = dummyField then none
        else some (instance_.getField memberName)) value := by
  simp only [Condition.check, Condition.ofRule, List.foldlM_cons, List.foldlM_nil]
  cases compareCallback (if memberName = dummyField then none
    else some (instance_.getField memberName)) value with
  | error exception => rfl
  | ok passed => rfl

/-- A rule builds a condition of the source, or none. -/
theorem buildCondition_ok {schema : Schema ε} {cache : Cache ε} {entity : ε} {source : Instance}
    (hsource : source ∈ cache.instances entity) {rule : RuleSet} {built : Option Condition}
    (h : Relation.buildCondition schema cache.toCached entity source.hash rule = .ok built) :
    ∃ condition, built = some condition ∧
      ∀ target, condition.check target = .ok true ↔ RuleHolds rule source target := by
  unfold Relation.buildCondition at h
  unfold RuleHolds
  split at h
  · next hdummy =>
      cases h
      refine ⟨_, rfl, fun target => ?_⟩
      rw [check_ofRule, if_pos hdummy]
  · next hdummy =>
      split at h
      · rw [Cache.getInstance_eq_some_iff.mpr ⟨hsource, rfl⟩] at h
        cases h
        refine ⟨_, rfl, fun target => ?_⟩
        rw [check_ofRule, if_neg hdummy]
      · cases h

private theorem mapM_buildCondition {schema : Schema ε} {cache : Cache ε} {entity : ε}
    {source : Instance} (hsource : source ∈ cache.instances entity) {rules : List RuleSet}
    {built : List (Option Condition)}
    (h : rules.mapM (Relation.buildCondition schema cache.toCached entity source.hash) =
      .ok built) (target : Instance) :
    Satisfies (built.filterMap id) target ↔ ∀ rule ∈ rules, RuleHolds rule source target := by
  induction rules generalizing built with
  | nil =>
      cases h
      simp [Satisfies]
  | cons rule rest ih =>
      rw [List.mapM_cons] at h
      cases hrule : Relation.buildCondition schema cache.toCached entity source.hash rule with
      | error exception =>
          rw [hrule] at h
          cases h
      | ok first =>
          rw [hrule] at h
          cases hrest : rest.mapM
              (Relation.buildCondition schema cache.toCached entity source.hash) with
          | error exception =>
              rw [hrest] at h
              cases h
          | ok others =>
              rw [hrest] at h
              cases h
              obtain ⟨condition, rfl, hcondition⟩ := buildCondition_ok hsource hrule
              have hothers := ih hrest
              have hfilter : (some condition :: others).filterMap id =
                condition :: others.filterMap id := rfl
              unfold Satisfies at hothers ⊢
              rw [hfilter, List.forall_mem_cons, List.forall_mem_cons, hcondition target]
              exact and_congr_right fun _ => hothers

/-- For a cached source instance the conditions say what the rules say. -/
theorem satisfies_getConditions {schema : Schema ε} {cache : Cache ε} {entity : ε}
    {source : Instance} (hsource : source ∈ cache.instances entity) {relation : Relation ε}
    {conditions : List Condition}
    (h : relation.getConditions schema cache.toCached entity source.hash = .ok conditions)
    (target : Instance) : Satisfies conditions target ↔ Related relation source target := by
  unfold Relation.getConditions at h
  cases hbuilt : relation.conditionBuildRules.mapM
      (Relation.buildCondition schema cache.toCached entity source.hash) with
  | error exception =>
      rw [hbuilt] at h
      cases h
  | ok built =>
      rw [hbuilt] at h
      cases h
      exact mapM_buildCondition hsource hbuilt target

/-- Conditions may be given in two parts. -/
theorem satisfies_append {before after : List Condition} {instance_ : Instance} :
    Satisfies (before ++ after) instance_ ↔
      Satisfies before instance_ ∧ Satisfies after instance_ :=
  List.forall_mem_append

/-- The related instances are the cached ones to which the rules lead. -/
theorem getRelatedInstances_ok {schema : Schema ε} {cache : Cache ε} {entity : ε}
    {source : Instance} {relation : Relation ε} {conditions : List Condition}
    {selected : List Instance}
    (h : getRelatedInstances schema cache.toCached entity source relation conditions =
      .ok selected) :
    ∃ relConditions,
      relation.getConditions schema cache.toCached entity source.hash = .ok relConditions ∧
        cache.getInstances relation.destination (relConditions ++ conditions) = .ok selected := by
  unfold getRelatedInstances at h
  cases hconditions : relation.getConditions schema cache.toCached entity source.hash with
  | error exception =>
      rw [hconditions] at h
      cases h
  | ok relConditions =>
      rw [hconditions] at h
      exact ⟨relConditions, rfl, h⟩

/-- The related instances that satisfy the conditions. -/
theorem mem_getRelatedInstances {schema : Schema ε} {cache : Cache ε} {entity : ε}
    {source : Instance} (hsource : source ∈ cache.instances entity) {relation : Relation ε}
    {conditions : List Condition} {selected : List Instance}
    (h : getRelatedInstances schema cache.toCached entity source relation conditions =
      .ok selected) (target : Instance) :
    target ∈ selected ↔ target ∈ cache.instances relation.destination ∧
      Related relation source target ∧ Satisfies conditions target := by
  obtain ⟨relConditions, hconditions, hselected⟩ := getRelatedInstances_ok h
  rw [Cache.mem_getInstances hselected, satisfies_append,
    satisfies_getConditions hsource hconditions]

/-- One more condition in front narrows the related instances. -/
theorem getRelatedInstances_cons {schema : Schema ε} {cache : Cache ε} {entity : ε}
    {source : Instance} {relation : Relation ε} {conditions : List Condition}
    {selected : List Instance} {condition : Condition} {also : Instance → Bool}
    (h : getRelatedInstances schema cache.toCached entity source relation conditions =
      .ok selected) (hcheck : ∀ instance_, condition.check instance_ = .ok (also instance_)) :
    getRelatedInstances schema cache.toCached entity source relation (condition :: conditions) =
      .ok (selected.filter also) := by
  obtain ⟨relConditions, hconditions, hselected⟩ := getRelatedInstances_ok h
  unfold getRelatedInstances
  rw [hconditions]
  exact Cache.getInstances_insert hselected hcheck

/-! ## Comparisons that do not raise -/

/-- What the rule of a relation compares for a source and a target. -/
def RuleSet.compare (rule : RuleSet) (source target : Instance) : Except Exception Bool :=
  rule.compareLiteral
    (if rule.memberDest = dummyField then none else some (target.getField rule.memberDest))
    (if rule.memberSource = dummyField then .null
      else (source.getField rule.memberSource).getValue)

/-- The rules of all relations read members of their sources and compare what is
cached without raising. -/
structure Comparable (schema : Schema ε) (cache : Cache ε) : Prop where
  member : ∀ entity, ∀ relation ∈ schema.relations entity,
    ∀ rule ∈ relation.conditionBuildRules,
      rule.memberSource = dummyField ∨ rule.memberSource ∈ schema.members entity
  compared : ∀ entity, ∀ relation ∈ schema.relations entity,
    ∀ rule ∈ relation.conditionBuildRules, ∀ source target,
      rule.memberSource = dummyField ∨ source ∈ cache.instances entity →
      target ∈ cache.instances relation.destination →
      ∃ passed, rule.compare source target = .ok passed

/-- A relation that is found is one of the entity. -/
theorem Schema.mem_relations_of_getRelation {schema : Schema ε} {entity : ε} {entityName : Bytes}
    {relation : Relation ε} (h : schema.getRelation entity entityName = some relation) :
    relation ∈ schema.relations entity :=
  List.mem_of_find?_eq_some h

section

variable {schema : Schema ε} {cache : Cache ε} {entity : ε} {relation : Relation ε}

/-- The conditions of a rule can be checked on all cached targets. -/
private theorem buildCondition_checked (hcomparable : Comparable schema cache)
    (hrelation : relation ∈ schema.relations entity) {rule : RuleSet}
    (hrule : rule ∈ relation.conditionBuildRules) (hash : UInt64) :
    ∃ built, Relation.buildCondition schema cache.toCached entity hash rule = .ok built ∧
      ∀ condition ∈ built, ∀ target ∈ cache.instances relation.destination,
        ∃ passed, condition.check target = .ok passed := by
  have hcompared := hcomparable.compared entity relation hrelation rule hrule
  unfold Relation.buildCondition
  split
  · next hdummy =>
      refine ⟨_, rfl, ?_⟩
      intro condition hcondition target htarget
      cases hcondition
      have hpassed := hcompared target target (Or.inl hdummy) htarget
      rw [RuleSet.compare, if_pos hdummy] at hpassed
      rw [check_ofRule]
      exact hpassed
  · next hdummy =>
      have hmember := (hcomparable.member entity relation hrelation rule hrule).resolve_left hdummy
      rw [if_pos hmember]
      refine ⟨_, rfl, ?_⟩
      intro condition hcondition target htarget
      cases hsource : cache.getInstance entity hash with
      | none =>
          rw [hsource] at hcondition
          cases hcondition
      | some source =>
          rw [hsource] at hcondition
          cases hcondition
          have hcached := (Cache.getInstance_eq_some_iff.mp hsource).1
          have hpassed := hcompared source target (Or.inr hcached) htarget
          rw [RuleSet.compare, if_neg hdummy] at hpassed
          rw [check_ofRule]
          exact hpassed

/-- The conditions of a relation can be checked. -/
private theorem mapM_buildCondition_checked (hcomparable : Comparable schema cache)
    (hrelation : relation ∈ schema.relations entity) (hash : UInt64) {rules : List RuleSet}
    (hrules : ∀ rule ∈ rules, rule ∈ relation.conditionBuildRules) :
    ∃ built, rules.mapM (Relation.buildCondition schema cache.toCached entity hash) = .ok built ∧
      ∀ condition ∈ built.filterMap id, ∀ target ∈ cache.instances relation.destination,
        ∃ passed, condition.check target = .ok passed := by
  induction rules with
  | nil => exact ⟨[], rfl, fun condition hmem => absurd hmem List.not_mem_nil⟩
  | cons rule rest ih =>
      obtain ⟨hrule, hrest⟩ := List.forall_mem_cons.mp hrules
      obtain ⟨first, hfirst, hchecked⟩ := buildCondition_checked hcomparable hrelation hrule hash
      obtain ⟨others, hothers, hotherChecked⟩ := ih hrest
      refine ⟨first :: others, ?_, ?_⟩
      · rw [List.mapM_cons, hfirst, hothers]
        rfl
      · intro condition hmem
        obtain ⟨built, hbuilt, hsome⟩ := List.mem_filterMap.mp hmem
        rcases List.mem_cons.mp hbuilt with hhead | htail
        · exact hchecked condition (hhead ▸ hsome)
        · exact hotherChecked condition (List.mem_filterMap.mpr ⟨built, htail, hsome⟩)

/-- Conditions that can be checked one by one can be checked together. -/
theorem checkConditions_ok {conditions : List Condition} {instance_ : Instance}
    (h : ∀ condition ∈ conditions, ∃ passed, condition.check instance_ = .ok passed) :
    ∃ passed, checkConditions conditions instance_ = .ok passed := by
  induction conditions with
  | nil => exact ⟨true, rfl⟩
  | cons condition rest ih =>
      obtain ⟨hfirst, hrest⟩ := List.forall_mem_cons.mp h
      obtain ⟨passed, hpassed⟩ := hfirst
      rw [checkConditions, hpassed]
      cases passed with
      | true => exact ih hrest
      | false => exact ⟨false, rfl⟩

/-- The instances related to that of a hash, which need not be cached any more, are
found without an exception. -/
theorem getConditions_getInstances_ok (hcomparable : Comparable schema cache)
    (hrelation : relation ∈ schema.relations entity) (hash : UInt64) :
    ∃ conditions selected,
      relation.getConditions schema cache.toCached entity hash = .ok conditions ∧
        cache.getInstances relation.destination conditions = .ok selected := by
  obtain ⟨built, hbuilt, hchecked⟩ :=
    mapM_buildCondition_checked hcomparable hrelation hash fun _ hrule => hrule
  refine ⟨built.filterMap id, _, ?_, Cache.getInstances_ok_iff.mpr ⟨?_, rfl⟩⟩
  · unfold Relation.getConditions
    rw [hbuilt]
    rfl
  · intro target htarget
    exact checkConditions_ok fun condition hmem => hchecked condition hmem target htarget

end

end Entity
end ObmcWebapp
