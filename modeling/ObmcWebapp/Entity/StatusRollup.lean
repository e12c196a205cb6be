import ObmcWebapp.Entity.RelatedInstances
import ObmcWebapp.Library.Greatest

/-!
# Entity - The status of related instances

{lit}`StatusRollup` goes through the relations of an entity to destinations with a status and
keeps the highest status of the instances that it finds related.  A relation of which no
rule is left is passed over, and the rules of an instance that is gone from the cache are
dropped.

A status is given by its number; an entity has a member of its own where {lit}`hasMember`
says so, those of its providers do not count.

Main results:

- Theorem {lit}`fold_returns_iff`, {lit}`fold_greatest`: the two loops over any related
  instances.
- Theorem {lit}`statusRollup_greatest_iff`: when {lit}`StatusRollup` yields the greatest severity of
  the instances related to a held one.
- Theorem {lit}`rollsUp_iff_of_cached`: the same as long as the cache holds the instance.
-/

open Library

namespace ObmcWebapp
namespace Entity

variable {ε : Type}

namespace StatusProvider

/-- The member with the status. -/
def fieldStatus : Bytes := bytes "Status"

/-- The member with the rollup. -/
def fieldStatusRollup : Bytes := bytes "StatusRollup"

/-! ## The status of an instance -/

/-- The numbers of {lit}`StatusProvider::Status`. -/
def ok : Int32 := 0

/-- Something is wrong. -/
def warning : Int32 := 1

/-- Something has failed. -/
def critical : Int32 := 2

/-- The getter of an enumeration field, for any number that is stored. -/
def getFieldEnum (fieldName : Bytes) (defval : Int32) (instance_ : Instance) :
    Except Exception Int32 :=
  let field := instance_.getField fieldName
  if field.isNull then .ok defval
  else match field.getValue with
    | .int32 value => .ok value
    | _ => .error .badVariantAccess

/-- The status of an instance, fine where it has none. -/
def getFieldStatus (instance_ : Instance) : Except Exception Int32 :=
  getFieldEnum fieldStatus ok instance_

/-- The rollup of an instance, fine where it has none. -/
def getFieldStatusRollup (instance_ : Instance) : Except Exception Int32 :=
  getFieldEnum fieldStatusRollup ok instance_

/-- {lit}`getHigherStatus` of two statuses. -/
def getHigherStatus (left right : Int32) : Int32 :=
  if left ≥ right then left else right

/-- {lit}`getHigherStatus` of an instance and a status. -/
def getHigherStatusOf (instance_ : Instance) (right : Int32) : Except Exception Int32 := do
  if (← getFieldStatus instance_) ≥ right then getFieldStatus instance_ else return right

end StatusProvider

open StatusProvider

/-! ## The loops -/

namespace StatusRollup

/-- One of the instances that a relation leads to. -/
def rollInstance (hasRollup : Bool) (result : Int32) (instance_ : Instance) :
    Except Exception Int32 := do
  let result ← getHigherStatusOf instance_ result
  if hasRollup then return getHigherStatus (← getFieldStatusRollup instance_) result
  else return result

/-- The greatest status over the instances of a relation. -/
def rollRelation (hasMember : ε → Bytes → Bool)
    (related : Relation ε → Except Exception (List Instance)) (result : Int32)
    (relation : Relation ε) : Except Exception Int32 := do
  let dest := relation.destination
  if !hasMember dest fieldStatus then return result
  let instancesOfStatus ← related relation
  instancesOfStatus.foldlM (rollInstance (hasMember dest fieldStatusRollup)) result

/-- The greatest status over all relations. -/
def fold (hasMember : ε → Bytes → Bool) (related : Relation ε → Except Exception (List Instance))
    (relations : List (Relation ε)) : Except Exception FieldType := do
  let result ← relations.foldlM (rollRelation hasMember related) ok
  return .int32 result

end StatusRollup

/-- {lit}`StatusRollup::operator()` of an entity. -/
def statusRollup (hasMember : ε → Bytes → Bool) (schema : Schema ε) (cached : Cached ε)
    (entity : ε) (instance_ : Instance) : Except Exception FieldType :=
  StatusRollup.fold hasMember
    (fun relation => instance_.getRelatedInstances schema cached entity relation [] true)
    (schema.relations entity)

/-! ## What the loops keep -/

/-- The severities that count for an instance. -/
def gradesOf (hasRollup : Bool) (instance_ : Instance) : Set Int32 :=
  {severity | getFieldStatus instance_ = .ok severity} ∪
    {severity | hasRollup = true ∧ getFieldStatusRollup instance_ = .ok severity}

/-- The fields of an instance that count are severities. -/
def Graded (hasRollup : Bool) (instance_ : Instance) : Prop :=
  (∃ severity, getFieldStatus instance_ = .ok severity) ∧
    (hasRollup = true → ∃ severity, getFieldStatusRollup instance_ = .ok severity)

/-- The severities of the instances that relations list. -/
def severities (hasMember : ε → Bytes → Bool) (lists : Relation ε → Instance → Prop)
    (relations : List (Relation ε)) : Set Int32 :=
  {severity | ∃ relation ∈ relations, hasMember relation.destination fieldStatus = true ∧
    ∃ target, lists relation target ∧
      severity ∈ gradesOf (hasMember relation.destination fieldStatusRollup) target}

/-- An instance is in the list that is returned. -/
def Lists (listing : Except Exception (List Instance)) (instance_ : Instance) : Prop :=
  ∃ instances, listing = .ok instances ∧ instance_ ∈ instances

/-- A relation that counts lists instances whose fields are severities. -/
def Gradable (hasMember : ε → Bytes → Bool)
    (related : Relation ε → Except Exception (List Instance)) (relation : Relation ε) : Prop :=
  hasMember relation.destination fieldStatus = true →
    (∃ instances, related relation = .ok instances) ∧
      ∀ target, Lists (related relation) target →
        Graded (hasMember relation.destination fieldStatusRollup) target

namespace StatusRollup

variable {hasMember : ε → Bytes → Bool} {related : Relation ε → Except Exception (List Instance)}
  {relations : List (Relation ε)} {relation : Relation ε} {hasRollup : Bool} {instance_ : Instance}
  {start result : Int32}

/-- The higher status is the greater one. -/
theorem getHigherStatus_greatest (left right : Int32) :
    IsGreatest (insert right {left}) (getHigherStatus left right) := by
  unfold getHigherStatus
  split
  · next hge =>
      refine ⟨by simp, ?_⟩
      rintro value (rfl | rfl)
      · exact hge
      · exact Std.le_refl _
  · next hlt =>
      refine ⟨by simp, ?_⟩
      rintro value (rfl | rfl)
      · exact Std.le_refl _
      · exact Std.le_of_lt (Std.not_le.mp hlt)

/-- The status of an instance is taken if it can be read. -/
theorem getHigherStatusOf_ok_iff :
    getHigherStatusOf instance_ start = .ok result ↔
      ∃ severity, getFieldStatus instance_ = .ok severity ∧
        result = getHigherStatus severity start := by
  unfold getHigherStatusOf getHigherStatus
  cases hstatus : getFieldStatus instance_ with
  | error exception => simp [bind, Except.bind]
  | ok severity =>
      simp only [bind, Except.bind, Except.ok.injEq, exists_eq_left']
      split
      · simp [eq_comm]
      · simp [pure, Except.pure, eq_comm]

theorem rollInstance_ok_iff :
    rollInstance hasRollup start instance_ = .ok result ↔
      ∃ severity, getFieldStatus instance_ = .ok severity ∧
        if hasRollup then
          ∃ rollup, getFieldStatusRollup instance_ = .ok rollup ∧
            result = getHigherStatus rollup (getHigherStatus severity start)
        else result = getHigherStatus severity start := by
  unfold rollInstance
  simp only [bind_eq_ok, getHigherStatusOf_ok_iff]
  cases hasRollup with
  | true =>
      simp only [if_true, bind_eq_ok, pure_eq_ok]
      constructor
      · rintro ⟨value, ⟨severity, hseverity, rfl⟩, rollup, hrollup, rfl⟩
        exact ⟨severity, hseverity, rollup, hrollup, rfl⟩
      · rintro ⟨severity, hseverity, rollup, hrollup, rfl⟩
        exact ⟨_, ⟨severity, hseverity, rfl⟩, rollup, hrollup, rfl⟩
  | false => simp [pure_eq_ok, eq_comm (a := result)]

/-- An instance counts if it can be read. -/
theorem rollInstance_returns_iff (hasRollup : Bool) (start : Int32) (instance_ : Instance) :
    (∃ t, rollInstance hasRollup start instance_ = .ok t) ↔ Graded hasRollup instance_ := by
  simp only [rollInstance_ok_iff, Graded]
  cases hasRollup with
  | true => simp
  | false => simp

/-- The result is the greatest of what the instance has. -/
theorem rollInstance_greatest (start : Int32) (instance_ : Instance) (result : Int32)
    (h : rollInstance hasRollup start instance_ = .ok result) :
    IsGreatest (insert start (gradesOf hasRollup instance_)) result := by
  obtain ⟨severity, hseverity, hresult⟩ := rollInstance_ok_iff.mp h
  have hstatus := getHigherStatus_greatest severity start
  cases hasRollup with
  | false =>
      have hgrades : gradesOf false instance_ = {severity} := by
        ext value
        simp [gradesOf, hseverity, eq_comm]
      rw [hgrades, show result = _ from hresult]
      exact hstatus
  | true =>
      obtain ⟨rollup, hrollup, rfl⟩ : ∃ rollup, _ := hresult
      have hgrades : gradesOf true instance_ = {severity} ∪ {rollup} := by
        ext value
        simp [gradesOf, hseverity, hrollup, eq_comm]
      rw [hgrades]
      exact isGreatest_insert_union hstatus (getHigherStatus_greatest _ _)

/-- A relation to an entity without a status is left out. -/
theorem rollRelation_skipped (hstatus : hasMember relation.destination fieldStatus = false) :
    rollRelation hasMember related start relation = .ok start := by
  simp [rollRelation, hstatus, pure, Except.pure]

/-- Any other relation is counted. -/
theorem rollRelation_counted (hstatus : hasMember relation.destination fieldStatus = true) :
    rollRelation hasMember related start relation =
      (related relation >>= fun instances =>
        instances.foldlM (rollInstance (hasMember relation.destination fieldStatusRollup))
          start) := by
  simp [rollRelation, hstatus]

/-- A relation counts if its instances do. -/
theorem rollRelation_returns_iff (start : Int32) (relation : Relation ε) :
    (∃ t, rollRelation hasMember related start relation = .ok t) ↔
      Gradable hasMember related relation := by
  unfold Gradable Lists
  cases hstatus : hasMember relation.destination fieldStatus with
  | false => simp [rollRelation_skipped hstatus]
  | true =>
      rw [rollRelation_counted hstatus]
      cases hrelated : related relation with
      | error exception => simp [bind, Except.bind]
      | ok instances =>
          have hloop : (∃ t, instances.foldlM
              (rollInstance (hasMember relation.destination fieldStatusRollup)) start = .ok t) ↔ _ :=
            foldlM_returns_iff (rollInstance_returns_iff _)
          simpa [bind, Except.bind] using hloop

/-- The result is the greatest of what the instances have. -/
theorem rollRelation_greatest (start : Int32) (relation : Relation ε) (result : Int32)
    (h : rollRelation hasMember related start relation = .ok result) :
    IsGreatest (insert start {severity | hasMember relation.destination fieldStatus = true ∧
      ∃ target, Lists (related relation) target ∧
        severity ∈ gradesOf (hasMember relation.destination fieldStatusRollup) target})
      result := by
  cases hstatus : hasMember relation.destination fieldStatus with
  | false =>
      rw [rollRelation_skipped hstatus, Except.ok.injEq] at h
      simp [h, IsGreatest, upperBounds, Std.le_refl]
  | true =>
      rw [rollRelation_counted hstatus, bind_eq_ok] at h
      obtain ⟨instances, hrelated, hloop⟩ := h
      have hgreatest := foldlM_greatest rollInstance_greatest hloop
      simpa [Lists, hrelated] using hgreatest

/-- The loops return exactly where every relation that counts is gradable. -/
theorem fold_returns_iff :
    (∃ value, fold hasMember related relations = .ok value) ↔
      ∀ relation ∈ relations, Gradable hasMember related relation := by
  have hloop : (∃ result, relations.foldlM (rollRelation hasMember related) ok = .ok result) ↔ _ :=
    foldlM_returns_iff rollRelation_returns_iff
  rw [← hloop]
  unfold fold
  simp only [bind_eq_ok, pure_eq_ok]
  constructor
  · intro h
    obtain ⟨value, result, hloop, -⟩ := h
    exact ⟨result, hloop⟩
  · intro h
    obtain ⟨result, hloop⟩ := h
    exact ⟨_, result, hloop, rfl⟩

/-- They keep the greatest of all severities that are listed. -/
theorem fold_greatest {value : FieldType} (h : fold hasMember related relations = .ok value) :
    ∃ result, value = .int32 result ∧
      IsGreatest (insert ok (severities hasMember (fun relation => Lists (related relation))
        relations)) result := by
  unfold fold at h
  rw [bind_eq_ok] at h
  obtain ⟨result, hloop, hvalue⟩ := h
  refine ⟨result, (pure_eq_ok.mp hvalue).symm, ?_⟩
  exact foldlM_greatest rollRelation_greatest hloop

/-- Other relations and lists with the same elements, in any order and any number, yield the
same. -/
theorem fold_same_elements {other : Relation ε → Except Exception (List Instance)}
    {others : List (Relation ε)} (hrelations : ∀ relation, relation ∈ others ↔ relation ∈ relations)
    (hreturns : ∀ relation, (∃ instances, other relation = .ok instances) ↔
      ∃ instances, related relation = .ok instances)
    (hlists : ∀ relation target, Lists (other relation) target ↔ Lists (related relation) target)
    (value : FieldType) :
    fold hasMember other others = .ok value ↔ fold hasMember related relations = .ok value := by
  have hseverities : severities hasMember (fun relation => Lists (other relation)) others =
      severities hasMember (fun relation => Lists (related relation)) relations := by
    simp only [severities, hrelations, hlists]
  have hfold : (∃ value, fold hasMember other others = .ok value) ↔
      ∃ value, fold hasMember related relations = .ok value := by
    simp only [fold_returns_iff, Gradable, hrelations, hreturns, hlists]
  constructor
  · intro h
    obtain ⟨value', h'⟩ := hfold.mp ⟨value, h⟩
    obtain ⟨result, rfl, hresult⟩ := fold_greatest h
    obtain ⟨result', rfl, hresult'⟩ := fold_greatest h'
    rw [hseverities] at hresult
    rw [isGreatest_unique hresult hresult', h']
  · intro h
    obtain ⟨value', h'⟩ := hfold.mpr ⟨value, h⟩
    obtain ⟨result, rfl, hresult⟩ := fold_greatest h
    obtain ⟨result', rfl, hresult'⟩ := fold_greatest h'
    rw [hseverities] at hresult'
    rw [isGreatest_unique hresult hresult', h']

end StatusRollup

/-! ## The instances that a held one finds -/

/-- The rules of a relation relate a target to the instance. -/
def RelatedByRules (cached : Cached ε) (instance_ : Instance) (relation : Relation ε)
    (target : Instance) : Prop :=
  relation.conditionBuildRules ≠ [] ∧
    (∃ targets, cached.refreshed relation.destination = .ok targets ∧ target ∈ targets) ∧
      Related relation instance_ target

/-- A target passes the rules that are left, each with what the cache has under the hash of
the instance. -/
def FoundByRules (cached : Cached ε) (entity : ε) (instance_ : Instance) (relation : Relation ε)
    (target : Instance) : Prop :=
  relation.foundConditions cached entity instance_.hash ≠ [] ∧
    (∃ targets, cached.refreshed relation.destination = .ok targets ∧ target ∈ targets) ∧
      Satisfies (relation.foundConditions cached entity instance_.hash) target

/-- The rules of a relation read members of the entity, and where a rule is left, refreshing
the targets and comparing with them raises nothing. -/
structure Relatable (schema : Schema ε) (cached : Cached ε) (entity : ε) (instance_ : Instance)
    (relation : Relation ε) : Prop where
  member : ∀ rule ∈ relation.conditionBuildRules,
    rule.memberSource = dummyField ∨ rule.memberSource ∈ schema.members entity
  compared : relation.foundConditions cached entity instance_.hash ≠ [] →
    ∃ targets, cached.refreshed relation.destination = .ok targets ∧
      ∀ target ∈ targets, ∃ passed, checkConditions
        (relation.foundConditions cached entity instance_.hash) target = .ok passed

section

variable {hasMember : ε → Bytes → Bool} {schema : Schema ε} {cached : Cached ε} {entity : ε}
  {instance_ target : Instance} {relation : Relation ε}

/-- The look-up gives up where no rule finds a value. -/
theorem givesUp_iff (relation : Relation ε) :
    GivesUp cached entity instance_ relation [] true ↔
      relation.foundConditions cached entity instance_.hash = [] := by
  simp [GivesUp]

/-- The look-up returns where the instances can be related. -/
theorem related_returns_iff :
    (∃ selected, instance_.getRelatedInstances schema cached entity relation [] true =
        .ok selected) ↔ Relatable schema cached entity instance_ relation := by
  simp only [getRelatedInstances_ok_iff, givesUp_iff, List.append_nil,
    Cached.getInstances_ok_iff_refreshed]
  constructor
  · rintro ⟨selected, hmember, -, hkept⟩
    refine ⟨hmember, ?_⟩
    intro hfound
    obtain ⟨targets, htargets, hcompared, -⟩ := hkept hfound
    exact ⟨targets, htargets, hcompared⟩
  · rintro ⟨hmember, hcompared⟩
    by_cases hempty : relation.foundConditions cached entity instance_.hash = []
    · exact ⟨[], hmember, fun _ => rfl, absurd hempty⟩
    · obtain ⟨targets, htargets, hall⟩ := hcompared hempty
      exact ⟨_, hmember, fun h => absurd h hempty, fun _ => ⟨targets, htargets, hall, rfl⟩⟩

/-- What is listed are the instances that pass the rules that are left. -/
theorem lists_related_iff (hrelatable : Relatable schema cached entity instance_ relation) :
    Lists (instance_.getRelatedInstances schema cached entity relation [] true) target ↔
      FoundByRules cached entity instance_ relation target := by
  unfold Lists FoundByRules
  by_cases hempty : relation.foundConditions cached entity instance_.hash = []
  · simp only [hempty, ne_eq, not_true_eq_false, false_and, iff_false]
    rintro ⟨selected, hselected, htarget⟩
    have hnone := (getRelatedInstances_ok_iff.mp hselected).2.1 ((givesUp_iff relation).mpr hempty)
    rw [hnone] at htarget
    exact absurd htarget List.not_mem_nil
  · rw [and_iff_right hempty]
    obtain ⟨targets, htargets, hchecked⟩ := hrelatable.compared hempty
    have hselected : instance_.getRelatedInstances schema cached entity relation [] true =
        .ok (targets.filter fun target => checkConditions
          (relation.foundConditions cached entity instance_.hash) target = .ok true) := by
      refine getRelatedInstances_ok_iff.mpr ⟨hrelatable.member,
        fun h => absurd ((givesUp_iff relation).mp h) hempty, ?_⟩
      intro _
      rw [List.append_nil]
      exact Cached.getInstances_ok_iff_refreshed.mpr ⟨targets, htargets, hchecked, rfl⟩
    simp only [hselected, htargets, Except.ok.injEq, exists_eq_left', List.mem_filter,
      decide_eq_true_iff, checkConditions_true_iff]

end

/-! ## The greatest status -/

section

variable (hasMember : ε → Bytes → Bool) (schema : Schema ε) (cached : Cached ε) (entity : ε)
  (instance_ : Instance)

/-- {lit}`StatusRollup` yields the greatest severity of the instances that the rules relate to the
one that the caller holds, whatever the order and the number of relations and instances. -/
structure RollsUp : Prop where
  greatest : ∃ result, statusRollup hasMember schema cached entity instance_ =
      .ok (.int32 result) ∧
    IsGreatest (insert ok (severities hasMember (RelatedByRules cached instance_)
      (schema.relations entity))) result
  unordered : ∀ (related : Relation ε → Except Exception (List Instance))
      (relations : List (Relation ε)),
    (∀ relation, relation ∈ relations ↔ relation ∈ schema.relations entity) →
    (∀ relation, (∃ instances, related relation = .ok instances) ↔
      ∃ instances, instance_.getRelatedInstances schema cached entity relation [] true =
        .ok instances) →
    (∀ relation target, Lists (related relation) target ↔
      Lists (instance_.getRelatedInstances schema cached entity relation [] true) target) →
    ∀ value, StatusRollup.fold hasMember related relations = .ok value ↔
      statusRollup hasMember schema cached entity instance_ = .ok value

/-- The relations with a status at their end can be looked up and find severities alone, and
neither the instances that are found nor those that are related have a severity that
exceeds ok and all of the others. -/
structure FindsSeverities : Prop where
  gradable : ∀ relation ∈ schema.relations entity,
    hasMember relation.destination fieldStatus = true →
      Relatable schema cached entity instance_ relation ∧
        ∀ target, FoundByRules cached entity instance_ relation target →
          Graded (hasMember relation.destination fieldStatusRollup) target
  missed : Below ok
    (severities hasMember (RelatedByRules cached instance_) (schema.relations entity))
    (severities hasMember (FoundByRules cached entity instance_) (schema.relations entity))
  extra : Below ok
    (severities hasMember (FoundByRules cached entity instance_) (schema.relations entity))
    (severities hasMember (RelatedByRules cached instance_) (schema.relations entity))

end

section

variable {hasMember : ε → Bytes → Bool} {schema : Schema ε} {cached : Cached ε} {entity : ε}
  {instance_ : Instance}

/-- When the rollup returns. -/
theorem statusRollup_returns_iff :
    (∃ value, statusRollup hasMember schema cached entity instance_ = .ok value) ↔
      ∀ relation ∈ schema.relations entity, hasMember relation.destination fieldStatus = true →
        Relatable schema cached entity instance_ relation ∧
          ∀ target, FoundByRules cached entity instance_ relation target →
            Graded (hasMember relation.destination fieldStatusRollup) target := by
  refine StatusRollup.fold_returns_iff.trans ?_
  refine forall_congr' fun relation => forall_congr' fun _ => forall_congr' fun _ => ?_
  rw [related_returns_iff]
  refine and_congr_right fun hrelatable => ?_
  simp only [lists_related_iff hrelatable]

/-- What is returned is the greatest severity that is found. -/
theorem statusRollup_found {value : FieldType}
    (h : statusRollup hasMember schema cached entity instance_ = .ok value) :
    ∃ result, value = .int32 result ∧
      IsGreatest (insert ok (severities hasMember (FoundByRules cached entity instance_)
        (schema.relations entity))) result := by
  obtain ⟨result, rfl, hgreatest⟩ := StatusRollup.fold_greatest h
  refine ⟨result, rfl, ?_⟩
  have hgradable := statusRollup_returns_iff.mp ⟨_, h⟩
  have hseverities : severities hasMember (fun relation => Lists
        (instance_.getRelatedInstances schema cached entity relation [] true))
        (schema.relations entity) =
      severities hasMember (FoundByRules cached entity instance_) (schema.relations entity) := by
    ext severity
    refine exists_congr fun relation => and_congr_right fun hrelation =>
      and_congr_right fun hstatus => ?_
    simp only [lists_related_iff (hgradable relation hrelation hstatus).1]
  rwa [← hseverities]

/-- When {lit}`StatusRollup` yields the greatest severity of the related instances. -/
theorem statusRollup_greatest_iff :
    RollsUp hasMember schema cached entity instance_ ↔
      FindsSeverities hasMember schema cached entity instance_ := by
  constructor
  · rintro ⟨⟨result, hresult, hrelated⟩, -⟩
    obtain ⟨found, hfound, hgreatest⟩ := statusRollup_found hresult
    cases hfound
    obtain ⟨hmissed, hextra⟩ := (isGreatest_insert_iff_below hgreatest).mp hrelated
    exact ⟨statusRollup_returns_iff.mp ⟨_, hresult⟩, hmissed, hextra⟩
  · intro h
    obtain ⟨value, hvalue⟩ := statusRollup_returns_iff.mpr h.gradable
    obtain ⟨result, rfl, hgreatest⟩ := statusRollup_found hvalue
    refine ⟨⟨result, hvalue, ?_⟩, fun related relations => StatusRollup.fold_same_elements⟩
    exact (isGreatest_insert_iff_below hgreatest).mpr ⟨h.missed, h.extra⟩

/-- What passes the rules of an instance that is cached is what they relate to it. -/
theorem foundByRules_iff_of_cached {relation : Relation ε} {target : Instance}
    (hcached : cached.getInstance entity instance_.hash = some instance_) :
    FoundByRules cached entity instance_ relation target ↔
      RelatedByRules cached instance_ relation target := by
  have hvalue : ∀ rule : RuleSet,
      rule.foundValue cached entity instance_.hash = some (rule.sourceValue instance_) :=
    fun rule => not_not.mp (RuleSet.not_outdated_of_getInstance hcached)
  have hrules : relation.foundConditions cached entity instance_.hash = [] ↔
      relation.conditionBuildRules = [] := by
    rw [Relation.foundConditions, List.filterMap_eq_nil_iff, List.eq_nil_iff_forall_not_mem]
    simp [RuleSet.foundCondition, hvalue]
  have hsatisfies : Satisfies (relation.foundConditions cached entity instance_.hash) target ↔
      Related relation instance_ target := by
    rw [Relation.satisfies_foundConditions_iff]
    refine forall_congr' fun rule => forall_congr' fun _ => ?_
    rw [hvalue]
    simp only [Option.mem_def, Option.some.injEq, forall_eq']
    exact Iff.rfl
  unfold FoundByRules RelatedByRules
  rw [ne_eq, ne_eq, not_congr hrules, hsatisfies]

/-- As long as the cache holds the instance, it rolls up wherever the relations can be looked
up and list severities alone. -/
theorem rollsUp_iff_of_cached
    (hcached : cached.getInstance entity instance_.hash = some instance_) :
    RollsUp hasMember schema cached entity instance_ ↔
      ∀ relation ∈ schema.relations entity, hasMember relation.destination fieldStatus = true →
        Relatable schema cached entity instance_ relation ∧
          ∀ target, RelatedByRules cached instance_ relation target →
            Graded (hasMember relation.destination fieldStatusRollup) target := by
  have hsame : FoundByRules cached entity instance_ = RelatedByRules cached instance_ :=
    funext fun relation => funext fun target => propext (foundByRules_iff_of_cached hcached)
  rw [statusRollup_greatest_iff]
  constructor
  · intro h
    rw [← hsame]
    exact h.gradable
  · intro h
    rw [← hsame] at h
    exact ⟨h, hsame ▸ Below.of_subset subset_rfl, hsame ▸ Below.of_subset subset_rfl⟩

end

/-! ## A fan and its sensor -/

/-- {lit}`Sensors::inventoryRelation` -/
def inventoryRelation : List RuleSet :=
  [{ memberSource := bytes "Id"
     memberDest := bytes "AssociatedInventoryId"
     compareLiteral := fun field value =>
      match value, field.map Field.getValue with
      | .string sensorInventory, some (.string fanName) => .ok (fanName = sensorInventory)
      | _, _ => .ok false }]

/-- A fan has sensors. -/
inductive Monitored
  | fans
  | sensors
deriving DecidableEq

namespace Monitored

/-- The entities and the relation. -/
def schema : Schema Monitored where
  name entity := if entity = .fans then bytes "Fan" else bytes "Sensors"
  name_injective := by
    intro first second
    cases first <;> cases second <;> decide
  type _ := .array
  members entity :=
    if entity = .fans then [bytes "Id", fieldStatus]
    else [bytes "AssociatedInventoryId", fieldStatus]
  relations entity := if entity = .fans then [⟨.sensors, inventoryRelation⟩] else []

/-- Both have a status, the fans also that of their sensors. -/
def hasMember (entity : Monitored) (memberName : Bytes) : Bool :=
  memberName = fieldStatus || (entity = .fans && memberName = fieldStatusRollup)

/-- The one fan. -/
def fan : Instance where
  hash := 1
  memberInstances memberName :=
    if memberName = bytes "Id" then some (.string (bytes "fan0")) else none

/-- The sensor of the fan, with its status. -/
def sensor (status : Int32) : Instance where
  hash := 2
  memberInstances memberName :=
    if memberName = bytes "AssociatedInventoryId" then some (.string (bytes "fan0"))
    else if memberName = fieldStatus then some (.int32 status)
    else none

/-- The fan and its sensor. -/
def cached (status : Int32) : Cached Monitored where
  instances
    | .fans => [fan]
    | .sensors => [sensor status]
  initDefaultFieldsValue _ object := .ok object
  verifyState _ object := .ok object
  providers _ := []

end Monitored

/-- The critical sensor of a fan counts as long as the fan is cached; once it is removed its
only rule is dropped, and the copy that is held is ok. -/
theorem removed_fan_not_rolledUp :
    statusRollup Monitored.hasMember Monitored.schema (Monitored.cached critical) .fans
        Monitored.fan = .ok (.int32 critical) ∧
      ¬ RollsUp Monitored.hasMember Monitored.schema
        ((Monitored.cached critical).after .fans [.removeInstance Monitored.fan.hash]) .fans
          Monitored.fan := by
  refine ⟨by rfl, ?_⟩
  rintro ⟨⟨result, hresult, hgreatest⟩, -⟩
  have hrollup : statusRollup Monitored.hasMember Monitored.schema
      ((Monitored.cached critical).after .fans [.removeInstance Monitored.fan.hash]) .fans
        Monitored.fan = .ok (.int32 ok) := by
    rfl
  cases hrollup.symm.trans hresult
  have hcritical : critical ∈ severities Monitored.hasMember
      (RelatedByRules ((Monitored.cached critical).after .fans [.removeInstance Monitored.fan.hash])
        Monitored.fan) (Monitored.schema.relations .fans) := by
    refine ⟨_, List.mem_singleton_self _, by decide, Monitored.sensor critical, ?_, Or.inl rfl⟩
    refine ⟨List.cons_ne_nil _ _, ⟨_, rfl, List.mem_singleton_self _⟩, ?_⟩
    intro rule hrule
    rw [List.mem_singleton.mp hrule]
    rfl
  have hle := hgreatest.2 (Set.mem_insert_of_mem _ hcritical)
  exact absurd hle (by decide)

end Entity
end ObmcWebapp
