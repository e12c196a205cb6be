import ObmcWebapp.Entity.Instances
import ObmcWebapp.Library.Outcomes

/-!
# Entity - The instances related to a held instance

A caller holds an instance while signals add others to the cache and remove some.
{lit}`getConditions` looks the instance up again by its hash: a rule whose source is
gone makes no condition, and a rule whose source was replaced compares another value.

Main results:

- Theorem {lit}`getConditions_ok_iff`: the conditions that the rules make for a hash.
- Theorem {lit}`returnsRelated_iff`: when a call returns the instances related to the one
  that the caller holds.
-/

open Library

namespace ObmcWebapp
namespace Entity

variable {ε : Type} {schema : Schema ε} {cached : Cached ε} {entity : ε} {source : Instance}
  {relation : Relation ε} {conditions : List Condition}

/-! ## What is found of the source -/

namespace RuleSet

variable {rule : RuleSet} {hash : UInt64} {target : Instance}

/-- The value of a source instance that a rule compares. -/
def sourceValue (rule : RuleSet) (source : Instance) : FieldType :=
  if rule.memberSource = dummyField then .null else (source.getField rule.memberSource).getValue

/-- The comparison of a rule with a value. -/
def Passes (rule : RuleSet) (value : FieldType) (target : Instance) : Prop :=
  rule.compareLiteral
    (if rule.memberDest = dummyField then none else some (target.getField rule.memberDest))
    value = .ok true

/-- The value that is found for a hash, none where the rule is dropped. -/
def foundValue (rule : RuleSet) (cached : Cached ε) (entity : ε) (hash : UInt64) :
    Option FieldType :=
  if rule.memberSource = dummyField then some .null
  else (cached.getInstance entity hash).map rule.sourceValue

/-- The condition of a rule whose value is found. -/
def foundCondition (rule : RuleSet) (cached : Cached ε) (entity : ε) (hash : UInt64) :
    Option Condition :=
  (rule.foundValue cached entity hash).map fun value =>
    .ofRule rule.memberDest value rule.compareLiteral

/-- The rule reads a member whose value is not found any more. -/
def Outdated (rule : RuleSet) (cached : Cached ε) (entity : ε) (source : Instance) : Prop :=
  rule.foundValue cached entity source.hash ≠ some (rule.sourceValue source)

/-- As long as the cache holds the instance no rule is outdated. -/
theorem not_outdated_of_getInstance (h : cached.getInstance entity source.hash = some source) :
    ¬ rule.Outdated cached entity source := by
  unfold Outdated foundValue
  rw [h]
  split
  · next hdummy => simp [sourceValue, hdummy]
  · simp

/-- When a rule builds a condition. -/
theorem buildCondition_ok_iff {built : Option Condition} :
    Relation.buildCondition schema cached entity hash rule = .ok built ↔
      (rule.memberSource = dummyField ∨ rule.memberSource ∈ schema.members entity) ∧
        built = rule.foundCondition cached entity hash := by
  unfold Relation.buildCondition foundCondition foundValue
  by_cases hdummy : rule.memberSource = dummyField
  · simp [hdummy, eq_comm]
  · by_cases hmember : rule.memberSource ∈ schema.members entity
    · have hvalue : rule.sourceValue = fun sourceInstance =>
          (sourceInstance.getField rule.memberSource).getValue := by
        funext sourceInstance
        rw [sourceValue, if_neg hdummy]
      rw [if_neg hdummy, if_pos hmember, if_neg hdummy, hvalue, Option.map_map]
      simp [hmember, eq_comm, Function.comp_def]
    · simp [hdummy, hmember]

end RuleSet

/-! ## The conditions of a relation -/

namespace Relation

variable {hash : UInt64} {target : Instance}

/-- The conditions of the rules that are not dropped. -/
def foundConditions (relation : Relation ε) (cached : Cached ε) (entity : ε) (hash : UInt64) :
    List Condition :=
  relation.conditionBuildRules.filterMap fun rule => rule.foundCondition cached entity hash

/-- The conditions that the rules make for a hash. -/
theorem getConditions_ok_iff {built : List Condition} :
    relation.getConditions schema cached entity hash = .ok built ↔
      (∀ rule ∈ relation.conditionBuildRules,
        rule.memberSource = dummyField ∨ rule.memberSource ∈ schema.members entity) ∧
        built = relation.foundConditions cached entity hash := by
  have hfound : relation.foundConditions cached entity hash =
      (relation.conditionBuildRules.map fun rule =>
        rule.foundCondition cached entity hash).filterMap id := by
    rw [List.filterMap_map]
    rfl
  unfold getConditions
  simp only [bind_eq_ok, pure_eq_ok, mapM_eq_ok_iff fun rule option =>
    (RuleSet.buildCondition_ok_iff : buildCondition schema cached entity hash rule = .ok option ↔ _)]
  constructor
  · rintro ⟨options, ⟨hmember, rfl⟩, rfl⟩
    exact ⟨hmember, hfound.symm⟩
  · rintro ⟨hmember, rfl⟩
    exact ⟨_, ⟨hmember, rfl⟩, hfound.symm⟩

/-- When the conditions that are found are satisfied. -/
theorem satisfies_foundConditions_iff :
    Satisfies (relation.foundConditions cached entity hash) target ↔
      ∀ rule ∈ relation.conditionBuildRules, ∀ value ∈ rule.foundValue cached entity hash,
        rule.Passes value target := by
  unfold Satisfies foundConditions
  constructor
  · intro h rule hrule value hvalue
    have hcheck := h (.ofRule rule.memberDest value rule.compareLiteral)
      (List.mem_filterMap.mpr ⟨rule, hrule, by rw [RuleSet.foundCondition, hvalue]; rfl⟩)
    rw [check_ofRule] at hcheck
    exact hcheck
  · intro h condition hmem
    obtain ⟨rule, hrule, hcondition⟩ := List.mem_filterMap.mp hmem
    obtain ⟨value, hvalue, rfl⟩ := Option.map_eq_some_iff.mp hcondition
    rw [check_ofRule]
    exact h rule hrule value hvalue

end Relation

/-! ## What is selected -/

namespace Cached

variable {object : Instance} {objects selected : List Instance}

/-- The instances of an entity as {lit}`getInstances` leaves them. -/
def refreshed (cached : Cached ε) (entity : ε) : Except Exception (List Instance) :=
  (cached.instances entity).mapM (cached.refresh entity)

/-- What is collected of objects that are refreshed. -/
private theorem collect_ok_iff_mapM :
    cached.collect entity conditions objects = .ok selected ↔
      ∃ targets, objects.mapM (cached.refresh entity) = .ok targets ∧
        (∀ target ∈ targets, ∃ passed, checkConditions conditions target = .ok passed) ∧
        selected = targets.filter fun target => checkConditions conditions target = .ok true := by
  induction objects generalizing selected with
  | nil =>
      simp only [collect, mapM_nil_eq_ok, exists_eq_left, Except.ok.injEq]
      simp [eq_comm]
  | cons object rest ih =>
      simp only [collect, bind_eq_ok, pure_eq_ok, mapM_cons_eq_ok, ih]
      constructor
      · rintro ⟨target, htarget, passed, hpassed, others, ⟨targets, htargets, hall, rfl⟩, rfl⟩
        refine ⟨target :: targets, ⟨target, htarget, targets, htargets, rfl⟩, ?_, ?_⟩
        · exact List.forall_mem_cons.mpr ⟨⟨passed, hpassed⟩, hall⟩
        · rw [List.filter_cons, hpassed]
          cases passed <;> rfl
      · rintro ⟨targets, ⟨target, htarget, others, hothers, rfl⟩, hall, rfl⟩
        obtain ⟨⟨passed, hpassed⟩, hrest⟩ := List.forall_mem_cons.mp hall
        refine ⟨target, htarget, passed, hpassed, _, ⟨others, hothers, hrest, rfl⟩, ?_⟩
        rw [List.filter_cons, hpassed]
        cases passed <;> rfl

/-- What a read returns. -/
theorem getInstances_ok_iff_refreshed :
    cached.getInstances entity conditions = .ok selected ↔
      ∃ targets, cached.refreshed entity = .ok targets ∧
        (∀ target ∈ targets, ∃ passed, checkConditions conditions target = .ok passed) ∧
        selected = targets.filter fun target => checkConditions conditions target = .ok true :=
  collect_ok_iff_mapM

end Cached

/-! ## Related instances -/

/-- {lit}`StaticInstance::getRelatedInstances`; {lit}`skipEmpty` gives up where there is no
condition at all. -/
def Instance.getRelatedInstances (schema : Schema ε) (cached : Cached ε) (entity : ε)
    (instance_ : Instance) (relation : Relation ε) (conditions : List Condition)
    (skipEmpty : Bool) : Except Exception (List Instance) := do
  let relConditions ← relation.getConditions schema cached entity instance_.hash
  if skipEmpty && (relConditions ++ conditions).isEmpty then return []
  cached.getInstances relation.destination (relConditions ++ conditions)

/-- Without a held instance both are the same. -/
theorem getRelatedInstances_eq :
    getRelatedInstances schema cached entity source relation conditions =
      source.getRelatedInstances schema cached entity relation conditions false := by
  unfold getRelatedInstances Instance.getRelatedInstances
  simp

/-- The call returns the destination instances that satisfy the conditions and that all
rules relate to the source instance. -/
def ReturnsRelated (schema : Schema ε) (cached : Cached ε) (entity : ε) (source : Instance)
    (relation : Relation ε) (conditions : List Condition) (skipEmpty : Bool) : Prop :=
  ∃ targets selected, cached.refreshed relation.destination = .ok targets ∧
    source.getRelatedInstances schema cached entity relation conditions skipEmpty = .ok selected ∧
    ∀ target, target ∈ selected ↔
      target ∈ targets ∧ Related relation source target ∧ Satisfies conditions target

/-- The call is to give up without a condition, and there is none. -/
def GivesUp (cached : Cached ε) (entity : ε) (source : Instance) (relation : Relation ε)
    (conditions : List Condition) (skipEmpty : Bool) : Prop :=
  skipEmpty = true ∧ relation.foundConditions cached entity source.hash = [] ∧ conditions = []

/-- A target passes the outdated rules with what is found in place of the source: all of
them where that is gone, unless the call gives up. -/
def PassesOutdated (cached : Cached ε) (entity : ε) (source : Instance) (relation : Relation ε)
    (conditions : List Condition) (skipEmpty : Bool) (target : Instance) : Prop :=
  ¬ GivesUp cached entity source relation conditions skipEmpty ∧
    ∀ rule ∈ relation.conditionBuildRules, rule.Outdated cached entity source →
      ∀ value ∈ rule.foundValue cached entity source.hash, rule.Passes value target

/-- The rules read members of the source entity, nothing raises, and the outdated rules
decide with what is found as they do with the source, on every target that passes
everything else. -/
structure DecidesAlike (schema : Schema ε) (cached : Cached ε) (entity : ε) (source : Instance)
    (relation : Relation ε) (conditions : List Condition) (skipEmpty : Bool)
    (targets : List Instance) : Prop where
  member : ∀ rule ∈ relation.conditionBuildRules,
    rule.memberSource = dummyField ∨ rule.memberSource ∈ schema.members entity
  checked : ∀ target ∈ targets, ∃ passed, checkConditions
    (relation.foundConditions cached entity source.hash ++ conditions) target = .ok passed
  outdated : ∀ target ∈ targets, Satisfies conditions target →
    (∀ rule ∈ relation.conditionBuildRules, ¬ rule.Outdated cached entity source →
      RuleHolds rule source target) →
    ((∀ rule ∈ relation.conditionBuildRules, rule.Outdated cached entity source →
      RuleHolds rule source target) ↔
        PassesOutdated cached entity source relation conditions skipEmpty target)

section

variable {skipEmpty : Bool} {target : Instance} {selected : List Instance}

/-- The rules that are outdated and the others. -/
theorem related_iff : Related relation source target ↔
    (∀ rule ∈ relation.conditionBuildRules, ¬ rule.Outdated cached entity source →
      RuleHolds rule source target) ∧
    (∀ rule ∈ relation.conditionBuildRules, rule.Outdated cached entity source →
      RuleHolds rule source target) := by
  constructor
  · intro h
    exact ⟨fun rule hrule _ => h rule hrule, fun rule hrule _ => h rule hrule⟩
  · intro h rule hrule
    by_cases houtdated : rule.Outdated cached entity source
    · exact h.2 rule hrule houtdated
    · exact h.1 rule hrule houtdated

/-- Rules that are not outdated make the condition of the source. -/
theorem satisfies_found_iff :
    Satisfies (relation.foundConditions cached entity source.hash) target ↔
      (∀ rule ∈ relation.conditionBuildRules, ¬ rule.Outdated cached entity source →
        RuleHolds rule source target) ∧
      (∀ rule ∈ relation.conditionBuildRules, rule.Outdated cached entity source →
        ∀ value ∈ rule.foundValue cached entity source.hash, rule.Passes value target) := by
  rw [Relation.satisfies_foundConditions_iff]
  constructor
  · intro h
    refine ⟨?_, fun rule hrule _ => h rule hrule⟩
    intro rule hrule hcurrent
    exact h rule hrule _ (not_not.mp hcurrent)
  · intro h rule hrule value hvalue
    by_cases houtdated : rule.Outdated cached entity source
    · exact h.2 rule hrule houtdated value hvalue
    · have hsource : rule.foundValue cached entity source.hash = some (rule.sourceValue source) :=
        not_not.mp houtdated
      rw [hsource] at hvalue
      cases hvalue
      exact h.1 rule hrule houtdated

/-- What the related instances are. -/
theorem getRelatedInstances_ok_iff :
    source.getRelatedInstances schema cached entity relation conditions skipEmpty =
      .ok selected ↔
      (∀ rule ∈ relation.conditionBuildRules,
        rule.memberSource = dummyField ∨ rule.memberSource ∈ schema.members entity) ∧
        (GivesUp cached entity source relation conditions skipEmpty → selected = []) ∧
        (¬ GivesUp cached entity source relation conditions skipEmpty →
          cached.getInstances relation.destination
            (relation.foundConditions cached entity source.hash ++ conditions) = .ok selected) := by
  have hgives : (skipEmpty && (relation.foundConditions cached entity source.hash ++
      conditions).isEmpty) = true ↔
        GivesUp cached entity source relation conditions skipEmpty := by
    simp [GivesUp]
  unfold Instance.getRelatedInstances
  simp only [bind_eq_ok, Relation.getConditions_ok_iff, and_assoc, exists_and_left,
    exists_eq_left]
  apply and_congr_right
  intro _
  by_cases hempty : GivesUp cached entity source relation conditions skipEmpty
  · rw [if_pos (hgives.mpr hempty), pure_eq_ok]
    simp only [hempty, forall_const, not_true_eq_false, false_imp_iff, and_true]
    exact eq_comm
  · rw [if_neg (fun h => hempty (hgives.mp h))]
    simp only [hempty, false_imp_iff, not_false_eq_true, forall_const, true_and]

/-- When a call returns the instances related to the one that the caller holds. -/
theorem returnsRelated_iff :
    ReturnsRelated schema cached entity source relation conditions skipEmpty ↔
      ∃ targets, cached.refreshed relation.destination = .ok targets ∧
        DecidesAlike schema cached entity source relation conditions skipEmpty targets := by
  constructor
  · rintro ⟨targets, selected, htargets, hselected, hmem⟩
    refine ⟨targets, htargets, ?_⟩
    obtain ⟨hmember, hgives, hkeeps⟩ := getRelatedInstances_ok_iff.mp hselected
    by_cases hempty : GivesUp cached entity source relation conditions skipEmpty
    · rw [hgives hempty] at hmem
      refine ⟨hmember, ?_, ?_⟩
      · intro target _
        rw [hempty.2.1, hempty.2.2]
        exact ⟨true, rfl⟩
      · intro target htarget hsatisfies hcurrent
        constructor
        · intro houtdated
          have hrelated := related_iff.mpr ⟨hcurrent, houtdated⟩
          exact absurd ((hmem target).mpr ⟨htarget, hrelated, hsatisfies⟩) List.not_mem_nil
        · intro hpasses
          exact absurd hempty hpasses.1
    · obtain ⟨others, hothers, hchecked, rfl⟩ :=
        Cached.getInstances_ok_iff_refreshed.mp (hkeeps hempty)
      rw [htargets] at hothers
      cases hothers
      refine ⟨hmember, hchecked, ?_⟩
      intro target htarget hsatisfies hcurrent
      have hselects := hmem target
      rw [List.mem_filter, decide_eq_true_iff, checkConditions_true_iff, satisfies_append,
        satisfies_found_iff, and_iff_right htarget, and_iff_right htarget, and_iff_left hsatisfies,
        and_iff_left hsatisfies, and_iff_right hcurrent, related_iff, and_iff_right hcurrent]
        at hselects
      rw [← hselects, PassesOutdated, and_iff_right hempty]
  · rintro ⟨targets, htargets, hdecides⟩
    by_cases hempty : GivesUp cached entity source relation conditions skipEmpty
    · refine ⟨targets, [], htargets, ?_, ?_⟩
      · exact getRelatedInstances_ok_iff.mpr ⟨hdecides.member, fun _ => rfl, absurd hempty⟩
      · intro target
        constructor
        · intro hmem
          exact absurd hmem List.not_mem_nil
        · rintro ⟨htarget, hrelated, hsatisfies⟩
          obtain ⟨hcurrent, houtdated⟩ := related_iff.mp hrelated
          have hpasses := (hdecides.outdated target htarget hsatisfies hcurrent).mp houtdated
          exact absurd hempty hpasses.1
    · refine ⟨targets, _, htargets, getRelatedInstances_ok_iff.mpr ⟨hdecides.member,
        fun hgives => absurd hgives hempty, fun _ =>
          Cached.getInstances_ok_iff_refreshed.mpr ⟨targets, htargets, hdecides.checked, rfl⟩⟩, ?_⟩
      intro target
      rw [List.mem_filter, decide_eq_true_iff, checkConditions_true_iff, satisfies_append,
        satisfies_found_iff, related_iff]
      constructor
      · rintro ⟨htarget, ⟨hcurrent, hfound⟩, hsatisfies⟩
        have houtdated := (hdecides.outdated target htarget hsatisfies hcurrent).mpr
          ⟨hempty, hfound⟩
        exact ⟨htarget, ⟨hcurrent, houtdated⟩, hsatisfies⟩
      · rintro ⟨htarget, ⟨hcurrent, houtdated⟩, hsatisfies⟩
        have hpasses := (hdecides.outdated target htarget hsatisfies hcurrent).mp houtdated
        exact ⟨htarget, ⟨hcurrent, hpasses.2⟩, hsatisfies⟩

end

/-! ## Additions and removals -/

/-- {lit}`insert_or_assign` in the order of the hashes. -/
def insertOrAssign (object : Instance) : List Instance → List Instance
  | [] => [object]
  | first :: rest =>
      if object.hash < first.hash then object :: first :: rest
      else if object.hash = first.hash then object :: rest
      else first :: insertOrAssign object rest

/-- What happens to the cache of an entity. -/
inductive Change
  | setInstances (instancesList : List Instance)
  | removeInstance (hash : UInt64)
  | resetCache

namespace Change

variable {hash : UInt64} {change : Change} {objects : List Instance}

/-- The objects after a change. -/
def apply (objects : List Instance) : Change → List Instance
  | .setInstances instancesList =>
      instancesList.foldl (fun objects object => insertOrAssign object objects) objects
  | .removeInstance hash => objects.filter fun object => object.hash ≠ hash
  | .resetCache => []

/-- The change replaces or removes what is cached under the hash. -/
def Touches (hash : UInt64) : Change → Prop
  | .setInstances instancesList => ∃ object ∈ instancesList, object.hash = hash
  | .removeInstance removed => removed = hash
  | .resetCache => True

/-- Another object is found as before. -/
theorem find?_insertOrAssign {object : Instance} (hne : object.hash ≠ hash) :
    (insertOrAssign object objects).find? (fun other => other.hash = hash) =
      objects.find? fun other => other.hash = hash := by
  induction objects with
  | nil => simp [insertOrAssign, hne]
  | cons first rest ih =>
      rw [insertOrAssign]
      split
      · simp [List.find?_cons, hne]
      · split
        · next hsame => simp [hne, ← hsame]
        · rw [List.find?_cons, List.find?_cons, ih]

/-- An object that a change does not touch is found as before. -/
theorem find?_apply (huntouched : ¬ change.Touches hash) :
    (change.apply objects).find? (fun other => other.hash = hash) =
      objects.find? fun other => other.hash = hash := by
  cases change with
  | resetCache => exact absurd trivial huntouched
  | removeInstance removed =>
      have hne : removed ≠ hash := huntouched
      rw [apply, List.find?_filter]
      congr 1
      funext other
      by_cases hhash : other.hash = hash
      · simp [hhash, hne.symm]
      · simp [hhash]
  | setInstances instancesList =>
      have hall : ∀ object ∈ instancesList, object.hash ≠ hash := by
        intro object hmem hhash
        exact huntouched ⟨object, hmem, hhash⟩
      rw [apply]
      clear huntouched
      induction instancesList generalizing objects with
      | nil => rfl
      | cons object rest ih =>
          obtain ⟨hobject, hrest⟩ := List.forall_mem_cons.mp hall
          rw [List.foldl_cons, ih hrest, find?_insertOrAssign hobject]

end Change

section

variable [DecidableEq ε]

/-- The cache after a history of changes of one entity. -/
def Cached.after (cached : Cached ε) (entity : ε) (history : List Change) : Cached ε :=
  { cached with
    instances := fun other =>
      if other = entity then history.foldl Change.apply (cached.instances entity)
      else cached.instances other }

/-- The instances after a history. -/
theorem Cached.instances_after (history : List Change) :
    (cached.after entity history).instances entity =
      history.foldl Change.apply (cached.instances entity) :=
  if_pos rfl

/-- An instance whose entry no change touches is found as before. -/
theorem Cached.getInstance_after {history : List Change} {hash : UInt64}
    (huntouched : ∀ change ∈ history, ¬ change.Touches hash) :
    (cached.after entity history).getInstance entity hash = cached.getInstance entity hash := by
  unfold getInstance
  rw [instances_after]
  generalize cached.instances entity = objects
  induction history generalizing objects with
  | nil => rfl
  | cons change rest ih =>
      obtain ⟨hchange, hrest⟩ := List.forall_mem_cons.mp huntouched
      rw [List.foldl_cons, ih hrest, Change.find?_apply hchange]

/-- No rule is outdated after a history that does not touch the entry of the source. -/
theorem not_outdated_after {history : List Change} {rule : RuleSet}
    (hheld : cached.getInstance entity source.hash = some source)
    (huntouched : ∀ change ∈ history, ¬ change.Touches source.hash) :
    ¬ rule.Outdated (cached.after entity history) entity source := by
  apply RuleSet.not_outdated_of_getInstance
  rw [Cached.getInstance_after huntouched, hheld]

end

/-! ## A source that is removed -/

/-- Two entities with a relation from the first to the second. -/
inductive Linked
  | drives
  | sensors
deriving DecidableEq

/-- The sensors of a drive have its identifier. -/
def sensorsOfDrive : Relation Linked where
  destination := .sensors
  conditionBuildRules := [⟨bytes "Id", bytes "DriveId", equal⟩]

/-- The two entities of the relation. -/
def linkedSchema : Schema Linked where
  name entity := if entity = .drives then bytes "Drives" else bytes "Sensors"
  name_injective := by
    intro first second
    cases first <;> cases second <;> decide
  type _ := .array
  members entity := if entity = .drives then [bytes "Id"] else [bytes "DriveId"]
  relations entity := if entity = .drives then [sensorsOfDrive] else []

/-- The drive that is held. -/
def heldDrive : Instance where
  hash := 1
  memberInstances memberName :=
    if memberName = bytes "Id" then some (.string (bytes "first")) else none

/-- A sensor of a drive. -/
def sensorOf (hash : UInt64) (drive : Bytes) : Instance where
  hash := hash
  memberInstances memberName :=
    if memberName = bytes "DriveId" then some (.string drive) else none

/-- Each drive has a sensor. -/
def linkedCached : Cached Linked where
  instances
    | .drives => [heldDrive]
    | .sensors => [sensorOf 2 (bytes "first"), sensorOf 3 (bytes "second")]
  initDefaultFieldsValue _ object := .ok object
  verifyState _ object := .ok object
  providers _ := []

/-- Once the drive is removed, the sensors of all drives are returned. -/
theorem removed_drive_relates_all :
    linkedCached.getInstance .drives heldDrive.hash = some heldDrive ∧
      ¬ ReturnsRelated linkedSchema
        (linkedCached.after .drives [.removeInstance heldDrive.hash]) .drives heldDrive
        sensorsOfDrive [] false := by
  refine ⟨rfl, ?_⟩
  rintro ⟨targets, selected, -, hselected, hmem⟩
  have hall : heldDrive.getRelatedInstances linkedSchema
      (linkedCached.after .drives [.removeInstance heldDrive.hash]) .drives sensorsOfDrive []
        false = .ok [sensorOf 2 (bytes "first"), sensorOf 3 (bytes "second")] := by
    rfl
  rw [hall] at hselected
  cases hselected
  have hsecond := (hmem (sensorOf 3 (bytes "second"))).mp (by simp)
  have hholds := hsecond.2.1 ⟨bytes "Id", bytes "DriveId", equal⟩ (List.mem_singleton_self _)
  have hdiffers : equal (some ((sensorOf 3 (bytes "second")).getField (bytes "DriveId")))
      (heldDrive.getField (bytes "Id")).getValue = .ok false := by
    decide
  rw [RuleHolds, if_neg (by decide), if_neg (by decide)] at hholds
  cases hdiffers.symm.trans hholds

end Entity
end ObmcWebapp
