import ObmcWebapp.Entity.Instances
import ObmcWebapp.Redfish.Resolution

/-!
# Redfish - The parameters of a path

A parameterised node stands for an instance of its entity.  {lit}`matchParameter`
looks the instance up by the decoded segment, in the context that the parameters
before it left, and records it; {lit}`getAllSegmentValues` lists the segments of all
instances.

Main results:

- Theorem {lit}`Parameter.sound_iff`: when only instances that satisfy the conditions
  and are related to the enclosing one are accepted, recorded and listed.
-/

open Library

namespace ObmcWebapp
namespace Redfish

open Entity

variable {ε : Type}

/-! ## The context -/

/-- {lit}`ParameterCtx` -/
structure ParameterCtx (ε : Type) where
  entityInstance : Instance
  sourceEntity : ε

/-- The parameters that {lit}`RedfishContext` has recorded, the last one and all by
name; a recorded instance is one of the cache. -/
structure Context (cache : Cache ε) where
  parameterCtx : Option (ParameterCtx ε)
  parameters : Bytes → Option (ParameterCtx ε)
  recorded : ∀ enclosing, parameterCtx = some enclosing →
    enclosing.entityInstance ∈ cache.instances enclosing.sourceEntity

/-- {lit}`encodeUriSegment` -/
def encodeUriSegment (value : Bytes) : Bytes :=
  value.map fun c => if c = 0x20 then 0x5F else c

/-- {lit}`decodeUriSegment` -/
def decodeUriSegment (value : Bytes) : Bytes :=
  value.map fun c => if c = 0x5F then 0x20 else c

namespace Context

/-- The context of a new request. -/
def initial (cache : Cache ε) : Context cache where
  parameterCtx := none
  parameters := fun _ => none
  recorded := by
    intro enclosing heq
    cases heq

/-- {lit}`RedfishContext::getInstances`: an instance of the recorded parameter's own
entity is that parameter's, unless the entity has a relation to itself. -/
def getInstances (schema : Schema ε) {cache : Cache ε} (ctx : Context cache) (entity : ε)
    (conditions : List Condition) : Except Exception (List Instance) :=
  match ctx.parameterCtx with
  | none => cache.getInstances entity conditions
  | some enclosing =>
      let isSameEntity := schema.name enclosing.sourceEntity = schema.name entity
      match schema.getRelation enclosing.sourceEntity (schema.name entity) with
      | none =>
          if isSameEntity then
            (checkConditions conditions enclosing.entityInstance).map fun passed =>
              if passed then [enclosing.entityInstance] else []
          else
            cache.getInstances entity conditions
      | some relation =>
          (getRelatedInstances schema cache.toCached enclosing.sourceEntity
            enclosing.entityInstance relation conditions).map fun instances =>
              if instances.isEmpty ∧ isSameEntity then [enclosing.entityInstance] else instances

/-- The instances that satisfy the conditions and, where there is a relation from the
recorded parameter's entity, are related to its instance. -/
def candidates (schema : Schema ε) (cache : Cache ε) (parameterCtx : Option (ParameterCtx ε))
    (entity : ε) (conditions : List Condition) : Except Exception (List Instance) :=
  match parameterCtx with
  | none => cache.getInstances entity conditions
  | some enclosing =>
      match schema.getRelation enclosing.sourceEntity (schema.name entity) with
      | none => cache.getInstances entity conditions
      | some relation =>
          getRelatedInstances schema cache.toCached enclosing.sourceEntity
            enclosing.entityInstance relation conditions

/-- The recorded parameter is of the same entity, which has a relation to itself, and
there is no candidate. -/
def FallsBack (schema : Schema ε) {cache : Cache ε} (ctx : Context cache) (entity : ε)
    (conditions : List Condition) : Prop :=
  (∃ enclosing relation, ctx.parameterCtx = some enclosing ∧ enclosing.sourceEntity = entity ∧
    schema.getRelation entity (schema.name entity) = some relation) ∧
      candidates schema cache ctx.parameterCtx entity conditions = .ok []

section

variable {schema : Schema ε} {cache : Cache ε} {ctx : Context cache} {entity : ε}
  {conditions : List Condition}

/-- Without an enclosing parameter the instances are the candidates. -/
theorem getInstances_of_none (hnone : ctx.parameterCtx = none) :
    ctx.getInstances schema entity conditions =
      candidates schema cache ctx.parameterCtx entity conditions := by
  unfold getInstances candidates
  rw [hnone]

/-- Another entity's instances are looked up by the conditions and the relation. -/
theorem getInstances_of_ne {enclosing : ParameterCtx ε}
    (henclosing : ctx.parameterCtx = some enclosing) (hne : enclosing.sourceEntity ≠ entity) :
    ctx.getInstances schema entity conditions =
      candidates schema cache ctx.parameterCtx entity conditions := by
  have hname : schema.name enclosing.sourceEntity ≠ schema.name entity :=
    fun heq => hne (schema.name_injective heq)
  unfold getInstances candidates
  rw [henclosing]
  dsimp only
  split
  · rw [if_neg hname]
  · simp only [hname, and_false, if_false]
    cases getRelatedInstances schema cache.toCached enclosing.sourceEntity
      enclosing.entityInstance _ conditions <;> rfl

/-- Of its own entity without a relation to itself only the recorded instance is left. -/
theorem getInstances_of_same {enclosing : ParameterCtx ε}
    (henclosing : ctx.parameterCtx = some enclosing) (hsame : enclosing.sourceEntity = entity)
    (hnone : schema.getRelation entity (schema.name entity) = none) :
    ctx.getInstances schema entity conditions =
      (checkConditions conditions enclosing.entityInstance).map fun passed =>
        if passed then [enclosing.entityInstance] else [] := by
  unfold getInstances
  rw [henclosing]
  dsimp only
  rw [hsame, hnone]
  simp

/-- Of its own entity with a relation to itself, the recorded instance is left where there
is no candidate. -/
theorem getInstances_of_self {enclosing : ParameterCtx ε} {relation : Relation ε}
    (henclosing : ctx.parameterCtx = some enclosing) (hsame : enclosing.sourceEntity = entity)
    (hself : schema.getRelation entity (schema.name entity) = some relation) :
    ctx.getInstances schema entity conditions =
      (candidates schema cache ctx.parameterCtx entity conditions).map fun instances =>
        if instances = [] then [enclosing.entityInstance] else instances := by
  unfold getInstances candidates
  rw [henclosing]
  dsimp only
  rw [hsame, hself]
  simp

/-- A recorded instance of the entity itself satisfies what is asked of it, or there is
no candidate and it is returned nevertheless, or the candidates are returned. -/
theorem getInstances_cases {instances : List Instance}
    (h : ctx.getInstances schema entity conditions = .ok instances) :
    (∃ enclosing, ctx.parameterCtx = some enclosing ∧ enclosing.sourceEntity = entity ∧
      schema.getRelation entity (schema.name entity) = none ∧
        ∀ instance_ ∈ instances,
          instance_ = enclosing.entityInstance ∧ Satisfies conditions instance_) ∨
    (FallsBack schema ctx entity conditions ∧
      ∃ enclosing, ctx.parameterCtx = some enclosing ∧ enclosing.sourceEntity = entity ∧
        instances = [enclosing.entityInstance]) ∨
    (¬ FallsBack schema ctx entity conditions ∧
      candidates schema cache ctx.parameterCtx entity conditions = .ok instances ∧
        ∀ enclosing, ctx.parameterCtx = some enclosing → enclosing.sourceEntity = entity →
          schema.getRelation entity (schema.name entity) ≠ none) := by
  cases henclosing : ctx.parameterCtx with
  | none =>
      rw [getInstances_of_none henclosing, henclosing] at h
      refine Or.inr (Or.inr ⟨?_, h, fun _ heq => nomatch heq⟩)
      rintro ⟨⟨enclosing, _, heq, _⟩, _⟩
      rw [henclosing] at heq
      cases heq
  | some enclosing =>
      by_cases hsame : enclosing.sourceEntity = entity
      · cases hself : schema.getRelation entity (schema.name entity) with
        | none =>
            rw [getInstances_of_same henclosing hsame hself] at h
            refine Or.inl ⟨enclosing, rfl, hsame, rfl, ?_⟩
            intro instance_ hmem
            cases hcheck : checkConditions conditions enclosing.entityInstance with
            | error exception =>
                rw [hcheck] at h
                cases h
            | ok passed =>
                rw [hcheck] at h
                cases passed with
                | false =>
                    cases h
                    exact absurd hmem List.not_mem_nil
                | true =>
                    cases h
                    rw [List.mem_singleton.mp hmem]
                    exact ⟨rfl, checkConditions_true_iff.mp hcheck⟩
        | some relation =>
            rw [getInstances_of_self henclosing hsame hself, henclosing] at h
            cases hcandidates : candidates schema cache (some enclosing) entity conditions with
            | error exception =>
                rw [hcandidates] at h
                cases h
            | ok found =>
                rw [hcandidates] at h
                by_cases hempty : found = []
                · rw [hempty] at h hcandidates
                  cases h
                  refine Or.inr (Or.inl ⟨⟨⟨enclosing, relation, henclosing, hsame, hself⟩, ?_⟩,
                    enclosing, rfl, hsame, rfl⟩)
                  rw [henclosing]
                  exact hcandidates
                · simp only [Except.map, if_neg hempty] at h
                  cases h
                  refine Or.inr (Or.inr ⟨?_, rfl, fun _ _ _ => Option.some_ne_none _⟩)
                  rintro ⟨_, hnone⟩
                  rw [henclosing, hcandidates] at hnone
                  cases hnone
                  exact hempty rfl
      · rw [getInstances_of_ne henclosing hsame, henclosing] at h
        refine Or.inr (Or.inr ⟨?_, h, ?_⟩)
        · rintro ⟨⟨other, _, heq, hother, _⟩, _⟩
          rw [henclosing] at heq
          cases heq
          exact hsame hother
        · intro other heq hother
          cases heq
          exact absurd hother hsame

/-- Without a candidate the recorded instance is returned, whatever was asked. -/
theorem getInstances_of_fallsBack (h : ctx.FallsBack schema entity conditions) :
    ∃ enclosing, ctx.parameterCtx = some enclosing ∧
      ctx.getInstances schema entity conditions = .ok [enclosing.entityInstance] := by
  obtain ⟨⟨enclosing, relation, henclosing, hsame, hself⟩, hnone⟩ := h
  refine ⟨enclosing, henclosing, ?_⟩
  rw [getInstances_of_self henclosing hsame hself, hnone]
  rfl

/-- A candidate is cached. -/
theorem mem_of_candidates {instances : List Instance}
    (h : candidates schema cache ctx.parameterCtx entity conditions = .ok instances)
    {instance_ : Instance} (hmem : instance_ ∈ instances) :
    instance_ ∈ cache.instances entity ∧ Satisfies conditions instance_ := by
  unfold candidates at h
  split at h
  · exact (Cache.mem_getInstances h instance_).mp hmem
  · next enclosing henclosing =>
      split at h
      · exact (Cache.mem_getInstances h instance_).mp hmem
      · next relation hrelation =>
          have hrecorded := ctx.recorded enclosing henclosing
          have hselected := (mem_getRelatedInstances hrecorded h instance_).mp hmem
          rw [Schema.getRelation_destination hrelation] at hselected
          exact ⟨hselected.1, hselected.2.2⟩

/-- An instance that is found is cached, or the enclosing one. -/
theorem mem_of_getInstances {instances : List Instance}
    (h : ctx.getInstances schema entity conditions = .ok instances) {instance_ : Instance}
    (hmem : instance_ ∈ instances) : instance_ ∈ cache.instances entity := by
  rcases getInstances_cases h with ⟨enclosing, henclosing, hsame, _, hall⟩ |
    ⟨_, enclosing, henclosing, hsame, rfl⟩ | ⟨_, hcandidates, _⟩
  · rw [(hall instance_ hmem).1, ← hsame]
    exact ctx.recorded enclosing henclosing
  · rw [List.mem_singleton.mp hmem, ← hsame]
    exact ctx.recorded enclosing henclosing
  · exact (mem_of_candidates hcandidates hmem).1

end

end Context

/-! ## Parameterised nodes -/

/-- What the generator puts into the class of a node over an entity. -/
structure Parameter (ε : Type) where
  parameterField : Bytes
  parameterValue : Bytes
  parameterEntity : ε
  staticConditions : List Condition
  field_ne : parameterField ≠ dummyField

namespace Parameter

/-- {lit}`getConditions` -/
def getConditions (parameter : Parameter ε) (value : Bytes) : List Condition :=
  .buildEqual parameter.parameterField (.string (decodeUriSegment value)) ::
    parameter.staticConditions

end Parameter

namespace Context

/-- {lit}`verifyParameter`: the first instance is recorded. -/
def verifyParameter (schema : Schema ε) {cache : Cache ε} (ctx : Context cache) (entity : ε)
    (conditions : List Condition) (paramValue : Bytes) :
    Except Exception (Option (Context cache)) :=
  match h : ctx.getInstances schema entity conditions with
  | .error exception => .error exception
  | .ok [] => .ok none
  | .ok (front :: _) =>
      let parameterCtx : ParameterCtx ε := ⟨front, entity⟩
      .ok (some
        { parameterCtx := some parameterCtx
          parameters := fun name =>
            if name = paramValue then some parameterCtx else ctx.parameters name
          recorded := by
            intro enclosing heq
            cases heq
            exact mem_of_getInstances h (List.mem_cons_self ..) })

end Context

namespace Parameter

/-- {lit}`matchParameter` -/
def matchParameter (schema : Schema ε) {cache : Cache ε} (parameter : Parameter ε)
    (ctx : Context cache) (value : Bytes) : Except Exception (Option (Context cache)) :=
  ctx.verifyParameter schema parameter.parameterEntity (parameter.getConditions value)
    parameter.parameterValue

/-- The segment of the node in the tree of {lit}`uriResolver`. -/
def segment (schema : Schema ε) (cache : Cache ε) (parameter : Parameter ε) :
    Segment (Context cache) :=
  .parameter fun ctx value => parameter.matchParameter schema ctx value

/-- The segment that is emitted for an instance. -/
def segmentOf (parameter : Parameter ε) (instance_ : Instance) : Bytes :=
  encodeUriSegment (instance_.getField parameter.parameterField).getStringValue

/-- {lit}`getAllSegmentValues` -/
def getAllSegmentValues (schema : Schema ε) {cache : Cache ε} (parameter : Parameter ε)
    (ctx : Context cache) : Except Exception (List Bytes) :=
  (ctx.getInstances schema parameter.parameterEntity parameter.staticConditions).map
    fun instances => instances.map parameter.segmentOf

/-! ## Accepting only what is there -/

/-- An instance of the entity that satisfies the conditions and is related to the
enclosing parameter's instance, where that one's entity has a relation to it. -/
structure Selected (schema : Schema ε) (cache : Cache ε)
    (parameterCtx : Option (ParameterCtx ε)) (entity : ε) (conditions : List Condition)
    (instance_ : Instance) : Prop where
  cached : instance_ ∈ cache.instances entity
  satisfies : Satisfies conditions instance_
  related : ∀ enclosing relation, parameterCtx = some enclosing →
    schema.getRelation enclosing.sourceEntity (schema.name entity) = some relation →
      Related relation enclosing.entityInstance instance_

/-- The later context records a selected instance for the parameter. -/
def Records (schema : Schema ε) {cache : Cache ε} (parameter : Parameter ε)
    (ctx later : Context cache) (value : Bytes) : Prop :=
  ∃ instance_, Selected schema cache ctx.parameterCtx parameter.parameterEntity
      (parameter.getConditions value) instance_ ∧
    later.parameterCtx = some ⟨instance_, parameter.parameterEntity⟩ ∧
      later.parameters parameter.parameterValue = some ⟨instance_, parameter.parameterEntity⟩

/-- A segment is accepted only for a selected instance, which is recorded, also when it
is evaluated a second time; and only selected instances are listed. -/
structure Sound (schema : Schema ε) {cache : Cache ε} (parameter : Parameter ε)
    (ctx : Context cache) (value : Bytes) : Prop where
  accepted : ∀ later, parameter.matchParameter schema ctx value = .ok (some later) →
    Records schema parameter ctx later value
  again : ∀ later last, parameter.matchParameter schema ctx value = .ok (some later) →
    parameter.matchParameter schema later value = .ok (some last) →
      Records schema parameter ctx last value
  listed : ∀ segments, parameter.getAllSegmentValues schema ctx = .ok segments →
    ∀ segment ∈ segments, ∃ instance_, Selected schema cache ctx.parameterCtx
      parameter.parameterEntity parameter.staticConditions instance_ ∧
        segment = parameter.segmentOf instance_

/-- Where the entity has a relation to itself, the first candidate that the first one
leads to is selected for the enclosing parameter too. -/
def RepeatsSelected (schema : Schema ε) {cache : Cache ε} (parameter : Parameter ε)
    (ctx : Context cache) (value : Bytes) : Prop :=
  ∀ first others next rest relation,
    Context.candidates schema cache ctx.parameterCtx parameter.parameterEntity
      (parameter.getConditions value) = .ok (first :: others) →
    schema.getRelation parameter.parameterEntity (schema.name parameter.parameterEntity) =
      some relation →
    Context.candidates schema cache (some ⟨first, parameter.parameterEntity⟩)
      parameter.parameterEntity (parameter.getConditions value) = .ok (next :: rest) →
    Selected schema cache ctx.parameterCtx parameter.parameterEntity
      (parameter.getConditions value) next

section

variable {schema : Schema ε} {cache : Cache ε} {ctx later : Context cache} {entity : ε}
  {conditions : List Condition} {parameter : Parameter ε} {value : Bytes}

/-- A candidate is selected. -/
theorem selected_of_candidates {instances : List Instance}
    (h : Context.candidates schema cache ctx.parameterCtx entity conditions = .ok instances)
    {instance_ : Instance} (hmem : instance_ ∈ instances) :
    Selected schema cache ctx.parameterCtx entity conditions instance_ := by
  have hcandidate := Context.mem_of_candidates h hmem
  refine ⟨hcandidate.1, hcandidate.2, ?_⟩
  intro enclosing relation henclosing hrelation
  have hrecorded := ctx.recorded enclosing henclosing
  unfold Context.candidates at h
  rw [henclosing] at h
  dsimp only at h
  rw [hrelation] at h
  exact ((mem_getRelatedInstances hrecorded h instance_).mp hmem).2.1

/-- Where there are no candidates, nothing is selected. -/
theorem not_selected_of_fallsBack (h : ctx.FallsBack schema entity conditions)
    (instance_ : Instance) :
    ¬ Selected schema cache ctx.parameterCtx entity conditions instance_ := by
  intro hselected
  obtain ⟨⟨enclosing, relation, henclosing, hsame, hself⟩, hnone⟩ := h
  have hrecorded := ctx.recorded enclosing henclosing
  have hrelation : schema.getRelation enclosing.sourceEntity (schema.name entity) =
      some relation := by
    rw [hsame]
    exact hself
  unfold Context.candidates at hnone
  rw [henclosing] at hnone
  dsimp only at hnone
  rw [hrelation] at hnone
  have hmem := (mem_getRelatedInstances hrecorded hnone instance_).mpr
    ⟨by rw [Schema.getRelation_destination hrelation]; exact hselected.cached,
      hselected.related enclosing relation henclosing hrelation, hselected.satisfies⟩
  exact absurd hmem List.not_mem_nil

theorem selected_of_getInstances {instances : List Instance}
    (hback : ¬ ctx.FallsBack schema entity conditions)
    (h : ctx.getInstances schema entity conditions = .ok instances) {instance_ : Instance}
    (hmem : instance_ ∈ instances) :
    Selected schema cache ctx.parameterCtx entity conditions instance_ := by
  have hcached := Context.mem_of_getInstances h hmem
  rcases Context.getInstances_cases h with ⟨enclosing, henclosing, hsame, hnone, hall⟩ |
    ⟨hfalls, _⟩ | ⟨_, hcandidates, _⟩
  · refine ⟨hcached, (hall instance_ hmem).2, ?_⟩
    intro other relation hother hrelation
    rw [henclosing] at hother
    cases hother
    rw [hsame, hnone] at hrelation
    cases hrelation
  · exact absurd hfalls hback
  · exact selected_of_candidates hcandidates hmem

/-- When a value is accepted. -/
theorem matchParameter_ok_iff :
    parameter.matchParameter schema ctx value = .ok (some later) ↔
      ∃ front rest, ctx.getInstances schema parameter.parameterEntity
          (parameter.getConditions value) = .ok (front :: rest) ∧
        later.parameterCtx = some ⟨front, parameter.parameterEntity⟩ ∧
          later.parameters = fun name =>
            if name = parameter.parameterValue then some ⟨front, parameter.parameterEntity⟩
            else ctx.parameters name := by
  unfold matchParameter Context.verifyParameter
  constructor
  · intro h
    split at h
    · cases h
    · cases h
    · next front rest hinstances =>
        cases h
        exact ⟨front, rest, hinstances, rfl, rfl⟩
  · rintro ⟨front, rest, hinstances, hctx, hparameters⟩
    split
    · next exception herror =>
        rw [herror] at hinstances
        cases hinstances
    · next hnone =>
        rw [hnone] at hinstances
        cases hinstances
    · next front' rest' hfound =>
        rw [hfound] at hinstances
        cases hinstances
        obtain ⟨parameterCtx, parameters, hrecorded⟩ := later
        cases hctx
        cases hparameters
        rfl

/-- The first instance found is accepted and recorded. -/
theorem exists_matchParameter {front : Instance} {rest : List Instance}
    (h : ctx.getInstances schema parameter.parameterEntity (parameter.getConditions value) =
      .ok (front :: rest)) :
    ∃ accepted : Context cache, parameter.matchParameter schema ctx value = .ok (some accepted) ∧
      accepted.parameterCtx = some ⟨front, parameter.parameterEntity⟩ := by
  let accepted : Context cache :=
    { parameterCtx := some ⟨front, parameter.parameterEntity⟩
      parameters := fun name =>
        if name = parameter.parameterValue then some ⟨front, parameter.parameterEntity⟩
        else ctx.parameters name
      recorded := by
        intro enclosing heq
        cases heq
        exact Context.mem_of_getInstances h (List.mem_cons_self ..) }
  exact ⟨accepted, matchParameter_ok_iff.mpr ⟨front, rest, h, rfl, rfl⟩, rfl⟩

/-- The selected instance is recorded. -/
theorem records_of_selected {front : Instance}
    (hselected : Selected schema cache ctx.parameterCtx parameter.parameterEntity
      (parameter.getConditions value) front)
    (hctx : later.parameterCtx = some ⟨front, parameter.parameterEntity⟩)
    {parameters : Bytes → Option (ParameterCtx ε)}
    (hparameters : later.parameters = fun name =>
      if name = parameter.parameterValue then some ⟨front, parameter.parameterEntity⟩
      else parameters name) : Records schema parameter ctx later value := by
  refine ⟨front, hselected, hctx, ?_⟩
  rw [hparameters]
  simp

/-- The second evaluation finds the recorded instance again, or the first candidate
that it leads to. -/
theorem again_cases {front next : Instance} {rest : List Instance}
    (hctx : later.parameterCtx = some ⟨front, parameter.parameterEntity⟩)
    (hagain : later.getInstances schema parameter.parameterEntity
      (parameter.getConditions value) = .ok (next :: rest)) :
    next = front ∨ ∃ relation,
      schema.getRelation parameter.parameterEntity (schema.name parameter.parameterEntity) =
          some relation ∧
        Context.candidates schema cache (some ⟨front, parameter.parameterEntity⟩)
          parameter.parameterEntity (parameter.getConditions value) = .ok (next :: rest) := by
  rcases Context.getInstances_cases hagain with ⟨enclosing, henclosing, _, _, hall⟩ |
    ⟨_, enclosing, henclosing, _, hsingle⟩ | ⟨_, hcandidates, hself⟩
  · rw [hctx] at henclosing
    cases henclosing
    exact Or.inl (hall next (List.mem_cons_self ..)).1
  · rw [hctx] at henclosing
    cases henclosing
    cases hsingle
    exact Or.inl rfl
  · obtain ⟨relation, hrelation⟩ := Option.ne_none_iff_exists'.mp (hself _ hctx rfl)
    rw [hctx] at hcandidates
    exact Or.inr ⟨relation, hrelation, hcandidates⟩

/-- Where the entity has a relation to itself, what was found first is a candidate. -/
theorem candidates_of_getInstances {instances : List Instance} {relation : Relation ε}
    (hback : ¬ ctx.FallsBack schema entity conditions)
    (hself : schema.getRelation entity (schema.name entity) = some relation)
    (h : ctx.getInstances schema entity conditions = .ok instances) :
    Context.candidates schema cache ctx.parameterCtx entity conditions = .ok instances := by
  rcases Context.getInstances_cases h with
    ⟨_, _, _, hnone, _⟩ | ⟨hfalls, _⟩ | ⟨_, hcandidates, _⟩
  · rw [hself] at hnone
    cases hnone
  · exact absurd hfalls hback
  · exact hcandidates

/-- Candidates that are found are what is looked up. -/
theorem getInstances_of_candidates {front : Instance} {rest : List Instance}
    (hself : ∀ enclosing, ctx.parameterCtx = some enclosing → enclosing.sourceEntity = entity →
      schema.getRelation entity (schema.name entity) ≠ none)
    (h : Context.candidates schema cache ctx.parameterCtx entity conditions =
      .ok (front :: rest)) :
    ctx.getInstances schema entity conditions = .ok (front :: rest) := by
  cases henclosing : ctx.parameterCtx with
  | none =>
      rw [Context.getInstances_of_none henclosing]
      exact h
  | some enclosing =>
      by_cases hsame : enclosing.sourceEntity = entity
      · obtain ⟨relation, hrelation⟩ :=
          Option.ne_none_iff_exists'.mp (hself enclosing henclosing hsame)
        rw [Context.getInstances_of_self henclosing hsame hrelation, h]
        rfl
      · rw [Context.getInstances_of_ne henclosing hsame]
        exact h

/-- Evaluating a parameter accepts, records and lists selected instances only, exactly
when it does not fall back to the enclosing instance and its repetition stays with the
enclosing one. -/
theorem sound_iff (schema : Schema ε) {cache : Cache ε} (parameter : Parameter ε)
    (ctx : Context cache) (value : Bytes) :
    Sound schema parameter ctx value ↔
      ¬ ctx.FallsBack schema parameter.parameterEntity (parameter.getConditions value) ∧
        ¬ ctx.FallsBack schema parameter.parameterEntity parameter.staticConditions ∧
          RepeatsSelected schema parameter ctx value := by
  constructor
  · intro h
    refine ⟨?_, ?_, ?_⟩
    · intro hback
      obtain ⟨enclosing, _, hfound⟩ := Context.getInstances_of_fallsBack hback
      obtain ⟨later, haccepted, _⟩ := exists_matchParameter hfound
      obtain ⟨instance_, hselected, _⟩ := h.accepted later haccepted
      exact not_selected_of_fallsBack hback instance_ hselected
    · intro hback
      obtain ⟨enclosing, _, hfound⟩ := Context.getInstances_of_fallsBack hback
      have hsegments : parameter.getAllSegmentValues schema ctx =
          .ok [parameter.segmentOf enclosing.entityInstance] := by
        unfold getAllSegmentValues
        rw [hfound]
        rfl
      obtain ⟨instance_, hselected, _⟩ :=
        h.listed _ hsegments _ (List.mem_singleton_self _)
      exact not_selected_of_fallsBack hback instance_ hselected
    · intro first others next rest relation hfirst hself hnext
      have hrelated : schema.getRelation parameter.parameterEntity
          (schema.name parameter.parameterEntity) ≠ none := by
        rw [hself]
        exact Option.some_ne_none relation
      obtain ⟨later, haccepted, hctx⟩ :=
        exists_matchParameter (getInstances_of_candidates (fun _ _ _ => hrelated) hfirst)
      rw [← hctx] at hnext
      obtain ⟨last, hrepeated, hlast⟩ :=
        exists_matchParameter (getInstances_of_candidates (fun _ _ _ => hrelated) hnext)
      obtain ⟨instance_, hselected, hrecorded, _⟩ := h.again later last haccepted hrepeated
      rw [hlast] at hrecorded
      cases hrecorded
      exact hselected
  · rintro ⟨hback, hstatic, hrepeats⟩
    refine ⟨?_, ?_, ?_⟩
    · intro later haccepted
      obtain ⟨front, rest, hfound, hctx, hparameters⟩ := matchParameter_ok_iff.mp haccepted
      exact records_of_selected
        (selected_of_getInstances hback hfound (List.mem_cons_self ..)) hctx hparameters
    · intro later last haccepted hrepeated
      obtain ⟨front, rest, hfound, hctx, _⟩ := matchParameter_ok_iff.mp haccepted
      obtain ⟨next, rest', hagain, hlast, hparameters⟩ := matchParameter_ok_iff.mp hrepeated
      have hfront := selected_of_getInstances hback hfound (List.mem_cons_self ..)
      refine records_of_selected ?_ hlast hparameters
      rcases again_cases hctx hagain with rfl | ⟨relation, hself, hnext⟩
      · exact hfront
      · have hfirst := candidates_of_getInstances hback hself hfound
        exact hrepeats front rest next rest' relation hfirst hself hnext
    · intro segments hsegments segment hmem
      unfold getAllSegmentValues at hsegments
      cases hfound : ctx.getInstances schema parameter.parameterEntity
          parameter.staticConditions with
      | error exception =>
          rw [hfound] at hsegments
          cases hsegments
      | ok instances =>
          rw [hfound] at hsegments
          cases hsegments
          obtain ⟨instance_, hinstance, rfl⟩ := List.mem_map.mp hmem
          exact ⟨instance_, selected_of_getInstances hstatic hfound hinstance, rfl⟩

end

/-! ## The second evaluation -/

/-- Without a relation of the entity to itself the second evaluation accepts again. -/
theorem matchParameter_again {schema : Schema ε} {cache : Cache ε} {parameter : Parameter ε}
    {ctx later : Context cache} {value : Bytes}
    (hself : schema.getRelation parameter.parameterEntity
      (schema.name parameter.parameterEntity) = none)
    (haccepted : parameter.matchParameter schema ctx value = .ok (some later)) :
    parameter.matchParameter schema later value = .ok (some later) := by
  obtain ⟨front, rest, hfound, hctx, hparameters⟩ := matchParameter_ok_iff.mp haccepted
  have hback : ¬ ctx.FallsBack schema parameter.parameterEntity
      (parameter.getConditions value) := by
    rintro ⟨⟨_, _, _, _, hrelation⟩, _⟩
    rw [hself] at hrelation
    cases hrelation
  have hselected := selected_of_getInstances hback hfound (List.mem_cons_self ..)
  apply matchParameter_ok_iff.mpr
  refine ⟨front, [], ?_, hctx, ?_⟩
  · rw [Context.getInstances_of_same hctx rfl hself,
      checkConditions_true_iff.mpr hselected.satisfies]
    rfl
  · rw [hparameters]
    funext name
    by_cases hname : name = parameter.parameterValue
    · simp [hname]
    · simp [hname]

/-- Such a parameter is steady in the tree of nodes. -/
theorem segment_steady (schema : Schema ε) (cache : Cache ε) (parameter : Parameter ε)
    (hself : schema.getRelation parameter.parameterEntity
      (schema.name parameter.parameterEntity) = none)
    (hraises : ∀ (ctx : Context cache) value, ∃ result,
      parameter.matchParameter schema ctx value = .ok result) :
    (parameter.segment schema cache).Steady := by
  intro value ctx
  obtain ⟨result, hresult⟩ := hraises ctx value
  unfold Segment.validate segment
  dsimp only
  rw [hresult]
  cases result with
  | none =>
      refine ⟨false, ctx, rfl, false, ?_⟩
      rw [hresult]
  | some later =>
      refine ⟨true, later, rfl, true, ?_⟩
      rw [matchParameter_again hself hresult]

/-! ## Ethernet interfaces and their VLANs -/

/-- The member with the name of an interface. -/
def fieldInterfaceName : Bytes := bytes "InterfaceName"

/-- The member with the name of a network inside it. -/
def fieldVLANName : Bytes := bytes "VLANName"

/-- The relation of {lit}`Ethernet` to itself. -/
def relationToVLAN : List RuleSet :=
  [{ memberSource := fieldInterfaceName
     memberDest := fieldVLANName
     compareLiteral := fun field value =>
       match field, value with
       | some field, .string sourceIfaceName =>
           if field.isNull then .ok false
           else .ok ((sourceIfaceName ++ bytes ".").isPrefixOf field.getStringValue)
       | _, _ => .ok false }]

/-- The entity with its relation to itself. -/
def ethernetSchema : Schema Unit where
  name := fun _ => bytes "Ethernet"
  name_injective := fun _ _ _ => rfl
  type := fun _ => .array
  members := fun _ => [fieldInterfaceName, fieldVLANName]
  relations := fun _ => [⟨(), relationToVLAN⟩]

/-- The node for a network inside an interface. -/
def vlanNode : Parameter Unit where
  parameterField := fieldVLANName
  parameterValue := bytes "VLanNetworkInterfaceId"
  parameterEntity := ()
  staticConditions := []
  field_ne := by decide

/-- An interface without VLANs. -/
def eth0 : Instance where
  hash := 1
  memberInstances := fun name =>
    if name = fieldInterfaceName then some (.string (bytes "eth0")) else none

/-- There is one interface and no network inside it. -/
def eth0Cache : Cache Unit where
  instances := fun _ => [eth0]
  initDefaultFieldsValue := fun _ object => .ok object
  verifyState := fun _ object => .ok object
  providers := fun _ => []
  ordered := fun _ => List.pairwise_singleton _ _
  settled := fun _ _ _ => rfl

/-- The interface encloses the node. -/
def eth0Context : Context eth0Cache where
  parameterCtx := some ⟨eth0, ()⟩
  parameters := fun _ => some ⟨eth0, ()⟩
  recorded := by
    intro enclosing heq
    cases heq
    exact List.mem_singleton_self _

/-- Below an interface without VLANs every name is accepted as one, for the interface
itself. -/
theorem missing_vlan_accepted :
    ¬ Sound ethernetSchema vlanNode eth0Context (bytes "missing") := by
  intro hsound
  have hfound : eth0Context.getInstances ethernetSchema vlanNode.parameterEntity
      (vlanNode.getConditions (bytes "missing")) = .ok [eth0] := by
    rfl
  obtain ⟨later, haccepted, _⟩ := exists_matchParameter hfound
  obtain ⟨instance_, hselected, _⟩ := hsound.accepted later haccepted
  have hmem : instance_ = eth0 := List.mem_singleton.mp hselected.cached
  have hsatisfied := hselected.satisfies _ (List.mem_cons_self ..)
  rw [hmem] at hsatisfied
  revert hsatisfied
  decide

end Parameter
end Redfish
end ObmcWebapp
