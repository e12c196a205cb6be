import ObmcWebapp.Redfish.Parameters

/-!
# Redfish - Segments emitted and accepted

The segments that {lit}`getAllSegmentValues` emits replace blanks by underscores, and
{lit}`getConditions` replaces underscores by blanks again.

Main results:

- Theorem {lit}`Parameter.roundTrips_iff`: when every emitted segment leads back to its
  instance.
-/

open Library

namespace ObmcWebapp
namespace Redfish

open Entity

variable {ε : Type}

/-! ## Blanks and underscores -/

/-- Decoding an encoded text decodes the text. -/
theorem decode_encode (value : Bytes) :
    decodeUriSegment (encodeUriSegment value) = decodeUriSegment value := by
  unfold decodeUriSegment encodeUriSegment
  rw [List.map_map]
  apply List.map_congr_left
  intro c _
  simp only [Function.comp_apply]
  split
  · next hblank =>
      rw [hblank]
      rfl
  · rfl

/-- A text without underscores is decoded as it is. -/
theorem decode_eq_self_iff {value : Bytes} :
    decodeUriSegment value = value ↔ 0x5F ∉ value := by
  unfold decodeUriSegment
  induction value with
  | nil => simp
  | cons c rest ih =>
      rw [List.map_cons, List.cons_eq_cons, ih, List.mem_cons, not_or]
      apply and_congr_left
      intro _
      split
      · next hunderscore =>
          rw [hunderscore]
          decide
      · next hunderscore =>
          exact iff_of_true rfl (Ne.symm hunderscore)

namespace Parameter

/-! ## Emitted instances -/

/-- {lit}`getAllSegmentValues` has a segment for the instance. -/
def Emitted (schema : Schema ε) {cache : Cache ε} (parameter : Parameter ε)
    (ctx : Context cache) (instance_ : Instance) : Prop :=
  ∃ instances, ctx.getInstances schema parameter.parameterEntity parameter.staticConditions =
    .ok instances ∧ instance_ ∈ instances

/-- The parameter field holds strings without slashes, a different one in each instance. -/
structure DistinctNames (cache : Cache ε) (parameter : Parameter ε) : Prop where
  text : ∀ instance_ ∈ cache.instances parameter.parameterEntity,
    ∃ text, instance_.getField parameter.parameterField = some (.string text) ∧ 0x2F ∉ text
  distinct : ∀ first ∈ cache.instances parameter.parameterEntity,
    ∀ second ∈ cache.instances parameter.parameterEntity,
      first.getField parameter.parameterField = second.getField parameter.parameterField →
        first = second

/-- The segment is accepted and the instance is recorded for it. -/
def ResolvesTo (schema : Schema ε) {cache : Cache ε} (parameter : Parameter ε)
    (ctx : Context cache) (segment : Bytes) (instance_ : Instance) : Prop :=
  ∃ later, parameter.matchParameter schema ctx segment = .ok (some later) ∧
    later.parameterCtx = some ⟨instance_, parameter.parameterEntity⟩

/-- Every emitted segment leads back to its instance, and no two are equal. -/
structure RoundTrips (schema : Schema ε) {cache : Cache ε} (parameter : Parameter ε)
    (ctx : Context cache) : Prop where
  resolves : ∀ instance_, parameter.Emitted schema ctx instance_ →
    parameter.ResolvesTo schema ctx (parameter.segmentOf instance_) instance_
  distinct : ∀ first second, parameter.Emitted schema ctx first →
    parameter.Emitted schema ctx second → first ≠ second →
      parameter.segmentOf first ≠ parameter.segmentOf second

/-- The recorded instance itself is returned for the segment, for want of another. -/
def ReturnsRecorded (schema : Schema ε) {cache : Cache ε} (parameter : Parameter ε)
    (ctx : Context cache) (instance_ : Instance) : Prop :=
  ctx.parameterCtx = some ⟨instance_, parameter.parameterEntity⟩ ∧
    ctx.FallsBack schema parameter.parameterEntity
      (parameter.getConditions (parameter.segmentOf instance_))

section

variable {schema : Schema ε} {cache : Cache ε} {ctx : Context cache} {parameter : Parameter ε}

/-- The check compares the text of the member. -/
theorem check_buildEqual {memberName value : Bytes} (hname : memberName ≠ dummyField)
    (instance_ : Instance) :
    (Condition.buildEqual memberName (.string value)).check instance_ =
      .ok (decide ((instance_.getField memberName).getValue = .string value)) := by
  unfold Condition.buildEqual
  rw [check_ofRule, if_neg hname, equal, FieldType.equals_string]

/-- One condition more selects among the candidates. -/
theorem candidates_cons {entity : ε} {conditions : List Condition} {instances : List Instance}
    {condition : Condition} {also : Instance → Bool}
    (h : Context.candidates schema cache ctx.parameterCtx entity conditions = .ok instances)
    (hcheck : ∀ instance_, condition.check instance_ = .ok (also instance_)) :
    Context.candidates schema cache ctx.parameterCtx entity (condition :: conditions) =
      .ok (instances.filter also) := by
  unfold Context.candidates at h ⊢
  split at h
  · exact @Cache.getInstances_insert _ _ _ [] _ _ _ _ h hcheck
  · split at h
    · exact @Cache.getInstances_insert _ _ _ [] _ _ _ _ h hcheck
    · exact getRelatedInstances_cons h hcheck

/-- What is looked up for a segment has the decoded segment as its name. -/
theorem name_of_satisfies {value : Bytes} {instance_ : Instance}
    (h : Satisfies (parameter.getConditions value) instance_) :
    (instance_.getField parameter.parameterField).getValue =
      .string (decodeUriSegment value) := by
  have hcheck := h _ (List.mem_cons_self ..)
  rw [check_buildEqual parameter.field_ne] at hcheck
  rw [Except.ok.injEq, decide_eq_true_iff] at hcheck
  exact hcheck

/-- The segment leads to the first instance that is found. -/
theorem resolvesTo_iff_front {segment : Bytes} {instance_ : Instance} :
    parameter.ResolvesTo schema ctx segment instance_ ↔
      ∃ rest, ctx.getInstances schema parameter.parameterEntity
        (parameter.getConditions segment) = .ok (instance_ :: rest) := by
  constructor
  · rintro ⟨later, haccepted, hctx⟩
    obtain ⟨front, rest, hfound, hfront, _⟩ := matchParameter_ok_iff.mp haccepted
    rw [hctx] at hfront
    cases hfront
    exact ⟨rest, hfound⟩
  · rintro ⟨rest, hfound⟩
    exact exists_matchParameter hfound

/-- Of the instances only one has the name. -/
theorem filter_name {instances : List Instance} {instance_ : Instance} {text : Bytes}
    (hnames : parameter.DistinctNames cache)
    (hcached : ∀ other ∈ instances, other ∈ cache.instances parameter.parameterEntity)
    (hmem : instance_ ∈ instances)
    (htext : instance_.getField parameter.parameterField = some (.string text)) :
    ∃ rest, (instances.filter fun other =>
      decide ((other.getField parameter.parameterField).getValue = .string text)) =
        instance_ :: rest := by
  have hself : instance_ ∈ instances.filter fun other =>
      decide ((other.getField parameter.parameterField).getValue = .string text) := by
    rw [List.mem_filter, htext]
    exact ⟨hmem, decide_eq_true rfl⟩
  cases hfilter : instances.filter fun other =>
      decide ((other.getField parameter.parameterField).getValue = .string text) with
  | nil =>
      rw [hfilter] at hself
      exact absurd hself List.not_mem_nil
  | cons front rest =>
      have hfront : front ∈ front :: rest := List.mem_cons_self ..
      rw [← hfilter, List.mem_filter, decide_eq_true_iff] at hfront
      obtain ⟨name, hname, _⟩ := hnames.text front (hcached front hfront.1)
      rw [hname] at hfront
      cases hfront.2
      have hsame := hnames.distinct front (hcached front hfront.1) instance_
        (hcached instance_ hmem) (hname.trans htext.symm)
      rw [hsame]
      exact ⟨rest, rfl⟩

/-- The segment of an instance with a name. -/
theorem segmentOf_eq {instance_ : Instance} {text : Bytes}
    (htext : instance_.getField parameter.parameterField = some (.string text)) :
    parameter.segmentOf instance_ = encodeUriSegment text := by
  unfold segmentOf
  rw [htext]
  rfl

/-- A name without underscores is found again. -/
theorem resolvesTo_of_plain (hnames : parameter.DistinctNames cache) {instance_ : Instance}
    (hemitted : parameter.Emitted schema ctx instance_) {text : Bytes}
    (htext : instance_.getField parameter.parameterField = some (.string text))
    (hplain : 0x5F ∉ text) :
    parameter.ResolvesTo schema ctx (parameter.segmentOf instance_) instance_ := by
  have hconditions : parameter.getConditions (parameter.segmentOf instance_) =
      .buildEqual parameter.parameterField (.string text) :: parameter.staticConditions := by
    unfold getConditions
    rw [segmentOf_eq htext, decode_encode, decode_eq_self_iff.mpr hplain]
  have hcheck := fun other => @check_buildEqual parameter.parameterField text
    parameter.field_ne other
  rw [resolvesTo_iff_front, hconditions]
  obtain ⟨instances, hfound, hmem⟩ := hemitted
  rcases Context.getInstances_cases hfound with ⟨enclosing, henclosing, hsame, hnone, hall⟩ |
    ⟨hback, enclosing, henclosing, hsame, rfl⟩ | ⟨_, hcandidates, hself⟩
  · obtain ⟨rfl, hsatisfies⟩ := hall instance_ hmem
    have hboth : Satisfies (.buildEqual parameter.parameterField (.string text) ::
        parameter.staticConditions) enclosing.entityInstance := by
      intro condition hcondition
      rcases List.mem_cons.mp hcondition with rfl | hstatic
      · rw [hcheck, htext]
        exact congrArg Except.ok (decide_eq_true rfl)
      · exact hsatisfies condition hstatic
    refine ⟨[], ?_⟩
    rw [Context.getInstances_of_same henclosing hsame hnone,
      checkConditions_true_iff.mpr hboth]
    rfl
  · -- without candidates for the static conditions there are none for one more
    have hnothing := candidates_cons hback.2 hcheck
    obtain ⟨other, hother, hreturned⟩ := Context.getInstances_of_fallsBack
      (show ctx.FallsBack schema parameter.parameterEntity _ from ⟨hback.1, hnothing⟩)
    rw [henclosing] at hother
    cases hother
    rw [List.mem_singleton.mp hmem]
    exact ⟨[], hreturned⟩
  · have hcached : ∀ other ∈ instances, other ∈ cache.instances parameter.parameterEntity :=
      fun other hother => (Context.mem_of_candidates hcandidates hother).1
    obtain ⟨rest, hfilter⟩ := filter_name hnames hcached hmem htext
    have hnarrowed := candidates_cons hcandidates hcheck
    rw [hfilter] at hnarrowed
    exact ⟨rest, getInstances_of_candidates hself hnarrowed⟩

/-- A segment leads back to its instance when its name has no underscore, or when
nothing is found for it and the instance is the recorded one. -/
theorem resolvesTo_iff (hnames : parameter.DistinctNames cache) {instance_ : Instance}
    (hemitted : parameter.Emitted schema ctx instance_) {text : Bytes}
    (htext : instance_.getField parameter.parameterField = some (.string text)) :
    parameter.ResolvesTo schema ctx (parameter.segmentOf instance_) instance_ ↔
      0x5F ∉ text ∨ parameter.ReturnsRecorded schema ctx instance_ := by
  constructor
  · intro hresolves
    apply Classical.or_iff_not_imp_left.mpr
    intro hunderscore
    obtain ⟨rest, hfound⟩ := resolvesTo_iff_front.mp hresolves
    have hdiffers : ¬ Satisfies (parameter.getConditions (parameter.segmentOf instance_))
        instance_ := by
      intro hsatisfies
      have hname := name_of_satisfies hsatisfies
      rw [htext, segmentOf_eq htext, decode_encode] at hname
      have hsame : text = decodeUriSegment text := by
        injection hname
      exact hunderscore (decode_eq_self_iff.mp hsame.symm)
    rcases Context.getInstances_cases hfound with ⟨_, _, _, _, hall⟩ |
      ⟨hback, enclosing, henclosing, hsame, hsingle⟩ | ⟨_, hcandidates, _⟩
    · exact absurd (hall instance_ (List.mem_cons_self ..)).2 hdiffers
    · cases hsingle
      refine ⟨?_, hback⟩
      rw [henclosing, ← hsame]
    · exact absurd (Context.mem_of_candidates hcandidates (List.mem_cons_self ..)).2 hdiffers
  · rintro (hplain | ⟨hctx, hback⟩)
    · exact resolvesTo_of_plain hnames hemitted htext hplain
    · obtain ⟨enclosing, henclosing, hreturned⟩ := Context.getInstances_of_fallsBack hback
      rw [hctx] at henclosing
      cases henclosing
      exact resolvesTo_iff_front.mpr ⟨[], hreturned⟩

/-- Every emitted segment leads back to its instance exactly when no name has an
underscore, up to a recorded instance that is returned for want of another. -/
theorem roundTrips_iff (hnames : parameter.DistinctNames cache) :
    parameter.RoundTrips schema ctx ↔
      ∀ instance_ text, parameter.Emitted schema ctx instance_ →
        instance_.getField parameter.parameterField = some (.string text) →
          0x5F ∉ text ∨ parameter.ReturnsRecorded schema ctx instance_ := by
  constructor
  · intro h instance_ text hemitted htext
    exact (resolvesTo_iff hnames hemitted htext).mp (h.resolves instance_ hemitted)
  · intro h
    have hresolves : ∀ instance_, parameter.Emitted schema ctx instance_ →
        parameter.ResolvesTo schema ctx (parameter.segmentOf instance_) instance_ := by
      intro instance_ hemitted
      obtain ⟨instances, hfound, hmem⟩ := hemitted
      obtain ⟨text, htext, _⟩ :=
        hnames.text instance_ (Context.mem_of_getInstances hfound hmem)
      have hemitted : parameter.Emitted schema ctx instance_ := ⟨instances, hfound, hmem⟩
      exact (resolvesTo_iff hnames hemitted htext).mpr (h instance_ text hemitted htext)
    refine ⟨hresolves, ?_⟩
    intro first second hfirst hsecond hne heq
    obtain ⟨later, haccepted, hctx⟩ := hresolves first hfirst
    obtain ⟨later', haccepted', hctx'⟩ := hresolves second hsecond
    rw [heq, haccepted'] at haccepted
    cases haccepted
    rw [hctx] at hctx'
    cases hctx'
    exact hne rfl

end

/-! ## Two drives -/

/-- A drive with a name. -/
def namedInstance (hash : UInt64) (name : Bytes) : Instance where
  hash := hash
  memberInstances := fun _ => some (.string name)

/-- Two drives with names. -/
def namedCache (first second : Bytes) : Cache Unit where
  instances := fun _ => [namedInstance 1 first, namedInstance 2 second]
  initDefaultFieldsValue := fun _ object => .ok object
  verifyState := fun _ object => .ok object
  providers := fun _ => []
  ordered := fun _ => List.pairwise_pair.mpr (show (1 : UInt64) < 2 by decide)
  settled := fun _ _ _ => rfl

/-- Drives have a name. -/
def namedSchema : Schema Unit where
  name := fun _ => bytes "Drive"
  name_injective := fun _ _ _ => rfl
  type := fun _ => .array
  members := fun _ => [bytes "Id"]
  relations := fun _ => []

/-- A node for a drive. -/
def namedNode : Parameter Unit where
  parameterField := bytes "Id"
  parameterValue := bytes "DriveId"
  parameterEntity := ()
  staticConditions := []
  field_ne := by decide

section

variable {first second : Bytes}

/-- The drives of the cache. -/
theorem mem_namedCache {instance_ : Instance}
    (hmem : instance_ ∈ (namedCache first second).instances namedNode.parameterEntity) :
    instance_ = namedInstance 1 first ∨ instance_ = namedInstance 2 second := by
  simpa [namedCache] using hmem

/-- A drive of the cache has one of the two names. -/
theorem name_of_mem {instance_ : Instance} {text : Bytes}
    (hmem : instance_ ∈ (namedCache first second).instances namedNode.parameterEntity)
    (htext : instance_.getField namedNode.parameterField = some (.string text)) :
    text = first ∨ text = second := by
  rcases mem_namedCache hmem with rfl | rfl
  · cases htext
    exact Or.inl rfl
  · cases htext
    exact Or.inr rfl

/-- Drives with other names are apart. -/
theorem distinctNames_named (hfirst : 0x2F ∉ first) (hsecond : 0x2F ∉ second)
    (hne : first ≠ second) : namedNode.DistinctNames (namedCache first second) where
  text := by
    intro instance_ hmem
    rcases mem_namedCache hmem with rfl | rfl
    · exact ⟨first, rfl, hfirst⟩
    · exact ⟨second, rfl, hsecond⟩
  distinct := by
    have hname : ∀ {name other : Bytes},
        some (FieldType.string name) = some (FieldType.string other) → name = other := by
      intro name other hsame
      exact FieldType.string.inj (Option.some.inj hsame)
    intro instance_ hinstance other hother hsame
    rcases mem_namedCache hinstance with rfl | rfl
    · rcases mem_namedCache hother with rfl | rfl
      · rfl
      · exact absurd (hname hsame) hne
    · rcases mem_namedCache hother with rfl | rfl
      · exact absurd (hname hsame).symm hne
      · rfl

end

/-- The first drive is emitted. -/
theorem emitted_named (first second : Bytes) :
    namedNode.Emitted namedSchema (Context.initial (namedCache first second))
      (namedInstance 1 first) :=
  ⟨[namedInstance 1 first, namedInstance 2 second], rfl, List.mem_cons_self⟩

/-- Both names have a blank, which is no underscore. -/
theorem roundTrips_blank :
    namedNode.RoundTrips namedSchema
      (Context.initial (namedCache (bytes "drive 1") (bytes "drive 2"))) := by
  apply (roundTrips_iff (distinctNames_named (by decide) (by decide) (by decide))).mpr
  intro instance_ text hemitted htext
  obtain ⟨instances, hfound, hmem⟩ := hemitted
  left
  rcases name_of_mem (Context.mem_of_getInstances hfound hmem) htext with rfl | rfl
  · decide
  · decide

/-- The segment of a name with an underscore is refused. -/
theorem underscore_refused :
    namedNode.DistinctNames (namedCache (bytes "drive_1") (bytes "drive 2")) ∧
      ¬ namedNode.RoundTrips namedSchema
        (Context.initial (namedCache (bytes "drive_1") (bytes "drive 2"))) := by
  refine ⟨distinctNames_named (by decide) (by decide) (by decide), ?_⟩
  intro h
  obtain ⟨rest, hfound⟩ := resolvesTo_iff_front.mp (h.resolves _ (emitted_named _ _))
  have hnothing : (Context.initial (namedCache (bytes "drive_1") (bytes "drive 2"))).getInstances
      namedSchema namedNode.parameterEntity
        (namedNode.getConditions (namedNode.segmentOf (namedInstance 1 (bytes "drive_1")))) =
          .ok [] := by
    rfl
  rw [hnothing] at hfound
  cases hfound

end Parameter
end Redfish
end ObmcWebapp
