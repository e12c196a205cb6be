import ObmcWebapp.Graphql.Totality

/-!
# GraphQL - Selection sets and their places

The response of a fixed cache to a query of any form, by plain recursion, and how it
depends on one selection set at any depth: it is put together from what that set
gives for each instance that is shown at its place.

Several fields of one response key are not merged.  An object keeps the first value
that is pushed for a key, so of two fields with the same key the later one adds
nothing, whatever it selects.

Main results:

- Theorem {lit}`run_fixed`: the response of a fixed cache.
- Theorem {lit}`elementWith_eq_iff`: when two selection sets at one place give the same
  response.
- Theorem {lit}`first_occurrence_wins`: the later of two equal fields is lost.
-/

open Library

namespace ObmcWebapp
namespace Graphql

open Entity

variable {ε : Type} {manager : EntityManager ε} {cache : Cache ε}

/-! ## Pushed members -/

/-- The object of members pushed one after the other. -/
def element (pushed : List (Bytes × Json)) : Json :=
  .ofMembers (pushMembers [] pushed)

/-- Members may be pushed in two parts. -/
theorem pushMembers_append (members first second : List (Bytes × Json)) :
    pushMembers members (first ++ second) = pushMembers (pushMembers members first) second :=
  List.foldl_append

/-- The keys are those of both. -/
theorem mem_keys_pushMembers {members pushed : List (Bytes × Json)} {key : Bytes} :
    key ∈ (pushMembers members pushed).map Prod.fst ↔
      key ∈ members.map Prod.fst ∨ key ∈ pushed.map Prod.fst := by
  induction pushed generalizing members with
  | nil => simp [pushMembers]
  | cons member rest ih =>
      rw [pushMembers_cons, ih, pushMember]
      split
      · next hmember =>
          constructor
          · intro h
            exact h.imp_right fun hrest => List.mem_cons_of_mem _ hrest
          · intro h
            rcases h with hold | hnew
            · exact Or.inl hold
            · rcases List.mem_cons.mp hnew with hfirst | hrest
              · exact Or.inl (hfirst ▸ hmember)
              · exact Or.inr hrest
      · simp [or_assoc]

/-- Members whose keys are all taken change nothing. -/
theorem pushMembers_of_taken {members pushed : List (Bytes × Json)}
    (h : ∀ member ∈ pushed, member.1 ∈ members.map Prod.fst) :
    pushMembers members pushed = members := by
  induction pushed with
  | nil => rfl
  | cons member rest ih =>
      obtain ⟨hmember, hrest⟩ := List.forall_mem_cons.mp h
      rw [pushMembers_cons, pushMember, if_pos hmember, ih hrest]

/-- The member that is pushed is found unless there was one. -/
theorem member_ofMembers_pushMember (members : List (Bytes × Json)) (member : Bytes × Json)
    (key : Bytes) :
    (Json.ofMembers (pushMember members member)).member key =
      ((Json.ofMembers members).member key).or
        (if key = member.1 then some member.2 else none) := by
  unfold pushMember
  split
  · next hmember =>
      by_cases hkey : key = member.1
      · have hsome := member_ofMembers_isSome.mpr (hkey ▸ hmember : key ∈ members.map Prod.fst)
        obtain ⟨value, hvalue⟩ := Option.isSome_iff_exists.mp hsome
        rw [hvalue, Option.some_or]
      · rw [if_neg hkey, Option.or_none]
  · next hmember =>
      rw [ofMembers_append, Json.member_set (isObject_ofMembers members)]
      by_cases hkey : key = member.1
      · have hnone : (Json.ofMembers members).member key = none := by
          cases hlookup : (Json.ofMembers members).member key with
          | none => rfl
          | some value =>
              have hmem := member_ofMembers_isSome.mp (Option.isSome_of_eq_some hlookup)
              exact absurd (hkey ▸ hmem) hmember
        rw [if_pos hkey, if_pos hkey, hnone, Option.none_or]
      · rw [if_neg hkey, if_neg hkey, Option.or_none]

/-- Of several members the first is found. -/
private theorem member_ofMembers_pushMembers (members pushed : List (Bytes × Json)) (key : Bytes) :
    (Json.ofMembers (pushMembers members pushed)).member key =
      ((Json.ofMembers members).member key).or (pushed.lookup key) := by
  induction pushed generalizing members with
  | nil => exact (Option.or_none).symm
  | cons member rest ih =>
      rw [pushMembers_cons, ih, member_ofMembers_pushMember, Option.or_assoc, List.lookup_cons]
      by_cases hkey : key = member.1
      · rw [if_pos hkey, beq_iff_eq.mpr hkey, Option.some_or]
      · rw [if_neg hkey, beq_eq_false_iff_ne.mpr hkey, Option.none_or]

/-- The first value that was pushed for a key. -/
theorem member_element (pushed : List (Bytes × Json)) (key : Bytes) :
    (element pushed).member key = pushed.lookup key := by
  rw [element, member_ofMembers_pushMembers]
  exact Option.none_or

/-- What is not in the first part is looked up in the second. -/
theorem lookup_append_of_not_mem {first second : List (Bytes × Json)} {key : Bytes}
    (hkey : key ∉ first.map Prod.fst) : (first ++ second).lookup key = second.lookup key := by
  induction first with
  | nil => rfl
  | cons member rest ih =>
      rw [List.map_cons, List.mem_cons, not_or] at hkey
      rw [List.cons_append, List.lookup_cons, beq_eq_false_iff_ne.mpr hkey.1]
      exact ih hkey.2

/-- A member behind one of the same key is lost. -/
theorem element_shadowed {first second : List (Bytes × Json)} {key : Bytes}
    (hkey : key ∈ first.map Prod.fst) (value : Json) :
    element (first ++ (key, value) :: second) = element (first ++ second) := by
  have htaken : key ∈ (pushMembers [] first).map Prod.fst :=
    mem_keys_pushMembers.mpr (Or.inr hkey)
  rw [element, element, pushMembers_append, pushMembers_append, pushMembers_cons, pushMember,
    if_pos htaken]

/-- The value of a member matters unless one of the same key stands before it. -/
theorem element_eq_iff {first second : List (Bytes × Json)} {key : Bytes} {value other : Json} :
    element (first ++ (key, value) :: second) = element (first ++ (key, other) :: second) ↔
      (key ∉ first.map Prod.fst → value = other) := by
  constructor
  · intro h hkey
    have hmember := congrArg (Json.member key) h
    rw [member_element, member_element, lookup_append_of_not_mem hkey,
      lookup_append_of_not_mem hkey, List.lookup_cons, List.lookup_cons, beq_self_eq_true]
      at hmember
    exact Option.some.inj hmember
  · intro h
    by_cases hkey : key ∈ first.map Prod.fst
    · rw [element_shadowed hkey, element_shadowed hkey]
    · rw [h hkey]

/-- More members change an object exactly when one of them has a new key. -/
theorem element_append_eq_iff {first second : List (Bytes × Json)} :
    element first = element (first ++ second) ↔
      ∀ member ∈ second, member.1 ∈ first.map Prod.fst := by
  constructor
  · intro h member hmem
    have hkeys : ∀ pushed : List (Bytes × Json), ((element pushed).member member.1).isSome ↔
        member.1 ∈ pushed.map Prod.fst := by
      intro pushed
      rw [element, member_ofMembers_isSome, mem_keys_pushMembers]
      simp
    have hboth := (hkeys (first ++ second)).mpr (by
      rw [List.map_append]
      exact List.mem_append_right _ (List.mem_map_of_mem hmem))
    rw [← h] at hboth
    exact (hkeys first).mp hboth
  · intro h
    have htaken : pushMembers (pushMembers [] first) second = pushMembers [] first :=
      pushMembers_of_taken fun member hmem => mem_keys_pushMembers.mpr (Or.inr (h member hmem))
    rw [element, element, pushMembers_append, htaken]

/-! ## Rendered objects -/

/-- Rendering keeps its objects apart. -/
theorem render_map_eq_iff {type : EntityType} {instances : List Instance}
    {object other : Instance → Json} :
    render type (instances.map object) = render type (instances.map other) ↔
      ∀ instance_ ∈ instances, object instance_ = other instance_ := by
  have harray : Json.array (instances.map object) = Json.array (instances.map other) ↔
      ∀ instance_ ∈ instances, object instance_ = other instance_ := by
    rw [Json.array.injEq]
    exact List.map_inj_left
  unfold render
  cases instances with
  | nil => simp
  | cons first rest =>
      cases rest with
      | nil =>
          cases decide (type = EntityType.array) with
          | true => exact harray
          | false => simp
      | cons second others => exact harray

/-! ## The response of a fixed cache -/

/-- The instances that a target stands for, below an instance of its source. -/
def chosen (cache : Cache ε) (target : Target ε) (source : Option Instance) : List Instance :=
  match target, source with
  | .root, _ => []
  | .entity entity, _ => cache.instances entity
  | .relation _ relation, none => cache.instances relation.destination
  | .relation _ relation, some source => relatedInstances cache relation source

mutual

/-- What a field gives for an instance. -/
def resultField (manager : EntityManager ε) (cache : Cache ε) (entity : Option ε)
    (source : Option Instance) : AstField → Json
  | .leaf name fieldAlias =>
      match source with
      | none => .null
      | some instance_ => leafValue (instance_.getField (fieldAlias.getD name).value)
  | .node name _ selectionSet =>
      match Visitor.resolve manager entity name.value with
      | none => .null
      | some target =>
          renderTarget manager target ((chosen cache target source).map fun instance_ =>
            element (resultAll manager cache target.getEntity (some instance_) selectionSet))

/-- What a selection set pushes to the object of an instance. -/
def resultAll (manager : EntityManager ε) (cache : Cache ε) (entity : Option ε)
    (source : Option Instance) : List AstField → List (Bytes × Json)
  | [] => []
  | field :: rest =>
      (field.responseKey, resultField manager cache entity source field) ::
        resultAll manager cache entity source rest

end

/-- Each field has its result. -/
theorem resultAll_eq_map {entity : Option ε} {source : Option Instance} (fields : List AstField) :
    resultAll manager cache entity source fields =
      fields.map fun field => (field.responseKey, resultField manager cache entity source field) := by
  induction fields with
  | nil => rw [resultAll, List.map_nil]
  | cons field rest ih => rw [resultAll, List.map_cons, ih]

/-- The keys of the results. -/
theorem keys_resultAll {entity : Option ε} {source : Option Instance} (fields : List AstField) :
    (resultAll manager cache entity source fields).map Prod.fst =
      fields.map AstField.responseKey := by
  rw [resultAll_eq_map, List.map_map]
  rfl

/-- Fields may be answered in two parts. -/
theorem resultAll_append {entity : Option ε} {source : Option Instance}
    (first second : List AstField) :
    resultAll manager cache entity source (first ++ second) =
      resultAll manager cache entity source first ++
        resultAll manager cache entity source second := by
  rw [resultAll_eq_map, resultAll_eq_map, resultAll_eq_map, List.map_append]

/-- An instance of the entity that is cached, and none at the root. -/
def Placed (cache : Cache ε) : Option ε → Option Instance → Prop
  | none, none => True
  | some entity, some instance_ => instance_ ∈ cache.instances entity
  | _, _ => False

/-- The selected instances are the chosen ones. -/
theorem selected_eq_chosen (hcomparable : Comparable manager.toSchema cache) {entity : Option ε}
    {source : Option Instance} (hplaced : Placed cache entity source) {name : Bytes}
    {target : Target ε} (hresolve : Visitor.resolve manager entity name = some target) :
    selected manager cache target (source.map Instance.hash) = chosen cache target source ∧
      ∀ instance_ ∈ chosen cache target source, Placed cache target.getEntity (some instance_) := by
  cases entity with
  | none =>
      obtain ⟨destination, -, rfl⟩ := Option.map_eq_some_iff.mp hresolve
      refine ⟨?_, fun _ hmem => hmem⟩
      simp only [selected, GqlObjectBuild.selectInstances, Cache.getInstances_nil,
        Except.toOption, Option.getD_some]
      rfl
  | some entity =>
      cases source with
      | none => exact hplaced.elim
      | some instance_ =>
          obtain ⟨relation, hrelation, rfl⟩ := Option.map_eq_some_iff.mp hresolve
          have hmem := Schema.mem_relations_of_getRelation hrelation
          refine ⟨selected_eq_relatedInstances hcomparable hmem hplaced, ?_⟩
          intro other hother
          exact (List.mem_filter.mp hother).1

mutual

/-- In a fixed cache a response is a result. -/
theorem respondField_constant (hcomparable : Comparable manager.toSchema cache) :
    (field : AstField) → {entity : Option ε} → {source : Option Instance} →
    ReadableField manager entity field → Placed cache entity source → (moment : Nat) →
    respondField manager (fun _ => cache) entity (source.map Instance.hash) moment field =
      resultField manager cache entity source field
  | .leaf name fieldAlias, entity, source, hreadable, hplaced, moment => by
      obtain ⟨target, rfl, -⟩ := hreadable
      cases source with
      | none => exact hplaced.elim
      | some instance_ =>
          have hfound : cache.getInstance target instance_.hash = some instance_ :=
            Cache.getInstance_eq_some_iff.mpr ⟨hplaced, rfl⟩
          simp only [respondField, resultField, leafAt, Option.map_some, hfound]
  | .node name fieldAlias selectionSet, entity, source, hreadable, hplaced, moment => by
      obtain ⟨target, hresolve, hbelow⟩ := hreadable
      obtain ⟨hselected, hchosen⟩ := selected_eq_chosen hcomparable hplaced hresolve
      rw [respondField, resultField, hresolve]
      dsimp only
      rw [hselected]
      congr 1
      apply List.map_congr_left
      intro instance_ hinstance
      rw [element, ← respondAll_constant hcomparable selectionSet hbelow
        (hchosen instance_ hinstance) (moment + 1)]
      rfl

/-- While the cache is fixed, the moments do not matter. -/
theorem respondAll_constant (hcomparable : Comparable manager.toSchema cache) :
    (fields : List AstField) → {entity : Option ε} → {source : Option Instance} →
    ReadableAll manager entity fields → Placed cache entity source → (moment : Nat) →
    respondAll manager (fun _ => cache) entity (source.map Instance.hash) moment fields =
      resultAll manager cache entity source fields
  | [], _, _, _, _, _ => by
      rw [respondAll, resultAll]
  | field :: rest, entity, source, hreadable, hplaced, moment => by
      rw [respondAll, resultAll, respondField_constant hcomparable field hreadable.1 hplaced moment,
        respondAll_constant hcomparable rest hreadable.2 hplaced _]

end

/-- The answer to a query whose root object is known. -/
def Outcome.answer (document : Json) : Outcome :=
  .data (.object [(GqlObjectBuild.visitorName, document)])

/-- Answers are equal if their documents are. -/
theorem Outcome.answer_inj {document other : Json} :
    Outcome.answer document = Outcome.answer other ↔ document = other := by
  simp [Outcome.answer]

/-- A fixed cache responds with data where the query can be visited to its end, and
with an error where it cannot. -/
theorem run_fixed (hcomparable : Comparable manager.toSchema cache) (htexts : TextsValid cache)
    (fields : List AstField) :
    (ReadableAll manager none fields → run manager (fun _ => cache) fields =
      .answer (element (resultAll manager cache none none fields))) ∧
    (¬ ReadableAll manager none fields → run manager (fun _ => cache) fields = .error) := by
  have hpopulated : PopulatedAll manager (fun _ => cache) none 0 fields :=
    populatedAll_returning fields fun _ _ => rfl
  obtain ⟨hdata, herror⟩ := run_total (fun _ => hcomparable) (quiet_fixed cache)
    (contained_of_populated hpopulated) (fun _ => htexts)
  refine ⟨?_, fun hnot => herror fun hboth => hnot hboth.1⟩
  intro hreadable
  rw [hdata ⟨hreadable, hpopulated⟩, Outcome.answer, element,
    ← @respondAll_constant ε manager cache hcomparable fields none none hreadable trivial 0]
  rfl

/-! ## Places -/

/-- A field around a place in its selection set, with the siblings of the field. -/
structure Frame where
  before : List AstField
  name : Name
  fieldAlias : Option Name
  after : List AstField

namespace Frame

/-- The key of a frame in the document. -/
def responseKey (frame : Frame) : Bytes :=
  (frame.fieldAlias.getD frame.name).value

/-- Fields inside a frame. -/
def wrap (frame : Frame) (selectionSet : List AstField) : List AstField :=
  frame.before ++ .node frame.name frame.fieldAlias selectionSet :: frame.after

end Frame

/-- A query with a selection set at a place. -/
def plug : List Frame → List AstField → List AstField
  | [], selectionSet => selectionSet
  | frame :: rest, selectionSet => frame.wrap (plug rest selectionSet)

/-- A property holds of every instance that is shown at a place. -/
def EachShown (manager : EntityManager ε) (cache : Cache ε)
    (P : Option ε → Option Instance → Prop) : List Frame → Option ε → Option Instance → Prop
  | [], entity, source => P entity source
  | frame :: rest, entity, source =>
      frame.responseKey ∉ frame.before.map AstField.responseKey →
        ∀ target, Visitor.resolve manager entity frame.name.value = some target →
          ∀ instance_ ∈ chosen cache target source,
            EachShown manager cache P rest target.getEntity (some instance_)

/-- What is put together when each instance at a place gives a value. -/
def elementWith (manager : EntityManager ε) (cache : Cache ε)
    (value : Option ε → Option Instance → Json) : List Frame → Option ε → Option Instance → Json
  | [], entity, source => value entity source
  | frame :: rest, entity, source =>
      let inner :=
        match Visitor.resolve manager entity frame.name.value with
        | none => .null
        | some target =>
            renderTarget manager target ((chosen cache target source).map fun instance_ =>
              elementWith manager cache value rest target.getEntity (some instance_))
      element (resultAll manager cache entity source frame.before ++
        (frame.responseKey, inner) :: resultAll manager cache entity source frame.after)

/-- The object that a selection set gives for an instance. -/
def elementOf (manager : EntityManager ε) (cache : Cache ε) (selectionSet : List AstField)
    (entity : Option ε) (source : Option Instance) : Json :=
  element (resultAll manager cache entity source selectionSet)

/-- The results inside a frame. -/
theorem resultAll_wrap {entity : Option ε} {source : Option Instance} (frame : Frame)
    (selectionSet : List AstField) :
    resultAll manager cache entity source (frame.wrap selectionSet) =
      resultAll manager cache entity source frame.before ++
        (frame.responseKey, resultField manager cache entity source
          (.node frame.name frame.fieldAlias selectionSet)) ::
        resultAll manager cache entity source frame.after := by
  rw [Frame.wrap, resultAll_append, resultAll]
  rfl

/-- A query's response is put together from the objects at a place. -/
theorem elementOf_plug (frames : List Frame) (selectionSet : List AstField) (entity : Option ε)
    (source : Option Instance) :
    elementOf manager cache (plug frames selectionSet) entity source =
      elementWith manager cache (elementOf manager cache selectionSet) frames entity source := by
  induction frames generalizing entity source with
  | nil => rfl
  | cons frame rest ih =>
      rw [plug, elementOf, resultAll_wrap, resultField, elementWith]
      cases hresolve : Visitor.resolve manager entity frame.name.value with
      | none => rfl
      | some target =>
          dsimp only
          congr 5
          apply List.map_congr_left
          intro instance_ _
          exact ih target.getEntity (some instance_)

/-- Only what is shown at a place matters. -/
theorem elementWith_eq_iff {value other : Option ε → Option Instance → Json}
    (frames : List Frame) (entity : Option ε) (source : Option Instance) :
    elementWith manager cache value frames entity source =
        elementWith manager cache other frames entity source ↔
      EachShown manager cache (fun entity source => value entity source = other entity source)
        frames entity source := by
  induction frames generalizing entity source with
  | nil => exact Iff.rfl
  | cons frame rest ih =>
      rw [elementWith, elementWith, element_eq_iff, keys_resultAll, EachShown]
      apply imp_congr_right
      intro _
      cases hresolve : Visitor.resolve manager entity frame.name.value with
      | none => simp
      | some target =>
          obtain ⟨-, destination, hdestination⟩ := declared_of_resolve hresolve
          simp only [renderTarget, hdestination, render_map_eq_iff, Option.some.injEq,
            forall_eq']
          exact forall₂_congr fun instance_ _ => hdestination ▸ ih target.getEntity (some instance_)

/-- What holds everywhere holds at each place that is shown. -/
theorem eachShown_of_forall {P : Option ε → Option Instance → Prop}
    (hall : ∀ entity source, P entity source) {frames : List Frame} {entity : Option ε}
    {source : Option Instance} : EachShown manager cache P frames entity source := by
  induction frames generalizing entity source with
  | nil => exact hall _ _
  | cons frame rest ih => exact fun _ _ _ _ _ => ih

/-- Frames may be entered in two parts. -/
theorem eachShown_append {P : Option ε → Option Instance → Prop} (frames inner : List Frame)
    (entity : Option ε) (source : Option Instance) :
    EachShown manager cache P (frames ++ inner) entity source ↔
      EachShown manager cache (EachShown manager cache P inner) frames entity source := by
  induction frames generalizing entity source with
  | nil => exact Iff.rfl
  | cons frame rest ih => simp only [List.cons_append, EachShown, ih]

/-! ## Queries that can be visited -/

/-- Fields may be readable in two parts. -/
theorem readableAll_append {entity : Option ε} {first second : List AstField} :
    ReadableAll manager entity (first ++ second) ↔
      ReadableAll manager entity first ∧ ReadableAll manager entity second := by
  induction first with
  | nil => simp [ReadableAll]
  | cons field rest ih => simp [ReadableAll, ih, and_assoc]

/-- A place stays readable where its fields are. -/
theorem readableAll_plug_mono {selectionSet other : List AstField}
    (h : ∀ entity, ReadableAll manager entity selectionSet → ReadableAll manager entity other)
    (frames : List Frame) (entity : Option ε)
    (hreadable : ReadableAll manager entity (plug frames selectionSet)) :
    ReadableAll manager entity (plug frames other) := by
  induction frames generalizing entity with
  | nil => exact h entity hreadable
  | cons frame rest ih =>
      simp only [plug, Frame.wrap, readableAll_append, ReadableAll, ReadableField] at hreadable ⊢
      obtain ⟨hbefore, ⟨target, hresolve, hbelow⟩, hafter⟩ := hreadable
      exact ⟨hbefore, ⟨target, hresolve, ih target.getEntity hbelow⟩, hafter⟩

/-- Two such places are readable alike. -/
theorem readableAll_plug_congr {selectionSet other : List AstField}
    (h : ∀ entity, ReadableAll manager entity selectionSet ↔ ReadableAll manager entity other)
    (frames : List Frame) (entity : Option ε) :
    ReadableAll manager entity (plug frames selectionSet) ↔
      ReadableAll manager entity (plug frames other) :=
  ⟨readableAll_plug_mono (fun entity => (h entity).mp) frames entity,
    readableAll_plug_mono (fun entity => (h entity).mpr) frames entity⟩

/-- Two selection sets at one place give the same response exactly when they give the
same object for every instance that is shown there. -/
theorem run_plug_eq_iff (hcomparable : Comparable manager.toSchema cache)
    (htexts : TextsValid cache) {frames : List Frame} {selectionSet other : List AstField}
    (hreadable : ReadableAll manager none (plug frames selectionSet))
    (hother : ReadableAll manager none (plug frames other)) :
    run manager (fun _ => cache) (plug frames selectionSet) =
        run manager (fun _ => cache) (plug frames other) ↔
      EachShown manager cache
        (fun entity source => elementOf manager cache selectionSet entity source =
          elementOf manager cache other entity source) frames none none := by
  have hresponse : ∀ fields, element (resultAll manager cache none none (plug frames fields)) =
      elementWith manager cache (elementOf manager cache fields) frames none none :=
    fun fields => elementOf_plug frames fields none none
  rw [(run_fixed hcomparable htexts _).1 hreadable, (run_fixed hcomparable htexts _).1 hother,
    Outcome.answer_inj, hresponse, hresponse, elementWith_eq_iff]

/-- A selection set can be visited when its parts can. -/
theorem readableField_node_append {entity : Option ε} {name : Name} {fieldAlias : Option Name}
    {first second : List AstField} :
    ReadableField manager entity (.node name fieldAlias (first ++ second)) ↔
      ReadableField manager entity (.node name fieldAlias first) ∧
        ReadableField manager entity (.node name fieldAlias second) := by
  simp only [ReadableField, readableAll_append]
  constructor
  · rintro ⟨target, hresolve, hfirst, hsecond⟩
    exact ⟨⟨target, hresolve, hfirst⟩, target, hresolve, hsecond⟩
  · rintro ⟨⟨target, hresolve, hfirst⟩, other, hother, hsecond⟩
    obtain rfl := Option.some.inj (hresolve.symm.trans hother)
    exact ⟨target, hresolve, hfirst, hsecond⟩

/-! ## Repeated fields -/

section Repeated

variable (name : Name) (fieldAlias : Option Name) (before between after X Y : List AstField)

/-- The same field twice among siblings. -/
def twice : List AstField :=
  before ++ .node name fieldAlias X :: (between ++ .node name fieldAlias Y :: after)

/-- The field once. -/
def once : List AstField :=
  before ++ .node name fieldAlias X :: (between ++ after)

/-- Two selections are readable if the merged one is. -/
theorem readableAll_twice {entity : Option ε} :
    ReadableAll manager entity (twice name fieldAlias before between after X Y) ↔
      ReadableAll manager entity (once name fieldAlias before between after (X ++ Y)) := by
  simp only [twice, once, readableAll_append, ReadableAll, readableField_node_append]
  tauto

/-- The first of them is readable then. -/
theorem readableAll_once_of_twice {entity : Option ε}
    (h : ReadableAll manager entity (twice name fieldAlias before between after X Y)) :
    ReadableAll manager entity (once name fieldAlias before between after X) := by
  simp only [twice, once, readableAll_append, ReadableAll] at h ⊢
  tauto

/-- The second of two equal fields is lost. -/
theorem elementOf_twice (entity : Option ε) (source : Option Instance) :
    elementOf manager cache (twice name fieldAlias before between after X Y) entity source =
      elementOf manager cache (once name fieldAlias before between after X) entity source := by
  have hsplit : ∀ rest, before ++ AstField.node name fieldAlias X :: (between ++ rest) =
      (before ++ AstField.node name fieldAlias X :: between) ++ rest := by
    intro rest
    simp
  have hkey : (AstField.node name fieldAlias Y).responseKey ∈ (resultAll manager cache entity source
      (before ++ AstField.node name fieldAlias X :: between)).map Prod.fst := by
    rw [keys_resultAll, List.map_append]
    exact List.mem_append_right _ (List.mem_cons_self ..)
  have hsecond : resultAll manager cache entity source (.node name fieldAlias Y :: after) =
      ((AstField.node name fieldAlias Y).responseKey, resultField manager cache entity source
        (.node name fieldAlias Y)) :: resultAll manager cache entity source after := by
    rw [resultAll]
  rw [elementOf, elementOf, twice, once, hsplit, hsplit, resultAll_append, hsecond,
    element_shadowed hkey, ← resultAll_append]

/-- Where an instance is shown for the field, merging its two selection sets changes
nothing exactly when the second has no response key that the first lacks. -/
theorem elementOf_once_eq_iff (entity : Option ε) (source : Option Instance) :
    elementOf manager cache (once name fieldAlias before between after X) entity source =
        elementOf manager cache (once name fieldAlias before between after (X ++ Y)) entity source ↔
      EachShown manager cache
        (fun _ _ => ∀ field ∈ Y, field.responseKey ∈ X.map AstField.responseKey)
        [⟨before, name, fieldAlias, between ++ after⟩] entity source := by
  have hplug : ∀ selectionSet, once name fieldAlias before between after selectionSet =
      plug [⟨before, name, fieldAlias, between ++ after⟩] selectionSet := fun _ => rfl
  rw [hplug, hplug, elementOf_plug, elementOf_plug, elementWith_eq_iff]
  have heach : ∀ (e : Option ε) (i : Option Instance),
      elementOf manager cache X e i = elementOf manager cache (X ++ Y) e i ↔
        ∀ field ∈ Y, field.responseKey ∈ X.map AstField.responseKey := by
    intro e i
    rw [elementOf, elementOf, resultAll_append, element_append_eq_iff, keys_resultAll,
      resultAll_eq_map]
    simp
  simp only [heach]

end Repeated

/-- Merging changes the response exactly where the second field selects a new key for
an instance that is shown. -/
theorem run_twice_eq_iff (hcomparable : Comparable manager.toSchema cache)
    (htexts : TextsValid cache) {frames : List Frame} {name : Name} {fieldAlias : Option Name}
    {before between after X Y : List AstField}
    (hreadable : ReadableAll manager none
      (plug frames (twice name fieldAlias before between after X Y))) :
    run manager (fun _ => cache) (plug frames (twice name fieldAlias before between after X Y)) =
        run manager (fun _ => cache)
          (plug frames (once name fieldAlias before between after (X ++ Y))) ↔
      EachShown manager cache
        (fun _ _ => ∀ field ∈ Y, field.responseKey ∈ X.map AstField.responseKey)
        (frames ++ [⟨before, name, fieldAlias, between ++ after⟩]) none none := by
  have hmerged : ReadableAll manager none
      (plug frames (once name fieldAlias before between after (X ++ Y))) :=
    (readableAll_plug_congr (fun _ => readableAll_twice ..) frames none).mp hreadable
  rw [run_plug_eq_iff hcomparable htexts hreadable hmerged, eachShown_append]
  simp only [elementOf_twice, elementOf_once_eq_iff]

/-- Of two equal fields among siblings, at any depth, the first wins: data are those
without the second field.  They are those with one merged field exactly where the
second selects no new key or no instance is shown for the field. -/
theorem first_occurrence_wins (manager : EntityManager ε) (cache : Cache ε)
    (hcomparable : Comparable manager.toSchema cache) (htexts : TextsValid cache)
    (frames : List Frame) (name : Name) (fieldAlias : Option Name)
    (before between after X Y : List AstField) :
    (∀ result,
      run manager (fun _ => cache) (plug frames (twice name fieldAlias before between after X Y)) =
        .data result →
      run manager (fun _ => cache) (plug frames (once name fieldAlias before between after X)) =
        .data result) ∧
    (run manager (fun _ => cache) (plug frames (twice name fieldAlias before between after X Y)) =
        run manager (fun _ => cache)
          (plug frames (once name fieldAlias before between after (X ++ Y))) ↔
      (ReadableAll manager none (plug frames (twice name fieldAlias before between after X Y)) →
        EachShown manager cache
          (fun _ _ => ∀ field ∈ Y, field.responseKey ∈ X.map AstField.responseKey)
          (frames ++ [⟨before, name, fieldAlias, between ++ after⟩]) none none)) := by
  by_cases hreadable : ReadableAll manager none
      (plug frames (twice name fieldAlias before between after X Y))
  · have hfirst : ReadableAll manager none
        (plug frames (once name fieldAlias before between after X)) :=
      readableAll_plug_mono (fun _ htwice => readableAll_once_of_twice _ _ _ _ _ _ _ htwice)
        frames none hreadable
    constructor
    · intro result hresult
      rw [← hresult]
      symm
      apply (run_plug_eq_iff hcomparable htexts hreadable hfirst).mpr
      exact eachShown_of_forall fun entity source => elementOf_twice ..
    · rw [run_twice_eq_iff hcomparable htexts hreadable, forall_prop_of_true hreadable]
  · have hmerged : ¬ ReadableAll manager none
        (plug frames (once name fieldAlias before between after (X ++ Y))) :=
      mt (readableAll_plug_congr (fun _ => readableAll_twice ..) frames none).mpr hreadable
    rw [(run_fixed hcomparable htexts _).2 hreadable, (run_fixed hcomparable htexts _).2 hmerged]
    constructor
    · intro result hresult
      cases hresult
    · exact iff_of_true rfl fun h => absurd h hreadable

/-- The fans with their identifiers and, in a second field, their states. -/
def fanTwice : List AstField :=
  twice ⟨bytes "Fan", fan_letters⟩ none [] [] [] [.leaf ⟨bytes "Id", id_letters⟩ none]
    [.leaf ⟨bytes "Status", by decide +kernel⟩ none]

/-- The query is readable. -/
theorem fanTwice_readable : ReadableAll inventoryManager none fanTwice :=
  ⟨⟨.entity .fan, rfl, ⟨.fan, rfl, List.mem_cons_self ..⟩, trivial⟩,
    ⟨.entity .fan, rfl, ⟨.fan, rfl, List.mem_cons_of_mem _ (List.mem_cons_self ..)⟩, trivial⟩,
    trivial⟩

/-- With the same leaf in both fields nothing is lost. -/
theorem first_occurrence_wins_fans :
    run inventoryManager (fun _ => twoFans) (twice ⟨bytes "Fan", fan_letters⟩ none [] [] []
      [.leaf ⟨bytes "Id", id_letters⟩ none] [.leaf ⟨bytes "Id", id_letters⟩ none]) =
    run inventoryManager (fun _ => twoFans) (once ⟨bytes "Fan", fan_letters⟩ none [] [] []
      ([.leaf ⟨bytes "Id", id_letters⟩ none] ++
        [.leaf ⟨bytes "Id", id_letters⟩ none])) := by
  refine (first_occurrence_wins inventoryManager twoFans (inventoryCache_comparable twoFans)
    textsValid_twoFans [] _ none [] [] [] _ _).2.mpr ?_
  intro _
  apply eachShown_of_forall
  intro entity source
  decide

/-- Their states are lost: the response is not that to one field with both leaves. -/
theorem fan_states_lost :
    ¬ ∀ (frames : List Frame) (name : Name) (before between after X Y : List AstField),
      run inventoryManager (fun _ => twoFans)
          (plug frames (twice name none before between after X Y)) =
        run inventoryManager (fun _ => twoFans)
          (plug frames (once name none before between after (X ++ Y))) := by
  intro h
  have hsame := h [] ⟨bytes "Fan", fan_letters⟩ [] [] []
    [.leaf ⟨bytes "Id", id_letters⟩ none] [.leaf ⟨bytes "Status", by decide +kernel⟩ none]
  have hiff := @run_twice_eq_iff _ inventoryManager twoFans (inventoryCache_comparable twoFans)
    textsValid_twoFans [] _ _ _ _ _ _ _ fanTwice_readable
  have hshown := hiff.mp hsame
  -- the first fan is shown, and its state has no place in the first field
  have hkeys := hshown List.not_mem_nil (.entity .fan) rfl _ (List.mem_cons_self ..) _
    (List.mem_singleton_self _)
  exact absurd hkeys (by decide)

end Graphql
end ObmcWebapp
