import Mathlib.Data.List.Induction
import ObmcWebapp.Graphql.Visitor
import ObmcWebapp.Library.Outcomes

/-!
# GraphQL - What the visitor computes

The answer to a query while the cache changes, given by recursion over the query:
every leaf is read at the moment of its callback, every selection is made at the
moment when its field is left.  The visitor computes this answer wherever each
instance that is read when a field is left was cached during all earlier callbacks
that read the instances of the same builder, and the populations at the root return.

A leaf is read from the member of its response key, and of several fields with one
response key the first is kept; where leaves have no aliases and siblings differ,
this is the answer that the query asks for.

Main results:

- Theorem {lit}`acceptField_ok`: after a field the builder before it is current again.
- Theorem {lit}`acceptField_responds`: one field adds its response to all items.
- Theorem {lit}`run_responds`: the document of a readable query.
- Theorem {lit}`run_answers`: the document of a well-typed query.
- Theorem {lit}`acceptAll_raised`: the exception of a population at the root.
-/

open Library

namespace ObmcWebapp
namespace Graphql

open Entity

variable {ε : Type}

/-! ## Targets -/

/-- The target of the field of a name under a builder's entity. -/
def Visitor.resolve (manager : EntityManager ε) (entity : Option ε) (fieldName : Bytes) :
    Option (Target ε) :=
  match entity with
  | none => (manager.entityDictionary fieldName).map .entity
  | some entity => (manager.getRelation entity fieldName).map (.relation entity)

/-- What the population raises that a field asks for.  Only the entities of the root are
populated. -/
def raised (manager : EntityManager ε) (moment : Moment ε) (entity : Option ε) :
    AstField → Option Exception
  | .leaf _ _ => none
  | .node name _ _ =>
      match entity with
      | none => (manager.entityDictionary name.value).bind moment.populate
      | some _ => none

section

variable {manager : EntityManager ε} {moment : Moment ε} {entity : Option ε} {fieldName : Name}
  {fieldAlias : Option Name} {selectionSet : List AstField}

/-- The target of a field whose population returns. -/
theorem findTarget_of_resolve {target : Target ε}
    (hresolve : Visitor.resolve manager entity fieldName.value = some target)
    (hraised : raised manager moment entity (.node fieldName fieldAlias selectionSet) = none) :
    Visitor.findTarget manager moment entity fieldName.value = .ok target := by
  cases entity with
  | none =>
      obtain ⟨destination, hfound, rfl⟩ := Option.map_eq_some_iff.mp hresolve
      have hreturns : moment.populate destination = none := by
        simpa [raised, hfound] using hraised
      simp only [Visitor.findTarget, EntityManager.getEntity, hfound, hreturns]
      rfl
  | some source =>
      obtain ⟨link, hlink, rfl⟩ := Option.map_eq_some_iff.mp hresolve
      simp only [Visitor.findTarget, hlink]

/-- A name without a target raises an exception that ends as one of the visitor. -/
theorem findTarget_of_none (hresolve : Visitor.resolve manager entity fieldName.value = none) :
    ∃ exception, Visitor.findTarget manager moment entity fieldName.value = .error exception ∧
      Visitor.handler exception = .gqlException := by
  cases entity with
  | none =>
      have hmissing := Option.map_eq_none_iff.mp hresolve
      refine ⟨.entityException, ?_, rfl⟩
      simp only [Visitor.findTarget, EntityManager.getEntity, hmissing]
      rfl
  | some source =>
      have hmissing := Option.map_eq_none_iff.mp hresolve
      refine ⟨.gqlException, ?_, rfl⟩
      simp only [Visitor.findTarget, hmissing]

/-- The exception of a population is what the look-up raises. -/
theorem findTarget_of_raised {exception : Exception}
    (hraised : raised manager moment entity (.node fieldName fieldAlias selectionSet) =
      some exception) :
    Visitor.findTarget manager moment entity fieldName.value = .error exception := by
  cases entity with
  | none =>
      obtain ⟨destination, hfound, hpopulate⟩ := Option.bind_eq_some_iff.mp hraised
      simp only [Visitor.findTarget, EntityManager.getEntity, hfound, hpopulate]
      rfl
  | some source => cases hraised

end

/-! ## Well-typed queries -/

mutual

/-- A leaf is a member and has no alias, a node leads to an entity, and the fields
below it are well typed for that entity. -/
def WellTypedField (manager : EntityManager ε) (entity : Option ε) : AstField → Prop
  | .leaf name fieldAlias =>
      fieldAlias = none ∧ ∃ target, entity = some target ∧ name.value ∈ manager.members target
  | .node name _ selectionSet =>
      ∃ target, Visitor.resolve manager entity name.value = some target ∧
        WellTypedAll manager target.getEntity selectionSet

/-- Siblings have different response keys. -/
def WellTypedAll (manager : EntityManager ε) (entity : Option ε) : List AstField → Prop
  | [] => True
  | field :: rest =>
      WellTypedField manager entity field ∧
        field.responseKey ∉ rest.map AstField.responseKey ∧ WellTypedAll manager entity rest

end

mutual

/-- A field that can be visited: the response key of a leaf is a member, a node leads
to an entity, and the fields below it can be visited for that entity. -/
def ReadableField (manager : EntityManager ε) (entity : Option ε) : AstField → Prop
  | .leaf name fieldAlias =>
      ∃ target, entity = some target ∧ (fieldAlias.getD name).value ∈ manager.members target
  | .node name _ selectionSet =>
      ∃ target, Visitor.resolve manager entity name.value = some target ∧
        ReadableAll manager target.getEntity selectionSet

/-- The same for several fields. -/
def ReadableAll (manager : EntityManager ε) (entity : Option ε) : List AstField → Prop
  | [] => True
  | field :: rest => ReadableField manager entity field ∧ ReadableAll manager entity rest

end

/-! ## The answer at the moments of the callbacks -/

mutual

/-- The number of callbacks of a field. -/
def span : AstField → Nat
  | .leaf _ _ => 2
  | .node _ _ selectionSet => spanAll selectionSet + 2

/-- The callbacks of several fields. -/
def spanAll : List AstField → Nat
  | [] => 0
  | field :: rest => span field + spanAll rest

end

/-- The objects of an entity: an array if it is of array type or there are several,
an object if there is one, an empty object if there is none. -/
def render (type : EntityType) (objects : List Json) : Json :=
  match objects, decide (type = .array) with
  | [object], false => object
  | [], false => .object []
  | objects, _ => .array objects

/-- The instances of a target for a hash of the parent's instances. -/
def selected (manager : EntityManager ε) (cache : Cache ε) (target : Target ε)
    (hash : Option UInt64) : List Instance :=
  (GqlObjectBuild.selectInstances manager cache target hash).toOption.getD []

/-- How the objects of a target are put together. -/
def renderTarget (manager : EntityManager ε) (target : Target ε) (objects : List Json) : Json :=
  match target.getEntity with
  | none => .null
  | some entity => render (manager.type entity) objects

/-- The leaf of the instance that is cached for a hash. -/
def leafAt (cache : Cache ε) (entity : Option ε) (hash : Option UInt64) (name : Bytes) : Json :=
  match entity, hash with
  | some entity, some hash =>
      match cache.getInstance entity hash with
      | some instance_ => leafValue (instance_.getField name)
      | none => .null
  | _, _ => .null

mutual

/-- The answer of a field that is entered at a moment, for one item. -/
def answerField (manager : EntityManager ε) (course : Nat → Moment ε) (entity : Option ε)
    (hash : Option UInt64) (moment : Nat) : AstField → Json
  | .leaf name _ => leafAt (course moment).cache entity hash name.value
  | .node name _ selectionSet =>
      match Visitor.resolve manager entity name.value with
      | none => .null
      | some target =>
          renderTarget manager target
            ((selected manager (course (moment + 1 + spanAll selectionSet)).cache target hash).map
              fun instance_ => .ofMembers
                (answerAll manager course target.getEntity (some instance_.hash) (moment + 1)
                  selectionSet))

/-- The answers of several fields. -/
def answerAll (manager : EntityManager ε) (course : Nat → Moment ε) (entity : Option ε)
    (hash : Option UInt64) (moment : Nat) : List AstField → List (Bytes × Json)
  | [] => []
  | field :: rest =>
      (field.responseKey, answerField manager course entity hash moment field) ::
        answerAll manager course entity hash (moment + span field) rest

end

/-! ## The response at the moments of the callbacks -/

/-- The members of an object to which one more is pushed: one that is there already
stays as it is. -/
def pushMember (members : List (Bytes × Json)) (member : Bytes × Json) : List (Bytes × Json) :=
  if member.1 ∈ members.map Prod.fst then members else members ++ [member]

/-- Members pushed one after the other. -/
def pushMembers (members pushed : List (Bytes × Json)) : List (Bytes × Json) :=
  pushed.foldl pushMember members

mutual

/-- The response to a field that is entered at a moment, for one item. -/
def respondField (manager : EntityManager ε) (course : Nat → Moment ε) (entity : Option ε)
    (hash : Option UInt64) (moment : Nat) : AstField → Json
  | .leaf name fieldAlias => leafAt (course moment).cache entity hash (fieldAlias.getD name).value
  | .node name _ selectionSet =>
      match Visitor.resolve manager entity name.value with
      | none => .null
      | some target =>
          renderTarget manager target
            ((selected manager (course (moment + 1 + spanAll selectionSet)).cache target hash).map
              fun instance_ => .ofMembers (pushMembers []
                (respondAll manager course target.getEntity (some instance_.hash) (moment + 1)
                  selectionSet)))

/-- The members that are pushed to an item, one for each field. -/
def respondAll (manager : EntityManager ε) (course : Nat → Moment ε) (entity : Option ε)
    (hash : Option UInt64) (moment : Nat) : List AstField → List (Bytes × Json)
  | [] => []
  | field :: rest =>
      (field.responseKey, respondField manager course entity hash moment field) ::
        respondAll manager course entity hash (moment + span field) rest

end

/-! ## Steady instances -/

/-- An instance of a hash is cached. -/
def Present (cache : Cache ε) (entity : Option ε) (hash : Option UInt64) : Prop :=
  ∃ target instance_, entity = some target ∧ instance_ ∈ cache.instances target ∧
    hash = some instance_.hash

/-- A field that is entered at a moment reads the item of a hash. -/
def ReadField (course : Nat → Moment ε) (entity : Option ε) (hash : Option UInt64)
    (moment : Nat) : AstField → Prop
  | .leaf _ _ => Present (course moment).cache entity hash
  | .node _ _ _ => True

/-- All leaves of a selection set find an instance of the hash. -/
def ReadAll (course : Nat → Moment ε) (entity : Option ε) (hash : Option UInt64) :
    Nat → List AstField → Prop
  | _, [] => True
  | moment, field :: rest =>
      ReadField course entity hash moment field ∧
        ReadAll course entity hash (moment + span field) rest

mutual

/-- Whenever a field is left, every instance that is cached then was cached when the
field was entered and when each of its leaves was visited. -/
def SteadyField (manager : EntityManager ε) (course : Nat → Moment ε) (entity : Option ε)
    (moment : Nat) : AstField → Prop
  | .leaf _ _ => True
  | .node name _ selectionSet =>
      ∀ target, Visitor.resolve manager entity name.value = some target →
        (∀ hash, Present (course (moment + 1 + spanAll selectionSet)).cache target.getEntity hash →
          Present (course moment).cache target.getEntity hash ∧
            ReadAll course target.getEntity hash (moment + 1) selectionSet) ∧
          SteadyAll manager course target.getEntity (moment + 1) selectionSet

/-- The same for several fields. -/
def SteadyAll (manager : EntityManager ε) (course : Nat → Moment ε) (entity : Option ε)
    (moment : Nat) : List AstField → Prop
  | [] => True
  | field :: rest =>
      SteadyField manager course entity moment field ∧
        SteadyAll manager course entity (moment + span field) rest

end

/-- The populations that a list of fields asks for return, each at its moment. -/
def PopulatedAll (manager : EntityManager ε) (course : Nat → Moment ε) (entity : Option ε)
    (moment : Nat) : List AstField → Prop
  | [] => True
  | field :: rest =>
      raised manager (course moment) entity field = none ∧
        PopulatedAll manager course entity (moment + span field) rest

/-- Below the root nothing is populated. -/
theorem raised_below {manager : EntityManager ε} {moment : Moment ε} (source : ε)
    (field : AstField) : raised manager moment (some source) field = none := by
  cases field with
  | leaf name fieldAlias => rfl
  | node name fieldAlias selectionSet => rfl

/-- Below the root nothing is populated. -/
theorem populatedAll_below {manager : EntityManager ε} {course : Nat → Moment ε} (source : ε)
    (fields : List AstField) {moment : Nat} :
    PopulatedAll manager course (some source) moment fields := by
  induction fields generalizing moment with
  | nil => trivial
  | cons field rest ih => exact ⟨raised_below source field, ih⟩

/-- Populations that raise nothing return. -/
theorem populatedAll_returning {manager : EntityManager ε} {course : Nat → Moment ε}
    {entity : Option ε} (fields : List AstField)
    (hreturns : ∀ moment target, (course moment).populate target = none) {moment : Nat} :
    PopulatedAll manager course entity moment fields := by
  induction fields generalizing moment with
  | nil => trivial
  | cons field rest ih =>
      refine ⟨?_, ih⟩
      cases field with
      | leaf name fieldAlias => rfl
      | node name fieldAlias selectionSet =>
          cases entity with
          | none =>
              apply Option.bind_eq_none_iff.mpr
              intro target _
              exact hreturns moment target
          | some source => rfl

/-! ## Quiet instances -/

/-- No instance of an entity appears between two moments; any may vanish. -/
def NoneAppears (course : Nat → Moment ε) (entity : Option ε) (first last : Nat) : Prop :=
  ∀ moment later, first ≤ moment → moment ≤ later → later ≤ last → ∀ hash,
    Present (course later).cache entity hash → Present (course moment).cache entity hash

mutual

/-- No instance appears of an entity while a field that leads to it is open. -/
def QuietField (manager : EntityManager ε) (course : Nat → Moment ε) (entity : Option ε)
    (moment : Nat) : AstField → Prop
  | .leaf _ _ => True
  | .node name _ selectionSet =>
      ∀ target, Visitor.resolve manager entity name.value = some target →
        NoneAppears course target.getEntity moment (moment + 1 + spanAll selectionSet) ∧
          QuietAll manager course target.getEntity (moment + 1) selectionSet

/-- The same for several fields. -/
def QuietAll (manager : EntityManager ε) (course : Nat → Moment ε) (entity : Option ε)
    (moment : Nat) : List AstField → Prop
  | [] => True
  | field :: rest =>
      QuietField manager course entity moment field ∧
        QuietAll manager course entity (moment + span field) rest

end

section

variable {manager : EntityManager ε} {course : Nat → Moment ε}

/-- A part of such a time is one. -/
theorem NoneAppears.mono {entity : Option ε} {first last start stop : Nat}
    (hnone : NoneAppears course entity first last) (hstart : first ≤ start)
    (hstop : stop ≤ last) : NoneAppears course entity start stop :=
  fun moment later hmoment hlater hlast =>
    hnone moment later (Nat.le_trans hstart hmoment) hlater (Nat.le_trans hlast hstop)

/-- The root has no instances. -/
theorem noneAppears_root (first last : Nat) : NoneAppears course none first last := by
  intro moment later _ _ _ hash hpresent
  obtain ⟨target, instance_, htarget, -⟩ := hpresent
  cases htarget

/-- Where none appears, each leaf finds the instances that are left in the end. -/
theorem readAll_of_noneAppears {entity : Option ε} {hash : Option UInt64} {last : Nat}
    (fields : List AstField) {moment : Nat} (hnone : NoneAppears course entity moment last)
    (hlast : moment + spanAll fields ≤ last)
    (hpresent : Present (course last).cache entity hash) :
    ReadAll course entity hash moment fields := by
  induction fields generalizing moment with
  | nil => trivial
  | cons field rest ih =>
      simp only [spanAll] at hlast
      refine ⟨?_, ih (hnone.mono (by omega) (Nat.le_refl _)) (by omega)⟩
      cases field with
      | leaf name fieldAlias =>
          exact hnone moment last (Nat.le_refl _) (by omega) (Nat.le_refl _) hash hpresent
      | node name fieldAlias selectionSet => trivial

mutual

/-- A quiet field is steady. -/
theorem QuietField.steady : (field : AstField) → {entity : Option ε} → {moment : Nat} →
    QuietField manager course entity moment field → SteadyField manager course entity moment field
  | .leaf _ _, _, _, _ => trivial
  | .node _ _ selectionSet, _, moment, hquiet => by
      intro target hresolve
      obtain ⟨hnone, hbelow⟩ := hquiet target hresolve
      refine ⟨?_, QuietAll.steady selectionSet hbelow⟩
      intro hash hpresent
      have hentered : moment ≤ moment + 1 + spanAll selectionSet := by omega
      refine ⟨hnone _ _ (Nat.le_refl _) hentered (Nat.le_refl _) _ hpresent, ?_⟩
      exact readAll_of_noneAppears selectionSet (hnone.mono (Nat.le_succ _) (Nat.le_refl _))
        (Nat.le_refl _) hpresent

/-- While no instance appears the instances are steady. -/
theorem QuietAll.steady : (fields : List AstField) → {entity : Option ε} → {moment : Nat} →
    QuietAll manager course entity moment fields → SteadyAll manager course entity moment fields
  | [], _, _, _ => trivial
  | field :: rest, _, _, hquiet =>
      ⟨QuietField.steady field hquiet.1, QuietAll.steady rest hquiet.2⟩

end

mutual

/-- In a fixed cache every field is quiet. -/
theorem quietField_fixed (cache : Cache ε) : (field : AstField) → {entity : Option ε} →
    {moment : Nat} → QuietField manager (fun _ => cache) entity moment field
  | .leaf _ _, _, _ => trivial
  | .node _ _ selectionSet, _, _ => by
      intro target _
      exact ⟨fun _ _ _ _ _ _ hpresent => hpresent, quietAll_fixed cache selectionSet⟩

/-- In a fixed cache nothing appears. -/
theorem quietAll_fixed (cache : Cache ε) : (fields : List AstField) → {entity : Option ε} →
    {moment : Nat} → QuietAll manager (fun _ => cache) entity moment fields
  | [], _, _ => trivial
  | field :: rest, _, _ => ⟨quietField_fixed cache field, quietAll_fixed cache rest⟩

end

end

/-! ## Items -/

/-- A member can be pushed: no exception is raised. -/
def Extensible : Json → Prop
  | .object _ | .array _ => True
  | _ => False

/-- A pair can be pushed into an object or null. -/
theorem pushPair_extensible {json : Json} (h : Extensible json ∨ json = .null) (key : Bytes)
    (value : Json) : ∃ pushed, pushPair json key value = .ok pushed ∧ Extensible pushed := by
  cases json with
  | null => exact ⟨_, rfl, trivial⟩
  | array values => exact ⟨_, rfl, trivial⟩
  | object members =>
      refine ⟨_, rfl, ?_⟩
      split
      · trivial
      · trivial
  | _ =>
      rcases h with hextensible | hnull
      · exact hextensible.elim
      · cases hnull

/-- The last member is set last. -/
theorem ofMembers_append (members : List (Bytes × Json)) (member : Bytes × Json) :
    Json.ofMembers (members ++ [member]) = (Json.ofMembers members).set member.1 member.2 := by
  unfold Json.ofMembers
  rw [List.foldl_append]
  rfl

/-- Members make an object. -/
theorem isObject_ofMembers (members : List (Bytes × Json)) :
    (Json.ofMembers members).isObject = true := by
  induction members using List.reverseRecOn with
  | nil => rfl
  | append_singleton members member ih =>
      rw [ofMembers_append]
      exact Json.isObject_set ih _ _

/-- A member is found where its key is. -/
theorem member_ofMembers_isSome {members : List (Bytes × Json)} {key : Bytes} :
    ((Json.ofMembers members).member key).isSome ↔ key ∈ members.map Prod.fst := by
  induction members using List.reverseRecOn with
  | nil => simp [Json.ofMembers, Json.member]
  | append_singleton members member ih =>
      rw [ofMembers_append, Json.member_set (isObject_ofMembers members), List.map_append,
        List.mem_append]
      by_cases hkey : key = member.1
      · simp [hkey]
      · rw [if_neg hkey, ih]
        simp [hkey]

/-- An object takes a member unless it has one of that key. -/
theorem pushPair_ofMembers (members : List (Bytes × Json)) (key : Bytes) (value : Json) :
    pushPair (Json.ofMembers members) key value =
      .ok (Json.ofMembers (pushMember members (key, value))) := by
  have hobject := isObject_ofMembers members
  have hhas := @member_ofMembers_isSome members key
  unfold pushMember
  cases hmembers : Json.ofMembers members with
  | object inner =>
      rw [hmembers, Json.member] at hhas
      simp only [pushPair]
      by_cases hkey : key ∈ members.map Prod.fst
      · rw [if_pos (hhas.mpr hkey), if_pos hkey, hmembers]
      · rw [if_neg (mt hhas.mp hkey), if_neg hkey, ofMembers_append, hmembers]
  | _ =>
      rw [hmembers] at hobject
      cases hobject

/-- The first member is pushed first. -/
theorem pushMembers_cons (members rest : List (Bytes × Json)) (member : Bytes × Json) :
    pushMembers members (member :: rest) = pushMembers (pushMember members member) rest := rfl

/-- Members that are pushed were there or are pushed. -/
theorem mem_pushMembers {members pushed : List (Bytes × Json)} {member : Bytes × Json}
    (hmem : member ∈ pushMembers members pushed) : member ∈ members ∨ member ∈ pushed := by
  induction pushed generalizing members with
  | nil => exact Or.inl hmem
  | cons first rest ih =>
      rcases ih hmem with hbefore | hrest
      · unfold pushMember at hbefore
        split at hbefore
        · exact Or.inl hbefore
        · rcases List.mem_append.mp hbefore with hold | hnew
          · exact Or.inl hold
          · exact Or.inr (List.mem_singleton.mp hnew ▸ List.mem_cons_self ..)
      · exact Or.inr (List.mem_cons_of_mem _ hrest)

/-- Members of different keys are all taken. -/
theorem pushMembers_of_nodup {members pushed : List (Bytes × Json)}
    (hlacks : ∀ member ∈ pushed, member.1 ∉ members.map Prod.fst)
    (hdistinct : (pushed.map Prod.fst).Nodup) : pushMembers members pushed = members ++ pushed := by
  induction pushed generalizing members with
  | nil => exact (List.append_nil members).symm
  | cons member rest ih =>
      obtain ⟨hmember, hrest⟩ := List.forall_mem_cons.mp hlacks
      obtain ⟨hother, hothers⟩ := List.nodup_cons.mp hdistinct
      have htaken : pushMember members member = members ++ [member] := if_neg hmember
      rw [pushMembers_cons, htaken, ih ?_ hothers, List.append_assoc, List.singleton_append]
      intro later hlater
      rw [List.map_append, List.mem_append, not_or]
      refine ⟨hrest later hlater, ?_⟩
      intro heq
      apply hother
      rw [← List.mem_singleton.mp heq]
      exact List.mem_map_of_mem hlater

/-! ## Items of a fragment -/

namespace Fragment

/-- Changing the item of a hash leaves the others as they are. -/
theorem modify_ok {fragment : Fragment} {hash : UInt64} {update : Json → Except Exception Json}
    (hextensible : ∀ entry ∈ fragment, Extensible entry.2)
    (hupdate : ∀ json, Extensible json ∨ json = .null →
      ∃ updated, update json = .ok updated ∧ Extensible updated) :
    ∃ modified, fragment.modify hash update = .ok modified ∧
      (∀ entry ∈ modified, Extensible entry.2) ∧
      (∀ key, key ≠ some hash → modified.lookup key = fragment.lookup key) ∧
      ∀ item, fragment.lookup (some hash) = some item →
        ∃ updated, update item = .ok updated ∧ modified.lookup (some hash) = some updated := by
  induction fragment with
  | nil =>
      obtain ⟨updated, hupdated, hitem⟩ := hupdate .null (Or.inr rfl)
      refine ⟨[(some hash, updated)], ?_, ?_, ?_, ?_⟩
      · rw [modify, hupdated]
        rfl
      · intro entry hmem
        rw [List.mem_singleton.mp hmem]
        exact hitem
      · intro key hkey
        rw [List.lookup_cons, beq_eq_false_iff_ne.mpr hkey]
      · intro item hlookup
        cases hlookup
  | cons entry rest ih =>
      obtain ⟨key, item⟩ := entry
      obtain ⟨hfirst, hrest⟩ := List.forall_mem_cons.mp hextensible
      by_cases hkey : key = some hash
      · obtain ⟨updated, hupdated, hitem⟩ := hupdate item (Or.inl hfirst)
        refine ⟨(key, updated) :: rest, ?_, ?_, ?_, ?_⟩
        · rw [modify, if_pos hkey, hupdated]
          rfl
        · exact List.forall_mem_cons.mpr ⟨hitem, hrest⟩
        · intro other hother
          have hne : (other == key) = false := beq_eq_false_iff_ne.mpr (hkey ▸ hother)
          rw [List.lookup_cons, List.lookup_cons, hne]
        · intro old hlookup
          have hself : (some hash == key) = true := beq_iff_eq.mpr hkey.symm
          rw [List.lookup_cons, hself] at hlookup
          rw [List.lookup_cons, hself]
          exact ⟨updated, Option.some.inj hlookup ▸ hupdated, rfl⟩
      · obtain ⟨modified, hmodified, hitems, hothers, hown⟩ := ih hrest
        have hself : (some hash == key) = false := beq_eq_false_iff_ne.mpr (Ne.symm hkey)
        refine ⟨(key, item) :: modified, ?_, ?_, ?_, ?_⟩
        · rw [modify, if_neg hkey, hmodified]
          rfl
        · exact List.forall_mem_cons.mpr ⟨hfirst, hitems⟩
        · intro other hother
          rw [List.lookup_cons, List.lookup_cons, hothers other hother]
        · intro old hlookup
          rw [List.lookup_cons, hself] at hlookup
          rw [List.lookup_cons, hself]
          exact hown old hlookup

end Fragment

/-- The items of a builder: for the hashes that are live the objects with the members
collected so far. -/
structure Carries (fragment : Fragment) (live : Option UInt64 → Prop)
    (members : Option UInt64 → List (Bytes × Json)) : Prop where
  item : ∀ hash, live hash → fragment.lookup hash = some (.ofMembers (members hash))
  extensible : ∀ entry ∈ fragment, Extensible entry.2

variable {manager : EntityManager ε} {course : Nat → Moment ε} {cache : Cache ε}

/-- A leaf is pushed to the items of all instances, one after the other. -/
private theorem pushLeaves_ok (fieldName : Bytes) {instances : List Instance}
    {fragment : Fragment} (hextensible : ∀ entry ∈ fragment, Extensible entry.2)
    (hdistinct : instances.Pairwise fun a b => a.hash < b.hash) :
    ∃ pushed, instances.foldlM (fun (fragment : Fragment) instance_ =>
        fragment.modify instance_.hash fun jsonObject =>
          pushPair jsonObject fieldName (leafValue (instance_.getField fieldName))) fragment =
        .ok pushed ∧
      (∀ entry ∈ pushed, Extensible entry.2) ∧
      (∀ key, (∀ instance_ ∈ instances, key ≠ some instance_.hash) →
        pushed.lookup key = fragment.lookup key) ∧
      ∀ instance_ ∈ instances, ∀ item, fragment.lookup (some instance_.hash) = some item →
        ∃ updated, pushPair item fieldName (leafValue (instance_.getField fieldName)) =
          .ok updated ∧ pushed.lookup (some instance_.hash) = some updated := by
  induction instances generalizing fragment with
  | nil =>
      refine ⟨fragment, rfl, hextensible, fun _ _ => rfl, ?_⟩
      intro instance_ hmem
      exact absurd hmem List.not_mem_nil
  | cons first rest ih =>
      obtain ⟨hlater, hrest⟩ := List.pairwise_cons.mp hdistinct
      obtain ⟨modified, hmodified, hitems, hothers, hown⟩ :=
        Fragment.modify_ok hextensible fun json hjson =>
          pushPair_extensible hjson fieldName (leafValue (first.getField fieldName))
      obtain ⟨pushed, hpushed, hpushedItems, huntouched, htouched⟩ := ih hitems hrest
      refine ⟨pushed, ?_, hpushedItems, ?_, ?_⟩
      · rw [List.foldlM_cons, hmodified]
        exact hpushed
      · intro key hkey
        obtain ⟨hfirst, hkeys⟩ := List.forall_mem_cons.mp hkey
        rw [huntouched key hkeys, hothers key hfirst]
      · intro instance_ hmem item hlookup
        rcases List.mem_cons.mp hmem with hfirst | hinstance
        · subst hfirst
          obtain ⟨updated, hupdated, hnow⟩ := hown item hlookup
          refine ⟨updated, hupdated, ?_⟩
          rw [huntouched _ ?_, hnow]
          intro other hother heq
          exact UInt64.ne_of_lt (hlater other hother) (Option.some.inj heq)
        · have hne : some instance_.hash ≠ some first.hash := by
            intro heq
            exact UInt64.ne_of_lt (hlater instance_ hinstance) (Option.some.inj heq).symm
          exact htouched instance_ hinstance item (hothers _ hne ▸ hlookup)

/-- A leaf extends the items of the live instances that are cached at its moment. -/
theorem supplement_carries {builder : GqlObjectBuild ε} {entity : ε} {fieldName : Bytes}
    {live : Option UInt64 → Prop} {members : Option UInt64 → List (Bytes × Json)}
    (hentity : builder.getEntity = some entity) (hmember : fieldName ∈ manager.members entity)
    (hcarries : Carries builder.fragment live members) :
    ∃ fragment, builder.supplement manager cache fieldName = .ok { builder with fragment } ∧
      Carries fragment (fun hash => live hash ∧ Present cache (some entity) hash)
        fun hash => pushMember (members hash)
          (fieldName, leafAt cache (some entity) hash fieldName) := by
  obtain ⟨pushed, hpushed, hitems, -, htouched⟩ :=
    pushLeaves_ok fieldName hcarries.extensible (cache.ordered entity)
  refine ⟨pushed, ?_, ?_, hitems⟩
  · unfold GqlObjectBuild.supplement
    rw [hentity]
    simp only [if_pos hmember, Cache.getInstances_nil, catching, bind, Except.bind]
    rw [hpushed]
    rfl
  · intro hash hboth
    obtain ⟨hlive, target, instance_, htarget, hinstance, hhash⟩ := hboth
    cases htarget
    subst hhash
    obtain ⟨updated, hupdated, hnow⟩ :=
      htouched instance_ hinstance _ (hcarries.item _ hlive)
    rw [pushPair_ofMembers] at hupdated
    rw [hnow, ← Except.ok.inj hupdated, leafAt,
      Cache.getInstance_eq_some_iff.mpr ⟨hinstance, rfl⟩]

/-- Each instance has an empty object at first. -/
private theorem lookup_emptyItems {instances : List Instance} {instance_ : Instance}
    (hmem : instance_ ∈ instances) :
    (instances.map fun instance_ => (some instance_.hash, Json.object [])).lookup
      (some instance_.hash) = some (.object []) := by
  induction instances with
  | nil => exact absurd hmem List.not_mem_nil
  | cons first rest ih =>
      rw [List.map_cons, List.lookup_cons]
      by_cases hfirst : some instance_.hash = some first.hash
      · rw [beq_iff_eq.mpr hfirst]
      · rw [beq_eq_false_iff_ne.mpr hfirst]
        apply ih
        apply (List.mem_cons.mp hmem).resolve_left
        intro heq
        exact hfirst (congrArg (fun instance_ => some instance_.hash) heq)

/-- A new builder has an object for each instance. -/
theorem construct_carries (cache : Cache ε) (objectName : Bytes) {target : Target ε} {entity : ε}
    (hentity : target.getEntity = some entity) :
    ∃ fragment, GqlObjectBuild.construct cache objectName target =
        .ok { name := objectName, target, fragment } ∧
      Carries fragment (Present cache (some entity)) fun _ => [] := by
  let fragment : Fragment :=
    (cache.instances entity).map fun instance_ => (some instance_.hash, .object [])
  refine ⟨fragment, ?_, ?_, ?_⟩
  · unfold GqlObjectBuild.construct
    rw [hentity]
    simp only [Cache.getInstances_nil]
    rfl
  · intro hash hpresent
    obtain ⟨other, instance_, hother, hinstance, hhash⟩ := hpresent
    cases hother
    subst hhash
    exact lookup_emptyItems hinstance
  · intro entry hmem
    obtain ⟨instance_, -, rfl⟩ := List.mem_map.mp hmem
    trivial

/-! ## What is selected when a field is left -/

/-- A relation of a target is one of its source. -/
def Target.Declared (manager : EntityManager ε) : Target ε → Prop
  | .relation source link => link ∈ manager.relations source
  | _ => True

/-- A target that is found is declared. -/
theorem declared_of_resolve {entity : Option ε} {fieldName : Bytes} {target : Target ε}
    (h : Visitor.resolve manager entity fieldName = some target) :
    target.Declared manager ∧ ∃ destination, target.getEntity = some destination := by
  cases entity with
  | none =>
      obtain ⟨destination, -, rfl⟩ := Option.map_eq_some_iff.mp h
      exact ⟨trivial, destination, rfl⟩
  | some source =>
      obtain ⟨link, hlink, rfl⟩ := Option.map_eq_some_iff.mp h
      exact ⟨Schema.mem_relations_of_getRelation hlink, _, rfl⟩

/-- The selection is made without an exception, and among what is cached. -/
private theorem selectInstances_cached (hcomparable : Comparable manager.toSchema cache)
    {target : Target ε} {entity : ε} (hdeclared : target.Declared manager)
    (hentity : target.getEntity = some entity) (hash : Option UInt64) :
    ∃ instances, GqlObjectBuild.selectInstances manager cache target hash = .ok instances ∧
      ∀ instance_ ∈ instances, instance_ ∈ cache.instances entity := by
  cases target with
  | root => cases hentity
  | entity destination =>
      cases hentity
      exact ⟨_, Cache.getInstances_nil, fun _ hmem => hmem⟩
  | relation source link =>
      cases hentity
      cases hash with
      | none => exact ⟨_, Cache.getInstances_nil, fun _ hmem => hmem⟩
      | some hash =>
          obtain ⟨conditions, instances, hconditions, hinstances⟩ :=
            getConditions_getInstances_ok hcomparable hdeclared hash
          refine ⟨instances, ?_, ?_⟩
          · simp only [GqlObjectBuild.selectInstances, hconditions]
            exact hinstances
          · intro instance_ hmem
            exact ((Cache.mem_getInstances hinstances instance_).mp hmem).1

/-- The instances of a target can be selected. -/
theorem selectInstances_ok (hcomparable : Comparable manager.toSchema cache) {target : Target ε}
    {entity : ε} (hdeclared : target.Declared manager) (hentity : target.getEntity = some entity)
    (hash : Option UInt64) :
    GqlObjectBuild.selectInstances manager cache target hash =
      .ok (selected manager cache target hash) := by
  obtain ⟨instances, hinstances, -⟩ := selectInstances_cached hcomparable hdeclared hentity hash
  rw [selected, hinstances]
  rfl

theorem mem_instances_of_selected (hcomparable : Comparable manager.toSchema cache)
    {target : Target ε} {entity : ε} (hdeclared : target.Declared manager)
    (hentity : target.getEntity = some entity) {hash : Option UInt64} {instance_ : Instance}
    (hmem : instance_ ∈ selected manager cache target hash) :
    instance_ ∈ cache.instances entity := by
  obtain ⟨instances, hinstances, hcached⟩ :=
    selectInstances_cached hcomparable hdeclared hentity hash
  rw [selected, hinstances] at hmem
  exact hcached instance_ hmem

/-- The objects of the instances in their order. -/
private theorem mapM_atHash {fragment : Fragment} {instances : List Instance}
    {object : Instance → Json}
    (hitems : ∀ instance_ ∈ instances,
      fragment.lookup (some instance_.hash) = some (object instance_)) :
    (instances.mapM fun instance_ => fragment.atHash instance_.hash) =
      .ok (instances.map object) := by
  induction instances with
  | nil => rfl
  | cons first rest ih =>
      obtain ⟨hfirst, hrest⟩ := List.forall_mem_cons.mp hitems
      have hatHash : fragment.atHash first.hash = .ok (object first) := by
        rw [Fragment.atHash, hfirst]
      rw [List.mapM_cons, ih hrest]
      simp only [hatHash]
      rfl

/-- The selected instances are put together from their items. -/
theorem getFragment_ok (hcomparable : Comparable manager.toSchema cache)
    (builder : GqlObjectBuild ε) {entity : ε} (hdeclared : builder.target.Declared manager)
    (hentity : builder.getEntity = some entity) {hash : Option UInt64} (object : Instance → Json)
    (hitems : ∀ instance_ ∈ selected manager cache builder.target hash,
      builder.fragment.lookup (some instance_.hash) = some (object instance_)) :
    builder.getFragment manager cache hash =
      .ok (render (manager.type entity)
        ((selected manager cache builder.target hash).map object)) := by
  have hbuilt := mapM_atHash hitems
  have hsingle : ∀ instance_, selected manager cache builder.target hash = [instance_] →
      builder.fragment.atHash instance_.hash = .ok (object instance_) := by
    intro instance_ hone
    rw [Fragment.atHash, hitems instance_ (hone ▸ List.mem_singleton_self _)]
  unfold GqlObjectBuild.getFragment
  rw [hentity]
  simp only [selectInstances_ok hcomparable hdeclared hentity hash, catching, bind, Except.bind]
  generalize selected manager cache builder.target hash = objects at hitems hbuilt hsingle
  unfold render
  cases objects with
  | nil =>
      cases decide (manager.type entity = EntityType.array) with
      | true => rfl
      | false => rfl
  | cons first rest =>
      cases rest with
      | nil =>
          cases decide (manager.type entity = EntityType.array) with
          | true =>
              simp only [hbuilt]
              rfl
          | false =>
              simp only [hsingle first rfl]
              rfl
      | cons second others =>
          simp only [hbuilt]
          rfl

/-! ## Leaving a field -/

/-- The objects of a child are pushed into those of its parent. -/
private theorem pushChildren_ok {fragment : Fragment} {live : Option UInt64 → Prop}
    {members : Option UInt64 → List (Bytes × Json)} (hcarries : Carries fragment live members)
    {fieldName : Bytes} {children : Option UInt64 → Except Exception Json}
    {answer : Option UInt64 → Json}
    (hchildren : ∀ hash, children hash = .ok (answer hash)) :
    ∃ pushed, (fragment.mapM fun (hash, item) => do
        let childJsonNode ← children hash
        let item ← pushPair item fieldName childJsonNode
        return (hash, item)) = Except.ok pushed ∧
      pushed.map Prod.fst = fragment.map Prod.fst ∧
      Carries pushed live fun hash => pushMember (members hash) (fieldName, answer hash) := by
  obtain ⟨hitem, hextensible⟩ := hcarries
  induction fragment generalizing live with
  | nil =>
      refine ⟨[], rfl, rfl, ?_, ?_⟩
      · intro hash hlive
        cases hitem hash hlive
      · intro entry hmem
        exact absurd hmem List.not_mem_nil
  | cons entry rest ih =>
      obtain ⟨key, item⟩ := entry
      obtain ⟨hfirst, hrest⟩ := List.forall_mem_cons.mp hextensible
      obtain ⟨updated, hupdated, hupdatedExtensible⟩ :=
        pushPair_extensible (Or.inl hfirst) fieldName (answer key)
      have hlater : ∀ hash, live hash ∧ hash ≠ key →
          rest.lookup hash = some (.ofMembers (members hash)) := by
        intro hash hboth
        have hlookup := hitem hash hboth.1
        rwa [List.lookup_cons, beq_eq_false_iff_ne.mpr hboth.2] at hlookup
      obtain ⟨pushed, hpushed, hkeys, hcarried⟩ := ih hlater hrest
      refine ⟨(key, updated) :: pushed, ?_, ?_, ?_, ?_⟩
      · rw [List.mapM_cons, hpushed]
        simp only [hchildren, bind, Except.bind, hupdated]
        rfl
      · rw [List.map_cons, List.map_cons, hkeys]
      · intro hash hlive
        rw [List.lookup_cons]
        by_cases hkey : hash = key
        · subst hkey
          have hlookup := hitem hash hlive
          rw [List.lookup_cons, beq_self_eq_true] at hlookup
          rw [Option.some.inj hlookup, pushPair_ofMembers] at hupdated
          rw [beq_self_eq_true, Except.ok.inj hupdated]
        · rw [beq_eq_false_iff_ne.mpr hkey]
          exact hcarried.item hash ⟨hlive, hkey⟩
      · exact List.forall_mem_cons.mpr ⟨hupdatedExtensible, hcarried.extensible⟩

/-- Leaving a field adds to every item of the parent what the child holds for it. -/
theorem supplementChild_carries {parent child : GqlObjectBuild ε} {live : Option UInt64 → Prop}
    {members : Option UInt64 → List (Bytes × Json)}
    (hcarries : Carries parent.fragment live members) {fieldName : Bytes}
    {answer : Option UInt64 → Json}
    (hchild : ∀ hash, child.getFragment manager cache hash = .ok (answer hash)) :
    ∃ fragment, parent.supplementChild manager cache fieldName child =
        .ok { parent with fragment } ∧
      fragment.map Prod.fst = parent.fragment.map Prod.fst ∧
      Carries fragment live fun hash => pushMember (members hash) (fieldName, answer hash) := by
  obtain ⟨pushed, hpushed, hkeys, hcarried⟩ := pushChildren_ok hcarries hchild
  refine ⟨pushed, ?_, hkeys, hcarried⟩
  unfold GqlObjectBuild.supplementChild
  rw [hpushed]
  rfl

/-! ## The current builder -/

/-- What returns was not caught. -/
private theorem catching_ok {α : Type} {handler : Exception → Exception}
    {result : Except Exception α} {value : α} (h : catching handler result = .ok value) :
    result = .ok value := by
  cases result with
  | error exception => cases h
  | ok found => exact h

/-- A leaf changes the fragment alone. -/
theorem supplement_ok {builder next : GqlObjectBuild ε} {fieldName : Bytes}
    (h : builder.supplement manager cache fieldName = .ok next) :
    ∃ fragment, next = { builder with fragment } := by
  unfold GqlObjectBuild.supplement at h
  split at h
  · cases h
  · have hcaught := catching_ok h
    split at hcaught
    · obtain ⟨instances, -, hpushed⟩ := bind_eq_ok.mp hcaught
      obtain ⟨fragment, -, hnext⟩ := bind_eq_ok.mp hpushed
      exact ⟨fragment, (Except.ok.inj hnext).symm⟩
    · cases hcaught

/-- A child changes the fragment alone. -/
theorem supplementChild_ok {builder child next : GqlObjectBuild ε} {fieldName : Bytes}
    (h : builder.supplementChild manager cache fieldName child = .ok next) :
    ∃ fragment, next = { builder with fragment } := by
  unfold GqlObjectBuild.supplementChild at h
  obtain ⟨fragment, -, hnext⟩ := bind_eq_ok.mp h
  exact ⟨fragment, (Except.ok.inj hnext).symm⟩

/-- A callback that returns takes a moment. -/
theorem callback_ok {action : Moment ε → Visitor ε → Except Exception (Visitor ε)}
    {visitor next : Visitor ε} (h : callback course action visitor = .ok next) :
    ∃ acted, action (course visitor.clock) visitor = .ok acted ∧
      next = { acted with clock := visitor.clock + 1 } := by
  unfold callback at h
  cases hacted : action (course visitor.clock) visitor with
  | error exception =>
      rw [hacted] at h
      cases h
  | ok acted =>
      rw [hacted] at h
      cases h
      exact ⟨acted, rfl, rfl⟩

/-- A callback returns where its action does. -/
theorem callback_of_ok {action : Moment ε → Visitor ε → Except Exception (Visitor ε)}
    {visitor acted : Visitor ε} (h : action (course visitor.clock) visitor = .ok acted) :
    callback course action visitor = .ok { acted with clock := visitor.clock + 1 } := by
  unfold callback
  rw [h]

/-- A callback raises where its action does. -/
theorem callback_of_error {action : Moment ε → Visitor ε → Except Exception (Visitor ε)}
    {visitor : Visitor ε} {exception : Exception}
    (h : action (course visitor.clock) visitor = .error exception) :
    callback course action visitor =
      .error (exception, { visitor with clock := visitor.clock + 1 }) := by
  unfold callback
  rw [h]

/-- The visitor with the same builders and more in the current one. -/
def Visitor.extended (visitor : Visitor ε) (fragment : Fragment) (callbacks : Nat) : Visitor ε :=
  { visitor with
    current := { visitor.current with fragment }
    clock := visitor.clock + callbacks }

/-- Entering a field makes its builder current, with that before as the parent. -/
theorem visitField_node_ok {fieldName : Name} {fieldAlias : Option Name}
    {selectionSet : List AstField} {moment : Moment ε} {visitor next : Visitor ε}
    (h : visitor.visitField manager (.node fieldName fieldAlias selectionSet) moment = .ok next) :
    next.parents = visitor.current :: visitor.parents := by
  obtain ⟨target, -, hconstructed⟩ := bind_eq_ok.mp (catching_ok h)
  obtain ⟨child, -, hnext⟩ := bind_eq_ok.mp hconstructed
  obtain rfl := Except.ok.inj hnext
  rfl

mutual

/-- After a field the builder before it is current again, with the same parents. -/
theorem acceptField_ok : (field : AstField) → {visitor next : Visitor ε} →
    acceptField manager course field visitor = .ok next →
    ∃ fragment, next = visitor.extended fragment (span field)
  | .leaf fieldName fieldAlias, visitor, next, h => by
      unfold acceptField at h
      obtain ⟨visited, hvisit, hleave⟩ := bind_eq_ok.mp h
      obtain ⟨supplemented, hsupplemented, rfl⟩ := callback_ok hvisit
      obtain ⟨left, hleft, rfl⟩ := callback_ok hleave
      obtain ⟨current, hcurrent, hacted⟩ := bind_eq_ok.mp hsupplemented
      obtain ⟨fragment, rfl⟩ := supplement_ok hcurrent
      cases hacted
      cases hleft
      exact ⟨fragment, rfl⟩
  | .node fieldName fieldAlias selectionSet, visitor, next, h => by
      unfold acceptField at h
      obtain ⟨entered, hvisit, hrest⟩ := bind_eq_ok.mp h
      obtain ⟨filled, haccept, hleave⟩ := bind_eq_ok.mp hrest
      obtain ⟨child, hchild, rfl⟩ := callback_ok hvisit
      obtain ⟨selection, rfl⟩ := acceptAll_ok selectionSet haccept
      obtain ⟨left, hleft, rfl⟩ := callback_ok hleave
      unfold Visitor.endVisitField at hleft
      simp only [Visitor.extended, visitField_node_ok hchild] at hleft
      obtain ⟨current, hcurrent, hacted⟩ := bind_eq_ok.mp hleft
      obtain ⟨fragment, rfl⟩ := supplementChild_ok hcurrent
      cases hacted
      refine ⟨fragment, ?_⟩
      simp only [Visitor.extended, span]
      congr 1
      omega

/-- Fields that are visited change the fragment and the time alone. -/
theorem acceptAll_ok : (fields : List AstField) → {visitor next : Visitor ε} →
    acceptAll manager course fields visitor = .ok next →
    ∃ fragment, next = visitor.extended fragment (spanAll fields)
  | [], visitor, next, h => by
      cases h
      exact ⟨visitor.current.fragment, rfl⟩
  | field :: rest, visitor, next, h => by
      unfold acceptAll at h
      obtain ⟨first, hfirst, hrest⟩ := bind_eq_ok.mp h
      obtain ⟨before, rfl⟩ := acceptField_ok field hfirst
      obtain ⟨fragment, rfl⟩ := acceptAll_ok rest hrest
      refine ⟨fragment, ?_⟩
      simp only [Visitor.extended, spanAll, Nat.add_assoc]

end

/-! ## One field and a whole query -/

section

variable {visitor : Visitor ε} {entity : Option ε} {live : Option UInt64 → Prop}
  {members : Option UInt64 → List (Bytes × Json)}

/-- Fewer instances are carried as well. -/
theorem Carries.mono {fragment : Fragment} {fewer : Option UInt64 → Prop}
    (hcarries : Carries fragment live members) (h : ∀ hash, fewer hash → live hash) :
    Carries fragment fewer members :=
  ⟨fun hash hfewer => hcarries.item hash (h hash hfewer), hcarries.extensible⟩

/-- A visitor whose builder of an entity carries members. -/
structure Visiting (visitor : Visitor ε) (entity : Option ε) (live : Option UInt64 → Prop)
    (members : Option UInt64 → List (Bytes × Json)) : Prop where
  entity : visitor.current.getEntity = entity
  carries : Carries visitor.current.fragment live members

/-- A part of the query is visited without an exception, and its answer is added to
all items.  The root keeps its one item. -/
def Answered (visitor : Visitor ε) (entity : Option ε)
    (result : Except (Exception × Visitor ε) (Visitor ε)) (callbacks : Nat)
    (live : Option UInt64 → Prop) (members : Option UInt64 → List (Bytes × Json)) : Prop :=
  ∃ fragment, result = .ok (visitor.extended fragment callbacks) ∧
    Carries fragment live members ∧
    (entity = none → fragment.map Prod.fst = visitor.current.fragment.map Prod.fst)

/-- A leaf that is read is answered. -/
theorem Visiting.leaf {fieldName : Name} {fieldAlias : Option Name}
    (hvisiting : Visiting visitor entity live members)
    (hreadable : ReadableField manager entity (.leaf fieldName fieldAlias)) :
    Answered visitor entity (acceptField manager course (.leaf fieldName fieldAlias) visitor) 2
      (fun hash => live hash ∧ Present (course visitor.clock).cache entity hash)
      fun hash => pushMember (members hash) ((fieldAlias.getD fieldName).value,
        leafAt (course visitor.clock).cache entity hash (fieldAlias.getD fieldName).value) := by
  obtain ⟨target, htarget, hmember⟩ := hreadable
  subst htarget
  obtain ⟨fragment, hsupplement, hcarries⟩ :=
    supplement_carries hvisiting.entity hmember hvisiting.carries
  refine ⟨fragment, ?_, hcarries, ?_⟩
  · have hvisit : visitor.visitField manager (.leaf fieldName fieldAlias)
        (course visitor.clock) =
          .ok { visitor with current := { visitor.current with fragment } } := by
      unfold Visitor.visitField
      dsimp only
      rw [hsupplement]
      rfl
    unfold acceptField
    dsimp only
    rw [callback_of_ok hvisit]
    rfl
  · intro hnone
    cases hnone

/-- The visitor responds to a selection set, whatever it has collected before. -/
def RespondsAll (manager : EntityManager ε) (course : Nat → Moment ε) (fields : List AstField) :
    Prop :=
  ∀ (visitor : Visitor ε) (entity : Option ε) (live : Option UInt64 → Prop)
    (members : Option UInt64 → List (Bytes × Json)),
    Visiting visitor entity live members → ReadableAll manager entity fields →
    SteadyAll manager course entity visitor.clock fields →
    PopulatedAll manager course entity visitor.clock fields →
    Answered visitor entity (acceptAll manager course fields visitor) (spanAll fields)
      (fun hash => live hash ∧ ReadAll course entity hash visitor.clock fields)
      fun hash => pushMembers (members hash)
        (respondAll manager course entity hash visitor.clock fields)

/-- The visitor with a builder for a field. -/
def Visitor.entered (visitor : Visitor ε) (fieldName : Name) (fieldAlias : Option Name)
    (target : Target ε) (fragment : Fragment) : Visitor ε where
  current := {
    name := fieldName.value
    target := target
    fragment := fragment
    fieldAlias := fieldAlias.map Name.value }
  parents := visitor.current :: visitor.parents
  clock := visitor.clock + 1

/-- A field that leads to an entity is entered: its builder has an empty object for
each cached instance. -/
theorem visitField_entered (hentity : visitor.current.getEntity = entity) {fieldName : Name}
    (fieldAlias : Option Name) (selectionSet : List AstField) {target : Target ε}
    (hresolve : Visitor.resolve manager entity fieldName.value = some target)
    (hraised : raised manager (course visitor.clock) entity
      (.node fieldName fieldAlias selectionSet) = none) :
    ∃ empty, callback course
        (Visitor.visitField manager (.node fieldName fieldAlias selectionSet)) visitor =
          .ok (visitor.entered fieldName fieldAlias target empty) ∧
      Carries empty (Present (course visitor.clock).cache target.getEntity) fun _ => [] := by
  obtain ⟨-, destination, hdestination⟩ := declared_of_resolve hresolve
  obtain ⟨empty, hconstruct, hempty⟩ :=
    construct_carries (course visitor.clock).cache fieldName.value hdestination
  refine ⟨empty, ?_, hdestination ▸ hempty⟩
  have hacted : visitor.visitField manager (.node fieldName fieldAlias selectionSet)
      (course visitor.clock) = .ok { visitor.entered fieldName fieldAlias target empty with
        clock := visitor.clock } := by
    unfold Visitor.visitField
    simp only [hentity, findTarget_of_resolve hresolve hraised, hconstruct, catching, bind,
      Except.bind]
    rfl
  exact callback_of_ok hacted

/-- A field with a selection is answered if its selection is. -/
theorem Visiting.node (hcomparable : ∀ moment, Comparable manager.toSchema (course moment).cache)
    {fieldName : Name} {fieldAlias : Option Name} {selectionSet : List AstField}
    (hbelow : RespondsAll manager course selectionSet)
    (hvisiting : Visiting visitor entity live members)
    (hreadable : ReadableField manager entity (.node fieldName fieldAlias selectionSet))
    (hsteady : SteadyField manager course entity visitor.clock
      (.node fieldName fieldAlias selectionSet))
    (hraised : raised manager (course visitor.clock) entity
      (.node fieldName fieldAlias selectionSet) = none) :
    Answered visitor entity
      (acceptField manager course (.node fieldName fieldAlias selectionSet) visitor)
      (spanAll selectionSet + 2) live
      fun hash => pushMember (members hash) ((fieldAlias.getD fieldName).value,
        respondField manager course entity hash visitor.clock
          (.node fieldName fieldAlias selectionSet)) := by
  obtain ⟨target, hresolve, hselectionReadable⟩ := hreadable
  obtain ⟨hdeclared, destination, hdestination⟩ := declared_of_resolve hresolve
  obtain ⟨hkept, hselectionSteady⟩ := hsteady target hresolve
  obtain ⟨empty, hvisit, hempty⟩ :=
    visitField_entered hvisiting.entity fieldAlias selectionSet hresolve hraised
  let entered : Visitor ε := visitor.entered fieldName fieldAlias target empty
  -- The fields below it are visited.
  have hchildVisiting : Visiting entered target.getEntity
      (Present (course visitor.clock).cache target.getEntity) fun _ => [] :=
    ⟨rfl, hempty⟩
  have hselectionPopulated : PopulatedAll manager course target.getEntity (visitor.clock + 1)
      selectionSet := by
    rw [hdestination]
    exact populatedAll_below destination selectionSet
  obtain ⟨filled, haccept, hfilled, -⟩ := hbelow entered _ _ _ hchildVisiting
    hselectionReadable hselectionSteady hselectionPopulated
  -- It is left: what is selected then was there during the whole visit.
  let left : Visitor ε := entered.extended filled (spanAll selectionSet)
  have hchild : ∀ hash, left.current.getFragment manager (course left.clock).cache hash =
      .ok (respondField manager course entity hash visitor.clock
        (.node fieldName fieldAlias selectionSet)) := by
    intro hash
    have hcomparableNow := hcomparable left.clock
    let object : Instance → Json := fun instance_ => .ofMembers (pushMembers [] (respondAll manager
      course target.getEntity (some instance_.hash) (visitor.clock + 1) selectionSet))
    have hitems : ∀ instance_ ∈ selected manager (course left.clock).cache left.current.target hash,
        left.current.fragment.lookup (some instance_.hash) = some (object instance_) := by
      intro instance_ hmem
      have hcached := mem_instances_of_selected hcomparableNow hdeclared hdestination hmem
      exact hfilled.item _ (hkept _ ⟨destination, instance_, hdestination, hcached, rfl⟩)
    have hrender : ∀ objects, renderTarget manager target objects =
        render (manager.type destination) objects := by
      intro objects
      rw [renderTarget, hdestination]
    rw [getFragment_ok hcomparableNow left.current hdeclared hdestination object hitems,
      respondField, hresolve]
    simp only [hrender]
    rfl
  obtain ⟨fragment, hsupplement, hkeys, hcarries⟩ :=
    supplementChild_carries hvisiting.carries hchild
  refine ⟨fragment, ?_, hcarries, fun _ => hkeys⟩
  have hname : left.current.getFieldName = (fieldAlias.getD fieldName).value := by
    cases fieldAlias with
    | none => rfl
    | some fieldAlias => rfl
  have hacted : left.endVisitField manager (.node fieldName fieldAlias selectionSet)
      (course left.clock) =
        .ok { left with
          current := { visitor.current with fragment }, parents := visitor.parents } := by
    unfold Visitor.endVisitField
    have hparents : left.parents = visitor.current :: visitor.parents := rfl
    simp only [hparents, hname, hsupplement, bind, Except.bind]
    rfl
  unfold acceptField
  dsimp only
  rw [hvisit]
  simp only [bind, Except.bind]
  rw [haccept]
  have hclock : visitor.clock + 1 + spanAll selectionSet + 1 =
      visitor.clock + (spanAll selectionSet + 2) := by
    omega
  have hleft := callback_of_ok hacted
  simp only [Visitor.extended, ← hclock]
  exact hleft

end

/-! ## Fields and whole queries -/

mutual

/-- One field adds its response to the items of the builder before it. -/
theorem acceptField_responds (hcomparable : ∀ moment, Comparable manager.toSchema (course moment).cache) :
    (field : AstField) → {visitor : Visitor ε} → {entity : Option ε} → {live : Option UInt64 → Prop} →
    {members : Option UInt64 → List (Bytes × Json)} →
    Visiting visitor entity live members → ReadableField manager entity field →
    SteadyField manager course entity visitor.clock field →
    raised manager (course visitor.clock) entity field = none →
    Answered visitor entity (acceptField manager course field visitor) (span field)
      (fun hash => live hash ∧ ReadField course entity hash visitor.clock field)
      fun hash => pushMember (members hash)
        (field.responseKey, respondField manager course entity hash visitor.clock field)
  | .leaf fieldName fieldAlias, visitor, entity, live, members, hvisiting, hreadable, _, _ =>
      hvisiting.leaf hreadable
  | .node fieldName fieldAlias selectionSet, visitor, entity, live, members, hvisiting, hreadable,
      hsteady, hraised => by
      have hbelow : RespondsAll manager course selectionSet :=
        acceptAll_responds hcomparable selectionSet
      obtain ⟨fragment, hresult, hcarries, hkeys⟩ :=
        hvisiting.node hcomparable hbelow hreadable hsteady hraised
      exact ⟨fragment, hresult, hcarries.mono fun _ hboth => hboth.1, hkeys⟩

/-- Fields are answered one after the other. -/
theorem acceptAll_responds (hcomparable : ∀ moment, Comparable manager.toSchema (course moment).cache) :
    (fields : List AstField) → RespondsAll manager course fields
  | [] => by
      intro visitor entity live members hvisiting _ _ _
      refine ⟨visitor.current.fragment, rfl, ?_, fun _ => rfl⟩
      simp only [respondAll]
      exact hvisiting.carries.mono fun _ hboth => hboth.1
  | field :: rest => by
      intro visitor entity live members hvisiting hreadable hsteady hpopulated
      obtain ⟨hfieldReadable, hrestReadable⟩ := hreadable
      obtain ⟨hfieldSteady, hrestSteady⟩ := hsteady
      obtain ⟨hfieldPopulated, hrestPopulated⟩ := hpopulated
      obtain ⟨first, hfirst, hfirstCarries, hfirstKeys⟩ := acceptField_responds hcomparable field
        hvisiting hfieldReadable hfieldSteady hfieldPopulated
      have hnext : Visiting (visitor.extended first (span field)) entity _ _ :=
        ⟨hvisiting.entity, hfirstCarries⟩
      obtain ⟨fragment, hrest, hcarries, hkeys⟩ :=
        acceptAll_responds hcomparable rest _ _ _ _ hnext hrestReadable hrestSteady hrestPopulated
      refine ⟨fragment, ?_, ?_, ?_⟩
      · unfold acceptAll
        rw [hfirst]
        simp only [bind, Except.bind]
        rw [hrest]
        simp only [Visitor.extended, spanAll, Nat.add_assoc]
      · simp only [respondAll, pushMembers_cons]
        exact hcarries.mono fun _ hall => ⟨⟨hall.1, hall.2.1⟩, hall.2.2⟩
      · intro hnone
        rw [hkeys hnone]
        exact hfirstKeys hnone

end

/-- No leaf stands at the root. -/
theorem readAll_root {fields : List AstField} (hreadable : ReadableAll manager none fields)
    (hash : Option UInt64) (moment : Nat) : ReadAll course none hash moment fields := by
  induction fields generalizing moment with
  | nil => trivial
  | cons field rest ih =>
      obtain ⟨hfield, hrest⟩ := hreadable
      refine ⟨?_, ih hrest _⟩
      cases field with
      | leaf name fieldAlias =>
          obtain ⟨target, htarget, -⟩ := hfield
          cases htarget
      | node name fieldAlias selectionSet => trivial

/-- The item of the root is there from the beginning. -/
theorem Visiting.initial :
    Visiting (Visitor.initial : Visitor ε) none (fun hash => hash = none) fun _ => [] := by
  refine ⟨rfl, ?_, ?_⟩
  · intro hash hnone
    rw [hnone]
    rfl
  · intro entry hmem
    rw [List.mem_singleton.mp hmem]
    trivial

/-- The document of a readable query is its response at the moments of the callbacks. -/
theorem run_responds (hcomparable : ∀ moment, Comparable manager.toSchema (course moment).cache)
    {fields : List AstField} (hreadable : ReadableAll manager none fields)
    (hsteady : SteadyAll manager course none 0 fields)
    (hpopulated : PopulatedAll manager course none 0 fields) :
    ∃ visitor, acceptAll manager course fields .initial = .ok visitor ∧
      visitor.document manager (course visitor.clock).cache =
        .ok (.ofMembers (pushMembers [] (respondAll manager course none none 0 fields))) := by
  obtain ⟨fragment, haccept, hcarries, hkeys⟩ :=
    acceptAll_responds hcomparable fields _ _ _ _ Visiting.initial hreadable hsteady hpopulated
  refine ⟨_, haccept, ?_⟩
  have hone := hkeys rfl
  have hroot : fragment.lookup none =
      some (.ofMembers (pushMembers [] (respondAll manager course none none 0 fields))) :=
    hcarries.item none ⟨rfl, readAll_root hreadable none 0⟩
  obtain ⟨entry, rfl, hentry⟩ := List.map_eq_singleton_iff.mp hone
  obtain ⟨key, item⟩ := entry
  obtain rfl : key = none := hentry
  obtain rfl := Option.some.inj hroot
  rfl

/-! ## The fields of the root -/

/-- A field of the root is entered at a moment: those before it could be visited, and
their populations have returned. -/
inductive Entered (manager : EntityManager ε) (course : Nat → Moment ε) :
    Nat → List AstField → Nat → AstField → Prop
  | first {moment : Nat} {field : AstField} {rest : List AstField} :
      Entered manager course moment (field :: rest) moment field
  | next {moment start : Nat} {before field : AstField} {rest : List AstField}
      (hraised : raised manager (course moment) none before = none)
      (hreadable : ReadableField manager none before)
      (hentered : Entered manager course (moment + span before) rest start field) :
      Entered manager course moment (before :: rest) start field

/-- The instances are steady while the fields of the root are open. -/
def Steady (manager : EntityManager ε) (course : Nat → Moment ε) (moment : Nat)
    (fields : List AstField) : Prop :=
  ∀ start field, Entered manager course moment fields start field →
    raised manager (course start) none field = none →
      SteadyField manager course none start field

/-- No instance appears of an entity while a field of the root that leads to it, or one
below it, is open. -/
def Quiet (manager : EntityManager ε) (course : Nat → Moment ε) (moment : Nat)
    (fields : List AstField) : Prop :=
  ∀ start field, Entered manager course moment fields start field →
    raised manager (course start) none field = none →
      QuietField manager course none start field

/-- What the populations raise is turned into an exception of the visitor. -/
def Contained (manager : EntityManager ε) (course : Nat → Moment ε) (moment : Nat)
    (fields : List AstField) : Prop :=
  ∀ start field, Entered manager course moment fields start field →
    ∀ exception, raised manager (course start) none field = some exception →
      Visitor.handler exception = .gqlException

/-- All fields are visited, or one that is entered stops the visitor. -/
theorem entered_cases (fields : List AstField) (moment : Nat) :
    (ReadableAll manager none fields ∧ PopulatedAll manager course none moment fields) ∨
      ∃ start field, Entered manager course moment fields start field ∧
        ((∃ exception, raised manager (course start) none field = some exception) ∨
          raised manager (course start) none field = none ∧
            ¬ ReadableField manager none field) := by
  induction fields generalizing moment with
  | nil => exact Or.inl ⟨trivial, trivial⟩
  | cons field rest ih =>
      cases hraised : raised manager (course moment) none field with
      | some exception => exact Or.inr ⟨moment, field, .first, Or.inl ⟨exception, hraised⟩⟩
      | none =>
          by_cases hreadable : ReadableField manager none field
          · rcases ih (moment + span field) with
              ⟨hrestReadable, hrestPopulated⟩ | ⟨start, other, hentered, hstops⟩
            · exact Or.inl ⟨⟨hreadable, hrestReadable⟩, hraised, hrestPopulated⟩
            · exact Or.inr ⟨start, other, .next hraised hreadable hentered, hstops⟩
          · exact Or.inr ⟨moment, field, .first, Or.inr ⟨hraised, hreadable⟩⟩

/-- Where all populations return, none of a field that is entered raises. -/
theorem Entered.returns {fields : List AstField} {moment start : Nat} {field : AstField}
    (h : Entered manager course moment fields start field)
    (hpopulated : PopulatedAll manager course none moment fields) :
    raised manager (course start) none field = none := by
  induction h with
  | first => exact hpopulated.1
  | next _ _ _ ih => exact ih hpopulated.2

/-- A field of a readable query can be visited. -/
theorem Entered.readable {fields : List AstField} {moment start : Nat} {field : AstField}
    (h : Entered manager course moment fields start field)
    (hreadable : ReadableAll manager none fields) : ReadableField manager none field := by
  induction h with
  | first => exact hreadable.1
  | next _ _ _ ih => exact ih hreadable.2

/-- The only field of a query is entered first. -/
theorem Entered.of_singleton {only field : AstField} {moment start : Nat}
    (h : Entered manager course moment [only] start field) : start = moment ∧ field = only := by
  cases h with
  | first => exact ⟨rfl, rfl⟩
  | next _ _ hentered => cases hentered

/-- The rest of a steady query is steady. -/
theorem Steady.rest {field : AstField} {rest : List AstField} {moment : Nat}
    (h : Steady manager course moment (field :: rest))
    (hraised : raised manager (course moment) none field = none)
    (hreadable : ReadableField manager none field) :
    Steady manager course (moment + span field) rest :=
  fun start other hentered => h start other (.next hraised hreadable hentered)

/-- The rest of a quiet query is quiet. -/
theorem Quiet.rest {field : AstField} {rest : List AstField} {moment : Nat}
    (h : Quiet manager course moment (field :: rest))
    (hraised : raised manager (course moment) none field = none)
    (hreadable : ReadableField manager none field) :
    Quiet manager course (moment + span field) rest :=
  fun start other hentered => h start other (.next hraised hreadable hentered)

/-- A quiet query is steady. -/
theorem Quiet.steady {fields : List AstField} {moment : Nat}
    (h : Quiet manager course moment fields) : Steady manager course moment fields :=
  fun start field hentered hraised => (h start field hentered hraised).steady field

/-- A fixed cache is quiet. -/
theorem quiet_fixed (cache : Cache ε) {fields : List AstField} {moment : Nat} :
    Quiet manager (fun _ => cache) moment fields :=
  fun _ field _ _ => quietField_fixed cache field

/-- Where everything is populated nothing is raised. -/
theorem contained_of_populated {fields : List AstField} {moment : Nat}
    (hpopulated : PopulatedAll manager course none moment fields) :
    Contained manager course moment fields := by
  intro start field hentered exception hraised
  rw [hentered.returns hpopulated] at hraised
  cases hraised

/-- Where the visitor reaches the end, all its fields were entered. -/
theorem Steady.all {fields : List AstField} {moment : Nat}
    (h : Steady manager course moment fields) (hreadable : ReadableAll manager none fields)
    (hpopulated : PopulatedAll manager course none moment fields) :
    SteadyAll manager course none moment fields := by
  induction fields generalizing moment with
  | nil => trivial
  | cons field rest ih =>
      obtain ⟨hraised, hrestPopulated⟩ := hpopulated
      exact ⟨h _ _ .first hraised, ih (h.rest hraised hreadable.1) hreadable.2 hrestPopulated⟩

/-- The builder of the root always has its item. -/
theorem document_root {visitor : Visitor ε} (hroot : visitor.current.getEntity = none) :
    ∃ document, visitor.document manager cache = .ok document := by
  unfold Visitor.document GqlObjectBuild.getFragment
  rw [hroot]
  exact ⟨_, rfl⟩

/-- The population of an entity raises an exception when its field is entered. -/
theorem acceptField_raised {field : AstField} {visitor : Visitor ε} {exception : Exception}
    (hroot : visitor.current.getEntity = none)
    (hraised : raised manager (course visitor.clock) none field = some exception) :
    acceptField manager course field visitor =
      .error (Visitor.handler exception, { visitor with clock := visitor.clock + 1 }) := by
  cases field with
  | leaf fieldName fieldAlias => cases hraised
  | node fieldName fieldAlias selectionSet =>
      have hvisit : visitor.visitField manager (.node fieldName fieldAlias selectionSet)
          (course visitor.clock) = .error (Visitor.handler exception) := by
        unfold Visitor.visitField
        simp only [hroot, findTarget_of_raised hraised, catching, bind, Except.bind]
        rfl
      unfold acceptField
      dsimp only
      rw [callback_of_error hvisit]
      rfl

/-- The exception of a population leaves the traversal, turned into another where
{lit}`visitField` does so, and the builder of the root is current. -/
theorem acceptAll_raised (hcomparable : ∀ moment, Comparable manager.toSchema (course moment).cache)
    {fields : List AstField} {moment start : Nat} {field : AstField} {exception : Exception}
    (hentered : Entered manager course moment fields start field)
    (hraised : raised manager (course start) none field = some exception)
    (hsteady : Steady manager course moment fields) {visitor : Visitor ε}
    (hclock : visitor.clock = moment)
    (hvisiting : ∃ live members, Visiting visitor none live members) :
    ∃ stopped, acceptAll manager course fields visitor =
        .error (Visitor.handler exception, stopped) ∧
      stopped.current.getEntity = none := by
  induction hentered generalizing visitor with
  | first =>
      obtain ⟨live, members, hroot, -⟩ := hvisiting
      refine ⟨{ visitor with clock := visitor.clock + 1 }, ?_, hroot⟩
      rw [acceptAll, acceptField_raised hroot (hclock ▸ hraised)]
      rfl
  | @next moment start before field rest hreturns hreadable hrest ih =>
      subst hclock
      obtain ⟨live, members, hvisiting⟩ := hvisiting
      obtain ⟨fragment, haccept, hcarries, -⟩ := acceptField_responds hcomparable before hvisiting
        hreadable (hsteady _ _ .first hreturns) hreturns
      have hnext : Visiting (visitor.extended fragment (span before)) none _ _ :=
        ⟨hvisiting.entity, hcarries⟩
      obtain ⟨stopped, hstopped, hroot⟩ :=
        ih hraised (hsteady.rest hreturns hreadable) rfl ⟨_, _, hnext⟩
      refine ⟨stopped, ?_, hroot⟩
      rw [acceptAll, haccept]
      exact hstopped

/-! ## Well-typed queries are readable -/

mutual

/-- A well-typed field can be read. -/
theorem readableField_of_wellTyped : (field : AstField) → {entity : Option ε} →
    WellTypedField manager entity field → ReadableField manager entity field
  | .leaf _ _, _, htyped => by
      obtain ⟨rfl, target, htarget, hmember⟩ := htyped
      exact ⟨target, htarget, hmember⟩
  | .node _ _ selectionSet, _, htyped => by
      obtain ⟨target, hresolve, hselectionTyped⟩ := htyped
      exact ⟨target, hresolve, readableAll_of_wellTyped selectionSet hselectionTyped⟩

theorem readableAll_of_wellTyped : (fields : List AstField) → {entity : Option ε} →
    WellTypedAll manager entity fields → ReadableAll manager entity fields
  | [], _, _ => trivial
  | field :: rest, _, htyped =>
      ⟨readableField_of_wellTyped field htyped.1, readableAll_of_wellTyped rest htyped.2.2⟩

end

/-- The keys of an answer. -/
theorem keys_answerAll {entity : Option ε} {hash : Option UInt64} {moment : Nat}
    {fields : List AstField} :
    (answerAll manager course entity hash moment fields).map Prod.fst =
      fields.map AstField.responseKey := by
  induction fields generalizing moment with
  | nil => rw [answerAll, List.map_nil, List.map_nil]
  | cons field rest ih => rw [answerAll, List.map_cons, List.map_cons, ih]

theorem nodup_responseKeys {entity : Option ε} {fields : List AstField}
    (htyped : WellTypedAll manager entity fields) :
    (fields.map AstField.responseKey).Nodup := by
  induction fields with
  | nil => exact List.nodup_nil
  | cons field rest ih => exact List.nodup_cons.mpr ⟨htyped.2.1, ih htyped.2.2⟩

theorem pushMembers_answerAll {entity : Option ε} {fields : List AstField}
    (htyped : WellTypedAll manager entity fields) (hash : Option UInt64) (moment : Nat) :
    pushMembers [] (answerAll manager course entity hash moment fields) =
      answerAll manager course entity hash moment fields := by
  refine pushMembers_of_nodup (fun _ _ => List.not_mem_nil) ?_
  rw [keys_answerAll]
  exact nodup_responseKeys htyped

mutual

/-- The response to a well-typed field is its answer. -/
theorem respondField_of_wellTyped : (field : AstField) → {entity : Option ε} →
    WellTypedField manager entity field → (hash : Option UInt64) → (moment : Nat) →
    respondField manager course entity hash moment field =
      answerField manager course entity hash moment field
  | .leaf name fieldAlias, entity, htyped, hash, moment => by
      obtain ⟨rfl, -⟩ := htyped
      rw [respondField, answerField]
      rfl
  | .node name fieldAlias selectionSet, entity, htyped, hash, moment => by
      obtain ⟨target, hresolve, hselectionTyped⟩ := htyped
      rw [respondField, answerField, hresolve]
      dsimp only
      congr 1
      apply List.map_congr_left
      intro instance_ _
      rw [respondAll_of_wellTyped selectionSet hselectionTyped,
        pushMembers_answerAll hselectionTyped]

/-- A well-typed query is answered by its answers. -/
theorem respondAll_of_wellTyped : (fields : List AstField) → {entity : Option ε} →
    WellTypedAll manager entity fields → (hash : Option UInt64) → (moment : Nat) →
    respondAll manager course entity hash moment fields =
      answerAll manager course entity hash moment fields
  | [], _, _, _, _ => by
      rw [respondAll, answerAll]
  | field :: rest, _, htyped, hash, moment => by
      rw [respondAll, answerAll, respondField_of_wellTyped field htyped.1 hash moment,
        respondAll_of_wellTyped rest htyped.2.2 hash _]

end

/-- The document of a well-typed query is its answer at the moments of the callbacks. -/
theorem run_answers (hcomparable : ∀ moment, Comparable manager.toSchema (course moment).cache)
    {fields : List AstField} (htyped : WellTypedAll manager none fields)
    (hsteady : SteadyAll manager course none 0 fields)
    (hpopulated : PopulatedAll manager course none 0 fields) :
    ∃ visitor, acceptAll manager course fields .initial = .ok visitor ∧
      visitor.document manager (course visitor.clock).cache =
        .ok (.ofMembers (answerAll manager course none none 0 fields)) := by
  obtain ⟨visitor, haccept, hdocument⟩ :=
    run_responds hcomparable (readableAll_of_wellTyped fields htyped) hsteady hpopulated
  rw [respondAll_of_wellTyped fields htyped, pushMembers_answerAll htyped] at hdocument
  exact ⟨visitor, haccept, hdocument⟩

end Graphql
end ObmcWebapp
