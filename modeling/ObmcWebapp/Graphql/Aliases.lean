import Mathlib.Data.List.Nodup
import ObmcWebapp.Graphql.Selections

/-!
# GraphQL - Aliases of leaves

An alias of a field with a selection set is kept beside its name, but a leaf hands one
text on, which serves both as the member that is read and as the key of the answer.
So a leaf with an alias reads the member of that name, if there is one, and not its own.

Main results:

- Theorem {lit}`element_renamed_iff`: when an object with an alias is the one without
  it, renamed.
- Theorem {lit}`alias_renames_iff`: when an alias only renames a key of the response.
-/

open Library

namespace ObmcWebapp
namespace Graphql

open Entity

variable {ε : Type} {manager : EntityManager ε} {cache : Cache ε}

/-! ## Renaming a key -/

/-- A member under its new name. -/
def renameMember (old new : Bytes) (member : Bytes × Json) : Bytes × Json :=
  (if member.1 = old then new else member.1, member.2)

/-- An object whose key was renamed. -/
def renameKey (old new : Bytes) : Json → Json
  | .object members => .ofMembers (members.map (renameMember old new))
  | json => json

/-- A key is found where it is there. -/
theorem lookup_isSome_iff {members : List (Bytes × Json)} {key : Bytes} :
    (members.lookup key).isSome ↔ key ∈ members.map Prod.fst := by
  induction members with
  | nil => simp
  | cons member rest ih =>
      rw [List.lookup_cons, List.map_cons, List.mem_cons]
      by_cases hkey : key = member.1
      · simp [hkey]
      · rw [beq_eq_false_iff_ne.mpr hkey, ih, or_iff_right hkey]

/-- What is looked up among the renamed members. -/
theorem lookup_renameMember {old new : Bytes} {members : List (Bytes × Json)}
    (hnew : new ∉ members.map Prod.fst) (hne : new ≠ old) (key : Bytes) :
    (members.map (renameMember old new)).lookup key =
      if key = new then members.lookup old
      else if key = old then none else members.lookup key := by
  induction members with
  | nil => simp
  | cons member rest ih =>
      rw [List.map_cons, List.mem_cons, not_or] at hnew
      obtain ⟨hfirst, hrest⟩ := hnew
      rw [List.map_cons, List.lookup_cons, ih hrest, List.lookup_cons, List.lookup_cons,
        renameMember]
      by_cases hold : member.1 = old
      · rw [if_pos hold]
        by_cases hkey : key = new
        · simp [hkey, hold]
        · rw [beq_eq_false_iff_ne.mpr hkey, if_neg hkey]
          by_cases hother : key = old
          · simp [hother, if_neg (Ne.symm hne)]
          · have hne' : (key == member.1) = false := beq_eq_false_iff_ne.mpr (hold ▸ hother)
            simp [hkey, hother, hne']
      · rw [if_neg hold]
        by_cases hkey : key = new
        · have hne' : (key == member.1) = false := beq_eq_false_iff_ne.mpr (hkey ▸ hfirst)
          have hold' : (old == member.1) = false := beq_eq_false_iff_ne.mpr (Ne.symm hold)
          simp [hkey, hkey ▸ hne', hold']
        · by_cases hother : key = old
          · have hne' : (key == member.1) = false :=
              beq_eq_false_iff_ne.mpr (hother ▸ Ne.symm hold)
            simp [hother, hother ▸ hne']
          · simp [hkey, hother]

/-- The renamed keys differ. -/
theorem nodup_keys_renameMember {old new : Bytes} {members : List (Bytes × Json)}
    (hdistinct : (members.map Prod.fst).Nodup) (hnew : new ∉ members.map Prod.fst) :
    ((members.map (renameMember old new)).map Prod.fst).Nodup := by
  have hkeys : (members.map (renameMember old new)).map Prod.fst =
      (members.map Prod.fst).map fun key => if key = old then new else key := by
    rw [List.map_map, List.map_map]
    rfl
  rw [hkeys]
  refine List.Nodup.map_on ?_ hdistinct
  intro first hfirst second hsecond heq
  have hfresh : ∀ key ∈ members.map Prod.fst, new ≠ key := fun key hkey heq => hnew (heq ▸ hkey)
  split at heq
  · next hold =>
      split at heq
      · next hother => rw [hold, hother]
      · exact absurd heq (hfresh second hsecond)
  · split at heq
    · exact absurd heq.symm (hfresh first hfirst)
    · exact heq

/-- The keys of an ordered object differ. -/
theorem nodup_keys_ordered {members : List (Bytes × Json)} (hordered : Json.Ordered members) :
    (members.map Prod.fst).Nodup := by
  apply List.pairwise_map.mpr
  refine List.Pairwise.imp ?_ hordered
  intro first second hless heq
  exact List.lt_irrefl first.1 (heq ▸ hless)

/-- The members of an object after a key was renamed to a new one. -/
theorem member_renameKey {old new : Bytes} {pushed : List (Bytes × Json)}
    (hnew : new ∉ pushed.map Prod.fst) (hne : new ≠ old) (key : Bytes) :
    (renameKey old new (element pushed)).member key =
      if key = new then pushed.lookup old
      else if key = old then none else pushed.lookup key := by
  obtain ⟨inner, hinner, hordered⟩ := Json.ordered_ofMembers (pushMembers [] pushed)
  have hlookup : ∀ key, inner.lookup key = pushed.lookup key := by
    intro key
    have hmember := member_element pushed key
    rw [element, hinner] at hmember
    exact hmember
  have hfresh : new ∉ inner.map Prod.fst := by
    rw [← lookup_isSome_iff, hlookup, lookup_isSome_iff]
    exact hnew
  have hdistinct := nodup_keys_ordered hordered
  have hrenamed : renameKey old new (element pushed) =
      element (inner.map (renameMember old new)) := by
    rw [element, hinner, renameKey, element,
      pushMembers_of_nodup (fun _ _ => List.not_mem_nil) (nodup_keys_renameMember hdistinct hfresh),
      List.nil_append]
  rw [hrenamed, member_element, lookup_renameMember hfresh hne, hlookup, hlookup]

/-- Renaming a key of the object is renaming it in the members that were pushed. -/
theorem renameKey_element {old new : Bytes} {pushed : List (Bytes × Json)}
    (hnew : new ∉ pushed.map Prod.fst) (hne : new ≠ old) :
    renameKey old new (element pushed) = element (pushed.map (renameMember old new)) := by
  have hmembers : ∀ key, (renameKey old new (element pushed)).member key =
      (element (pushed.map (renameMember old new))).member key := by
    intro key
    rw [member_renameKey hnew hne, member_element, lookup_renameMember hnew hne]
  obtain ⟨inner, hinner, -⟩ := Json.ordered_ofMembers (pushMembers [] pushed)
  have hobject : renameKey old new (element pushed) =
      .ofMembers (inner.map (renameMember old new)) := by
    rw [element, hinner, renameKey]
  rw [hobject] at hmembers ⊢
  exact Json.ofMembers_ext hmembers

/-- An object with a member under a new key is the object with the member under its
old key, renamed, exactly when the values agree and no other member has the old key. -/
theorem element_renamed_iff {old new : Bytes} {before after : List (Bytes × Json)}
    {value other : Json} (hbefore : new ∉ before.map Prod.fst) (hafter : new ∉ after.map Prod.fst)
    (hne : new ≠ old) :
    element (before ++ (new, other) :: after) =
        renameKey old new (element (before ++ (old, value) :: after)) ↔
      old ∉ before.map Prod.fst ∧ old ∉ after.map Prod.fst ∧ other = value := by
  have hold : new ∉ (before ++ (old, value) :: after).map Prod.fst := by
    rw [List.map_append, List.map_cons, List.mem_append, List.mem_cons]
    rintro (hmem | heq | hmem)
    · exact hbefore hmem
    · exact hne heq
    · exact hafter hmem
  have hnewMember : (before ++ (new, other) :: after).lookup new = some other := by
    rw [lookup_append_of_not_mem hbefore, List.lookup_cons, beq_self_eq_true]
  constructor
  · intro heq
    have hmember : ∀ key, (before ++ (new, other) :: after).lookup key =
        if key = new then (before ++ (old, value) :: after).lookup old
        else if key = old then none else (before ++ (old, value) :: after).lookup key := by
      intro key
      rw [← member_element, heq, member_renameKey hold hne]
    have hgone := hmember old
    rw [if_neg (Ne.symm hne), if_pos rfl] at hgone
    have hneither : old ∉ (before ++ (new, other) :: after).map Prod.fst := by
      rw [← lookup_isSome_iff, hgone]
      simp
    rw [List.map_append, List.map_cons, List.mem_append, List.mem_cons, not_or, not_or] at hneither
    obtain ⟨hbeforeOld, -, hafterOld⟩ := hneither
    have hsame := hmember new
    rw [if_pos rfl, hnewMember, lookup_append_of_not_mem hbeforeOld, List.lookup_cons,
      beq_self_eq_true] at hsame
    exact ⟨hbeforeOld, hafterOld, Option.some.inj hsame⟩
  · rintro ⟨hbeforeOld, hafterOld, rfl⟩
    have hother : ∀ members : List (Bytes × Json), old ∉ members.map Prod.fst →
        members.map (renameMember old new) = members := by
      intro members hnot
      nth_rewrite 2 [← List.map_id members]
      apply List.map_congr_left
      intro member hmem
      have hkey : member.1 ≠ old := fun heq => hnot (heq ▸ List.mem_map_of_mem hmem)
      rw [renameMember, if_neg hkey]
      rfl
    have hrenamed : (before ++ (old, other) :: after).map (renameMember old new) =
        before ++ (new, other) :: after := by
      rw [List.map_append, List.map_cons, hother before hbeforeOld, hother after hafterOld,
        renameMember, if_pos rfl]
    rw [renameKey_element hold hne, hrenamed]

/-- Renaming a key to itself. -/
theorem renameKey_self (key : Bytes) (pushed : List (Bytes × Json)) :
    renameKey key key (element pushed) = element pushed := by
  obtain ⟨inner, hinner, hordered⟩ := Json.ordered_ofMembers (pushMembers [] pushed)
  have hsame : inner.map (renameMember key key) = inner := by
    nth_rewrite 2 [← List.map_id inner]
    apply List.map_congr_left
    intro member _
    by_cases hkey : member.1 = key
    · rw [renameMember, if_pos hkey, ← hkey]
      rfl
    · rw [renameMember, if_neg hkey]
      rfl
  have hbuilt : Json.ofMembers inner = element inner := by
    rw [element, pushMembers_of_nodup (fun _ _ => List.not_mem_nil) (nodup_keys_ordered hordered),
      List.nil_append]
  have hmembers : ∀ other, (element inner).member other = (element pushed).member other := by
    intro other
    rw [member_element, element, hinner]
    rfl
  rw [element, hinner, renameKey, hsame, ← hinner, hbuilt]
  exact Json.ofMembers_ext hmembers

/-! ## Aliased leaves -/

section Alias

variable (manager : EntityManager ε) (cache : Cache ε) (frames : List Frame)
  (before after : List AstField) (name : Name)

/-- A selection set with a leaf among siblings. -/
def withLeaf (fieldAlias : Option Name) : List AstField :=
  before ++ .leaf name fieldAlias :: after

/-- With an alias for a leaf the response is that without it, the leaf's key renamed in
every element of the selection. -/
def RenamesOnly (fieldAlias : Name) : Prop :=
  (run manager (fun _ => cache) (plug frames (withLeaf before after name none)) = .error →
    run manager (fun _ => cache)
      (plug frames (withLeaf before after name (some fieldAlias))) = .error) ∧
  ∀ result,
    run manager (fun _ => cache) (plug frames (withLeaf before after name none)) = .data result →
    run manager (fun _ => cache) (plug frames (withLeaf before after name (some fieldAlias))) =
      .answer (elementWith manager cache (fun entity source => renameKey name.value fieldAlias.value
        (elementOf manager cache (withLeaf before after name none) entity source)) frames none none)

/-- It makes no difference that the member of the alias is read. -/
def Harmless (fieldAlias : Name) : Prop :=
  fieldAlias.value = name.value ∨
    ((ReadableAll manager none (plug frames (withLeaf before after name none)) ↔
        ReadableAll manager none (plug frames (withLeaf before after name (some fieldAlias)))) ∧
      (ReadableAll manager none (plug frames (withLeaf before after name none)) →
        EachShown manager cache (fun _ source =>
          name.value ∉ (before ++ after).map AstField.responseKey ∧
            ∀ instance_ ∈ source, leafValue (instance_.getField fieldAlias.value) =
              leafValue (instance_.getField name.value)) frames none none))

end Alias

variable {frames : List Frame} {before after : List AstField} {name : Name}

/-- The results with a leaf of any name. -/
theorem resultAll_withLeaf (fieldAlias : Option Name) (entity : Option ε)
    (source : Option Instance) :
    resultAll manager cache entity source (withLeaf before after name fieldAlias) =
      resultAll manager cache entity source before ++
        ((fieldAlias.getD name).value, resultField manager cache entity source
          (.leaf name fieldAlias)) :: resultAll manager cache entity source after := by
  rw [withLeaf, resultAll_append, resultAll]
  rfl

/-- An object with an aliased leaf is the one without the alias, renamed, exactly when
the member of the alias has the value of the leaf's own. -/
theorem elementOf_alias_iff {fieldAlias : Name}
    (hunused : fieldAlias.value ∉ (before ++ after).map AstField.responseKey)
    (hne : fieldAlias.value ≠ name.value) (entity : Option ε) (source : Option Instance) :
    elementOf manager cache (withLeaf before after name (some fieldAlias)) entity source =
        renameKey name.value fieldAlias.value
          (elementOf manager cache (withLeaf before after name none) entity source) ↔
      name.value ∉ (before ++ after).map AstField.responseKey ∧
        ∀ instance_ ∈ source, leafValue (instance_.getField fieldAlias.value) =
          leafValue (instance_.getField name.value) := by
  rw [List.map_append, List.mem_append, not_or] at hunused ⊢
  rw [elementOf, elementOf, resultAll_withLeaf, resultAll_withLeaf]
  simp only [Option.getD_some, Option.getD_none]
  rw [element_renamed_iff (by rw [keys_resultAll]; exact hunused.1)
    (by rw [keys_resultAll]; exact hunused.2) hne, keys_resultAll, keys_resultAll, and_assoc]
  cases source with
  | none => simp [resultField]
  | some instance_ => simp [resultField]

/-- An alias of the same name changes nothing. -/
theorem withLeaf_same {fieldAlias : Name} (heq : fieldAlias.value = name.value)
    (entity : Option ε) (source : Option Instance) :
    resultAll manager cache entity source (withLeaf before after name (some fieldAlias)) =
      resultAll manager cache entity source (withLeaf before after name none) := by
  rw [resultAll_withLeaf, resultAll_withLeaf]
  cases source with
  | none => simp [resultField, heq]
  | some instance_ => simp [resultField, heq]

/-- Renaming, by what is shown at the place of the leaf. -/
theorem renamesOnly_iff (hcomparable : Comparable manager.toSchema cache)
    (htexts : TextsValid cache) {fieldAlias : Name} :
    RenamesOnly manager cache frames before after name fieldAlias ↔
      (ReadableAll manager none (plug frames (withLeaf before after name none)) ↔
        ReadableAll manager none (plug frames (withLeaf before after name (some fieldAlias)))) ∧
      (ReadableAll manager none (plug frames (withLeaf before after name none)) →
        EachShown manager cache (fun entity source =>
          elementOf manager cache (withLeaf before after name (some fieldAlias)) entity source =
            renameKey name.value fieldAlias.value
              (elementOf manager cache (withLeaf before after name none) entity source))
          frames none none) := by
  unfold RenamesOnly
  obtain ⟨hdata, herror⟩ := @run_fixed ε manager cache hcomparable htexts
    (plug frames (withLeaf before after name none))
  obtain ⟨haliasData, haliasError⟩ := @run_fixed ε manager cache hcomparable htexts
    (plug frames (withLeaf before after name (some fieldAlias)))
  have hplugged := @elementOf_plug ε manager cache frames
    (withLeaf before after name (some fieldAlias)) none none
  by_cases hreadable : ReadableAll manager none (plug frames (withLeaf before after name none))
  · rw [hdata hreadable]
    by_cases halias : ReadableAll manager none
        (plug frames (withLeaf before after name (some fieldAlias)))
    · rw [haliasData halias, ← elementWith_eq_iff, ← hplugged, Outcome.answer_inj]
      simp [hreadable, halias, Outcome.answer, elementOf]
    · rw [haliasError halias]
      simp [hreadable, halias, Outcome.answer]
  · rw [herror hreadable]
    by_cases halias : ReadableAll manager none
        (plug frames (withLeaf before after name (some fieldAlias)))
    · rw [haliasData halias]
      simp [hreadable, halias, Outcome.answer]
    · rw [haliasError halias]
      simp [hreadable, halias]

/-- For every query and every fixed cache, an alias of a leaf that no sibling uses only
renames a key of the response if and only if it is harmless that the member of the
alias is read. -/
theorem alias_renames_iff (manager : EntityManager ε) (cache : Cache ε)
    (hcomparable : Comparable manager.toSchema cache) (htexts : TextsValid cache)
    (frames : List Frame) (before after : List AstField) (name fieldAlias : Name)
    (hunused : fieldAlias.value ∉ (before ++ after).map AstField.responseKey) :
    RenamesOnly manager cache frames before after name fieldAlias ↔
      Harmless manager cache frames before after name fieldAlias := by
  rw [renamesOnly_iff hcomparable htexts, Harmless]
  by_cases hsame : fieldAlias.value = name.value
  · refine iff_of_true ⟨?_, fun _ => ?_⟩ (Or.inl hsame)
    · apply readableAll_plug_congr
      intro entity
      simp [withLeaf, readableAll_append, ReadableAll, ReadableField, hsame]
    · apply eachShown_of_forall
      intro entity source
      rw [elementOf, elementOf, withLeaf_same hsame, hsame, renameKey_self]
  · rw [or_iff_right hsame]
    simp only [elementOf_alias_iff hunused hsame]

/-! ### The identifiers of the fans -/

/-- The field with the identifier. -/
def identifier : Name := ⟨bytes "Id", id_letters⟩

/-- The place of the selection set for the fans. -/
def fanPlace : List Frame := [⟨[], ⟨bytes "Fan", fan_letters⟩, none, []⟩]

theorem status_letters : ∀ c ∈ bytes "Status", isAlnum c = true ∨ c = 0x5F := by
  decide +kernel

/-- The field with the status. -/
def status : Name := ⟨bytes "Status", status_letters⟩

theorem sensors_letters : ∀ c ∈ bytes "Sensors", isAlnum c = true ∨ c = 0x5F := by
  decide +kernel

/-- The sensors of a fan. -/
def sensorsField : AstField :=
  .node ⟨bytes "Sensors", sensors_letters⟩ none [.leaf identifier none]

/-- Two fans whose state is the text of their identifier. -/
def echoFans : Cache Inventory :=
  inventoryCache
    (fun
      | .fan =>
          [inventoryInstance 1 [(bytes "Id", bytes "Fan1"), (bytes "Status", bytes "Fan1")],
            inventoryInstance 2 [(bytes "Id", bytes "Fan2"), (bytes "Status", bytes "Fan2")]]
      | .sensors => [])
    (by
      intro entity
      cases entity with
      | fan => simp [inventoryInstance]
      | sensors => simp)

/-- The texts of the cache are valid. -/
theorem textsValid_echoFans : TextsValid echoFans := by
  intro entity instance_ hmem
  cases entity with
  | fan =>
      rcases List.mem_cons.mp hmem with hfirst | hrest
      · rw [hfirst]
        exact inventoryInstance_texts 1 (by decide)
      · rw [List.mem_singleton.mp hrest]
        exact inventoryInstance_texts 2 (by decide)
  | sensors => exact absurd hmem List.not_mem_nil

/-- Beside the sensors of such fans the alias is the name of a member that agrees. -/
theorem alias_renames_identifier :
    RenamesOnly inventoryManager echoFans fanPlace [sensorsField] [] identifier status := by
  apply (alias_renames_iff inventoryManager echoFans (inventoryCache_comparable echoFans)
    textsValid_echoFans fanPlace [sensorsField] [] identifier status (by decide)).mpr
  have hsensors : ReadableField inventoryManager (some .fan) sensorsField :=
    ⟨.relation .fan sensorsOfFan, rfl, ⟨.sensors, rfl, List.mem_cons_self ..⟩, trivial⟩
  refine Or.inr ⟨iff_of_true ?_ ?_, fun _ => ?_⟩
  · exact ⟨⟨.entity .fan, rfl, hsensors, ⟨.fan, rfl, by decide⟩, trivial⟩, trivial⟩
  · exact ⟨⟨.entity .fan, rfl, hsensors, ⟨.fan, rfl, by decide⟩, trivial⟩, trivial⟩
  · intro _ target hresolve shown hshown
    obtain rfl : Target.entity .fan = target := Option.some.inj hresolve
    refine ⟨by decide, ?_⟩
    intro instance_ hinstance
    obtain rfl := Option.some.inj hinstance
    rcases List.mem_cons.mp hshown with hfirst | hrest
    · rw [hfirst]
      rfl
    · rw [List.mem_singleton.mp hrest]
      rfl

/-- With an alias that is no member the query is refused. -/
theorem fanId_refused :
    ¬ RenamesOnly inventoryManager twoFans fanPlace [] [] identifier
      ⟨bytes "fanId", by decide +kernel⟩ := by
  intro h
  have hiff := (renamesOnly_iff (inventoryCache_comparable twoFans) textsValid_twoFans).mp h
  have hreadable : ReadableAll inventoryManager none
      (plug fanPlace (withLeaf [] [] identifier none)) :=
    ⟨⟨.entity .fan, rfl, ⟨.fan, rfl, List.mem_cons_self ..⟩, trivial⟩, trivial⟩
  obtain ⟨⟨target, hresolve, ⟨entity, hentity, hmember⟩, -⟩, -⟩ := hiff.1.mp hreadable
  obtain rfl : Target.entity .fan = target := Option.some.inj hresolve
  obtain rfl : Inventory.fan = entity := Option.some.inj hentity
  exact absurd hmember (by decide)

end Graphql
end ObmcWebapp
