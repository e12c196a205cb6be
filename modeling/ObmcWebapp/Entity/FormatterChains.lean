import Mathlib.Data.List.Nodup
import ObmcWebapp.Entity.Properties

/-!
# Entity - The formatters of a reflection

Each element of an endpoint configuration reflects a property in a member and has a
chain of formatters of its own.  {lit}`fillMembers` comes across the element, but
{lit}`processFormatters` looks for the chain again, by the name of the property, in the whole
configuration.

Main results:

- Theorem {lit}`fillMembers_reflected_iff`: when every member gets the value that its own
  reflection makes of the property.
- Theorem {lit}`processFormatters_of_nodup`: where every name occurs once, the chain is the
  reflection's own.
-/

open Library

namespace ObmcWebapp
namespace Entity

/-- The value as the chain of the reflection itself makes it. -/
def PropertySetter.ownValue (setter : PropertySetter) (value : DbusVariant) :
    Except Exception DbusVariant :=
  EndpointQuery.applyFormatters setter.propertyName setter.formatters value

/-- The first reflection of a property in the configuration, whichever its interface. -/
def EndpointQuery.firstNamed (query : EndpointQuery) (property : Bytes) : Option PropertySetter :=
  (query.getSearchPropertiesMap.flatMap Prod.snd).find? fun setter => setter.propertyName = property

/-- {lit}`fillMembers` stores in the member of each reflection of the interface what its own
chain makes of the property, and changes no other member. -/
structure Reflected (query : EndpointQuery) (interfaceName : Bytes)
    (properties : DBusPropertiesMap) (object : InstanceData) : Prop where
  returns : (fillMembers (some query) interfaceName properties object).raised = none
  stored : ∀ setter ∈ object.dbusPropertySetters interfaceName, ∀ value,
    properties.lookup setter.propertyName = some value →
      ∃ formattedValue, setter.ownValue value = .ok formattedValue ∧
        (fillMembers (some query) interfaceName properties object).self.memberInstances
          setter.memberName = some formattedValue.val
  others : ∀ memberName,
    (∀ setter ∈ object.dbusPropertySetters interfaceName, setter.memberName = memberName →
      properties.lookup setter.propertyName = none) →
      (fillMembers (some query) interfaceName properties object).self.memberInstances memberName =
        object.memberInstances memberName

/-- The first chain of each property takes the value; for the reflection that decides on a
member it makes the same of the value as the own chain; and reflections that feed one
member agree. -/
structure ChainsAgree (query : EndpointQuery) (properties : DBusPropertiesMap)
    (setters : List PropertySetter) : Prop where
  accepted : ∀ setter ∈ setters, ∀ value, properties.lookup setter.propertyName = some value →
    ∃ first, query.firstNamed setter.propertyName = some first ∧
      ∃ formattedValue, first.ownValue value = .ok formattedValue
  own : ∀ setter value, Decides properties setters setter value →
    ∀ first, query.firstNamed setter.propertyName = some first →
      setter.ownValue value = first.ownValue value
  shared : ∀ setter ∈ setters, ∀ other ∈ setters, setter.memberName = other.memberName →
    ∀ value otherValue, properties.lookup setter.propertyName = some value →
      properties.lookup other.propertyName = some otherValue →
        setter.ownValue value = other.ownValue otherValue

section

variable {query : EndpointQuery} {properties : DBusPropertiesMap} {setters : List PropertySetter}
  {self : InstanceData} {setter : PropertySetter} {value formattedValue : DbusVariant}

/-- The setter that is found has the property. -/
theorem firstNamed_propertyName {property : Bytes} {first : PropertySetter}
    (hfirst : query.firstNamed property = some first) : first.propertyName = property := by
  simpa using List.find?_some hfirst

/-- {lit}`processFormatters` applies the chain of the first reflection of the property. -/
theorem processFormatters_firstNamed {property : Bytes} {first : PropertySetter}
    (hfirst : query.firstNamed property = some first) :
    query.processFormatters property value = first.ownValue value := by
  have hfind : (query.getSearchPropertiesMap.flatMap Prod.snd).find?
      (fun setter => setter.propertyName = property) = some first := hfirst
  simp only [EndpointQuery.processFormatters, EndpointQuery.getFormatters, hfind,
    PropertySetter.ownValue, firstNamed_propertyName hfirst]

/-- The value is formatted by the first setter of the property. -/
theorem processFormatters_ok_iff {property : Bytes} :
    query.processFormatters property value = .ok formattedValue ↔
      ∃ first, query.firstNamed property = some first ∧
        first.ownValue value = .ok formattedValue := by
  cases hfirst : query.firstNamed property with
  | some first => simp [processFormatters_firstNamed hfirst]
  | none =>
      have hfind : (query.getSearchPropertiesMap.flatMap Prod.snd).find?
          (fun setter => setter.propertyName = property) = none := hfirst
      simp [EndpointQuery.processFormatters, EndpointQuery.getFormatters, hfind]

/-- The setter is accepted where the first chain takes the value. -/
theorem accepted_iff : Accepted query properties setter ↔
    ∀ value, properties.lookup setter.propertyName = some value →
      ∃ first, query.firstNamed setter.propertyName = some first ∧
        ∃ formattedValue, first.ownValue value = .ok formattedValue := by
  constructor
  · intro h value hvalue
    obtain ⟨formattedValue, hformatted⟩ := h value hvalue
    obtain ⟨first, hfirst, hown⟩ := processFormatters_ok_iff.mp hformatted
    exact ⟨first, hfirst, formattedValue, hown⟩
  · intro h value hvalue
    obtain ⟨first, hfirst, formattedValue, hown⟩ := h value hvalue
    exact ⟨formattedValue, processFormatters_ok_iff.mpr ⟨first, hfirst, hown⟩⟩

/-- One of the reflections that feed a member decides on it. -/
theorem exists_decides (hmem : setter ∈ setters)
    (hvalue : properties.lookup setter.propertyName = some value) :
    ∃ last ∈ setters, last.memberName = setter.memberName ∧
      ∃ lastValue, Decides properties setters last lastValue := by
  induction setters generalizing setter value with
  | nil => exact absurd hmem List.not_mem_nil
  | cons first rest ih =>
      by_cases hlater : ∃ later ∈ rest, later.memberName = setter.memberName ∧
          ∃ laterValue, properties.lookup later.propertyName = some laterValue
      · obtain ⟨later, hlater, hmember, laterValue, hlaterValue⟩ := hlater
        obtain ⟨last, hlast, hsame, lastValue, hfound, before, after, hsplit, hafter⟩ :=
          ih hlater hlaterValue
        refine ⟨last, List.mem_cons_of_mem _ hlast, hsame.trans hmember, lastValue, hfound,
          first :: before, after, ?_, hafter⟩
        rw [hsplit, List.cons_append]
      · have hfirst : setter = first := by
          refine (List.mem_cons.mp hmem).resolve_right fun hrest => ?_
          exact hlater ⟨setter, hrest, rfl, value, hvalue⟩
        refine ⟨setter, hmem, rfl, value, hvalue, [], rest, by rw [hfirst, List.nil_append], ?_⟩
        intro later hmemLater hmember
        by_contra hsome
        obtain ⟨laterValue, hlaterValue⟩ := Option.ne_none_iff_exists'.mp hsome
        exact hlater ⟨later, hmemLater, hmember, laterValue, hlaterValue⟩

/-- A member that nothing is stored in is as before. -/
theorem memberInstances_resolveAll_other {values : List (Bytes × DbusVariant)}
    {memberName : Bytes} (hvalues : ∀ stored ∈ values, stored.1 ≠ memberName) :
    (self.resolveAll values).memberInstances memberName = self.memberInstances memberName := by
  induction values generalizing self with
  | nil => rfl
  | cons stored rest ih =>
      obtain ⟨hstored, hrest⟩ := List.forall_mem_cons.mp hvalues
      refine (ih hrest).trans ?_
      exact if_neg hstored.symm

/-- Members of other properties are left. -/
theorem fillSetters_others
    (haccepted : ∀ setter ∈ setters, Accepted query properties setter) {memberName : Bytes}
    (habsent : ∀ setter ∈ setters, setter.memberName = memberName →
      properties.lookup setter.propertyName = none) :
    (fillSetters query properties setters self).self.memberInstances memberName =
      self.memberInstances memberName := by
  rw [fillSetters_self_of_accepted haccepted]
  apply memberInstances_resolveAll_other
  intro stored hstored hmember
  obtain ⟨setter, hsetter, hname, hsome⟩ := mem_formattedValues_reflects hstored
  exact hsome (habsent setter hsetter (hname.trans hmember))

/-- Every member gets what its own reflection makes of the property, exactly where the
chains agree. -/
theorem fillMembers_reflected_iff (query : EndpointQuery) (interfaceName : Bytes)
    (properties : DBusPropertiesMap) (self : InstanceData) :
    Reflected query interfaceName properties self ↔
      ChainsAgree query properties (self.dbusPropertySetters interfaceName) := by
  have haccepts : (fillMembers (some query) interfaceName properties self).raised = none ↔ _ :=
    fillSetters_raised_eq_none_iff
  constructor
  · intro h
    have haccepted := haccepts.mp h.returns
    refine ⟨fun setter hsetter => accepted_iff.mp (haccepted setter hsetter), ?_, ?_⟩
    · intro setter value hdecides first hfirst
      obtain ⟨ownValue, hown, hstored⟩ := h.stored setter hdecides.mem value hdecides.1
      obtain ⟨formattedValue, hformatted⟩ := haccepted setter hdecides.mem value hdecides.1
      have hsame : ownValue.val = formattedValue.val := Option.some.inj
        (hstored.symm.trans (memberInstances_of_decides haccepted hdecides hformatted))
      rw [hown, ← processFormatters_firstNamed hfirst, hformatted, Subtype.ext hsame]
    · intro setter hsetter other hother hmember value otherValue hvalue hotherValue
      obtain ⟨ownValue, hown, hstored⟩ := h.stored setter hsetter value hvalue
      obtain ⟨ownOther, hown', hstored'⟩ := h.stored other hother otherValue hotherValue
      rw [← hmember, hstored] at hstored'
      rw [hown, hown', Subtype.ext (Option.some.inj hstored')]
  · intro h
    have haccepted : ∀ setter ∈ self.dbusPropertySetters interfaceName,
        Accepted query properties setter := fun setter hsetter =>
      accepted_iff.mpr (h.accepted setter hsetter)
    refine ⟨haccepts.mpr haccepted, ?_, fun memberName => fillSetters_others haccepted⟩
    intro setter hsetter value hvalue
    obtain ⟨last, hlast, hmember, lastValue, hdecides⟩ := exists_decides hsetter hvalue
    obtain ⟨first, hfirst, formattedValue, hformatted⟩ :=
      h.accepted last hlast lastValue hdecides.1
    refine ⟨formattedValue, ?_, ?_⟩
    · rw [h.shared setter hsetter last hlast hmember.symm value lastValue hvalue hdecides.1,
        h.own last lastValue hdecides first hfirst, hformatted]
    · rw [← hmember]
      apply memberInstances_of_decides haccepted hdecides
      rw [processFormatters_firstNamed hfirst, hformatted]

/-- In a configuration that names every property once the chain that is found is that of the
reflection. -/
theorem processFormatters_of_nodup
    (hnodup : ((query.getSearchPropertiesMap.flatMap Prod.snd).map (·.propertyName)).Nodup)
    (hsetter : setter ∈ query.getSearchPropertiesMap.flatMap Prod.snd) :
    query.processFormatters setter.propertyName value = setter.ownValue value := by
  cases hfirst : query.firstNamed setter.propertyName with
  | none =>
      have hnone := List.find?_eq_none.mp hfirst setter hsetter
      simp at hnone
  | some first =>
      rw [processFormatters_firstNamed hfirst]
      have hmem := List.mem_of_find?_eq_some hfirst
      rw [List.inj_on_of_nodup_map hnodup hmem hsetter (firstNamed_propertyName hfirst)]

end

/-! ## A model that is named twice -/

namespace Asset

/-- The interface with the data of the maker. -/
def assetInterface : Bytes := bytes "xyz.openbmc_project.Inventory.Decorator.Asset"

/-- The interface of a board. -/
def boardInterface : Bytes := bytes "xyz.openbmc_project.Inventory.Item.Board"

/-- The model of the board is stored as it is. -/
def boardModel : PropertySetter :=
  ⟨bytes "Model", bytes "BoardModel", []⟩

/-- Two interfaces with a property of one name. -/
def query : EndpointQuery where
  getSearchPropertiesMap :=
    [(assetInterface, [⟨bytes "Model", bytes "Model", [trimFormatter]⟩]),
      (boardInterface, [boardModel])]
  supplementByStaticFields instance_ := (none, instance_)

/-- The instance of a board. -/
def board : InstanceData :=
  InstanceData.construct (bytes "xyz.openbmc_project.Inventory.Manager")
    (bytes "/xyz/openbmc_project/inventory/system/board/main") query.getSearchPropertiesMap true

/-- The properties of the board. -/
def properties : DBusPropertiesMap :=
  [(bytes "Model", .string (bytes " B1"))]

/-- The model of the board is trimmed by the formatter of the other interface. -/
theorem boardModel_not_reflected :
    ¬ Reflected query boardInterface properties board ∧
      (fillMembers (some query) boardInterface properties board).self.memberInstances
        (bytes "BoardModel") = some (.string (bytes "B1")) := by
  have hstored : (fillMembers (some query) boardInterface properties board).self.memberInstances
      (bytes "BoardModel") = some (.string (bytes "B1")) := by
    decide
  refine ⟨?_, hstored⟩
  intro h
  have hsetters : board.dbusPropertySetters boardInterface = [boardModel] := rfl
  obtain ⟨formattedValue, hown, hmember⟩ := h.stored boardModel (by simp [hsetters]) _ rfl
  cases hown
  exact absurd (hstored.symm.trans hmember) (by decide)

end Asset

end Entity
end ObmcWebapp
