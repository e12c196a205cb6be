import Mathlib.Data.List.Induction
import ObmcWebapp.Entity.FormatterChains
import ObmcWebapp.Entity.Population
import ObmcWebapp.Entity.Queries

/-!
# Entity - Instances that follow their objects

An object of the bus has interfaces with properties.  An instance is loaded from it once
and then sees every change of an interface that it watches: the changed properties are
filled in, and the query supplements its static fields again.  What was supplemented before
is still there.

The properties of an object have the types that its interfaces declare; which these are is
a parameter.

Main results:

- Theorem {lit}`load_member`: the members of an instance that was just loaded.
- Theorem {lit}`after_member`: a member that the query does not supplement has the current
  value of its property after every history.
- Theorem {lit}`follow_self_of_accepts`: what a change makes of an instance.
-/

open Library

namespace ObmcWebapp
namespace Entity

/-! ## Fields of an instance -/

namespace InstanceData

/-- {lit}`getField` -/
def getField (self : InstanceData) (memberName : Bytes) : Field :=
  self.memberInstances memberName

variable {self self' self'' : InstanceData} {names : List Bytes} {memberName other : Bytes}
  {value : FieldType}

/-- The member that is written is there. -/
@[simp]
theorem getField_supplementOrUpdate :
    (self.supplementOrUpdate memberName value).getField memberName = some value :=
  if_pos rfl

/-- Other members are left. -/
@[simp]
theorem getField_supplementOrUpdate_ne (h : other ≠ memberName) :
    (self.supplementOrUpdate memberName value).getField other = self.getField other :=
  if_neg h

/-- Only the member counts. -/
theorem getStringField_congr (h : self'.getField memberName = self.getField memberName) :
    self'.getStringField memberName = self.getStringField memberName := by
  unfold getField at h
  rw [getStringField, getStringField, h]

/-- Only some members are written on the way from one instance to the other. -/
structure Writes (names : List Bytes) (old new : InstanceData) : Prop where
  others : ∀ memberName ∉ names, new.getField memberName = old.getField memberName
  targetProperties : new.targetProperties = old.targetProperties
  objectPath : new.objectPath = old.objectPath

namespace Writes

/-- Nothing writes nothing. -/
theorem refl : Writes names self self where
  others _ _ := rfl
  targetProperties := rfl
  objectPath := rfl

/-- Two steps write what each of them writes. -/
theorem trans (h : Writes names self self') (h' : Writes names self' self'') :
    Writes names self self'' where
  others memberName hmember := (h'.others memberName hmember).trans (h.others memberName hmember)
  targetProperties := h'.targetProperties.trans h.targetProperties
  objectPath := h'.objectPath.trans h.objectPath

/-- A step writes no more than is allowed. -/
theorem mono {names' : List Bytes} (h : Writes names self self') (hnames : names ⊆ names') :
    Writes names' self self' where
  others memberName hmember := h.others memberName fun hmem => hmember (hnames hmem)
  targetProperties := h.targetProperties
  objectPath := h.objectPath

/-- A member is written. -/
theorem supplementOrUpdate (hmember : memberName ∈ names) :
    Writes names self (self.supplementOrUpdate memberName value) where
  others _ hother := getField_supplementOrUpdate_ne fun heq => hother (heq ▸ hmember)
  targetProperties := rfl
  objectPath := rfl

/-- Steps in a row write what each of them writes. -/
theorem foldl {α : Type} {f : InstanceData → α → InstanceData} {labels : List α}
    (h : ∀ self, ∀ label ∈ labels, Writes names self (f self label)) :
    Writes names self (labels.foldl f self) := by
  induction labels generalizing self with
  | nil => exact refl
  | cons label rest ih =>
      obtain ⟨hfirst, hrest⟩ : (∀ self, Writes names self (f self label)) ∧
          ∀ self, ∀ later ∈ rest, Writes names self (f self later) :=
        ⟨fun self => h self label List.mem_cons_self,
          fun self later hlater => h self later (List.mem_cons_of_mem _ hlater)⟩
      exact (hfirst self).trans (ih hrest)

end Writes

end InstanceData

/-! ## Objects and their changes -/

/-- The values that a property of an interface may have. -/
abbrev PropertyTypes := (interface property : Bytes) → DbusVariant → Prop

/-- The properties have the types of their interface. -/
def Typed (types : PropertyTypes) (interface : Bytes) (properties : DBusPropertiesMap) : Prop :=
  ∀ property ∈ properties, types interface property.1 property.2

variable {types : PropertyTypes}

/-- An object with the properties that it has at a moment. -/
structure WatchedObject (types : PropertyTypes) where
  serviceName : Bytes
  objectPath : Bytes
  interfaces : List Bytes
  properties : Bytes → DBusPropertiesMap
  typed : ∀ interface, Typed types interface (properties interface)

/-- A {lit}`PropertiesChanged` signal. -/
structure PropertyChange (types : PropertyTypes) where
  interfaceName : Bytes
  changedValues : DBusPropertiesMap
  typed : Typed types interfaceName changedValues

/-- The message of a change. -/
def PropertyChange.message (change : PropertyChange types) : ChangedMessage where
  interfaceName := some change.interfaceName
  changedValues := change.changedValues.map some

namespace WatchedObject

/-- A changed property is found before its earlier value. -/
def changed (object : WatchedObject types) (change : PropertyChange types) :
    WatchedObject types where
  serviceName := object.serviceName
  objectPath := object.objectPath
  interfaces := object.interfaces
  properties := fun interface =>
    if interface = change.interfaceName then change.changedValues ++ object.properties interface
    else object.properties interface
  typed := by
    intro interface property hproperty
    by_cases hchanged : interface = change.interfaceName
    · rw [if_pos hchanged] at hproperty
      rcases List.mem_append.mp hproperty with hnew | hold
      · exact hchanged ▸ change.typed property hnew
      · exact object.typed interface property hold
    · rw [if_neg hchanged] at hproperty
      exact object.typed interface property hproperty

/-- The properties of an interface, none where the object does not have it. -/
def get (object : WatchedObject types) (interface : Bytes) : DBusPropertiesMap :=
  if interface ∈ object.interfaces then object.properties interface else []

/-- What the bus answers about the object: every call succeeds. -/
def bus (object : WatchedObject types) : ObjectBus where
  getAll := fun _ _ interface => some (object.properties interface)
  createWatcher := fun _ _ => true

/-- The object as the mapper names it. -/
def found (object : WatchedObject types) : FoundObject where
  serviceName := object.serviceName
  objectPath := object.objectPath
  interfaces := object.interfaces

end WatchedObject

/-- An object and the instance that follows it. -/
structure Following (types : PropertyTypes) where
  object : WatchedObject types
  self : InstanceData

/-- The instance has a watcher for the interface of the signal. -/
def Following.watches (s : Following types) (change : PropertyChange types) : Bool :=
  change.interfaceName ∈ s.self.targetProperties.map Prod.fst

namespace EndpointQuery

/-- The instance that is made for an object. -/
def load (query : EndpointQuery) (object : WatchedObject types) : InstanceData :=
  (query.createInstance object.bus object.found).self

/-- A signal changes the object, and the handler runs where the interface is watched. -/
def follow (query : EndpointQuery) (s : Following types) (change : PropertyChange types) :
    Following types where
  object := s.object.changed change
  self :=
    if s.watches change then (onPropertiesChanged (some query) change.message s.self).self
    else s.self

/-- The object and its instance after a history. -/
def after (query : EndpointQuery) (object : WatchedObject types)
    (history : List (PropertyChange types)) : Following types :=
  history.foldl query.follow { object, self := query.load object }

/-! ## Queries that keep their members apart -/

/-- Every element of the configuration with its interface. -/
def reflections (query : EndpointQuery) : List (Bytes × PropertySetter) :=
  query.getSearchPropertiesMap.flatMap fun endpoint => endpoint.2.map fun setter =>
    (endpoint.1, setter)

/-- Members and properties correspond, the supplement leaves the rest of the instance alone,
and formatters raise runtime errors. -/
structure Orderly (query : EndpointQuery) : Prop where
  interfaces : (query.getSearchPropertiesMap.map Prod.fst).Nodup
  members : (query.reflections.map fun reflection => reflection.2.memberName).Nodup
  properties : (query.reflections.map fun reflection => reflection.2.propertyName).Nodup
  plain : ∀ reflection ∈ query.reflections,
    reflection.2.memberName ∉ [metaObjectPath, metaObjectService]
  supplement : ∀ self, (query.supplementByStaticFields self).2.targetProperties =
      self.targetProperties ∧
    (query.supplementByStaticFields self).2.objectPath = self.objectPath
  formatters : ∀ property value exception,
    query.processFormatters property value = .error exception → exception.isRuntimeError

/-- The formatters of an interface take the values of the declared types. -/
def Accepts (query : EndpointQuery) (types : PropertyTypes) (interface : Bytes) : Prop :=
  ∀ setter, (interface, setter) ∈ query.reflections → ∀ value,
    types interface setter.propertyName value →
      ∃ formattedValue, query.processFormatters setter.propertyName value = .ok formattedValue

/-- What is stored for a setter, if its property is there. -/
def reflectedValue (query : EndpointQuery) (properties : DBusPropertiesMap)
    (setter : PropertySetter) : Option FieldType :=
  match properties.lookup setter.propertyName with
  | none => none
  | some value =>
      match query.processFormatters setter.propertyName value with
      | .ok formattedValue => some formattedValue.val
      | .error _ => none

end EndpointQuery

/-! ## Filling -/

section

variable {query : EndpointQuery} {properties : DBusPropertiesMap} {setters : List PropertySetter}
  {self : InstanceData} {setter : PropertySetter} {interface memberName : Bytes}

/-- What is read from the message. -/
@[simp]
theorem PropertyChange.read_message (change : PropertyChange types) :
    change.message.read = (change.interfaceName, change.changedValues) := by
  have hdecoded : ∀ values : DBusPropertiesMap, decodedValues (values.map some) = values := by
    intro values
    induction values with
    | nil => rfl
    | cons value rest ih => rw [List.map_cons, decodedValues, ih]
  simp only [PropertyChange.message, ChangedMessage.read, hdecoded]

/-- Properties leave what an instance watches, and its path. -/
theorem resolveAll_frame (values : List (Bytes × DbusVariant)) :
    (self.resolveAll values).targetProperties = self.targetProperties ∧
      (self.resolveAll values).objectPath = self.objectPath := by
  induction values generalizing self with
  | nil => exact ⟨rfl, rfl⟩
  | cons value rest ih => exact ih

/-- A member of no setter is as before, however the loop ends. -/
theorem fillSetters_other (hother : ∀ setter ∈ setters, setter.memberName ≠ memberName) :
    (fillSetters query properties setters self).self.memberInstances memberName =
      self.memberInstances memberName := by
  induction setters generalizing self with
  | nil => rfl
  | cons setter rest ih =>
      obtain ⟨hfirst, hrest⟩ := List.forall_mem_cons.mp hother
      cases hvalue : properties.lookup setter.propertyName with
      | none =>
          rw [fillSetters_absent hvalue]
          exact ih hrest
      | some value =>
          cases hformatted : query.processFormatters setter.propertyName value with
          | error exception => rw [fillSetters_refused hvalue hformatted]
          | ok formattedValue =>
              rw [fillSetters_formatted hvalue hformatted]
              exact (ih hrest).trans (if_neg hfirst.symm)

/-- Each member gets the value of its property, if that is there. -/
theorem fillSetters_member (haccepted : ∀ setter ∈ setters, Accepted query properties setter)
    (hnodup : (setters.map PropertySetter.memberName).Nodup) (hmem : setter ∈ setters) :
    (fillSetters query properties setters self).self.memberInstances setter.memberName =
      (query.reflectedValue properties setter).or (self.memberInstances setter.memberName) := by
  induction setters generalizing self with
  | nil => exact absurd hmem List.not_mem_nil
  | cons first rest ih =>
      obtain ⟨hfirst, hrest⟩ := List.forall_mem_cons.mp haccepted
      rw [List.map_cons, List.nodup_cons] at hnodup
      have hothers : ∀ other ∈ rest, other.memberName ≠ first.memberName := by
        intro other hother heq
        exact hnodup.1 (heq ▸ List.mem_map_of_mem hother)
      have hne : setter ∈ rest → setter.memberName ≠ first.memberName := hothers setter
      cases hvalue : properties.lookup first.propertyName with
      | none =>
          rw [fillSetters_absent hvalue]
          rcases List.mem_cons.mp hmem with rfl | hmemRest
          · rw [fillSetters_other hothers, EndpointQuery.reflectedValue, hvalue, Option.none_or]
          · exact ih hrest hnodup.2 hmemRest
      | some value =>
          obtain ⟨formattedValue, hformatted⟩ := hfirst value hvalue
          rw [fillSetters_formatted hvalue hformatted]
          dsimp only
          rcases List.mem_cons.mp hmem with rfl | hmemRest
          · rw [fillSetters_other hothers]
            simp [EndpointQuery.reflectedValue, hvalue, hformatted, InstanceData.resolveDBusVariant,
              InstanceData.supplementOrUpdate]
          · rw [ih hrest hnodup.2 hmemRest]
            simp [InstanceData.resolveDBusVariant, InstanceData.supplementOrUpdate, hne hmemRest]

/-- Later values stand before earlier ones. -/
theorem reflectedValue_append {earlier : DBusPropertiesMap}
    (haccepted : Accepted query properties setter) :
    query.reflectedValue (properties ++ earlier) setter =
      (query.reflectedValue properties setter).or (query.reflectedValue earlier setter) := by
  simp only [EndpointQuery.reflectedValue, List.lookup_append]
  cases hvalue : properties.lookup setter.propertyName with
  | none => simp
  | some value =>
      obtain ⟨formattedValue, hformatted⟩ := haccepted value hvalue
      simp [hformatted]

/-- Without properties nothing is reflected. -/
@[simp]
theorem reflectedValue_nil : query.reflectedValue [] setter = none := rfl

/-- The setters of a query. -/
theorem map_snd_reflections :
    query.reflections.map Prod.snd = query.getSearchPropertiesMap.flatMap Prod.snd := by
  simp [EndpointQuery.reflections, List.map_flatMap, Function.comp_def]

/-- The chain that is found is that of the reflection. -/
theorem processFormatters_reflection (hquery : query.Orderly)
    (hsetter : (interface, setter) ∈ query.reflections) {value : DbusVariant} :
    query.processFormatters setter.propertyName value = setter.ownValue value := by
  apply processFormatters_of_nodup
  · rw [← map_snd_reflections, List.map_map]
    exact hquery.properties
  · rw [← map_snd_reflections]
    exact List.mem_map_of_mem hsetter

/-- A property without formatters is stored as it is. -/
theorem reflectedValue_of_formatters (hquery : query.Orderly)
    (hsetter : (interface, setter) ∈ query.reflections) (hformatters : setter.formatters = []) :
    query.reflectedValue properties setter =
      (properties.lookup setter.propertyName).map Subtype.val := by
  rw [EndpointQuery.reflectedValue]
  cases hvalue : properties.lookup setter.propertyName with
  | none => rfl
  | some value =>
      simp only [processFormatters_reflection hquery hsetter, PropertySetter.ownValue, hformatters]
      rfl

/-- The exceptions of a chain are those of its formatters. -/
theorem applyFormatters_error {property : Bytes} {formatters : List Formatter}
    (hformatters : ∀ formatter ∈ formatters, ∀ value exception,
      formatter property value = .error exception → exception.isRuntimeError)
    {value : DbusVariant} {exception : Exception}
    (herror : EndpointQuery.applyFormatters property formatters value = .error exception) :
    exception.isRuntimeError := by
  induction formatters generalizing value with
  | nil => exact absurd herror (by simp [EndpointQuery.applyFormatters])
  | cons formatter rest ih =>
      obtain ⟨hfirst, hrest⟩ := List.forall_mem_cons.mp hformatters
      rw [EndpointQuery.applyFormatters] at herror
      split at herror
      · exact ih hrest herror
      · next refusal hrefused =>
          exact Except.error.inj herror ▸ hfirst value refusal hrefused

/-- A property whose formatters fail at runtime raises such an error. -/
theorem processFormatters_error
    (hformatters : ∀ reflection ∈ query.reflections, ∀ formatter ∈ reflection.2.formatters,
      ∀ property value exception, formatter property value = .error exception →
        exception.isRuntimeError)
    {property : Bytes} {value : DbusVariant} {exception : Exception}
    (herror : query.processFormatters property value = .error exception) :
    exception.isRuntimeError := by
  cases hfirst : query.firstNamed property with
  | none =>
      have hfind : (query.getSearchPropertiesMap.flatMap Prod.snd).find?
          (fun setter => setter.propertyName = property) = none := hfirst
      simp only [EndpointQuery.processFormatters, EndpointQuery.getFormatters, hfind] at herror
      exact Except.error.inj herror ▸ rfl
  | some first =>
      have hmem : first ∈ query.reflections.map Prod.snd := by
        rw [map_snd_reflections]
        exact List.mem_of_find?_eq_some hfirst
      obtain ⟨reflection, hreflection, rfl⟩ := List.mem_map.mp hmem
      rw [processFormatters_firstNamed hfirst] at herror
      exact applyFormatters_error
        (fun formatter hformatter => hformatters reflection hreflection formatter hformatter _)
        herror

/-- A dictionary fails at runtime. -/
theorem formatValueFromDict_error {κ ρ : Type} [DecidableEq κ]
    {rawValue : DbusVariant → Option κ} {variant : ρ → DbusVariant}
    {formatterDict : List (κ × ρ)} {defaultValue : ρ} {property : Bytes} {value : DbusVariant}
    {exception : Exception}
    (herror : formatValueFromDict rawValue variant formatterDict defaultValue property value =
      .error exception) : exception.isRuntimeError := by
  unfold formatValueFromDict at herror
  split at herror
  · exact absurd herror (by simp)
  · exact Except.error.inj herror ▸ rfl

/-- Properties without formatters take values of every type. -/
theorem EndpointQuery.Orderly.accepts (hquery : query.Orderly)
    (hformatters : ∀ setter, (interface, setter) ∈ query.reflections → setter.formatters = [])
    (types : PropertyTypes) : query.Accepts types interface := by
  intro setter hsetter value _
  refine ⟨value, ?_⟩
  rw [processFormatters_reflection hquery hsetter, PropertySetter.ownValue,
    hformatters setter hsetter]
  rfl

end

/-! ## The interfaces of an instance -/

/-- The instance watches the configured ones of some interfaces. -/
def InstanceData.Watches (self : InstanceData) (query : EndpointQuery) (interfaces : List Bytes) :
    Prop :=
  self.targetProperties =
    query.getSearchPropertiesMap.filter fun endpoint => endpoint.1 ∈ interfaces

section

variable {query : EndpointQuery} {properties : DBusPropertiesMap} {self : InstanceData}
  {setter : PropertySetter} {interface interfaceName memberName : Bytes} {interfaces : List Bytes}

/-- In a list without repeated keys, what is found is what is there. -/
theorem lookup_eq_some_iff_mem {α β : Type} [BEq α] [LawfulBEq α] {entries : List (α × β)}
    {key : α} {value : β} (hnodup : (entries.map Prod.fst).Nodup) :
    entries.lookup key = some value ↔ (key, value) ∈ entries := by
  constructor
  · intro hlookup
    obtain ⟨before, later, rfl, -⟩ := List.lookup_eq_some_iff.mp hlookup
    exact List.mem_append_right before List.mem_cons_self
  · intro hmem
    cases hlookup : entries.lookup key with
    | none => simpa using List.lookup_eq_none_iff.mp hlookup _ hmem
    | some other =>
        obtain ⟨before, later, rfl, -⟩ := List.lookup_eq_some_iff.mp hlookup
        have hother : (key, other) ∈ before ++ (key, other) :: later := by simp
        rw [(Prod.mk.inj (List.inj_on_of_nodup_map hnodup hother hmem rfl)).2]

/-- The setters of a watched interface are those of the configuration. -/
theorem mem_dbusPropertySetters_iff (hquery : query.Orderly)
    (hwatches : self.Watches query interfaces) :
    setter ∈ self.dbusPropertySetters interface ↔
      interface ∈ interfaces ∧ (interface, setter) ∈ query.reflections := by
  have hkeys : (self.targetProperties.map Prod.fst).Nodup := by
    rw [hwatches]
    exact hquery.interfaces.sublist (List.filter_sublist.map Prod.fst)
  have hsetters : setter ∈ self.dbusPropertySetters interface ↔
      ∃ setters, (interface, setters) ∈ self.targetProperties ∧ setter ∈ setters := by
    simp only [InstanceData.dbusPropertySetters, ← lookup_eq_some_iff_mem hkeys]
    cases self.targetProperties.lookup interface with
    | none => simp
    | some setters => simp
  rw [hsetters, hwatches]
  simp only [EndpointQuery.reflections, List.mem_flatMap, List.mem_map, List.mem_filter]
  constructor
  · rintro ⟨setters, ⟨hmem, hinterface⟩, hsetter⟩
    exact ⟨by simpa using hinterface, _, hmem, setter, hsetter, rfl⟩
  · rintro ⟨hinterface, endpoint, hmem, other, hother, heq⟩
    obtain ⟨rfl, rfl⟩ := Prod.mk.inj heq
    exact ⟨endpoint.2, ⟨hmem, by simpa using hinterface⟩, hother⟩

/-- A setter is known by its member. -/
theorem reflection_unique (hquery : query.Orderly) {other : PropertySetter}
    (hsetter : (interface, setter) ∈ query.reflections)
    (hother : (interfaceName, other) ∈ query.reflections)
    (hmember : other.memberName = setter.memberName) : interfaceName = interface ∧ other = setter :=
  Prod.mk.inj (List.inj_on_of_nodup_map hquery.members hother hsetter hmember)

/-- The members of an interface differ. -/
theorem nodup_dbusPropertySetters (hquery : query.Orderly)
    (hwatches : self.Watches query interfaces) :
    ((self.dbusPropertySetters interface).map PropertySetter.memberName).Nodup := by
  rw [InstanceData.dbusPropertySetters]
  cases hlookup : self.targetProperties.lookup interface with
  | none => exact List.nodup_nil
  | some setters =>
      obtain ⟨before, later, htargets, -⟩ := List.lookup_eq_some_iff.mp hlookup
      have hmem : (interface, setters) ∈ query.getSearchPropertiesMap := by
        have htarget : (interface, setters) ∈ self.targetProperties := by
          rw [htargets]
          exact List.mem_append_right before List.mem_cons_self
        rw [hwatches] at htarget
        exact (List.mem_filter.mp htarget).1
      have hnodup := hquery.members
      rw [EndpointQuery.reflections, List.map_flatMap, List.nodup_flatMap] at hnodup
      simpa [Function.comp_def] using hnodup.1 _ hmem

/-! ## Filling one interface -/

/-- The instance after {lit}`fillMembers`, however it ends. -/
def EndpointQuery.filled (query : EndpointQuery) (interfaceName : Bytes)
    (properties : DBusPropertiesMap) (self : InstanceData) : InstanceData :=
  (fillMembers (some query) interfaceName properties self).self

/-- Filling leaves what an instance watches, and its path. -/
theorem filled_frame : (query.filled interfaceName properties self).targetProperties =
      self.targetProperties ∧
    (query.filled interfaceName properties self).objectPath = self.objectPath := by
  rw [EndpointQuery.filled, fillMembers, fillSetters_self]
  exact resolveAll_frame _

theorem InstanceData.Watches.filled (hwatches : self.Watches query interfaces) :
    (query.filled interfaceName properties self).Watches query interfaces :=
  filled_frame.1.trans hwatches

/-- Members of the interface get the values that are there. -/
theorem filled_member (hquery : query.Orderly) (hwatches : self.Watches query interfaces)
    (hsetter : (interfaceName, setter) ∈ query.reflections)
    (haccepted : ∀ other, (interfaceName, other) ∈ query.reflections →
      Accepted query properties other) (hinterface : interfaceName ∈ interfaces) :
    (query.filled interfaceName properties self).memberInstances setter.memberName =
      (query.reflectedValue properties setter).or (self.memberInstances setter.memberName) := by
  apply fillSetters_member
  · intro other hother
    exact haccepted other ((mem_dbusPropertySetters_iff hquery hwatches).mp hother).2
  · exact nodup_dbusPropertySetters hquery hwatches
  · exact (mem_dbusPropertySetters_iff hquery hwatches).mpr ⟨hinterface, hsetter⟩

/-- Members of another interface stay, and so do those that reflect nothing. -/
theorem filled_other (hquery : query.Orderly) (hwatches : self.Watches query interfaces)
    (hother : ∀ setter, (interfaceName, setter) ∈ query.reflections → interfaceName ∈ interfaces →
      setter.memberName ≠ memberName) :
    (query.filled interfaceName properties self).memberInstances memberName =
      self.memberInstances memberName := by
  apply fillSetters_other
  intro setter hsetter
  obtain ⟨hinterface, hreflection⟩ := (mem_dbusPropertySetters_iff hquery hwatches).mp hsetter
  exact hother setter hreflection hinterface

/-- Any interface that is filled, as a member of one of them sees it. -/
theorem filled_reflected (hquery : query.Orderly) (hwatches : self.Watches query interfaces)
    (hsetter : (interface, setter) ∈ query.reflections)
    (haccepted : interfaceName = interface → ∀ other, (interface, other) ∈ query.reflections →
      Accepted query properties other) :
    (query.filled interfaceName properties self).memberInstances setter.memberName =
      (query.reflectedValue
        (if interfaceName = interface ∧ interface ∈ interfaces then properties else []) setter).or
          (self.memberInstances setter.memberName) := by
  by_cases hfilled : interfaceName = interface ∧ interface ∈ interfaces
  · obtain ⟨rfl, hinterface⟩ := hfilled
    rw [if_pos ⟨rfl, hinterface⟩]
    exact filled_member hquery hwatches hsetter (haccepted rfl) hinterface
  · rw [if_neg hfilled, reflectedValue_nil, Option.none_or]
    apply filled_other hquery hwatches
    intro other hother hinterface hmember
    obtain ⟨rfl, -⟩ := reflection_unique hquery hsetter hother hmember
    exact hfilled ⟨rfl, hinterface⟩

/-! ## Filling all interfaces -/

/-- Several interfaces are filled one after the other. -/
def EndpointQuery.filledAll (query : EndpointQuery) (properties : Bytes → DBusPropertiesMap)
    (names : List Bytes) (self : InstanceData) : InstanceData :=
  names.foldl (fun self name => query.filled name (properties name) self) self

/-- The loop of {lit}`initialize` goes on after every exception of a formatter. -/
theorem fillInterfaces_eq (hquery : query.Orderly) {properties : Bytes → DBusPropertiesMap}
    {names : List Bytes} :
    (query.fillInterfaces (fun name => some (properties name)) names self).raised = none ∧
      (query.fillInterfaces (fun name => some (properties name)) names self).self =
        query.filledAll properties names self := by
  induction names generalizing self with
  | nil => exact ⟨rfl, rfl⟩
  | cons name rest ih =>
      rw [EndpointQuery.fillInterfaces]
      dsimp only
      split
      · exact ih
      · next exception hraised =>
          obtain ⟨property, value, hrefused⟩ := fillMembers_raised hraised
          rw [if_pos (hquery.formatters property value exception hrefused)]
          exact ih

/-- Filling leaves what an instance watches, and its path. -/
theorem filledAll_frame {properties : Bytes → DBusPropertiesMap} {names : List Bytes} :
    (query.filledAll properties names self).targetProperties = self.targetProperties ∧
      (query.filledAll properties names self).objectPath = self.objectPath := by
  induction names generalizing self with
  | nil => exact ⟨rfl, rfl⟩
  | cons name rest ih =>
      have hfirst := @filled_frame query (properties name) self name
      exact ⟨ih.1.trans hfirst.1, ih.2.trans hfirst.2⟩

/-- Each member has what its interface reflects. -/
theorem filledAll_reflected (hquery : query.Orderly) (hwatches : self.Watches query interfaces)
    {properties : Bytes → DBusPropertiesMap} {names : List Bytes} (hnodup : names.Nodup)
    (hsetter : (interface, setter) ∈ query.reflections)
    (haccepted : ∀ other, (interface, other) ∈ query.reflections →
      Accepted query (properties interface) other) :
    (query.filledAll properties names self).memberInstances setter.memberName =
      (query.reflectedValue
        (if interface ∈ names ∧ interface ∈ interfaces then properties interface else []) setter).or
          (self.memberInstances setter.memberName) := by
  induction names generalizing self with
  | nil => simp [EndpointQuery.filledAll]
  | cons name rest ih =>
      obtain ⟨hname, hrest⟩ := List.nodup_cons.mp hnodup
      have hstep : query.filledAll properties (name :: rest) self =
          query.filledAll properties rest (query.filled name (properties name) self) := rfl
      have hfilled := @filled_reflected query (properties name) self setter interface name
        interfaces hquery hwatches hsetter (fun heq => heq ▸ haccepted)
      rw [hstep, ih hwatches.filled hrest, hfilled]
      by_cases hhead : name = interface
      · subst hhead
        simp [hname]
      · simp [hhead, Ne.symm hhead]

end

/-! ## Instances that were just loaded -/

section

variable {query : EndpointQuery} {object : WatchedObject types} {setter : PropertySetter}
  {interface memberName : Bytes}

/-- A property has the type of its interface. -/
theorem Typed.of_lookup {properties : DBusPropertiesMap} (h : Typed types interface properties)
    {property : Bytes} {value : DbusVariant} (hvalue : properties.lookup property = some value) :
    types interface property value := by
  obtain ⟨before, later, hproperties, -⟩ := List.lookup_eq_some_iff.mp hvalue
  apply h (property, value)
  rw [hproperties]
  exact List.mem_append_right before List.mem_cons_self

/-- The properties of an object have their types. -/
theorem typed_get (object : WatchedObject types) (interface : Bytes) :
    Typed types interface (object.get interface) := by
  rw [WatchedObject.get]
  split
  · exact object.typed interface
  · exact fun property hproperty => absurd hproperty List.not_mem_nil

/-- A query accepts properties of the right types. -/
theorem accepted_of_typed {properties : DBusPropertiesMap}
    (haccepts : query.Accepts types interface) (htyped : Typed types interface properties)
    (hsetter : (interface, setter) ∈ query.reflections) : Accepted query properties setter := by
  intro value hvalue
  exact haccepts setter hsetter value (htyped.of_lookup hvalue)

/-- The instance before its members are filled. -/
def EndpointQuery.constructed (query : EndpointQuery) (object : WatchedObject types) :
    InstanceData :=
  .construct object.serviceName object.objectPath
    (query.getSearchPropertiesMap.filter fun endpoint => endpoint.1 ∈ object.interfaces) false

/-- The instance before it is supplemented for the first time. -/
def EndpointQuery.loaded (query : EndpointQuery) (object : WatchedObject types) : InstanceData :=
  query.filledAll object.properties ((query.constructed object).targetProperties.map Prod.fst)
    (query.constructed object)

/-- It watches the interfaces of its object. -/
theorem constructed_watches :
    (query.constructed object).Watches query object.interfaces :=
  rfl

theorem loaded_frame : (query.loaded object).Watches query object.interfaces ∧
    (query.loaded object).objectPath = object.objectPath :=
  filledAll_frame

/-- The interfaces that are watched. -/
theorem mem_targetProperties_iff (hsetter : (interface, setter) ∈ query.reflections)
    {self : InstanceData} {interfaces : List Bytes} (hwatches : self.Watches query interfaces) :
    interface ∈ self.targetProperties.map Prod.fst ↔ interface ∈ interfaces := by
  obtain ⟨endpoint, hendpoint, hmap⟩ := List.mem_flatMap.mp hsetter
  obtain ⟨other, -, heq⟩ := List.mem_map.mp hmap
  obtain ⟨rfl, -⟩ := Prod.mk.inj heq
  rw [hwatches]
  simp only [List.mem_map, List.mem_filter, decide_eq_true_eq]
  constructor
  · rintro ⟨found, ⟨-, hfound⟩, hname⟩
    exact hname ▸ hfound
  · intro hinterface
    exact ⟨endpoint, ⟨hendpoint, hinterface⟩, rfl⟩

/-- Members have the values of their properties. -/
theorem loaded_member (hquery : query.Orderly) (haccepts : query.Accepts types interface)
    (hsetter : (interface, setter) ∈ query.reflections) :
    (query.loaded object).memberInstances setter.memberName =
      query.reflectedValue (object.get interface) setter := by
  have hplain := hquery.plain _ hsetter
  simp only [List.mem_cons, List.not_mem_nil, or_false, not_or] at hplain
  have hnodup : ((query.constructed object).targetProperties.map Prod.fst).Nodup :=
    hquery.interfaces.sublist (List.filter_sublist.map Prod.fst)
  have haccepted : ∀ other, (interface, other) ∈ query.reflections →
      Accepted query (object.properties interface) other := fun other hother =>
    accepted_of_typed haccepts (object.typed interface) hother
  have hfresh : (query.constructed object).memberInstances setter.memberName = none := by
    simp [EndpointQuery.constructed, InstanceData.construct, hplain.1, hplain.2]
  rw [EndpointQuery.loaded, filledAll_reflected hquery constructed_watches hnodup hsetter haccepted,
    hfresh, Option.or_none, WatchedObject.get]
  simp only [mem_targetProperties_iff hsetter constructed_watches, and_self]

/-- A member that reflects no property is not there yet. -/
theorem loaded_other (hquery : query.Orderly)
    (hother : ∀ reflection ∈ query.reflections, reflection.2.memberName ≠ memberName) :
    (query.loaded object).memberInstances memberName =
      (query.constructed object).memberInstances memberName := by
  have hfilled : ∀ names (self : InstanceData), self.Watches query object.interfaces →
      (query.filledAll object.properties names self).memberInstances memberName =
        self.memberInstances memberName := by
    intro names
    induction names with
    | nil => exact fun self _ => rfl
    | cons name rest ih =>
        intro self hwatches
        exact (ih _ hwatches.filled).trans
          (filled_other hquery hwatches fun setter hsetter _ => hother _ hsetter)
  exact hfilled _ _ constructed_watches

/-- Loading fills all interfaces and supplements. -/
theorem load_eq (hquery : query.Orderly) :
    (query.load object).memberInstances =
        (query.supplementByStaticFields (query.loaded object)).2.memberInstances ∧
      (query.load object).Watches query object.interfaces ∧
      (query.load object).objectPath = object.objectPath := by
  obtain ⟨hraised, hself⟩ := @fillInterfaces_eq query (query.constructed object) hquery
    object.properties ((query.constructed object).targetProperties.map Prod.fst)
  have hframe := hquery.supplement (query.loaded object)
  have hloaded := @loaded_frame types query object
  have hfilled : query.fillInterfaces
      (object.bus.getAll (query.constructed object).serviceName
        (query.constructed object).objectPath)
      ((query.constructed object).targetProperties.map Prod.fst)
      (query.constructed object).setUninitialized =
      query.fillInterfaces (fun name => some (object.properties name))
        ((query.constructed object).targetProperties.map Prod.fst) (query.constructed object) := rfl
  have hload : query.load object =
      (query.initializeInstance object.bus (query.constructed object)).self := rfl
  rw [EndpointQuery.initializeInstance, hfilled] at hload
  simp only [hraised, hself] at hload
  have hsame : (query.load object).memberInstances =
        (query.supplementByStaticFields (query.loaded object)).2.memberInstances ∧
      (query.load object).targetProperties =
        (query.supplementByStaticFields (query.loaded object)).2.targetProperties ∧
      (query.load object).objectPath =
        (query.supplementByStaticFields (query.loaded object)).2.objectPath := by
    rw [hload]
    -- whether it raises or leaves an interface out shows in the state alone
    split
    · exact ⟨rfl, rfl, rfl⟩
    · split
      · exact ⟨rfl, rfl, rfl⟩
      · exact ⟨rfl, rfl, rfl⟩
  exact ⟨hsame.1, hsame.2.1.trans (hframe.1.trans hloaded.1),
    hsame.2.2.trans (hframe.2.trans hloaded.2)⟩

/-! ## Instances that follow -/

/-- What holds of an instance and its object after every history. -/
structure Follows (query : EndpointQuery) (s : Following types) : Prop where
  watches : s.self.Watches query s.object.interfaces
  objectPath : s.self.objectPath = s.object.objectPath

variable {s : Following types} {change : PropertyChange types}

/-- When a change is watched. -/
theorem Follows.watches_iff (hfollows : Follows query s) : s.watches change = true ↔
    change.interfaceName ∈ query.getSearchPropertiesMap.map Prod.fst ∧
      change.interfaceName ∈ s.object.interfaces := by
  rw [Following.watches, hfollows.watches]
  simp only [decide_eq_true_eq, List.mem_map, List.mem_filter]
  constructor
  · rintro ⟨endpoint, ⟨hendpoint, hinterface⟩, hname⟩
    exact ⟨⟨endpoint, hendpoint, hname⟩, hname ▸ hinterface⟩
  · rintro ⟨⟨endpoint, hendpoint, hname⟩, hinterface⟩
    exact ⟨endpoint, ⟨hendpoint, hname ▸ hinterface⟩, hname⟩

/-- A watched change fills its interface and what the query adds. -/
theorem onPropertiesChanged_self {self : InstanceData} :
    (onPropertiesChanged (some query) change.message self).self =
      if (fillMembers (some query) change.interfaceName change.changedValues self).raised = none
        then (query.supplementByStaticFields
          (query.filled change.interfaceName change.changedValues self)).2
      else query.filled change.interfaceName change.changedValues self := by
  rw [onPropertiesChanged_some]
  simp only [PropertyChange.read_message]
  split
  · next hraised => exact (if_pos hraised).symm
  · next hraised => exact (if_neg hraised).symm

/-- A watched signal fills its interface, and supplements where nothing was raised. -/
theorem follow_self (hwatched : s.watches change = true) :
    (query.follow s change).self =
      if (fillMembers (some query) change.interfaceName change.changedValues s.self).raised = none
        then (query.supplementByStaticFields
          (query.filled change.interfaceName change.changedValues s.self)).2
      else query.filled change.interfaceName change.changedValues s.self :=
  (if_pos hwatched).trans onPropertiesChanged_self

/-- A change that is not watched leaves the instance. -/
theorem follow_self_of_not (hwatched : s.watches change = false) :
    (query.follow s change).self = s.self :=
  if_neg (by simp [hwatched])

/-- A watched change fills its interface. -/
theorem follow_self_of_accepts (hquery : query.Orderly) (hfollows : Follows query s)
    (haccepts : query.Accepts types change.interfaceName) (hwatched : s.watches change = true) :
    (query.follow s change).self = (query.supplementByStaticFields
      (query.filled change.interfaceName change.changedValues s.self)).2 := by
  refine (follow_self hwatched).trans (if_pos ?_)
  apply fillSetters_raised_eq_none_iff.mpr
  intro setter hsetter
  exact accepted_of_typed haccepts change.typed
    ((mem_dbusPropertySetters_iff hquery hfollows.watches).mp hsetter).2

theorem Follows.follow (hquery : query.Orderly) (hfollows : Follows query s) :
    Follows query (query.follow s change) := by
  have hfilled := @filled_frame query change.changedValues s.self change.interfaceName
  have hsupplement := hquery.supplement
    (query.filled change.interfaceName change.changedValues s.self)
  cases hwatched : s.watches change with
  | false =>
      constructor
      · rw [follow_self_of_not hwatched]
        exact hfollows.watches
      · rw [follow_self_of_not hwatched]
        exact hfollows.objectPath
  | true =>
      have hframe : (query.follow s change).self.targetProperties = s.self.targetProperties ∧
          (query.follow s change).self.objectPath = s.self.objectPath := by
        rw [follow_self hwatched]
        split
        · exact ⟨hsupplement.1.trans hfilled.1, hsupplement.2.trans hfilled.2⟩
        · exact hfilled
      exact ⟨hframe.1.trans hfollows.watches, hframe.2.trans hfollows.objectPath⟩

/-- A new instance follows its object. -/
theorem follows_load (hquery : query.Orderly) :
    Follows query { object, self := query.load object } :=
  ⟨(load_eq hquery).2.1, (load_eq hquery).2.2⟩

/-- The properties of an interface after a signal. -/
theorem get_changed (object : WatchedObject types) (change : PropertyChange types)
    (interface : Bytes) : (object.changed change).get interface =
      (if change.interfaceName = interface ∧ interface ∈ object.interfaces then
        change.changedValues else []) ++ object.get interface := by
  by_cases hinterface : interface ∈ object.interfaces
  · by_cases hname : interface = change.interfaceName
    · simp [WatchedObject.get, WatchedObject.changed, hname, hname ▸ hinterface]
    · simp [WatchedObject.get, WatchedObject.changed, hinterface, hname, Ne.symm hname]
  · simp [WatchedObject.get, WatchedObject.changed, hinterface]

/-- What a member gets from the signal has become the value of its property. -/
theorem filled_changed (hquery : query.Orderly) (hfollows : Follows query s)
    (haccepts : query.Accepts types interface)
    (hsetter : (interface, setter) ∈ query.reflections)
    (hcurrent : s.self.memberInstances setter.memberName =
      query.reflectedValue (s.object.get interface) setter) :
    (query.filled change.interfaceName change.changedValues s.self).memberInstances
        setter.memberName =
      query.reflectedValue ((s.object.changed change).get interface) setter := by
  have hchange : change.interfaceName = interface →
      Typed types interface change.changedValues := by
    rintro rfl
    exact change.typed
  have haccepted : Accepted query
      (if change.interfaceName = interface ∧ interface ∈ s.object.interfaces then
        change.changedValues else []) setter := by
    split
    · next h => exact accepted_of_typed haccepts (hchange h.1) hsetter
    · intro value hvalue
      simp at hvalue
  rw [get_changed, reflectedValue_append haccepted, filled_reflected hquery hfollows.watches hsetter
    fun heq other hother => accepted_of_typed haccepts (hchange heq) hother, hcurrent]

/-- An interface that is not watched has no member to change. -/
theorem get_changed_of_not (hfollows : Follows query s)
    (hsetter : (interface, setter) ∈ query.reflections) (hwatched : s.watches change = false) :
    (s.object.changed change).get interface = s.object.get interface := by
  have hname : change.interfaceName = interface → interface ∉ s.object.interfaces := by
    rintro rfl hinterface
    have hmem := (mem_targetProperties_iff hsetter hfollows.watches).mpr hinterface
    simp [Following.watches, hmem] at hwatched
  rw [get_changed, if_neg fun h => hname h.1 h.2, List.nil_append]

/-- A member that the query leaves alone keeps the current value of its property. -/
theorem follow_member (hquery : query.Orderly) (hfollows : Follows query s)
    (haccepts : query.Accepts types interface)
    (hsetter : (interface, setter) ∈ query.reflections)
    (hkept : ∀ self, (query.supplementByStaticFields self).2.memberInstances setter.memberName =
      self.memberInstances setter.memberName)
    (hcurrent : s.self.memberInstances setter.memberName =
      query.reflectedValue (s.object.get interface) setter) :
    (query.follow s change).self.memberInstances setter.memberName =
      query.reflectedValue ((query.follow s change).object.get interface) setter := by
  cases hwatched : s.watches change with
  | false =>
      rw [follow_self_of_not hwatched]
      rw [EndpointQuery.follow, get_changed_of_not hfollows hsetter hwatched]
      exact hcurrent
  | true =>
      have hfilled := @filled_changed types query setter interface s change hquery hfollows haccepts
        hsetter hcurrent
      rw [follow_self hwatched]
      split
      · exact (hkept _).trans hfilled
      · exact hfilled

/-- A new instance has what its object reflects. -/
theorem load_member (hquery : query.Orderly) (haccepts : query.Accepts types interface)
    (hsetter : (interface, setter) ∈ query.reflections)
    (hkept : ∀ self, (query.supplementByStaticFields self).2.memberInstances setter.memberName =
      self.memberInstances setter.memberName) :
    (query.load object).memberInstances setter.memberName =
      query.reflectedValue (object.get interface) setter := by
  rw [(load_eq hquery).1, hkept, loaded_member hquery haccepts hsetter]

/-- The invariant of an instance that follows its object. -/
theorem follows_after (hquery : query.Orderly) (history : List (PropertyChange types)) :
    Follows query (query.after object history) := by
  induction history using List.reverseRecOn with
  | nil => exact follows_load hquery
  | append_singleton history change ih =>
      rw [EndpointQuery.after, List.foldl_append]
      exact ih.follow hquery

theorem after_member (hquery : query.Orderly) (haccepts : query.Accepts types interface)
    (hsetter : (interface, setter) ∈ query.reflections)
    (hkept : ∀ self, (query.supplementByStaticFields self).2.memberInstances setter.memberName =
      self.memberInstances setter.memberName) (history : List (PropertyChange types)) :
    (query.after object history).self.memberInstances setter.memberName =
      query.reflectedValue ((query.after object history).object.get interface) setter := by
  induction history using List.reverseRecOn with
  | nil => exact load_member hquery haccepts hsetter hkept
  | append_singleton history change ih =>
      rw [EndpointQuery.after, List.foldl_append]
      exact follow_member hquery (follows_after hquery history) haccepts hsetter hkept ih

/-- The last change of a history. -/
theorem after_snoc (history : List (PropertyChange types)) (change : PropertyChange types) :
    query.after object (history ++ [change]) = query.follow (query.after object history) change :=
  List.foldl_append

/-- Where a signal keeps a property of the states exactly under a condition, it holds along a
history exactly where all signals meet the condition. -/
theorem after_always_iff {P : Following types → Prop}
    {ok : Following types → PropertyChange types → Prop} (hstart : P (query.after object []))
    (hstep : ∀ history, P (query.after object history) → ∀ change,
      (P (query.follow (query.after object history) change) ↔
        ok (query.after object history) change)) (history : List (PropertyChange types)) :
    (∀ before rest, history = before ++ rest → P (query.after object before)) ↔
      ∀ before change rest, history = before ++ change :: rest →
        ok (query.after object before) change := by
  let I (s : Following types) : Prop := P s ∧ ∃ earlier, s = query.after object earlier
  have hreached : ∀ before, I (query.after object before) ↔ P (query.after object before) :=
    fun before => and_iff_left ⟨before, rfl⟩
  have hsteps : ∀ s, I s → ∀ change ∈ history, (I (query.follow s change) ↔ ok s change) := by
    rintro s ⟨hs, earlier, rfl⟩ change -
    rw [← after_snoc, hreached, after_snoc]
    exact hstep earlier hs change
  have hruns : (∀ before rest, history = before ++ rest → I (query.after object before)) ↔
      ∀ before change rest, history = before ++ change :: rest →
        ok (query.after object before) change :=
    foldl_always_iff ((hreached []).mpr hstart) history hsteps
  simpa only [hreached] using hruns

end

end Entity
end ObmcWebapp
