import ObmcWebapp.Entity.Formatters

/-!
# Entity - Changed properties of an instance

The endpoint configuration names, for each interface, the properties that are read,
the members they are stored in and the formatters in between.  {lit}`fillMembers` stores
a map of properties; the handler of {lit}`PropertiesChanged` decodes a message, fills the
members and lets the query supplement its static fields.

Only the decoding is guarded: an exception of a formatter or of a supplement leaves
the handler, and the properties after the one that raised it are not stored.

Main results:

- Theorem {lit}`fillSetters_raised_eq_none_iff`, {lit}`fillSetters_stored`: when all
  properties are stored, and what the instance is then.
- Theorem {lit}`onPropertiesChanged_handled_iff`: when a signal is handled.
-/

open Library

namespace ObmcWebapp
namespace Entity

/-! ## The endpoint configuration -/

/-- An element of {lit}`DBusPropertySetters`; validators are never called. -/
structure PropertySetter where
  propertyName : Bytes
  memberName : Bytes
  formatters : List Formatter

/-- {lit}`DBusPropertyEndpointMap`, in the order of its keys. -/
abbrev DBusPropertyEndpointMap := List (Bytes × List PropertySetter)

/-- {lit}`DBusPropertiesMap`; the first entry of a name counts, as {lit}`emplace` keeps it. -/
abbrev DBusPropertiesMap := List (Bytes × DbusVariant)

/-- The member with the object path. -/
def metaObjectPath : Bytes := bytes "__meta_field__object_path"

/-- The member with the service. -/
def metaObjectService : Bytes := bytes "__meta_field__object_service"

/-- What a {lit}`DBusInstance` holds of its properties.  {lit}`state` says that all of them
were obtained. -/
structure InstanceData where
  serviceName : Bytes
  objectPath : Bytes
  targetProperties : DBusPropertyEndpointMap
  memberInstances : Bytes → Option FieldType
  state : Bool

namespace InstanceData

/-- The constructor, which supplements the two meta fields. -/
def construct (serviceName objectPath : Bytes) (targetProperties : DBusPropertyEndpointMap)
    (state : Bool) : InstanceData where
  serviceName := serviceName
  objectPath := objectPath
  targetProperties := targetProperties
  memberInstances := fun memberName =>
    if memberName = metaObjectPath then some (.string objectPath)
    else if memberName = metaObjectService then some (.string serviceName)
    else none
  state := state

/-- {lit}`supplementOrUpdate` -/
def supplementOrUpdate (self : InstanceData) (memberName : Bytes) (value : FieldType) :
    InstanceData :=
  { self with
    memberInstances := fun other =>
      if other = memberName then some value else self.memberInstances other }

/-- {lit}`resolveDBusVariant`: every alternative is one of {lit}`FieldType`. -/
def resolveDBusVariant (self : InstanceData) (memberName : Bytes) (dbusVariant : DbusVariant) :
    InstanceData :=
  self.supplementOrUpdate memberName dbusVariant.val

/-- The setters for an interface. -/
def dbusPropertySetters (self : InstanceData) (interface : Bytes) : List PropertySetter :=
  (self.targetProperties.lookup interface).getD []

/-- The instance is to be read again. -/
def setUninitialized (self : InstanceData) : InstanceData :=
  { self with state := false }

/-- The instance has been read. -/
def setInitialized (self : InstanceData) : InstanceData :=
  { self with state := true }

end InstanceData

/-- What a {lit}`DBusQuery` gives its instances.  The supplement may raise an exception,
after it changed some fields. -/
structure EndpointQuery where
  getSearchPropertiesMap : DBusPropertyEndpointMap
  supplementByStaticFields : InstanceData → Option Exception × InstanceData

namespace EndpointQuery

/-- {lit}`getFormatters`: those of the first setter of the property, whichever its
interface; a property without a setter raises {lit}`QueryException`. -/
def getFormatters (query : EndpointQuery) (property : Bytes) : Except Exception (List Formatter) :=
  let setters := query.getSearchPropertiesMap.flatMap Prod.snd
  match setters.find? fun setter => setter.propertyName = property with
  | some setter => .ok setter.formatters
  | none => .error .runtimeError

/-- The formatters one after the other. -/
def applyFormatters (property : Bytes) : List Formatter → DbusVariant → Except Exception DbusVariant
  | [], value => .ok value
  | formatter :: rest, value =>
      match formatter property value with
      | .ok formattedValue => applyFormatters property rest formattedValue
      | .error exception => .error exception

/-- {lit}`processFormatters` -/
def processFormatters (query : EndpointQuery) (property : Bytes) (value : DbusVariant) :
    Except Exception DbusVariant :=
  match query.getFormatters property with
  | .ok formatters => applyFormatters property formatters value
  | .error exception => .error exception

end EndpointQuery

/-! ## Filling the members -/

/-- An instance in the course of a call, with the exception that ended it.  {lit}`stored`
records what was stored under which member; no code reads it. -/
structure Filling where
  raised : Option Exception
  self : InstanceData
  stored : List (Bytes × DbusVariant)

/-- The loop of {lit}`fillMembers` over the setters. -/
def fillSetters (query : EndpointQuery) (properties : DBusPropertiesMap) :
    List PropertySetter → InstanceData → Filling
  | [], self => ⟨none, self, []⟩
  | setter :: rest, self =>
      match properties.lookup setter.propertyName with
      | none => fillSetters query properties rest self
      | some value =>
          match query.processFormatters setter.propertyName value with
          | .error exception => ⟨some exception, self, []⟩
          | .ok formattedValue =>
              let filling := fillSetters query properties rest
                (self.resolveDBusVariant setter.memberName formattedValue)
              { filling with stored := (setter.memberName, formattedValue) :: filling.stored }

/-- {lit}`fillMembers`; the query is none after its end. -/
def fillMembers (dbusQuery : Option EndpointQuery) (interfaceName : Bytes)
    (properties : DBusPropertiesMap) (self : InstanceData) : Filling :=
  match dbusQuery with
  | none => ⟨none, self, []⟩
  | some query => fillSetters query properties (self.dbusPropertySetters interfaceName) self

/-! ## The signal -/

/-- The body of a {lit}`PropertiesChanged` message: an interface name and the properties,
none where the bus library cannot decode them. -/
structure ChangedMessage where
  interfaceName : Option Bytes
  changedValues : List (Option (Bytes × DbusVariant))

/-- The properties up to the first that cannot be decoded. -/
def decodedValues : List (Option (Bytes × DbusVariant)) → DBusPropertiesMap
  | [] => []
  | none :: _ => []
  | some property :: rest => property :: decodedValues rest

/-- {lit}`message.read` into an empty name and an empty map, as far as it comes.  That it
throws is caught, and the handler goes on with what was read. -/
def ChangedMessage.read (message : ChangedMessage) : Bytes × DBusPropertiesMap :=
  match message.interfaceName with
  | none => ([], [])
  | some interfaceName => (interfaceName, decodedValues message.changedValues)

/-- The handler that {lit}`bindListeners` installs, for a live instance. -/
def onPropertiesChanged (dbusQuery : Option EndpointQuery) (message : ChangedMessage)
    (self : InstanceData) : Filling :=
  let (interfaceName, changedValues) := message.read
  let filling := fillMembers dbusQuery interfaceName changedValues self
  match filling.raised, dbusQuery with
  | none, some query =>
      let (raised, self) := query.supplementByStaticFields filling.self
      { filling with raised, self }
  | _, _ => filling

/-! ## What the setters do -/

/-- The formatters of a setter take the value that was read for its property. -/
def Accepted (query : EndpointQuery) (properties : DBusPropertiesMap) (setter : PropertySetter) :
    Prop :=
  ∀ value, properties.lookup setter.propertyName = some value →
    ∃ formattedValue, query.processFormatters setter.propertyName value = .ok formattedValue

/-- The last setter of a member whose property is there. -/
def Decides (properties : DBusPropertiesMap) (setters : List PropertySetter)
    (setter : PropertySetter) (value : DbusVariant) : Prop :=
  properties.lookup setter.propertyName = some value ∧
    ∃ before after, setters = before ++ setter :: after ∧
      ∀ later ∈ after, later.memberName = setter.memberName →
        properties.lookup later.propertyName = none

/-- What is to be stored for the setters, in their order. -/
def formattedValues (query : EndpointQuery) (properties : DBusPropertiesMap)
    (setters : List PropertySetter) : List (Bytes × DbusVariant) :=
  setters.filterMap fun setter =>
    match properties.lookup setter.propertyName with
    | none => none
    | some value =>
        match query.processFormatters setter.propertyName value with
        | .error _ => none
        | .ok formattedValue => some (setter.memberName, formattedValue)

/-- An instance with some members stored one after the other. -/
def InstanceData.resolveAll (self : InstanceData) (values : List (Bytes × DbusVariant)) :
    InstanceData :=
  values.foldl (fun self value => self.resolveDBusVariant value.1 value.2) self

section

variable {query : EndpointQuery} {properties : DBusPropertiesMap} {setters : List PropertySetter}
  {self : InstanceData}

/-- A value that is formatted is among the formatted ones. -/
theorem mem_formattedValues {setter : PropertySetter} {value formattedValue : DbusVariant}
    (hsetter : setter ∈ setters) (hvalue : properties.lookup setter.propertyName = some value)
    (hformatted : query.processFormatters setter.propertyName value = .ok formattedValue) :
    (setter.memberName, formattedValue) ∈ formattedValues query properties setters := by
  apply List.mem_filterMap.mpr
  refine ⟨setter, hsetter, ?_⟩
  simp only [hvalue, hformatted]

/-- A property that is not there is left out. -/
theorem fillSetters_absent {setter : PropertySetter}
    (hvalue : properties.lookup setter.propertyName = none) :
    fillSetters query properties (setter :: setters) self =
      fillSetters query properties setters self := by
  simp only [fillSetters, hvalue]

/-- A value that is refused ends the setters. -/
theorem fillSetters_refused {setter : PropertySetter} {value : DbusVariant} {exception : Exception}
    (hvalue : properties.lookup setter.propertyName = some value)
    (hrefused : query.processFormatters setter.propertyName value = .error exception) :
    fillSetters query properties (setter :: setters) self = ⟨some exception, self, []⟩ := by
  simp only [fillSetters, hvalue, hrefused]

/-- A value that is formatted is stored. -/
theorem fillSetters_formatted {setter : PropertySetter} {value formattedValue : DbusVariant}
    (hvalue : properties.lookup setter.propertyName = some value)
    (hformatted : query.processFormatters setter.propertyName value = .ok formattedValue) :
    fillSetters query properties (setter :: setters) self =
      let filling := fillSetters query properties setters
        (self.resolveDBusVariant setter.memberName formattedValue)
      { filling with stored := (setter.memberName, formattedValue) :: filling.stored } := by
  simp only [fillSetters, hvalue, hformatted]

/-- The instance is filled with what is recorded. -/
theorem fillSetters_self :
    (fillSetters query properties setters self).self =
      self.resolveAll (fillSetters query properties setters self).stored := by
  induction setters generalizing self with
  | nil => rfl
  | cons setter rest ih =>
      cases hvalue : properties.lookup setter.propertyName with
      | none =>
          rw [fillSetters_absent hvalue]
          exact ih
      | some value =>
          cases hformatted : query.processFormatters setter.propertyName value with
          | error exception =>
              rw [fillSetters_refused hvalue hformatted]
              rfl
          | ok formattedValue =>
              rw [fillSetters_formatted hvalue hformatted]
              exact ih

/-- The loop raises nothing exactly when every property is accepted. -/
theorem fillSetters_raised_eq_none_iff :
    (fillSetters query properties setters self).raised = none ↔
      ∀ setter ∈ setters, Accepted query properties setter := by
  induction setters generalizing self with
  | nil => simp [fillSetters]
  | cons setter rest ih =>
      rw [List.forall_mem_cons]
      cases hvalue : properties.lookup setter.propertyName with
      | none =>
          have haccepted : Accepted query properties setter := by
            intro value hsome
            rw [hvalue] at hsome
            exact absurd hsome (by simp)
          rw [fillSetters_absent hvalue, ih]
          exact (and_iff_right haccepted).symm
      | some value =>
          cases hformatted : query.processFormatters setter.propertyName value with
          | error exception =>
              have hrefused : ¬ Accepted query properties setter := by
                intro haccepted
                obtain ⟨formattedValue, hok⟩ := haccepted value hvalue
                rw [hformatted] at hok
                exact absurd hok (by simp)
              rw [fillSetters_refused hvalue hformatted]
              simp [hrefused]
          | ok formattedValue =>
              have haccepted : Accepted query properties setter := by
                intro other hsome
                have hother : value = other := Option.some.inj (hvalue.symm.trans hsome)
                exact ⟨formattedValue, hother ▸ hformatted⟩
              rw [fillSetters_formatted hvalue hformatted]
              exact ih.trans (and_iff_right haccepted).symm

/-- An exception is that of some formatter. -/
theorem fillSetters_raised {exception : Exception}
    (hraised : (fillSetters query properties setters self).raised = some exception) :
    ∃ property value, query.processFormatters property value = .error exception := by
  induction setters generalizing self with
  | nil => exact absurd hraised (by simp [fillSetters])
  | cons setter rest ih =>
      cases hvalue : properties.lookup setter.propertyName with
      | none =>
          rw [fillSetters_absent hvalue] at hraised
          exact ih hraised
      | some value =>
          cases hformatted : query.processFormatters setter.propertyName value with
          | error refusal =>
              rw [fillSetters_refused hvalue hformatted] at hraised
              exact ⟨_, value, (Option.some.inj hraised) ▸ hformatted⟩
          | ok formattedValue =>
              rw [fillSetters_formatted hvalue hformatted] at hraised
              exact ih hraised

/-- What is raised was raised by a formatter. -/
theorem fillMembers_raised {interfaceName : Bytes} {exception : Exception}
    (hraised : (fillMembers (some query) interfaceName properties self).raised = some exception) :
    ∃ property value, query.processFormatters property value = .error exception :=
  fillSetters_raised hraised

/-- Where every property is accepted, all of them are stored. -/
theorem fillSetters_stored
    (haccepted : ∀ setter ∈ setters, Accepted query properties setter) :
    (fillSetters query properties setters self).stored =
      formattedValues query properties setters := by
  induction setters generalizing self with
  | nil => rfl
  | cons setter rest ih =>
      have hrest : ∀ setter ∈ rest, Accepted query properties setter :=
        fun setter hsetter => haccepted setter (List.mem_cons_of_mem _ hsetter)
      rw [formattedValues, List.filterMap_cons]
      cases hvalue : properties.lookup setter.propertyName with
      | none =>
          rw [fillSetters_absent hvalue]
          exact ih hrest
      | some value =>
          obtain ⟨formattedValue, hformatted⟩ :=
            haccepted setter List.mem_cons_self value hvalue
          rw [fillSetters_formatted hvalue hformatted]
          simp only [hformatted]
          rw [ih hrest]
          rfl

/-- Values may be stored in two parts. -/
theorem resolveAll_append (first second : List (Bytes × DbusVariant)) :
    self.resolveAll (first ++ second) = (self.resolveAll first).resolveAll second := by
  exact List.foldl_append

/-- A member that is stored and not stored again holds the value. -/
theorem memberInstances_resolveAll {before after : List (Bytes × DbusVariant)} {memberName : Bytes}
    {value : DbusVariant} (hafter : ∀ later ∈ after, later.1 ≠ memberName) :
    (self.resolveAll (before ++ (memberName, value) :: after)).memberInstances memberName =
      some value.val := by
  induction after using List.reverseRecOn with
  | nil =>
      rw [resolveAll_append]
      simp [InstanceData.resolveAll, InstanceData.resolveDBusVariant,
        InstanceData.supplementOrUpdate]
  | append_singleton rest later ih =>
      have hlater : memberName ≠ later.1 := by
        intro heq
        exact hafter later (by simp) heq.symm
      have hrest : ∀ other ∈ rest, other.1 ≠ memberName := by
        intro other hother
        exact hafter other (List.mem_append_left _ hother)
      rw [← List.cons_append, ← List.append_assoc, resolveAll_append, ← ih hrest]
      simp [InstanceData.resolveAll, InstanceData.resolveDBusVariant,
        InstanceData.supplementOrUpdate, hlater]

/-- The setter that decides is one of them. -/
theorem Decides.mem {setter : PropertySetter} {value : DbusVariant}
    (h : Decides properties setters setter value) : setter ∈ setters := by
  obtain ⟨-, before, after, hsplit, -⟩ := h
  rw [hsplit]
  exact List.mem_append_right before List.mem_cons_self

/-- What is stored comes from a setter whose property is there. -/
theorem mem_formattedValues_reflects {stored : Bytes × DbusVariant}
    (h : stored ∈ formattedValues query properties setters) :
    ∃ setter ∈ setters, setter.memberName = stored.1 ∧
      properties.lookup setter.propertyName ≠ none := by
  obtain ⟨setter, hmem, hstored⟩ := List.mem_filterMap.mp h
  refine ⟨setter, hmem, ?_⟩
  cases hvalue : properties.lookup setter.propertyName with
  | none => simp [hvalue] at hstored
  | some value =>
      cases hformatted : query.processFormatters setter.propertyName value with
      | error exception => simp [hvalue, hformatted] at hstored
      | ok formattedValue =>
          simp only [hvalue, hformatted, Option.some.injEq] at hstored
          simp [← hstored]

/-- Where nothing raises, the loop leaves the instance with all values. -/
theorem fillSetters_self_of_accepted
    (haccepted : ∀ setter ∈ setters, Accepted query properties setter) :
    (fillSetters query properties setters self).self =
      self.resolveAll (formattedValues query properties setters) := by
  rw [fillSetters_self, fillSetters_stored haccepted]

/-- The member holds what the chain that is found makes for the setter that decides. -/
theorem memberInstances_of_decides
    {setter : PropertySetter} {value formattedValue : DbusVariant}
    (haccepted : ∀ setter ∈ setters, Accepted query properties setter)
    (hdecides : Decides properties setters setter value)
    (hformatted : query.processFormatters setter.propertyName value = .ok formattedValue) :
    (fillSetters query properties setters self).self.memberInstances setter.memberName =
      some formattedValue.val := by
  obtain ⟨hvalue, before, after, hsplit, hafter⟩ := hdecides
  have hvalues : formattedValues query properties setters =
      formattedValues query properties before ++
        (setter.memberName, formattedValue) :: formattedValues query properties after := by
    rw [hsplit, formattedValues, List.filterMap_append, List.filterMap_cons]
    simp only [hvalue, hformatted]
    rfl
  rw [fillSetters_self_of_accepted haccepted, hvalues]
  apply memberInstances_resolveAll
  intro stored hstored hmember
  obtain ⟨later, hlater, hname, hsome⟩ := mem_formattedValues_reflects hstored
  exact hsome (hafter later hlater (hname.trans hmember))

/-! ## When a signal is handled -/

/-- The instance that the supplement gets. -/
def filledInstance (query : EndpointQuery) (message : ChangedMessage) (self : InstanceData) :
    InstanceData :=
  (fillMembers (some query) message.read.1 message.read.2 self).self

/-- The handler ends normally, and the instance that it leaves is the supplemented one whose
members hold each changed property of the interface that its formatters accept, the last
one where several are stored in one member. -/
structure Handled (dbusQuery : Option EndpointQuery) (message : ChangedMessage)
    (object : InstanceData) : Prop where
  returns : (onPropertiesChanged dbusQuery message object).raised = none
  supplemented : ∀ query, dbusQuery = some query →
    (onPropertiesChanged dbusQuery message object).self =
      (query.supplementByStaticFields (filledInstance query message object)).2
  stored : ∀ query, dbusQuery = some query → ∀ setter value formattedValue,
    Decides message.read.2 (object.dbusPropertySetters message.read.1) setter value →
      query.processFormatters setter.propertyName value = .ok formattedValue →
        (filledInstance query message object).memberInstances setter.memberName =
          some formattedValue.val

/-- The formatters take every changed property of the interface, and the supplement takes
the instance that holds their values. -/
def Digestible (dbusQuery : Option EndpointQuery) (message : ChangedMessage)
    (self : InstanceData) : Prop :=
  ∀ query, dbusQuery = some query →
    let setters := self.dbusPropertySetters message.read.1
    (∀ setter ∈ setters, Accepted query message.read.2 setter) ∧
      (query.supplementByStaticFields
        (self.resolveAll (formattedValues query message.read.2 setters))).1 = none

/-- The handler of an instance whose query is alive, with the outcome of the loop. -/
theorem onPropertiesChanged_some {message : ChangedMessage} :
    onPropertiesChanged (some query) message self =
      let filling := fillSetters query message.read.2 (self.dbusPropertySetters message.read.1) self
      if filling.raised = none then
        let supplemented := query.supplementByStaticFields filling.self
        { filling with raised := supplemented.1, self := supplemented.2 }
      else filling := by
  simp only [onPropertiesChanged, fillMembers]
  cases hraised :
      (fillSetters query message.read.2 (self.dbusPropertySetters message.read.1) self).raised with
  | none => simp
  | some exception => simp

/-- When a signal is handled. -/
theorem onPropertiesChanged_handled_iff (dbusQuery : Option EndpointQuery)
    (message : ChangedMessage) (self : InstanceData) :
    Handled dbusQuery message self ↔ Digestible dbusQuery message self := by
  cases dbusQuery with
  | none =>
      have hnone : Handled none message self :=
        ⟨rfl, fun _ hquery => (nomatch hquery), fun _ hquery => nomatch hquery⟩
      exact iff_of_true hnone fun _ hquery => nomatch hquery
  | some query =>
      let properties := message.read.2
      let setters := self.dbusPropertySetters message.read.1
      have hfilled := @fillSetters_raised_eq_none_iff query properties setters self
      constructor
      · rintro ⟨hraised, -, -⟩ other hother
        obtain rfl : query = other := Option.some.inj hother
        rw [onPropertiesChanged_some] at hraised
        by_cases hnone : (fillSetters query properties setters self).raised = none
        · have haccepted := hfilled.mp hnone
          refine ⟨haccepted, ?_⟩
          rw [← fillSetters_self_of_accepted haccepted]
          simpa only [properties, setters, if_pos hnone] using hraised
        · exact absurd (by simpa only [properties, setters, if_neg hnone] using hraised) hnone
      · intro hdigestible
        obtain ⟨haccepted, hsupplement⟩ := hdigestible query rfl
        have hnone := hfilled.mpr haccepted
        have hhandler : onPropertiesChanged (some query) message self = _ :=
          onPropertiesChanged_some.trans (if_pos hnone)
        rw [← fillSetters_self_of_accepted haccepted] at hsupplement
        refine ⟨hhandler ▸ hsupplement, ?_, ?_⟩
        · rintro _ ⟨⟩
          rw [hhandler]
          rfl
        · rintro _ ⟨⟩ setter value formattedValue hdecides hformatted
          exact memberInstances_of_decides haccepted hdecides hformatted

end

/-! ## A power supply -/

/-- {lit}`getNameFromLastSegmentObjectPath` -/
def getNameFromLastSegmentObjectPath (objectPath : Bytes) (cleanup : Bool) : Bytes :=
  if 0x2F ∉ objectPath then objectPath
  else
    let name := objectPath.rtakeWhile (· ≠ 0x2F)
    if cleanup then name.map fun letter => if letter = 0x5F then 0x20 else letter else name

namespace PSU

/-- The interface of a power supply. -/
def psuInventoryIface : Bytes := bytes "xyz.openbmc_project.Inventory.Item.PowerSupply"

/-- The interface of an item. -/
def inventoryItemIface : Bytes := bytes "xyz.openbmc_project.Inventory.Item"

/-- The interface with the data of the maker. -/
def assetsIface : Bytes := bytes "xyz.openbmc_project.Inventory.Decorator.Asset"

/-- The enumerator {lit}`State::enabled`, the only one. -/
def enabled : FieldType := .int32 0

/-- The member of a property has the property's name. -/
def setter (name : String) (formatters : List Formatter) : PropertySetter :=
  ⟨bytes name, bytes name, formatters⟩

/-- {lit}`PSU::Query` -/
def query : EndpointQuery where
  getSearchPropertiesMap :=
    [(assetsIface,
        [setter "Manufacturer" [trimFormatter], setter "Model" [trimFormatter],
          setter "PartNumber" [trimFormatter], setter "SerialNumber" [trimFormatter]]),
      (inventoryItemIface, [setter "PrettyName" []]),
      (psuInventoryIface, [setter "Name" [], setter "Type" [], setter "Connector" []])]
  supplementByStaticFields := fun instance_ =>
    let id := getNameFromLastSegmentObjectPath instance_.objectPath false
    let instance_ := instance_.supplementOrUpdate (bytes "Id") (.string id)
    (none, instance_.supplementOrUpdate (bytes "State") enabled)

/-- The service of the inventory. -/
def serviceName : Bytes := bytes "xyz.openbmc_project.Inventory.Manager"

/-- The path of a power supply. -/
def objectPath : Bytes := bytes "/xyz/openbmc_project/inventory/system/powersupply/psu0"

/-- A signal in which the model is a number. -/
def numericModel : ChangedMessage where
  interfaceName := some assetsIface
  changedValues :=
    [some (bytes "Manufacturer", .string (bytes " Maker ")),
      some (bytes "Model", .uint32 550),
      some (bytes "SerialNumber", .string (bytes "A1"))]

end PSU

/-- The model that is a number raises an exception out of the handler, and the serial
number, which is a text, is not stored. -/
theorem numericModel_not_handled :
    let instance_ := InstanceData.construct PSU.serviceName PSU.objectPath
      PSU.query.getSearchPropertiesMap true
    let filling := onPropertiesChanged (some PSU.query) PSU.numericModel instance_
    ¬ Handled (some PSU.query) PSU.numericModel instance_ ∧
      filling.raised = some .logicError ∧
      filling.self.memberInstances (bytes "Manufacturer") = some (.string (bytes "Maker")) ∧
      filling.self.memberInstances (bytes "SerialNumber") = none ∧
      PSU.query.processFormatters (bytes "SerialNumber") (.string (bytes "A1")) =
        .ok (.string (bytes "A1")) := by
  intro instance_ filling
  have hraised : filling.raised = some .logicError := by decide
  refine ⟨?_, hraised, by decide, by decide, by decide⟩
  intro hhandled
  exact absurd (hraised.symm.trans hhandled.returns) (by simp)

end Entity
end ObmcWebapp
