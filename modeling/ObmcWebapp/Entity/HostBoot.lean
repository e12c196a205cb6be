import ObmcWebapp.Entity.VirtualMedia

/-!
# Entity - The boot settings of the host

A settings object has a boot mode and a boot source.  Both end up in the field
{lit}`Mode`: the boot mode is formatted into it, and the supplement then puts the mode of
the source in its place, unless the field has one of the modes that no source stands for.
A source that is not in the dictionary leaves the field as it is, and by then this may be
the mode of an earlier source.

There are two such objects, one for every boot and one for the next.  The service and the
paths at which they are looked for are left out.

Main results:

- Theorem {lit}`HostBootProvider.Tracks.follow_mode`: what a signal makes of the mode.
- Theorem {lit}`HostBootProvider.mode_always_current_iff`: along which histories the mode is
  that of the current settings.
-/

open Library

namespace ObmcWebapp
namespace Entity

/-! ## Stored values -/

section

open InstanceData

variable {query : EndpointQuery} {properties : DBusPropertiesMap} {self : InstanceData}
  {memberName interface : Bytes} {setter : PropertySetter} {defval : Int32}

/-- A number that is there is read. -/
theorem InstanceData.getEnumField_of_number {number : Option Int32}
    (h : self.memberInstances memberName = number.map .int32) :
    self.getEnumField memberName defval = .ok (number.getD defval) := by
  rw [getEnumField, h]
  cases number <;> rfl

/-- A text that is there is read. -/
theorem InstanceData.getStringField_of_text {text : Option Bytes}
    (h : self.memberInstances memberName = text.map .string) :
    self.getStringField memberName = .ok (text.getD fieldValueNotAvailable) := by
  rw [getStringField, h]
  cases text <;> rfl

/-- A value that is read as a text is one. -/
theorem DbusVariant.val_of_getString {value : DbusVariant} {text : Bytes}
    (h : value.getString = some text) :
    value.val = .string text := by
  obtain ⟨alternative, hnull⟩ := value
  cases alternative with
  | string found => exact congrArg FieldType.string (Option.some.inj h)
  | _ => simp [DbusVariant.getString] at h

/-- A property with one formatter is stored as that leaves it. -/
theorem reflectedValue_of_formatter (hquery : query.Orderly)
    (hsetter : (interface, setter) ∈ query.reflections) {formatter : Formatter}
    (hformatter : setter.formatters = [formatter]) :
    query.reflectedValue properties setter =
      (properties.lookup setter.propertyName).bind fun value =>
        match formatter setter.propertyName value with
        | .ok formatted => some formatted.val
        | .error _ => none := by
  rw [EndpointQuery.reflectedValue]
  cases hlookup : properties.lookup setter.propertyName with
  | none => rfl
  | some value =>
      have hown : setter.ownValue value = formatter setter.propertyName value := by
        rw [PropertySetter.ownValue, hformatter, EndpointQuery.applyFormatters]
        cases formatter setter.propertyName value <;> rfl
      simp only [processFormatters_reflection hquery hsetter, hown]
      rfl

/-- A property with a dictionary is stored as its number. -/
theorem reflectedValue_of_dict (hquery : query.Orderly)
    (hsetter : (interface, setter) ∈ query.reflections) {formatterDict : List (Bytes × Int32)}
    {defaultValue : Int32} (hformatter : setter.formatters =
      [formatValueFromDict DbusVariant.getString .int32 formatterDict defaultValue]) :
    query.reflectedValue properties setter =
      ((properties.lookup setter.propertyName).bind fun value =>
        match formatValueFromDict DbusVariant.getString .int32 formatterDict defaultValue
          setter.propertyName value with
        | .ok formatted => formatted.getInt32
        | .error _ => none).map .int32 := by
  rw [reflectedValue_of_formatter hquery hsetter hformatter]
  cases properties.lookup setter.propertyName with
  | none => rfl
  | some value =>
      simp only [Option.bind_some, formatValueFromDict]
      cases value.getString with
      | none => rfl
      | some text => rfl

/-- A text without formatters is stored as it is. -/
theorem reflectedValue_of_text (hquery : query.Orderly)
    (hsetter : (interface, setter) ∈ query.reflections) (hformatters : setter.formatters = [])
    (htext : ∀ value, properties.lookup setter.propertyName = some value →
      value.getString.isSome) :
    query.reflectedValue properties setter =
      ((properties.lookup setter.propertyName).bind DbusVariant.getString).map .string := by
  rw [reflectedValue_of_formatters hquery hsetter hformatters]
  cases hlookup : properties.lookup setter.propertyName with
  | none => rfl
  | some value =>
      obtain ⟨text, hvalue⟩ := Option.isSome_iff_exists.mp (htext value hlookup)
      simp [hvalue, DbusVariant.val_of_getString hvalue]

end

namespace HostBootProvider

open InstanceData

/-! ## Enumerations and fields -/

namespace Mode

/-- The host boots its diagnostic tools. -/
def diags : Int32 := 0

/-- The host boots into its setup. -/
def biosSetup : Int32 := 1

/-- Up to this number a mode has its own property. -/
def dbusOriginModeMax : Int32 := biosSetup

/-- The host boots from the disk. -/
def hdd : Int32 := 2

/-- The host boots from the drive. -/
def cd : Int32 := 3

/-- The host boots over the network. -/
def pxe : Int32 := 4

/-- The host boots from removable media. -/
def usb : Int32 := 5

/-- The host boots as it is configured. -/
def none : Int32 := 6

end Mode

-- the enumeration is called Type
namespace BootType

/-- The older firmware of a host. -/
def legacy : Int32 := 0

/-- The present firmware of a host. -/
def uefi : Int32 := 1

end BootType

/-- The member with the source. -/
def fieldSource : Bytes := bytes "Source"

/-- The member with the mode. -/
def fieldMode : Bytes := bytes "Mode"

/-- The member with the firmware. -/
def fieldType : Bytes := bytes "Type"

/-- The interface with the mode. -/
def modeIface : Bytes := bytes "xyz.openbmc_project.Control.Boot.Mode"

/-- The interface with the source. -/
def sourceIface : Bytes := bytes "xyz.openbmc_project.Control.Boot.Source"

/-- The interface with the firmware. -/
def typeIface : Bytes := bytes "xyz.openbmc_project.Control.Boot.Type"

/-- The property with the mode. -/
def propertyBootMode : Bytes := bytes "BootMode"

/-- The property with the source. -/
def propertyBootSource : Bytes := bytes "BootSource"

/-- The property with the firmware. -/
def propertyBootType : Bytes := bytes "BootType"

/-! ## The formatters and the supplement -/

/-- The dictionary of {lit}`FormatMode`. -/
def modes : List (Bytes × Int32) :=
  let dbusEnum (val : String) : Bytes :=
    bytes "xyz.openbmc_project.Control.Boot.Mode.Modes." ++ bytes val
  [(dbusEnum "Safe", Mode.diags), (dbusEnum "Setup", Mode.biosSetup),
    (dbusEnum "Regular", Mode.none)]

/-- A mode by its text on the bus. -/
def formatMode : Formatter :=
  formatValueFromDict DbusVariant.getString .int32 modes Mode.none

/-- The dictionary of {lit}`FormatSource`. -/
def sources : List (Bytes × Int32) :=
  let dbusEnum (val : String) : Bytes :=
    bytes "xyz.openbmc_project.Control.Boot.Source.Sources." ++ bytes val
  [(dbusEnum "Disk", Mode.hdd), (dbusEnum "ExternalMedia", Mode.cd),
    (dbusEnum "Network", Mode.pxe), (dbusEnum "RemovableMedia", Mode.usb),
    (dbusEnum "Default", Mode.none)]

/-- The mode that {lit}`FormatSource` sets, given the one that it finds. -/
def sourced (mode : Int32) (value : Bytes) : Int32 :=
  match sources.lookup value with
  | some found => if mode > Mode.dbusOriginModeMax then found else mode
  | none => mode

/-- The mode, taken from the source where it has no own property. -/
def formatSource (instance_ : InstanceData) (value : Bytes) : Except Exception InstanceData := do
  let mode ← instance_.getEnumField fieldMode Mode.none
  return instance_.supplementOrUpdate fieldMode (.int32 (sourced mode value))

/-- The dictionary of {lit}`FormatType`. -/
def bootTypes : List (Bytes × Int32) :=
  let dbusEnum (val : String) : Bytes :=
    bytes "xyz.openbmc_project.Control.Boot.Type.Types." ++ bytes val
  [(dbusEnum "Legacy", BootType.legacy), (dbusEnum "EFI", BootType.uefi)]

/-- The firmware by its text on the bus. -/
def formatType : Formatter :=
  formatValueFromDict DbusVariant.getString .int32 bootTypes BootType.legacy

/-- The query adds the mode that the source stands for. -/
def supplementByStaticFields (instance_ : InstanceData) : Option Exception × InstanceData :=
  match instance_.getStringField fieldSource with
  | .error exception => (some exception, instance_)
  | .ok source =>
      match formatSource instance_ source with
      | .error exception => (some exception, instance_)
      | .ok written => (none, written)

/-! ## The configuration -/

/-- The reflected mode. -/
def modeSetter : PropertySetter :=
  ⟨propertyBootMode, fieldMode, [formatMode]⟩

/-- The reflected source. -/
def sourceSetter : PropertySetter :=
  ⟨propertyBootSource, fieldSource, []⟩

/-- The reflected firmware. -/
def typeSetter : PropertySetter :=
  ⟨propertyBootType, fieldType, [formatType]⟩

/-- The query for the settings of every boot. -/
def query : EndpointQuery where
  getSearchPropertiesMap :=
    [(modeIface, [modeSetter]), (sourceIface, [sourceSetter]), (typeIface, [typeSetter])]
  supplementByStaticFields := supplementByStaticFields

end HostBootProvider

namespace HostBootOnceProvider

open HostBootProvider

/-- The interface of a pending reset of the settings. -/
def clearCmosIface : Bytes := bytes "xyz.openbmc_project.Control.Boot.ClearCmos"

/-- The interface of settings that can be off. -/
def enableIface : Bytes := bytes "xyz.openbmc_project.Object.Enable"

/-- The member that says whether the next boot has settings of its own. -/
def fieldOneTime : Bytes := bytes "OneTime"

/-- The member that says whether the settings are to be reset. -/
def fieldClearCmos : Bytes := bytes "ClearCmos"

/-- The property behind both. -/
def propertyEnabled : Bytes := bytes "Enabled"

/-- The reflected duration. -/
def oneTimeSetter : PropertySetter :=
  ⟨propertyEnabled, fieldOneTime, []⟩

/-- The query for the settings of the next boot. -/
def query : EndpointQuery where
  getSearchPropertiesMap :=
    [(clearCmosIface, [⟨fieldClearCmos, fieldClearCmos, []⟩]), (modeIface, [modeSetter]),
      (sourceIface, [sourceSetter]), (typeIface, [typeSetter]), (enableIface, [oneTimeSetter])]
  supplementByStaticFields := supplementByStaticFields

end HostBootOnceProvider

namespace HostBootProvider

open InstanceData HostBootOnceProvider

/-- The query of the object for the next boot, or that for every boot. -/
def bootQuery (oneTime : Bool) : EndpointQuery :=
  if oneTime then HostBootOnceProvider.query else query

/-- The values of the properties that a getter or a formatter reads. -/
def types : PropertyTypes := fun _ property value =>
  (property ∈ [propertyBootMode, propertyBootSource, propertyBootType] →
    value.getString.isSome) ∧
  (property = propertyEnabled → value.getBool.isSome)

/-! ## The settings of an object -/

/-- The boot mode among some properties, as it is formatted. -/
def modeIn (properties : DBusPropertiesMap) : Option Int32 :=
  (properties.lookup propertyBootMode).bind fun value =>
    match formatMode propertyBootMode value with
    | .ok formatted => formatted.getInt32
    | .error _ => none

/-- The source among some properties. -/
def sourceIn (properties : DBusPropertiesMap) : Option Bytes :=
  (properties.lookup propertyBootSource).bind DbusVariant.getString

/-- The mode that the object has as a property. -/
def ownMode (object : WatchedObject types) : Int32 :=
  (modeIn (object.get modeIface)).getD Mode.none

/-- The source of an object, as its instance shows it. -/
def bootSource (object : WatchedObject types) : Bytes :=
  (sourceIn (object.get sourceIface)).getD fieldValueNotAvailable

/-- The mode of the source, unless the object has a mode of its own. -/
def currentMode (object : WatchedObject types) : Int32 :=
  sourced (ownMode object) (bootSource object)

/-- No source that is known gives way to one that is not, while there is no boot mode. -/
def Settles (s : Following types) (change : PropertyChange types) : Prop :=
  ownMode s.object = Mode.none → sources.lookup (bootSource (s.object.changed change)) = none →
    currentMode s.object = Mode.none

instance (s : Following types) (change : PropertyChange types) : Decidable (Settles s change) :=
  inferInstanceAs (Decidable (_ → _ → _))

/-! ## Names -/

/-- The members, in the order of the larger configuration, and its properties. -/
def memberNames : List Bytes :=
  [fieldClearCmos, fieldMode, fieldSource, fieldType, fieldOneTime]

/-- The properties of both queries. -/
def propertyNames : List Bytes :=
  [fieldClearCmos, propertyBootMode, propertyBootSource, propertyBootType, propertyEnabled]

/-- The interfaces of both queries. -/
def interfaceNames : List Bytes :=
  [clearCmosIface, modeIface, sourceIface, typeIface, enableIface]

/-- What is to be known about the literals. -/
structure NamesApart : Prop where
  interfaces : interfaceNames.Nodup
  members : memberNames.Nodup
  properties : propertyNames.Nodup
  metaMembers : ∀ memberName ∈ memberNames, memberName ∉ [metaObjectPath, metaObjectService]
  notAvailable : sources.lookup fieldValueNotAvailable = none

/-- The names are apart. -/
theorem names_apart : NamesApart := by
  constructor
  all_goals decide

/-! ## The supplement -/

section

variable {self : InstanceData} {mode : Int32} {source : Bytes}

/-- What the query adds where the getters succeed. -/
theorem supplement_of_getters (hmode : self.getEnumField fieldMode Mode.none = .ok mode)
    (hsource : self.getStringField fieldSource = .ok source) :
    (supplementByStaticFields self).2 =
      self.supplementOrUpdate fieldMode (.int32 (sourced mode source)) := by
  simp only [supplementByStaticFields, hsource, formatSource, hmode]
  rfl

/-- The query writes the mode alone. -/
theorem writes_supplement : Writes [fieldMode] self (supplementByStaticFields self).2 := by
  cases hsource : self.getStringField fieldSource with
  | error exception =>
      simp only [supplementByStaticFields, hsource]
      exact .refl
  | ok source =>
      cases hmode : self.getEnumField fieldMode Mode.none with
      | error exception =>
          simp only [supplementByStaticFields, hsource, formatSource, hmode]
          exact .refl
      | ok mode =>
          rw [supplement_of_getters hmode hsource]
          exact .supplementOrUpdate List.mem_cons_self

end

/-! ## The two queries -/

/-- A query with the three settings, which {lit}`FormatSource` supplements. -/
structure Settings (query : EndpointQuery) : Prop where
  orderly : query.Orderly
  accepts : ∀ interface, query.Accepts types interface
  mode : (modeIface, modeSetter) ∈ query.reflections
  source : (sourceIface, sourceSetter) ∈ query.reflections
  type : (typeIface, typeSetter) ∈ query.reflections
  supplement : query.supplementByStaticFields = supplementByStaticFields

section

variable {oneTime : Bool}

/-- The setters of both queries, as far as they have a formatter. -/
theorem formatters_of_mem {reflection : Bytes × PropertySetter}
    (h : reflection ∈ (bootQuery oneTime).reflections) :
    reflection.2.formatters = [] ∨ reflection.2 = modeSetter ∨ reflection.2 = typeSetter := by
  cases oneTime with
  | false =>
      simp only [bootQuery, EndpointQuery.reflections, query, List.flatMap_cons, List.flatMap_nil,
        List.map_cons, List.map_nil, List.cons_append, List.nil_append, List.mem_cons,
        List.not_mem_nil, or_false, Bool.false_eq_true, if_false] at h
      rcases h with rfl | rfl | rfl
      all_goals simp [sourceSetter]
  | true =>
      simp only [bootQuery, EndpointQuery.reflections, HostBootOnceProvider.query,
        List.flatMap_cons, List.flatMap_nil, List.map_cons, List.map_nil, List.cons_append,
        List.nil_append, List.mem_cons, List.not_mem_nil, or_false, if_true] at h
      rcases h with rfl | rfl | rfl | rfl | rfl
      all_goals simp [sourceSetter, oneTimeSetter]

/-- Each interface and each member of the queries stands once. -/
theorem bootQuery_orderly : (bootQuery oneTime).Orderly where
  interfaces := by
    cases oneTime with
    | false =>
        show [modeIface, sourceIface, typeIface].Nodup
        decide
    | true => exact (names_apart).interfaces
  members := by
    cases oneTime with
    | false =>
        show [fieldMode, fieldSource, fieldType].Nodup
        decide
    | true => exact (names_apart).members
  properties := by
    cases oneTime with
    | false =>
        show [propertyBootMode, propertyBootSource, propertyBootType].Nodup
        decide
    | true => exact (names_apart).properties
  plain := by
    have hmembers : ∀ memberName ∈ (bootQuery oneTime).reflections.map
        (fun reflection => reflection.2.memberName),
          memberName ∉ [metaObjectPath, metaObjectService] := by
      intro memberName hmem
      apply (names_apart).metaMembers
      cases oneTime with
      | false =>
          have hsub : [fieldMode, fieldSource, fieldType] ⊆ memberNames := by decide
          exact hsub hmem
      | true => exact hmem
    exact fun reflection hreflection => hmembers _ (List.mem_map_of_mem hreflection)
  supplement := by
    have hframe : ∀ self, ((bootQuery oneTime).supplementByStaticFields self).2 =
        (supplementByStaticFields self).2 := by
      intro self
      cases oneTime <;> rfl
    intro self
    rw [hframe]
    exact ⟨writes_supplement.targetProperties, writes_supplement.objectPath⟩
  formatters := by
    intro property value exception
    apply processFormatters_error
    intro reflection hreflection formatter hformatter property value exception herror
    rcases formatters_of_mem hreflection with hnone | hsetter | hsetter
    · rw [hnone] at hformatter
      exact absurd hformatter List.not_mem_nil
    · rw [hsetter, modeSetter, List.mem_singleton] at hformatter
      subst hformatter
      exact formatValueFromDict_error herror
    · rw [hsetter, typeSetter, List.mem_singleton] at hformatter
      subst hformatter
      exact formatValueFromDict_error herror

/-- The formatters accept what the objects have. -/
theorem bootQuery_accepts (interface : Bytes) : (bootQuery oneTime).Accepts types interface := by
  intro setter hsetter value htyped
  rw [processFormatters_reflection bootQuery_orderly hsetter]
  rcases formatters_of_mem hsetter with hnone | hmode | htype
  · rw [PropertySetter.ownValue, hnone]
    exact ⟨value, rfl⟩
  · obtain rfl : setter = modeSetter := hmode
    obtain ⟨text, htext⟩ := Option.isSome_iff_exists.mp (htyped.1 (by simp [modeSetter]))
    simp [modeSetter, PropertySetter.ownValue, EndpointQuery.applyFormatters, formatMode,
      formatValueFromDict, htext]
  · obtain rfl : setter = typeSetter := htype
    obtain ⟨text, htext⟩ := Option.isSome_iff_exists.mp (htyped.1 (by simp [typeSetter]))
    simp [typeSetter, PropertySetter.ownValue, EndpointQuery.applyFormatters, formatType,
      formatValueFromDict, htext]

/-- Both queries are for settings. -/
theorem settings_bootQuery (oneTime : Bool) : Settings (bootQuery oneTime) where
  orderly := bootQuery_orderly
  accepts := bootQuery_accepts
  mode := by
    cases oneTime <;> simp [bootQuery, EndpointQuery.reflections, query,
      HostBootOnceProvider.query]
  source := by
    cases oneTime <;> simp [bootQuery, EndpointQuery.reflections, query,
      HostBootOnceProvider.query]
  type := by
    cases oneTime <;> simp [bootQuery, EndpointQuery.reflections, query,
      HostBootOnceProvider.query]
  supplement := by
    cases oneTime <;> rfl

end

/-! ## What is stored -/

section

variable {query : EndpointQuery} {properties earlier : DBusPropertiesMap}

/-- What is found in a dictionary has a property that all entries and the default have. -/
theorem getD_lookup {κ ρ : Type} [BEq κ] [LawfulBEq κ] {P : ρ → Prop} {entries : List (κ × ρ)}
    {default : ρ} (hentries : ∀ entry ∈ entries, P entry.2) (hdefault : P default) (key : κ) :
    P ((entries.lookup key).getD default) := by
  cases hlookup : entries.lookup key with
  | none => exact hdefault
  | some value =>
      obtain ⟨before, after, rfl, -⟩ := List.lookup_eq_some_iff.mp hlookup
      exact hentries (key, value) (List.mem_append_right before List.mem_cons_self)

/-- A mode of its own, which no source stands for, or no mode. -/
def IsOwn (mode : Int32) : Prop :=
  mode ≤ Mode.dbusOriginModeMax ∨ mode = Mode.none

/-- A text is formatted to a mode of the property's own, or to none. -/
theorem formatMode_of_getString {value : DbusVariant} {text : Bytes}
    (h : value.getString = some text) :
    ∃ mode, formatMode propertyBootMode value = .ok (.int32 mode) ∧ IsOwn mode := by
  rw [formatMode, formatValueFromDict, h]
  refine ⟨_, rfl, ?_⟩
  have hmodes : ∀ entry ∈ modes, entry.2 ≤ Mode.dbusOriginModeMax ∨ entry.2 = Mode.none := by
    decide
  exact @getD_lookup _ _ instBEqOfDecidableEq _ IsOwn _ _ hmodes (.inr rfl) text

/-- The reflected mode is that of the property. -/
theorem Settings.reflectedValue_mode (hquery : Settings query) :
    query.reflectedValue properties modeSetter = (modeIn properties).map .int32 :=
  reflectedValue_of_dict hquery.orderly hquery.mode rfl

/-- The reflected source is that of the property. -/
theorem Settings.reflectedValue_source (hquery : Settings query)
    (htyped : Typed types sourceIface properties) :
    query.reflectedValue properties sourceSetter = (sourceIn properties).map .string := by
  apply reflectedValue_of_text hquery.orderly hquery.source rfl
  exact fun value hlookup => (htyped.of_lookup hlookup).1 (by simp [sourceSetter])

/-- Properties that a signal brings go before the earlier ones. -/
theorem modeIn_append (htyped : Typed types modeIface properties) :
    modeIn (properties ++ earlier) = (modeIn properties).or (modeIn earlier) := by
  simp only [modeIn, List.lookup_append]
  cases hlookup : properties.lookup propertyBootMode with
  | none => simp
  | some value =>
      obtain ⟨text, htext⟩ := Option.isSome_iff_exists.mp
        ((htyped.of_lookup hlookup).1 (by simp))
      obtain ⟨mode, hmode, -⟩ := formatMode_of_getString htext
      simp [hmode, DbusVariant.int32, DbusVariant.getInt32]

/-! ## Loading and following -/

variable {object : WatchedObject types} {s : Following types} {change : PropertyChange types}
  {mode : Int32}

/-- An instance that was just loaded has the current mode. -/
theorem Settings.load_mode (hquery : Settings query) :
    (query.load object).getField fieldMode = some (.int32 (currentMode object)) := by
  have hmode := @loaded_member types query object modeSetter modeIface hquery.orderly
    (hquery.accepts _) hquery.mode
  have hsource := @loaded_member types query object sourceSetter sourceIface hquery.orderly
    (hquery.accepts _) hquery.source
  rw [hquery.reflectedValue_mode] at hmode
  rw [hquery.reflectedValue_source (typed_get object sourceIface)] at hsource
  rw [getField, (load_eq hquery.orderly).1, hquery.supplement,
    supplement_of_getters (getEnumField_of_number hmode) (getStringField_of_text hsource)]
  exact getField_supplementOrUpdate

/-- The instance follows its object, with the current source. -/
structure Tracks (query : EndpointQuery) (s : Following types) : Prop where
  follows : Follows query s
  source : s.self.memberInstances fieldSource =
    query.reflectedValue (s.object.get sourceIface) sourceSetter
  mode : ∃ mode, s.self.getField fieldMode = some (.int32 mode)

/-- The boot mode that a signal brings. -/
def broughtMode (object : WatchedObject types) (change : PropertyChange types) : Option Int32 :=
  if change.interfaceName = modeIface ∧ modeIface ∈ object.interfaces then
    modeIn change.changedValues
  else none

/-- A change brings a mode, or leaves the one that the object has. -/
theorem ownMode_changed : ownMode (object.changed change) =
    (broughtMode object change).getD (ownMode object) := by
  rw [ownMode, get_changed, broughtMode]
  split
  · next h =>
      rw [modeIn_append (h.1 ▸ change.typed), ownMode]
      cases modeIn change.changedValues <;> rfl
  · rfl

/-- The query leaves the source. -/
theorem source_kept (self : InstanceData) :
    (supplementByStaticFields self).2.memberInstances fieldSource =
      self.memberInstances fieldSource :=
  writes_supplement.others fieldSource (by decide)

/-- A new instance shows mode and source. -/
theorem tracks_load (hquery : Settings query) :
    Tracks query { object, self := query.load object } where
  follows := follows_load hquery.orderly
  source := load_member hquery.orderly (hquery.accepts _) hquery.source fun self => by
    rw [hquery.supplement]
    exact source_kept self
  mode := ⟨_, hquery.load_mode⟩

/-- A signal brings a boot mode or leaves the mode that is there, and the current source is
then put in its place where it may be. -/
theorem Tracks.follow_mode (hquery : Settings query) (h : Tracks query s)
    (hmode : s.self.getField fieldMode = some (.int32 mode)) (hwatched : s.watches change = true) :
    (query.follow s change).self.getField fieldMode =
      some (.int32 (sourced ((broughtMode s.object change).getD mode)
        (bootSource (s.object.changed change)))) := by
  let filled := query.filled change.interfaceName change.changedValues s.self
  have hfilled : filled.memberInstances fieldMode =
      ((broughtMode s.object change).or (some mode)).map .int32 := by
    have hmember := @filled_reflected query change.changedValues s.self modeSetter modeIface
      change.interfaceName s.object.interfaces hquery.orderly h.follows.watches hquery.mode
      fun heq other hother => accepted_of_typed (hquery.accepts _) (heq ▸ change.typed) hother
    rw [hquery.reflectedValue_mode] at hmember
    refine hmember.trans ?_
    have hold : s.self.memberInstances modeSetter.memberName = some (.int32 mode) := hmode
    rw [hold, broughtMode]
    split
    · cases modeIn change.changedValues <;> rfl
    · rfl
  have hsource := @filled_changed types query sourceSetter sourceIface s change hquery.orderly
    h.follows (hquery.accepts _) hquery.source h.source
  rw [hquery.reflectedValue_source (typed_get _ sourceIface)] at hsource
  rw [follow_self_of_accepts hquery.orderly h.follows (hquery.accepts _) hwatched,
    hquery.supplement, supplement_of_getters (getEnumField_of_number hfilled)
      (getStringField_of_text hsource), getField_supplementOrUpdate]
  cases broughtMode s.object change <;> rfl

theorem Tracks.follow (hquery : Settings query) (h : Tracks query s) :
    Tracks query (query.follow s change) where
  follows := h.follows.follow hquery.orderly
  source := follow_member hquery.orderly h.follows (hquery.accepts _) hquery.source (fun self => by
    rw [hquery.supplement]
    exact source_kept self) h.source
  mode := by
    obtain ⟨mode, hmode⟩ := h.mode
    cases hwatched : s.watches change with
    | false =>
        rw [follow_self_of_not hwatched]
        exact ⟨mode, hmode⟩
    | true => exact ⟨_, h.follow_mode hquery hmode hwatched⟩

theorem tracks_after (hquery : Settings query) (history : List (PropertyChange types)) :
    Tracks query (query.after object history) := by
  induction history using List.reverseRecOn with
  | nil => exact tracks_load hquery
  | append_singleton history change ih =>
      rw [after_snoc]
      exact ih.follow hquery

end

/-! ## The mode along a history -/

section

variable {object : WatchedObject types} {query : EndpointQuery} {s : Following types}
  {change : PropertyChange types} {mode : Int32} {source later : Bytes}

/-- A mode of an object has its own property, or is none. -/
theorem isOwn_ownMode (object : WatchedObject types) : IsOwn (ownMode object) := by
  rw [ownMode, modeIn]
  cases hlookup : (object.get modeIface).lookup propertyBootMode with
  | none => exact .inr rfl
  | some value =>
      obtain ⟨text, htext⟩ := Option.isSome_iff_exists.mp
        (((typed_get object modeIface).of_lookup hlookup).1 (by simp))
      obtain ⟨mode, hmode, hown⟩ := formatMode_of_getString htext
      rw [Option.bind_some, hmode]
      exact hown

/-- A mode with its own property does not depend on the source. -/
theorem sourced_of_le (h : mode ≤ Mode.dbusOriginModeMax) : sourced mode source = mode := by
  rw [sourced]
  split
  · exact if_neg (Int32.not_lt.mpr h)
  · rfl

/-- Any other mode is that of the source, where it is known. -/
theorem sourced_of_lt (h : Mode.dbusOriginModeMax < mode) :
    sourced mode source = (sources.lookup source).getD mode := by
  rw [sourced]
  split
  · next hlookup => rw [if_pos h, hlookup, Option.getD_some]
  · next hlookup => rw [hlookup, Option.getD_none]

/-- Without a mode the source decides. -/
theorem sourced_none_lt : Mode.dbusOriginModeMax < sourced Mode.none source := by
  rw [sourced_of_lt (by decide)]
  exact getD_lookup (P := fun mode => Mode.dbusOriginModeMax < mode) (by decide) (by decide) source

/-- A later source takes the place of an earlier one, unless it is not known. -/
theorem sourced_sourced_iff (hown : IsOwn mode) :
    sourced (sourced mode source) later = sourced mode later ↔
      (mode = Mode.none → sources.lookup later = none → sourced mode source = Mode.none) := by
  rcases hown with hle | rfl
  · rw [sourced_of_le hle]
    refine iff_of_true rfl ?_
    rintro rfl
    exact absurd hle (by decide)
  · have hnone : ∀ text, sourced Mode.none text = (sources.lookup text).getD Mode.none :=
      fun _ => sourced_of_lt (by decide)
    rw [sourced_of_lt sourced_none_lt, hnone later]
    cases hlookup : sources.lookup later with
    | none => simp
    | some found => simp

/-- The mode is that of the current settings. -/
def ModeCurrent (s : Following types) : Prop :=
  s.self.getField fieldMode = some (.int32 (currentMode s.object))

/-- Only the interface of the signal is another one. -/
theorem bootSource_changed (h : change.interfaceName ≠ sourceIface) :
    bootSource (object.changed change) = bootSource object := by
  rw [bootSource, get_changed, if_neg fun hboth => h hboth.1, List.nil_append]
  rfl

/-- After a change the mode is current if and only if the change settles. -/
theorem Tracks.modeCurrent_follow_iff (hquery : Settings query) (h : Tracks query s)
    (hcurrent : ModeCurrent s) :
    ModeCurrent (query.follow s change) ↔ Settles s change := by
  have hunchanged : bootSource (s.object.changed change) = bootSource s.object →
      Settles s change := by
    intro hsource hnone hlookup
    rw [currentMode, hnone, sourced_of_lt (by decide), ← hsource, hlookup, Option.getD_none]
  cases hwatched : s.watches change with
  | false =>
      have hmodes := get_changed_of_not h.follows hquery.mode hwatched
      have hsources := get_changed_of_not h.follows hquery.source hwatched
      refine iff_of_true ?_ (hunchanged (by rw [bootSource, hsources]; rfl))
      rw [ModeCurrent, follow_self_of_not hwatched, EndpointQuery.follow, currentMode, ownMode,
        bootSource, hmodes, hsources]
      exact hcurrent
  | true =>
      have hfresh : currentMode (query.follow s change).object =
          sourced ((broughtMode s.object change).getD (ownMode s.object))
            (bootSource (s.object.changed change)) := by
        rw [← ownMode_changed]
        rfl
      rw [ModeCurrent, h.follow_mode hquery hcurrent hwatched, hfresh]
      cases hbrought : broughtMode s.object change with
      | some brought =>
          -- a boot mode comes alone, so that the source is the earlier one
          refine iff_of_true rfl (hunchanged (bootSource_changed ?_))
          intro hname
          have hifaces : change.interfaceName ≠ modeIface := by
            rw [hname]
            decide
          simp [broughtMode, hifaces] at hbrought
      | none =>
          simp only [Option.getD_none, Option.some.injEq, FieldType.int32.injEq, currentMode]
          exact sourced_sourced_iff (isOwn_ownMode s.object)

/-- Along a history the mode is that of the current settings exactly where no known source
gives way to an unknown one while there is no boot mode.  This is so for both objects. -/
theorem mode_always_current_iff (oneTime : Bool) (object : WatchedObject types)
    (history : List (PropertyChange types)) :
    (∀ before rest, history = before ++ rest →
      ((bootQuery oneTime).after object before).self.getField fieldMode =
        some (.int32 (currentMode ((bootQuery oneTime).after object before).object))) ↔
      ∀ before change rest, history = before ++ change :: rest →
        Settles ((bootQuery oneTime).after object before) change := by
  have hquery := settings_bootQuery oneTime
  apply @after_always_iff _ _ _ ModeCurrent
  · exact hquery.load_mode
  · intro history hcurrent change
    exact (tracks_after hquery history).modeCurrent_follow_iff hquery hcurrent

end

end HostBootProvider
end Entity
end ObmcWebapp
