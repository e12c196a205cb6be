import ObmcWebapp.Entity.Histories
import ObmcWebapp.Entity.StatusRollup

/-!
# Entity - The status of a sensor

A sensor has alarms at two interfaces, one for warnings and one for critical values.  After
every signal {lit}`setStatus` goes through a map from statuses to alarm fields and takes the
first status that has an alarm set.  The alarms of the critical interface stand under
{lit}`ok`, the first key.

Main results:

- Theorem {lit}`Sensors.reports_after`: the status is always computed from the current alarms.
- Theorem {lit}`Sensors.status_severity_iff`: when it is the severity of these alarms.
-/

open Library

namespace ObmcWebapp
namespace Entity

/-- {lit}`getBoolValue` of a field, false where it is no truth value. -/
def Field.getBoolValue (field : Field) : Bool :=
  match field.getValue with
  | .bool value => value
  | _ => false

namespace Sensors

open StatusProvider InstanceData

/-! ## Interfaces and fields -/

/-- The interface with the alarms that warn. -/
def sensorThresholdWarningInterface : Bytes := bytes "xyz.openbmc_project.Sensor.Threshold.Warning"

/-- The interface with the critical alarms. -/
def sensorThresholdCriticalInterface : Bytes :=
  bytes "xyz.openbmc_project.Sensor.Threshold.Critical"

/-- The interface with the reading. -/
def sensorValueInterface : Bytes := bytes "xyz.openbmc_project.Sensor.Value"

/-- The interface that says whether the sensor is there. -/
def sensorAvailabilityInterface : Bytes :=
  bytes "xyz.openbmc_project.State.Decorator.Availability"

/-- The interface that says whether the sensor works. -/
def sensorOperationalStatusInterface : Bytes :=
  bytes "xyz.openbmc_project.State.Decorator.OperationalStatus"

/-- The interface with the associations. -/
def assocDefIface : Bytes := bytes "xyz.openbmc_project.Association.Definitions"

/-- The member with the upper alarm that warns. -/
def fieldWarningAlarmHigh : Bytes := bytes "WarningAlarmHigh"

/-- The member with the lower alarm that warns. -/
def fieldWarningAlarmLow : Bytes := bytes "WarningAlarmLow"

/-- The member with the upper critical alarm. -/
def fieldCriticalAlarmHigh : Bytes := bytes "CriticalAlarmHigh"

/-- The member with the lower critical alarm. -/
def fieldCriticalAlarmLow : Bytes := bytes "CriticalAlarmLow"

/-- The member that says whether the sensor is there. -/
def fieldAvailable : Bytes := bytes "Available"

/-- The member with the reading. -/
def fieldReading : Bytes := bytes "Reading"

/-- The member with the state. -/
def fieldState : Bytes := bytes "State"

/-! ## The formatters -/

/-- {lit}`FormatUnit`; {lit}`unkown` is 8. -/
def formatUnit : Formatter :=
  let longDBusEnum (enumStr : String) : Bytes :=
    bytes "xyz.openbmc_project.Sensor.Value.Unit." ++ bytes enumStr
  formatValueFromDict DbusVariant.getString .int32
    [(longDBusEnum "DegreesC", 0), (longDBusEnum "Volts", 1), (longDBusEnum "RPMS", 2),
      (longDBusEnum "Meters", 3), (longDBusEnum "Amperes", 4), (longDBusEnum "Watts", 5),
      (longDBusEnum "Joules", 6), (longDBusEnum "Percent", 7)] 8

/-- {lit}`FormatAssociatedInventory`: the first association with one of two purposes. -/
def formatAssociatedInventory : Formatter := fun _ value =>
  let inventorySlugList := [bytes "inventory", bytes "cpu"]
  match value.val with
  | .associations associations =>
      match associations.find? fun association => association.1 ∈ inventorySlugList with
      | some (_, _, inventory) => .ok (.string (getNameFromLastSegmentObjectPath inventory false))
      | none => .ok (.string fieldValueNotAvailable)
  | _ => .ok (.string fieldValueNotAvailable)

/-! ## The supplement -/

/-- Identifier and name are in the object path. -/
def setSensorName (instance_ : InstanceData) : InstanceData :=
  (instance_.supplementOrUpdate (bytes "Id")
    (.string (getNameFromLastSegmentObjectPath instance_.objectPath false))).supplementOrUpdate
      (bytes "Name") (.string (getNameFromLastSegmentObjectPath instance_.objectPath true))

/-- A sensor is there unless it says otherwise. -/
def setAvailable (instance_ : InstanceData) : InstanceData :=
  if Field.isNull (instance_.getField fieldAvailable) then
    instance_.supplementOrUpdate fieldAvailable (.bool true)
  else instance_

/-- In the order of its keys. -/
def alarmFieldsDict : List (Int32 × List Bytes) :=
  [(ok, [fieldCriticalAlarmHigh, fieldCriticalAlarmLow]),
    (warning, [fieldWarningAlarmHigh, fieldWarningAlarmLow])]

/-- The loop of {lit}`setStatus`: the first entry with an alarm that is set. -/
def alarmStatus (compareAlarmFn : Bytes → Bool) : Int32 :=
  match alarmFieldsDict.find? fun entry => entry.2.any compareAlarmFn with
  | some entry => entry.1
  | none => ok

/-- {lit}`setStatus`; {lit}`getBoolValue` raises nothing. -/
def setStatus (instance_ : InstanceData) : InstanceData :=
  instance_.supplementOrUpdate fieldStatus
    (.int32 (alarmStatus fun value => Field.getBoolValue (instance_.getField value)))

/-- {lit}`setState`, with the enumerators {lit}`enabled` and {lit}`absent`. -/
def setState (instance_ : InstanceData) : InstanceData :=
  let instance_ := instance_.supplementOrUpdate fieldState (.int32 1)
  if Field.getBoolValue (instance_.getField fieldAvailable) then
    instance_.supplementOrUpdate fieldState (.int32 0)
  else instance_

/-- {lit}`GroupParser`, with the enumerators {lit}`power`, {lit}`thermal` and {lit}`sensors`. -/
def parseGroup (objectPath : Bytes) : Int32 :=
  let path (segment : String) : Bytes := bytes "/xyz/openbmc_project/sensors/" ++ bytes segment
  let groups : List (Int32 × List Bytes) :=
    [(0, [path "voltage/", path "power/"]),
      (1, [path "fan_tach/", path "temperature/", path "fan_pwm/"])]
  match groups.find? fun group => group.2.any (·.isPrefixOf objectPath) with
  | some group => group.1
  | none => 2

/-- The group is in the object path. -/
def setGroup (instance_ : InstanceData) : InstanceData :=
  instance_.supplementOrUpdate (bytes "Group") (.int32 (parseGroup instance_.objectPath))

/-- {lit}`setNaturalReading`, given how a double becomes an integer. -/
def setNaturalReading (toInt64 : UInt64 → Int64) (instance_ : InstanceData) :
    Option Exception × InstanceData :=
  let set (reading : UInt64) :=
    instance_.supplementOrUpdate (bytes "ReadingNatural") (.int64 (toInt64 reading))
  match instance_.getField fieldReading with
  | none | some .null => (none, set 0)
  | some (.double reading) => (none, set reading)
  | some _ => (some .badVariantAccess, instance_)

/-- What the query adds, in its order. -/
def supplementByStaticFields (toInt64 : UInt64 → Int64) (instance_ : InstanceData) :
    Option Exception × InstanceData :=
  let instance_ := setSensorName instance_
  let instance_ := setAvailable instance_
  let instance_ := setStatus instance_
  let instance_ := setState instance_
  let instance_ := setGroup instance_
  setNaturalReading toInt64 instance_

/-- {lit}`DBUS_QUERY_EP_FIELDS_ONLY` -/
def fieldsOnly (propertyName memberName : String) : PropertySetter :=
  ⟨bytes propertyName, bytes memberName, []⟩

/-- {lit}`SensorQuery` -/
def query (toInt64 : UInt64 → Int64) : EndpointQuery where
  getSearchPropertiesMap :=
    [(sensorValueInterface,
        [fieldsOnly "Value" "Reading", fieldsOnly "MinValue" "MinValue",
          fieldsOnly "MaxValue" "MaxValue", ⟨bytes "Unit", bytes "Unit", [formatUnit]⟩]),
      (sensorThresholdWarningInterface,
        [fieldsOnly "WarningAlarmLow" "WarningAlarmLow",
          fieldsOnly "WarningAlarmHigh" "WarningAlarmHigh", fieldsOnly "WarningLow" "LowWarning",
          fieldsOnly "WarningHigh" "HighWarning"]),
      (sensorThresholdCriticalInterface,
        [fieldsOnly "CriticalAlarmHigh" "CriticalAlarmHigh",
          fieldsOnly "CriticalAlarmLow" "CriticalAlarmLow", fieldsOnly "CriticalLow" "LowCritical",
          fieldsOnly "CriticalHigh" "HighCritical"]),
      (sensorAvailabilityInterface, [fieldsOnly "Available" "Available"]),
      (sensorOperationalStatusInterface, [fieldsOnly "Functional" "Functional"]),
      (assocDefIface,
        [⟨bytes "Associations", bytes "AssociatedInventoryId", [formatAssociatedInventory]⟩])]
  supplementByStaticFields := supplementByStaticFields toInt64

/-! ## Severity -/

variable {types : PropertyTypes}

/-- An alarm of the object is there and true. -/
def alarmIsSet (object : WatchedObject types) (interface property : Bytes) : Bool :=
  match (object.get interface).lookup property with
  | some value => value.val = .bool true
  | none => false

/-- One of the critical alarms of an object is set. -/
def criticalAlarm (object : WatchedObject types) : Bool :=
  alarmIsSet object sensorThresholdCriticalInterface fieldCriticalAlarmHigh ||
    alarmIsSet object sensorThresholdCriticalInterface fieldCriticalAlarmLow

/-- One of the alarms of an object that warn is set. -/
def warningAlarm (object : WatchedObject types) : Bool :=
  alarmIsSet object sensorThresholdWarningInterface fieldWarningAlarmHigh ||
    alarmIsSet object sensorThresholdWarningInterface fieldWarningAlarmLow

/-- The status that the current alarms call for. -/
def severity (object : WatchedObject types) : Int32 :=
  if criticalAlarm object then critical else if warningAlarm object then warning else ok

/-! ## The supplement -/

section

variable {toInt64 : UInt64 → Int64} {self : InstanceData}

/-- The fields that are supplemented. -/
def supplemented : List Bytes :=
  [bytes "Id", bytes "Name", fieldAvailable, fieldStatus, fieldState, bytes "Group",
    bytes "ReadingNatural"]

/-- The members with the alarms. -/
def alarmFields : List Bytes :=
  [fieldCriticalAlarmHigh, fieldCriticalAlarmLow, fieldWarningAlarmHigh, fieldWarningAlarmLow]

/-- What is to be known about the literals of the configuration. -/
structure NamesApart (query : EndpointQuery) : Prop where
  interfaces : (query.getSearchPropertiesMap.map Prod.fst).Nodup
  members : (query.reflections.map fun reflection => reflection.2.memberName).Nodup
  properties : (query.reflections.map fun reflection => reflection.2.propertyName).Nodup
  metaMembers : ∀ reflection ∈ query.reflections,
    reflection.2.memberName ∉ [metaObjectPath, metaObjectService]
  status : ∀ reflection ∈ query.reflections, reflection.2.memberName ≠ fieldStatus
  thresholds : ∀ reflection ∈ query.reflections,
    reflection.1 ∈ [sensorThresholdWarningInterface, sensorThresholdCriticalInterface] →
      reflection.2.formatters.length = 0
  alarmFields : ∀ field ∈ alarmFields, field ∉ supplemented
  afterStatus : fieldStatus ∉ [fieldState, bytes "Group", bytes "ReadingNatural"]

/-- The conversion of readings matters for none of them. -/
theorem names_apart : NamesApart (query fun _ => 0) := by
  constructor
  all_goals decide

/-- {lit}`setSensorName` writes added members alone. -/
theorem writes_setSensorName : Writes supplemented self (setSensorName self) := by
  exact (Writes.supplementOrUpdate (by simp [supplemented])).trans
    (.supplementOrUpdate (by simp [supplemented]))

/-- {lit}`setAvailable` writes added members alone. -/
theorem writes_setAvailable : Writes supplemented self (setAvailable self) := by
  unfold setAvailable
  split
  · exact .supplementOrUpdate (by simp [supplemented])
  · exact .refl

/-- What follows {lit}`setStatus`. -/
theorem writes_afterStatus : Writes [fieldState, bytes "Group", bytes "ReadingNatural"] self
    (setNaturalReading toInt64 (setGroup (setState self))).2 := by
  have hstate : Writes [fieldState, bytes "Group", bytes "ReadingNatural"] self
      (setState self) := by
    unfold setState
    dsimp only
    split
    · exact .trans (.supplementOrUpdate (by simp)) (.supplementOrUpdate (by simp))
    · exact .supplementOrUpdate (by simp)
  have hgroup : Writes [fieldState, bytes "Group", bytes "ReadingNatural"] (setState self)
      (setGroup (setState self)) :=
    .supplementOrUpdate (by simp)
  refine (hstate.trans hgroup).trans ?_
  unfold setNaturalReading
  split
  · exact .supplementOrUpdate (by simp)
  · exact .supplementOrUpdate (by simp)
  · exact .supplementOrUpdate (by simp)
  · exact .refl

theorem writes_beforeStatus : Writes supplemented self (setAvailable (setSensorName self)) :=
  writes_setSensorName.trans writes_setAvailable

/-- The query adds no other member. -/
theorem writes_supplement :
    Writes supplemented self (supplementByStaticFields toInt64 self).2 := by
  have hstatus : Writes supplemented (setAvailable (setSensorName self))
      (setStatus (setAvailable (setSensorName self))) :=
    .supplementOrUpdate (by simp [supplemented])
  exact (writes_beforeStatus.trans hstatus).trans
    (writes_afterStatus.mono (by simp [supplemented]))

/-- The critical alarms go before those that warn. -/
theorem alarmStatus_eq (alarm : Bytes → Bool) :
    alarmStatus alarm =
      if alarm fieldCriticalAlarmHigh || alarm fieldCriticalAlarmLow then ok
      else if alarm fieldWarningAlarmHigh || alarm fieldWarningAlarmLow then warning
      else ok := by
  simp only [alarmStatus, alarmFieldsDict, List.find?_cons, List.any_cons, List.any_nil,
    Bool.or_false]
  cases alarm fieldCriticalAlarmHigh || alarm fieldCriticalAlarmLow with
  | true => rfl
  | false =>
      cases alarm fieldWarningAlarmHigh || alarm fieldWarningAlarmLow with
      | true => rfl
      | false => rfl

/-- Only the four alarms count. -/
theorem alarmStatus_congr {alarm alarm' : Bytes → Bool}
    (h : ∀ field ∈ alarmFields, alarm field = alarm' field) :
    alarmStatus alarm = alarmStatus alarm' := by
  simp only [alarmFields, List.forall_mem_cons, List.not_mem_nil, false_imp_iff, implies_true,
    and_true] at h
  obtain ⟨hcriticalHigh, hcriticalLow, hwarningHigh, hwarningLow⟩ := h
  rw [alarmStatus_eq, alarmStatus_eq, hcriticalHigh, hcriticalLow, hwarningHigh, hwarningLow]

/-- The status of an instance whose alarm fields are as given. -/
def statusOf (instance_ : InstanceData) : Int32 :=
  alarmStatus fun value => Field.getBoolValue (instance_.getField value)

/-- The status comes from the alarms of the instance as it was. -/
theorem status_supplement :
    (supplementByStaticFields toInt64 self).2.getField fieldStatus =
      some (.int32 (statusOf self)) := by
  have hstatus : (supplementByStaticFields toInt64 self).2.getField fieldStatus =
      (setStatus (setAvailable (setSensorName self))).getField fieldStatus :=
    writes_afterStatus.others fieldStatus (names_apart).afterStatus
  have halarms : statusOf (setAvailable (setSensorName self)) = statusOf self := by
    apply alarmStatus_congr
    intro field hfield
    rw [writes_beforeStatus.others field ((names_apart).alarmFields field hfield)]
  rw [hstatus, setStatus, getField_supplementOrUpdate, ← halarms]
  rfl

/-! ## The configuration -/

/-- The associations are always read. -/
theorem formatAssociatedInventory_returns {property : Bytes} {value : DbusVariant}
    {exception : Exception} :
    formatAssociatedInventory property value ≠ .error exception := by
  unfold formatAssociatedInventory
  dsimp only
  split
  · split
    · simp
    · simp
  · simp

/-- Each interface and each member of the query stands once. -/
theorem query_orderly : (query toInt64).Orderly where
  interfaces := (names_apart).interfaces
  members := (names_apart).members
  properties := (names_apart).properties
  plain := (names_apart).metaMembers
  supplement := fun _ => ⟨writes_supplement.targetProperties, writes_supplement.objectPath⟩
  formatters := by
    intro property value exception
    apply processFormatters_error
    intro reflection hreflection formatter hformatter property value exception herror
    have hformatters : (query toInt64).reflections.flatMap (fun other => other.2.formatters) =
        [formatUnit, formatAssociatedInventory] := rfl
    have hmem : formatter ∈ [formatUnit, formatAssociatedInventory] := by
      rw [← hformatters]
      exact List.mem_flatMap.mpr ⟨reflection, hreflection, hformatter⟩
    rcases List.mem_pair.mp hmem with rfl | rfl
    · exact @formatValueFromDict_error _ _ _ _ _ _ _ property _ _ herror
    · exact absurd herror formatAssociatedInventory_returns

/-- The query accepts every value of an alarm. -/
theorem accepts_alarms {interface : Bytes}
    (hinterface : interface ∈ [sensorThresholdWarningInterface, sensorThresholdCriticalInterface]) :
    (query toInt64).Accepts types interface := by
  apply query_orderly.accepts
  intro setter hsetter
  exact List.length_eq_zero_iff.mp ((names_apart).thresholds _ hsetter hinterface)

/-! ## The alarms of an instance -/

/-- The alarms with their interfaces. -/
def alarms : List (Bytes × Bytes) :=
  [(sensorThresholdCriticalInterface, fieldCriticalAlarmHigh),
    (sensorThresholdCriticalInterface, fieldCriticalAlarmLow),
    (sensorThresholdWarningInterface, fieldWarningAlarmHigh),
    (sensorThresholdWarningInterface, fieldWarningAlarmLow)]

/-- A property that is stored as it is, in the member of its name. -/
def alarmSetter (field : Bytes) : PropertySetter :=
  ⟨field, field, []⟩

/-- Each alarm is reflected. -/
theorem alarm_reflected {alarm : Bytes × Bytes} (halarm : alarm ∈ alarms) :
    (alarm.1, alarmSetter alarm.2) ∈ (query toInt64).reflections := by
  have hmem : ∀ index (hindex : index < (query toInt64).reflections.length),
      (query toInt64).reflections.get ⟨index, hindex⟩ ∈ (query toInt64).reflections :=
    fun index hindex => List.get_mem _ _
  simp only [alarms, List.mem_cons, List.not_mem_nil, or_false] at halarm
  rcases halarm with rfl | rfl | rfl | rfl
  · exact hmem 8 (by show 8 < 15; decide)
  · exact hmem 9 (by show 9 < 15; decide)
  · exact hmem 5 (by show 5 < 15; decide)
  · exact hmem 4 (by show 4 < 15; decide)

/-- Each alarm is on one of the two interfaces. -/
theorem alarm_interface {alarm : Bytes × Bytes} (halarm : alarm ∈ alarms) :
    alarm.1 ∈ [sensorThresholdWarningInterface, sensorThresholdCriticalInterface] := by
  simp only [alarms, List.mem_cons, List.not_mem_nil, or_false] at halarm
  rcases halarm with rfl | rfl | rfl | rfl <;> simp

/-- The alarms with their interfaces. -/
theorem mem_alarmFields_iff {field : Bytes} :
    field ∈ alarmFields ↔ ∃ interface, (interface, field) ∈ alarms := by
  simp [alarmFields, alarms]
  grind

variable {object : WatchedObject types} {history : List (PropertyChange types)}
  {s : Following types} {change : PropertyChange types}

/-- An alarm field has the current value. -/
theorem alarm_after {alarm : Bytes × Bytes} (halarm : alarm ∈ alarms) :
    ((query toInt64).after object history).self.getField alarm.2 =
      ((((query toInt64).after object history).object.get alarm.1).lookup alarm.2).map
        Subtype.val := by
  have hreflected := @alarm_reflected toInt64 _ halarm
  have hkept : alarm.2 ∉ supplemented :=
    (names_apart).alarmFields _ (mem_alarmFields_iff.mpr ⟨alarm.1, halarm⟩)
  have hcurrent := @after_member types (query toInt64) object (alarmSetter alarm.2) alarm.1
    query_orderly (accepts_alarms (alarm_interface halarm)) hreflected
    (fun self => writes_supplement.others _ hkept) history
  rw [reflectedValue_of_formatters query_orderly hreflected rfl] at hcurrent
  exact hcurrent

/-- An alarm of the instance is that of its object. -/
theorem getBoolValue_alarm {alarm : Bytes × Bytes} (halarm : alarm ∈ alarms) :
    Field.getBoolValue (((query toInt64).after object history).self.getField alarm.2) =
      alarmIsSet ((query toInt64).after object history).object alarm.1 alarm.2 := by
  rw [alarm_after halarm, alarmIsSet]
  cases (((query toInt64).after object history).object.get alarm.1).lookup alarm.2 with
  | none => rfl
  | some value =>
      obtain ⟨alternative, hnull⟩ := value
      cases alternative <;> simp_all [Field.getBoolValue, Field.getValue]

/-! ## Runs -/

/-- The status belongs to the alarms that the instance has. -/
def Reports (instance_ : InstanceData) : Prop :=
  instance_.getField fieldStatus = some (.int32 (statusOf instance_))

/-- Only the members of the alarms count. -/
theorem statusOf_congr {other : InstanceData}
    (h : ∀ field ∈ alarmFields, self.getField field = other.getField field) :
    statusOf self = statusOf other :=
  alarmStatus_congr fun field hfield => by rw [h field hfield]

/-- A new instance reports its alarms. -/
theorem reports_supplement : Reports (supplementByStaticFields toInt64 self).2 := by
  rw [Reports, status_supplement]
  congr 2
  exact statusOf_congr fun field hfield =>
    (writes_supplement.others field ((names_apart).alarmFields field hfield)).symm

/-- A signal of an interface with alarms raises nothing. -/
theorem fill_alarms_raised (hfollows : Follows (query toInt64) s)
    (hinterface : change.interfaceName ∈
      [sensorThresholdWarningInterface, sensorThresholdCriticalInterface]) :
    (fillMembers (some (query toInt64)) change.interfaceName change.changedValues s.self).raised =
      none := by
  apply fillSetters_raised_eq_none_iff.mpr
  intro setter hsetter
  exact accepted_of_typed (accepts_alarms hinterface) change.typed
    ((mem_dbusPropertySetters_iff query_orderly hfollows.watches).mp hsetter).2

/-- Signals of other interfaces change neither the alarms nor the status, before the
instance is supplemented. -/
theorem filled_alarms (hfollows : Follows (query toInt64) s)
    (hinterface : change.interfaceName ∉
      [sensorThresholdWarningInterface, sensorThresholdCriticalInterface])
    {field : Bytes} (hfield : field ∈ fieldStatus :: alarmFields) :
    ((query toInt64).filled change.interfaceName change.changedValues s.self).getField field =
      s.self.getField field := by
  apply filled_other query_orderly hfollows.watches
  intro setter hsetter _ hmember
  rcases List.mem_cons.mp hfield with rfl | halarm
  · exact (names_apart).status _ hsetter hmember
  · obtain ⟨interface, halarm⟩ := mem_alarmFields_iff.mp halarm
    obtain ⟨hname, -⟩ := reflection_unique query_orderly (alarm_reflected halarm) hsetter hmember
    exact hinterface (hname ▸ alarm_interface halarm)

theorem Reports.follow (hfollows : Follows (query toInt64) s) (hreports : Reports s.self) :
    Reports ((query toInt64).follow s change).self := by
  cases hwatched : s.watches change with
  | false =>
      rw [follow_self_of_not hwatched]
      exact hreports
  | true =>
      rw [follow_self hwatched]
      split
      · exact reports_supplement
      · next hraised =>
          have hfilled := @filled_alarms types toInt64 s change hfollows
            (fun hinterface => hraised (fill_alarms_raised hfollows hinterface))
          rw [Reports, hfilled List.mem_cons_self, hreports]
          congr 2
          exact statusOf_congr fun field hfield => (hfilled (List.mem_cons_of_mem _ hfield)).symm

/-- The status always belongs to the alarms, also after a signal that raised an exception. -/
theorem reports_after : Reports ((query toInt64).after object history).self := by
  induction history using List.reverseRecOn with
  | nil =>
      have hload := (@load_eq types (query toInt64) object query_orderly).1
      have hreports := @reports_supplement toInt64 ((query toInt64).loaded object)
      unfold Reports statusOf getField at hreports ⊢
      rw [EndpointQuery.after, List.foldl_nil, hload]
      exact hreports
  | append_singleton history change ih =>
      rw [EndpointQuery.after, List.foldl_append]
      exact ih.follow (follows_after query_orderly history)

/-- What is reported, by the current alarms. -/
theorem status_after :
    ((query toInt64).after object history).self.getField fieldStatus =
      some (.int32 (
        let current := ((query toInt64).after object history).object
        if criticalAlarm current then ok else if warningAlarm current then warning else ok)) := by
  have halarm := fun alarm halarm => @getBoolValue_alarm types toInt64 object history alarm halarm
  simp only [alarms, List.forall_mem_cons, List.not_mem_nil, false_imp_iff, implies_true,
    and_true] at halarm
  obtain ⟨hcriticalHigh, hcriticalLow, hwarningHigh, hwarningLow⟩ := halarm
  rw [reports_after, statusOf, alarmStatus_eq, hcriticalHigh, hcriticalLow, hwarningHigh,
    hwarningLow]
  rfl

/-- The status is the severity of the current alarms exactly while no critical alarm is set. -/
theorem status_severity_iff (toInt64 : UInt64 → Int64) (object : WatchedObject types)
    (history : List (PropertyChange types)) :
    ((query toInt64).after object history).self.getField fieldStatus =
        some (.int32 (severity ((query toInt64).after object history).object)) ↔
      criticalAlarm ((query toInt64).after object history).object = false := by
  rw [status_after]
  dsimp only [severity]
  cases criticalAlarm ((query toInt64).after object history).object with
  | false => simp
  | true => simp [ok, critical]

end

/-! ## A temperature that is critical -/

/-- Properties of any type. -/
def untyped : PropertyTypes := fun _ _ _ => True

/-- A sensor with a warning. -/
def warningSensor : WatchedObject untyped where
  serviceName := bytes "xyz.openbmc_project.HwmonTempSensor"
  objectPath := bytes "/xyz/openbmc_project/sensors/temperature/CPU_Temp"
  interfaces :=
    [sensorValueInterface, sensorThresholdWarningInterface, sensorThresholdCriticalInterface]
  properties := fun interface =>
    if interface = sensorThresholdWarningInterface then
      [(fieldWarningAlarmHigh, ⟨.bool true, by simp⟩)]
    else []
  typed _ _ _ := trivial

/-- The temperature becomes critical. -/
def becomesCritical : PropertyChange untyped where
  interfaceName := sensorThresholdCriticalInterface
  changedValues := [(fieldCriticalAlarmHigh, ⟨.bool true, by simp⟩)]
  typed _ _ := trivial

/-- The sensor reports a warning, and after it has become critical it is reported as well. -/
theorem critical_reported_ok :
    let sensors := query fun _ => 0
    (sensors.after warningSensor []).self.getField fieldStatus = some (.int32 warning) ∧
      (sensors.after warningSensor [becomesCritical]).self.getField fieldStatus =
        some (.int32 ok) ∧
      severity (sensors.after warningSensor [becomesCritical]).object = critical := by
  decide

end Sensors
end Entity
end ObmcWebapp
