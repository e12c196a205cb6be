import ObmcWebapp.Entity.Mirror

/-!
# Entity - The power state of the host

The state of the host service is read into a member of its own, and the supplement derives
the power state and the status from it.

Main result:

- Theorem {lit}`HostPower.powered_of_reflects`: the fields of an instance that reflects its
  object are those of the host state.
-/

open Library

namespace ObmcWebapp
namespace Entity
namespace HostPower

open InstanceData

/-- The member with the state that the object has on the bus. -/
def metaStatus : Bytes := bytes "__meta__raw_dbus_status"

/-- The power state of a host that runs. -/
def stateOn : Bytes := bytes "On"

/-- The power state of every other host. -/
def stateOff : Bytes := bytes "Off"

/-- The status of a host that runs. -/
def statusEnabled : Bytes := bytes "Enabled"

/-- The status of a host that has stopped on an error. -/
def statusQuiesced : Bytes := bytes "Quiesced"

/-- The status of a host in its diagnostic mode. -/
def statusInTest : Bytes := bytes "InTest"

/-- The status of a host that is off. -/
def statusDisabled : Bytes := bytes "Disabled"

/-- The member with the power state. -/
def fieldState : Bytes := bytes "PowerState"

/-- The member with the status. -/
def fieldStatus : Bytes := bytes "Status"

/-- The service that has the hosts. -/
def hostServiceName : Bytes := bytes "xyz.openbmc_project.State.Host"

/-- The interface of a host. -/
def hostInterfaceName : Bytes := bytes "xyz.openbmc_project.State.Host"

/-- The property with the state of a host. -/
def propHostState : Bytes := bytes "CurrentHostState"

/-- The state of a host that runs. -/
def stateRunning : Bytes := bytes "xyz.openbmc_project.State.Host.HostState.Running"

/-- The state of a host that has stopped on an error. -/
def stateQuiesced : Bytes := bytes "xyz.openbmc_project.State.Host.HostState.Quiesced"

/-- The state of a host in its diagnostic mode. -/
def stateDiagnosticMode : Bytes :=
  bytes "xyz.openbmc_project.State.Host.HostState.DiagnosticMode"

/-- The state of a host that is off. -/
def stateDefaultOff : Bytes := bytes "xyz.openbmc_project.State.Host.HostState.Off"

/-- The pair under {lit}`stateDefaultOff`. -/
def defaultOff : Bytes × Bytes := (stateOff, statusDisabled)

/-- The power state and the status for each state of a host. -/
def hostStates : List (Bytes × Bytes × Bytes) :=
  [(stateRunning, stateOn, statusEnabled), (stateQuiesced, stateOn, statusQuiesced),
    (stateDiagnosticMode, stateOn, statusInTest), (stateDefaultOff, defaultOff)]

/-- The power state and the status by the state that the bus gives, off where it gives none. -/
def setStatusPower (instance_ : InstanceData) : InstanceData :=
  let rawHostStatus := Field.getStringValue (instance_.getField metaStatus)
  let instance_ := instance_.supplementOrUpdate fieldState (.string stateOff)
  match hostStates.lookup rawHostStatus with
  | none =>
      -- the default that is read with at()
      (instance_.supplementOrUpdate fieldState (.string defaultOff.1)).supplementOrUpdate
        fieldStatus (.string defaultOff.2)
  | some states =>
      (instance_.supplementOrUpdate fieldState (.string states.1)).supplementOrUpdate
        fieldStatus (.string states.2)

/-- The one property that the query asks for. -/
def hostSetter : PropertySetter :=
  ⟨propHostState, metaStatus, []⟩

/-- The query for hosts, which derives the two members from the property. -/
def query : EndpointQuery where
  getSearchPropertiesMap := [(hostInterfaceName, [hostSetter])]
  supplementByStaticFields := fun instance_ => (none, setStatusPower instance_)

/-- {lit}`DBUS_QUERY_DECLARE_CRITERIA` -/
def criteria : FindObjectDBusQuery where
  getQueryCriteria :=
    { path := bytes "/xyz/openbmc_project/state"
      interfaces := [hostInterfaceName]
      depth := 1
      service := some hostServiceName }
  searchProperties := [hostInterfaceName]

/-- The hosts are looked for by their interface. -/
def search : Mirror.Search where
  query := query
  criteria := criteria

/-- The power state and the status of a host state. -/
def powerOf (rawHostStatus : Bytes) : Bytes × Bytes :=
  (hostStates.lookup rawHostStatus).getD defaultOff

/-- The text of the host state that the object has. -/
def rawStatusOf {types : PropertyTypes} (object : WatchedObject types) : Bytes :=
  Field.getStringValue (((object.get hostInterfaceName).lookup propHostState).map Subtype.val)

/-! ## The supplement -/

/-- What is to be known about the literals. -/
structure NamesApart : Prop where
  metaState : metaStatus ∉ [fieldState, fieldStatus]
  stateStatus : fieldState ≠ fieldStatus
  metaMembers : metaStatus ∉ [metaObjectPath, metaObjectService]

/-- The names of the members are apart. -/
theorem names_apart : NamesApart := by
  constructor
  all_goals decide

section

variable {self : InstanceData}

/-- The two members are those of the state. -/
theorem setStatusPower_eq : setStatusPower self =
    let states := powerOf (Field.getStringValue (self.getField metaStatus))
    ((self.supplementOrUpdate fieldState (.string stateOff)).supplementOrUpdate
      fieldState (.string states.1)).supplementOrUpdate fieldStatus (.string states.2) := by
  unfold setStatusPower powerOf
  dsimp only
  split
  · next hnone => rw [hnone, Option.getD_none]
  · next states hsome => rw [hsome, Option.getD_some]

/-- Nothing but the two members is written. -/
theorem writes_setStatusPower : Writes [fieldState, fieldStatus] self (setStatusPower self) := by
  rw [setStatusPower_eq]
  have hstate : ∀ (self : InstanceData) value,
      Writes [fieldState, fieldStatus] self (self.supplementOrUpdate fieldState value) :=
    fun _ _ => .supplementOrUpdate (by simp)
  exact ((hstate _ _).trans (hstate _ _)).trans (.supplementOrUpdate (by simp))

/-- The two fields of an instance belong to its host state. -/
def Powered (rawHostStatus : Bytes) (self : InstanceData) : Prop :=
  self.getField fieldState = some (.string (powerOf rawHostStatus).1) ∧
    self.getField fieldStatus = some (.string (powerOf rawHostStatus).2)

/-- The members show the state that the instance has. -/
theorem powered_setStatusPower :
    Powered (Field.getStringValue (self.getField metaStatus)) (setStatusPower self) := by
  rw [setStatusPower_eq]
  constructor
  · rw [getField_supplementOrUpdate_ne (names_apart).stateStatus, getField_supplementOrUpdate]
  · rw [getField_supplementOrUpdate]

/-- The raw state is not written by anything else. -/
theorem kept_metaStatus : Mirror.Kept search metaStatus where
  unwritten := Mirror.unwritten_plain query criteria metaStatus
  supplement _ := writes_setStatusPower.others metaStatus (names_apart).metaState

/-- An instance with the members of one that was supplemented is powered as its host state says. -/
theorem powered_of_settled {earlier : InstanceData}
    (hmembers : ∀ memberName, self.memberInstances memberName =
      (query.supplementByStaticFields earlier).2.memberInstances memberName) :
    Powered (Field.getStringValue (self.getField metaStatus)) self := by
  have hfields : ∀ memberName, self.getField memberName =
      (setStatusPower earlier).getField memberName := hmembers
  have hraw : self.getField metaStatus = earlier.getField metaStatus :=
    (hfields metaStatus).trans (writes_setStatusPower.others metaStatus (names_apart).metaState)
  rw [hraw]
  exact ⟨(hfields fieldState).trans powered_setStatusPower.1,
    (hfields fieldStatus).trans powered_setStatusPower.2⟩

end

/-! ## The configuration -/

/-- The property is reflected. -/
theorem host_reflected : (hostInterfaceName, hostSetter) ∈ query.reflections :=
  List.mem_singleton_self _

/-- No other property is. -/
theorem eq_of_reflected {reflection : Bytes × PropertySetter}
    (hreflection : reflection ∈ query.reflections) :
    reflection = (hostInterfaceName, hostSetter) :=
  List.mem_singleton.mp hreflection

/-- Each interface and each member of the query stands once. -/
theorem query_orderly : query.Orderly where
  interfaces := List.nodup_singleton _
  members := List.nodup_singleton _
  properties := List.nodup_singleton _
  plain := by
    intro reflection hreflection
    rw [eq_of_reflected hreflection]
    exact (names_apart).metaMembers
  supplement := fun _ => ⟨writes_setStatusPower.targetProperties, writes_setStatusPower.objectPath⟩
  formatters := by
    intro property value exception
    apply processFormatters_error
    intro reflection hreflection formatter hformatter
    rw [eq_of_reflected hreflection] at hformatter
    exact absurd hformatter List.not_mem_nil

/-- A change of a property settles in the search for hosts. -/
theorem search_calm {types : PropertyTypes} : Mirror.Calm search types where
  orderly := query_orderly
  accepts := fun interface => query_orderly.accepts
    (fun setter hsetter => by rw [(Prod.mk.inj (eq_of_reflected hsetter)).2]; rfl) types
  returns := fun _ _ _ => rfl
  serviceName := by
    intro self
    show (setStatusPower self).serviceName = self.serviceName
    rw [setStatusPower_eq]
    rfl

/-- The fields of an instance that reflects its object are those of the host state. -/
theorem powered_of_reflects {types : PropertyTypes} {object : WatchedObject types}
    {self : InstanceData} (hreflects : Mirror.Reflects search object self) :
    Powered (rawStatusOf object) self := by
  have hraw : self.getField metaStatus =
      ((object.get hostInterfaceName).lookup propHostState).map Subtype.val :=
    (hreflects.members hostInterfaceName hostSetter host_reflected kept_metaStatus).trans
      (reflectedValue_of_formatters query_orderly host_reflected rfl)
  rw [rawStatusOf, ← hraw]
  obtain ⟨earlier, -, hmembers⟩ := hreflects.settled
  exact powered_of_settled fun memberName =>
    hmembers memberName (Mirror.unwritten_plain query criteria memberName)

end HostPower
end Entity
end ObmcWebapp
