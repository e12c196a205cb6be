import ObmcWebapp.Entity.Histories
import ObmcWebapp.Entity.StatusRollup

/-!
# Entity - The image of a virtual media slot

A slot is a proxy, a legacy or a direct one, by its path.  After every signal eight setters
run in a row and read what the earlier ones have written.  The last but one takes the name of
the image out of its address; for a proxy it erases the address afterwards.

Main results:

- Theorem {lit}`VirtualMedia.writes_supplement`: the fields that a run may write.
- Theorem {lit}`VirtualMedia.supplemented_of_getters`: what a run makes of the state, the
  address and the name that it finds.
-/

open Library

namespace ObmcWebapp
namespace Entity

/-- The number of a field that {lit}`ENTITY_DECL_FIELD_ENUM` declares. -/
def InstanceData.getEnumField (self : InstanceData) (memberName : Bytes) (defval : Int32) :
    Except Exception Int32 :=
  match self.memberInstances memberName with
  | none | some .null => .ok defval
  | some (.int32 value) => .ok value
  | some _ => .error .badVariantAccess

namespace VirtualMedia

open InstanceData

/-! ## Enumerations and fields -/

namespace DeviceType

/-- A medium of the browser. -/
def proxy : Int32 := 0

/-- A medium that the controller mounts itself. -/
def legacy : Int32 := 1

/-- A medium that is connected directly. -/
def direct : Int32 := 2

/-- Any other medium. -/
def unknown : Int32 := 3

end DeviceType

namespace TransferProtocol

/-- The share is read with CIFS. -/
def cifs : Int32 := 0

/-- The image is read with FTP. -/
def ftp : Int32 := 1

/-- The image is read with SFTP. -/
def sftp : Int32 := 2

/-- The image is read with HTTP. -/
def http : Int32 := 3

/-- The image is read with HTTPS. -/
def https : Int32 := 4

/-- The share is read with NFS. -/
def nfs : Int32 := 5

/-- The image is read with SCP. -/
def scp : Int32 := 6

/-- The image is read with TFTP. -/
def tftp : Int32 := 7

/-- A protocol of the vendor. -/
def oem : Int32 := 8

end TransferProtocol

namespace OemTransferProtocol

/-- The protocol of network block devices. -/
def nbd : Int32 := 0

/-- There is no such protocol. -/
def absent : Int32 := 1

end OemTransferProtocol

namespace ConnectionType

/-- Nothing is connected. -/
def notConnected : Int32 := 0

/-- The image is connected by its address. -/
def uri : Int32 := 1

/-- The image is connected by the browser. -/
def applet : Int32 := 2

end ConnectionType

namespace State

/-- The medium is mounted. -/
def enabled : Int32 := 0

/-- The medium cannot be mounted. -/
def disabled : Int32 := 1

/-- The medium is not mounted. -/
def standbyOffline : Int32 := 2

end State

/-- The service of the media. -/
def service : Bytes := bytes "xyz.openbmc_project.VirtualMedia"

/-- The interface with the image. -/
def vmMountPointIface : Bytes := bytes "xyz.openbmc_project.VirtualMedia.MountPoint"

/-- The interface of the process that serves the image. -/
def vmProcessIface : Bytes := bytes "xyz.openbmc_project.VirtualMedia.Process"

/-- The member with the identifier. -/
def fieldId : Bytes := bytes "Id"

/-- The member and the property with the block device. -/
def fieldDevice : Bytes := bytes "Device"

/-- The member with the name of the image. -/
def fieldExportName : Bytes := bytes "ExportName"

/-- The member with the address of the image. -/
def fieldImageURL : Bytes := bytes "ImageURL"

/-- The member with the kind of the device. -/
def fieldInterfaceType : Bytes := bytes "InterfaceType"

/-- The member with the state. -/
def fieldState : Bytes := bytes "State"

/-- The member that says whether the medium is mounted, and the property behind the state. -/
def fieldActive : Bytes := bytes "Active"

/-- The member with the type of the medium. -/
def fieldDeviceType : Bytes := bytes "DeviceType"

/-- The member that says how the medium is connected. -/
def fieldConnectionType : Bytes := bytes "ConnectionType"

/-- The member with the protocol. -/
def fieldTransferProtocol : Bytes := bytes "TransferProtocol"

/-- The member with the protocol of the vendor. -/
def fieldOemTransferProtocol : Bytes := bytes "OemTransferProtocol"

/-- The member with the address for a browser. -/
def fieldWebSocketAddress : Bytes := bytes "WebSocketAddress"

/-- The property behind the status. -/
def propertyExitCode : Bytes := bytes "ExitCode"

/-! ## The setters -/

/-- The type of the first segment, in the order of the map, that the path has. -/
def deviceTypeOf (objectPath : Bytes) : Int32 :=
  let deviceTypes := [(bytes "/Direct/", DeviceType.direct), (bytes "/Legacy/", DeviceType.legacy),
    (bytes "/Proxy/", DeviceType.proxy)]
  match deviceTypes.find? fun entry => entry.1 <:+: objectPath with
  | some (_, deviceType) => deviceType
  | none => DeviceType.unknown

/-- The protocols in the order of the map. -/
def protocolDict : List (Bytes × Int32) :=
  [(bytes "cifs://", TransferProtocol.cifs), (bytes "ftp://", TransferProtocol.ftp),
    (bytes "http://", TransferProtocol.http), (bytes "https://", TransferProtocol.https),
    (bytes "nfs://", TransferProtocol.nfs), (bytes "scp://", TransferProtocol.scp),
    (bytes "sftp://", TransferProtocol.sftp), (bytes "smb://", TransferProtocol.cifs),
    (bytes "tftp://", TransferProtocol.tftp)]

/-- The protocol in front of an address. -/
def transferProtocolOf (imageURL : Bytes) : Int32 :=
  if imageURL ≠ [] then
    match protocolDict.find? fun entry => entry.1 <+: imageURL with
    | some (_, proto) => proto
    | none => TransferProtocol.oem
  else TransferProtocol.oem

/-- The address without its quotation marks. -/
def cleanImageName (imageUrl : Bytes) : Bytes :=
  imageUrl.filter (· ≠ 0x22)

/-- A setter raises before it writes anything. -/
abbrev Setter := InstanceData → Except Exception InstanceData

/-- The identifier is in the object path. -/
def setId : Setter := fun instance_ =>
  .ok (instance_.supplementOrUpdate fieldId
    (.string (getNameFromLastSegmentObjectPath instance_.objectPath true)))

/-- The type is in the object path. -/
def setDeviceType : Setter := fun instance_ =>
  .ok (instance_.supplementOrUpdate fieldDeviceType (.int32 (deviceTypeOf instance_.objectPath)))

/-- The connection by state and type. -/
def setConnectionType : Setter := fun instance_ => do
  let state ← instance_.getEnumField fieldState State.standbyOffline
  if state ≠ State.enabled then
    return instance_.supplementOrUpdate fieldConnectionType (.int32 ConnectionType.notConnected)
  let deviceType ← instance_.getEnumField fieldDeviceType DeviceType.unknown
  if deviceType = DeviceType.legacy ∨ deviceType = DeviceType.direct then
    return instance_.supplementOrUpdate fieldConnectionType (.int32 ConnectionType.uri)
  return instance_.supplementOrUpdate fieldConnectionType (.int32 ConnectionType.applet)

/-- The protocol by the address of the image. -/
def setTransferProtocol : Setter := fun instance_ => do
  let imageURL ← instance_.getStringField fieldImageURL
  return instance_.supplementOrUpdate fieldTransferProtocol (.int32 (transferProtocolOf imageURL))

/-- The vendor's protocol by protocol and connection. -/
def setOemTransferProtocol : Setter := fun instance_ => do
  let transferProtocol ← instance_.getEnumField fieldTransferProtocol TransferProtocol.oem
  if transferProtocol ≠ TransferProtocol.oem then
    return instance_.supplementOrUpdate fieldOemTransferProtocol (.int32 OemTransferProtocol.absent)
  let connectionType ← instance_.getEnumField fieldConnectionType ConnectionType.notConnected
  if connectionType = ConnectionType.notConnected then
    return instance_.supplementOrUpdate fieldOemTransferProtocol (.int32 OemTransferProtocol.absent)
  return instance_.supplementOrUpdate fieldOemTransferProtocol (.int32 OemTransferProtocol.nbd)

/-- A medium is active while it is enabled. -/
def setActive : Setter := fun instance_ => do
  let state ← instance_.getEnumField fieldState State.standbyOffline
  return instance_.supplementOrUpdate fieldActive (.bool (state = State.enabled))

/-- {lit}`setValue(nullptr)`; where the member is missing it reaches no instance's member. -/
def setNull (instance_ : InstanceData) (memberName : Bytes) : InstanceData :=
  if (instance_.getField memberName).isSome then instance_.supplementOrUpdate memberName .null
  else instance_

/-- The name of a legacy medium is in its address. -/
def setImageName : Setter := fun instance_ => do
  let deviceType ← instance_.getEnumField fieldDeviceType DeviceType.unknown
  if deviceType = DeviceType.legacy then
    let imageUrl ← instance_.getStringField fieldImageURL
    if ¬ Field.isNull (instance_.getField fieldImageURL) ∨ imageUrl = [] then return instance_
    return instance_.supplementOrUpdate fieldExportName
      (.string (getNameFromLastSegmentObjectPath imageUrl false))
  else if deviceType = DeviceType.proxy then
    let imageUrl ← instance_.getStringField fieldImageURL
    return setNull (instance_.supplementOrUpdate fieldExportName
      (.string (cleanImageName imageUrl))) fieldImageURL
  else return instance_

/-- The address for a browser, where the device has one. -/
def setWSAddress : Setter := fun instance_ => do
  let wsepDict := [(bytes "nbd0", bytes "/nbd/0")]
  let device ← instance_.getStringField fieldDevice
  match wsepDict.lookup device with
  | some address => return instance_.supplementOrUpdate fieldWebSocketAddress (.string address)
  | none => return instance_

/-- Setters in a row; the first that raises ends the run. -/
def runSetters : List Setter → InstanceData → Option Exception × InstanceData
  | [], instance_ => (none, instance_)
  | setter :: rest, instance_ =>
      match setter instance_ with
      | .error exception => (some exception, instance_)
      | .ok written => runSetters rest written

/-- What the query adds, in its order. -/
def supplementByStaticFields (instance_ : InstanceData) : Option Exception × InstanceData :=
  runSetters [setId, setDeviceType, setConnectionType, setTransferProtocol,
    setOemTransferProtocol, setActive, setImageName, setWSAddress] instance_

/-! ## The configuration -/

/-- The kind of the device by its number. -/
def formatInterfaceType : Formatter :=
  formatValueFromDict DbusVariant.getUint8 .int32 [(0, 0), (1, 1), (2, 2)] 0

/-- The status by the exit code of the process. -/
def formatStatus : Formatter :=
  formatValueFromDict DbusVariant.getInt32 .int32
    [(0, StatusProvider.ok), (-1, StatusProvider.warning)] StatusProvider.critical

/-- The state by whether the process runs. -/
def formatState : Formatter :=
  formatValueFromDict DbusVariant.getBool .int32
    [(false, State.standbyOffline), (true, State.enabled)] State.disabled

/-- The query for media. -/
def query : EndpointQuery where
  getSearchPropertiesMap :=
    [(vmMountPointIface,
      [⟨fieldDevice, fieldDevice, []⟩, ⟨bytes "EndpointId", bytes "EndpointId", []⟩,
        ⟨fieldExportName, fieldExportName, []⟩, ⟨fieldImageURL, fieldImageURL, []⟩,
        ⟨bytes "Socket", bytes "Socket", []⟩,
        ⟨bytes "RemainingInactivityTimeout", bytes "RemainingInactivityTimeout", []⟩,
        ⟨bytes "WriteProtected", bytes "WriteProtected", []⟩,
        ⟨fieldInterfaceType, fieldInterfaceType, [formatInterfaceType]⟩]),
      (vmProcessIface,
      [⟨propertyExitCode, StatusProvider.fieldStatus, [formatStatus]⟩,
        ⟨fieldActive, fieldState, [formatState]⟩])]
  supplementByStaticFields := supplementByStaticFields

/-! ## What a run writes -/

/-- What {lit}`setConnectionType` finds. -/
def connectionTypeOf (state deviceType : Int32) : Int32 :=
  if state ≠ State.enabled then ConnectionType.notConnected
  else if deviceType = DeviceType.legacy ∨ deviceType = DeviceType.direct then ConnectionType.uri
  else ConnectionType.applet

/-- What {lit}`setOemTransferProtocol` finds. -/
def oemTransferProtocolOf (transferProtocol connectionType : Int32) : Int32 :=
  if transferProtocol ≠ TransferProtocol.oem ∨ connectionType = ConnectionType.notConnected then
    OemTransferProtocol.absent
  else OemTransferProtocol.nbd

/-- The field {lit}`ExportName` after a run. -/
def exportNameOf (deviceType : Int32) (imageURL exportName : Field) : Field :=
  if deviceType = DeviceType.legacy then
    if imageURL.isNull then
      some (.string (getNameFromLastSegmentObjectPath fieldValueNotAvailable false))
    else exportName
  else if deviceType = DeviceType.proxy then
    some (.string (cleanImageName imageURL.getStringValue))
  else exportName

/-- The field {lit}`ImageURL` after a run. -/
def imageURLOf (deviceType : Int32) (imageURL : Field) : Field :=
  if deviceType = DeviceType.proxy then imageURL.map fun _ => .null else imageURL

/-- The fields that are derived. -/
def derivedFields : List Bytes :=
  [fieldExportName, fieldImageURL, fieldTransferProtocol, fieldOemTransferProtocol,
    fieldConnectionType, fieldActive]

/-- The members that the query adds. -/
def supplemented : List Bytes :=
  [fieldId, fieldDeviceType, fieldWebSocketAddress] ++ derivedFields

/-- The fields that are written before the name. -/
def plainFields : List Bytes :=
  [fieldId, fieldDeviceType, fieldConnectionType, fieldTransferProtocol, fieldOemTransferProtocol,
    fieldActive]

/-! ## Names -/

/-- The members, in the order of the configuration. -/
def memberNames : List Bytes :=
  [fieldDevice, bytes "EndpointId", fieldExportName, fieldImageURL, bytes "Socket",
    bytes "RemainingInactivityTimeout", bytes "WriteProtected", fieldInterfaceType,
    StatusProvider.fieldStatus, fieldState]

/-- The properties, in the same order. -/
def propertyNames : List Bytes :=
  [fieldDevice, bytes "EndpointId", fieldExportName, fieldImageURL, bytes "Socket",
    bytes "RemainingInactivityTimeout", bytes "WriteProtected", fieldInterfaceType,
    propertyExitCode, fieldActive]

/-- What is to be known about the literals. -/
structure NamesApart : Prop where
  interfaces : [vmMountPointIface, vmProcessIface].Nodup
  members : memberNames.Nodup
  properties : propertyNames.Nodup
  metaMembers : ∀ memberName ∈ memberNames, memberName ∉ [metaObjectPath, metaObjectService]
  plainFields : plainFields.Nodup
  imageURL : fieldImageURL ∉ VirtualMedia.plainFields
  exportName : fieldExportName ∉ VirtualMedia.plainFields
  imageFields : fieldImageURL ≠ fieldExportName
  webSocket : fieldWebSocketAddress ∉ derivedFields
  state : fieldState ∉ supplemented
  device : fieldDevice ∉ supplemented
  typedProperties : fieldImageURL ≠ fieldInterfaceType ∧ fieldImageURL ≠ propertyExitCode ∧
    fieldImageURL ≠ fieldActive
  notAvailable : fieldValueNotAvailable ≠ []
  cleanNotAvailable : cleanImageName fieldValueNotAvailable = fieldValueNotAvailable
  protocols : ∀ entry ∈ protocolDict, ¬ cleanImageName entry.1 <+: fieldValueNotAvailable

/-- The names that the setters of a medium use are apart. -/
theorem names_apart : NamesApart := by
  constructor
  all_goals decide

/-! ## Setters in a row -/

section

variable {self new : InstanceData} {setter : Setter} {setters : List Setter} {names : List Bytes}
  {memberName other : Bytes} {value : FieldType} {defval state deviceType : Int32} {text : Bytes}

/-- A setter that returns leaves its instance to the others. -/
theorem runSetters_of_returns (h : setter self = .ok new) :
    runSetters (setter :: setters) self = runSetters setters new := by
  rw [runSetters, h]

/-- Setters in a row write what each of them writes. -/
theorem writes_runSetters
    (h : ∀ setter ∈ setters, ∀ self new, setter self = .ok new → Writes names self new) :
    Writes names self (runSetters setters self).2 := by
  induction setters generalizing self with
  | nil => exact .refl
  | cons setter rest ih =>
      obtain ⟨hfirst, hrest⟩ := List.forall_mem_cons.mp h
      cases hsetter : setter self with
      | error exception =>
          rw [runSetters, hsetter]
          exact .refl
      | ok written =>
          rw [runSetters_of_returns hsetter]
          exact (hfirst self written hsetter).trans (ih hrest)

/-! ## Getters -/

/-- A number that is written is read again. -/
@[simp]
theorem getEnumField_supplementOrUpdate {number : Int32} :
    (self.supplementOrUpdate memberName (.int32 number)).getEnumField memberName defval =
      .ok number := by
  simp [getEnumField, supplementOrUpdate]

/-- Another member is read as before. -/
theorem getEnumField_supplementOrUpdate_ne (h : other ≠ memberName) :
    (self.supplementOrUpdate memberName value).getEnumField other defval =
      self.getEnumField other defval := by
  simp [getEnumField, supplementOrUpdate, h]

/-- A text of another member is read as before. -/
theorem getStringField_supplementOrUpdate_ne (h : other ≠ memberName) :
    (self.supplementOrUpdate memberName value).getStringField other =
      self.getStringField other := by
  simp [getStringField, supplementOrUpdate, h]

/-- A getter that returns has the text that the field shows. -/
theorem getStringField_eq_ok (h : self.getStringField memberName = .ok text) :
    Field.getStringValue (self.getField memberName) = text := by
  rw [getStringField] at h
  rw [getField]
  split at h
  · next hnone => simpa [hnone, Field.getStringValue, Field.getValue] using h
  · next hnull => simpa [hnull, Field.getStringValue, Field.getValue] using h
  · next found hfound => simpa [hfound, Field.getStringValue, Field.getValue] using h
  · exact absurd h (by simp)

/-! ## The single setters -/

/-- {lit}`setConnectionType` where state and type are known. -/
theorem setConnectionType_returns
    (hstate : self.getEnumField fieldState State.standbyOffline = .ok state)
    (htype : self.getEnumField fieldDeviceType DeviceType.unknown = .ok deviceType) :
    setConnectionType self = .ok (self.supplementOrUpdate fieldConnectionType
      (.int32 (connectionTypeOf state deviceType))) := by
  by_cases henabled : state = State.enabled
  · by_cases huri : deviceType = DeviceType.legacy ∨ deviceType = DeviceType.direct
    · simp [setConnectionType, bind_eq_ok, pure_eq_ok, connectionTypeOf, hstate, htype, henabled,
        huri]
    · simp [setConnectionType, bind_eq_ok, pure_eq_ok, connectionTypeOf, hstate, htype, henabled,
        huri]
  · simp [setConnectionType, bind_eq_ok, pure_eq_ok, connectionTypeOf, hstate, henabled]

/-- {lit}`setTransferProtocol` where the address is known. -/
theorem setTransferProtocol_returns (hurl : self.getStringField fieldImageURL = .ok text) :
    setTransferProtocol self = .ok (self.supplementOrUpdate fieldTransferProtocol
      (.int32 (transferProtocolOf text))) := by
  simp [setTransferProtocol, hurl]

/-- {lit}`setOemTransferProtocol` where protocol and connection are known. -/
theorem setOemTransferProtocol_returns {proto connectionType : Int32}
    (hproto : self.getEnumField fieldTransferProtocol TransferProtocol.oem = .ok proto)
    (hconnection : self.getEnumField fieldConnectionType ConnectionType.notConnected =
      .ok connectionType) :
    setOemTransferProtocol self = .ok (self.supplementOrUpdate fieldOemTransferProtocol
      (.int32 (oemTransferProtocolOf proto connectionType))) := by
  by_cases hoem : proto = TransferProtocol.oem
  · by_cases hnot : connectionType = ConnectionType.notConnected
    · simp [setOemTransferProtocol, bind_eq_ok, pure_eq_ok, oemTransferProtocolOf, hproto,
        hconnection, hoem, hnot]
    · simp [setOemTransferProtocol, bind_eq_ok, pure_eq_ok, oemTransferProtocolOf, hproto,
        hconnection, hoem, hnot]
  · simp [setOemTransferProtocol, bind_eq_ok, pure_eq_ok, oemTransferProtocolOf, hproto, hoem]

/-- {lit}`setActive` where the state is known. -/
theorem setActive_returns
    (hstate : self.getEnumField fieldState State.standbyOffline = .ok state) :
    setActive self =
      .ok (self.supplementOrUpdate fieldActive (.bool (state = State.enabled))) := by
  simp [setActive, hstate]

/-- {lit}`setWSAddress` writes one member at most. -/
theorem setWSAddress_returns (hdevice : self.getStringField fieldDevice = .ok text) :
    ∃ new, setWSAddress self = .ok new ∧ Writes [fieldWebSocketAddress] self new := by
  have hrun : ∀ new, setWSAddress self = .ok new ↔
      (match [(bytes "nbd0", bytes "/nbd/0")].lookup text with
      | some address => self.supplementOrUpdate fieldWebSocketAddress (.string address)
      | none => self) = new := by
    intro new
    simp only [setWSAddress, hdevice, bind_eq_ok, Except.ok.injEq, exists_eq_left']
    split
    · exact pure_eq_ok
    · exact pure_eq_ok
  simp only [hrun, exists_eq_left']
  split
  · exact .supplementOrUpdate List.mem_cons_self
  · exact .refl

/-- A member that is there becomes null. -/
theorem getField_setNull : (setNull self memberName).getField memberName =
    (self.getField memberName).map fun _ => .null := by
  rw [setNull]
  split
  · next hsome =>
      obtain ⟨value, hvalue⟩ := Option.isSome_iff_exists.mp hsome
      rw [getField_supplementOrUpdate, hvalue, Option.map_some]
  · next hnone =>
      rw [Option.not_isSome_iff_eq_none.mp hnone, Option.map_none]

/-- Nothing but that member is written. -/
theorem writes_setNull : Writes [memberName] self (setNull self memberName) := by
  rw [setNull]
  split
  · exact .supplementOrUpdate List.mem_cons_self
  · exact .refl

/-- A null member is read as not available. -/
theorem getStringValue_of_isNull {field : Field} (hnull : field.isNull = true) :
    field.getStringValue = fieldValueNotAvailable := by
  unfold Field.isNull at hnull
  split at hnull
  · rfl
  · rfl
  · exact absurd hnull (by simp)

/-- The name is written as the kind of the slot and its address have it. -/
theorem setImageName_returns
    (htype : self.getEnumField fieldDeviceType DeviceType.unknown = .ok deviceType)
    (hurl : self.getStringField fieldImageURL = .ok text) :
    ∃ new, setImageName self = .ok new ∧ Writes [fieldExportName, fieldImageURL] self new ∧
      new.getField fieldExportName = exportNameOf deviceType (self.getField fieldImageURL)
        (self.getField fieldExportName) ∧
      new.getField fieldImageURL = imageURLOf deviceType (self.getField fieldImageURL) := by
  have hfields := (names_apart).imageFields
  have hkinds : DeviceType.legacy ≠ DeviceType.proxy := by decide
  have hshown := getStringField_eq_ok hurl
  by_cases hlegacy : deviceType = DeviceType.legacy
  · subst hlegacy
    cases hnull : Field.isNull (self.getField fieldImageURL) with
    | false =>
        refine ⟨self, ?_, .refl, ?_, ?_⟩
        · simp [setImageName, bind_eq_ok, htype, hurl, hnull]
        · simp [exportNameOf, hnull]
        · simp [imageURLOf, hkinds]
    | true =>
        have htext : text = fieldValueNotAvailable :=
          hshown.symm.trans (getStringValue_of_isNull hnull)
        have hne := (names_apart).notAvailable
        refine ⟨self.supplementOrUpdate fieldExportName
          (.string (getNameFromLastSegmentObjectPath text false)), ?_, ?_, ?_, ?_⟩
        · simp [setImageName, bind_eq_ok, pure_eq_ok, htype, hurl, hnull, htext, hne]
        · exact .supplementOrUpdate List.mem_cons_self
        · simp [exportNameOf, hnull, htext]
        · simp [imageURLOf, hkinds, hfields]
  · by_cases hproxy : deviceType = DeviceType.proxy
    · subst hproxy
      refine ⟨setNull (self.supplementOrUpdate fieldExportName
        (.string (cleanImageName text))) fieldImageURL, ?_, ?_, ?_, ?_⟩
      · simp [setImageName, bind_eq_ok, htype, hlegacy, hurl]
      · have hname : Writes [fieldExportName, fieldImageURL] self (self.supplementOrUpdate
            fieldExportName (.string (cleanImageName text))) :=
          .supplementOrUpdate List.mem_cons_self
        exact hname.trans (writes_setNull.mono (by simp))
      · rw [writes_setNull.others _ (by simpa using hfields.symm), getField_supplementOrUpdate,
          exportNameOf, if_neg hlegacy, if_pos rfl, hshown]
      · rw [getField_setNull, getField_supplementOrUpdate_ne hfields, imageURLOf, if_pos rfl]
    · refine ⟨self, ?_, .refl, ?_, ?_⟩
      · simp [setImageName, bind_eq_ok, pure_eq_ok, htype, hlegacy, hproxy]
      · simp [exportNameOf, hlegacy, hproxy]
      · simp [imageURLOf, hproxy]

/-! ## A run -/

/-- What a run makes of the state, the address and the name that it finds. -/
structure Supplemented (deviceType state : Int32) (imageURL exportName : Field)
    (new : InstanceData) : Prop where
  connectionType : new.getField fieldConnectionType =
    some (.int32 (connectionTypeOf state deviceType))
  active : new.getField fieldActive = some (.bool (state = State.enabled))
  transferProtocol : new.getField fieldTransferProtocol =
    some (.int32 (transferProtocolOf imageURL.getStringValue))
  oemTransferProtocol : new.getField fieldOemTransferProtocol =
    some (.int32 (oemTransferProtocolOf (transferProtocolOf imageURL.getStringValue)
      (connectionTypeOf state deviceType)))
  exportName : new.getField fieldExportName = exportNameOf deviceType imageURL exportName
  imageURL : new.getField fieldImageURL = imageURLOf deviceType imageURL

/-- Only the members count. -/
theorem Supplemented.congr {imageURL exportName : Field} {new' : InstanceData}
    (h : Supplemented deviceType state imageURL exportName new)
    (hsame : new'.memberInstances = new.memberInstances) :
    Supplemented deviceType state imageURL exportName new' where
  connectionType := (congrFun hsame _).trans h.connectionType
  active := (congrFun hsame _).trans h.active
  transferProtocol := (congrFun hsame _).trans h.transferProtocol
  oemTransferProtocol := (congrFun hsame _).trans h.oemTransferProtocol
  exportName := (congrFun hsame _).trans h.exportName
  imageURL := (congrFun hsame _).trans h.imageURL

/-- The first six setters write one field each. -/
theorem runSetters_plain
    (hstate : self.getEnumField fieldState State.standbyOffline = .ok state)
    (hurl : self.getStringField fieldImageURL = .ok text) :
    let deviceType := deviceTypeOf self.objectPath
    let protocol := transferProtocolOf text
    let connectionType := connectionTypeOf state deviceType
    ∃ plain, supplementByStaticFields self = runSetters [setImageName, setWSAddress] plain ∧
      Writes plainFields self plain ∧
      plain.getEnumField fieldDeviceType DeviceType.unknown = .ok deviceType ∧
      plain.getField fieldConnectionType = some (.int32 connectionType) ∧
      plain.getField fieldActive = some (.bool (state = State.enabled)) ∧
      plain.getField fieldTransferProtocol = some (.int32 protocol) ∧
      plain.getField fieldOemTransferProtocol =
        some (.int32 (oemTransferProtocolOf protocol connectionType)) := by
  intro deviceType protocol connectionType
  let first := self.supplementOrUpdate fieldId
    (.string (getNameFromLastSegmentObjectPath self.objectPath true))
  let second := first.supplementOrUpdate fieldDeviceType (.int32 deviceType)
  let third := second.supplementOrUpdate fieldConnectionType (.int32 connectionType)
  let fourth := third.supplementOrUpdate fieldTransferProtocol (.int32 protocol)
  let fifth := fourth.supplementOrUpdate fieldOemTransferProtocol
    (.int32 (oemTransferProtocolOf protocol connectionType))
  let sixth := fifth.supplementOrUpdate fieldActive (.bool (state = State.enabled))
  have hplain := (names_apart).plainFields
  have hstateApart := (names_apart).state
  have hURLApart := (names_apart).imageURL
  simp only [plainFields, List.nodup_cons, List.mem_cons, List.not_mem_nil, or_false,
    not_or] at hplain hURLApart
  simp only [supplemented, derivedFields, List.mem_append, List.mem_cons, List.not_mem_nil,
    or_false, not_or] at hstateApart
  have hid : setId self = .ok first := rfl
  have htype : setDeviceType first = .ok second := rfl
  have hconnection : setConnectionType second = .ok third := by
    apply setConnectionType_returns
    · simp [second, first, getEnumField_supplementOrUpdate_ne, hstateApart, hstate]
    · exact getEnumField_supplementOrUpdate
  have hprotocol : setTransferProtocol third = .ok fourth := by
    apply setTransferProtocol_returns
    simp [third, second, first, getStringField_supplementOrUpdate_ne, hURLApart, hurl]
  have hoem : setOemTransferProtocol fourth = .ok fifth := by
    apply setOemTransferProtocol_returns
    · exact getEnumField_supplementOrUpdate
    · simp [fourth, third, getEnumField_supplementOrUpdate_ne, hplain]
  have hactive : setActive fifth = .ok sixth := by
    apply setActive_returns
    simp [fifth, fourth, third, second, first, getEnumField_supplementOrUpdate_ne, hstateApart,
      hstate]
  refine ⟨sixth, ?_, ?_, ?_⟩
  · rw [supplementByStaticFields, runSetters_of_returns hid, runSetters_of_returns htype,
      runSetters_of_returns hconnection, runSetters_of_returns hprotocol,
      runSetters_of_returns hoem, runSetters_of_returns hactive]
  · have hfields : ∀ field value, field ∈ plainFields → ∀ self : InstanceData,
        Writes plainFields self (self.supplementOrUpdate field value) :=
      fun _ _ hfield _ => .supplementOrUpdate hfield
    exact (((((hfields _ _ (by simp [plainFields]) self).trans
      (hfields _ _ (by simp [plainFields]) first)).trans
      (hfields _ _ (by simp [plainFields]) second)).trans
      (hfields _ _ (by simp [plainFields]) third)).trans
      (hfields _ _ (by simp [plainFields]) fourth)).trans
      (hfields _ _ (by simp [plainFields]) fifth)
  · simp [sixth, fifth, fourth, third, second, getEnumField_supplementOrUpdate_ne, hplain]

/-- What the setters leave where the getters succeed. -/
theorem supplemented_of_getters {device : Bytes}
    (hstate : self.getEnumField fieldState State.standbyOffline = .ok state)
    (hurl : self.getStringField fieldImageURL = .ok text)
    (hdevice : self.getStringField fieldDevice = .ok device) :
    Supplemented (deviceTypeOf self.objectPath) state (self.getField fieldImageURL)
      (self.getField fieldExportName) (supplementByStaticFields self).2 := by
  obtain ⟨plain, hrun, hplain, htype, hconnection, hactive, hprotocol, hoem⟩ :=
    runSetters_plain hstate hurl
  have hdeviceApart := (names_apart).device
  simp only [supplemented, derivedFields, List.mem_append, List.mem_cons, List.not_mem_nil,
    or_false, not_or] at hdeviceApart
  have hplainURL := hplain.others _ (names_apart).imageURL
  have hplainName := hplain.others _ (names_apart).exportName
  obtain ⟨named, hnamed, hnamedWrites, hname, hURL⟩ :=
    setImageName_returns htype ((getStringField_congr hplainURL).trans hurl)
  have hnamedDevice : named.getStringField fieldDevice = .ok device :=
    ((getStringField_congr (hnamedWrites.others _ (by simp [hdeviceApart]))).trans
      (getStringField_congr (hplain.others _ (by simp [plainFields, hdeviceApart])))).trans hdevice
  obtain ⟨last, hlast, hlastWrites⟩ := setWSAddress_returns hnamedDevice
  have hself : (supplementByStaticFields self).2 = last := by
    rw [hrun, runSetters_of_returns hnamed, runSetters_of_returns hlast, runSetters]
  have hderived : ∀ field ∈ derivedFields, last.getField field = named.getField field := by
    intro field hfield
    apply hlastWrites.others
    intro hmem
    exact (names_apart).webSocket (List.mem_singleton.mp hmem ▸ hfield)
  have hearlier : ∀ field ∈ derivedFields, field ∈ plainFields →
      last.getField field = plain.getField field := by
    intro field hfield hfieldPlain
    rw [hderived field hfield, hnamedWrites.others]
    simp only [List.mem_cons, List.not_mem_nil, or_false]
    rintro (rfl | rfl)
    · exact (names_apart).exportName hfieldPlain
    · exact (names_apart).imageURL hfieldPlain
  rw [hself]
  constructor
  · rw [hearlier _ (by simp [derivedFields]) (by simp [plainFields]), hconnection]
  · rw [hearlier _ (by simp [derivedFields]) (by simp [plainFields]), hactive]
  · rw [hearlier _ (by simp [derivedFields]) (by simp [plainFields]), hprotocol,
      getStringField_eq_ok hurl]
  · rw [hearlier _ (by simp [derivedFields]) (by simp [plainFields]), hoem,
      getStringField_eq_ok hurl]
  · rw [hderived _ (by simp [derivedFields]), hname, hplainURL, hplainName]
  · rw [hderived _ (by simp [derivedFields]), hURL, hplainURL]

/-- What a setter returns at its end. -/
theorem writes_of_pure (hmember : memberName ∈ supplemented)
    (h : (pure (self.supplementOrUpdate memberName value) : Except Exception InstanceData) =
      .ok new) : Writes supplemented self new :=
  pure_eq_ok.mp h ▸ .supplementOrUpdate hmember

/-- {lit}`setConnectionType` writes added members alone. -/
theorem writes_setConnectionType (h : setConnectionType self = .ok new) :
    Writes supplemented self new := by
  simp only [setConnectionType, bind_eq_ok] at h
  obtain ⟨state, -, h⟩ := h
  split at h
  · exact writes_of_pure (by simp [supplemented, derivedFields]) h
  · obtain ⟨deviceType, -, h⟩ := bind_eq_ok.mp h
    split at h
    · exact writes_of_pure (by simp [supplemented, derivedFields]) h
    · exact writes_of_pure (by simp [supplemented, derivedFields]) h

/-- {lit}`setOemTransferProtocol` writes added members alone. -/
theorem writes_setOemTransferProtocol (h : setOemTransferProtocol self = .ok new) :
    Writes supplemented self new := by
  simp only [setOemTransferProtocol, bind_eq_ok] at h
  obtain ⟨transferProtocol, -, h⟩ := h
  split at h
  · exact writes_of_pure (by simp [supplemented, derivedFields]) h
  · obtain ⟨connectionType, -, h⟩ := bind_eq_ok.mp h
    split at h
    · exact writes_of_pure (by simp [supplemented, derivedFields]) h
    · exact writes_of_pure (by simp [supplemented, derivedFields]) h

/-- {lit}`setImageName` writes added members alone. -/
theorem writes_setImageName (h : setImageName self = .ok new) : Writes supplemented self new := by
  simp only [setImageName, bind_eq_ok] at h
  obtain ⟨deviceType, -, h⟩ := h
  split at h
  · obtain ⟨imageUrl, -, h⟩ := bind_eq_ok.mp h
    split at h
    · exact pure_eq_ok.mp h ▸ .refl
    · exact writes_of_pure (by simp [supplemented, derivedFields]) h
  · split at h
    · obtain ⟨imageUrl, -, h⟩ := bind_eq_ok.mp h
      rw [← pure_eq_ok.mp h]
      have hname : Writes supplemented self (self.supplementOrUpdate fieldExportName
          (.string (cleanImageName imageUrl))) :=
        .supplementOrUpdate (by simp [supplemented, derivedFields])
      exact hname.trans (writes_setNull.mono (by simp [supplemented, derivedFields]))
    · exact pure_eq_ok.mp h ▸ .refl

/-- {lit}`setWSAddress` writes added members alone. -/
theorem writes_setWSAddress (h : setWSAddress self = .ok new) : Writes supplemented self new := by
  simp only [setWSAddress, bind_eq_ok] at h
  obtain ⟨device, -, h⟩ := h
  split at h
  · exact writes_of_pure (by simp [supplemented, derivedFields]) h
  · exact pure_eq_ok.mp h ▸ .refl

/-- The query adds no other member. -/
theorem writes_supplement : Writes supplemented self (supplementByStaticFields self).2 := by
  apply writes_runSetters
  intro setter hsetter self new h
  simp only [List.mem_cons, List.not_mem_nil, or_false] at hsetter
  rcases hsetter with rfl | rfl | rfl | rfl | rfl | rfl | rfl | rfl
  · exact writes_of_pure (by simp [supplemented, derivedFields]) h
  · exact writes_of_pure (by simp [supplemented, derivedFields]) h
  · exact writes_setConnectionType h
  · obtain ⟨imageURL, -, h⟩ := bind_eq_ok.mp h
    exact writes_of_pure (by simp [supplemented, derivedFields]) h
  · exact writes_setOemTransferProtocol h
  · obtain ⟨state, -, h⟩ := bind_eq_ok.mp h
    exact writes_of_pure (by simp [supplemented, derivedFields]) h
  · exact writes_setImageName h
  · exact writes_setWSAddress h

/-! ## The configuration -/

/-- The values of the properties that a getter or a formatter reads. -/
def types : PropertyTypes := fun _ property value =>
  (property ∈ [fieldDevice, fieldImageURL] → value.getString.isSome) ∧
    (property = fieldInterfaceType → value.getUint8.isSome) ∧
    (property = propertyExitCode → value.getInt32.isSome) ∧
    (property = fieldActive → value.getBool.isSome)

/-- A property that is stored as it is, in the member of its name. -/
def plainSetter (property : Bytes) : PropertySetter :=
  ⟨property, property, []⟩

/-- The reflected state. -/
def stateSetter : PropertySetter :=
  ⟨fieldActive, fieldState, [formatState]⟩

/-- The setters with a formatter. -/
def formattedSetters : List PropertySetter :=
  [⟨fieldInterfaceType, fieldInterfaceType, [formatInterfaceType]⟩,
    ⟨propertyExitCode, StatusProvider.fieldStatus, [formatStatus]⟩, stateSetter]

/-- A reflected property has one of the known formatters or none. -/
theorem plain_or_formatted {reflection : Bytes × PropertySetter}
    (hreflection : reflection ∈ query.reflections) :
    reflection.2.formatters = [] ∨ reflection.2 ∈ formattedSetters := by
  simp only [EndpointQuery.reflections, query, List.flatMap_cons, List.flatMap_nil, List.map_cons,
    List.map_nil, List.cons_append, List.nil_append, List.append_nil, List.mem_cons,
    List.not_mem_nil, or_false] at hreflection
  rcases hreflection with rfl | rfl | rfl | rfl | rfl | rfl | rfl | rfl | rfl | rfl
  all_goals simp [formattedSetters, stateSetter]

/-- The formatters accept what the objects have. -/
theorem formattedSetters_accept {setter : PropertySetter} (hsetter : setter ∈ formattedSetters)
    {interface : Bytes} {value : DbusVariant}
    (htyped : types interface setter.propertyName value) :
    ∃ formattedValue, setter.ownValue value = .ok formattedValue := by
  obtain ⟨-, htype, hcode, hactive⟩ := htyped
  simp only [formattedSetters, List.mem_cons, List.not_mem_nil, or_false] at hsetter
  rcases hsetter with rfl | rfl | rfl
  · obtain ⟨number, hnumber⟩ := Option.isSome_iff_exists.mp (htype rfl)
    simp [PropertySetter.ownValue, EndpointQuery.applyFormatters, formatInterfaceType,
      formatValueFromDict, hnumber]
  · obtain ⟨number, hnumber⟩ := Option.isSome_iff_exists.mp (hcode rfl)
    simp [PropertySetter.ownValue, EndpointQuery.applyFormatters, formatStatus,
      formatValueFromDict, hnumber]
  · obtain ⟨active, hnumber⟩ := Option.isSome_iff_exists.mp (hactive rfl)
    simp [stateSetter, PropertySetter.ownValue, EndpointQuery.applyFormatters, formatState,
      formatValueFromDict, hnumber]

/-- A formatter that fails raises a runtime error. -/
theorem formattedSetters_error {setter : PropertySetter} (hsetter : setter ∈ formattedSetters)
    {formatter : Formatter} (hformatter : formatter ∈ setter.formatters) {property : Bytes}
    {value : DbusVariant} {exception : Exception}
    (herror : formatter property value = .error exception) : exception.isRuntimeError := by
  simp only [formattedSetters, List.mem_cons, List.not_mem_nil, or_false] at hsetter
  rcases hsetter with rfl | rfl | rfl
  all_goals
    simp only [stateSetter, List.mem_cons, List.not_mem_nil, or_false] at hformatter
    subst hformatter
    exact formatValueFromDict_error herror

/-- Each interface and each member of the query stands once. -/
theorem query_orderly : query.Orderly where
  interfaces := by
    show [vmMountPointIface, vmProcessIface].Nodup
    exact (names_apart).interfaces
  members := by
    show memberNames.Nodup
    exact (names_apart).members
  properties := by
    show propertyNames.Nodup
    exact (names_apart).properties
  plain := by
    have hmembers : ∀ memberName ∈ query.reflections.map
        (fun reflection => reflection.2.memberName),
          memberName ∉ [metaObjectPath, metaObjectService] := (names_apart).metaMembers
    exact fun reflection hreflection => hmembers _ (List.mem_map_of_mem hreflection)
  supplement := fun _ => ⟨writes_supplement.targetProperties, writes_supplement.objectPath⟩
  formatters := by
    intro property value exception
    apply processFormatters_error
    intro reflection hreflection formatter hformatter property value exception herror
    rcases plain_or_formatted hreflection with hnone | hformatted
    · rw [hnone] at hformatter
      exact absurd hformatter List.not_mem_nil
    · exact formattedSetters_error hformatted hformatter herror

/-- The query accepts every value of an object. -/
theorem query_accepts {interface : Bytes} : query.Accepts types interface := by
  intro setter hsetter value htyped
  rw [processFormatters_reflection query_orderly hsetter]
  rcases plain_or_formatted hsetter with hnone | hformatted
  · rw [PropertySetter.ownValue, hnone]
    exact ⟨value, rfl⟩
  · exact formattedSetters_accept hformatted htyped

end

end VirtualMedia
end Entity
end ObmcWebapp
