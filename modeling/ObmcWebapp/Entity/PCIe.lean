import ObmcWebapp.Entity.Histories
import ObmcWebapp.Entity.ListenPort
import ObmcWebapp.Entity.StatusRollup

/-!
# Entity - The functions of a PCIe device

A device has eight slots for functions, each with fields of its own.  After every signal the
class of the device is computed from the class code, and what the bus gives as the class
becomes the subclass.  The computed class is written over the class of the bus.

Main results:

- Theorem {lit}`PCIe.getField_supplement`: what a run writes into a slot.
- Theorem {lit}`PCIe.derived_current_always_iff`: when the derived fields are those of a
  device that was just loaded.
-/

open Library

namespace ObmcWebapp
namespace Entity
namespace PCIe

open InstanceData

/-! ## Interfaces and fields -/

/-- The service of the devices. -/
def pcieServiceName : Bytes := bytes "xyz.openbmc_project.PCIe"

/-- The interface of a device. -/
def pcieInterfaceName : Bytes := bytes "xyz.openbmc_project.PCIe.Device"

/-- The member with the identifier. -/
def fieldSBD : Bytes := bytes "Id"

/-- The member with the type of the device. -/
def fieldDeviceType : Bytes := bytes "DeviceType"

/-- The member with the code of the class. -/
def fieldClassCode : Bytes := bytes "ClassCode"

/-- The member with the number of the class. -/
def fieldDeviceClassId : Bytes := bytes "DeviceClassId"

/-- The member with the name of the class. -/
def fieldDeviceClass : Bytes := bytes "DeviceClass"

/-- The member with the name of the subclass. -/
def fieldDeviceSubClass : Bytes := bytes "DeviceSubClass"

/-- The member with the type of the function. -/
def fieldFunctionType : Bytes := bytes "FunctionType"

/-- The number of functions that a device may have. -/
def pcieFunctionsCount : Nat := 8

/-- The number of a class without a name. -/
def otherDeviceClassId : UInt8 := 0xFF

/-- The members of a function. -/
def getDynamicFields : List Bytes :=
  [fieldClassCode, bytes "DeviceId", fieldDeviceClassId, fieldDeviceClass, fieldDeviceSubClass,
    bytes "DeviceName", fieldFunctionType, bytes "RevisionId", bytes "SubsystemId",
    bytes "SubsystemName", bytes "SubsystemVendorId", bytes "VendorId", bytes "VendorName"]

/-- The member of a function: {lit}`Function{functionIndex}{MemberName}`. -/
def getComplexFunctionMemberName (index : Nat) (dynMemberName : Bytes) : Bytes :=
  bytes "Function" ++ decimal index ++ dynMemberName

/-! ## The formatters -/

/-- {lit}`FormatDeviceType`; {lit}`unkown` is 2. -/
def formatDeviceType : Formatter :=
  formatValueFromDict DbusVariant.getString .int32
    [(bytes "SingleFunction", 0), (bytes "MultiFunction", 1)] 2

/-- The number of {lit}`DeviceClass::other`. -/
def other : Int32 := 22

/-- The dictionary of {lit}`FormatDeviceClass`. -/
def deviceClasses : List (UInt8 × Int32) :=
  [(0x00, 0), (0x01, 1), (0x02, 2), (0x03, 3), (0x04, 4), (0x05, 5), (0x06, 6), (0x07, 7),
    (0x08, 8), (0x09, 9), (0x0A, 10), (0x0B, 11), (0x0C, 12), (0x0D, 13), (0x0E, 14), (0x0F, 15),
    (0x10, 16), (0x11, 17), (0x12, 18), (0x13, 19), (0x40, 20), (0xFF, 21)]

/-- {lit}`FormatDeviceClass`, for an {lit}`uint8_t`. -/
def formatDeviceClass : Formatter :=
  formatValueFromDict DbusVariant.getUint8 .int32 deviceClasses other

/-- {lit}`FormatFunctionType`; {lit}`unkownFunction` is 2. -/
def formatFunctionType : Formatter :=
  formatValueFromDict DbusVariant.getString .int32 [(bytes "Physical", 0), (bytes "Virtual", 1)] 2

/-! ## The supplement -/

/-- The digits behind a letter, with the text that follows them. -/
def digitsBehind (letter : UInt8) : Bytes → Option (Bytes × Bytes)
  | [] => none
  | first :: text =>
      let digits := text.takeWhile isDigit
      if first = letter ∧ digits ≠ [] then some (digits, text.dropWhile isDigit)
      else none

/-- The groups of {lit}`^S(\d+)B(\d+)D(\d+)$`. -/
def matchSBD (SBD : Bytes) : Option (List Bytes) := do
  let (socket, text) ← digitsBehind 0x53 SBD
  let (bus, text) ← digitsBehind 0x42 text
  let (address, text) ← digitsBehind 0x44 text
  if text = [] then some [socket, bus, address] else none

/-- The identifier is in the object path, and segment, bus and device are in the identifier. -/
def setSBD (instance_ : InstanceData) : InstanceData :=
  let SBD := getNameFromLastSegmentObjectPath instance_.objectPath true
  let instance_ := instance_.supplementOrUpdate fieldSBD (.string SBD)
  let fieldMatchIndexed := [bytes "Socket", bytes "Bus", bytes "Address"]
  match matchSBD SBD with
  | none => instance_
  | some SBDMatch =>
      (fieldMatchIndexed.zip SBDMatch).foldl (fun instance_ group =>
        instance_.supplementOrUpdate group.1 (.string group.2)) instance_

/-- Every device is fine. -/
def setStatus (instance_ : InstanceData) : InstanceData :=
  instance_.supplementOrUpdate StatusProvider.fieldStatus (.int32 StatusProvider.ok)

/-- A loop over the functions that computes one field from another. -/
def setFunctions (input output : Bytes) (derive : Nat → Field → Except Exception FieldType) :
    List Nat → InstanceData → Option Exception × InstanceData
  | [], instance_ => (none, instance_)
  | index :: rest, instance_ =>
      match derive index (instance_.getField (getComplexFunctionMemberName index input)) with
      | .error exception => (some exception, instance_)
      | .ok value => setFunctions input output derive rest
          (instance_.supplementOrUpdate (getComplexFunctionMemberName index output) value)

/-- {lit}`setDeviceSubClass` -/
def setDeviceSubClass (instance_ : InstanceData) : Option Exception × InstanceData :=
  setFunctions fieldDeviceClass fieldDeviceSubClass
    (fun _ deviceClassField => .ok (.string deviceClassField.getStringValue))
    (List.range pcieFunctionsCount) instance_

/-- {lit}`setDeviceClassId` -/
def setDeviceClassId (ulongBits : Nat) (instance_ : InstanceData) :
    Option Exception × InstanceData :=
  let format := strHexToNumberFormatter ulongBits fun number => .uint64 (.ofNat number)
  setFunctions fieldClassCode fieldDeviceClassId
    (fun index classCodeField => do
      let cc ← format (getComplexFunctionMemberName index fieldClassCode)
        (.string classCodeField.getStringValue)
      match cc.val with
      | .uint64 code => .ok (.uint8 ((code >>> 16) &&& 0xFF).toUInt8)
      | _ => .ok (.uint8 otherDeviceClassId))
    (List.range pcieFunctionsCount) instance_

/-- {lit}`setDeviceClass` -/
def setDeviceClass (instance_ : InstanceData) : Option Exception × InstanceData :=
  setFunctions fieldDeviceClassId fieldDeviceClass
    (fun index deviceClassIdField =>
      match deviceClassIdField.getValue with
      | .uint8 dci => do
          let dbusValue ← formatDeviceClass (getComplexFunctionMemberName index fieldDeviceClass)
            ⟨.uint8 dci, by simp⟩
          match dbusValue.val with
          | .int32 intEnumValue => .ok (.int32 intEnumValue)
          | _ => .ok (.int32 other)
      | _ => .error .badVariantAccess)
    (List.range pcieFunctionsCount) instance_

/-- What the query adds, in its order. -/
def supplementByStaticFields (ulongBits : Nat) (instance_ : InstanceData) :
    Option Exception × InstanceData :=
  match setDeviceSubClass (setStatus (setSBD instance_)) with
  | (some exception, instance_) => (some exception, instance_)
  | (none, instance_) =>
      match setDeviceClassId ulongBits instance_ with
      | (some exception, instance_) => (some exception, instance_)
      | (none, instance_) => setDeviceClass instance_

/-- Only one of the members of a function has a formatter. -/
def functionSetter (index : Nat) (dynMemberName : Bytes) : PropertySetter :=
  let fmtList := [(fieldFunctionType, [formatFunctionType])]
  let fieldName := getComplexFunctionMemberName index dynMemberName
  ⟨fieldName, fieldName, (fmtList.lookup dynMemberName).getD []⟩

/-- The properties that the query asks for. -/
def getPCIeMemberNameDict : List PropertySetter :=
  [⟨bytes "Device", bytes "Device", []⟩, ⟨bytes "Manufacturer", bytes "Manufacturer", []⟩,
    ⟨bytes "Subsystem", bytes "Subsystem", []⟩,
    ⟨fieldDeviceType, fieldDeviceType, [formatDeviceType]⟩] ++
  (List.range pcieFunctionsCount).flatMap fun index => getDynamicFields.map (functionSetter index)

/-- {lit}`PCIeQuery`, for an {lit}`unsigned long` of so many bits. -/
def query (ulongBits : Nat) : EndpointQuery where
  getSearchPropertiesMap := [(pcieInterfaceName, getPCIeMemberNameDict)]
  supplementByStaticFields := supplementByStaticFields ulongBits

/-! ## What is expected of a slot -/

/-- A device whose types and function types are texts. -/
def types : PropertyTypes := fun _ property value =>
  property ∈ fieldDeviceType ::
      (List.range pcieFunctionsCount).map (getComplexFunctionMemberName · fieldFunctionType) →
    value.getString.isSome

/-- The current text of a property of a function, as {lit}`getStringValue` gives it. -/
def textOf (object : WatchedObject types) (index : Nat) (dynMemberName : Bytes) : Bytes :=
  Field.getStringValue (((object.get pcieInterfaceName).lookup
    (getComplexFunctionMemberName index dynMemberName)).map Subtype.val)

/-- The members that are derived from others. -/
def derivedFields : List Bytes :=
  [fieldDeviceSubClass, fieldDeviceClassId, fieldDeviceClass]

/-- The derived fields are those of a device that was just loaded. -/
def DerivedCurrent (query : EndpointQuery) (s : Following types) : Prop :=
  ∀ index < pcieFunctionsCount, ∀ memberName ∈ derivedFields,
    s.self.getField (getComplexFunctionMemberName index memberName) =
      (query.load s.object).getField (getComplexFunctionMemberName index memberName)

/-- The signal carries the classes of all functions again that have one. -/
def CarriesClasses (s : Following types) (change : PropertyChange types) : Prop :=
  change.interfaceName = pcieInterfaceName → ∀ index < pcieFunctionsCount,
    textOf s.object index fieldDeviceClass ≠ fieldValueNotAvailable →
      (change.changedValues.lookup
        (getComplexFunctionMemberName index fieldDeviceClass)).isSome

/-- {lit}`DeviceClassId` of a class code. -/
def deviceClassId (ulongBits : Nat) (classCode : Bytes) : UInt8 :=
  match stoul ulongBits classCode with
  | .ok code => ((UInt64.ofNat code >>> 16) &&& 0xFF).toUInt8
  | .error _ => 0

/-- {lit}`DeviceClass` of an id. -/
def deviceClass (id : UInt8) : Int32 :=
  (deviceClasses.lookup id).getD other

/-! ## One loop -/

section

variable {input output : Bytes} {derive : Nat → Field → Except Exception FieldType}
  {indices : List Nat} {self : InstanceData} {index : Nat} {value : Nat → FieldType}

/-- The functions write their own member alone. -/
theorem writes_setFunctions :
    Writes (indices.map (getComplexFunctionMemberName · output)) self
      (setFunctions input output derive indices self).2 := by
  induction indices generalizing self with
  | nil => exact .refl
  | cons index rest ih =>
      rw [setFunctions]
      split
      · exact .refl
      · next value _ =>
          have hfirst : Writes (((index :: rest).map (getComplexFunctionMemberName · output))) self
              (self.supplementOrUpdate (getComplexFunctionMemberName index output) value) :=
            .supplementOrUpdate List.mem_cons_self
          exact hfirst.trans (ih.mono (List.subset_cons_self _ _))

/-- Where no slot is read after it was written, each gets what is derived from the start. -/
theorem setFunctions_returns
    (hderive : ∀ index ∈ indices, derive index
      (self.getField (getComplexFunctionMemberName index input)) = .ok (value index))
    (hapart : ∀ index ∈ indices, getComplexFunctionMemberName index input ∉
      indices.map (getComplexFunctionMemberName · output))
    (hnodup : (indices.map (getComplexFunctionMemberName · output)).Nodup) :
    (setFunctions input output derive indices self).1 = none ∧
      ∀ index ∈ indices, (setFunctions input output derive indices self).2.getField
        (getComplexFunctionMemberName index output) = some (value index) := by
  induction indices generalizing self with
  | nil => exact ⟨rfl, fun index hindex => absurd hindex List.not_mem_nil⟩
  | cons first rest ih =>
      obtain ⟨hfirst, hrest⟩ := List.forall_mem_cons.mp hderive
      obtain ⟨hfresh, hnodupRest⟩ := List.nodup_cons.mp hnodup
      have hread : ∀ index ∈ rest, derive index ((self.supplementOrUpdate
          (getComplexFunctionMemberName first output) (value first)).getField
            (getComplexFunctionMemberName index input)) = .ok (value index) := by
        intro index hindex
        rw [getField_supplementOrUpdate_ne]
        · exact hrest index hindex
        · intro heq
          apply hapart index (List.mem_cons_of_mem first hindex)
          rw [heq]
          exact List.mem_cons_self
      have hapartRest : ∀ index ∈ rest, getComplexFunctionMemberName index input ∉
          rest.map (getComplexFunctionMemberName · output) := fun index hindex hmem =>
        hapart index (List.mem_cons_of_mem first hindex) (List.mem_cons_of_mem _ hmem)
      obtain ⟨hreturns, hfields⟩ := ih hread hapartRest hnodupRest
      rw [setFunctions]
      simp only [hfirst]
      refine ⟨hreturns, List.forall_mem_cons.mpr ⟨?_, hfields⟩⟩
      rw [writes_setFunctions.others _ hfresh, getField_supplementOrUpdate]

end

/-! ## Names -/

/-- The members that every device has once. -/
def deviceMembers : List Bytes :=
  [bytes "Device", bytes "Manufacturer", bytes "Subsystem", fieldDeviceType]

/-- The fields of the device itself that are written. -/
def plainFields : List Bytes :=
  [fieldSBD, bytes "Socket", bytes "Bus", bytes "Address", StatusProvider.fieldStatus]

/-- A field of all functions. -/
def fieldsOf (dynMemberName : Bytes) : List Bytes :=
  (List.range pcieFunctionsCount).map (getComplexFunctionMemberName · dynMemberName)

/-- The members that the query adds. -/
def supplemented : List Bytes :=
  plainFields ++ fieldsOf fieldDeviceSubClass ++ fieldsOf fieldDeviceClassId ++
    fieldsOf fieldDeviceClass

/-- The members, each with the name of its property. -/
def memberNames : List Bytes :=
  deviceMembers ++ (List.range pcieFunctionsCount).flatMap fun index =>
    getDynamicFields.map (getComplexFunctionMemberName index)

/-- What is to be known about the literals. -/
structure NamesApart : Prop where
  dynamicFields : getDynamicFields.Nodup
  codeSubClass : fieldClassCode ≠ fieldDeviceSubClass
  codeId : fieldClassCode ≠ fieldDeviceClassId
  codeClass : fieldClassCode ≠ fieldDeviceClass
  codeType : fieldClassCode ≠ fieldFunctionType
  subClassId : fieldDeviceSubClass ≠ fieldDeviceClassId
  classSubClass : fieldDeviceClass ≠ fieldDeviceSubClass
  idClass : fieldDeviceClassId ≠ fieldDeviceClass
  classType : fieldDeviceClass ≠ fieldFunctionType
  deviceMembers : deviceMembers.Nodup
  metaMembers : ∀ memberName ∈ PCIe.deviceMembers,
    memberName ∉ [metaObjectPath, metaObjectService]
  plain : ∀ memberName ∈ PCIe.deviceMembers ++ plainFields ++ [metaObjectPath, metaObjectService],
    ∀ index ∈ List.range pcieFunctionsCount, memberName.take 9 ≠ bytes "Function" ++ decimal index
  length : ∀ index ∈ List.range pcieFunctionsCount, (bytes "Function" ++ decimal index).length = 9
  indices : ∀ index ∈ List.range pcieFunctionsCount, ∀ other ∈ List.range pcieFunctionsCount,
    bytes "Function" ++ decimal index = bytes "Function" ++ decimal other → index = other

/-- The names that the query uses for a device and its functions are apart. -/
theorem names_apart : NamesApart := by
  constructor
  all_goals decide

section

variable {index other : Nat} {dynMemberName otherMember memberName : Bytes}

/-- The beginning of a member's name tells the function. -/
theorem take_functionMemberName (hindex : index < pcieFunctionsCount) :
    (getComplexFunctionMemberName index dynMemberName).take 9 =
      bytes "Function" ++ decimal index :=
  List.take_left' ((names_apart).length index (List.mem_range.mpr hindex))

/-- A member belongs to one function. -/
theorem functionMemberName_inj (hindex : index < pcieFunctionsCount)
    (hother : other < pcieFunctionsCount) (heq : getComplexFunctionMemberName index dynMemberName =
      getComplexFunctionMemberName other otherMember) :
    index = other ∧ dynMemberName = otherMember := by
  have htake := congrArg (List.take 9) heq
  rw [take_functionMemberName hindex, take_functionMemberName hother] at htake
  obtain rfl := (names_apart).indices index (List.mem_range.mpr hindex) other
    (List.mem_range.mpr hother) htake
  exact ⟨rfl, List.append_cancel_left heq⟩

/-- No member of a function is one of the device. -/
theorem functionMemberName_not_mem (hindex : index < pcieFunctionsCount) :
    getComplexFunctionMemberName index dynMemberName ∉
      deviceMembers ++ plainFields ++ [metaObjectPath, metaObjectService] := by
  intro hmember
  exact (names_apart).plain _ hmember index (List.mem_range.mpr hindex)
    (take_functionMemberName hindex)

end

/-! ## One run -/

section

variable {self : InstanceData} {index ulongBits : Nat} {input output : Bytes}

/-- The members of the functions differ. -/
theorem nodup_fieldsOf : (fieldsOf output).Nodup := by
  apply List.Nodup.map_on _ List.nodup_range
  intro index hindex other hother heq
  exact (functionMemberName_inj (List.mem_range.mp hindex) (List.mem_range.mp hother) heq).1

/-- Members with other names are apart. -/
theorem not_mem_fieldsOf (hindex : index < pcieFunctionsCount) (hne : input ≠ output) :
    getComplexFunctionMemberName index input ∉ fieldsOf output := by
  intro hmem
  obtain ⟨other, hother, heq⟩ := List.mem_map.mp hmem
  exact hne (functionMemberName_inj hindex (List.mem_range.mp hother) heq.symm).2

theorem not_mem_plainFields (hindex : index < pcieFunctionsCount) :
    getComplexFunctionMemberName index input ∉ plainFields := by
  intro hmem
  exact functionMemberName_not_mem hindex (List.mem_append_left _ (List.mem_append_right _ hmem))

/-- Identifier and status are written alone. -/
theorem writes_plain : Writes plainFields self (setStatus (setSBD self)) := by
  have hsbd : Writes plainFields self (setSBD self) := by
    have hid : Writes plainFields self (self.supplementOrUpdate fieldSBD
        (.string (getNameFromLastSegmentObjectPath self.objectPath true))) :=
      .supplementOrUpdate List.mem_cons_self
    rw [setSBD]
    split
    · exact hid
    · refine hid.trans (.foldl ?_)
      intro self group hgroup
      apply Writes.supplementOrUpdate
      have hfield := (List.of_mem_zip hgroup).1
      simp only [List.mem_cons, List.not_mem_nil, or_false] at hfield
      simp only [plainFields, List.mem_cons]
      tauto
  exact hsbd.trans (.supplementOrUpdate (by simp [plainFields]))

/-- {lit}`setDeviceSubClass` writes its member alone. -/
theorem writes_setDeviceSubClass :
    Writes (fieldsOf fieldDeviceSubClass) self (setDeviceSubClass self).2 :=
  writes_setFunctions

/-- {lit}`setDeviceClassId` writes its member alone. -/
theorem writes_setDeviceClassId :
    Writes (fieldsOf fieldDeviceClassId) self (setDeviceClassId ulongBits self).2 :=
  writes_setFunctions

/-- {lit}`setDeviceClass` writes its member alone. -/
theorem writes_setDeviceClass :
    Writes (fieldsOf fieldDeviceClass) self (setDeviceClass self).2 :=
  writes_setFunctions

/-- The query adds no other member. -/
theorem writes_supplement :
    Writes supplemented self (supplementByStaticFields ulongBits self).2 := by
  have hplain : Writes supplemented self (setStatus (setSBD self)) :=
    writes_plain.mono fun _ hmem => by simp [supplemented, hmem]
  have hsubClass : ∀ self, Writes supplemented self (setDeviceSubClass self).2 := fun _ =>
    writes_setDeviceSubClass.mono fun _ hmem => by simp [supplemented, hmem]
  have hclassId : ∀ self, Writes supplemented self (setDeviceClassId ulongBits self).2 :=
    fun _ => writes_setDeviceClassId.mono fun _ hmem => by simp [supplemented, hmem]
  have hclass : ∀ self, Writes supplemented self (setDeviceClass self).2 := fun _ =>
    writes_setDeviceClass.mono fun _ hmem => by simp [supplemented, hmem]
  have hfirst := hsubClass (setStatus (setSBD self))
  unfold supplementByStaticFields
  generalize setDeviceSubClass (setStatus (setSBD self)) = run at hfirst
  obtain ⟨raised, first⟩ := run
  cases raised with
  | some exception => exact hplain.trans hfirst
  | none =>
      have hsecond := hclassId first
      dsimp only
      generalize setDeviceClassId ulongBits first = run at hsecond
      obtain ⟨raised, second⟩ := run
      cases raised with
      | some exception => exact (hplain.trans hfirst).trans hsecond
      | none => exact ((hplain.trans hfirst).trans hsecond).trans (hclass second)

/-- The loops over all functions. -/
theorem setFunctions_range {derive : Nat → Field → Except Exception FieldType}
    {value : Nat → FieldType} (hne : input ≠ output)
    (hderive : ∀ index < pcieFunctionsCount,
      derive index (self.getField (getComplexFunctionMemberName index input)) =
        .ok (value index)) :
    (setFunctions input output derive (List.range pcieFunctionsCount) self).1 = none ∧
      ∀ index < pcieFunctionsCount,
        (setFunctions input output derive (List.range pcieFunctionsCount) self).2.getField
          (getComplexFunctionMemberName index output) = some (value index) := by
  have hreturns := @setFunctions_returns input output derive (List.range pcieFunctionsCount) self
    value (fun index hindex => hderive index (List.mem_range.mp hindex))
    (fun index hindex => not_mem_fieldsOf (List.mem_range.mp hindex) hne)
    nodup_fieldsOf
  simpa only [List.mem_range] using hreturns

/-- What {lit}`setDeviceSubClass` writes. -/
theorem setDeviceSubClass_returns : (setDeviceSubClass self).1 = none ∧
    ∀ index < pcieFunctionsCount,
      (setDeviceSubClass self).2.getField (getComplexFunctionMemberName index fieldDeviceSubClass) =
        some (.string (Field.getStringValue
          (self.getField (getComplexFunctionMemberName index fieldDeviceClass)))) :=
  setFunctions_range (names_apart).classSubClass fun _ _ => rfl

/-- What {lit}`setDeviceClassId` writes. -/
theorem setDeviceClassId_returns : (setDeviceClassId ulongBits self).1 = none ∧
    ∀ index < pcieFunctionsCount, (setDeviceClassId ulongBits self).2.getField
      (getComplexFunctionMemberName index fieldDeviceClassId) =
        some (.uint8 (deviceClassId ulongBits (Field.getStringValue
          (self.getField (getComplexFunctionMemberName index fieldClassCode))))) := by
  apply setFunctions_range (names_apart).codeId
  intro index _
  simp only [strHexToNumberFormatter, DbusVariant.getString, DbusVariant.string, deviceClassId]
  cases stoul ulongBits (Field.getStringValue
    (self.getField (getComplexFunctionMemberName index fieldClassCode))) with
  | ok code => rfl
  | error exception => rfl

/-- What {lit}`setDeviceClass` writes. -/
theorem setDeviceClass_returns {id : Nat → UInt8} (hid : ∀ index < pcieFunctionsCount,
      self.getField (getComplexFunctionMemberName index fieldDeviceClassId) =
        some (.uint8 (id index))) :
    (setDeviceClass self).1 = none ∧ ∀ index < pcieFunctionsCount,
      (setDeviceClass self).2.getField (getComplexFunctionMemberName index fieldDeviceClass) =
        some (.int32 (deviceClass (id index))) := by
  apply setFunctions_range (names_apart).idClass
  intro index hindex
  rw [hid index hindex]
  rfl

/-- A run computes the fields of a slot from its class and its class code. -/
theorem getField_supplement (hindex : index < pcieFunctionsCount) :
    let new := (supplementByStaticFields ulongBits self).2
    let text (memberName : Bytes) : Bytes := Field.getStringValue
      (self.getField (getComplexFunctionMemberName index memberName))
    let id := deviceClassId ulongBits (text fieldClassCode)
    new.getField (getComplexFunctionMemberName index fieldDeviceSubClass) =
        some (.string (text fieldDeviceClass)) ∧
      new.getField (getComplexFunctionMemberName index fieldDeviceClassId) = some (.uint8 id) ∧
      new.getField (getComplexFunctionMemberName index fieldDeviceClass) =
        some (.int32 (deviceClass id)) := by
  have hplain := @writes_plain self
  generalize hfirst : setStatus (setSBD self) = first at hplain
  obtain ⟨hsubReturns, hsubFields⟩ := @setDeviceSubClass_returns first
  have hsubWrites := @writes_setDeviceSubClass first
  obtain ⟨second, hsecond⟩ : ∃ second, setDeviceSubClass first = (none, second) :=
    ⟨_, Prod.ext hsubReturns rfl⟩
  rw [hsecond] at hsubFields hsubWrites
  obtain ⟨hidReturns, hidFields⟩ := @setDeviceClassId_returns second ulongBits
  have hidWrites := @writes_setDeviceClassId second ulongBits
  obtain ⟨third, hthird⟩ : ∃ third, setDeviceClassId ulongBits second = (none, third) :=
    ⟨_, Prod.ext hidReturns rfl⟩
  rw [hthird] at hidFields hidWrites
  have hclassFields := (setDeviceClass_returns hidFields).2
  have hclassWrites := @writes_setDeviceClass third
  have hrun : (supplementByStaticFields ulongBits self).2 = (setDeviceClass third).2 := by
    unfold supplementByStaticFields
    rw [hfirst, hsecond]
    dsimp only
    rw [hthird]
  have hclassText : first.getField (getComplexFunctionMemberName index fieldDeviceClass) =
      self.getField (getComplexFunctionMemberName index fieldDeviceClass) :=
    hplain.others _ (not_mem_plainFields hindex)
  have hcodeText : second.getField (getComplexFunctionMemberName index fieldClassCode) =
      self.getField (getComplexFunctionMemberName index fieldClassCode) :=
    (hsubWrites.others _ (not_mem_fieldsOf hindex (names_apart).codeSubClass)).trans
      (hplain.others _ (not_mem_plainFields hindex))
  dsimp only
  rw [hrun, ← hclassText, ← hcodeText]
  refine ⟨?_, ?_, hclassFields index hindex⟩
  · rw [hclassWrites.others _ (not_mem_fieldsOf hindex (names_apart).classSubClass.symm),
      hidWrites.others _ (not_mem_fieldsOf hindex (names_apart).subClassId)]
    exact hsubFields index hindex
  · rw [hclassWrites.others _ (not_mem_fieldsOf hindex (names_apart).idClass)]
    exact hidFields index hindex

end

/-! ## The configuration -/

section

variable {ulongBits index : Nat} {dynMemberName : Bytes}

/-- Members and properties have the same names. -/
theorem reflections_memberNames :
    (query ulongBits).reflections.map (fun reflection => reflection.2.memberName) = memberNames ∧
      (query ulongBits).reflections.map (fun reflection => reflection.2.propertyName) =
        memberNames := by
  simp [EndpointQuery.reflections, query, getPCIeMemberNameDict, memberNames, deviceMembers,
    functionSetter, List.map_flatMap, Function.comp_def]

theorem nodup_memberNames : memberNames.Nodup := by
  rw [memberNames, List.nodup_append']
  refine ⟨(names_apart).deviceMembers, List.nodup_flatMap.mpr ⟨?_, ?_⟩, ?_⟩
  · intro index _
    exact (names_apart).dynamicFields.map fun _ _ => List.append_cancel_left
  · apply List.nodup_range.imp_of_mem
    intro index other hindex hother hne memberName hfirst hsecond
    obtain ⟨_, -, rfl⟩ := List.mem_map.mp hfirst
    obtain ⟨_, -, heq⟩ := List.mem_map.mp hsecond
    exact hne (functionMemberName_inj (List.mem_range.mp hindex) (List.mem_range.mp hother)
      heq.symm).1
  · intro memberName hmember hfunction
    obtain ⟨index, hindex, hmap⟩ := List.mem_flatMap.mp hfunction
    obtain ⟨_, -, rfl⟩ := List.mem_map.mp hmap
    exact functionMemberName_not_mem (List.mem_range.mp hindex)
      (List.mem_append_left _ (List.mem_append_left _ hmember))

/-- The reflected properties are those of the one interface. -/
theorem mem_reflections_iff {reflection : Bytes × PropertySetter} :
    reflection ∈ (query ulongBits).reflections ↔
      reflection.1 = pcieInterfaceName ∧ reflection.2 ∈ getPCIeMemberNameDict := by
  obtain ⟨interface, setter⟩ := reflection
  simp [EndpointQuery.reflections, query, and_comm, eq_comm]

/-- Each member of a function is reflected. -/
theorem function_reflected (hindex : index < pcieFunctionsCount)
    (hmember : dynMemberName ∈ getDynamicFields) :
    (pcieInterfaceName, functionSetter index dynMemberName) ∈ (query ulongBits).reflections := by
  refine mem_reflections_iff.mpr ⟨rfl, List.mem_append_right _ (List.mem_flatMap.mpr ?_)⟩
  exact ⟨index, List.mem_range.mpr hindex, List.mem_map_of_mem hmember⟩

/-- The properties that have a formatter are texts. -/
theorem formatters_of_reflection {reflection : Bytes × PropertySetter}
    (hreflection : reflection ∈ (query ulongBits).reflections) :
    reflection.2.formatters = [] ∨
      ∃ formatterDict defaultValue, reflection.2.formatters =
          [formatValueFromDict DbusVariant.getString .int32 formatterDict defaultValue] ∧
        ∀ interface value, types interface reflection.2.propertyName value →
          value.getString.isSome := by
  have hsetter := (mem_reflections_iff.mp hreflection).2
  rcases List.mem_append.mp hsetter with hdevice | hfunction
  · simp only [List.mem_cons, List.not_mem_nil, or_false] at hdevice
    rcases hdevice with hplain | hplain | hplain | htype
    · exact .inl (by rw [hplain])
    · exact .inl (by rw [hplain])
    · exact .inl (by rw [hplain])
    · rw [htype]
      exact .inr ⟨_, _, rfl, fun _ _ htyped => htyped List.mem_cons_self⟩
  · obtain ⟨index, hindex, hmap⟩ := List.mem_flatMap.mp hfunction
    obtain ⟨dynMemberName, -, hfunctionSetter⟩ := List.mem_map.mp hmap
    rw [← hfunctionSetter]
    by_cases htype : dynMemberName = fieldFunctionType
    · subst htype
      refine .inr ⟨_, _, rfl, fun _ _ htyped => htyped (List.mem_cons_of_mem _ ?_)⟩
      exact List.mem_map_of_mem hindex
    · have hbeq : (dynMemberName == fieldFunctionType) = false := beq_false_of_ne htype
      exact .inl (by simp [functionSetter, List.lookup_cons, hbeq])

/-- Each member of the query stands once. -/
theorem query_orderly : (query ulongBits).Orderly where
  interfaces := List.nodup_singleton pcieInterfaceName
  members := reflections_memberNames.1 ▸ nodup_memberNames
  properties := reflections_memberNames.2 ▸ nodup_memberNames
  plain := by
    have hplain : ∀ memberName ∈ memberNames, memberName ∉ [metaObjectPath, metaObjectService] := by
      intro memberName hmember
      rcases List.mem_append.mp hmember with hdevice | hfunction
      · exact (names_apart).metaMembers memberName hdevice
      · obtain ⟨index, hindex, hmap⟩ := List.mem_flatMap.mp hfunction
        obtain ⟨_, -, rfl⟩ := List.mem_map.mp hmap
        exact fun hmeta => functionMemberName_not_mem (List.mem_range.mp hindex)
          (List.mem_append_right _ hmeta)
    intro reflection hreflection
    apply hplain
    rw [← (@reflections_memberNames ulongBits).1]
    exact List.mem_map_of_mem hreflection
  supplement := fun _ => ⟨writes_supplement.targetProperties, writes_supplement.objectPath⟩
  formatters := by
    intro property value exception
    apply processFormatters_error
    intro reflection hreflection formatter hformatter property value exception herror
    rcases formatters_of_reflection hreflection with hnone | ⟨formatterDict, defaultValue, hdict, -⟩
    · rw [hnone] at hformatter
      exact absurd hformatter List.not_mem_nil
    · rw [hdict, List.mem_singleton] at hformatter
      exact formatValueFromDict_error (hformatter ▸ herror)

/-- The query accepts every value of a device. -/
theorem query_accepts : (query ulongBits).Accepts types pcieInterfaceName := by
  intro setter hsetter value htyped
  rw [processFormatters_reflection query_orderly hsetter, PropertySetter.ownValue]
  rcases formatters_of_reflection hsetter with hnone | ⟨formatterDict, defaultValue, hdict, htext⟩
  · rw [hnone]
    exact ⟨value, rfl⟩
  · obtain ⟨text, htext⟩ := Option.isSome_iff_exists.mp (htext _ _ htyped)
    rw [hdict]
    simp [EndpointQuery.applyFormatters, formatValueFromDict, htext]

/-! ## Histories -/

variable {object : WatchedObject types} {history : List (PropertyChange types)}
  {following : Following types} {change : PropertyChange types}

/-- A member without a formatter has the text of its property. -/
theorem getStringValue_reflectedValue (hindex : index < pcieFunctionsCount)
    (hmember : dynMemberName ∈ [fieldClassCode, fieldDeviceClass]) :
    Field.getStringValue ((query ulongBits).reflectedValue (object.get pcieInterfaceName)
      (functionSetter index dynMemberName)) = textOf object index dynMemberName := by
  have hfields : dynMemberName ∈ getDynamicFields ∧ dynMemberName ≠ fieldFunctionType := by
    simp only [List.mem_cons, List.not_mem_nil, or_false] at hmember
    rcases hmember with rfl | rfl
    · exact ⟨by simp [getDynamicFields], (names_apart).codeType⟩
    · exact ⟨by simp [getDynamicFields], (names_apart).classType⟩
  obtain ⟨hdynamic, hplain⟩ := hfields
  have hbeq : (dynMemberName == fieldFunctionType) = false := beq_false_of_ne hplain
  rw [reflectedValue_of_formatters query_orderly (function_reflected hindex hdynamic)
    (by simp [functionSetter, List.lookup_cons, hbeq])]
  rfl

/-- The derived fields of a device that was just loaded. -/
theorem load_function (hindex : index < pcieFunctionsCount) :
    let fresh := (query ulongBits).load object
    let id := deviceClassId ulongBits (textOf object index fieldClassCode)
    fresh.getField (getComplexFunctionMemberName index fieldDeviceSubClass) =
        some (.string (textOf object index fieldDeviceClass)) ∧
      fresh.getField (getComplexFunctionMemberName index fieldDeviceClassId) = some (.uint8 id) ∧
      fresh.getField (getComplexFunctionMemberName index fieldDeviceClass) =
        some (.int32 (deviceClass id)) := by
  have htext : ∀ memberName ∈ [fieldClassCode, fieldDeviceClass],
      Field.getStringValue (((query ulongBits).loaded object).getField
        (getComplexFunctionMemberName index memberName)) = textOf object index memberName := by
    have hfields : [fieldClassCode, fieldDeviceClass] ⊆ getDynamicFields := by
      simp [getDynamicFields]
    intro memberName hmember
    rw [← @getStringValue_reflectedValue ulongBits index memberName object hindex hmember,
      ← loaded_member query_orderly query_accepts (function_reflected hindex (hfields hmember))]
    rfl
  have hfields := @getField_supplement ((query ulongBits).loaded object) index ulongBits hindex
  have hload : ∀ memberName, ((query ulongBits).load object).getField memberName =
      (supplementByStaticFields ulongBits ((query ulongBits).loaded object)).2.getField
        memberName := congrFun (load_eq query_orderly).1
  simpa only [hload, htext fieldClassCode (by simp), htext fieldDeviceClass (by simp)] using hfields

/-- The instance follows its object, and what comes from the class codes is current. -/
structure Tracks (ulongBits : Nat) (s : Following types) : Prop where
  follows : Follows (query ulongBits) s
  codes : ∀ index < pcieFunctionsCount,
    s.self.memberInstances (getComplexFunctionMemberName index fieldClassCode) =
      (query ulongBits).reflectedValue (s.object.get pcieInterfaceName)
        (functionSetter index fieldClassCode)
  ids : ∀ index < pcieFunctionsCount,
    s.self.getField (getComplexFunctionMemberName index fieldDeviceClassId) =
      some (.uint8 (deviceClassId ulongBits (textOf s.object index fieldClassCode)))
  classes : ∀ index < pcieFunctionsCount,
    s.self.getField (getComplexFunctionMemberName index fieldDeviceClass) = some (.int32
      (deviceClass (deviceClassId ulongBits (textOf s.object index fieldClassCode))))

/-- The query leaves the codes. -/
theorem classCode_kept (hindex : index < pcieFunctionsCount) (self : InstanceData) :
    ((query ulongBits).supplementByStaticFields self).2.memberInstances
        (getComplexFunctionMemberName index fieldClassCode) =
      self.memberInstances (getComplexFunctionMemberName index fieldClassCode) := by
  apply writes_supplement.others
  simp only [supplemented, List.mem_append, not_or]
  exact ⟨⟨⟨not_mem_plainFields hindex, not_mem_fieldsOf hindex (names_apart).codeSubClass⟩,
    not_mem_fieldsOf hindex (names_apart).codeId⟩, not_mem_fieldsOf hindex (names_apart).codeClass⟩

/-- The class of the device stands where the class of the bus stood, so that a signal
without it leaves no text there. -/
theorem Tracks.filled_deviceClass (h : Tracks ulongBits following)
    (hinterface : change.interfaceName = pcieInterfaceName)
    (hwatched : following.watches change = true) (hindex : index < pcieFunctionsCount) :
    Field.getStringValue (((query ulongBits).filled change.interfaceName change.changedValues
        following.self).getField (getComplexFunctionMemberName index fieldDeviceClass)) =
      if (change.changedValues.lookup
          (getComplexFunctionMemberName index fieldDeviceClass)).isSome then
        textOf (following.object.changed change) index fieldDeviceClass
      else fieldValueNotAvailable := by
  have hdynamic : fieldDeviceClass ∈ getDynamicFields := by simp [getDynamicFields]
  have hreflected := @function_reflected ulongBits index fieldDeviceClass hindex hdynamic
  have hobject : change.interfaceName ∈ following.object.interfaces :=
    (h.follows.watches_iff.mp hwatched).2
  have haccepted : ∀ setter, (change.interfaceName, setter) ∈ (query ulongBits).reflections →
      Accepted (query ulongBits) change.changedValues setter := fun setter hsetter =>
    accepted_of_typed (hinterface ▸ query_accepts) change.typed hsetter
  have hmember := @filled_member (query ulongBits) change.changedValues following.self
    (functionSetter index fieldDeviceClass) change.interfaceName following.object.interfaces
    query_orderly h.follows.watches (hinterface ▸ hreflected) haccepted hobject
  rw [reflectedValue_of_formatters query_orderly hreflected rfl] at hmember
  have hclass : following.self.memberInstances
      (functionSetter index fieldDeviceClass).memberName = some (.int32 _) :=
    h.classes index hindex
  have htext : textOf (following.object.changed change) index fieldDeviceClass =
      Field.getStringValue (((change.changedValues.lookup
        (getComplexFunctionMemberName index fieldDeviceClass)).or
          ((following.object.get pcieInterfaceName).lookup
            (getComplexFunctionMemberName index fieldDeviceClass))).map Subtype.val) := by
    rw [textOf, get_changed, if_pos ⟨hinterface, hinterface ▸ hobject⟩, List.lookup_append]
  refine (congrArg Field.getStringValue hmember).trans ?_
  rw [hclass, htext]
  show Field.getStringValue (Option.or (Option.map Subtype.val (change.changedValues.lookup
    (getComplexFunctionMemberName index fieldDeviceClass))) _) = _
  cases change.changedValues.lookup (getComplexFunctionMemberName index fieldDeviceClass) with
  | none => rfl
  | some value => rfl

/-- The derived fields after a signal. -/
theorem Tracks.follow_function (h : Tracks ulongBits following)
    (hwatched : following.watches change = true) (hindex : index < pcieFunctionsCount) :
    let new := (query ulongBits).follow following change
    let id := deviceClassId ulongBits (textOf new.object index fieldClassCode)
    new.self.getField (getComplexFunctionMemberName index fieldDeviceSubClass) =
        some (.string (if (change.changedValues.lookup
            (getComplexFunctionMemberName index fieldDeviceClass)).isSome then
          textOf new.object index fieldDeviceClass else fieldValueNotAvailable)) ∧
      new.self.getField (getComplexFunctionMemberName index fieldDeviceClassId) =
        some (.uint8 id) ∧
      new.self.getField (getComplexFunctionMemberName index fieldDeviceClass) =
        some (.int32 (deviceClass id)) := by
  have hinterface : change.interfaceName = pcieInterfaceName :=
    List.mem_singleton.mp (h.follows.watches_iff.mp hwatched).1
  have hdynamic : fieldClassCode ∈ getDynamicFields := List.mem_cons_self
  have hcode : Field.getStringValue (((query ulongBits).filled change.interfaceName
      change.changedValues following.self).getField
        (getComplexFunctionMemberName index fieldClassCode)) =
          textOf (following.object.changed change) index fieldClassCode := by
    rw [← @getStringValue_reflectedValue ulongBits index fieldClassCode _ hindex (by simp),
      ← filled_changed query_orderly h.follows query_accepts (function_reflected hindex hdynamic)
        (h.codes index hindex)]
    rfl
  have hfields := @getField_supplement ((query ulongBits).filled change.interfaceName
    change.changedValues following.self) index ulongBits hindex
  have hself := follow_self_of_accepts query_orderly h.follows
    (hinterface ▸ @query_accepts ulongBits) hwatched
  dsimp only at hfields ⊢
  rw [hcode, h.filled_deviceClass hinterface hwatched hindex] at hfields
  rw [hself]
  exact hfields

theorem Tracks.follow (h : Tracks ulongBits following) :
    Tracks ulongBits ((query ulongBits).follow following change) := by
  have hdynamic : fieldClassCode ∈ getDynamicFields := List.mem_cons_self
  have hcodes : ∀ index < pcieFunctionsCount, _ := fun index hindex =>
    @follow_member types (query ulongBits) (functionSetter index fieldClassCode)
      pcieInterfaceName following change query_orderly h.follows query_accepts
      (function_reflected hindex hdynamic) (classCode_kept hindex) (h.codes index hindex)
  cases hwatched : following.watches change with
  | true =>
      exact ⟨h.follows.follow query_orderly, hcodes,
        fun index hindex => (h.follow_function hwatched hindex).2.1,
        fun index hindex => (h.follow_function hwatched hindex).2.2⟩
  | false =>
      have hself : ((query ulongBits).follow following change).self = following.self :=
        follow_self_of_not hwatched
      have htext : ∀ index < pcieFunctionsCount, ∀ memberName,
          textOf (following.object.changed change) index memberName =
            textOf following.object index memberName := by
        intro index hindex memberName
        rw [textOf, textOf,
          get_changed_of_not h.follows (function_reflected hindex hdynamic) hwatched]
      refine ⟨h.follows.follow query_orderly, hcodes, ?_, ?_⟩
      · intro index hindex
        rw [hself, EndpointQuery.follow, htext index hindex]
        exact h.ids index hindex
      · intro index hindex
        rw [hself, EndpointQuery.follow, htext index hindex]
        exact h.classes index hindex

theorem tracks_after : Tracks ulongBits ((query ulongBits).after object history) := by
  induction history using List.reverseRecOn with
  | nil =>
      exact ⟨follows_load query_orderly,
        fun index hindex => load_member query_orderly query_accepts
          (function_reflected hindex List.mem_cons_self) (classCode_kept hindex),
        fun index hindex => (load_function hindex).2.1,
        fun index hindex => (load_function hindex).2.2⟩
  | append_singleton history change ih =>
      rw [after_snoc]
      exact ih.follow

/-- A property that the signal does not carry keeps its text. -/
theorem textOf_changed (hnone : change.changedValues.lookup
      (getComplexFunctionMemberName index dynMemberName) = none) :
    textOf (object.changed change) index dynMemberName = textOf object index dynMemberName := by
  rw [textOf, textOf, get_changed, List.lookup_append]
  split
  · rw [hnone, Option.none_or]
  · rfl

/-- What it means for the derived members to be current. -/
theorem Tracks.derivedCurrent_iff (h : Tracks ulongBits following) :
    DerivedCurrent (query ulongBits) following ↔ ∀ index < pcieFunctionsCount,
      following.self.getField (getComplexFunctionMemberName index fieldDeviceSubClass) =
        some (.string (textOf following.object index fieldDeviceClass)) := by
  constructor
  · intro hcurrent index hindex
    exact (hcurrent index hindex _ List.mem_cons_self).trans (load_function hindex).1
  · intro hsub index hindex memberName hmember
    obtain ⟨hfreshSub, hfreshId, hfreshClass⟩ :=
      @load_function ulongBits index following.object hindex
    simp only [derivedFields, List.mem_cons, List.not_mem_nil, or_false] at hmember
    rcases hmember with rfl | rfl | rfl
    · exact (hsub index hindex).trans hfreshSub.symm
    · exact (h.ids index hindex).trans hfreshId.symm
    · exact (h.classes index hindex).trans hfreshClass.symm

/-- After a change they are current if and only if it carries the names of the classes. -/
theorem Tracks.derivedCurrent_follow_iff (h : Tracks ulongBits following)
    (hcurrent : DerivedCurrent (query ulongBits) following) :
    DerivedCurrent (query ulongBits) ((query ulongBits).follow following change) ↔
      CarriesClasses following change := by
  rw [h.derivedCurrent_iff] at hcurrent
  rw [h.follow.derivedCurrent_iff]
  cases hwatched : following.watches change with
  | false =>
      have hdynamic : fieldDeviceClass ∈ getDynamicFields := by simp [getDynamicFields]
      constructor
      · intro _ hinterface index hindex hclass
        have hobject : pcieInterfaceName ∉ following.object.interfaces := by
          intro hobject
          have hwatches := h.follows.watches_iff.mpr
            ⟨List.mem_singleton.mpr hinterface, hinterface ▸ hobject⟩
          simp [hwatched] at hwatches
        simp [textOf, WatchedObject.get, hobject, Field.getStringValue, Field.getValue] at hclass
      · intro _ index hindex
        rw [follow_self_of_not hwatched, EndpointQuery.follow, textOf,
          get_changed_of_not h.follows (function_reflected hindex hdynamic) hwatched]
        exact hcurrent index hindex
  | true =>
      constructor
      · intro hnew _ index hindex hclass
        by_contra hcarried
        have hnone := Option.not_isSome_iff_eq_none.mp hcarried
        have hfield := (h.follow_function hwatched hindex).1.symm.trans (hnew index hindex)
        rw [if_neg hcarried, EndpointQuery.follow, textOf_changed hnone] at hfield
        simp only [Option.some.injEq, FieldType.string.injEq] at hfield
        exact hclass hfield.symm
      · intro hcarries index hindex
        have hinterface : change.interfaceName = pcieInterfaceName :=
          List.mem_singleton.mp (h.follows.watches_iff.mp hwatched).1
        rw [(h.follow_function hwatched hindex).1]
        split
        · rfl
        · next hcarried =>
            have hnone := Option.not_isSome_iff_eq_none.mp hcarried
            have hclass : textOf following.object index fieldDeviceClass =
                fieldValueNotAvailable := by
              by_contra hclass
              exact hcarried (hcarries hinterface index hindex hclass)
            rw [EndpointQuery.follow, textOf_changed hnone, hclass]

/-- The derived fields are those of a fresh load in all states of a history exactly where
every signal carries the classes of the bus again. -/
theorem derived_current_always_iff (ulongBits : Nat) (object : WatchedObject types)
    (history : List (PropertyChange types)) :
    (∀ before rest, history = before ++ rest →
        DerivedCurrent (query ulongBits) ((query ulongBits).after object before)) ↔
      ∀ before change rest, history = before ++ change :: rest →
        CarriesClasses ((query ulongBits).after object before) change := by
  apply after_always_iff
  · intro index hindex memberName hmember
    rfl
  · intro history hcurrent change
    exact tracks_after.derivedCurrent_follow_iff hcurrent

end

/-! ## A signal of another property -/

/-- A card with one function. -/
def networkCard : WatchedObject types where
  serviceName := pcieServiceName
  objectPath := bytes "/xyz/openbmc_project/PCIe/S0B1D0"
  interfaces := [pcieInterfaceName]
  properties := fun _ =>
    [(bytes "Function0DeviceClass", .string (bytes "NetworkController")),
      (bytes "Function0ClassCode", .string (bytes "0x020000"))]
  typed _ := by
    intro property hproperty htext
    simp only [List.mem_cons, List.not_mem_nil, or_false] at hproperty
    rcases hproperty with rfl | rfl
    · rfl
    · rfl

/-- A signal without any value, so that the fields are only supplemented again. -/
def nothingChanges : PropertyChange types where
  interfaceName := pcieInterfaceName
  changedValues := []
  typed _ hproperty := absurd hproperty List.not_mem_nil

/-- The second run finds its own number in the place of the class. -/
theorem subClass_lost :
    let device := query 64
    (device.after networkCard []).self.getField (bytes "Function0DeviceSubClass") =
        some (.string (bytes "NetworkController")) ∧
      (device.after networkCard [nothingChanges]).self.getField (bytes "Function0DeviceSubClass") =
        some (.string (bytes "N/A")) ∧
      (device.load (device.after networkCard [nothingChanges]).object).getField
        (bytes "Function0DeviceSubClass") = some (.string (bytes "NetworkController")) := by
  decide +kernel

end PCIe
end Entity
end ObmcWebapp
