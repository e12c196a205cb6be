import ObmcWebapp.Entity.VirtualMedia

/-!
# Entity - Virtual media slots that follow their objects

After a signal a slot has what the signal brings, and otherwise what the last run has left.
For direct slots this is the current value of each property.  A proxy has lost its address by
then, and a legacy slot may have written over its name before it had an address.

Main results:

- Theorem {lit}`VirtualMedia.supplemented_agree_iff`: when two runs leave the same.
- Theorem {lit}`VirtualMedia.current_always_iff`: when the fields follow from the path and
  the current properties along a history.
-/

open Library

namespace ObmcWebapp
namespace Entity
namespace VirtualMedia

open InstanceData

/-! ## What a slot reports -/

/-- A property of the mount point as its object has it. -/
def propertyOf (object : WatchedObject types) (property : Bytes) : Field :=
  ((object.get vmMountPointIface).lookup property).map Subtype.val

/-- The values of the mount point that a signal brings to an object. -/
def mountPointValues (object : WatchedObject types) (change : PropertyChange types) :
    DBusPropertiesMap :=
  if change.interfaceName = vmMountPointIface ∧ vmMountPointIface ∈ object.interfaces then
    change.changedValues
  else []

/-- The derived fields are those of a slot that was just loaded. -/
def DerivedCurrent (s : Following types) : Prop :=
  ∀ field ∈ derivedFields, s.self.getField field = (query.load s.object).getField field

/-- A legacy slot with an address has its last segment in a field. -/
def NamedBySegment (object : WatchedObject types) (exportName : Field) : Prop :=
  deviceTypeOf object.objectPath = DeviceType.legacy →
    ∀ url, propertyOf object fieldImageURL = some (.string url) → url ≠ [] →
      exportName = some (.string (getNameFromLastSegmentObjectPath url false))

/-- The signal brings what earlier runs have erased or written over: the address of a proxy,
and the name of a legacy slot when it gets its address. -/
structure Renews (s : Following types) (change : PropertyChange types) : Prop where
  proxy : deviceTypeOf s.object.objectPath = DeviceType.proxy → s.watches change = true →
    cleanImageName (Field.getStringValue (propertyOf s.object fieldImageURL)) ≠
        fieldValueNotAvailable →
      ((mountPointValues s.object change).lookup fieldImageURL).isSome
  legacy : deviceTypeOf s.object.objectPath = DeviceType.legacy →
    propertyOf s.object fieldImageURL = none →
    ((mountPointValues s.object change).lookup fieldImageURL).isSome →
    propertyOf s.object fieldExportName ≠
        some (.string (getNameFromLastSegmentObjectPath fieldValueNotAvailable false)) →
      ((mountPointValues s.object change).lookup fieldExportName).isSome

/-! ## Fields that agree -/

/-- Two runs over different addresses and names leave the same. -/
structure Agree (deviceType : Int32) (imageURL exportName imageURL' exportName' : Field) :
    Prop where
  name : exportNameOf deviceType imageURL exportName =
    exportNameOf deviceType imageURL' exportName'
  address : imageURLOf deviceType imageURL = imageURLOf deviceType imageURL'
  protocol : transferProtocolOf imageURL.getStringValue =
    transferProtocolOf imageURL'.getStringValue

section

variable {new : InstanceData} {deviceType state : Int32} {text : Bytes}

/-- When two results are the same. -/
theorem supplemented_agree_iff {imageURL imageURL' exportName exportName' : Field}
    {new' : InstanceData} (h : Supplemented deviceType state imageURL exportName new)
    (h' : Supplemented deviceType state imageURL' exportName' new') :
    (∀ field ∈ derivedFields, new.getField field = new'.getField field) ↔
      Agree deviceType imageURL exportName imageURL' exportName' := by
  simp only [derivedFields, List.forall_mem_cons, h.exportName, h'.exportName, h.imageURL,
    h'.imageURL, h.transferProtocol, h'.transferProtocol, h.oemTransferProtocol,
    h'.oemTransferProtocol, h.connectionType, h'.connectionType, h.active, h'.active,
    Option.some.injEq, FieldType.int32.injEq]
  constructor
  · rintro ⟨hname, hURL, hprotocol, -⟩
    exact ⟨hname, hURL, hprotocol⟩
  · rintro ⟨hname, hURL, hprotocol⟩
    simp [hname, hURL, hprotocol]

/-- An address of which only quotation marks and the default text are left has no protocol. -/
theorem transferProtocolOf_of_clean (hclean : cleanImageName text = fieldValueNotAvailable) :
    transferProtocolOf text = TransferProtocol.oem := by
  have hnone : protocolDict.find? (fun entry => entry.1 <+: text) = none := by
    rw [List.find?_eq_none]
    intro entry hentry hprefix
    apply (names_apart).protocols entry hentry
    rw [← hclean]
    exact (of_decide_eq_true hprefix).filter _
  rw [transferProtocolOf]
  split
  · rw [hnone]
  · rfl

end

section

variable {deviceType : Int32} {newURL oldURL newName oldName : Field}

/-- A field that is a text if it is anything. -/
def IsText (field : Field) : Prop :=
  ∀ value, field = some value → ∃ text, value = .string text

/-- A text is null where it is not there. -/
theorem isNull_eq_isNone (htext : IsText newURL) : newURL.isNull = newURL.isNone := by
  cases newURL with
  | none => rfl
  | some value =>
      obtain ⟨text, rfl⟩ := htext value rfl
      rfl

/-- A proxy has erased the old address. -/
theorem proxy_agree_iff :
    Agree DeviceType.proxy (newURL.or (imageURLOf DeviceType.proxy oldURL))
        (newName.or (exportNameOf DeviceType.proxy oldURL oldName))
        (newURL.or oldURL) (newName.or oldName) ↔
      (cleanImageName oldURL.getStringValue ≠ fieldValueNotAvailable → newURL.isSome) := by
  have hkinds : DeviceType.proxy ≠ DeviceType.legacy := by decide
  cases newURL with
  | some value =>
      simp only [Option.some_or, Option.isSome_some, implies_true, iff_true]
      exact ⟨by simp [exportNameOf, hkinds], rfl, rfl⟩
  | none =>
      have herased : Field.getStringValue (imageURLOf DeviceType.proxy oldURL) =
          fieldValueNotAvailable := by
        rw [imageURLOf, if_pos rfl]
        cases oldURL with
        | none => rfl
        | some value => rfl
      have hcleanNone := (names_apart).cleanNotAvailable
      simp only [Option.none_or, Option.isSome_none, Bool.false_eq_true, imp_false, not_not]
      constructor
      · intro h
        have hname := h.name
        simp only [exportNameOf, if_neg hkinds, if_true, herased, hcleanNone, Option.some.injEq,
          FieldType.string.injEq] at hname
        exact hname.symm
      · intro hclean
        constructor
        · simp [exportNameOf, hkinds, herased, hcleanNone, hclean]
        · simp [imageURLOf, Function.comp_def]
        · rw [herased, transferProtocolOf_of_clean hclean, transferProtocolOf_of_clean hcleanNone]

/-- A legacy slot has written over its name while it had no address. -/
theorem legacy_agree_iff (hnew : IsText newURL) (hold : IsText oldURL) :
    Agree DeviceType.legacy (newURL.or (imageURLOf DeviceType.legacy oldURL))
        (newName.or (exportNameOf DeviceType.legacy oldURL oldName))
        (newURL.or oldURL) (newName.or oldName) ↔
      (oldURL = none → newURL.isSome →
        oldName ≠ some (.string (getNameFromLastSegmentObjectPath fieldValueNotAvailable false)) →
          newName.isSome) := by
  have hkinds : DeviceType.legacy ≠ DeviceType.proxy := by decide
  have hsame : ∀ field : Field, imageURLOf DeviceType.legacy field = field :=
    fun field => if_neg hkinds
  have hname : ∀ url name : Field, IsText url → exportNameOf DeviceType.legacy url name =
      if url = none then
        some (.string (getNameFromLastSegmentObjectPath fieldValueNotAvailable false))
      else name := by
    intro url name htext
    simp only [exportNameOf, if_true, isNull_eq_isNone htext, Option.isNone_iff_eq_none]
  have hcurrent : IsText (newURL.or oldURL) := by
    cases newURL with
    | none => exact hold
    | some value => exact hnew
  have hagree : Agree DeviceType.legacy (newURL.or (imageURLOf DeviceType.legacy oldURL))
        (newName.or (exportNameOf DeviceType.legacy oldURL oldName))
        (newURL.or oldURL) (newName.or oldName) ↔
      exportNameOf DeviceType.legacy (newURL.or oldURL)
          (newName.or (exportNameOf DeviceType.legacy oldURL oldName)) =
        exportNameOf DeviceType.legacy (newURL.or oldURL) (newName.or oldName) := by
    rw [hsame oldURL]
    exact ⟨Agree.name, fun h => ⟨h, rfl, rfl⟩⟩
  rw [hagree, hname _ _ hcurrent, hname _ _ hcurrent, hname _ _ hold]
  cases oldURL with
  | some value => simp
  | none =>
      cases newURL with
      | none => simp
      | some value =>
          cases newName with
          | some name => simp
          | none => simp [eq_comm]

/-- Direct slots and those of no known kind. -/
theorem other_agree (hproxy : deviceType ≠ DeviceType.proxy)
    (hlegacy : deviceType ≠ DeviceType.legacy) :
    Agree deviceType (newURL.or (imageURLOf deviceType oldURL))
      (newName.or (exportNameOf deviceType oldURL oldName)) (newURL.or oldURL)
      (newName.or oldName) := by
  constructor
  · simp [exportNameOf, hproxy, hlegacy]
  · simp [imageURLOf, hproxy]
  · rw [imageURLOf, if_neg hproxy]

end

/-! ## Histories -/

section

variable {object : WatchedObject types} {history : List (PropertyChange types)}
  {following : Following types} {change : PropertyChange types} {self : InstanceData}
  {state : Int32} {property : Bytes}

/-- A property of the mount point as a signal brings it. -/
def broughtBy (object : WatchedObject types) (change : PropertyChange types) (property : Bytes) :
    Field :=
  ((mountPointValues object change).lookup property).map Subtype.val

/-- The three properties are reflected as they stand. -/
theorem plain_reflected (hproperty : property ∈ [fieldDevice, fieldExportName, fieldImageURL]) :
    (vmMountPointIface, plainSetter property) ∈ query.reflections := by
  simp only [List.mem_cons, List.not_mem_nil, or_false] at hproperty
  rcases hproperty with rfl | rfl | rfl
  all_goals simp [EndpointQuery.reflections, query, plainSetter]

/-- The state is reflected. -/
theorem state_reflected : (vmProcessIface, stateSetter) ∈ query.reflections := by
  simp [EndpointQuery.reflections, query, stateSetter]

/-- What is reflected of such a property. -/
theorem reflectedValue_plain (hproperty : property ∈ [fieldDevice, fieldExportName, fieldImageURL])
    {properties : DBusPropertiesMap} : query.reflectedValue properties (plainSetter property) =
      (properties.lookup property).map Subtype.val :=
  reflectedValue_of_formatters query_orderly (plain_reflected hproperty) rfl

/-- The properties are texts. -/
theorem isText_lookup {properties : DBusPropertiesMap} {interface : Bytes}
    (htyped : Typed types interface properties)
    (hproperty : property ∈ [fieldDevice, fieldImageURL]) :
    IsText ((properties.lookup property).map Subtype.val) := by
  intro value hvalue
  obtain ⟨variant, hlookup, rfl⟩ := Option.map_eq_some_iff.mp hvalue
  have htext := (htyped.of_lookup hlookup).1 hproperty
  obtain ⟨alternative, hnull⟩ := variant
  cases alternative with
  | string text => exact ⟨text, rfl⟩
  | _ => simp [DbusVariant.getString] at htext

theorem isText_propertyOf (hproperty : property ∈ [fieldDevice, fieldImageURL]) :
    IsText (propertyOf object property) :=
  isText_lookup (typed_get object vmMountPointIface) hproperty

theorem isText_broughtBy (hproperty : property ∈ [fieldDevice, fieldImageURL]) :
    IsText (broughtBy object change property) := by
  unfold broughtBy mountPointValues
  split
  · next h => exact isText_lookup change.typed hproperty
  · intro value hvalue
    simp at hvalue

/-- A property after a change. -/
theorem propertyOf_changed : propertyOf (object.changed change) property =
    (broughtBy object change property).or (propertyOf object property) := by
  rw [propertyOf, get_changed, List.lookup_append, Option.map_or]
  rfl

/-- The getter takes texts, and fields that were erased. -/
theorem getStringField_of_field {memberName : Bytes}
    (h : ∀ value, self.getField memberName = some value → value = .null ∨
      ∃ text, value = .string text) : self.getStringField memberName =
        .ok (Field.getStringValue (self.getField memberName)) := by
  unfold getField at h ⊢
  rw [getStringField]
  cases hfield : self.memberInstances memberName with
  | none => rfl
  | some value =>
      rcases h value hfield with rfl | ⟨text, rfl⟩
      · rfl
      · rfl

/-- The state that the getter gives while a process is as it is. -/
def StateOf (object : WatchedObject types) (state : Int32) : Prop :=
  ∀ self : InstanceData, self.memberInstances fieldState =
      query.reflectedValue (object.get vmProcessIface) stateSetter →
    self.getEnumField fieldState State.standbyOffline = .ok state

/-- Every object has a state. -/
theorem exists_state (object : WatchedObject types) : ∃ state, StateOf object state := by
  cases hlookup : (object.get vmProcessIface).lookup fieldActive with
  | none =>
      refine ⟨State.standbyOffline, fun self hself => ?_⟩
      have hnone : query.reflectedValue (object.get vmProcessIface) stateSetter = none := by
        simp [EndpointQuery.reflectedValue, stateSetter, hlookup]
      rw [getEnumField, hself, hnone]
  | some value =>
      have htyped := (typed_get object vmProcessIface).of_lookup hlookup
      obtain ⟨active, hactive⟩ := Option.isSome_iff_exists.mp (htyped.2.2.2 rfl)
      obtain ⟨number, hnumber⟩ : ∃ number, query.processFormatters
          stateSetter.propertyName value = .ok (.int32 number) := by
        rw [processFormatters_reflection query_orderly state_reflected]
        simp [stateSetter, PropertySetter.ownValue, EndpointQuery.applyFormatters, formatState,
          formatValueFromDict, hactive]
      refine ⟨number, fun self hself => ?_⟩
      have hsome : query.reflectedValue (object.get vmProcessIface) stateSetter =
          some (.int32 number) := by
        unfold stateSetter at hnumber
        simp only [EndpointQuery.reflectedValue, stateSetter, hlookup, hnumber]
        rfl
      rw [getEnumField, hself, hsome]

/-- A slot that was just loaded. -/
theorem load_supplemented (hstate : StateOf object state) :
    Supplemented (deviceTypeOf object.objectPath) state (propertyOf object fieldImageURL)
      (propertyOf object fieldExportName) (query.load object) := by
  have hplain : ∀ property ∈ [fieldDevice, fieldExportName, fieldImageURL],
      (query.loaded object).getField property = propertyOf object property := by
    intro property hproperty
    exact (loaded_member query_orderly query_accepts (plain_reflected hproperty)).trans
      (reflectedValue_plain hproperty)
  have htext : ∀ property ∈ [fieldDevice, fieldImageURL], ∀ value,
      (query.loaded object).getField property = some value → value = .null ∨
        ∃ text, value = .string text := by
    intro property hproperty value hvalue
    rw [hplain property (by simp at hproperty ⊢; tauto)] at hvalue
    exact .inr (isText_propertyOf hproperty value hvalue)
  have hrun := supplemented_of_getters
    (hstate _ (loaded_member query_orderly query_accepts state_reflected))
    (getStringField_of_field (htext fieldImageURL (by simp)))
    (getStringField_of_field (htext fieldDevice (by simp)))
  rw [hplain _ (by simp), hplain _ (by simp), loaded_frame.2] at hrun
  exact hrun.congr (load_eq query_orderly).1

/-- The instance follows its object, and the address of a proxy is erased. -/
structure Tracks (s : Following types) : Prop where
  follows : Follows query s
  state : s.self.memberInstances fieldState =
    query.reflectedValue (s.object.get vmProcessIface) stateSetter
  device : s.self.getField fieldDevice = propertyOf s.object fieldDevice
  imageURL : s.self.getField fieldImageURL =
    imageURLOf (deviceTypeOf s.object.objectPath) (propertyOf s.object fieldImageURL)

/-- A signal supplements what it brings over what was there. -/
theorem Tracks.follow_supplemented (h : Tracks following)
    (hwatched : following.watches change = true)
    (hstate : StateOf (following.object.changed change) state) :
    Supplemented (deviceTypeOf following.object.objectPath) state
      ((broughtBy following.object change fieldImageURL).or
        (imageURLOf (deviceTypeOf following.object.objectPath)
          (propertyOf following.object fieldImageURL)))
      ((broughtBy following.object change fieldExportName).or
        (following.self.getField fieldExportName))
      (query.follow following change).self := by
  let filled := query.filled change.interfaceName change.changedValues following.self
  have hfilled : ∀ property ∈ [fieldDevice, fieldExportName, fieldImageURL],
      filled.getField property = (broughtBy following.object change property).or
        (following.self.getField property) := by
    intro property hproperty
    have haccepted : change.interfaceName = vmMountPointIface → ∀ setter,
        (vmMountPointIface, setter) ∈ query.reflections →
          Accepted query change.changedValues setter := fun heq setter hsetter =>
      accepted_of_typed query_accepts (heq ▸ change.typed) hsetter
    have hmember := filled_reflected query_orderly h.follows.watches (plain_reflected hproperty)
      haccepted
    rw [reflectedValue_plain hproperty] at hmember
    exact hmember
  have hpath : filled.objectPath = following.object.objectPath :=
    filled_frame.2.trans h.follows.objectPath
  have hdevice : ∀ value, filled.getField fieldDevice = some value → value = .null ∨
      ∃ text, value = .string text := by
    intro value hvalue
    rw [hfilled _ (by simp), h.device, Option.or_eq_some_iff] at hvalue
    rcases hvalue with hnew | ⟨-, hold⟩
    · exact .inr (isText_broughtBy (by simp) value hnew)
    · exact .inr (isText_propertyOf (by simp) value hold)
  have hURL : ∀ value, filled.getField fieldImageURL = some value → value = .null ∨
      ∃ text, value = .string text := by
    intro value hvalue
    rw [hfilled _ (by simp), h.imageURL, Option.or_eq_some_iff] at hvalue
    rcases hvalue with hnew | ⟨-, hold⟩
    · exact .inr (isText_broughtBy (by simp) value hnew)
    · unfold imageURLOf at hold
      split at hold
      · obtain ⟨_, -, hnull⟩ := Option.map_eq_some_iff.mp hold
        exact .inl hnull.symm
      · exact .inr (isText_propertyOf (by simp) value hold)
  have hrun := supplemented_of_getters
    (hstate filled (filled_changed query_orderly h.follows query_accepts state_reflected h.state))
    (getStringField_of_field hURL) (getStringField_of_field hdevice)
  rw [hpath, hfilled _ (by simp), hfilled _ (by simp), h.imageURL] at hrun
  rw [follow_self_of_accepts query_orderly h.follows query_accepts hwatched]
  exact hrun

/-- A signal that is not watched changes no property that is read. -/
theorem Tracks.propertyOf_of_not (h : Tracks following)
    (hwatched : following.watches change = false) :
    propertyOf (following.object.changed change) property =
      propertyOf following.object property := by
  rw [propertyOf, propertyOf, get_changed_of_not h.follows
    (plain_reflected (List.mem_cons_self : fieldDevice ∈ _)) hwatched]

/-- Taking the address from the name again changes nothing. -/
theorem imageURLOf_or {deviceType : Int32} {newURL oldURL : Field} :
    imageURLOf deviceType (newURL.or (imageURLOf deviceType oldURL)) =
      imageURLOf deviceType (newURL.or oldURL) := by
  by_cases hproxy : deviceType = DeviceType.proxy
  · cases newURL with
    | none => simp [imageURLOf, hproxy, Function.comp_def]
    | some value => rfl
  · simp [imageURLOf, hproxy]

/-- A new instance is tracked. -/
theorem tracks_load : Tracks { object, self := query.load object } := by
  obtain ⟨state, hstate⟩ := exists_state object
  have hreflected : (vmMountPointIface, plainSetter fieldDevice) ∈ query.reflections :=
    plain_reflected (by simp)
  exact ⟨follows_load query_orderly,
    load_member query_orderly query_accepts state_reflected
      fun _ => writes_supplement.others _ (names_apart).state,
    (load_member query_orderly query_accepts hreflected
      fun _ => writes_supplement.others _ (names_apart).device).trans
        (reflectedValue_plain (by simp)),
    (load_supplemented hstate).imageURL⟩

theorem Tracks.follow (h : Tracks following) : Tracks (query.follow following change) := by
  obtain ⟨state, hstate⟩ := exists_state (following.object.changed change)
  have hreflected : (vmMountPointIface, plainSetter fieldDevice) ∈ query.reflections :=
    plain_reflected (by simp)
  have hdevice := @follow_member types query (plainSetter fieldDevice) vmMountPointIface following
    change query_orderly h.follows query_accepts hreflected
    (fun _ => writes_supplement.others _ (names_apart).device)
    (h.device.trans (reflectedValue_plain (by simp)).symm)
  refine ⟨h.follows.follow query_orderly, follow_member query_orderly h.follows query_accepts
    state_reflected (fun _ => writes_supplement.others _ (names_apart).state) h.state,
    hdevice.trans (reflectedValue_plain (by simp)), ?_⟩
  cases hwatched : following.watches change with
  | false =>
      rw [follow_self_of_not hwatched, EndpointQuery.follow, h.propertyOf_of_not hwatched]
      exact h.imageURL
  | true =>
      rw [(h.follow_supplemented hwatched hstate).imageURL, EndpointQuery.follow,
        propertyOf_changed, imageURLOf_or]
      rfl

theorem tracks_after : Tracks (query.after object history) := by
  induction history using List.reverseRecOn with
  | nil => exact tracks_load
  | append_singleton history change ih =>
      rw [after_snoc]
      exact ih.follow

/-- After a change the derived members are current if and only if it renews them. -/
theorem Tracks.derivedCurrent_follow_iff (h : Tracks following)
    (hcurrent : DerivedCurrent following) :
    DerivedCurrent (query.follow following change) ↔ Renews following change := by
  obtain ⟨state, hstate⟩ := exists_state following.object
  have hfresh := load_supplemented hstate
  cases hwatched : following.watches change with
  | false =>
      have hnone : mountPointValues following.object change = [] := by
        rw [mountPointValues, if_neg]
        rintro ⟨hname, hinterface⟩
        have hmem : change.interfaceName ∈ query.getSearchPropertiesMap.map Prod.fst :=
          hname ▸ List.mem_cons_self
        have hwatches := h.follows.watches_iff.mpr ⟨hmem, hname ▸ hinterface⟩
        simp [hwatched] at hwatches
      constructor
      · intro _
        constructor
        · intro _ hwatches
          simp [hwatched] at hwatches
        · intro _ _ hbrought
          simp [hnone] at hbrought
      · intro _ field hfield
        have hstate' : StateOf (following.object.changed change) state := by
          intro self hself
          rw [get_changed_of_not h.follows state_reflected hwatched] at hself
          exact hstate self hself
        have hnewFresh := load_supplemented hstate'
        rw [h.propertyOf_of_not hwatched, h.propertyOf_of_not hwatched] at hnewFresh
        rw [follow_self_of_not hwatched, hcurrent field hfield]
        exact (supplemented_agree_iff hfresh hnewFresh).mpr ⟨rfl, rfl, rfl⟩ field hfield
  | true =>
      obtain ⟨newState, hnewState⟩ := exists_state (following.object.changed change)
      have hrun := h.follow_supplemented hwatched hnewState
      have hnewFresh := load_supplemented hnewState
      have hkinds : DeviceType.proxy ≠ DeviceType.legacy := by decide
      have hbrought : ∀ property, (broughtBy following.object change property).isSome =
          ((mountPointValues following.object change).lookup property).isSome :=
        fun property => Option.isSome_map
      rw [hcurrent fieldExportName List.mem_cons_self, hfresh.exportName] at hrun
      rw [propertyOf_changed, propertyOf_changed] at hnewFresh
      refine (supplemented_agree_iff hrun hnewFresh).trans ?_
      by_cases hproxy : deviceTypeOf following.object.objectPath = DeviceType.proxy
      · rw [hproxy, proxy_agree_iff, hbrought]
        constructor
        · intro hnew
          exact ⟨fun _ _ => hnew, fun hlegacy => absurd (hproxy.symm.trans hlegacy) hkinds⟩
        · intro hrenews
          exact hrenews.proxy hproxy hwatched
      · by_cases hlegacy : deviceTypeOf following.object.objectPath = DeviceType.legacy
        · rw [hlegacy, legacy_agree_iff (isText_broughtBy (by simp)) (isText_propertyOf (by simp)),
            hbrought, hbrought]
          constructor
          · intro hnew
            exact ⟨fun h => absurd h hproxy, fun _ => hnew⟩
          · intro hrenews
            exact hrenews.legacy hlegacy
        · exact iff_of_true (other_agree hproxy hlegacy)
            ⟨fun h => absurd h hproxy, fun h => absurd h hlegacy⟩

/-- Where they are current, the object has the name of the segment already. -/
theorem namedBySegment_iff {s : Following types} (hcurrent : DerivedCurrent s) :
    NamedBySegment s.object (s.self.getField fieldExportName) ↔
      NamedBySegment s.object (propertyOf s.object fieldExportName) := by
  obtain ⟨state, hstate⟩ := exists_state s.object
  have hname := (hcurrent fieldExportName List.mem_cons_self).trans
    (load_supplemented hstate).exportName
  have hsame : deviceTypeOf s.object.objectPath = DeviceType.legacy → ∀ url,
      propertyOf s.object fieldImageURL = some (.string url) →
        s.self.getField fieldExportName = propertyOf s.object fieldExportName := by
    intro hlegacy url hURL
    rw [hname, hlegacy, hURL]
    rfl
  constructor
  · intro hnamed hlegacy url hURL hne
    rw [← hsame hlegacy url hURL]
    exact hnamed hlegacy url hURL hne
  · intro hnamed hlegacy url hURL hne
    rw [hsame hlegacy url hURL]
    exact hnamed hlegacy url hURL hne

/-- The derived fields follow from the path and the current properties along a history exactly
where every signal brings what was erased, and a legacy slot has the name that its address
ends with exactly where the bus gives it this name. -/
theorem current_always_iff (object : WatchedObject types) (history : List (PropertyChange types)) :
    (∀ before rest, history = before ++ rest →
        DerivedCurrent (query.after object before) ∧
          NamedBySegment (query.after object before).object
            ((query.after object before).self.getField fieldExportName)) ↔
      (∀ before rest, history = before ++ rest →
        NamedBySegment (query.after object before).object
          (propertyOf (query.after object before).object fieldExportName)) ∧
      ∀ before change rest, history = before ++ change :: rest →
        Renews (query.after object before) change := by
  have hderived : (∀ before rest, history = before ++ rest →
        DerivedCurrent (query.after object before)) ↔
      ∀ before change rest, history = before ++ change :: rest →
        Renews (query.after object before) change := by
    apply after_always_iff
    · intro field _
      rfl
    · intro history hcurrent change
      exact tracks_after.derivedCurrent_follow_iff hcurrent
  constructor
  · intro h
    have hcurrent : ∀ before rest, history = before ++ rest →
        DerivedCurrent (query.after object before) := fun before rest hsplit =>
      (h before rest hsplit).1
    exact ⟨fun before rest hsplit => (namedBySegment_iff (hcurrent before rest hsplit)).mp
      (h before rest hsplit).2, hderived.mp hcurrent⟩
  · rintro ⟨hnamed, hrenews⟩ before rest hsplit
    have hcurrent := hderived.mpr hrenews before rest hsplit
    exact ⟨hcurrent, (namedBySegment_iff hcurrent).mpr (hnamed before rest hsplit)⟩

end

/-! ## Two slots with an image -/

/-- A slot with an address and no other property. -/
def slot (objectPath imageURL : Bytes) : WatchedObject types where
  serviceName := service
  objectPath := objectPath
  interfaces := [vmMountPointIface]
  properties := fun _ => [(fieldImageURL, .string imageURL)]
  typed _ := by
    have hothers := (names_apart).typedProperties
    intro property hproperty
    rw [List.mem_singleton] at hproperty
    subst hproperty
    exact ⟨fun _ => rfl, fun h => absurd h hothers.1, fun h => absurd h hothers.2.1,
      fun h => absurd h hothers.2.2⟩

/-- A signal without any value, so that the fields are only supplemented again. -/
def nothingChanges : PropertyChange types where
  interfaceName := vmMountPointIface
  changedValues := []
  typed _ hproperty := absurd hproperty List.not_mem_nil

/-- The second run finds no address in the proxy, and a legacy slot with an address has no
name. -/
theorem address_erased :
    let proxySlot := slot (bytes "/xyz/openbmc_project/VirtualMedia/Proxy/Slot_0")
      (bytes "https://host/image.iso")
    let legacySlot := slot (bytes "/xyz/openbmc_project/VirtualMedia/Legacy/Slot_2")
      (bytes "smb://host/image.iso")
    let again := query.after proxySlot [nothingChanges]
    ((query.load proxySlot).getField fieldTransferProtocol = some (.int32 TransferProtocol.https) ∧
      again.self.getField fieldTransferProtocol = some (.int32 TransferProtocol.oem) ∧
      again.self.getField fieldExportName = some (.string fieldValueNotAvailable) ∧
      (query.load again.object).getField fieldExportName =
        some (.string (bytes "https://host/image.iso"))) ∧
    (query.load legacySlot).getField fieldExportName = none := by
  decide +kernel

end VirtualMedia
end Entity
end ObmcWebapp
