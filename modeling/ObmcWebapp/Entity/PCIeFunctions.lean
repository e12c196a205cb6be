import Mathlib.Data.List.ProdSigma
import ObmcWebapp.Entity.DefaultFields
import ObmcWebapp.Entity.PCIe

/-!
# Entity - The PCIe functions of the cached devices

{lit}`FunctionProxyQuery` makes an instance of each function of a device that has an id.
A device without the member of a function has the id {lit}`N/A` there, and the identity of
an instance is three texts in a row.

Main results:

- Theorem {lit}`PCIe.process_eq`: the instances are those of the emitted pairs.
- Theorem {lit}`PCIe.functionsSound_iff`: which devices have the functions that are made of
  them.
-/

open Library

namespace ObmcWebapp
namespace Entity
namespace PCIe

/-! ## The query -/

/-- The member with the identifier of the device. -/
def fieldDeviceId : Bytes := bytes "DeviceId"

/-- The member with the identifier of the function. -/
def fieldFunctionId : Bytes := bytes "FunctionId"

/-- The member with the number of the function. -/
def fieldFunctionIdNumerical : Bytes := bytes "FunctionIdNumerical"

/-- The members that are copied under their own names. -/
def directlyCopyEntityMembers : List Bytes := [fieldSBD]

/-- The member that says whether there is a function. -/
def identifyField (funcIndex : Nat) : Bytes :=
  getComplexFunctionMemberName funcIndex fieldDeviceId

/-- The text by which a function is told from others. -/
def identity (device : Instance) (funcIndex : Nat) : Bytes :=
  identifyField funcIndex ++ (device.getField (identifyField funcIndex)).getStringValue ++
    (device.getField fieldSBD).getStringValue

/-- The instance of a function. -/
def targetInstance (stdHash : Bytes → UInt64) (device : Instance) (funcIndex : Nat) : Instance :=
  let target : Instance := ⟨stdHash (identity device funcIndex), fun _ => none⟩
  let target := target.supplementOrUpdate fieldFunctionId (.string (decimal funcIndex))
  let target := target.supplementOrUpdate fieldFunctionIdNumerical (.uint8 (.ofNat funcIndex))
  let target := directlyCopyEntityMembers.foldl (fun target directlyCopyMember =>
    target.supplementOrUpdate directlyCopyMember (device.getField directlyCopyMember).getValue)
    target
  getDynamicFields.foldl (fun target dynamicField =>
    target.supplementOrUpdate dynamicField
      (device.getField (getComplexFunctionMemberName funcIndex dynamicField)).getValue) target

/-- {lit}`FunctionProxyQuery::process`, after the provider was populated. -/
def process {ε : Type} (stdHash : Bytes → UInt64) (cached : Cached ε) (provider : ε) :
    Except Exception (List Instance) := do
  let providerInstances ← cached.getInstances provider []
  return providerInstances.flatMap fun providerInstance =>
    (List.range pcieFunctionsCount).filterMap fun funcIndex =>
      if (providerInstance.getField (identifyField funcIndex)).getStringValue.isEmpty then none
      else some (targetInstance stdHash providerInstance funcIndex)

/-! ## What is expected -/

/-- The device has the function: its id is there and not empty. -/
def HasFunction (device : Instance) (funcIndex : Nat) : Prop :=
  ∃ value, device.getField (identifyField funcIndex) = some value ∧ value ≠ .null ∧
    value ≠ .string []

instance (device : Instance) (funcIndex : Nat) : Decidable (HasFunction device funcIndex) :=
  match hfield : device.getField (identifyField funcIndex) with
  | none => .isFalse (by simp [HasFunction, hfield])
  | some value =>
      decidable_of_iff (value ≠ .null ∧ value ≠ .string []) (by simp [HasFunction, hfield])

/-- The instance carries the device's own id and the fields of the function. -/
structure Carries (function : Instance × Nat) (instance_ : Instance) : Prop where
  functionId : instance_.getField fieldFunctionId = some (.string (decimal function.2))
  functionIdNumerical :
    instance_.getField fieldFunctionIdNumerical = some (.uint8 (.ofNat function.2))
  sbd : (instance_.getField fieldSBD).getValue = (function.1.getField fieldSBD).getValue
  dynamicFields : ∀ dynamicField ∈ getDynamicFields,
    (instance_.getField dynamicField).getValue =
      (function.1.getField (getComplexFunctionMemberName function.2 dynamicField)).getValue

/-- The functions that some devices have, in the order of the loops. -/
def functionsOf (has : Instance → Nat → Bool) (devices : List Instance) :
    List (Instance × Nat) :=
  (devices.product (List.range pcieFunctionsCount)).filter fun function =>
    has function.1 function.2

/-- One instance stands for each function that the devices have, and no two have the same
hash. -/
def FunctionsSound {ε : Type} (stdHash : Bytes → UInt64) (cache : Cache ε) (provider : ε) : Prop :=
  ∃ instances, process stdHash cache.toCached provider = .ok instances ∧
    List.Forall₂ Carries
      (functionsOf (fun device funcIndex => HasFunction device funcIndex)
        (cache.instances provider)) instances ∧
    (instances.map Instance.hash).Nodup

/-! ## The instance of one function -/

/-- A copied field has the value of the first. -/
theorem getValue_copied (field : Field) : Field.getValue (some field.getValue) = field.getValue := by
  rcases field with _ | value
  · rfl
  · cases value <;> rfl

section

variable {names : List Bytes} {value : Bytes → FieldType} {target : Instance} {name : Bytes}

/-- Members that are not copied are as they were. -/
theorem getField_foldl_of_not_mem (h : name ∉ names) :
    (names.foldl (fun target name => target.supplementOrUpdate name (value name))
      target).getField name = target.getField name := by
  induction names generalizing target with
  | nil => rfl
  | cons first rest ih =>
      obtain ⟨hfirst, hrest⟩ := not_or.mp (mt List.mem_cons.mpr h)
      rw [List.foldl_cons, ih hrest]
      exact Instance.memberInstances_supplementOrUpdate_ne _ _ hfirst

/-- Members that are copied have the value. -/
theorem getField_foldl_of_mem (h : name ∈ names) :
    (names.foldl (fun target name => target.supplementOrUpdate name (value name))
      target).getField name = some (value name) := by
  induction names generalizing target with
  | nil => exact absurd h List.not_mem_nil
  | cons first rest ih =>
      rw [List.foldl_cons]
      by_cases hrest : name ∈ rest
      · exact ih hrest
      · obtain rfl := (List.mem_cons.mp h).resolve_right hrest
        rw [getField_foldl_of_not_mem hrest]
        exact Instance.memberInstances_supplementOrUpdate ..

end

/-- The names are apart. -/
theorem function_names_apart :
    fieldFunctionId ≠ fieldFunctionIdNumerical ∧
      (∀ name ∈ [fieldFunctionId, fieldFunctionIdNumerical],
        name ∉ directlyCopyEntityMembers ++ getDynamicFields) ∧ fieldSBD ∉ getDynamicFields := by
  decide

/-- The instance carries the fields of its function. -/
theorem targetInstance_carries (stdHash : Bytes → UInt64) (device : Instance) (funcIndex : Nat) :
    Carries (device, funcIndex) (targetInstance stdHash device funcIndex) := by
  obtain ⟨hids, hcopied, hsbd⟩ := function_names_apart
  have hid := hcopied fieldFunctionId List.mem_cons_self
  have hnumerical := hcopied fieldFunctionIdNumerical (List.mem_cons_of_mem _ List.mem_cons_self)
  rw [List.mem_append, not_or] at hid hnumerical
  refine ⟨?_, ?_, ?_, ?_⟩
  · rw [targetInstance, getField_foldl_of_not_mem hid.2, getField_foldl_of_not_mem hid.1]
    exact (Instance.memberInstances_supplementOrUpdate_ne _ _ hids).trans
      (Instance.memberInstances_supplementOrUpdate ..)
  · rw [targetInstance, getField_foldl_of_not_mem hnumerical.2,
      getField_foldl_of_not_mem hnumerical.1]
    exact Instance.memberInstances_supplementOrUpdate ..
  · have hmem : fieldSBD ∈ directlyCopyEntityMembers := List.mem_singleton_self _
    rw [targetInstance, getField_foldl_of_not_mem hsbd, getField_foldl_of_mem hmem,
      getValue_copied]
  · intro dynamicField hmem
    rw [targetInstance, @getField_foldl_of_mem _ (fun name => (device.getField
      (getComplexFunctionMemberName funcIndex name)).getValue) _ _ hmem, getValue_copied]

/-- The hash is that of the identity. -/
theorem hash_targetInstance (stdHash : Bytes → UInt64) (device : Instance) (funcIndex : Nat) :
    (targetInstance stdHash device funcIndex).hash = stdHash (identity device funcIndex) := by
  rfl

/-! ## The emitted functions -/

/-- The loop makes an instance unless the text is empty. -/
def emits (device : Instance) (funcIndex : Nat) : Bool :=
  !(device.getField (identifyField funcIndex)).getStringValue.isEmpty

/-- The functions of the devices in their order. -/
theorem map_functionsOf {β : Type} (has : Instance → Nat → Bool) (f : Instance × Nat → β)
    (devices : List Instance) : (functionsOf has devices).map f =
      devices.flatMap fun device =>
        ((List.range pcieFunctionsCount).filter (has device)).map fun funcIndex =>
          f (device, funcIndex) := by
  simp only [functionsOf, List.product, List.filter_flatMap, List.filter_map, List.map_flatMap,
    List.map_map, Function.comp_def]

/-- The instances are those of the emitted functions. -/
theorem process_eq {ε : Type} (stdHash : Bytes → UInt64) (cache : Cache ε) (provider : ε) :
    process stdHash cache.toCached provider =
      .ok ((functionsOf emits (cache.instances provider)).map fun function =>
        targetInstance stdHash function.1 function.2) := by
  unfold process
  rw [Cache.getInstances_nil, map_functionsOf]
  refine congrArg Except.ok (List.flatMap_congr fun device _ => ?_)
  induction List.range pcieFunctionsCount with
  | nil => rfl
  | cons funcIndex rest ih =>
      rw [List.filterMap_cons, List.filter_cons, ih]
      unfold emits
      cases (device.getField (identifyField funcIndex)).getStringValue.isEmpty <;> rfl

/-- The text of a field is empty where it is the empty text. -/
theorem getStringValue_eq_nil_iff (field : Field) :
    field.getStringValue = [] ↔ field = some (.string []) := by
  have hplaceholder : fieldValueNotAvailable ≠ [] := by decide
  rcases field with _ | value
  · exact iff_of_false hplaceholder (by simp)
  · cases value with
    | string text => simp [Field.getStringValue, Field.getValue]
    | _ => exact iff_of_false hplaceholder (by simp)

/-- An emitted function that the device does not have has no id at all. -/
theorem emits_iff (device : Instance) (funcIndex : Nat) :
    emits device funcIndex = true ↔
      HasFunction device funcIndex ∨ (device.getField (identifyField funcIndex)).isNull = true := by
  have hemits : emits device funcIndex = true ↔
      device.getField (identifyField funcIndex) ≠ some (.string []) := by
    rw [ne_eq, ← getStringValue_eq_nil_iff]
    simp [emits]
  rw [hemits]
  unfold HasFunction
  rcases device.getField (identifyField funcIndex) with _ | value
  · simp [Field.isNull]
  · cases value <;> simp [Field.isNull]

/-- The texts of an identity after the index. -/
def identityText (device : Instance) (funcIndex : Nat) : Bytes :=
  (device.getField (identifyField funcIndex)).getStringValue ++
    (device.getField fieldSBD).getStringValue

/-- Two functions have the same identity where device and number are the same. -/
theorem identity_eq_iff {first second : Instance} {funcIndex other : Nat}
    (hindex : funcIndex < pcieFunctionsCount) (hother : other < pcieFunctionsCount) :
    identity first funcIndex = identity second other ↔
      funcIndex = other ∧ identityText first funcIndex = identityText second other := by
  have hmember (device : Instance) (index : Nat) : identity device index =
      getComplexFunctionMemberName index (fieldDeviceId ++ identityText device index) := by
    simp only [identity, identifyField, identityText, getComplexFunctionMemberName,
      List.append_assoc]
  rw [hmember, hmember]
  constructor
  · intro heq
    obtain ⟨rfl, htext⟩ := functionMemberName_inj hindex hother heq
    exact ⟨rfl, List.append_cancel_left htext⟩
  · rintro ⟨rfl, htext⟩
    rw [htext]

/-- Two devices are told apart at each index where both have a function. -/
def ToldApart (has : Instance → Nat → Bool) (first second : Instance) : Prop :=
  ∀ funcIndex < pcieFunctionsCount, has first funcIndex = true → has second funcIndex = true →
    identityText first funcIndex ≠ identityText second funcIndex

/-- The identities of some functions. -/
def identities (has : Instance → Nat → Bool) (devices : List Instance) : List Bytes :=
  (functionsOf has devices).map fun function => identity function.1 function.2

/-- Identities differ if and only if the functions can be told apart. -/
theorem nodup_identities_iff (has : Instance → Nat → Bool) (devices : List Instance) :
    (identities has devices).Nodup ↔ devices.Pairwise (ToldApart has) := by
  have hown : ∀ device ∈ devices, (((List.range pcieFunctionsCount).filter (has device)).map
      (identity device)).Nodup := by
    intro device _
    apply List.Nodup.map_on _ (List.nodup_range.filter _)
    intro funcIndex hindex other hother heq
    simp only [List.mem_filter, List.mem_range] at hindex hother
    exact ((identity_eq_iff hindex.1 hother.1).mp heq).1
  rw [identities, map_functionsOf, List.nodup_flatMap, and_iff_right hown]
  apply iff_of_eq
  congr 1
  funext first second
  apply propext
  simp only [Function.onFun, List.Disjoint, List.mem_map, List.mem_filter, List.mem_range]
  constructor
  · intro hdisjoint funcIndex hindex hfirst hsecond htext
    exact hdisjoint ⟨funcIndex, ⟨hindex, hfirst⟩, rfl⟩ ⟨funcIndex, ⟨hindex, hsecond⟩,
      ((identity_eq_iff hindex hindex).mpr ⟨rfl, htext⟩).symm⟩
  · rintro hapart _ ⟨funcIndex, ⟨hindex, hfirst⟩, rfl⟩ ⟨other, ⟨hother, hsecond⟩, heq⟩
    obtain ⟨rfl, htext⟩ := (identity_eq_iff hother hindex).mp heq
    exact hapart _ hindex hfirst hsecond htext.symm

/-! ## When the functions are those of the devices -/

/-- No two of these texts have the same hash. -/
def CollisionFree (stdHash : Bytes → UInt64) (texts : List Bytes) : Prop :=
  ∀ first ∈ texts, ∀ second ∈ texts, stdHash first = stdHash second → first = second

theorem nodup_hashes_iff {stdHash : Bytes → UInt64} {devices : List Instance}
    (hhash : CollisionFree stdHash (identities emits devices)) :
    (((functionsOf emits devices).map fun function =>
      targetInstance stdHash function.1 function.2).map Instance.hash).Nodup ↔
        devices.Pairwise (ToldApart emits) := by
  have hhashes : ((functionsOf emits devices).map fun function =>
      targetInstance stdHash function.1 function.2).map Instance.hash =
        (identities emits devices).map stdHash := by
    rw [identities, List.map_map, List.map_map]
    exact List.map_congr_left fun function _ => hash_targetInstance stdHash _ _
  rw [hhashes, ← nodup_identities_iff]
  exact ⟨List.Nodup.of_map _, List.Nodup.map_on hhash⟩

/-- The functions of the devices as the decision that the loop should take. -/
abbrev has (device : Instance) (funcIndex : Nat) : Bool := HasFunction device funcIndex

/-- The functions that are decided on. -/
theorem mem_functionsOf {decision : Instance → Nat → Bool} {devices : List Instance}
    {device : Instance} {funcIndex : Nat} :
    (device, funcIndex) ∈ functionsOf decision devices ↔
      (device ∈ devices ∧ funcIndex < pcieFunctionsCount) ∧ decision device funcIndex = true := by
  rw [functionsOf, List.mem_filter]
  exact and_congr_left' (List.mem_product.trans (and_congr_right' List.mem_range))

/-- Functions that are there are emitted. -/
theorem functionsOf_has_sublist (devices : List Instance) :
    (functionsOf has devices).Sublist (functionsOf emits devices) := by
  apply List.monotone_filter_right
  intro function hfunction
  exact (emits_iff _ _).mpr (.inl (of_decide_eq_true hfunction))

/-- Every device holds the id of each function, be it empty. -/
def IdsPresent (devices : List Instance) : Prop :=
  ∀ device ∈ devices, ∀ funcIndex < pcieFunctionsCount,
    ¬ (device.getField (identifyField funcIndex)).isNull = true

/-- No others are if and only if each device names its functions. -/
theorem functionsOf_emits_eq_iff (devices : List Instance) :
    functionsOf emits devices = functionsOf has devices ↔ IdsPresent devices := by
  constructor
  · intro heq device hdevice funcIndex hindex hnull
    have hemitted : (device, funcIndex) ∈ functionsOf emits devices :=
      mem_functionsOf.mpr ⟨⟨hdevice, hindex⟩, (emits_iff _ _).mpr (.inr hnull)⟩
    rw [heq] at hemitted
    obtain ⟨value, hfield, hne, -⟩ := of_decide_eq_true (mem_functionsOf.mp hemitted).2
    rw [hfield] at hnull
    cases value <;> first | exact absurd rfl hne | cases hnull
  · intro hpresent
    apply List.filter_congr
    rintro ⟨device, funcIndex⟩ hmem
    obtain ⟨hdevice, hindex⟩ := List.mem_product.mp hmem
    have hnot := hpresent device hdevice funcIndex (List.mem_range.mp hindex)
    rw [Bool.eq_iff_iff, emits_iff, or_iff_left hnot, decide_eq_true_iff]

/-- Where they are named, both mean the same. -/
theorem toldApart_congr {devices : List Instance} (hpresent : IdsPresent devices) :
    devices.Pairwise (ToldApart emits) ↔ devices.Pairwise (ToldApart has) := by
  rw [← nodup_identities_iff, ← nodup_identities_iff, identities, identities,
    (functionsOf_emits_eq_iff devices).mpr hpresent]

/-- As many instances as functions: each that is emitted is one. -/
theorem idsPresent_of_functionsSound {ε : Type} {stdHash : Bytes → UInt64} {cache : Cache ε}
    {provider : ε} (h : FunctionsSound stdHash cache provider) :
    IdsPresent (cache.instances provider) := by
  obtain ⟨instances, hinstances, hcarries, -⟩ := h
  cases (process_eq stdHash cache provider).symm.trans hinstances
  have hlength := hcarries.length_eq
  rw [List.length_map] at hlength
  have heq := (functionsOf_has_sublist (cache.instances provider)).eq_of_length hlength
  exact (functionsOf_emits_eq_iff _).mp heq.symm

/-- The functions are those of the devices exactly if every device holds the ids of all
its functions, and the texts of no two devices with a function of one index run together
into the same. -/
theorem functionsSound_iff {ε : Type} (stdHash : Bytes → UInt64) (cache : Cache ε) (provider : ε)
    (hhash : CollisionFree stdHash (identities emits (cache.instances provider))) :
    FunctionsSound stdHash cache provider ↔
      IdsPresent (cache.instances provider) ∧
        (cache.instances provider).Pairwise (ToldApart has) := by
  have hprocess := process_eq stdHash cache provider
  have hnodup := nodup_hashes_iff hhash
  constructor
  · intro h
    have hpresent := idsPresent_of_functionsSound h
    obtain ⟨instances, hinstances, -, hhashes⟩ := h
    cases hprocess.symm.trans hinstances
    exact ⟨hpresent, (toldApart_congr hpresent).mp (hnodup.mp hhashes)⟩
  · rintro ⟨hpresent, hapart⟩
    refine ⟨_, hprocess, ?_, hnodup.mpr ((toldApart_congr hpresent).mpr hapart)⟩
    rw [(functionsOf_emits_eq_iff _).mpr hpresent, List.forall₂_map_right_iff]
    exact List.forall₂_same.mpr fun function _ =>
      targetInstance_carries stdHash function.1 function.2

/-! ## Two devices with one function each -/

/-- A device at a place, with the id of its first function and with others for the rest. -/
def singleFunction (hash : UInt64) (place : Bytes) (otherId : Option FieldType) : Instance where
  hash := hash
  memberInstances memberName :=
    if memberName = identifyField 0 then some (.string (bytes "0x1234"))
    else if memberName = fieldSBD then some (.string place)
    else otherId

/-- Two devices of one kind. -/
def pairCache (otherId : Option FieldType) : Cache Unit where
  instances _ :=
    [singleFunction 1 (bytes "S0B1D0") otherId, singleFunction 2 (bytes "S0B2D0") otherId]
  initDefaultFieldsValue _ object := .ok object
  verifyState _ object := .ok object
  providers _ := []
  ordered _ := List.pairwise_pair.mpr (show (1 : UInt64) < 2 by decide)
  settled _ _ _ := rfl

/-- The devices of the cache. -/
theorem mem_pairCache {otherId : Option FieldType} {device : Instance}
    (hdevice : device ∈ (pairCache otherId).instances ()) :
    ∃ hash place, device = singleFunction hash place otherId := by
  simp only [pairCache, List.mem_cons, List.not_mem_nil, or_false] at hdevice
  rcases hdevice with rfl | rfl
  · exact ⟨_, _, rfl⟩
  · exact ⟨_, _, rfl⟩

/-- The text as a number in base 31, for a hash. -/
def baseHash (text : Bytes) : UInt64 :=
  text.foldl (fun number byte => 31 * number + byte.toUInt64) 0

/-- The hashes differ as the identities do. -/
theorem pairCache_collisionFree : ∀ otherId ∈ [none, some (.string [])],
    CollisionFree baseHash (identities emits ((pairCache otherId).instances ())) := by
  unfold CollisionFree
  decide +kernel

/-- With empty ids for the rest each has one function. -/
theorem pairCache_functionsSound :
    FunctionsSound baseHash (pairCache (some (.string []))) () := by
  apply (functionsSound_iff baseHash (pairCache (some (.string []))) ()
    (pairCache_collisionFree _ (by simp))).mpr
  constructor
  · intro device hdevice funcIndex _
    obtain ⟨hash, place, rfl⟩ := mem_pairCache hdevice
    simp only [Instance.getField, singleFunction]
    split_ifs <;> simp [Field.isNull]
  · rw [pairCache, List.pairwise_pair]
    unfold ToldApart
    decide +kernel

/-- Without ids for the rest they get functions that they do not have. -/
theorem pairCache_not_functionsSound :
    ¬ ∀ (stdHash : Bytes → UInt64) (cache : Cache Unit),
      CollisionFree stdHash (identities emits (cache.instances ())) →
        FunctionsSound stdHash cache () := by
  intro h
  have hsound := h baseHash (pairCache none) (pairCache_collisionFree _ (by simp))
  exact idsPresent_of_functionsSound hsound _ List.mem_cons_self 1 (by decide) (by decide)

end PCIe
end Entity
end ObmcWebapp
