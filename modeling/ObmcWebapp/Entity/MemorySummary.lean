import Mathlib.Algebra.BigOperators.Group.List.Basic
import Mathlib.Algebra.GroupWithZero.Nat
import ObmcWebapp.Entity.DefaultFields
import ObmcWebapp.Entity.Formatters

/-!
# Entity - The summary of the memory

A memory module's size comes from the bus in KiB, is stored in MiB by a formatter that
keeps the type of the number, and is read again as a 32-bit number by the summary, which
rounds each module down to GiB before it adds.

Main results:

- Theorem {lit}`MemorySummary.foldlM_addModule`: what the loop makes of the modules.
- Theorem {lit}`MemorySummary.summarised_iff`: which modules the summary is right for.
-/

open Library

namespace ObmcWebapp
namespace Entity

open StatusProvider

/-! ## The modules -/

namespace DimmSMBiosProvider

/-- The member with the size of a module. -/
def fieldMemorySizeInMiB : Bytes := bytes "MemorySizeInMiB"

/-- The member with the state of a module. -/
def fieldState : Bytes := bytes "State"

/-- The enumeration {lit}`State`. -/
inductive State
  | enabled
  | absent
deriving DecidableEq

/-- The number of a state. -/
def State.number : State → Int32
  | .enabled => 0
  | .absent => 1

/-- {lit}`FormatKiBtoMiB` -/
def formatKiBtoMiB : Formatter := fun _ value =>
  match value.val with
  | .uint64 kib => .ok (.uint64 (kib >>> 10))
  | .uint32 kib => .ok (.uint32 (kib >>> 10))
  | _ => .ok (.int32 0)

/-- The getter of an {lit}`uint32_t`. -/
def getFieldMemorySizeInMiB (instance_ : Instance) : Except Exception UInt32 :=
  let field := instance_.getField fieldMemorySizeInMiB
  if field.isNull then .ok 0
  else match field.getValue with
    | .uint32 value => .ok value
    | _ => .error .badVariantAccess

/-- A module as the provider has stored it; its size is what the bus gave, none where it
gave none. -/
structure Dimm where
  hash : UInt64
  memorySizeInKB : Option DbusVariant
  state : State
  status : Int32
  statusRollup : Int32
  others : Bytes → Option FieldType

namespace Dimm

/-- The members of a module. -/
def memberInstances (dimm : Dimm) (memberName : Bytes) : Option FieldType :=
  if memberName = fieldMemorySizeInMiB then
    dimm.memorySizeInKB.bind fun value =>
      (formatKiBtoMiB fieldMemorySizeInMiB value).toOption.map Subtype.val
  else if memberName = fieldState then some (.int32 dimm.state.number)
  else if memberName = fieldStatus then some (.int32 dimm.status)
  else if memberName = fieldStatusRollup then some (.int32 dimm.statusRollup)
  else dimm.others memberName

/-- The instance of a module. -/
def toInstance (dimm : Dimm) : Instance :=
  ⟨dimm.hash, dimm.memberInstances⟩

end Dimm

/-- The cache of the provider: one module for each hash. -/
structure DimmCache where
  dimms : List Dimm
  ordered : dimms.Pairwise fun a b => a.hash < b.hash

/-- The query has no default fields, and the objects are initialised. -/
def DimmCache.toCache (cache : DimmCache) : Cache Unit where
  instances _ := cache.dimms.map Dimm.toInstance
  initDefaultFieldsValue _ object := .ok object
  verifyState _ object := .ok object
  providers _ := []
  ordered _ := List.pairwise_map.mpr cache.ordered
  settled _ _ _ := rfl

/-- The modules that are enabled. -/
def DimmCache.enabled (cache : DimmCache) : List Dimm :=
  cache.dimms.filter fun dimm => dimm.state = .enabled

end DimmSMBiosProvider

open DimmSMBiosProvider

/-! ## The query -/

namespace MemorySummary

/-- The member with the sum. -/
def fieldTotalSize : Bytes := bytes "TotalSize"

/-- The text that is hashed for the summary. -/
def instanceId : Bytes := bytes "MemroySummaryInstance"

/-- The variables of the loop. -/
structure Totals where
  totalCapacity : UInt32
  status : Int32
  statusRollup : Int32

/-- A module is added to the totals. -/
def addModule (totals : Totals) (instance_ : Instance) : Except Exception Totals := do
  let status := getHigherStatus totals.status (← getFieldStatus instance_)
  let statusRollup := getHigherStatus totals.statusRollup (← getFieldStatusRollup instance_)
  let size ← getFieldMemorySizeInMiB instance_
  return ⟨totals.totalCapacity + (size >>> 10), status, statusRollup⟩

/-- {lit}`SMBiosProxyQuery::process`, after the provider was populated. -/
def process {ε : Type} (stdHash : Bytes → UInt64) (cached : Cached ε) (provider : ε) :
    Except Exception (List Instance) := do
  let condition := Condition.buildEqual fieldState (.int32 State.enabled.number)
  let memoryInstances ← cached.getInstances provider [condition]
  let totals ← memoryInstances.foldlM addModule ⟨0, ok, ok⟩
  let targetInstance : Instance := ⟨stdHash instanceId, fun _ => none⟩
  let targetInstance := targetInstance.supplementOrUpdate fieldTotalSize
    (.uint32 totals.totalCapacity)
  let targetInstance := targetInstance.supplementOrUpdate fieldStatus (.int32 totals.status)
  let targetInstance := targetInstance.supplementOrUpdate fieldStatusRollup
    (.int32 totals.statusRollup)
  return [targetInstance.supplementOrUpdate fieldState (.int32 State.enabled.number)]

/-! ## What is expected -/

/-- The size of a module in whole MiB. -/
def mib (dimm : Dimm) : Nat :=
  match dimm.memorySizeInKB.map Subtype.val with
  | some (.uint64 kib) => kib.toNat / 1024
  | some (.uint32 kib) => kib.toNat / 1024
  | _ => 0

/-- The query returns one instance, with the GiB of all enabled modules and with the
highest of their statuses. -/
def Summarised (stdHash : Bytes → UInt64) (cache : DimmCache) : Prop :=
  ∃ summary, process stdHash cache.toCache.toCached () = .ok [summary] ∧
    (∃ total : UInt32, summary.getField fieldTotalSize = some (.uint32 total) ∧
      total.toNat = (cache.enabled.map mib).sum / 1024) ∧
    ∃ status, summary.getField fieldStatus = some (.int32 status) ∧
      IsGreatest (insert ok {severity | ∃ dimm ∈ cache.enabled, severity = dimm.status}) status

/-! ## The fields of a module -/

/-- The names are apart. -/
theorem names_apart :
    fieldState ≠ fieldMemorySizeInMiB ∧
      (fieldStatus ≠ fieldMemorySizeInMiB ∧ fieldStatus ≠ fieldState) ∧
      (fieldStatusRollup ≠ fieldMemorySizeInMiB ∧ fieldStatusRollup ≠ fieldState ∧
        fieldStatusRollup ≠ fieldStatus) ∧
      fieldTotalSize ≠ fieldStatus ∧ fieldTotalSize ≠ fieldStatusRollup ∧
        fieldTotalSize ≠ fieldState ∧ fieldState ≠ dummyField := by
  decide

/-- The fields of a module. -/
theorem getField_dimm (dimm : Dimm) :
    dimm.toInstance.getField fieldMemorySizeInMiB =
        dimm.memorySizeInKB.bind (fun value =>
          (formatKiBtoMiB fieldMemorySizeInMiB value).toOption.map Subtype.val) ∧
      dimm.toInstance.getField fieldState = some (.int32 dimm.state.number) ∧
      dimm.toInstance.getField fieldStatus = some (.int32 dimm.status) ∧
      dimm.toInstance.getField fieldStatusRollup = some (.int32 dimm.statusRollup) := by
  obtain ⟨hstate, hstatus, hrollup, -⟩ := names_apart
  simp only [Instance.getField, Dimm.toInstance, Dimm.memberInstances]
  simp [hstate, hstatus, hrollup]

/-- The getter finds the status of a module. -/
theorem getFieldStatus_dimm (dimm : Dimm) : getFieldStatus dimm.toInstance = .ok dimm.status := by
  rw [getFieldStatus, getFieldEnum, (getField_dimm dimm).2.2.1]
  rfl

/-- The getter finds the rollup of a module. -/
theorem getFieldStatusRollup_dimm (dimm : Dimm) :
    getFieldStatusRollup dimm.toInstance = .ok dimm.statusRollup := by
  rw [getFieldStatusRollup, getFieldEnum, (getField_dimm dimm).2.2.2]
  rfl

/-- The sizes that the getter can read. -/
def Readable (dimm : Dimm) : Prop :=
  ∀ value ∈ dimm.memorySizeInKB, ∃ kib, value = .uint32 kib

/-- The getter returns the size of a readable module, and raises at every other. -/
theorem getFieldMemorySizeInMiB_dimm (dimm : Dimm) :
    (Readable dimm ∧ ∃ size, getFieldMemorySizeInMiB dimm.toInstance = .ok size ∧
      size.toNat = mib dimm) ∨
    (¬ Readable dimm ∧
      getFieldMemorySizeInMiB dimm.toInstance = .error .badVariantAccess) := by
  have hfield := (getField_dimm dimm).1
  cases hsize : dimm.memorySizeInKB with
  | none =>
      refine .inl ⟨fun value hvalue => ?_, 0, ?_, ?_⟩
      · rw [hsize] at hvalue
        cases hvalue
      · rw [getFieldMemorySizeInMiB, hfield, hsize]
        rfl
      · rw [mib, hsize]
        rfl
  | some value =>
      obtain ⟨value, hnull⟩ := value
      have hkib : Readable dimm ↔ ∃ kib, value = .uint32 kib := by
        simp [Readable, hsize, DbusVariant.uint32]
      rw [hkib]
      cases value with
      | null => exact absurd rfl hnull
      | uint32 kib =>
          refine .inl ⟨⟨kib, rfl⟩, kib >>> 10, ?_, ?_⟩
          · rw [getFieldMemorySizeInMiB, hfield, hsize]
            rfl
          · rw [mib, hsize, UInt32.toNat_shiftRight]
            exact Nat.shiftRight_eq_div_pow _ _
      | _ =>
          -- the number keeps its type, and any other value becomes an {lit}`int`
          refine .inr ⟨by simp, ?_⟩
          rw [getFieldMemorySizeInMiB, hfield, hsize]
          rfl

/-- The condition asks for enabled modules. -/
theorem enabled_check (dimm : Dimm) :
    checkConditions [Condition.buildEqual fieldState (.int32 State.enabled.number)]
      dimm.toInstance = .ok (decide (dimm.state = .enabled)) := by
  have hdummy : fieldState ≠ dummyField := names_apart.2.2.2.2.2.2
  simp only [checkConditions, Condition.buildEqual, Condition.ofRule, Condition.check,
    List.foldlM_cons, List.foldlM_nil, if_neg hdummy, equal, (getField_dimm dimm).2.1]
  cases hstate : dimm.state with
  | enabled => rfl
  | absent => rfl

/-- The provider gives the modules that are enabled. -/
theorem getInstances_enabled (cache : DimmCache) :
    cache.toCache.getInstances ()
        [Condition.buildEqual fieldState (.int32 State.enabled.number)] =
      .ok (cache.enabled.map Dimm.toInstance) := by
  apply Cache.getInstances_ok_iff.mpr
  constructor
  · intro object hobject
    obtain ⟨dimm, -, rfl⟩ := List.mem_map.mp hobject
    exact ⟨_, enabled_check dimm⟩
  · show _ = (cache.dimms.map Dimm.toInstance).filter _
    rw [List.filter_map]
    congr 1
    apply List.filter_congr
    intro dimm _
    simp [enabled_check]

/-! ## The loop -/

/-- A module adds its size, its status and its rollup. -/
theorem addModule_dimm (totals : Totals) (dimm : Dimm) :
    addModule totals dimm.toInstance =
      (getFieldMemorySizeInMiB dimm.toInstance).map fun size =>
        ⟨totals.totalCapacity + (size >>> 10), getHigherStatus totals.status dimm.status,
          getHigherStatus totals.statusRollup dimm.statusRollup⟩ := by
  unfold addModule
  rw [getFieldStatus_dimm, getFieldStatusRollup_dimm]
  cases getFieldMemorySizeInMiB dimm.toInstance <;> rfl

/-- The loop ends normally for readable modules, adds what is left of each of them in GiB,
wrapping around, and keeps the highest status. -/
theorem foldlM_addModule {dimms : List Dimm} (hreadable : ∀ dimm ∈ dimms, Readable dimm)
    (start : Totals) :
    ∃ totals, (dimms.map Dimm.toInstance).foldlM addModule start = .ok totals ∧
      totals.totalCapacity.toNat =
        (start.totalCapacity.toNat + (dimms.map fun dimm => mib dimm / 1024).sum) % 2 ^ 32 ∧
      IsGreatest (insert start.status {severity | ∃ dimm ∈ dimms, severity = dimm.status})
        totals.status := by
  induction dimms generalizing start with
  | nil =>
      refine ⟨start, rfl, ?_, ?_⟩
      · have hbound := start.totalCapacity.toNat_lt
        simp [Nat.mod_eq_of_lt hbound]
      · simp [IsGreatest, upperBounds, Std.le_refl]
  | cons dimm rest ih =>
      obtain ⟨hdimm, hrest⟩ := List.forall_mem_cons.mp hreadable
      obtain ⟨-, size, hsize, hmib⟩ | ⟨hnot, -⟩ := getFieldMemorySizeInMiB_dimm dimm
      · obtain ⟨totals, hloop, htotal, hstatus⟩ := ih hrest ⟨start.totalCapacity + (size >>> 10),
          getHigherStatus start.status dimm.status,
          getHigherStatus start.statusRollup dimm.statusRollup⟩
        refine ⟨totals, ?_, ?_, ?_⟩
        · rw [List.map_cons, List.foldlM_cons, addModule_dimm, hsize]
          exact hloop
        · have hshift : (size >>> 10).toNat = mib dimm / 1024 := by
            rw [UInt32.toNat_shiftRight, hmib]
            exact Nat.shiftRight_eq_div_pow _ _
          rw [htotal, UInt32.toNat_add, hshift, List.map_cons, List.sum_cons]
          omega
        · have hfirst : IsGreatest (insert start.status {dimm.status})
              (getHigherStatus start.status dimm.status) := by
            rw [Set.pair_comm]
            exact StatusRollup.getHigherStatus_greatest _ _
          have hall := isGreatest_insert_union hfirst hstatus
          convert hall using 2
          ext severity
          simp [or_and_right, exists_or]
      · exact absurd hdimm hnot

/-- A module is added if and only if its size can be read. -/
theorem addModule_returns_iff (totals : Totals) (dimm : Dimm) :
    (∃ t, addModule totals dimm.toInstance = .ok t) ↔ Readable dimm := by
  rw [addModule_dimm]
  obtain ⟨hreadable, size, hsize, -⟩ | ⟨hnot, hraised⟩ := getFieldMemorySizeInMiB_dimm dimm
  · rw [hsize]
    exact iff_of_true ⟨_, rfl⟩ hreadable
  · rw [hraised]
    exact iff_of_false (by rintro ⟨t, ht⟩; cases ht) hnot

/-- Modules are added if and only if all sizes can be read. -/
theorem foldlM_addModule_returns_iff (dimms : List Dimm) (start : Totals) :
    (∃ t, (dimms.map Dimm.toInstance).foldlM addModule start = .ok t) ↔
      ∀ dimm ∈ dimms, Readable dimm := by
  rw [List.foldlM_map]
  exact foldlM_returns_iff addModule_returns_iff

/-- What is lost when each size is rounded down for itself. -/
theorem sum_mib (dimms : List Dimm) :
    (dimms.map mib).sum = 1024 * (dimms.map fun dimm => mib dimm / 1024).sum +
      (dimms.map fun dimm => mib dimm % 1024).sum := by
  induction dimms with
  | nil => rfl
  | cons dimm rest ih =>
      simp only [List.map_cons, List.sum_cons, ih]
      omega

/-- A sum of parts that wraps around is the rounded sum exactly if it does not, and if
what is rounded off makes no whole. -/
theorem mod_eq_div_iff {whole rest total : Nat} (htotal : total = 1024 * whole + rest) :
    whole % 2 ^ 32 = total / 1024 ↔ rest < 1024 ∧ whole < 2 ^ 32 := by
  omega

/-- The summary of some totals. -/
def summaryOf (stdHash : Bytes → UInt64) (totals : Totals) : Instance :=
  (((Instance.supplementOrUpdate ⟨stdHash instanceId, fun _ => none⟩ fieldTotalSize
    (.uint32 totals.totalCapacity)).supplementOrUpdate fieldStatus
      (.int32 totals.status)).supplementOrUpdate fieldStatusRollup
        (.int32 totals.statusRollup)).supplementOrUpdate fieldState
          (.int32 State.enabled.number)

/-- The query returns one summary, or raises. -/
theorem process_eq (stdHash : Bytes → UInt64) (cache : DimmCache) :
    process stdHash cache.toCache.toCached () =
      ((cache.enabled.map Dimm.toInstance).foldlM addModule ⟨0, ok, ok⟩).map fun totals =>
        [summaryOf stdHash totals] := by
  unfold process
  dsimp only
  rw [getInstances_enabled]
  dsimp only [bind, Except.bind]
  cases (cache.enabled.map Dimm.toInstance).foldlM addModule ⟨0, ok, ok⟩ <;> rfl

/-- The fields of the summary. -/
theorem getField_summaryOf (stdHash : Bytes → UInt64) (totals : Totals) :
    (summaryOf stdHash totals).getField fieldTotalSize = some (.uint32 totals.totalCapacity) ∧
      (summaryOf stdHash totals).getField fieldStatus = some (.int32 totals.status) := by
  obtain ⟨-, ⟨-, hstate⟩, ⟨-, -, hrollup⟩, htotalStatus, htotalRollup, htotalState, -⟩ :=
    names_apart
  unfold summaryOf Instance.getField
  constructor
  · rw [Instance.memberInstances_supplementOrUpdate_ne _ _ htotalState,
      Instance.memberInstances_supplementOrUpdate_ne _ _ htotalRollup,
      Instance.memberInstances_supplementOrUpdate_ne _ _ htotalStatus,
      Instance.memberInstances_supplementOrUpdate]
  · rw [Instance.memberInstances_supplementOrUpdate_ne _ _ hstate,
      Instance.memberInstances_supplementOrUpdate_ne _ _ hrollup.symm,
      Instance.memberInstances_supplementOrUpdate]

/-- The summary is right exactly for readable sizes whose parts below one GiB make no
whole GiB together, and whose GiB fit 32 bits. -/
theorem summarised_iff (stdHash : Bytes → UInt64) (cache : DimmCache) :
    Summarised stdHash cache ↔
      (∀ dimm ∈ cache.enabled, Readable dimm) ∧
        (cache.enabled.map fun dimm => mib dimm % 1024).sum < 1024 ∧
        (cache.enabled.map fun dimm => mib dimm / 1024).sum < 2 ^ 32 := by
  rw [← mod_eq_div_iff (sum_mib cache.enabled)]
  constructor
  · rintro ⟨summary, hprocess, ⟨total, hfield, htotal⟩, -⟩
    rw [process_eq] at hprocess
    cases hloop : (cache.enabled.map Dimm.toInstance).foldlM addModule ⟨0, ok, ok⟩ with
    | error exception =>
        rw [hloop] at hprocess
        cases hprocess
    | ok totals =>
        rw [hloop] at hprocess
        cases hprocess
        have hreadable := (foldlM_addModule_returns_iff _ _).mp ⟨totals, hloop⟩
        obtain ⟨totals', hloop', hcapacity, -⟩ := foldlM_addModule hreadable ⟨0, ok, ok⟩
        cases hloop.symm.trans hloop'
        rw [(getField_summaryOf stdHash totals).1] at hfield
        cases hfield
        refine ⟨hreadable, ?_⟩
        rw [← htotal, hcapacity]
        simp
  · rintro ⟨hreadable, hsum⟩
    obtain ⟨totals, hloop, hcapacity, hstatus⟩ := foldlM_addModule hreadable ⟨0, ok, ok⟩
    obtain ⟨hsize, hfield⟩ := getField_summaryOf stdHash totals
    refine ⟨summaryOf stdHash totals, ?_, ⟨totals.totalCapacity, hsize, ?_⟩, totals.status, hfield,
      hstatus⟩
    · rw [process_eq, hloop]
      rfl
    · rw [hcapacity, ← hsum]
      simp

/-- A module of 16 GiB whose size is given in 64 bits. -/
def wideDimm : Dimm where
  hash := 1
  memorySizeInKB := some (.uint64 16777216)
  state := .enabled
  status := ok
  statusRollup := ok
  others _ := none

/-- The number keeps its 64 bits, and the getter raises. -/
theorem wideDimm_not_summarised : ¬ ∀ stdHash cache, Summarised stdHash cache := by
  intro h
  obtain ⟨summary, hprocess, -⟩ := h (fun _ => 0) ⟨[wideDimm], List.pairwise_singleton _ _⟩
  rw [process_eq] at hprocess
  cases hloop : ((DimmCache.enabled ⟨[wideDimm], List.pairwise_singleton _ _⟩).map
      Dimm.toInstance).foldlM addModule ⟨0, ok, ok⟩ with
  | error exception =>
      rw [hloop] at hprocess
      cases hprocess
  | ok totals =>
      have hreadable := (foldlM_addModule_returns_iff _ _).mp ⟨totals, hloop⟩
      obtain ⟨kib, hkib⟩ := hreadable wideDimm (List.mem_singleton_self _) _ rfl
      cases hkib

end MemorySummary
end Entity
end ObmcWebapp
