import ObmcWebapp.Entity.StatusRollup
import ObmcWebapp.Library.Setters

/-!
# Entity - The default fields of an instance

A query declares setters for the default fields of its instances in an unordered
dictionary.  {lit}`initDefaultFieldsValue` calls them one after the other, and each of them
reads the fields that those before it have written: {lit}`StatusFromRollup` takes over the
rollup that {lit}`StatusRollup` writes in the same call, or in an earlier one.

Main results:

- Theorem {lit}`initDefaultFieldsValue_same_iff`: when the order of the dictionary does not
  matter, and when the status is the rollup of the same call.
-/

open Library

namespace ObmcWebapp
namespace Entity

open StatusProvider

/-! ## The dictionary -/

/-- A field is written. -/
def Instance.supplementOrUpdate (self : Instance) (memberName : Bytes) (value : FieldType) :
    Instance :=
  { self with memberInstances := Function.update self.memberInstances memberName (some value) }

/-- The field that is written is there. -/
@[simp] theorem Instance.memberInstances_supplementOrUpdate (self : Instance) (memberName : Bytes)
    (value : FieldType) : (self.supplementOrUpdate memberName value).memberInstances memberName =
      some value :=
  Function.update_self ..

/-- Other fields are left. -/
theorem Instance.memberInstances_supplementOrUpdate_ne (self : Instance) {memberName other : Bytes}
    (value : FieldType) (hne : other ≠ memberName) :
    (self.supplementOrUpdate memberName value).memberInstances other =
      self.memberInstances other :=
  Function.update_of_ne hne ..

/-- A member with its {lit}`DefaultValueSetter`. -/
structure DefaultField where
  memberName : Bytes
  memberValueSetter : Instance → Except Exception FieldType

/-- {lit}`DefaultFieldsValueDict`, in some order of its entries. -/
structure DefaultFieldsValueDict where
  entries : List DefaultField
  nodup : (entries.map (·.memberName)).Nodup

/-- The loop of {lit}`initDefaultFieldsValue`, with the exception that ends it. -/
def initDefaultFields : List DefaultField → Instance → Instance × Option Exception
  | [], self => (self, none)
  | field :: rest, self =>
      match field.memberValueSetter self with
      | .error exception => (self, some exception)
      | .ok value => initDefaultFields rest (self.supplementOrUpdate field.memberName value)

/-- {lit}`initDefaultFieldsValue`, with the dictionary in the order in which it is iterated;
the query is none after its end. -/
def initDefaultFieldsValue (dbusQuery : Option (List DefaultField)) (self : Instance) :
    Instance × Option Exception :=
  match dbusQuery with
  | none => (self, none)
  | some defaultFields => initDefaultFields defaultFields self

/-! ## The status of the rollup -/

section

variable {ε : Type} [DecidableEq ε]

/-- The cache while one of its instances is being changed. -/
def Cached.holding (cached : Cached ε) (entity : ε) (instance_ : Instance) : Cached ε :=
  { cached with
    instances := fun other => (cached.instances other).map fun object =>
      if other = entity ∧ object.hash = instance_.hash then instance_ else object }

/-- {lit}`StatusRollup::defaultGetter` -/
def statusRollupGetter (hasMember : ε → Bytes → Bool) (schema : Schema ε) (cached : Cached ε)
    (entity : ε) : DefaultField where
  memberName := fieldStatusRollup
  memberValueSetter instance_ :=
    statusRollup hasMember schema (cached.holding entity instance_) entity instance_

/-- {lit}`StatusFromRollup::defaultGetter` -/
def statusFromRollupGetter : DefaultField where
  memberName := fieldStatus
  memberValueSetter instance_ := (getFieldStatusRollup instance_).map .int32

/-- The dictionary of {lit}`Drive` and of the other entities whose status is their rollup. -/
def rollupDefaults (hasMember : ε → Bytes → Bool) (schema : Schema ε) (cached : Cached ε)
    (entity : ε) : DefaultFieldsValueDict where
  entries := [statusRollupGetter hasMember schema cached entity, statusFromRollupGetter]
  nodup := by
    show [fieldStatusRollup, fieldStatus].Nodup
    decide

end

/-! ## The order of the dictionary -/

/-- The setter of a field, for an instance of a hash. -/
def DefaultField.setter (hash : UInt64) (field : DefaultField) : Setter Bytes FieldType Exception where
  key := field.memberName
  value memberInstances := field.memberValueSetter ⟨hash, memberInstances⟩

/-- Every iteration order leaves the same field values. -/
def OrderDoesNotMatter (dict : DefaultFieldsValueDict) (self : Instance) : Prop :=
  ∀ order other : List DefaultField, order.Perm dict.entries → other.Perm dict.entries →
    (initDefaultFieldsValue (some order) self).1.memberInstances =
      (initDefaultFieldsValue (some other) self).1.memberInstances

/-- The call returns, and the status is the rollup that it has written. -/
def StatusOfThisCall (order : List DefaultField) (self : Instance) : Prop :=
  let outcome := initDefaultFieldsValue (some order) self
  outcome.2 = none ∧ ∃ rollup, outcome.1.memberInstances fieldStatusRollup = some rollup ∧
    outcome.1.memberInstances fieldStatus = some rollup

section

variable {fields : List DefaultField} {self : Instance}

/-- The default fields are setters that run one after the other. -/
theorem initDefaultFields_eq :
    initDefaultFields fields self =
      let outcome := runSetters (fields.map (DefaultField.setter self.hash)) self.memberInstances
      ({ self with memberInstances := outcome.1 }, outcome.2) := by
  induction fields generalizing self with
  | nil => rfl
  | cons field rest ih =>
      rw [initDefaultFields, List.map_cons]
      cases hvalue : field.memberValueSetter self with
      | error exception =>
          have hsetter : (field.setter self.hash).value self.memberInstances = .error exception :=
            hvalue
          rw [runSetters_of_error hsetter]
      | ok value =>
          have hsetter : (field.setter self.hash).value self.memberInstances = .ok value := hvalue
          rw [runSetters_of_ok hsetter]
          exact ih

/-- The order does not matter if and only if no field disturbs another. -/
theorem orderDoesNotMatter_iff (dict : DefaultFieldsValueDict) (self : Instance) :
    OrderDoesNotMatter dict self ↔
      Undisturbed (dict.entries.map (DefaultField.setter self.hash)) self.memberInstances := by
  have hnodup : ((dict.entries.map (DefaultField.setter self.hash)).map Setter.key).Nodup := by
    rw [List.map_map]
    exact dict.nodup
  rw [← runSetters_same_iff hnodup]
  simp only [OrderDoesNotMatter, initDefaultFieldsValue, initDefaultFields_eq]
  constructor
  · intro h order other horder hother
    obtain ⟨fields, hfields, rfl⟩ := exists_order_of_map horder
    obtain ⟨others, hothers, rfl⟩ := exists_order_of_map hother
    exact h fields others hfields hothers
  · intro h order other horder hother
    exact h _ _ (horder.map _) (hother.map _)

end

section

variable {ε : Type} [DecidableEq ε] (hasMember : ε → Bytes → Bool) (schema : Schema ε)
  (cached : Cached ε) (entity : ε) (self : Instance)

/-- The rollup of an instance as it is now. -/
def currentRollup (instance_ : Instance) : Except Exception FieldType :=
  statusRollup hasMember schema (cached.holding entity instance_) entity instance_

/-- A rollup that is stored is read back. -/
theorem getFieldStatusRollup_stored (instance_ : Instance) (rollup : Int32) :
    getFieldStatusRollup (instance_.supplementOrUpdate fieldStatusRollup (.int32 rollup)) =
      .ok rollup := by
  simp [getFieldStatusRollup, getFieldEnum, Instance.getField, Field.isNull, Field.getValue]

/-- A rollup is a number. -/
theorem currentRollup_int32 {instance_ : Instance} {value : FieldType}
    (h : currentRollup hasMember schema cached entity instance_ = .ok value) :
    ∃ rollup, value = .int32 rollup := by
  obtain ⟨rollup, hvalue, -⟩ := StatusRollup.fold_greatest h
  exact ⟨rollup, hvalue⟩

/-- The two fields are apart. -/
theorem fieldStatusRollup_ne : fieldStatusRollup ≠ fieldStatus := by
  decide

/-- The status is the rollup of the same call if that is written first. -/
theorem rollup_first_iff :
    StatusOfThisCall [statusRollupGetter hasMember schema cached entity, statusFromRollupGetter]
        self ↔ ∃ value, currentRollup hasMember schema cached entity self = .ok value := by
  unfold StatusOfThisCall initDefaultFieldsValue initDefaultFields
  cases hrollup : currentRollup hasMember schema cached entity self with
  | error exception =>
      have hsetter : (statusRollupGetter hasMember schema cached entity).memberValueSetter self =
          .error exception := hrollup
      simp [hsetter]
  | ok value =>
      obtain ⟨rollup, rfl⟩ := currentRollup_int32 hasMember schema cached entity hrollup
      have hsetter : (statusRollupGetter hasMember schema cached entity).memberValueSetter self =
          .ok (.int32 rollup) := hrollup
      have hfrom : statusFromRollupGetter.memberValueSetter
          (self.supplementOrUpdate fieldStatusRollup (.int32 rollup)) = .ok (.int32 rollup) := by
        simp only [statusFromRollupGetter, getFieldStatusRollup_stored]
        rfl
      have hname : (statusRollupGetter hasMember schema cached entity).memberName =
          fieldStatusRollup := rfl
      simp only [hsetter, hname, initDefaultFields, hfrom, Except.ok.injEq, exists_eq', iff_true]
      refine ⟨trivial, .int32 rollup, ?_, ?_⟩
      · rw [show statusFromRollupGetter.memberName = fieldStatus from rfl,
          Instance.memberInstances_supplementOrUpdate_ne _ _ fieldStatusRollup_ne,
          Instance.memberInstances_supplementOrUpdate]
      · exact Instance.memberInstances_supplementOrUpdate ..

/-- If it is written last, the one that is held has to be what comes out. -/
theorem rollup_last_iff :
    StatusOfThisCall [statusFromRollupGetter, statusRollupGetter hasMember schema cached entity]
        self ↔
      ∃ held, getFieldStatusRollup self = .ok held ∧
        currentRollup hasMember schema cached entity
          (self.supplementOrUpdate fieldStatus (.int32 held)) = .ok (.int32 held) := by
  unfold StatusOfThisCall initDefaultFieldsValue initDefaultFields
  cases hheld : getFieldStatusRollup self with
  | error exception =>
      have hfrom : statusFromRollupGetter.memberValueSetter self = .error exception := by
        simp only [statusFromRollupGetter, hheld]
        rfl
      simp [hfrom]
  | ok held =>
      have hfrom : statusFromRollupGetter.memberValueSetter self = .ok (.int32 held) := by
        simp only [statusFromRollupGetter, hheld]
        rfl
      have hname : statusFromRollupGetter.memberName = fieldStatus := rfl
      simp only [hfrom, hname, Except.ok.injEq, exists_eq_left']
      cases hrollup : currentRollup hasMember schema cached entity
          (self.supplementOrUpdate fieldStatus (.int32 held)) with
      | error exception =>
          have hsetter : (statusRollupGetter hasMember schema cached entity).memberValueSetter
              (self.supplementOrUpdate fieldStatus (.int32 held)) = .error exception := hrollup
          simp [initDefaultFields, hsetter]
      | ok value =>
          have hsetter : (statusRollupGetter hasMember schema cached entity).memberValueSetter
              (self.supplementOrUpdate fieldStatus (.int32 held)) = .ok value := hrollup
          have hname : (statusRollupGetter hasMember schema cached entity).memberName =
              fieldStatusRollup := rfl
          simp only [initDefaultFields, hsetter, hname, true_and, Except.ok.injEq,
            Instance.memberInstances_supplementOrUpdate, Option.some.injEq, exists_eq_left',
            Instance.memberInstances_supplementOrUpdate_ne _ _ fieldStatusRollup_ne.symm]
          exact eq_comm

/-- Two entries are iterated in one order or the other. -/
theorem perm_pair_iff {α : Type} {first second : α} {order : List α} :
    order.Perm [first, second] ↔ order = [first, second] ∨ order = [second, first] := by
  constructor
  · intro h
    obtain ⟨x, y, rfl⟩ := List.length_eq_two.mp h.length_eq
    have hfirst : x = first ∨ x = second := by
      simpa using h.mem_iff.mp List.mem_cons_self
    cases hfirst with
    | inl heq =>
        subst heq
        have hrest := (List.perm_cons x).mp h
        rw [List.perm_singleton.mp hrest]
        exact Or.inl rfl
    | inr heq =>
        subst heq
        have hrest := (List.perm_cons x).mp (h.trans (List.Perm.swap x first []))
        rw [List.perm_singleton.mp hrest]
        exact Or.inr rfl
  · intro h
    rcases h with rfl | rfl
    · exact List.Perm.refl _
    · exact List.Perm.swap _ _ _

end

/-- The order of a dictionary does not matter exactly where its setters do not disturb each
other; and the status is the rollup of the same call, in every order, exactly where the
rollup that is held beforehand is what comes out. -/
theorem initDefaultFieldsValue_same_iff (dict : DefaultFieldsValueDict) (self : Instance) {ε : Type}
    [DecidableEq ε] (hasMember : ε → Bytes → Bool) (schema : Schema ε) (cached : Cached ε)
    (entity : ε) :
    (OrderDoesNotMatter dict self ↔
        Undisturbed (dict.entries.map (DefaultField.setter self.hash)) self.memberInstances) ∧
      ((∀ order : List DefaultField,
            order.Perm (rollupDefaults hasMember schema cached entity).entries →
              StatusOfThisCall order self) ↔
          (∃ value, currentRollup hasMember schema cached entity self = .ok value) ∧
            ∃ held, getFieldStatusRollup self = .ok held ∧
              currentRollup hasMember schema cached entity
                (self.supplementOrUpdate fieldStatus (.int32 held)) = .ok (.int32 held)) := by
  refine ⟨orderDoesNotMatter_iff dict self, ?_⟩
  simp only [rollupDefaults, perm_pair_iff, forall_eq_or_imp, forall_eq, rollup_first_iff,
    rollup_last_iff]

/-! ## A fan whose sensor has become critical -/

namespace Monitored

/-- The dictionary of the fan while the sensor has a status. -/
def defaults (status : Int32) : DefaultFieldsValueDict :=
  rollupDefaults hasMember schema (cached status) .fans

/-- The fan after a call in which the sensor was fine. -/
def fineFan : Instance :=
  (initDefaultFieldsValue (some (defaults ok).entries) fan).1

end Monitored

/-- With the status first the fan stays fine, and its rollup becomes critical. -/
theorem status_of_earlier_call :
    ¬ OrderDoesNotMatter (Monitored.defaults critical) Monitored.fineFan ∧
      ¬ StatusOfThisCall (Monitored.defaults critical).entries.reverse Monitored.fineFan := by
  have hstale : (initDefaultFieldsValue (some (Monitored.defaults critical).entries.reverse)
      Monitored.fineFan).1.memberInstances fieldStatus = some (.int32 ok) := by
    decide
  have hrollup : (initDefaultFieldsValue (some (Monitored.defaults critical).entries.reverse)
      Monitored.fineFan).1.memberInstances fieldStatusRollup = some (.int32 critical) := by
    decide
  have hcurrent : (initDefaultFieldsValue (some (Monitored.defaults critical).entries)
      Monitored.fineFan).1.memberInstances fieldStatus = some (.int32 critical) := by
    decide
  constructor
  · intro h
    have hsame := congrFun (h _ _ (List.reverse_perm _) (List.Perm.refl _)) fieldStatus
    rw [hstale, hcurrent] at hsame
    exact absurd hsame (by decide)
  · intro h
    obtain ⟨-, rollup, hwritten, hstatus⟩ := h
    rw [hrollup] at hwritten
    rw [hstale, ← hwritten] at hstatus
    exact absurd hstatus (by decide)

end Entity
end ObmcWebapp
