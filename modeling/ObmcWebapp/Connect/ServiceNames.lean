import ObmcWebapp.Core
import ObmcWebapp.Library.Runs
import ObmcWebapp.Library.Table

/-!
# Connect - The well-known names of the services

Signals name their sender by its unique name on the bus; the cache names services by
their well-known names.  A dictionary with one entry for each unique name is kept by
{lit}`NameOwnerChanged` signals and by rescans of the bus, the latter when a name is
looked up that has no entry.

A signal is handled when the owner changes, and the bus does not change during a
look-up.

Main results:

- Theorem {lit}`Bus.answers_iff`: the look-ups are right where the dictionary is.
- Theorem {lit}`Bus.answers_always_iff`: when the look-ups are right all along.
-/

open Library

namespace ObmcWebapp
namespace Connect

/-! ## The dictionary -/

/-- An entry of {lit}`serviceNamesDict`. -/
structure ServiceName where
  uniqueName : Bytes
  wellKnownName : Bytes
deriving DecidableEq

/-- The well-known names under the unique ones. -/
abbrev ServiceNamesDict := Table ServiceName.uniqueName

/-- {lit}`setServiceName` -/
def setServiceName (uniqueName wellKnownName : Bytes) (serviceNamesDict : ServiceNamesDict) :
    ServiceNamesDict :=
  serviceNamesDict.insertOrAssign ⟨uniqueName, wellKnownName⟩

/-- A unique name starts with a colon. -/
def isUniqueName (serviceName : Bytes) : Bool :=
  serviceName.head? = some 0x3A

/-- What the bus answers to a rescan: the names it lists, and those of them for which
{lit}`GetNameOwner` fails. -/
structure Rescan where
  listNamesAcquired : List Bytes
  fails : Bytes → Bool

/-- {lit}`updateWellKnownServiceNameDict`; names without an owner have the owner {lit}`[]`,
for which {lit}`GetNameOwner` fails. -/
def updateWellKnownServiceNameDict (owners : Bytes → Bytes) (rescan : Rescan)
    (serviceNamesDict : ServiceNamesDict) : ServiceNamesDict :=
  rescan.listNamesAcquired.foldl (fun serviceNamesDict serviceName =>
    if isUniqueName serviceName then serviceNamesDict
    else if rescan.fails serviceName || owners serviceName = [] then serviceNamesDict
    else setServiceName (owners serviceName) serviceName serviceNamesDict) serviceNamesDict

/-- The handler of {lit}`NameOwnerChanged`. -/
def onNameOwnerChanged (name oldOwner newOwner : Bytes) (serviceNamesDict : ServiceNamesDict) :
    ServiceNamesDict :=
  if isUniqueName name then serviceNamesDict
  else setServiceName (if newOwner ≠ [] then newOwner else oldOwner) name serviceNamesDict

/-- The loop of {lit}`getWellKnownServiceName` with so many tries left before the one that
throws. -/
def acquireServiceName (owners : Bytes → Bytes) (rescans : Nat → Rescan) (uniqueName : Bytes) :
    Nat → ServiceNamesDict → Except Exception Bytes × ServiceNamesDict
  | tries, serviceNamesDict =>
      match serviceNamesDict.find uniqueName with
      | some entry => (.ok entry.wellKnownName, serviceNamesDict)
      | none =>
          let serviceNamesDict :=
            updateWellKnownServiceNameDict owners (rescans tries) serviceNamesDict
          match tries with
          | 0 => (.error .runtimeError, serviceNamesDict)
          | tries + 1 => acquireServiceName owners rescans uniqueName tries serviceNamesDict

/-- {lit}`getWellKnownServiceName` -/
def getWellKnownServiceName (owners : Bytes → Bytes) (rescans : Nat → Rescan)
    (uniqueName : Bytes) (serviceNamesDict : ServiceNamesDict) :
    Except Exception Bytes × ServiceNamesDict :=
  acquireServiceName owners rescans uniqueName 16 serviceNamesDict

/-! ## The bus -/

/-- The owners of the names on the bus, and the program's dictionary. -/
structure Bus where
  owners : Bytes → Bytes
  serviceNamesDict : ServiceNamesDict := .empty

/-- A signal of the bus, or a look at all its names. -/
inductive BusEvent
  | nameOwnerChanged (name newOwner : Bytes)
  | rescanned (rescan : Rescan)

namespace Bus

/-- A change of an owner is reported with the owner before. -/
def event (bus : Bus) : BusEvent → Bus
  | .nameOwnerChanged name newOwner =>
      if bus.owners name = newOwner then bus
      else
        { owners := Function.update bus.owners name newOwner
          serviceNamesDict :=
            onNameOwnerChanged name (bus.owners name) newOwner bus.serviceNamesDict }
  | .rescanned rescan =>
      { bus with
        serviceNamesDict :=
          updateWellKnownServiceNameDict bus.owners rescan bus.serviceNamesDict }

/-- The bus and the dictionary after some events. -/
def after (owners : Bytes → Bytes) (events : List BusEvent) : Bus :=
  events.foldl event { owners }

/-- A unique name owns a well-known one. -/
def Owns (bus : Bus) (uniqueName wellKnownName : Bytes) : Prop :=
  isUniqueName wellKnownName = false ∧ uniqueName ≠ [] ∧ bus.owners wellKnownName = uniqueName

/-- A rescan tells the owner of every well-known name that has one. -/
def Complete (bus : Bus) (rescan : Rescan) : Prop :=
  ∀ uniqueName wellKnownName, bus.Owns uniqueName wellKnownName →
    wellKnownName ∈ rescan.listNamesAcquired ∧ rescan.fails wellKnownName = false

/-- A look-up gives a name of the unique name that is looked up if it has one, and never
one of another; if it has one and the rescans are complete, it gives one. -/
structure Answers (bus : Bus) : Prop where
  owned : ∀ uniqueName rescans wellKnownName,
    (getWellKnownServiceName bus.owners rescans uniqueName bus.serviceNamesDict).1 =
      .ok wellKnownName →
    (∃ other, bus.Owns uniqueName other) → bus.Owns uniqueName wellKnownName
  foreign : ∀ uniqueName rescans wellKnownName owner,
    (getWellKnownServiceName bus.owners rescans uniqueName bus.serviceNamesDict).1 =
      .ok wellKnownName →
    bus.Owns owner wellKnownName → owner = uniqueName
  returns : ∀ uniqueName rescans, (∀ tries, bus.Complete (rescans tries)) →
    (∃ other, bus.Owns uniqueName other) →
    ∃ wellKnownName,
      (getWellKnownServiceName bus.owners rescans uniqueName bus.serviceNamesDict).1 =
        .ok wellKnownName

/-! ## Right entries -/

/-- Entries name a name that the unique name owns, unless it owns none, and none that
another one owns. -/
structure Right (bus : Bus) : Prop where
  owned : ∀ entry ∈ bus.serviceNamesDict, (∃ other, bus.Owns entry.uniqueName other) →
    bus.Owns entry.uniqueName entry.wellKnownName
  foreign : ∀ entry ∈ bus.serviceNamesDict, ∀ owner,
    bus.Owns owner entry.wellKnownName → owner = entry.uniqueName

/-- The entry is the new one or an old one of another service. -/
theorem mem_setServiceName {serviceNamesDict : ServiceNamesDict} {uniqueName name : Bytes}
    {entry : ServiceName} :
    entry ∈ setServiceName uniqueName name serviceNamesDict ↔
      entry = ⟨uniqueName, name⟩ ∨
        (entry ∈ serviceNamesDict ∧ entry.uniqueName ≠ uniqueName) :=
  Table.mem_insertOrAssign_iff

/-- The service has an entry then. -/
theorem has_setServiceName {serviceNamesDict : ServiceNamesDict} {uniqueName name other : Bytes}
    (h : serviceNamesDict.Has other ∨ other = uniqueName) :
    (setServiceName uniqueName name serviceNamesDict).Has other := by
  by_cases hother : other = uniqueName
  · exact ⟨⟨uniqueName, name⟩, mem_setServiceName.mpr (Or.inl rfl), hother.symm⟩
  · obtain ⟨entry, hmem, hkey⟩ := h.resolve_right hother
    exact ⟨entry, mem_setServiceName.mpr (Or.inr ⟨hmem, hkey ▸ hother⟩), hkey⟩

variable {bus : Bus}

/-- An owner's entry for its name is right. -/
theorem Right.setServiceName (h : bus.Right) {name : Bytes} (hname : isUniqueName name = false)
    (howner : bus.owners name ≠ []) :
    Right { bus with
      serviceNamesDict := setServiceName (bus.owners name) name bus.serviceNamesDict } where
  owned entry hmem hother := by
    rcases mem_setServiceName.mp hmem with hnew | hold
    · subst hnew
      exact ⟨hname, howner, rfl⟩
    · exact h.owned entry hold.1 hother
  foreign entry hmem owner howns := by
    rcases mem_setServiceName.mp hmem with hnew | hold
    · subst hnew
      exact howns.2.2.symm
    · exact h.foreign entry hold.1 owner howns

/-- A rescan adds right entries only. -/
theorem Right.rescanned (h : bus.Right) (rescan : Rescan) : (bus.event (.rescanned rescan)).Right := by
  unfold event updateWellKnownServiceNameDict
  dsimp only
  induction rescan.listNamesAcquired generalizing bus with
  | nil => exact h
  | cons name rest ih =>
      rw [List.foldl_cons]
      split
      · exact ih h
      · next hname =>
          split
          · exact ih h
          · next hanswered =>
              have howner : bus.owners name ≠ [] := by
                intro hnone
                simp [hnone] at hanswered
              exact ih (h.setServiceName (eq_false_of_ne_true hname) howner)

/-- A complete rescan leaves an entry for every unique name that owns a name. -/
theorem has_updateWellKnownServiceNameDict {rescan : Rescan} (hcomplete : bus.Complete rescan)
    {uniqueName name : Bytes} (howns : bus.Owns uniqueName name)
    (serviceNamesDict : ServiceNamesDict) :
    (updateWellKnownServiceNameDict bus.owners rescan serviceNamesDict).Has uniqueName := by
  obtain ⟨hlisted, hanswered⟩ := hcomplete uniqueName name howns
  obtain ⟨hname, howner, heq⟩ := howns
  have hstart : serviceNamesDict.Has uniqueName ∨ name ∈ rescan.listNamesAcquired :=
    Or.inr hlisted
  unfold updateWellKnownServiceNameDict
  generalize rescan.listNamesAcquired = names at hstart
  induction names generalizing serviceNamesDict with
  | nil => exact hstart.resolve_right List.not_mem_nil
  | cons first rest ih =>
      rw [List.foldl_cons]
      apply ih
      by_cases hfirst : first = name
      · left
        subst hfirst
        rw [if_neg (by simp [hname]), if_neg (by simp [hanswered, heq, howner])]
        exact has_setServiceName (Or.inr heq.symm)
      · rcases hstart with hhas | hmem
        · left
          split
          · exact hhas
          · split
            · exact hhas
            · exact has_setServiceName (Or.inl hhas)
        · right
          exact (List.mem_cons.mp hmem).resolve_left (Ne.symm hfirst)

/-! ## Looking a name up -/

section

variable {rescans : Nat → Rescan} {uniqueName wellKnownName : Bytes}

/-- An entry that is found is there. -/
theorem mem_of_find {serviceNamesDict : ServiceNamesDict} {entry : ServiceName}
    (h : serviceNamesDict.find uniqueName = some entry) :
    ⟨uniqueName, entry.wellKnownName⟩ ∈ serviceNamesDict := by
  obtain ⟨hmem, rfl⟩ := Table.find_eq_some_iff.mp h
  exact hmem

/-- What a look-up returns stands in a right dictionary. -/
theorem Right.acquired {tries : Nat} (h : bus.Right)
    (hfound : (acquireServiceName bus.owners rescans uniqueName tries bus.serviceNamesDict).1 =
      .ok wellKnownName) :
    ∃ serviceNamesDict : ServiceNamesDict, ⟨uniqueName, wellKnownName⟩ ∈ serviceNamesDict ∧
      Right { bus with serviceNamesDict } := by
  induction tries generalizing bus with
  | zero =>
      unfold acquireServiceName at hfound
      split at hfound
      · next entry hentry =>
          cases hfound
          exact ⟨bus.serviceNamesDict, mem_of_find hentry, h⟩
      · cases hfound
  | succ tries ih =>
      unfold acquireServiceName at hfound
      split at hfound
      · next entry hentry =>
          cases hfound
          exact ⟨bus.serviceNamesDict, mem_of_find hentry, h⟩
      · have hlater := ih (h.rescanned (rescans (tries + 1))) hfound
        exact hlater

/-- A service with an entry is answered at once. -/
theorem acquireServiceName_of_mem {entry : ServiceName} (hmem : entry ∈ bus.serviceNamesDict)
    (tries : Nat) :
    (acquireServiceName bus.owners rescans entry.uniqueName tries bus.serviceNamesDict).1 =
      .ok entry.wellKnownName := by
  unfold acquireServiceName
  rw [Table.find_eq_some_iff.mpr ⟨hmem, rfl⟩]

/-- One complete rescan is enough. -/
theorem getWellKnownServiceName_returns (hcomplete : ∀ tries, bus.Complete (rescans tries))
    (howns : bus.Owns uniqueName wellKnownName) :
    ∃ name, (getWellKnownServiceName bus.owners rescans uniqueName bus.serviceNamesDict).1 =
      .ok name := by
  unfold getWellKnownServiceName acquireServiceName
  split
  · exact ⟨_, rfl⟩
  · obtain ⟨entry, hmem, rfl⟩ := has_updateWellKnownServiceNameDict (hcomplete 16) howns
      bus.serviceNamesDict
    have hfound := @acquireServiceName_of_mem
      (bus.event (.rescanned (rescans 16))) rescans entry hmem 15
    exact ⟨_, hfound⟩

end

/-- The look-ups are right where the dictionary is. -/
theorem answers_iff : bus.Answers ↔ bus.Right := by
  constructor
  · intro h
    have hfound : ∀ entry ∈ bus.serviceNamesDict,
        (getWellKnownServiceName bus.owners (fun _ => ⟨[], fun _ => false⟩) entry.uniqueName
          bus.serviceNamesDict).1 = .ok entry.wellKnownName :=
      fun entry hmem => acquireServiceName_of_mem hmem 16
    refine ⟨?_, ?_⟩
    · intro entry hmem hother
      exact h.owned _ _ _ (hfound entry hmem) hother
    · intro entry hmem owner howns
      exact h.foreign _ _ _ _ (hfound entry hmem) howns
  · intro h
    refine ⟨?_, ?_, ?_⟩
    · intro uniqueName rescans name hname hother
      obtain ⟨dict, hmem, hright⟩ := h.acquired hname
      exact hright.owned _ hmem hother
    · intro uniqueName rescans name owner hname howns
      obtain ⟨dict, hmem, hright⟩ := h.acquired hname
      exact hright.foreign _ hmem owner howns
    · intro uniqueName rescans hcomplete hother
      obtain ⟨other, howns⟩ := hother
      exact getWellKnownServiceName_returns hcomplete howns

/-! ## Changes of the owners -/

/-- A name that gets an owner is in the entry of no other unique name, and a name that
loses its owner was the only one of it. -/
def Settled (bus : Bus) : BusEvent → Prop
  | .nameOwnerChanged name newOwner =>
      isUniqueName name = false → bus.owners name ≠ newOwner →
        (newOwner ≠ [] → ∀ entry ∈ bus.serviceNamesDict,
          entry.wellKnownName = name → entry.uniqueName = newOwner) ∧
        (newOwner = [] → ∀ other, bus.Owns (bus.owners name) other → other = name)
  | .rescanned _ => True

section

variable {name newOwner : Bytes}

/-- Names other than the one that changes keep their owners. -/
theorem owns_update_iff {uniqueName other : Bytes} {serviceNamesDict : ServiceNamesDict}
    (hother : other ≠ name) :
    Owns ⟨Function.update bus.owners name newOwner, serviceNamesDict⟩ uniqueName other ↔
      bus.Owns uniqueName other := by
  unfold Owns
  dsimp only
  rw [Function.update_of_ne hother]

/-- A name has its new owner. -/
theorem owns_update_self_iff {uniqueName : Bytes} {serviceNamesDict : ServiceNamesDict} :
    Owns ⟨Function.update bus.owners name newOwner, serviceNamesDict⟩ uniqueName name ↔
      isUniqueName name = false ∧ uniqueName ≠ [] ∧ newOwner = uniqueName := by
  unfold Owns
  dsimp only
  rw [Function.update_self]

/-- Entries of other unique names are right after the change if they were before. -/
theorem Right.owned_of_changed (h : bus.Right) {entry : ServiceName}
    (hmem : entry ∈ bus.serviceNamesDict) (hne : entry.uniqueName ≠ newOwner)
    (hname : entry.wellKnownName ≠ name) {serviceNamesDict : ServiceNamesDict}
    (hother : ∃ other, Owns ⟨Function.update bus.owners name newOwner, serviceNamesDict⟩
      entry.uniqueName other) :
    Owns ⟨Function.update bus.owners name newOwner, serviceNamesDict⟩ entry.uniqueName
      entry.wellKnownName := by
  obtain ⟨other, howns⟩ := hother
  have hdiffers : other ≠ name := by
    intro heq
    subst heq
    exact hne (owns_update_self_iff.mp howns).2.2.symm
  rw [owns_update_iff hdiffers] at howns
  rw [owns_update_iff hname]
  exact h.owned entry hmem ⟨other, howns⟩

/-- A name gets an owner. -/
theorem right_acquired_iff (h : bus.Right) (hname : isUniqueName name = false)
    (hnew : newOwner ≠ []) :
    Right ⟨Function.update bus.owners name newOwner,
        setServiceName newOwner name bus.serviceNamesDict⟩ ↔
      ∀ entry ∈ bus.serviceNamesDict, entry.wellKnownName = name → entry.uniqueName = newOwner := by
  have howns := (@owns_update_self_iff bus name newOwner newOwner
    (setServiceName newOwner name bus.serviceNamesDict)).mpr ⟨hname, hnew, rfl⟩
  constructor
  · intro hright entry hmem heq
    by_contra hne
    have hstays : entry ∈ setServiceName newOwner name bus.serviceNamesDict :=
      mem_setServiceName.mpr (Or.inr ⟨hmem, hne⟩)
    exact hne (hright.foreign entry hstays newOwner (heq ▸ howns)).symm
  · intro hentries
    refine ⟨?_, ?_⟩
    · intro entry hmem hother
      rcases mem_setServiceName.mp hmem with hself | ⟨hold, hne⟩
      · subst hself
        exact howns
      · exact h.owned_of_changed hold hne (fun heq => hne (hentries entry hold heq)) hother
    · intro entry hmem owner howner
      rcases mem_setServiceName.mp hmem with hself | ⟨hold, hne⟩
      · subst hself
        exact (owns_update_self_iff.mp howner).2.2.symm
      · rw [owns_update_iff (fun heq => hne (hentries entry hold heq))] at howner
        exact h.foreign entry hold owner howner

/-- A name loses its owner, whose entry names it afterwards. -/
theorem right_released_iff (h : bus.Right) (hname : isUniqueName name = false)
    (hold : bus.owners name ≠ []) :
    Right ⟨Function.update bus.owners name [],
        setServiceName (bus.owners name) name bus.serviceNamesDict⟩ ↔
      ∀ other, bus.Owns (bus.owners name) other → other = name := by
  constructor
  · intro hright other howns
    by_contra hne
    have hself : (⟨bus.owners name, name⟩ : ServiceName) ∈
        setServiceName (bus.owners name) name bus.serviceNamesDict :=
      mem_setServiceName.mpr (Or.inl rfl)
    have hstill := hright.owned _ hself ⟨other, (owns_update_iff hne).mpr howns⟩
    exact hold (owns_update_self_iff.mp hstill).2.2.symm
  · intro honly
    -- nobody owns the name any more
    have hnone : ∀ owner other, Owns ⟨Function.update bus.owners name [],
        setServiceName (bus.owners name) name bus.serviceNamesDict⟩ owner other →
        other ≠ name ∧ bus.Owns owner other := by
      intro owner other howner
      have hother : other ≠ name := by
        intro heq
        subst heq
        obtain ⟨-, hne, heq⟩ := owns_update_self_iff.mp howner
        exact hne heq.symm
      exact ⟨hother, (owns_update_iff hother).mp howner⟩
    refine ⟨?_, ?_⟩
    · rintro entry hmem ⟨other, hother⟩
      obtain ⟨hdiffers, howns⟩ := hnone _ _ hother
      rcases mem_setServiceName.mp hmem with hself | ⟨hbefore, hne⟩
      · subst hself
        exact absurd (honly other howns) hdiffers
      · apply h.owned_of_changed hbefore howns.2.1 ?_ ⟨other, hother⟩
        intro heq
        have hentry := h.owned entry hbefore ⟨other, howns⟩
        rw [heq] at hentry
        exact hne hentry.2.2.symm
    · intro entry hmem owner howner
      obtain ⟨hdiffers, howns⟩ := hnone _ _ howner
      rcases mem_setServiceName.mp hmem with hself | ⟨hbefore, -⟩
      · subst hself
        exact absurd rfl hdiffers
      · exact h.foreign entry hbefore owner howns

/-- Names of unique names do not matter. -/
theorem right_unique_iff (hname : isUniqueName name = true)
    {owners : Bytes → Bytes} {serviceNamesDict : ServiceNamesDict} :
    Right ⟨Function.update owners name newOwner, serviceNamesDict⟩ ↔
      Right ⟨owners, serviceNamesDict⟩ := by
  have howns : ∀ owner other,
      Owns ⟨Function.update owners name newOwner, serviceNamesDict⟩ owner other ↔
        Owns ⟨owners, serviceNamesDict⟩ owner other := by
    intro owner other
    by_cases hother : other = name
    · subst hother
      unfold Owns
      rw [hname]
      simp
    · exact @owns_update_iff ⟨owners, serviceNamesDict⟩ name newOwner owner other _ hother
  constructor
  · intro h
    refine ⟨fun entry hmem hother => ?_, fun entry hmem owner howner => ?_⟩
    · obtain ⟨other, hother⟩ := hother
      exact (howns _ _).mp (h.owned entry hmem ⟨other, (howns _ _).mpr hother⟩)
    · exact h.foreign entry hmem owner ((howns _ _).mpr howner)
  · intro h
    refine ⟨fun entry hmem hother => ?_, fun entry hmem owner howner => ?_⟩
    · obtain ⟨other, hother⟩ := hother
      exact (howns _ _).mpr (h.owned entry hmem ⟨other, (howns _ _).mp hother⟩)
    · exact h.foreign entry hmem owner ((howns _ _).mp howner)

/-- One event keeps the dictionary right exactly where it settles. -/
theorem event_right_iff (h : bus.Right) (event : BusEvent) :
    (bus.event event).Right ↔ bus.Settled event := by
  cases event with
  | rescanned rescan => exact iff_of_true (h.rescanned rescan) trivial
  | nameOwnerChanged name newOwner =>
      unfold Bus.event Settled
      by_cases hsame : bus.owners name = newOwner
      · simp only [hsame, if_true, h, ne_eq, not_true, false_implies, implies_true]
      · simp only [if_neg hsame, onNameOwnerChanged]
        cases hname : isUniqueName name with
        | true =>
            simp only [if_true]
            exact iff_of_true ((right_unique_iff hname).mpr h) (fun hfalse => by cases hfalse)
        | false =>
            by_cases hnew : newOwner = []
            · subst hnew
              simp only [ne_eq, not_true, if_false, Bool.false_eq_true]
              rw [right_released_iff h hname hsame]
              simp [hsame]
            · simp only [ne_eq, hnew, not_false_iff, if_true, Bool.false_eq_true, if_false]
              rw [right_acquired_iff h hname hnew]
              simp [hsame]

end

/-- After every event of a sequence the look-ups are right if and only if every event
settles. -/
theorem answers_always_iff (owners : Bytes → Bytes) (events : List BusEvent) :
    (∀ before rest, events = before ++ rest → (after owners before).Answers) ↔
      ∀ before event rest, events = before ++ event :: rest →
        (after owners before).Settled event := by
  simp only [answers_iff]
  have hstart : Right { owners } :=
    ⟨fun entry hmem => absurd hmem (Table.not_mem_empty entry),
      fun entry hmem => absurd hmem (Table.not_mem_empty entry)⟩
  exact @foldl_always_iff Bus BusEvent event Right Settled { owners } hstart events
    (fun _ hright label _ => event_right_iff hright label)

/-! ## A service with two names -/

/-- A unique name acquires two names and releases the second. -/
def secondNameReleased : List BusEvent :=
  [.nameOwnerChanged (bytes "xyz.openbmc_project.Network") (bytes ":1.5"),
    .nameOwnerChanged (bytes "xyz.openbmc_project.Network.Extra") (bytes ":1.5"),
    .nameOwnerChanged (bytes "xyz.openbmc_project.Network.Extra") []]

/-- The name that was released is still answered. -/
theorem released_name_answered :
    ¬ (after (fun _ => []) secondNameReleased).Answers := by
  intro h
  have hfound : (after (fun _ => []) secondNameReleased).serviceNamesDict.find (bytes ":1.5") =
      some ⟨bytes ":1.5", bytes "xyz.openbmc_project.Network.Extra"⟩ := by
    decide
  have hother : (after (fun _ => []) secondNameReleased).Owns (bytes ":1.5")
      (bytes "xyz.openbmc_project.Network") :=
    ⟨by decide, by decide, by decide⟩
  have howns := (answers_iff.mp h).owned _ (Table.find_eq_some_iff.mp hfound).1 ⟨_, hother⟩
  exact absurd howns.2.2 (by decide)

end Bus
end Connect
end ObmcWebapp
