import ObmcWebapp.Entity.HostBoot
import ObmcWebapp.Entity.Supplement

/-!
# Entity - The boot override of the server

A read of the server takes over the settings for every boot and then those for the next one.
The first rule erases what an earlier read has left, so that the server shows the mode, the
firmware and the duration of an override as the settings have them now.

The other providers of the server, its default fields and {lit}`verifyState` are parameters.

Main results:

- Theorem {lit}`Server.refreshed_override`: what a read makes of the settings.
- Theorem {lit}`Server.override_shown`: it is what the properties on the bus say.
- Theorem {lit}`Server.earlier_boot_reads_do_not_matter`: the rules that reset what they link
  leave nothing of earlier reads.
-/

open Library

namespace ObmcWebapp
namespace Entity

namespace HostBootProvider

/-- The mode of an instance, none where it has none. -/
def getFieldMode (instance_ : Instance) : Except Exception Int32 :=
  match instance_.getField fieldMode with
  | none | some .null => .ok Mode.none
  | some (.int32 value) => .ok value
  | some _ => .error .badVariantAccess

end HostBootProvider

namespace HostBootOnceProvider

/-- Whether an instance is for the next boot alone. -/
def getFieldOneTime (instance_ : Instance) : Except Exception Bool :=
  match instance_.getField fieldOneTime with
  | none | some .null => .ok false
  | some (.bool value) => .ok value
  | some _ => .error .badVariantAccess

end HostBootOnceProvider

namespace BootSettingsProvider

namespace RetryConfig

/-- A failed boot is tried again. -/
def retryAttempts : Int32 := 0

/-- A failed boot is not tried again. -/
def disabled : Int32 := 1

end RetryConfig

/-- The member with the policy. -/
def fieldRetryConfig : Bytes := bytes "RetryConfig"

/-- The policy of an instance, disabled where it has none. -/
def getFieldRetryConfig (instance_ : Instance) : Except Exception Int32 :=
  match instance_.getField fieldRetryConfig with
  | none | some .null => .ok RetryConfig.disabled
  | some (.int32 value) => .ok value
  | some _ => .error .badVariantAccess

end BootSettingsProvider

namespace RebootRemainingProvider

/-- The member with the number of attempts that are left. -/
def fieldAttemptsLeft : Bytes := bytes "AttemptsLeft"

end RebootRemainingProvider

namespace Server

open HostBootProvider HostBootOnceProvider BootSettingsProvider RebootRemainingProvider

namespace BootOverrideType

/-- The override is for every boot. -/
def continuous : Int32 := 0

/-- The override is for the next boot. -/
def once : Int32 := 1

/-- There is no override. -/
def none : Int32 := 2

end BootOverrideType

/-- The member with the duration of the override. -/
def fieldBootOverrideType : Bytes := bytes "BootOverrideType"

/-! ## The link rules -/

/-- What a setter writes. -/
def assign (memberName : Bytes) (value : FieldType) : Store Bytes FieldType :=
  fun other => if other = memberName then some value else none

/-- What {lit}`linkHostBoot` writes first. -/
def reset : Store Bytes FieldType :=
  ((assign fieldBootOverrideType (.int32 BootOverrideType.none)).write
    (assign fieldMode (.int32 Mode.none))).write (assign fieldType .null)

/-- The settings for every boot, after the reset. -/
def linkHostBoot (isStatic : UInt64 → Bool) (supplementer : Instance) : FieldWriter :=
  fun hash _ =>
    match getFieldMode supplementer with
    | .error exception => ⟨reset, some exception⟩
    | .ok mode =>
        if mode ≠ Mode.none then
          ⟨(reset.write (supplementer.supplied (isStatic hash))).write
            (assign fieldBootOverrideType (.int32 BootOverrideType.continuous)), none⟩
        else ⟨reset, none⟩

/-- The condition of {lit}`linkHostBootOnce`. -/
def bootsOnce (supplementer : Instance) : Except Exception Bool := do
  let mode ← getFieldMode supplementer
  if mode ≠ Mode.none then getFieldOneTime supplementer else return false

/-- The settings for the next boot, where they are enabled. -/
def linkHostBootOnce (isStatic : UInt64 → Bool) (supplementer : Instance) : FieldWriter :=
  fun hash _ =>
    match bootsOnce supplementer with
    | .error exception => ⟨fun _ => none, some exception⟩
    | .ok true =>
        ⟨(supplementer.supplied (isStatic hash)).write
          (assign fieldBootOverrideType (.int32 BootOverrideType.once)), none⟩
    | .ok false => ⟨fun _ => none, none⟩

/-- The attempts that are left, after the reset. -/
def linkRebootAttempts (isStatic : UInt64 → Bool) (supplementer : Instance) : FieldWriter :=
  fun hash fields =>
    -- the target says whether attempts are counted
    match getFieldRetryConfig ⟨hash, fields⟩ with
    | .error exception => ⟨fun _ => none, some exception⟩
    | .ok config =>
        if config = RetryConfig.retryAttempts then
          ⟨(assign fieldAttemptsLeft .null).write (supplementer.supplied (isStatic hash)), none⟩
        else ⟨assign fieldAttemptsLeft .null, none⟩

/-! ## The rules of the server -/

/-- A link rule with the instances of its provider. -/
structure Linked where
  rule : Instance → FieldWriter
  instances : List Instance

/-- What the server has beside the boot settings: the providers before and after them. -/
structure Surroundings where
  isStatic : UInt64 → Bool
  initDefaultFieldsValue : FieldWriter
  verifyState : FieldWriter
  earlier : List Linked
  later : List Linked

/-- The providers of the server in their order. -/
def providers (w : Surroundings) (hosts onces : List Instance) : List Linked :=
  w.earlier ++ ⟨linkHostBoot w.isStatic, hosts⟩ :: ⟨linkHostBootOnce w.isStatic, onces⟩ :: w.later

/-- The rules of the server. -/
def serverRules (w : Surroundings) : SupplementRules where
  isStatic := w.isStatic
  initDefaultFieldsValue := w.initDefaultFieldsValue
  verifyState := w.verifyState
  providers := (providers w [] []).map Linked.rule

/-- The server with the instances that its providers have. -/
def supplemented (w : Surroundings) (instances hosts onces : List Instance) : Supplemented where
  instances := instances
  provided := (providers w hosts onces).map Linked.instances

/-- The fields of the override. -/
def bootFields : List Bytes :=
  [fieldBootOverrideType, fieldMode, fieldType]

/-- The providers after the boot settings have no such field. -/
def Surroundings.Apart (w : Surroundings) : Prop :=
  ∀ linked ∈ w.later, ∀ supplement ∈ linked.instances, ∀ hash store, ∀ field ∈ bootFields,
    (linked.rule supplement hash store).written field = none

/-! ## What the settings say -/

/-- The override of a server. -/
structure Override where
  overrideType : Int32
  mode : Int32
  firmware : FieldType
deriving DecidableEq

/-- The override by the settings for every boot. -/
def everyBoot (mode : Int32) (firmware : Option FieldType) : Override :=
  if mode = Mode.none then ⟨BootOverrideType.none, Mode.none, .null⟩
  else ⟨BootOverrideType.continuous, mode, firmware.getD .null⟩

/-- Where the settings for the next boot name no firmware, it is that of the others. -/
def nextBoot (mode : Int32) (firmware : Option FieldType) (oneTime : Bool) (others : Override) :
    Override :=
  if mode ≠ Mode.none ∧ oneTime = true then
    ⟨BootOverrideType.once, mode, firmware.getD others.firmware⟩
  else others

/-- The firmware among the settings of an object, as it is formatted. -/
def firmwareOf (object : WatchedObject types) : Option FieldType :=
  ((object.get typeIface).lookup propertyBootType).bind fun value =>
    match formatType propertyBootType value with
    | .ok formatted => some formatted.val
    | .error _ => none

/-- Whether the settings of an object are enabled. -/
def isEnabled (object : WatchedObject types) : Bool :=
  (((object.get enableIface).lookup propertyEnabled).bind DbusVariant.getBool).getD false

/-- The settings for the next boot, if there are any, go before those for every boot. -/
def override (host : WatchedObject types) (once : Option (WatchedObject types)) : Override :=
  let others := everyBoot (currentMode host) (firmwareOf host)
  match once with
  | none => others
  | some once => nextBoot (currentMode once) (firmwareOf once) (isEnabled once) others

/-- The fields show an override. -/
structure Shows (fields : Store Bytes FieldType) (shown : Override) : Prop where
  overrideType : fields fieldBootOverrideType = some (.int32 shown.overrideType)
  mode : fields fieldMode = some (.int32 shown.mode)
  firmware : fields fieldType = some shown.firmware

/-! ## What the rules write -/

/-- The settings of an instance of one of the providers. -/
structure Offers (supplementer : Instance) (mode : Int32) (firmware : Option FieldType) : Prop where
  ne_null : firmware ≠ some .null
  mode : supplementer.memberInstances fieldMode = some (.int32 mode)
  firmware : supplementer.memberInstances fieldType = firmware

section

variable {isStatic : UInt64 → Bool} {supplementer : Instance} {hash : UInt64} {mode : Int32}
  {firmware : Option FieldType} {fields : Store Bytes FieldType} {others : Override}

/-- What a setter writes. -/
@[simp]
theorem assign_self {memberName : Bytes} {value : FieldType} :
    assign memberName value memberName = some value :=
  if_pos rfl

/-- A setter writes one member. -/
theorem assign_of_ne {memberName other : Bytes} {value : FieldType} (h : other ≠ memberName) :
    assign memberName value other = none :=
  if_neg h

/-- The boot fields are apart. -/
theorem bootFields_apart : fieldBootOverrideType ≠ fieldMode ∧ fieldBootOverrideType ≠ fieldType ∧
    fieldMode ≠ fieldType := by
  decide

/-- None of the boot fields is about the object itself. -/
theorem bootFields_supplied : ∀ field ∈ bootFields, (bytes "__meta_").isPrefixOf field = false := by
  decide

/-- A boot field is supplied to objects of both kinds. -/
theorem supplied_bootField {static : Bool} {field : Bytes} (h : field ∈ bootFields) :
    supplementer.supplied static field =
      (supplementer.memberInstances field).map fun value => Field.getValue (some value) := by
  rw [Instance.supplied, bootFields_supplied field h, Bool.and_false]
  rfl

/-- The getter finds the mode. -/
theorem Offers.getFieldMode (h : Offers supplementer mode firmware) :
    getFieldMode supplementer = .ok mode := by
  rw [HostBootProvider.getFieldMode, Instance.getField, h.mode]

/-- The mode is supplied. -/
theorem Offers.supplied_mode (h : Offers supplementer mode firmware) {static : Bool} :
    supplementer.supplied static fieldMode = some (.int32 mode) := by
  rw [supplied_bootField (by simp [bootFields]), h.mode]
  rfl

/-- The firmware is supplied where there is one. -/
theorem Offers.supplied_firmware (h : Offers supplementer mode firmware) {static : Bool} :
    supplementer.supplied static fieldType = firmware := by
  rw [supplied_bootField (by simp [bootFields]), h.firmware]
  cases hfirmware : firmware with
  | none => rfl
  | some value =>
      have hnull : value ≠ .null := fun heq => h.ne_null (heq ▸ hfirmware)
      cases value with
      | null => exact absurd rfl hnull
      | _ => rfl

/-- After the reset there is no override. -/
theorem shows_reset : Shows (fields.write reset) ⟨BootOverrideType.none, Mode.none, .null⟩ := by
  obtain ⟨hmode, htype, hboth⟩ := bootFields_apart
  constructor
  · simp [reset, assign_of_ne hmode, assign_of_ne htype]
  · simp [reset, assign_of_ne hboth]
  · simp [reset]

/-- The first rule erases what the fields were. -/
theorem Offers.shows_linkHostBoot (h : Offers supplementer mode firmware) :
    (linkHostBoot isStatic supplementer hash fields).raised = none ∧
      Shows (fields.write (linkHostBoot isStatic supplementer hash fields).written)
        (everyBoot mode firmware) := by
  simp only [linkHostBoot, h.getFieldMode, everyBoot]
  by_cases hmode : mode = Mode.none
  · rw [if_neg (not_not.mpr hmode), if_pos hmode]
    exact ⟨rfl, shows_reset⟩
  · rw [if_pos hmode, if_neg hmode]
    obtain ⟨hfirst, hlast, -⟩ := bootFields_apart
    refine ⟨rfl, ⟨?_, ?_, ?_⟩⟩
    · simp
    · simp [assign_of_ne hfirst.symm, h.supplied_mode]
    · have hreset : reset fieldType = some .null := by simp [reset]
      simp only [Store.write_apply, assign_of_ne hlast.symm, h.supplied_firmware, hreset]
      cases firmware <;> rfl

/-- The second rule leaves the fields or puts its settings in their place. -/
theorem Offers.shows_linkHostBootOnce (h : Offers supplementer mode firmware) {oneTime : Bool}
    (hone : getFieldOneTime supplementer = .ok oneTime) (hothers : Shows fields others) :
    (linkHostBootOnce isStatic supplementer hash fields).raised = none ∧
      Shows (fields.write (linkHostBootOnce isStatic supplementer hash fields).written)
        (nextBoot mode firmware oneTime others) := by
  have hunwritten : fields.write (fun _ => none) = fields := by
    funext field
    exact Option.none_or
  have hboots : bootsOnce supplementer = .ok (decide (mode ≠ Mode.none ∧ oneTime = true)) := by
    rw [bootsOnce, h.getFieldMode]
    by_cases hmode : mode = Mode.none
    · simp [hmode, bind, Except.bind, pure, Except.pure]
    · simp [hmode, bind, Except.bind, hone]
  simp only [linkHostBootOnce, hboots, nextBoot]
  by_cases hactive : mode ≠ Mode.none ∧ oneTime = true
  · rw [if_pos hactive, decide_eq_true hactive]
    obtain ⟨hfirst, hlast, -⟩ := bootFields_apart
    refine ⟨rfl, ⟨?_, ?_, ?_⟩⟩
    · simp
    · simp [assign_of_ne hfirst.symm, h.supplied_mode]
    · simp only [Store.write_apply, assign_of_ne hlast.symm, h.supplied_firmware,
        hothers.firmware]
      cases firmware <;> rfl
  · rw [if_neg hactive, decide_eq_false hactive]
    refine ⟨rfl, ?_⟩
    dsimp only
    rw [hunwritten]
    exact hothers

end

/-! ## Settings that follow their objects -/

/-- A settings object with a history whose signals all settle. -/
structure SettledHistory (oneTime : Bool) where
  object : WatchedObject types
  history : List (PropertyChange types)
  settles : ∀ before change rest, history = before ++ change :: rest →
    Settles ((bootQuery oneTime).after object before) change

namespace SettledHistory

variable {oneTime : Bool}

/-- The instance with its object after the history. -/
def following (settings : SettledHistory oneTime) : Following types :=
  (bootQuery oneTime).after settings.object settings.history

/-- The object with its present properties. -/
def current (settings : SettledHistory oneTime) : WatchedObject types :=
  settings.following.object

/-- The instance that the provider has. -/
def provided (settings : SettledHistory oneTime) (hash : UInt64) : Instance where
  hash := hash
  memberInstances := settings.following.self.memberInstances

/-- The mode of the instance is that of the settings. -/
theorem modeCurrent (settings : SettledHistory oneTime) : ModeCurrent settings.following := by
  have hquery := settings_bootQuery oneTime
  refine (@after_always_iff _ _ _ ModeCurrent _ hquery.load_mode ?_ settings.history).mpr
    settings.settles settings.history [] (List.append_nil _).symm
  intro history hcurrent change
  exact (HostBootProvider.tracks_after hquery history).modeCurrent_follow_iff hquery hcurrent

/-- The instance offers what the object has. -/
theorem offers (settings : SettledHistory oneTime) (hash : UInt64) :
    Offers (settings.provided hash) (currentMode settings.current)
      (firmwareOf settings.current) := by
  have hquery := settings_bootQuery oneTime
  refine ⟨?_, settings.modeCurrent, ?_⟩
  · rw [firmwareOf]
    intro hnull
    obtain ⟨value, -, hvalue⟩ := Option.bind_eq_some_iff.mp hnull
    split at hvalue
    · next formatted _ => exact formatted.2 (Option.some.inj hvalue)
    · cases hvalue
  · have hkept : ∀ self, ((bootQuery oneTime).supplementByStaticFields self).2.memberInstances
        fieldType = self.memberInstances fieldType := by
      intro self
      rw [hquery.supplement]
      exact writes_supplement.others fieldType (by decide)
    exact (@after_member _ _ _ typeSetter _ hquery.orderly (hquery.accepts _) hquery.type hkept
      settings.history).trans (reflectedValue_of_formatter hquery.orderly hquery.type rfl)

/-- The getter finds whether the settings are enabled. -/
theorem getFieldOneTime (settings : SettledHistory true) (hash : UInt64) :
    getFieldOneTime (settings.provided hash) = .ok (isEnabled settings.current) := by
  have hquery := settings_bootQuery true
  have hsetter : (enableIface, oneTimeSetter) ∈ (bootQuery true).reflections := by
    simp [bootQuery, EndpointQuery.reflections, HostBootOnceProvider.query]
  have hkept : ∀ self, ((bootQuery true).supplementByStaticFields self).2.memberInstances
      fieldOneTime = self.memberInstances fieldOneTime :=
    fun self => writes_supplement.others fieldOneTime (by decide)
  have hmember : (settings.provided hash).memberInstances fieldOneTime =
      ((settings.current.get enableIface).lookup propertyEnabled).map Subtype.val :=
    (@after_member _ _ _ oneTimeSetter _ hquery.orderly (hquery.accepts _) hsetter hkept
      settings.history).trans (reflectedValue_of_formatters hquery.orderly hsetter rfl)
  rw [HostBootOnceProvider.getFieldOneTime, Instance.getField, hmember, isEnabled]
  cases hlookup : (settings.current.get enableIface).lookup propertyEnabled with
  | none => rfl
  | some value =>
      obtain ⟨enabled, henabled⟩ := Option.isSome_iff_exists.mp
        (((typed_get settings.current enableIface).of_lookup hlookup).2 rfl)
      obtain ⟨alternative, hnull⟩ := value
      cases alternative with
      | bool found => rfl
      | _ => simp [DbusVariant.getBool] at henabled

end SettledHistory

/-! ## Reads of the server -/

section

variable {w : Surroundings} {instances servers : List Instance} {object server : Instance}
  {conditions : List Condition}

/-- A read of one object returns it. -/
theorem readInstances_single {writers : UInt64 → List (Writer Bytes FieldType Exception)}
    (h : object.refreshed writers = (server, none)) :
    (readInstances writers [] [object]).2 = .ok [server] := by
  rw [readInstances, h]
  rfl

/-- What is read was left by its writers without an exception. -/
theorem refreshed_of_mem {writers : UInt64 → List (Writer Bytes FieldType Exception)}
    (h : (readInstances writers conditions instances).2 = .ok servers) (hmem : server ∈ servers) :
    ∃ object ∈ instances, object.refreshed writers = (server, none) := by
  induction instances generalizing servers with
  | nil =>
      cases h
      exact absurd hmem List.not_mem_nil
  | cons object rest ih =>
      rw [readInstances] at h
      rcases hrefreshed : object.refreshed writers with ⟨instance_, _ | exception⟩
      · rw [hrefreshed] at h
        dsimp only at h
        cases hchecked : checkConditions conditions instance_ with
        | error exception => simp [hchecked] at h
        | ok passed =>
            rw [hchecked] at h
            dsimp only at h
            cases hlater : (readInstances writers conditions rest).2 with
            | error exception => simp [hlater, Except.map] at h
            | ok later =>
                simp only [hlater, Except.map, Except.ok.injEq] at h
                have hcases : server = instance_ ∨ server ∈ later := by
                  subst h
                  split at hmem
                  · exact List.mem_cons.mp hmem
                  · exact .inr hmem
                rcases hcases with rfl | hlaterMem
                · exact ⟨object, List.mem_cons_self, hrefreshed⟩
                · obtain ⟨other, hother, heq⟩ := ih hlater hlaterMem
                  exact ⟨other, List.mem_cons_of_mem _ hother, heq⟩
      · rw [hrefreshed] at h
        cases h

/-- The writers of the providers in their order. -/
def linkWriters (linked : List Linked) (hash : UInt64) : List (Writer Bytes FieldType Exception) :=
  linked.flatMap fun linked => linked.instances.map fun supplement => linked.rule supplement hash

/-- The writers of a read of the server. -/
theorem writers_server (hosts onces : List Instance) (hash : UInt64) :
    (serverRules w).writers (supplemented w instances hosts onces).provided hash =
      (w.initDefaultFieldsValue hash :: w.verifyState hash :: linkWriters w.earlier hash) ++
        ((hosts.map fun host => linkHostBoot w.isStatic host hash) ++
          ((onces.map fun once => linkHostBootOnce w.isStatic once hash) ++
            linkWriters w.later hash)) := by
  have hrules : (serverRules w).providers = (providers w hosts onces).map Linked.rule := by
    simp [serverRules, providers]
  rw [SupplementRules.writers, hrules, supplemented, List.zip_map']
  simp [serverRules, providers, linkWriters, List.flatMap_map]

/-- The writers are those of the providers' instances. -/
theorem mem_linkWriters {linked : List Linked} {hash : UInt64}
    {writer : Writer Bytes FieldType Exception} :
    writer ∈ linkWriters linked hash ↔
      ∃ provider ∈ linked, ∃ supplement ∈ provider.instances,
        provider.rule supplement hash = writer := by
  simp [linkWriters]

/-- The fields of the override are those that the two rules leave, whatever the object had
before. -/
theorem refreshed_override (hapart : w.Apart) {host : Instance} {onces : List Instance}
    {mode : Int32} {firmware : Option FieldType} (hoffers : Offers host mode firmware)
    (h : object.refreshed ((serverRules w).writers
      (supplemented w instances [host] onces).provided) = (server, none)) :
    ∃ fields left, Shows fields (everyBoot mode firmware) ∧
      runWriters (onces.map fun once => linkHostBootOnce w.isStatic once object.hash) fields =
        (left, none) ∧
      ∀ field ∈ bootFields, server.memberInstances field = left field := by
  rw [Instance.refreshed, writers_server] at h
  rcases hrun : runWriters _ object.memberInstances with ⟨last, raised⟩
  rw [hrun] at h
  obtain ⟨rfl, rfl⟩ := Prod.mk.inj h
  obtain ⟨before, -, hlinked⟩ := runWriters_append hrun
  obtain ⟨fields, hhost, hnext⟩ := runWriters_append hlinked
  obtain ⟨left, honce, hlater⟩ := runWriters_append hnext
  obtain ⟨-, rfl⟩ := runWriters_singleton hhost
  refine ⟨_, left, hoffers.shows_linkHostBoot.2, honce, ?_⟩
  intro field hfield
  have hother := @runWriters_other _ _ _ (linkWriters w.later object.hash) left field
    fun writer hwriter store => by
      obtain ⟨linked, hlinked, supplement, hsupplement, rfl⟩ := mem_linkWriters.mp hwriter
      exact hapart linked hlinked supplement hsupplement object.hash store field hfield
  rw [hlater] at hother
  exact hother

/-- Only the boot fields count. -/
theorem Shows.congr {fields fields' : Store Bytes FieldType} {shown : Override}
    (h : Shows fields shown) (hsame : ∀ field ∈ bootFields, fields' field = fields field) :
    Shows fields' shown where
  overrideType := (hsame _ (by simp [bootFields])).trans h.overrideType
  mode := (hsame _ (by simp [bootFields])).trans h.mode
  firmware := (hsame _ (by simp [bootFields])).trans h.firmware

/-- Whatever earlier reads have left in the server, a read shows the override that the
properties on the bus say, as long as the signals of both objects have settled. -/
theorem override_shown (hapart : w.Apart) (host : SettledHistory false)
    (once : Option (SettledHistory true)) {hash onceHash : UInt64}
    (h : ((supplemented w instances [host.provided hash]
      (once.map fun settings => settings.provided onceHash).toList).getInstances (serverRules w)
        conditions).2 = .ok servers) :
    ∀ server ∈ servers, Shows server.memberInstances
      (override host.current (once.map SettledHistory.current)) := by
  intro server hmem
  obtain ⟨object, -, hrefreshed⟩ := refreshed_of_mem h hmem
  obtain ⟨fields, left, hshows, honce, hsame⟩ :=
    refreshed_override hapart (host.offers hash) hrefreshed
  refine Shows.congr ?_ hsame
  cases once with
  | none =>
      cases honce
      exact hshows
  | some settings =>
      obtain ⟨-, rfl⟩ := runWriters_singleton honce
      exact ((settings.offers onceHash).shows_linkHostBootOnce
        (settings.getFieldOneTime onceHash) hshows).2

end

/-! ## A host that boots over the network once -/

/-- The host always boots into its setup. -/
def setupObject : WatchedObject types where
  serviceName := bytes "xyz.openbmc_project.Settings"
  objectPath := bytes "/xyz/openbmc_project/control/host0/boot"
  interfaces := [modeIface]
  properties := fun _ =>
    [(propertyBootMode, .string (bytes "xyz.openbmc_project.Control.Boot.Mode.Modes.Setup"))]
  typed _ := by
    intro property hproperty
    rw [List.mem_singleton] at hproperty
    subst hproperty
    exact ⟨fun _ => rfl, fun h => absurd h (by decide)⟩

/-- A source by its name. -/
def sourceText (source : String) : DbusVariant :=
  .string (bytes "xyz.openbmc_project.Control.Boot.Source.Sources." ++ bytes source)

/-- The next boot is from the disk. -/
def diskSettings : DBusPropertiesMap :=
  [(propertyBootSource, sourceText "Disk"), (propertyEnabled, ⟨.bool true, nofun⟩)]

/-- The properties have the types of the bus. -/
theorem typed_diskSettings (interface : Bytes) : Typed types interface diskSettings := by
  intro property hproperty
  simp only [diskSettings, List.mem_cons, List.not_mem_nil, or_false] at hproperty
  rcases hproperty with rfl | rfl
  · exact ⟨fun _ => rfl, fun h => absurd h (by decide)⟩
  · exact ⟨fun h => absurd h (by decide), fun _ => rfl⟩

/-- The settings object for the next boot. -/
def diskObject : WatchedObject types where
  serviceName := bytes "xyz.openbmc_project.Settings"
  objectPath := bytes "/xyz/openbmc_project/control/host0/boot/one_time"
  interfaces := [sourceIface, enableIface]
  properties _ := diskSettings
  typed := typed_diskSettings

/-- The next boot is over the network instead. -/
def networkChosen : PropertyChange types where
  interfaceName := sourceIface
  changedValues := [(propertyBootSource, sourceText "Network")]
  typed := by
    intro property hproperty
    rw [List.mem_singleton] at hproperty
    subst hproperty
    exact ⟨fun _ => rfl, fun h => absurd h (by decide)⟩

/-- The settings of every boot do not change. -/
def setupHost : SettledHistory false where
  object := setupObject
  history := []
  settles := by
    intro before change rest heq
    simp at heq

/-- The source of the next boot changes. -/
def networkOnce : SettledHistory true where
  object := diskObject
  history := [networkChosen]
  settles := by
    intro before change rest heq
    obtain ⟨rfl, hlast⟩ := List.append_eq_singleton_iff.mp heq.symm |>.resolve_right (by simp)
    cases hlast
    decide +kernel

/-- The server has no other providers, and an earlier read has left the mode of the setup. -/
def plainServer : Surroundings where
  isStatic _ := false
  initDefaultFieldsValue := writesNothing
  verifyState := writesNothing
  earlier := []
  later := []

/-- An earlier read has left the setup as the mode. -/
def readServer : Instance where
  hash := 1
  memberInstances := assign fieldMode (.int32 Mode.biosSetup)

/-- The server shows the network as the source of the next boot. -/
theorem override_shown_network :
    ∃ server, ((supplemented plainServer [readServer] [setupHost.provided 2]
        [networkOnce.provided 3]).getInstances (serverRules plainServer) []).2 = .ok [server] ∧
      Shows server.memberInstances ⟨BootOverrideType.once, Mode.pxe, .null⟩ := by
  rcases hrefreshed : readServer.refreshed ((serverRules plainServer).writers
    (supplemented plainServer [readServer] [setupHost.provided 2]
      [networkOnce.provided 3]).provided) with ⟨server, raised⟩
  obtain rfl : raised = none := by
    rw [show raised = (server, raised).2 from rfl, ← hrefreshed]
    decide +kernel
  have hresult : ((supplemented plainServer [readServer] [setupHost.provided 2]
      [networkOnce.provided 3]).getInstances (serverRules plainServer) []).2 = .ok [server] :=
    readInstances_single hrefreshed
  have hoverride : override setupHost.current ((some networkOnce).map SettledHistory.current) =
      ⟨BootOverrideType.once, Mode.pxe, .null⟩ := by
    decide +kernel
  refine ⟨server, hresult, ?_⟩
  rw [← hoverride]
  exact override_shown (fun _ hmem => absurd hmem List.not_mem_nil) setupHost (some networkOnce)
    hresult server (List.mem_singleton_self server)

/-! ## Rules that reset -/

/-- The providers whose rules reset what they link, and that of the boot settings, on which one of
them decides.  The server is an object of the bus. -/
def bootRules : SupplementRules where
  isStatic _ := false
  initDefaultFieldsValue := writesNothing
  verifyState := writesNothing
  providers := [defaultLinkProvider fun _ => false, linkRebootAttempts fun _ => false,
    linkHostBoot fun _ => false]

/-- The fields that the three rules write. -/
def resetFields : List Bytes :=
  fieldRetryConfig :: fieldAttemptsLeft :: bootFields

/-- What is supplied is one of the fields. -/
def SuppliesOnly (supplementer : Instance) (memberNames : List Bytes) : Prop :=
  ∀ memberName, memberName ∉ memberNames → supplementer.supplied false memberName = none

/-- The instances of the three providers, with the fields that each has on the bus. -/
structure BootInstances where
  settings : Instance
  remaining : Instance
  host : Instance
  config : Int32
  settings_config : settings.memberInstances fieldRetryConfig = some (.int32 config)
  settings_only : SuppliesOnly settings [fieldRetryConfig]
  remaining_only : SuppliesOnly remaining [fieldAttemptsLeft]
  mode : Int32
  host_mode : getFieldMode host = .ok mode
  host_only : SuppliesOnly host [fieldMode, fieldType]

/-- What the providers have. -/
def BootInstances.provided (boot : BootInstances) : List (List Instance) :=
  [[boot.settings], [boot.remaining], [boot.host]]

section

variable {boot : BootInstances} {hash : UInt64}

/-- The writers of a read under the three rules. -/
theorem writers_boot : bootRules.writers boot.provided hash =
    [writesNothing hash, writesNothing hash,
      defaultLinkProvider (fun _ => false) boot.settings hash,
      linkRebootAttempts (fun _ => false) boot.remaining hash,
      linkHostBoot (fun _ => false) boot.host hash] :=
  rfl

/-- {lit}`linkHostBoot` writes the same into every object. -/
theorem constant_linkHostBoot : Constant (linkHostBoot (fun _ => false) boot.host hash) := by
  refine ⟨(linkHostBoot (fun _ => false) boot.host hash fun _ => none).written, ?_⟩
  funext fields
  simp only [linkHostBoot, boot.host_mode]
  split <;> rfl

/-- {lit}`linkRebootAttempts` looks at the policy alone. -/
theorem reads_linkRebootAttempts {keys : Bytes → Prop} (hkeys : keys fieldRetryConfig) :
    Reads keys (linkRebootAttempts (fun _ => false) boot.remaining hash) := by
  intro store own hsame
  simp only [linkRebootAttempts, getFieldRetryConfig, Instance.getField, hsame _ hkeys]

/-- The policy is supplied. -/
theorem supplied_retryConfig :
    boot.settings.supplied false fieldRetryConfig = some (.int32 boot.config) := by
  rw [Instance.supplied, boot.settings_config]
  rfl

/-- The default rule takes over the configuration of the settings. -/
theorem resets_retryConfig :
    Resets (defaultLinkProvider (fun _ => false) boot.settings hash) fieldRetryConfig := by
  intro store _
  simp [defaultLinkProvider, supplied_retryConfig]

/-- {lit}`linkRebootAttempts` resets the attempts. -/
theorem resets_attemptsLeft :
    Resets (linkRebootAttempts (fun _ => false) boot.remaining hash) fieldAttemptsLeft := by
  intro store hreturns
  simp only [linkRebootAttempts] at hreturns ⊢
  cases hconfig : getFieldRetryConfig ⟨hash, store⟩ with
  | error exception => simp [hconfig] at hreturns
  | ok config =>
      dsimp only
      split <;> simp

/-- {lit}`linkHostBoot` resets the boot fields. -/
theorem resets_bootFields {field : Bytes} (hfield : field ∈ bootFields) :
    Resets (linkHostBoot (fun _ => false) boot.host hash) field := by
  intro store _
  have hreset : reset field ≠ none := by
    simp only [bootFields, List.mem_cons, List.not_mem_nil, or_false] at hfield
    rcases hfield with rfl | rfl | rfl <;> decide
  simp only [linkHostBoot, boot.host_mode]
  split
  · simp [hreset]
  · exact hreset

/-- The rules read nothing that an earlier read may have left. -/
theorem readsFixed_boot {fixed : Bytes → Prop} :
    ReadsFixed fixed (bootRules.writers boot.provided hash) := by
  have hnothing : Constant (writesNothing hash) := ⟨_, rfl⟩
  have hdefault : Constant (defaultLinkProvider (fun _ => false) boot.settings hash) := ⟨_, rfl⟩
  rw [writers_boot]
  exact ⟨hnothing.reads _, hnothing.reads _, hdefault.reads _,
    reads_linkRebootAttempts (.inr resets_retryConfig), constant_linkHostBoot.reads _, trivial⟩

/-- {lit}`linkRebootAttempts` returns where the policy is a number. -/
theorem returns_linkRebootAttempts {fields : Store Bytes FieldType} {config : Int32}
    (h : fields fieldRetryConfig = some (.int32 config)) :
    (linkRebootAttempts (fun _ => false) boot.remaining hash fields).raised = none := by
  simp only [linkRebootAttempts, getFieldRetryConfig, Instance.getField, h]
  split <;> rfl

/-- No rule raises. -/
theorem returns_boot {store : Store Bytes FieldType} :
    (together (bootRules.writers boot.provided hash) store).raised = none := by
  obtain ⟨written, hhost⟩ := @constant_linkHostBoot boot hash
  have hretry := @returns_linkRebootAttempts boot hash
    (store.write (boot.settings.supplied false)) boot.config (by simp [supplied_retryConfig])
  have hunwritten : store.write (fun _ => none) = store := funext fun _ => Option.none_or
  simp only [writers_boot, together, writesNothing, defaultLinkProvider, hunwritten, hretry, hhost]

/-- What the rules write is one of the fields that they reset. -/
theorem others_boot {writer : Writer Bytes FieldType Exception}
    (hwriter : writer ∈ bootRules.writers boot.provided hash) {store : Store Bytes FieldType}
    {memberName : Bytes} (hname : memberName ∉ resetFields) :
    (writer store).written memberName = none := by
  simp only [resetFields, bootFields, List.mem_cons, List.not_mem_nil, or_false, not_or] at hname
  obtain ⟨hconfig, hattempts, htype, hmode, hfirmware⟩ := hname
  rw [writers_boot] at hwriter
  simp only [List.mem_cons, List.not_mem_nil, or_false] at hwriter
  rcases hwriter with rfl | rfl | rfl | rfl | rfl
  · rfl
  · rfl
  · exact boot.settings_only memberName (by simpa using hconfig)
  · have hsupplied := boot.remaining_only memberName (by simpa using hattempts)
    simp only [linkRebootAttempts]
    cases getFieldRetryConfig ⟨hash, store⟩ with
    | error exception => rfl
    | ok config =>
        dsimp only
        split <;> simp [hsupplied, assign_of_ne hattempts]
  · have hsupplied := boot.host_only memberName (by simp [hmode, hfirmware])
    simp only [linkHostBoot, boot.host_mode, reset]
    split <;> simp [hsupplied, assign_of_ne htype, assign_of_ne hmode, assign_of_ne hfirmware]

/-- The three rules reset what they write. -/
theorem resetting_boot (boot : BootInstances) :
    Resetting bootRules (· ∈ resetFields) boot.provided where
  reads := fun _ => readsFixed_boot
  others := fun _ _ hwriter _ _ hname => others_boot hwriter hname
  returns := fun _ _ => returns_boot
  reset := by
    intro hash memberName hname
    rw [writers_boot]
    simp only [resetFields, List.mem_cons] at hname
    rcases hname with rfl | rfl | hboot
    · exact ⟨_, by simp, @resets_retryConfig boot hash⟩
    · exact ⟨_, by simp, @resets_attemptsLeft boot hash⟩
    · exact ⟨_, by simp, @resets_bootFields boot hash _ hboot⟩

/-- Whatever the three providers have at each time, a read of the server returns what it would
without the reads before it. -/
theorem earlier_boot_reads_do_not_matter {first : BootInstances} {rest : List Event}
    (hprovides : ∀ provided, .provide provided ∈ rest →
      ∃ boot : BootInstances, boot.provided = provided) (conditions : List Condition) :
    ((Supplemented.after bootRules (.provide first.provided :: rest)).getInstances bootRules
        conditions).2 =
      ((Supplemented.after bootRules (withoutReads (.provide first.provided :: rest))).getInstances
        bootRules conditions).2 := by
  apply Tracks.getInstances_eq
  apply tracks_after
  apply @allKeep_of_resetting _ (· ∈ resetFields)
  refine List.forall_mem_cons.mpr ⟨resetting_boot first, ?_⟩
  intro event hmem
  cases event with
  | provide provided =>
      obtain ⟨boot, rfl⟩ := hprovides provided hmem
      exact resetting_boot boot
  | _ => exact trivial

end

end Server
end Entity
end ObmcWebapp
