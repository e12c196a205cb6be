import ObmcWebapp.Entity.DBusInstance
import ObmcWebapp.Entity.ListenPort

/-!
# Entity - Network protocols from the units of systemd

{lit}`NetworkProtocol` asks systemd for its units.  Each unit whose name starts like that of
an observed service gives an instance of the service's protocol, two protocols have no
unit and are added behind, and the cache keeps one instance for each key.  The key comes
from the protocol alone: of several units of a protocol the last one stays.

The port of an instance is that of the unit's own socket.  {lit}`setSnmpPort` is called only
for the two protocols without a unit, and neither is the one it looks for.

Main results:

- Theorem {lit}`mem_cache_of_last`: an instance that stays in the cache.
- Theorem {lit}`cache_aggregates_iff`: when the cache sums up the units of each protocol.
-/

open Library

namespace ObmcWebapp
namespace Entity
namespace NetworkProtocol

/-! ## Units and instances -/

/-- The protocols. -/
inductive Purpose
  | ssh
  | ipmi
  | ipmisol
  | kvmip
  | https
  | sol
  | snmp
  | ntp
  | unknown
deriving DecidableEq

/-- The value of the enumerator. -/
def Purpose.toInt : Purpose → Int
  | .ssh => 0
  | .ipmi => 1
  | .ipmisol => 2
  | .kvmip => 3
  | .https => 4
  | .sol => 5
  | .snmp => 6
  | .ntp => 7
  | .unknown => 8

/-- The elements of {lit}`UnitMeta` that are read. -/
structure UnitMeta where
  unitName : Bytes
  unitState : Bytes
  socketPath : Bytes
deriving DecidableEq

/-- An instance with its three fields; the port may be missing. -/
structure NetworkInstance where
  purpose : Purpose
  enabled : Bool
  port : Option UInt16
deriving DecidableEq

/-- {lit}`getFieldPort`, with its default. -/
def NetworkInstance.getFieldPort (instance_ : NetworkInstance) : UInt16 :=
  instance_.port.getD 0

/-- What is asked for besides the units: the sockets, where a call may fail, and the first
instances of two other entities, if they have any. -/
structure Surroundings where
  lib : CLibrary
  listen : (socketPath : Bytes) → Option SocketListenList
  /-- {lit}`TimeSyncMethod` of {lit}`NtpProtocol` is {lit}`ntp`. -/
  timeSyncNtp : Option Bool
  /-- {lit}`Port` of {lit}`SnmpProtocol`. -/
  snmpPort : Option UInt16

/-! ## The query -/

/-- The units whose service is the protocol. -/
def protocolFromService : List Bytes :=
  [bytes "start-ipkvm", bytes "snmpd", bytes "lighttpd."]

/-- In the order of the map's keys. -/
def observedServices : List (Purpose × Bytes) :=
  [(.ssh, bytes "dropbear"), (.ipmi, bytes "phosphor-ipmi-net"), (.kvmip, bytes "start-ipkvm"),
    (.https, bytes "lighttpd."), (.sol, bytes "obmc-console-ssh"), (.snmp, bytes "snmpd")]

/-- The protocols that are always there. -/
def defaultProtoList : List Purpose :=
  [.ipmisol, .ntp]

/-- The units that are looked at. -/
def UnitMeta.isProtocol (unitMeta : UnitMeta) : Bool :=
  (bytes ".socket").isSuffixOf unitMeta.unitName ||
    protocolFromService.any fun svcName => svcName.isPrefixOf unitMeta.unitName

/-- The unit runs or listens. -/
def UnitMeta.isActive (unitMeta : UnitMeta) : Bool :=
  unitMeta.unitState = bytes "running" || unitMeta.unitState = bytes "listening"

/-- {lit}`PortQuery::process`: a failed call has no instances. -/
def portInstances (surroundings : Surroundings) (socketPath : Bytes) : List PortInstance :=
  match surroundings.listen socketPath with
  | none => []
  | some response => PortQuery.populateInstances surroundings.lib response

/-- The port that {lit}`setPort` finds. -/
def servicePort (surroundings : Surroundings) (purpose : Purpose) (unitMeta : UnitMeta) :
    Option UInt16 :=
  if purpose = .https then some 443
  else (portInstances surroundings unitMeta.socketPath).head?.map PortInstance.port

/-- The port of a protocol, where one is found. -/
def setPort (surroundings : Surroundings) (unitMeta : UnitMeta) (instance_ : NetworkInstance) :
    NetworkInstance :=
  match servicePort surroundings instance_.purpose unitMeta with
  | none => instance_
  | some port => { instance_ with port := some port }

/-- An instance before anything is known. -/
def buildInstance (purpose : Purpose) : NetworkInstance where
  purpose := purpose
  enabled := false
  port := none

/-- An instance for a unit. -/
def unitInstance (surroundings : Surroundings) (unitMeta : UnitMeta) (purpose : Purpose) :
    NetworkInstance :=
  setPort surroundings unitMeta { buildInstance purpose with enabled := unitMeta.isActive }

/-- The loop over the observed services. -/
def unitInstances (surroundings : Surroundings) (unitMeta : UnitMeta) : List NetworkInstance :=
  if unitMeta.isProtocol then
    (observedServices.filter fun service => service.2.isPrefixOf unitMeta.unitName).map
      fun service => unitInstance surroundings unitMeta service.1
  else []

/-- Whether the time is taken from the network. -/
def setNtpEnabled (surroundings : Surroundings) (instance_ : NetworkInstance) : NetworkInstance :=
  if instance_.purpose ≠ .ntp then instance_
  else
    match surroundings.timeSyncNtp with
    | none => instance_
    | some enabled => { instance_ with enabled }

/-- The port of the agent, where it has one. -/
def setSnmpPort (surroundings : Surroundings) (instance_ : NetworkInstance) : NetworkInstance :=
  if instance_.purpose ≠ .snmp then instance_
  else
    match surroundings.snmpPort with
    | none => instance_
    | some port => { instance_ with port := some port }

/-- {lit}`setStaticProto` -/
def staticProto (surroundings : Surroundings) : List NetworkInstance :=
  defaultProtoList.map fun purpose =>
    setSnmpPort surroundings (setNtpEnabled surroundings (buildInstance purpose))

/-- The instances for the units, then those that are always there. -/
def populateInstances (surroundings : Surroundings) (response : List UnitMeta) :
    List NetworkInstance :=
  response.flatMap (unitInstances surroundings) ++ staticProto surroundings

/-! ## The cache -/

/-- The service of the units. -/
def serviceName : Bytes := bytes "org.freedesktop.systemd1"

/-- The object that lists the units. -/
def object : Bytes := bytes "/org/freedesktop/systemd1"

/-- The text that is hashed for a protocol. -/
def buildIdentityField (purpose : Purpose) : Bytes :=
  object ++ bytes "NetworkProtoId_" ++ decimal purpose.toInt

/-- {lit}`DBusInstance::getHash` of an instance. -/
def key (stdHash : Bytes → UInt64) (instance_ : NetworkInstance) : UInt64 :=
  getHash stdHash serviceName (buildIdentityField instance_.purpose)

/-- {lit}`setInstances` into the cache, which was reset. -/
def cache (stdHash : Bytes → UInt64) (surroundings : Surroundings) (response : List UnitMeta) :
    Table (key stdHash) :=
  Table.empty.insertOrAssignAll (populateInstances surroundings response)

/-! ## What the cache is to hold -/

/-- The unit is one of the protocol. -/
def Matches (purpose : Purpose) (unitMeta : UnitMeta) : Prop :=
  unitMeta.isProtocol = true ∧
    ∃ svcStartName, (purpose, svcStartName) ∈ observedServices ∧ svcStartName <+: unitMeta.unitName

/-- The protocol has a unit, or needs none. -/
def Present (response : List UnitMeta) (purpose : Purpose) : Prop :=
  purpose ∈ defaultProtoList ∨ ∃ unitMeta ∈ response, Matches purpose unitMeta

/-- One instance for each protocol, in any order of the units the same, enabled by any of the
protocol's units, and with the port of {lit}`SnmpProtocol`. -/
structure Aggregates (stdHash : Bytes → UInt64) (surroundings : Surroundings)
    (response : List UnitMeta) : Prop where
  instances : ∀ purpose, (∃ instance_ ∈ cache stdHash surroundings response,
    instance_.purpose = purpose) ↔ Present response purpose
  single : ∀ instance_ ∈ cache stdHash surroundings response,
    ∀ other ∈ cache stdHash surroundings response,
      instance_.purpose = other.purpose → instance_ = other
  order : ∀ reordered : List UnitMeta, reordered.Perm response → ∀ instance_,
    instance_ ∈ cache stdHash surroundings reordered ↔
      instance_ ∈ cache stdHash surroundings response
  enabled : ∀ unitMeta ∈ response, ∀ purpose, Matches purpose unitMeta →
    ∀ instance_ ∈ cache stdHash surroundings response, instance_.purpose = purpose →
      (instance_.enabled = true ↔ ∃ other ∈ response, Matches purpose other ∧ other.isActive)
  snmp : ∀ port, surroundings.snmpPort = some port →
    ∀ instance_ ∈ cache stdHash surroundings response, instance_.purpose = .snmp →
      instance_.getFieldPort = port

/-- Different protocols that are there have different keys. -/
def KeysDiffer (stdHash : Bytes → UInt64) (response : List UnitMeta) : Prop :=
  ∀ purpose, Present response purpose → ∀ other, Present response other →
    getHash stdHash serviceName (buildIdentityField purpose) =
      getHash stdHash serviceName (buildIdentityField other) → purpose = other

/-- The protocols that are there have different keys, the units of a protocol agree, and
the sockets of SNMP have the configured port. -/
structure UnitsAgree (stdHash : Bytes → UInt64) (surroundings : Surroundings)
    (response : List UnitMeta) : Prop where
  keys : KeysDiffer stdHash response
  units : ∀ purpose, ∀ unitMeta ∈ response, Matches purpose unitMeta →
    ∀ other ∈ response, Matches purpose other →
      unitMeta.isActive = other.isActive ∧
        servicePort surroundings purpose unitMeta = servicePort surroundings purpose other
  snmp : ∀ unitMeta ∈ response, Matches .snmp unitMeta → ∀ port,
    surroundings.snmpPort = some port →
      (servicePort surroundings .snmp unitMeta).getD 0 = port

/-! ## The instances of the units -/

section

variable {stdHash : Bytes → UInt64} {surroundings : Surroundings} {response : List UnitMeta}
  {unitMeta : UnitMeta} {instance_ : NetworkInstance} {purpose : Purpose}

/-- What an instance for a unit has. -/
theorem unitInstance_eq : unitInstance surroundings unitMeta purpose =
    { purpose, enabled := unitMeta.isActive, port := servicePort surroundings purpose unitMeta } := by
  simp only [unitInstance, setPort, buildInstance]
  split
  · next hport => simp [hport]
  · next port hport => simp [hport]

/-- Its protocol is the given one. -/
@[simp]
theorem unitInstance_purpose :
    (unitInstance surroundings unitMeta purpose).purpose = purpose := by
  rw [unitInstance_eq]

@[simp]
theorem unitInstance_enabled :
    (unitInstance surroundings unitMeta purpose).enabled = unitMeta.isActive := by
  rw [unitInstance_eq]

/-- Its port is that of the service. -/
@[simp]
theorem unitInstance_port : (unitInstance surroundings unitMeta purpose).port =
    servicePort surroundings purpose unitMeta := by
  rw [unitInstance_eq]

/-- A unit has an instance for each protocol that it matches. -/
theorem mem_unitInstances : instance_ ∈ unitInstances surroundings unitMeta ↔
    ∃ purpose, Matches purpose unitMeta ∧ instance_ = unitInstance surroundings unitMeta purpose := by
  simp only [unitInstances, Matches]
  split
  · next hprotocol => simp only [List.mem_map, List.mem_filter, List.isPrefixOf_iff_prefix]; grind
  · next hprotocol => simp [hprotocol]

/-- A protocol with units is not one of those that need none. -/
theorem Matches.not_mem_default (h : Matches purpose unitMeta) : purpose ∉ defaultProtoList := by
  obtain ⟨-, svcStartName, hmem, -⟩ := h
  simp only [observedServices, List.mem_cons, Prod.mk.injEq, List.not_mem_nil, or_false] at hmem
  simp only [defaultProtoList, List.mem_cons, List.not_mem_nil, or_false]
  grind

/-- An instance that is always there has the given protocol. -/
theorem static_purpose : (setSnmpPort surroundings
    (setNtpEnabled surroundings (buildInstance purpose))).purpose = purpose := by
  simp only [setSnmpPort, setNtpEnabled, buildInstance]
  grind

/-- The protocol is one of the list. -/
theorem mem_staticProto_purpose (h : instance_ ∈ staticProto surroundings) :
    instance_.purpose ∈ defaultProtoList := by
  obtain ⟨purpose, hpurpose, rfl⟩ := List.mem_map.mp h
  rwa [static_purpose]

/-- There is one instance for each. -/
theorem staticProto_inj {other : NetworkInstance} (h : instance_ ∈ staticProto surroundings)
    (hother : other ∈ staticProto surroundings) (hpurpose : instance_.purpose = other.purpose) :
    instance_ = other := by
  obtain ⟨purpose, -, rfl⟩ := List.mem_map.mp h
  obtain ⟨otherPurpose, -, rfl⟩ := List.mem_map.mp hother
  rw [static_purpose, static_purpose] at hpurpose
  rw [hpurpose]

/-- Where an instance comes from. -/
theorem mem_populateInstances : instance_ ∈ populateInstances surroundings response ↔
    (∃ unitMeta ∈ response, ∃ purpose, Matches purpose unitMeta ∧
      instance_ = unitInstance surroundings unitMeta purpose) ∨
        instance_ ∈ staticProto surroundings := by
  simp only [populateInstances, List.mem_append, List.mem_flatMap, mem_unitInstances]

/-- A protocol is present if and only if it has an instance. -/
theorem present_iff : Present response purpose ↔
    ∃ instance_ ∈ populateInstances surroundings response, instance_.purpose = purpose := by
  simp only [mem_populateInstances]
  constructor
  · rintro (hdefault | ⟨unitMeta, hmem, hmatches⟩)
    · exact ⟨_, Or.inr (List.mem_map_of_mem hdefault), static_purpose⟩
    · exact ⟨_, Or.inl ⟨unitMeta, hmem, purpose, hmatches, rfl⟩, unitInstance_purpose⟩
  · rintro ⟨instance_, ⟨unitMeta, hmem, other, hmatches, rfl⟩ | hstatic, rfl⟩
    · exact Or.inr ⟨unitMeta, hmem, by simpa using hmatches⟩
    · exact Or.inl (mem_staticProto_purpose hstatic)

/-! ## What stays in the cache -/

/-- What is cached was found. -/
theorem mem_cache (h : instance_ ∈ cache stdHash surroundings response) :
    instance_ ∈ populateInstances surroundings response :=
  (Table.mem_insertOrAssignAll h).resolve_right fun hold =>
    Table.not_mem_empty instance_ hold.1

/-- The order of the units does not matter. -/
theorem KeysDiffer.perm {reordered : List UnitMeta} (h : KeysDiffer stdHash response)
    (hperm : reordered.Perm response) : KeysDiffer stdHash reordered := by
  have hpresent : ∀ purpose, Present reordered purpose → Present response purpose := by
    rintro purpose (hdefault | ⟨unitMeta, hmem, hmatches⟩)
    · exact Or.inl hdefault
    · exact Or.inr ⟨unitMeta, hperm.mem_iff.mp hmem, hmatches⟩
  intro purpose hpurpose other hother hkey
  exact h purpose (hpresent purpose hpurpose) other (hpresent other hother) hkey

/-- The last unit of the reply leaves its instance in the cache. -/
theorem mem_cache_of_last (hkeys : KeysDiffer stdHash (response ++ [unitMeta]))
    (hmatches : Matches purpose unitMeta) :
    unitInstance surroundings unitMeta purpose ∈
      cache stdHash surroundings (response ++ [unitMeta]) := by
  have hsplit : populateInstances surroundings (response ++ [unitMeta]) =
      response.flatMap (unitInstances surroundings) ++
        (unitInstances surroundings unitMeta ++ staticProto surroundings) := by
    simp [populateInstances]
  rw [cache, hsplit]
  apply Table.mem_insertOrAssignAll_append
  · exact List.mem_append_left _ (mem_unitInstances.mpr ⟨purpose, hmatches, rfl⟩)
  · intro other hother hkey
    have hmem : other ∈ populateInstances surroundings (response ++ [unitMeta]) := by
      rw [hsplit]
      exact List.mem_append_right _ hother
    have hpurpose : other.purpose = purpose :=
      hkeys _ (present_iff.mpr ⟨other, hmem, rfl⟩) _
        (Or.inr ⟨unitMeta, by simp, hmatches⟩) (by simpa [key] using hkey)
    rcases List.mem_append.mp hother with hunit | hstatic
    · obtain ⟨otherPurpose, -, rfl⟩ := mem_unitInstances.mp hunit
      rw [unitInstance_purpose] at hpurpose
      rw [hpurpose]
    · exact absurd (hpurpose ▸ mem_staticProto_purpose hstatic) hmatches.not_mem_default

/-- Any unit can come last. -/
theorem exists_last (hmem : unitMeta ∈ response) :
    ∃ rest, (rest ++ [unitMeta]).Perm response := by
  refine ⟨response.erase unitMeta, ?_⟩
  exact (List.perm_append_singleton unitMeta _).trans (List.perm_cons_erase hmem).symm

/-- Where the order plays no part, every unit leaves its instance in the cache. -/
theorem Aggregates.mem_cache (h : Aggregates stdHash surroundings response)
    (hkeys : KeysDiffer stdHash response) (hmem : unitMeta ∈ response)
    (hmatches : Matches purpose unitMeta) :
    unitInstance surroundings unitMeta purpose ∈ cache stdHash surroundings response := by
  obtain ⟨rest, hperm⟩ := exists_last hmem
  exact (h.order _ hperm _).mp (mem_cache_of_last (hkeys.perm hperm) hmatches)

/-- The keys of protocols that are shown differ. -/
theorem Aggregates.keysDiffer (h : Aggregates stdHash surroundings response) :
    KeysDiffer stdHash response := by
  intro purpose hpurpose other hother hkey
  obtain ⟨instance_, hmem, rfl⟩ := (h.instances purpose).mpr hpurpose
  obtain ⟨otherInstance, hmemOther, rfl⟩ := (h.instances other).mpr hother
  rw [Table.eq_of_key_eq hmem hmemOther hkey]

/-- Where the units agree, a protocol has one instance. -/
theorem UnitsAgree.inj (h : UnitsAgree stdHash surroundings response) {other : NetworkInstance}
    (hmem : instance_ ∈ populateInstances surroundings response)
    (hother : other ∈ populateInstances surroundings response)
    (hpurpose : instance_.purpose = other.purpose) : instance_ = other := by
  rcases mem_populateInstances.mp hmem with ⟨unitMeta, hunit, purpose, hmatches, rfl⟩ | hstatic
  · rcases mem_populateInstances.mp hother with
      ⟨otherUnit, hotherUnit, otherPurpose, hotherMatches, rfl⟩ | hotherStatic
    · simp only [unitInstance_purpose] at hpurpose
      subst hpurpose
      obtain ⟨hactive, hport⟩ :=
        h.units purpose unitMeta hunit hmatches otherUnit hotherUnit hotherMatches
      rw [unitInstance_eq, unitInstance_eq, hactive, hport]
    · rw [unitInstance_purpose] at hpurpose
      exact absurd (hpurpose ▸ mem_staticProto_purpose hotherStatic) hmatches.not_mem_default
  · rcases mem_populateInstances.mp hother with
      ⟨otherUnit, -, otherPurpose, hotherMatches, rfl⟩ | hotherStatic
    · rw [unitInstance_purpose] at hpurpose
      exact absurd (hpurpose ▸ mem_staticProto_purpose hstatic) hotherMatches.not_mem_default
    · exact staticProto_inj hstatic hotherStatic hpurpose

/-- Then the cache holds all instances. -/
theorem UnitsAgree.mem_cache_iff (h : UnitsAgree stdHash surroundings response) :
    instance_ ∈ cache stdHash surroundings response ↔
      instance_ ∈ populateInstances surroundings response := by
  refine ⟨mem_cache, fun hmem => ?_⟩
  apply Table.mem_insertOrAssignAll_of_only (Or.inr hmem)
  intro other hother hkey
  apply h.inj hother hmem
  exact h.keys _ (present_iff.mpr ⟨other, hother, rfl⟩) _
    (present_iff.mpr ⟨instance_, hmem, rfl⟩) hkey

/-- The order of the units does not matter. -/
theorem UnitsAgree.perm {reordered : List UnitMeta}
    (h : UnitsAgree stdHash surroundings response) (hperm : reordered.Perm response) :
    UnitsAgree stdHash surroundings reordered where
  keys := h.keys.perm hperm
  units := fun purpose unitMeta hunit hmatches other hother =>
    h.units purpose unitMeta (hperm.mem_iff.mp hunit) hmatches other (hperm.mem_iff.mp hother)
  snmp := fun unitMeta hunit => h.snmp unitMeta (hperm.mem_iff.mp hunit)

theorem mem_populateInstances_perm {reordered : List UnitMeta}
    (hperm : reordered.Perm response) :
    instance_ ∈ populateInstances surroundings reordered ↔
      instance_ ∈ populateInstances surroundings response := by
  simp only [mem_populateInstances, hperm.mem_iff]

/-- The instance of a protocol with units comes from one of them. -/
theorem exists_unit_of_mem (hmem : instance_ ∈ populateInstances surroundings response)
    (hpurpose : instance_.purpose ∉ defaultProtoList) : ∃ unitMeta ∈ response,
      Matches instance_.purpose unitMeta ∧
        instance_ = unitInstance surroundings unitMeta instance_.purpose := by
  rcases mem_populateInstances.mp hmem with ⟨unitMeta, hunit, purpose, hmatches, rfl⟩ | hstatic
  · exact ⟨unitMeta, hunit, by simpa using hmatches, by simp⟩
  · exact absurd (mem_staticProto_purpose hstatic) hpurpose

/-- The cache sums up the units exactly where there is nothing to sum up. -/
theorem cache_aggregates_iff (stdHash : Bytes → UInt64) (surroundings : Surroundings)
    (response : List UnitMeta) :
    Aggregates stdHash surroundings response ↔ UnitsAgree stdHash surroundings response := by
  constructor
  · intro h
    have hkeys := h.keysDiffer
    refine ⟨hkeys, ?_, ?_⟩
    · intro purpose unitMeta hunit hmatches other hother hotherMatches
      have hsame := h.single _ (h.mem_cache hkeys hunit hmatches) _
        (h.mem_cache hkeys hother hotherMatches) (by simp)
      simpa [unitInstance_eq] using hsame
    · intro unitMeta hunit hmatches port hport
      simpa [NetworkInstance.getFieldPort] using
        h.snmp port hport _ (h.mem_cache hkeys hunit hmatches) unitInstance_purpose
  · intro h
    constructor
    · intro purpose
      simp only [h.mem_cache_iff]
      exact present_iff.symm
    · intro instance_ hmem other hother hpurpose
      exact h.inj (mem_cache hmem) (mem_cache hother) hpurpose
    · intro reordered hperm instance_
      rw [(h.perm hperm).mem_cache_iff, h.mem_cache_iff, mem_populateInstances_perm hperm]
    · rintro unitMeta hunit purpose hmatches instance_ hmem rfl
      obtain ⟨other, hother, hotherMatches, heq⟩ :=
        exists_unit_of_mem (mem_cache hmem) hmatches.not_mem_default
      have henabled : instance_.enabled = other.isActive := by
        rw [heq, unitInstance_enabled]
      rw [henabled]
      constructor
      · intro hactive
        exact ⟨other, hother, hotherMatches, hactive⟩
      · rintro ⟨third, hthird, hthirdMatches, hactive⟩
        rw [(h.units _ other hother hotherMatches third hthird hthirdMatches).1]
        exact hactive
    · intro port hport instance_ hmem hpurpose
      have hdefault : instance_.purpose ∉ defaultProtoList := by
        rw [hpurpose]
        decide
      obtain ⟨unitMeta, hunit, hmatches, heq⟩ := exists_unit_of_mem (mem_cache hmem) hdefault
      rw [hpurpose] at hmatches heq
      rw [heq, NetworkInstance.getFieldPort, unitInstance_port]
      exact h.snmp unitMeta hunit hmatches port hport

end

/-! ## SNMP without a socket -/

/-- A hash of texts. -/
def fnvHash (text : Bytes) : UInt64 :=
  text.foldl (fun hash c => (hash ^^^ c.toUInt64) * 1099511628211) 14695981039346656037

/-- The agent runs. -/
def snmpService : UnitMeta where
  unitName := bytes "snmpd.service"
  unitState := bytes "running"
  socketPath := bytes "/org/freedesktop/systemd1/unit/snmpd_2eservice"

/-- Its socket does not listen. -/
def snmpSocket : UnitMeta where
  unitName := bytes "snmpd.socket"
  unitState := bytes "dead"
  socketPath := bytes "/org/freedesktop/systemd1/unit/snmpd_2esocket"

/-- No unit has a socket that can be asked for, and SNMP is configured for port 161. -/
def snmpConfigured : Surroundings where
  lib := PortQuery.clib
  listen _ := none
  timeSyncNtp := none
  snmpPort := some 161

/-- The instance of the socket, whose port is missing. -/
def snmpInstance : NetworkInstance where
  purpose := .snmp
  enabled := false
  port := none

/-- The service runs, but the instance is that of the socket, and has no port. -/
theorem snmpService_not_aggregated :
    ¬ Aggregates fnvHash snmpConfigured [snmpService, snmpSocket] ∧
      snmpInstance ∈ cache fnvHash snmpConfigured [snmpService, snmpSocket] := by
  have hmem : snmpInstance ∈ cache fnvHash snmpConfigured [snmpService, snmpSocket] := by
    rw [Table.mem_def]
    decide +kernel
  refine ⟨?_, hmem⟩
  intro h
  have hport : snmpInstance.getFieldPort = 161 := h.snmp 161 rfl snmpInstance hmem rfl
  exact absurd hport (by decide)

end NetworkProtocol
end Entity
end ObmcWebapp
