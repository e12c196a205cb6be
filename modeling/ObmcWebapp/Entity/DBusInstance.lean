import Mathlib.Data.List.Dedup
import ObmcWebapp.Core
import ObmcWebapp.Library.Runs
import ObmcWebapp.Library.Table

/-!
# Entity - Cached D-Bus objects and their watchers

The entities' caches of {lit}`DBusInstance` objects, the queries and signals that
fill and empty them, and the two static members of {lit}`DBusInstance`: the
registered watchers and the hashes whose watchers are to be cleaned up.

An object lives as long as a cache or a request refers to it; its destructor marks
its hash.  Property values, formatters and the child objects of associations, which
never have watchers, are left out.

Main results:

- Theorem {lit}`Caches.mem_listeners_registerWatchers`: the watchers after an object
  is bound.
- Theorem {lit}`Caches.mem_objects_reap`: the objects left after the unreferenced
  ones are destroyed.
-/

open Library

namespace ObmcWebapp
namespace Entity

/-! ## Objects, watchers and caches -/

/-- A {lit}`DBusInstance`.  {lit}`id` stands for its address.  {lit}`bound` records the
interfaces that {lit}`bindListeners` went over; no code reads it. -/
structure DBusInstance where
  id : Nat
  serviceName : Bytes
  objectPath : Bytes
  targetProperties : List Bytes
  bound : Option (List Bytes) := none
deriving DecidableEq

/-- A registered {lit}`PropertiesChanged` match; its handler updates the object that
it refers to weakly. -/
structure Watcher where
  self : Nat
  objectPath : Bytes
  interface : Bytes
deriving DecidableEq

/-- An entry of an entity's {lit}`instances`. -/
structure CacheEntry where
  entity : Bytes
  hash : UInt64
  id : Nat
deriving DecidableEq

/-- The entity and the hash of an entry. -/
def CacheEntry.key (entry : CacheEntry) : Bytes × UInt64 :=
  (entry.entity, entry.hash)

/-- {lit}`DBusInstance::getHash`, around {lit}`std::hash` of a string. -/
def getHash (stdHash : Bytes → UInt64) (serviceName objectPath : Bytes) : UInt64 :=
  stdHash objectPath ^^^ (stdHash serviceName <<< 1)

/-- The hash under which an object is cached. -/
def DBusInstance.getHash (stdHash : Bytes → UInt64) (object : DBusInstance) : UInt64 :=
  Entity.getHash stdHash object.serviceName object.objectPath

/-- {lit}`std::map::merge` takes over the interfaces that are not there. -/
def DBusInstance.merged (object destination : DBusInstance) : DBusInstance :=
  { object with
    targetProperties := object.targetProperties ++
      destination.targetProperties.filter (· ∉ object.targetProperties) }

/-- How the {lit}`process` of a query builds its objects. -/
inductive QueryKind
  | findObject
  | getObject
  | introspectService
  /-- The query of the network protocols, which does not bind its objects. -/
  | staticProtocols
deriving DecidableEq

/-- A query with the interfaces of its endpoint configuration. -/
structure DBusQuery where
  kind : QueryKind
  searchProperties : List Bytes
deriving DecidableEq

/-- An object as a reply or a signal names it. -/
structure FoundObject where
  serviceName : Bytes
  objectPath : Bytes
  interfaces : List Bytes
deriving DecidableEq

/-- The objects that exist, the caches that refer to them, the references that
requests hold, and the static members of {lit}`DBusInstance`. -/
structure Caches where
  objects : Table DBusInstance.id := Table.empty
  instances : Table CacheEntry.key := Table.empty
  borrowed : List Nat := []
  listeners : UInt64 → List Watcher := fun _ => []
  toCleanupInstances : List UInt64 := []
  nextId : Nat := 0

namespace Caches

/-- An entity's cache refers to the object. -/
def Cached (s : Caches) (object : DBusInstance) : Prop :=
  ∃ entry ∈ s.instances.rows, entry.id = object.id

instance (s : Caches) (object : DBusInstance) : Decidable (s.Cached object) :=
  inferInstanceAs (Decidable (∃ entry ∈ s.instances.rows, entry.id = object.id))

/-! ## Creating and binding an object -/

/-- The endpoint map that {lit}`DBusQuery::createInstance` gives an object: the
named interfaces that the configuration knows. -/
def endpointMap (query : DBusQuery) (interfaces : List Bytes) : List Bytes :=
  (interfaces.filter (· ∈ query.searchProperties)).dedup

/-- An object is constructed. -/
def construct (s : Caches) (serviceName objectPath : Bytes) (targetProperties : List Bytes) :
    DBusInstance × Caches :=
  let object : DBusInstance := { id := s.nextId, serviceName, objectPath, targetProperties }
  (object, { s with objects := s.objects.emplace object, nextId := s.nextId + 1 })

/-- {lit}`createInstance` -/
def createInstance (s : Caches) (query : DBusQuery) (found : FoundObject) :
    DBusInstance × Caches :=
  s.construct found.serviceName found.objectPath (endpointMap query found.interfaces)

/-- {lit}`listeners[hash].emplace_back` -/
def addListener (hash : UInt64) (s : Caches) (watcher : Watcher) : Caches :=
  { s with
    listeners := fun other =>
      if other = hash then s.listeners other ++ [watcher] else s.listeners other }

/-- The loop of {lit}`bindListeners` over some interfaces. -/
def registerWatchers (stdHash : Bytes → UInt64) (s : Caches) (object : DBusInstance)
    (interfaces : List Bytes) : Caches :=
  let watched := (interfaces.map fun interface =>
    ({ self := object.id, objectPath := object.objectPath, interface } : Watcher)).foldl
      (addListener (object.getHash stdHash)) s
  { watched with
    objects := watched.objects.modify object.id
      (fun old => { old with bound := some interfaces }) fun _ => rfl }

/-- {lit}`bindListeners` -/
def bindListeners (stdHash : Bytes → UInt64) (s : Caches) (object : DBusInstance) : Caches :=
  s.registerWatchers stdHash object object.targetProperties

/-- One object of a query's {lit}`process`. -/
def discover (stdHash : Bytes → UInt64) (query : DBusQuery) (s : Caches) (found : FoundObject) :
    DBusInstance × Caches :=
  match query.kind with
  | .findObject | .getObject =>
      let (object, s) := s.createInstance query found
      (object, s.bindListeners stdHash object)
  | .introspectService =>
      let (object, s) := s.construct found.serviceName found.objectPath query.searchProperties
      (object, s.bindListeners stdHash object)
  | .staticProtocols =>
      s.createInstance query found

/-- The {lit}`process` of a query on the objects of a reply. -/
def process (stdHash : Bytes → UInt64) (query : DBusQuery) :
    Caches → List FoundObject → List DBusInstance × Caches
  | s, [] => ([], s)
  | s, found :: rest =>
      let (object, s) := s.discover stdHash query found
      let (objects, s) := s.process stdHash query rest
      (object :: objects, s)

/-! ## The caches -/

/-- {lit}`getInstance` -/
def getInstance (s : Caches) (entity : Bytes) (hash : UInt64) : Option DBusInstance :=
  (s.instances.find (entity, hash)).bind fun entry => s.objects.find entry.id

/-- {lit}`insert_or_assign` on an entity's {lit}`instances`. -/
def assign (stdHash : Bytes → UInt64) (entity : Bytes) (s : Caches) (object : DBusInstance) :
    Caches :=
  let entry : CacheEntry := { entity, hash := object.getHash stdHash, id := object.id }
  { s with instances := s.instances.insertOrAssign entry }

/-- {lit}`setInstances` -/
def setInstances (stdHash : Bytes → UInt64) (s : Caches) (entity : Bytes)
    (objects : List DBusInstance) : Caches :=
  objects.foldl (assign stdHash entity) s

/-- {lit}`mergeInternalMetadata` -/
def mergeInternalMetadata (s : Caches) (id : Nat) (destination : DBusInstance) : Caches :=
  { s with objects := s.objects.modify id (·.merged destination) fun _ => rfl }

/-- {lit}`mergeInstance`; the values of the members are left out. -/
def mergeInstance (stdHash : Bytes → UInt64) (s : Caches) (entity : Bytes)
    (object : DBusInstance) : Caches :=
  match s.getInstance entity (object.getHash stdHash) with
  | none => s.assign stdHash entity object
  | some cached => s.mergeInternalMetadata cached.id object

/-- {lit}`removeInstance` -/
def removeInstance (s : Caches) (entity : Bytes) (hash : UInt64) : Caches :=
  { s with instances := s.instances.erase (entity, hash) }

/-- {lit}`resetCache` -/
def resetCache (s : Caches) (entity : Bytes) : Caches :=
  { s with instances := s.instances.filter fun entry => entry.entity ≠ entity }

/-! ## The end of an object -/

/-- A cache or a request refers to the object. -/
def Referenced (s : Caches) (object : DBusInstance) : Prop :=
  s.Cached object ∨ object.id ∈ s.borrowed

instance (s : Caches) (object : DBusInstance) : Decidable (s.Referenced object) :=
  inferInstanceAs (Decidable (_ ∨ _))

/-- The objects that nothing refers to are destroyed: {lit}`~DBusInstance` marks their
hashes by {lit}`markInstanceIsUnavailable`. -/
def reap (stdHash : Bytes → UInt64) (s : Caches) : Caches :=
  { s with
    objects := s.objects.filter fun object => s.Referenced object
    toCleanupInstances := s.toCleanupInstances ++
      (s.objects.rows.filter fun object => ¬ s.Referenced object).map
        (DBusInstance.getHash stdHash) }

/-- {lit}`cleanupInstacesWatchers` -/
def cleanupInstacesWatchers (s : Caches) : Caches :=
  { s with
    listeners := fun hash => if hash ∈ s.toCleanupInstances then [] else s.listeners hash
    toCleanupInstances := [] }

end Caches

/-! ## The operations -/

/-- What is done to the caches and their objects. -/
inductive Operation
  /-- {lit}`processQueries` for one query and its reply. -/
  | process (entity : Bytes) (query : DBusQuery) (reply : List FoundObject)
  /-- The same for a proxy query, which copies objects of another entity's cache. -/
  | processProxy (entity provider : Bytes) (selected : List UInt64)
  /-- An object is built and lost again: {lit}`createWatcher` throws after some of
  the watchers are registered, and {lit}`process` or the handler of the signal is left. -/
  | abandon (serviceName objectPath : Bytes) (targetProperties : List Bytes) (registered : Nat)
  /-- An {lit}`InterfacesAdded` signal that passes the criteria of a query. -/
  | interfacesAdded (entity : Bytes) (query : DBusQuery) (found : FoundObject)
  | interfacesRemoved (entity serviceName objectPath : Bytes)
  | resetCache (entity : Bytes)
  /-- A request takes the objects of a cache. -/
  | getInstances (entity : Bytes)
  /-- A request drops a reference. -/
  | giveBack (id : Nat)
  | cleanupInstacesWatchers
deriving DecidableEq

namespace Caches

/-- The handler that {lit}`registerObjectCreationObserver` installs. -/
def interfacesAdded (stdHash : Bytes → UInt64) (s : Caches) (entity : Bytes) (query : DBusQuery)
    (found : FoundObject) : Caches :=
  let (newInstance, s) := s.createInstance query found
  match s.getInstance entity (newInstance.getHash stdHash) with
  | none => (s.bindListeners stdHash newInstance).mergeInstance stdHash entity newInstance
  | some entityInstance => s.mergeInternalMetadata entityInstance.id newInstance

/-- The objects of a cache, those under some hashes. -/
def select (s : Caches) (entity : Bytes) (selected : List UInt64) : List DBusInstance :=
  s.objects.rows.filter fun object =>
    ∃ entry ∈ s.instances.rows,
      entry.entity = entity ∧ entry.hash ∈ selected ∧ entry.id = object.id

/-- The caches after an operation. -/
def apply (stdHash : Bytes → UInt64) (s : Caches) : Operation → Caches
  | .process entity query reply =>
      let (objects, s) := s.process stdHash query reply
      (s.setInstances stdHash entity objects).reap stdHash
  | .processProxy entity provider selected =>
      (s.setInstances stdHash entity (s.select provider selected)).reap stdHash
  | .abandon serviceName objectPath targetProperties registered =>
      let (object, s) := s.construct serviceName objectPath targetProperties
      (s.registerWatchers stdHash object (targetProperties.take registered)).reap stdHash
  | .interfacesAdded entity query found =>
      (s.interfacesAdded stdHash entity query found).reap stdHash
  | .interfacesRemoved entity serviceName objectPath =>
      (s.removeInstance entity (getHash stdHash serviceName objectPath)).reap stdHash
  | .resetCache entity => (s.resetCache entity).reap stdHash
  | .getInstances entity =>
      { s with
        borrowed := s.borrowed ++
          (s.instances.rows.filter fun entry => entry.entity = entity).map CacheEntry.id }
  | .giveBack id => reap stdHash { s with borrowed := s.borrowed.erase id }
  | .cleanupInstacesWatchers => s.cleanupInstacesWatchers

/-- A sequence of operations from empty caches. -/
def after (stdHash : Bytes → UInt64) (operations : List Operation) : Caches :=
  operations.foldl (apply stdHash) {}

/-! ## What the operations leave -/

variable {stdHash : Bytes → UInt64}

/-- The objects are the new one and those that were there. -/
theorem mem_objects_construct {s : Caches} {serviceName objectPath : Bytes}
    {targetProperties : List Bytes} {object : DBusInstance}
    (hmem : object ∈ (s.construct serviceName objectPath targetProperties).2.objects) :
    object ∈ s.objects ∨ object = (s.construct serviceName objectPath targetProperties).1 := by
  rcases Table.mem_emplace_iff.mp hmem with hold | ⟨hnew, -⟩
  · exact Or.inl hold
  · exact Or.inr hnew

/-- The frame of the loop of {lit}`bindListeners`: only the listeners change. -/
private theorem foldl_addListener (hash : UInt64) (watchers : List Watcher) (s : Caches) :
    watchers.foldl (addListener hash) s =
      { s with
        listeners := fun other =>
          if other = hash then s.listeners other ++ watchers else s.listeners other } := by
  induction watchers generalizing s with
  | nil => simp
  | cons watcher rest ih =>
      rw [List.foldl_cons, ih]
      unfold addListener
      congr 1
      funext other
      by_cases hother : other = hash
      · simp [hother]
      · simp [hother]

/-- The watchers of an object and of its interfaces. -/
private theorem registerWatchers_eq (s : Caches) (object : DBusInstance)
    (interfaces : List Bytes) :
    s.registerWatchers stdHash object interfaces =
      { s with
        listeners := fun hash =>
          if hash = object.getHash stdHash then
            s.listeners hash ++ interfaces.map fun interface =>
              ({ self := object.id, objectPath := object.objectPath, interface } : Watcher)
          else s.listeners hash
        objects := s.objects.modify object.id
          (fun old => { old with bound := some interfaces }) fun _ => rfl } := by
  unfold registerWatchers
  rw [foldl_addListener]

/-- Watchers use no number of an object. -/
@[simp]
theorem nextId_registerWatchers (s : Caches) (object : DBusInstance) (interfaces : List Bytes) :
    (s.registerWatchers stdHash object interfaces).nextId = s.nextId := by
  rw [registerWatchers_eq]

/-- Watchers mark no hash. -/
@[simp]
theorem toCleanupInstances_registerWatchers (s : Caches) (object : DBusInstance)
    (interfaces : List Bytes) :
    (s.registerWatchers stdHash object interfaces).toCleanupInstances = s.toCleanupInstances := by
  rw [registerWatchers_eq]

/-- Watchers leave the caches. -/
@[simp]
theorem instances_registerWatchers (s : Caches) (object : DBusInstance)
    (interfaces : List Bytes) :
    (s.registerWatchers stdHash object interfaces).instances = s.instances := by
  rw [registerWatchers_eq]

/-- The object has watchers then, the others are left. -/
theorem mem_objects_registerWatchers {s : Caches} {object other : DBusInstance}
    {interfaces : List Bytes} :
    other ∈ (s.registerWatchers stdHash object interfaces).objects ↔
      (other ∈ s.objects ∧ other.id ≠ object.id) ∨
        ∃ old ∈ s.objects, old.id = object.id ∧ other = { old with bound := some interfaces } := by
  have hid : ∀ old : DBusInstance,
      DBusInstance.id { old with bound := some interfaces } = old.id := fun _ => rfl
  rw [registerWatchers_eq]
  exact Table.mem_modify_iff hid

/-- The watchers are the new ones and those that were there. -/
theorem mem_listeners_registerWatchers {s : Caches} {object : DBusInstance}
    {interfaces : List Bytes} {hash : UInt64} {watcher : Watcher} :
    watcher ∈ (s.registerWatchers stdHash object interfaces).listeners hash ↔
      watcher ∈ s.listeners hash ∨
        (hash = object.getHash stdHash ∧ watcher.self = object.id ∧
          watcher.objectPath = object.objectPath ∧ watcher.interface ∈ interfaces) := by
  rw [registerWatchers_eq]
  by_cases hhash : hash = object.getHash stdHash
  · simp only [hhash, if_true, List.mem_append, List.mem_map, true_and]
    constructor
    · rintro (hold | ⟨interface, hinterface, rfl⟩)
      · exact Or.inl hold
      · exact Or.inr ⟨rfl, rfl, hinterface⟩
    · rintro (hold | ⟨hself, hpath, hinterface⟩)
      · exact Or.inl hold
      · refine Or.inr ⟨watcher.interface, hinterface, ?_⟩
        rw [← hself, ← hpath]
  · simp [hhash]

/-- One object has more interfaces, the others are left. -/
theorem mem_objects_mergeInternalMetadata {s : Caches} {id : Nat}
    {destination other : DBusInstance} :
    other ∈ (s.mergeInternalMetadata id destination).objects ↔
      (other ∈ s.objects ∧ other.id ≠ id) ∨
        ∃ old ∈ s.objects, old.id = id ∧ other = old.merged destination := by
  have hid : ∀ old : DBusInstance, (old.merged destination).id = old.id := fun _ => rfl
  exact Table.mem_modify_iff hid

/-- Only objects that are referred to are left. -/
theorem mem_objects_reap {s : Caches} {object : DBusInstance} :
    object ∈ (s.reap stdHash).objects ↔ object ∈ s.objects ∧ s.Referenced object := by
  simp [reap]

/-- An object is there after the unreferenced ones are destroyed, or its hash is
marked. -/
theorem mem_objects_reap_or {s : Caches} {object : DBusInstance} (hmem : object ∈ s.objects) :
    object ∈ (s.reap stdHash).objects ∨
      object.getHash stdHash ∈ (s.reap stdHash).toCleanupInstances := by
  by_cases href : s.Referenced object
  · exact Or.inl (mem_objects_reap.mpr ⟨hmem, href⟩)
  · right
    simp only [reap, List.mem_append, List.mem_map]
    exact Or.inr ⟨object, List.mem_filter.mpr ⟨hmem, by simpa using href⟩, rfl⟩

/-- What is cached was cached before or is the new object. -/
theorem cached_assign {s : Caches} {entity : Bytes} {new object : DBusInstance}
    (hcached : (s.assign stdHash entity new).Cached object) :
    s.Cached object ∨ object.id = new.id := by
  obtain ⟨entry, hentry, hid⟩ := hcached
  rcases Table.mem_insertOrAssign_iff.mp hentry with hnew | ⟨hold, -⟩
  · right
    rw [← hid, hnew]
  · exact Or.inl ⟨entry, hold, hid⟩

/-- What is cached was cached before. -/
theorem cached_removeInstance {s : Caches} {entity : Bytes} {hash : UInt64}
    {object : DBusInstance} (hcached : (s.removeInstance entity hash).Cached object) :
    s.Cached object := by
  obtain ⟨entry, hentry, hid⟩ := hcached
  exact ⟨entry, (Table.mem_erase_iff.mp hentry).1, hid⟩

/-- What is cached was cached before. -/
theorem cached_resetCache {s : Caches} {entity : Bytes} {object : DBusInstance}
    (hcached : (s.resetCache entity).Cached object) : s.Cached object := by
  obtain ⟨entry, hentry, hid⟩ := hcached
  exact ⟨entry, (Table.mem_filter_iff.mp hentry).1, hid⟩

end Caches
end Entity
end ObmcWebapp
