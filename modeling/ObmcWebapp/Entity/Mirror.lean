import ObmcWebapp.Entity.FindObject
import ObmcWebapp.Entity.Histories
import ObmcWebapp.Entity.Supplement

/-!
# Entity - The cache as a mirror of the bus

The objects of a bus come and go with {lit}`InterfacesAdded` and {lit}`InterfacesRemoved`,
and their properties change.  A search keeps a cache of the objects that meet its criteria:
it is populated, follows these signals, and requests write into its instances while they
read them.  Any number of objects is there at a time.

What the mapper replies and what the calls about an object return comes with each event; a
signal is handled when its change happens.  The child instances of associations are left
out, as no cache has them.

Main results:

- Theorem {lit}`EndpointQuery.discover_eq`: the instances of a search as the query returns them.
- Theorem {lit}`Reflects.initialized`: what reading an instance makes of it.
- Theorem {lit}`Reflects.written`: what default fields and link rules make of it.
- Theorem {lit}`Reflects.follow`: what a change of properties makes of it.
-/

open Library

namespace ObmcWebapp
namespace Entity
namespace Mirror

/-! ## The bus and the cache -/

/-- A query with the criteria of its search, the default fields that it gives at a moment, and
the link rules of the providers of its entity. -/
structure Search where
  query : EndpointQuery
  criteria : FindObjectDBusQuery
  initDefaultFieldsValue : Nat → FieldWriter := fun _ _ _ => ⟨fun _ => none, none⟩
  providers : List (Instance → FieldWriter) := []

/-- A cached instance under its hash, with the interfaces for which it has watchers among the
{lit}`listeners`. -/
structure Entry where
  hash : UInt64
  self : InstanceData
  listeners : List Bytes

/-- The objects of the bus under their names. -/
abbrev Bus (types : PropertyTypes) :=
  Table fun object : WatchedObject types => (object.serviceName, object.objectPath)

/-- The cached instances under their hashes. -/
abbrev InstancesHashmap := Table Entry.hash

/-- The bus, the cache, and the hashes whose watchers are to be cleaned up. -/
structure State (types : PropertyTypes) where
  bus : Bus types
  instances : InstancesHashmap
  toCleanupInstances : List UInt64

variable {types : PropertyTypes}

/-- What a search gets to know in one population.  A failed {lit}`GetSubTree` is none. -/
structure Population where
  getSubTree : Option SubTree
  answers : ObjectBus

/-- What happens on the bus and to the cache.  {lit}`getInstances` takes three kinds of steps
for each instance, as far as none raises. -/
inductive Event (types : PropertyTypes)
  /-- The mapper is asked for the interfaces, the bus for their properties. -/
  | interfacesAdded (added : WatchedObject types) (getObject : Option (List Bytes))
      (answers : ObjectBus)
  | interfacesRemoved (serviceName objectPath : Bytes) (removed : List Bytes)
  | propertiesChanged (serviceName objectPath : Bytes) (change : PropertyChange types)
  /-- The guards of {lit}`populate` let it pass. -/
  | populate (population : Population)
  | initDefaultFieldsValue (hash : UInt64) (moment : Nat)
  | verifyState (hash : UInt64) (answers : ObjectBus)
  | supplementInstance (hash : UInt64) (provider : Nat) (supplement : Instance)
  /-- An instance of another entity is destroyed, or one that a request kept. -/
  | instanceEnds (hash : UInt64)
  | cleanupInstacesWatchers

/-- The turn of an instance in {lit}`getInstances`. -/
def turnOf (hash : UInt64) (moment : Nat) (answers : ObjectBus)
    (supplements : List (Nat × Instance)) : List (Event types) :=
  .initDefaultFieldsValue hash moment :: .verifyState hash answers ::
    supplements.map fun (provider, supplement) => .supplementInstance hash provider supplement

end Mirror

namespace WatchedObject

variable {types : PropertyTypes}

/-- The object with the interfaces that a signal adds. -/
def extended (object added : WatchedObject types) : WatchedObject types where
  serviceName := object.serviceName
  objectPath := object.objectPath
  interfaces := object.interfaces ++ added.interfaces
  properties := fun interface =>
    if interface ∈ object.interfaces then object.properties interface
    else added.properties interface
  typed := by
    intro interface
    split
    · exact object.typed interface
    · exact added.typed interface

/-- The object without the interfaces that a signal removes. -/
def reduced (object : WatchedObject types) (removed : List Bytes) : WatchedObject types :=
  { object with interfaces := object.interfaces.filter (· ∉ removed) }

/-- The hash of the instance for the object. -/
def getHash (stdHash : Bytes → UInt64) (object : WatchedObject types) : UInt64 :=
  Entity.getHash stdHash object.serviceName object.objectPath

/-- The object without its properties. -/
def toBusObject (object : WatchedObject types) : BusObject where
  serviceName := object.serviceName
  objectPath := object.objectPath
  interfaces := object.interfaces

end WatchedObject

namespace InstanceData

/-- The hash under which an instance is cached. -/
def getHash (stdHash : Bytes → UInt64) (self : InstanceData) : UInt64 :=
  Entity.getHash stdHash self.serviceName self.objectPath

/-- {lit}`mergeInternalMetadata`: {lit}`std::map::merge` takes over the interfaces that are
not there. -/
def mergeInternalMetadata (self destination : InstanceData) : InstanceData :=
  { self with
    targetProperties := self.targetProperties ++
      destination.targetProperties.filter fun endpoint =>
        endpoint.1 ∉ self.targetProperties.map Prod.fst }

/-- The instance with what is written into it, also by a writer that raises then. -/
def written (self : InstanceData) (writer : Writer Bytes FieldType Exception) : InstanceData :=
  { self with
    memberInstances := Store.write self.memberInstances (writer self.memberInstances).written }

/-- A member after a writer has run. -/
@[simp] theorem written_memberInstances (self : InstanceData)
    (writer : Writer Bytes FieldType Exception) (memberName : Bytes) :
    (self.written writer).memberInstances memberName =
      ((writer self.memberInstances).written memberName).or (self.memberInstances memberName) :=
  rfl

end InstanceData

namespace EndpointQuery

/-- The instances that {lit}`process` creates, with the exception that ends it. -/
def discover (query : EndpointQuery) (answers : ObjectBus) :
    List FoundObject → List InstanceData × Option Exception
  | [] => ([], none)
  | found :: rest =>
      let created := query.createInstance answers found
      match created.raised with
      | some exception => ([created.self], some exception)
      | none =>
          match created.self.bindListeners answers with
          | .error exception => ([created.self], some exception)
          | .ok () =>
              let later := query.discover answers rest
              (created.self :: later.1, later.2)

/-- The query returns the instances where nothing is raised. -/
theorem discover_eq (query : EndpointQuery) (answers : ObjectBus) (objects : List FoundObject) :
    query.discoverAll answers objects =
      match (query.discover answers objects).2 with
      | some exception => .error exception
      | none => .ok (query.discover answers objects).1 := by
  induction objects with
  | nil => rfl
  | cons found rest ih =>
      simp only [discoverAll, discover]
      cases (query.createInstance answers found).raised with
      | some exception => rfl
      | none =>
          dsimp only
          cases (query.createInstance answers found).self.bindListeners answers with
          | error exception => rfl
          | ok bound =>
              simp only [ih]
              cases (query.discover answers rest).2 <;> rfl

end EndpointQuery

namespace Mirror

variable {types : PropertyTypes} (stdHash : Bytes → UInt64) (search : Search)

/-! ## The handlers -/

/-- An instance that is bound to its signals. -/
def bound (self : InstanceData) : Entry :=
  ⟨self.getHash stdHash, self, self.targetProperties.map Prod.fst⟩

namespace State

variable (s : State types)

/-- {lit}`markInstanceIsUnavailable`, by which an instance ends. -/
def mark (hash : UInt64) : State types :=
  { s with toCleanupInstances := s.toCleanupInstances ++ [hash] }

/-- {lit}`insert_or_assign`; the instance that was there ends. -/
def assign (entry : Entry) : State types :=
  let assigned := { s with instances := s.instances.insertOrAssign entry }
  match s.instances.find entry.hash with
  | none => assigned
  | some _ => assigned.mark entry.hash

/-- The handler of {lit}`registerObjectCreationObserver`. -/
def onInterfacesAdded (serviceName objectPath : Bytes) (getObject : Option (List Bytes))
    (answers : ObjectBus) : State types :=
  if !search.criteria.checkCriteria objectPath (some serviceName) then s
  else
    -- a failed call leaves no interfaces
    let interfacesList := getObject.getD []
    if !search.criteria.checkInterfaces objectPath interfacesList (some serviceName) then s
    else
      let newInstance :=
        search.query.createInstance answers ⟨serviceName, objectPath, interfacesList⟩
      let hash := newInstance.self.getHash stdHash
      match newInstance.raised with
      | some _ => s.mark hash
      | none =>
          match s.instances.find hash with
          | none =>
              match newInstance.self.bindListeners answers with
              | .error _ => s.mark hash
              | .ok () => s.assign (bound stdHash newInstance.self)
          | some entry =>
              let merged := entry.self.mergeInternalMetadata newInstance.self
              -- the new instance ends with the handler
              mark { s with
                instances := s.instances.insertOrAssign
                  { entry with self := merged.setUninitialized } } hash

/-- The handler of {lit}`registerObjectRemovingObserver`. -/
def onInterfacesRemoved (serviceName objectPath : Bytes) (removedInterfaces : List Bytes) :
    State types :=
  if !search.criteria.checkInterfaces objectPath removedInterfaces (some serviceName) then s
  else
    let hash := getHash stdHash serviceName objectPath
    let removed := { s with instances := s.instances.erase hash }
    match s.instances.find hash with
    | none => removed
    | some _ => removed.mark hash

end State

/-- The watchers of an instance look at the path and the interface of a signal alone. -/
def Entry.onSignal (query : EndpointQuery) (objectPath : Bytes) (change : PropertyChange types)
    (entry : Entry) : Entry :=
  if entry.self.objectPath = objectPath ∧ change.interfaceName ∈ entry.listeners then
    { entry with self := (onPropertiesChanged (some query) change.message entry.self).self }
  else entry

/-- {lit}`verifyState` -/
def Entry.verifyState (query : EndpointQuery) (answers : ObjectBus) (entry : Entry) : Entry :=
  if !entry.self.state then
    { entry with self := (query.initializeInstance answers entry.self).self }
  else entry

/-- A default field or a link rule writes into the instance. -/
def Entry.written (writer : FieldWriter) (entry : Entry) : Entry :=
  { entry with self := entry.self.written (writer entry.hash) }

/-- {lit}`cleanupInstacesWatchers` takes all watchers of the marked hashes. -/
def Entry.cleaned (toCleanupInstances : List UInt64) (entry : Entry) : Entry :=
  if entry.hash ∈ toCleanupInstances then { entry with listeners := [] }
  else entry

/-- The object meets the criteria. -/
def meets (object : WatchedObject types) : Bool :=
  search.criteria.checkInterfaces object.objectPath object.interfaces (some object.serviceName)

/-- The objects of a population, none where the search fails. -/
def Population.objects (population : Population) : List FoundObject :=
  (population.getSubTree.getD []).objects search.criteria.getQueryCriteria.service

/-- {lit}`populate` resets the cache and processes the query; where that raises, the instances
that it has created end. -/
def State.populate (s : State types) (population : Population) : State types :=
  let reset := { s with
    instances := Table.empty
    toCleanupInstances := s.toCleanupInstances ++ s.instances.rows.map Entry.hash }
  match search.query.discover population.answers (population.objects search) with
  | (instances, none) => (instances.map (bound stdHash)).foldl State.assign reset
  | (instances, some _) =>
      { reset with
        toCleanupInstances := reset.toCleanupInstances ++
          instances.map (InstanceData.getHash stdHash) }

/-- The objects are those over which the query runs. -/
theorem process_population (population : Population) :
    (QueryRun.findObject search.query search.criteria.getQueryCriteria.service
      population.getSubTree population.answers).process.result =
        search.query.discoverAll population.answers (population.objects search) := by
  rw [Population.objects]
  cases population.getSubTree <;> rfl

/-- A signal leaves the hash of an entry. -/
theorem hash_onSignal (query : EndpointQuery) (objectPath : Bytes) (change : PropertyChange types)
    (entry : Entry) : (entry.onSignal query objectPath change).hash = entry.hash := by
  unfold Entry.onSignal
  split <;> rfl

/-- Reading an instance leaves the hash of its entry. -/
theorem hash_verifyState (query : EndpointQuery) (answers : ObjectBus) (entry : Entry) :
    (entry.verifyState query answers).hash = entry.hash := by
  unfold Entry.verifyState
  split <;> rfl

/-- Writing into an instance leaves the hash of its entry. -/
theorem hash_written (writer : FieldWriter) (entry : Entry) :
    (entry.written writer).hash = entry.hash :=
  rfl

/-- Cleaning up leaves the hash of an entry. -/
theorem hash_cleaned (toCleanupInstances : List UInt64) (entry : Entry) :
    (entry.cleaned toCleanupInstances).hash = entry.hash := by
  unfold Entry.cleaned
  split <;> rfl

/-! ## Runs -/

/-- The object as the signal of its new interfaces leaves it. -/
def addedTo (bus : Bus types) (added : WatchedObject types) : WatchedObject types :=
  match bus.find (added.serviceName, added.objectPath) with
  | some object => object.extended added
  | none => added

/-- The bus after an event. -/
def changedBus (bus : Bus types) : Event types → Bus types
  | .interfacesAdded added _ _ => bus.insertOrAssign (addedTo bus added)
  | .interfacesRemoved serviceName objectPath removed =>
      bus.modify (serviceName, objectPath) (·.reduced removed) fun _ => rfl
  | .propertiesChanged serviceName objectPath change =>
      bus.modify (serviceName, objectPath) (·.changed change) fun _ => rfl
  | _ => bus

/-- A population does not change the bus. -/
@[simp] theorem changedBus_populate (bus : Bus types) (population : Population) :
    changedBus bus (.populate population) = bus :=
  rfl

/-- Cleaning up does not change the bus. -/
@[simp] theorem changedBus_cleanupInstacesWatchers (bus : Bus types) :
    changedBus bus .cleanupInstacesWatchers = bus :=
  rfl

/-- The cached instance of a hash takes a step. -/
def State.modify (s : State types) (hash : UInt64) (f : Entry → Entry)
    (hf : ∀ entry, (f entry).hash = entry.hash) : State types :=
  { s with instances := s.instances.modify hash f hf }

/-- An event, and what the cache makes of it. -/
def State.step (s : State types) (event : Event types) : State types :=
  let s' := { s with bus := changedBus s.bus event }
  match event with
  | .interfacesAdded added getObject answers =>
      s'.onInterfacesAdded stdHash search added.serviceName added.objectPath getObject answers
  | .interfacesRemoved serviceName objectPath removed =>
      s'.onInterfacesRemoved stdHash search serviceName objectPath removed
  | .propertiesChanged _ objectPath change =>
      { s' with
        instances := s.instances.mapRows (Entry.onSignal search.query objectPath change)
          (hash_onSignal search.query objectPath change) }
  | .populate population => s'.populate stdHash search population
  | .initDefaultFieldsValue hash moment =>
      s'.modify hash (Entry.written (search.initDefaultFieldsValue moment)) (hash_written _)
  | .verifyState hash answers =>
      s'.modify hash (Entry.verifyState search.query answers) (hash_verifyState _ answers)
  | .supplementInstance hash provider supplement =>
      match search.providers[provider]? with
      | none => s'
      | some linkRule => s'.modify hash (Entry.written (linkRule supplement)) (hash_written _)
  | .instanceEnds hash => s'.mark hash
  | .cleanupInstacesWatchers =>
      { s' with
        instances := s.instances.mapRows (Entry.cleaned s.toCleanupInstances)
          (hash_cleaned s.toCleanupInstances)
        toCleanupInstances := [] }

/-- No object is cached yet. -/
def initial (bus : Bus types) : State types :=
  ⟨bus, Table.empty, []⟩

/-- The state after some events, from an empty cache. -/
def after (bus : Bus types) (events : List (Event types)) : State types :=
  events.foldl (State.step stdHash search) (initial bus)

/-! ## What is assumed of the bus -/

/-- Two maps have the same values. -/
def SameProperties (properties properties' : DBusPropertiesMap) : Prop :=
  ∀ property, properties.lookup property = properties'.lookup property

/-- What {lit}`GetAll` returns for an object is what the object has. -/
def Truthful (answers : ObjectBus) (object : WatchedObject types) : Prop :=
  ∀ interface ∈ object.interfaces, ∀ properties,
    answers.getAll object.serviceName object.objectPath interface = some properties →
      SameProperties properties (object.properties interface)

/-- The calls about an object succeed. -/
structure Answered (answers : ObjectBus) (object : WatchedObject types) : Prop where
  truthful : Truthful answers object
  getAll : ∀ interface ∈ object.interfaces,
    (answers.getAll object.serviceName object.objectPath interface).isSome
  createWatcher : ∀ interface ∈ object.interfaces,
    answers.createWatcher object.objectPath interface = true

/-- A reply names an object with its interfaces. -/
structure Names (found : FoundObject) (object : WatchedObject types) : Prop where
  serviceName : found.serviceName = object.serviceName
  objectPath : found.objectPath = object.objectPath
  interfaces : ∀ interface, interface ∈ found.interfaces ↔ interface ∈ object.interfaces

/-- The reply of the mapper lists the objects that meet the criteria as the handlers check
them, and no others. -/
structure Lists (bus : Bus types) (found : List FoundObject) : Prop where
  complete : ∀ object ∈ bus, meets search object = true → ∃ named ∈ found, Names named object
  sound : ∀ named ∈ found, ∃ object ∈ bus, meets search object = true ∧ Names named object

/-- A population in which the mapper lists the objects and all calls about them succeed. -/
structure Succeeds (bus : Bus types) (population : Population) : Prop where
  getSubTree : population.getSubTree.isSome
  lists : Lists search bus (population.objects search)
  answered : ∀ object ∈ bus, meets search object = true → Answered population.answers object

/-! ## Orderly events -/

/-- No two objects share a path or a hash. -/
def Apart (bus : Bus types) : Prop :=
  ∀ object ∈ bus, ∀ other ∈ bus,
    object.objectPath = other.objectPath ∨ object.getHash stdHash = other.getHash stdHash →
      object = other

/-- The interfaces that the query reads. -/
def configured : List Bytes :=
  search.query.getSearchPropertiesMap.map Prod.fst

/-- An object that is cached gets no new interface that is configured, and a new object is
apart from the others.  The mapper names the interfaces of the object, and the calls about it
succeed. -/
structure AddsRegularly (bus : Bus types) (added : WatchedObject types)
    (getObject : Option (List Bytes)) (answers : ObjectBus) : Prop where
  cached : ∀ object ∈ bus, object.serviceName = added.serviceName →
    object.objectPath = added.objectPath → meets search object = true →
      ∀ interface ∈ added.interfaces, interface ∈ configured search → interface ∈ object.interfaces
  new : ¬ bus.Has (added.serviceName, added.objectPath) → ∀ other ∈ bus,
    other.objectPath ≠ added.objectPath ∧ other.getHash stdHash ≠ added.getHash stdHash
  introspected : ∃ interfaces, getObject = some interfaces ∧
    ∀ interface, interface ∈ interfaces ↔ interface ∈ (addedTo bus added).interfaces
  answered : Answered answers (addedTo bus added)

/-- A removal takes either all criteria of an object or nothing that is configured. -/
def RemovesRegularly (object : WatchedObject types) (removed : List Bytes) : Prop :=
  if search.criteria.checkInterfaces object.objectPath removed (some object.serviceName) then
    meets search (object.reduced removed) = false
  else meets search object = true → ∀ interface ∈ removed, interface ∈ configured search →
    interface ∉ object.interfaces

/-- Objects are there when they change, populations succeed, and no cleanup takes the watchers
of a cached instance.  Calls that read an instance again may fail. -/
def Regular (s : State types) : Event types → Prop
  | .interfacesAdded added getObject answers =>
      AddsRegularly stdHash search s.bus added getObject answers
  | .interfacesRemoved serviceName objectPath removed =>
      ∃ object ∈ s.bus, object.serviceName = serviceName ∧ object.objectPath = objectPath ∧
        RemovesRegularly search object removed
  | .propertiesChanged serviceName objectPath _ => s.bus.Has (serviceName, objectPath)
  | .populate population => Succeeds search s.bus population
  | .verifyState _ answers => ∀ object ∈ s.bus, Truthful answers object
  | .cleanupInstacesWatchers =>
      ∀ entry ∈ s.instances, entry.hash ∈ s.toCleanupInstances → entry.listeners = []
  | _ => True

/-- Neither a default field nor a link rule writes the member. -/
structure Unwritten (memberName : Bytes) : Prop where
  initDefaultFieldsValue : ∀ moment hash store,
    (search.initDefaultFieldsValue moment hash store).written memberName = none
  providers : ∀ linkRule ∈ search.providers, ∀ supplement hash store,
    (linkRule supplement hash store).written memberName = none

/-- A search without default fields and providers writes nothing. -/
theorem unwritten_plain (query : EndpointQuery) (criteria : FindObjectDBusQuery)
    (memberName : Bytes) : Unwritten { query, criteria } memberName where
  initDefaultFieldsValue _ _ _ := rfl
  providers _ hlinkRule := absurd hlinkRule List.not_mem_nil

/-- Only the properties are read into the member. -/
structure Kept (memberName : Bytes) : Prop where
  unwritten : Unwritten search memberName
  supplement : ∀ self, (search.query.supplementByStaticFields self).2.memberInstances memberName =
    self.memberInstances memberName

/-- The members that are kept have the values of their properties. -/
def Current (object : WatchedObject types) (self : InstanceData) : Prop :=
  ∀ interface setter, (interface, setter) ∈ search.query.reflections →
    Kept search setter.memberName →
      self.memberInstances setter.memberName =
        search.query.reflectedValue (object.get interface) setter

/-- The formatters take what is there, and the supplement raises nothing. -/
structure Calm (types : PropertyTypes) : Prop where
  orderly : search.query.Orderly
  accepts : ∀ interface, search.query.Accepts types interface
  returns : ∀ (object : WatchedObject types) self, Current search object self →
    (search.query.supplementByStaticFields self).1 = none
  serviceName : ∀ self,
    (search.query.supplementByStaticFields self).2.serviceName = self.serviceName

/-! ## Instances that reflect their objects -/

/-- The instance watches the object, has the values of its properties, and was supplemented
since. -/
structure Reflects (object : WatchedObject types) (instance_ : InstanceData) : Prop where
  serviceName : instance_.serviceName = object.serviceName
  objectPath : instance_.objectPath = object.objectPath
  watches : instance_.Watches search.query object.interfaces
  members : Current search object instance_
  settled : ∃ earlier : InstanceData, earlier.objectPath = object.objectPath ∧
    ∀ memberName, Unwritten search memberName → instance_.memberInstances memberName =
      (search.query.supplementByStaticFields earlier).2.memberInstances memberName

section

variable {query : EndpointQuery} {self : InstanceData}

/-- Properties do not change the service of an instance. -/
theorem serviceName_resolveAll (values : List (Bytes × DbusVariant)) :
    (self.resolveAll values).serviceName = self.serviceName := by
  induction values generalizing self with
  | nil => rfl
  | cons value rest ih => exact ih

theorem serviceName_filled {interfaceName : Bytes} {properties : DBusPropertiesMap} :
    (query.filled interfaceName properties self).serviceName = self.serviceName := by
  rw [EndpointQuery.filled, fillMembers, fillSetters_self]
  exact serviceName_resolveAll _

theorem serviceName_filledAll {properties : Bytes → DBusPropertiesMap} {names : List Bytes} :
    (query.filledAll properties names self).serviceName = self.serviceName := by
  induction names generalizing self with
  | nil => rfl
  | cons name rest ih => exact ih.trans serviceName_filled

/-- Setters look properties up, and nothing else. -/
theorem fillSetters_congr {properties properties' : DBusPropertiesMap}
    (hsame : SameProperties properties properties') (setters : List PropertySetter) :
    fillSetters query properties setters self = fillSetters query properties' setters self := by
  induction setters generalizing self with
  | nil => rfl
  | cons setter rest ih =>
      rw [fillSetters, fillSetters, hsame]
      split
      · exact ih
      · split
        · rfl
        · rw [ih]

/-- The loop of {lit}`initialize` fills the interfaces whose calls return. -/
theorem fillInterfaces_of_truthful (hquery : query.Orderly)
    {getAll : Bytes → Option DBusPropertiesMap} {properties : Bytes → DBusPropertiesMap}
    {names : List Bytes} (htruthful : ∀ name ∈ names, ∀ reply, getAll name = some reply →
      SameProperties reply (properties name)) :
    (query.fillInterfaces getAll names self).raised = none ∧
      (query.fillInterfaces getAll names self).self =
        query.filledAll properties (names.filter fun name => (getAll name).isSome) self := by
  induction names generalizing self with
  | nil => exact ⟨rfl, rfl⟩
  | cons name rest ih =>
      obtain ⟨hname, hrest⟩ := List.forall_mem_cons.mp htruthful
      rw [EndpointQuery.fillInterfaces]
      cases hreply : getAll name with
      | none =>
          rw [List.filter_cons_of_neg (by simp [hreply])]
          exact ih hrest
      | some reply =>
          have hfilled : fillMembers (some query) name reply self =
              fillMembers (some query) name (properties name) self :=
            fillSetters_congr (hname reply hreply) _
          rw [List.filter_cons_of_pos (by simp [hreply])]
          simp only [hfilled]
          split
          · exact ih hrest
          · next exception hraised =>
              obtain ⟨property, value, hrefused⟩ := fillMembers_raised hraised
              rw [if_pos (hquery.formatters property value exception hrefused)]
              exact ih hrest

end

section

variable {search} {object : WatchedObject types} {self : InstanceData}
  {answers : ObjectBus} {change : PropertyChange types}

/-- Where the call about an interface fails the member is current already; otherwise it may
also be new. -/
def Readable (search : Search) (answers : ObjectBus) (object : WatchedObject types)
    (self : InstanceData) : Prop :=
  ∀ interface setter, (interface, setter) ∈ search.query.reflections →
    Kept search setter.memberName →
      self.memberInstances setter.memberName =
          search.query.reflectedValue (object.get interface) setter ∨
        self.memberInstances setter.memberName = none ∧ (interface ∈ object.interfaces →
          (answers.getAll object.serviceName object.objectPath interface).isSome)

/-- Filling the interfaces makes the members current. -/
theorem current_filledAll (hquery : Calm search types)
    (hwatches : self.Watches search.query object.interfaces)
    (hmembers : Readable search answers object self) :
    Current search object (search.query.filledAll object.properties
      ((self.targetProperties.map Prod.fst).filter fun name =>
        (answers.getAll object.serviceName object.objectPath name).isSome) self) := by
  intro interface setter hsetter hkept
  let names := (self.targetProperties.map Prod.fst).filter fun name =>
    (answers.getAll object.serviceName object.objectPath name).isSome
  have hnodup : names.Nodup := by
    apply List.Nodup.filter
    rw [hwatches]
    exact hquery.orderly.interfaces.sublist (List.filter_sublist.map Prod.fst)
  have hfilled := @filledAll_reflected search.query self setter interface object.interfaces
    hquery.orderly hwatches object.properties names hnodup hsetter
    fun other hother => accepted_of_typed (hquery.accepts _) (object.typed interface) hother
  rw [hfilled]
  have hwatched := mem_targetProperties_iff hsetter hwatches
  have hnames : interface ∈ names ↔ interface ∈ object.interfaces ∧
      (answers.getAll object.serviceName object.objectPath interface).isSome :=
    List.mem_filter.trans (and_congr_left' hwatched)
  by_cases hread : interface ∈ names ∧ interface ∈ object.interfaces
  · rw [if_pos hread, WatchedObject.get, if_pos hread.2]
    rcases hmembers interface setter hsetter hkept with hsame | ⟨hnone, -⟩
    · rw [hsame, WatchedObject.get, if_pos hread.2, Option.or_self]
    · rw [hnone, Option.or_none]
  · rw [if_neg hread, reflectedValue_nil, Option.none_or]
    rcases hmembers interface setter hsetter hkept with hsame | ⟨hnone, hreturns⟩
    · exact hsame
    · -- no call about the interface was left out, so that the object does not have it
      have habsent : interface ∉ object.interfaces := fun hinterface =>
        hread ⟨hnames.mpr ⟨hinterface, hreturns hinterface⟩, hinterface⟩
      rw [hnone, WatchedObject.get, if_neg habsent, reflectedValue_nil]

/-- An instance that is read from its object, whether it is new or has the values that are
there. -/
theorem Reflects.initialized (hquery : Calm search types) (htruthful : Truthful answers object)
    (hservice : self.serviceName = object.serviceName)
    (hpath : self.objectPath = object.objectPath)
    (hwatches : self.Watches search.query object.interfaces)
    (hmembers : Readable search answers object self) :
    (search.query.initializeInstance answers self).raised = none ∧
      Reflects search object (search.query.initializeInstance answers self).self := by
  let names := (self.targetProperties.map Prod.fst).filter fun name =>
    (answers.getAll object.serviceName object.objectPath name).isSome
  let filled := search.query.filledAll object.properties names self.setUninitialized
  have hinterfaces : ∀ name ∈ self.targetProperties.map Prod.fst, name ∈ object.interfaces := by
    intro name hname
    rw [hwatches] at hname
    obtain ⟨endpoint, hendpoint, rfl⟩ := List.mem_map.mp hname
    exact of_decide_eq_true (List.mem_filter.mp hendpoint).2
  obtain ⟨hraised, hself⟩ := @fillInterfaces_of_truthful search.query self.setUninitialized
    hquery.orderly (answers.getAll object.serviceName object.objectPath) object.properties
    (self.targetProperties.map Prod.fst)
    fun name hname => htruthful name (hinterfaces name hname)
  have hframe : filled.targetProperties = self.targetProperties ∧
      filled.objectPath = self.objectPath :=
    filledAll_frame
  have hsupplement := hquery.orderly.supplement filled
  have hcurrent : Current search object filled :=
    @current_filledAll types search object self.setUninitialized answers hquery hwatches hmembers
  have hreturns : (search.query.supplementByStaticFields filled).1 = none :=
    hquery.returns object filled hcurrent
  have hreflects : Reflects search object (search.query.supplementByStaticFields filled).2 := by
    constructor
    · exact (hquery.serviceName filled).trans (serviceName_filledAll.trans hservice)
    · exact hsupplement.2.trans (hframe.2.trans hpath)
    · exact hsupplement.1.trans (hframe.1.trans hwatches)
    · intro interface setter hsetter hkept
      exact (hkept.supplement filled).trans (hcurrent interface setter hsetter hkept)
    · exact ⟨filled, hframe.2.trans hpath, fun _ _ => rfl⟩
  rw [← hservice, ← hpath] at hraised hself
  simp only [EndpointQuery.initializeInstance, hraised, hself]
  rw [hservice, hpath, hreturns]
  refine ⟨rfl, ?_⟩
  dsimp only
  split
  · exact hreflects
  · exact ⟨hreflects.serviceName, hreflects.objectPath, hreflects.watches, hreflects.members,
      hreflects.settled⟩

/-- The same instance reflects an object that differs in what is not configured. -/
theorem Reflects.congr {object' : WatchedObject types} (hreflects : Reflects search object self)
    (hservice : object'.serviceName = object.serviceName)
    (hpath : object'.objectPath = object.objectPath)
    (hinterfaces : ∀ endpoint ∈ search.query.getSearchPropertiesMap,
      (endpoint.1 ∈ object'.interfaces ↔ endpoint.1 ∈ object.interfaces))
    (hproperties : ∀ interface ∈ object.interfaces,
      object'.properties interface = object.properties interface) :
    Reflects search object' self := by
  constructor
  · exact hreflects.serviceName.trans hservice.symm
  · exact hreflects.objectPath.trans hpath.symm
  · refine hreflects.watches.trans ?_
    apply List.filter_congr
    intro endpoint hendpoint
    rw [decide_eq_decide]
    exact (hinterfaces endpoint hendpoint).symm
  · intro interface setter hsetter hkept
    have hget : object'.get interface = object.get interface := by
      obtain ⟨endpoint, hendpoint, hmap⟩ := List.mem_flatMap.mp hsetter
      obtain ⟨other, -, heq⟩ := List.mem_map.mp hmap
      obtain ⟨rfl, -⟩ := Prod.mk.inj heq
      rw [WatchedObject.get, WatchedObject.get]
      by_cases hinterface : endpoint.1 ∈ object.interfaces
      · rw [if_pos hinterface, if_pos ((hinterfaces endpoint hendpoint).mpr hinterface),
          hproperties endpoint.1 hinterface]
      · rw [if_neg hinterface, if_neg (mt (hinterfaces endpoint hendpoint).mp hinterface)]
    rw [hget]
    exact hreflects.members interface setter hsetter hkept
  · rw [hpath]
    exact hreflects.settled

/-- A writer that leaves the unwritten members alone leaves the instance as it is to be. -/
theorem Reflects.written (hreflects : Reflects search object self)
    {writer : Writer Bytes FieldType Exception} (hwriter : ∀ memberName,
      Unwritten search memberName → (writer self.memberInstances).written memberName = none) :
    Reflects search object (self.written writer) := by
  have hsame : ∀ memberName, Unwritten search memberName →
      (self.written writer).memberInstances memberName = self.memberInstances memberName := by
    intro memberName hunwritten
    rw [InstanceData.written_memberInstances, hwriter memberName hunwritten, Option.none_or]
  constructor
  · exact hreflects.serviceName
  · exact hreflects.objectPath
  · exact hreflects.watches
  · intro interface setter hsetter hkept
    exact (hsame _ hkept.unwritten).trans (hreflects.members interface setter hsetter hkept)
  · obtain ⟨earlier, hpath, hsettled⟩ := hreflects.settled
    exact ⟨earlier, hpath, fun memberName hunwritten =>
      (hsame memberName hunwritten).trans (hsettled memberName hunwritten)⟩

/-- A signal that is watched or not leaves an instance that reflects the changed object. -/
theorem Reflects.follow (hquery : Calm search types) (hreflects : Reflects search object self) :
    Reflects search (object.changed change) (search.query.follow ⟨object, self⟩ change).self := by
  have hfollows : Follows search.query ⟨object, self⟩ := ⟨hreflects.watches, hreflects.objectPath⟩
  have hnext : Follows search.query (search.query.follow ⟨object, self⟩ change) :=
    hfollows.follow hquery.orderly
  have hself : (Following.mk object self).watches change = true →
      (search.query.follow ⟨object, self⟩ change).self = (search.query.supplementByStaticFields
        (search.query.filled change.interfaceName change.changedValues self)).2 :=
    follow_self_of_accepts hquery.orderly hfollows (hquery.accepts _)
  constructor
  · cases hwatched : (Following.mk object self).watches change with
    | false =>
        rw [follow_self_of_not hwatched]
        exact hreflects.serviceName
    | true =>
        rw [hself hwatched, hquery.serviceName, serviceName_filled]
        exact hreflects.serviceName
  · exact hnext.objectPath
  · exact hnext.watches
  · intro interface setter hsetter hkept
    exact follow_member hquery.orderly hfollows (hquery.accepts _) hsetter hkept.supplement
      (hreflects.members interface setter hsetter hkept)
  · cases hwatched : (Following.mk object self).watches change with
    | false =>
        rw [follow_self_of_not hwatched]
        exact hreflects.settled
    | true =>
        exact ⟨_, filled_frame.2.trans hreflects.objectPath, fun memberName _ =>
          congrFun (congrArg InstanceData.memberInstances (hself hwatched)) memberName⟩

end

end Mirror
end Entity
end ObmcWebapp
