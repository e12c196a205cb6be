import ObmcWebapp.Entity.DBusInstance
import ObmcWebapp.Entity.Properties

/-!
# Entity - Processing a query

A query asks the bus for objects, builds an instance of each, fills it with the
object's properties and registers its watchers.  Different layers catch different
exceptions: a failed search is an event of the query, a runtime error while an instance
is initialised marks the instance, a supplement and the registration of a watcher are
not guarded at all.

The instances of a query that runs no search of its own (a copy of another entity's
instances, a constant) are given.

Main results:

- Theorem {lit}`EndpointQuery.initializeInstance_raised`: the exceptions that leave the
  initialisation of an instance.
- Theorem {lit}`EndpointQuery.discoverAll_raised`: a search lets out bus errors alone,
  where its formatters raise runtime errors alone and its supplement raises nothing.
-/

open Library

namespace ObmcWebapp
namespace Entity

/-! ## What the bus answers -/

/-- The calls that an instance makes.  {lit}`getAll` is none where the call fails, and
{lit}`createWatcher` is false where the match cannot be registered. -/
structure ObjectBus where
  getAll : (serviceName objectPath interface : Bytes) → Option DBusPropertiesMap
  createWatcher : (objectPath interface : Bytes) → Bool

/-- The reply of {lit}`GetSubTree`: paths with services and their interfaces. -/
abbrev SubTree := List (Bytes × List (Bytes × List Bytes))

/-- The reply of {lit}`GetManagedObjects`: paths with interfaces and their properties. -/
abbrev ObjectValueTree := List (Bytes × List (Bytes × DBusPropertiesMap))

/-! ## Instances -/

/-- An instance that is initialised, with the exception that ended it.  {lit}`hasError`
says that an interface was left out. -/
structure Initialization where
  raised : Option Exception
  self : InstanceData
  hasError : Bool

namespace EndpointQuery

/-- The loop of {lit}`initialize` over the interfaces.  A failed {lit}`GetAll` is a runtime
error by itself. -/
def fillInterfaces (query : EndpointQuery) (getAll : Bytes → Option DBusPropertiesMap) :
    List Bytes → InstanceData → Initialization
  | [], self => ⟨none, self, false⟩
  | interface :: rest, self =>
      match getAll interface with
      | none => { query.fillInterfaces getAll rest self with hasError := true }
      | some properties =>
          let filling := fillMembers (some query) interface properties self
          match filling.raised with
          | none => query.fillInterfaces getAll rest filling.self
          | some exception =>
              if exception.isRuntimeError then
                { query.fillInterfaces getAll rest filling.self with hasError := true }
              else ⟨some exception, filling.self, true⟩

/-- {lit}`DBusInstance::initialize` -/
def initializeInstance (query : EndpointQuery) (bus : ObjectBus) (self : InstanceData) :
    Initialization :=
  let filled := query.fillInterfaces (bus.getAll self.serviceName self.objectPath)
    (self.targetProperties.map Prod.fst) self.setUninitialized
  match filled.raised with
  | some _ => filled
  | none =>
      let (raised, self) := query.supplementByStaticFields filled.self
      match raised with
      | some exception => { filled with raised := some exception, self }
      | none => { filled with self := if filled.hasError then self else self.setInitialized }

/-- {lit}`createInstance`, with the interfaces that the query knows. -/
def createInstance (query : EndpointQuery) (bus : ObjectBus) (found : FoundObject) :
    Initialization :=
  let epMap := query.getSearchPropertiesMap.filter fun endpoint => endpoint.1 ∈ found.interfaces
  query.initializeInstance bus (.construct found.serviceName found.objectPath epMap false)

end EndpointQuery

/-- {lit}`bindListeners`: the first watcher that cannot be created ends it. -/
def InstanceData.bindListeners (bus : ObjectBus) (self : InstanceData) : Except Exception Unit :=
  if self.targetProperties.all fun endpoint => bus.createWatcher self.objectPath endpoint.1 then
    .ok ()
  else .error .sdBusError

/-! ## Queries -/

namespace EndpointQuery

/-- The instances of some objects, created and bound in order. -/
def discoverAll (query : EndpointQuery) (bus : ObjectBus) :
    List FoundObject → Except Exception (List InstanceData)
  | [] => .ok []
  | found :: rest =>
      let created := query.createInstance bus found
      match created.raised with
      | some exception => .error exception
      | none =>
          match created.self.bindListeners bus with
          | .error exception => .error exception
          | .ok () => (query.discoverAll bus rest).map fun instances => created.self :: instances

/-- The interfaces of one object of an introspected service. -/
def fillIntrospected (query : EndpointQuery) :
    List (Bytes × DBusPropertiesMap) → InstanceData → Except Exception InstanceData
  | [], self => .ok self
  | (interfaceName, propertiesMap) :: rest, self =>
      let filling := fillMembers (some query) interfaceName propertiesMap self
      match filling.raised with
      | some exception => .error exception
      | none => query.fillIntrospected rest filling.self

/-- One object of an introspected service. -/
def introspect (query : EndpointQuery) (bus : ObjectBus) (serviceName objectPath : Bytes)
    (interfaces : List (Bytes × DBusPropertiesMap)) : Except Exception InstanceData :=
  let created := InstanceData.construct serviceName objectPath query.getSearchPropertiesMap true
  match query.fillIntrospected interfaces created with
  | .error exception => .error exception
  | .ok filled =>
      match query.supplementByStaticFields filled with
      | (some exception, _) => .error exception
      | (none, supplemented) =>
          (supplemented.bindListeners bus).map fun _ => supplemented

/-- The instances of a tree of objects. -/
def introspectAll (query : EndpointQuery) (bus : ObjectBus) (serviceName : Bytes) :
    ObjectValueTree → Except Exception (List InstanceData)
  | [] => .ok []
  | (objectPath, interfaces) :: rest =>
      match query.introspect bus serviceName objectPath interfaces with
      | .error exception => .error exception
      | .ok instance_ =>
          (query.introspectAll bus serviceName rest).map fun instances => instance_ :: instances

end EndpointQuery

/-- The objects of a reply, those of the wanted service where the criteria name one. -/
def SubTree.objects (service : Option Bytes) (mapperResponse : SubTree) : List FoundObject :=
  mapperResponse.flatMap fun (objectPath, serviceInfoList) =>
    (serviceInfoList.filter fun info => service.all (· = info.1)).map fun (serviceName, interfaces) =>
      { serviceName, objectPath, interfaces }

/-- A query and what the bus answers to it in one population.  A failed search is
none. -/
inductive QueryRun
  | findObject (query : EndpointQuery) (service : Option Bytes) (getSubTree : Option SubTree)
      (bus : ObjectBus)
  | getObject (query : EndpointQuery) (found : FoundObject) (bus : ObjectBus)
  | introspectService (query : EndpointQuery) (serviceName : Bytes)
      (getManagedObjects : Option ObjectValueTree) (bus : ObjectBus)
  /-- A call and what {lit}`populateInstances` makes of its reply. -/
  | viaMethodCall (populated : Except Exception (List InstanceData))
  /-- A query that is no {lit}`DBusQuery`. -/
  | other (result : Except Exception (List InstanceData))

/-- The end of a {lit}`process`.  {lit}`raisedError` says that the query emitted
{lit}`hasFailures`. -/
structure Processed where
  raisedError : Bool
  result : Except Exception (List InstanceData)

namespace Processed

/-- The exception that leaves the query. -/
def exception (processed : Processed) : Option Exception :=
  match processed.result with
  | .ok _ => none
  | .error exception => some exception

/-- The query ran to its end and reported no failure. -/
def succeeded (processed : Processed) : Bool :=
  !processed.raisedError && processed.exception.isNone

end Processed

/-- {lit}`process` -/
def QueryRun.process : QueryRun → Processed
  | .findObject query service getSubTree bus =>
      match getSubTree with
      | none => ⟨true, query.discoverAll bus []⟩
      | some mapperResponse => ⟨false, query.discoverAll bus (mapperResponse.objects service)⟩
  | .getObject query found bus => ⟨false, query.discoverAll bus [found]⟩
  | .introspectService query serviceName getManagedObjects bus =>
      match getManagedObjects with
      | none => ⟨true, query.introspectAll bus serviceName []⟩
      | some response => ⟨false, query.introspectAll bus serviceName response⟩
  | .viaMethodCall populated =>
      match populated with
      | .error .sdBusError => ⟨true, .ok []⟩
      | result => ⟨false, result⟩
  | .other result => ⟨false, result⟩

/-! ## The exceptions that leave a query -/

namespace EndpointQuery

variable {query : EndpointQuery} {bus : ObjectBus} {exception : Exception}

/-- Runtime errors do not leave the loop. -/
theorem fillInterfaces_raised {getAll : Bytes → Option DBusPropertiesMap}
    {interfaces : List Bytes} {self : InstanceData}
    (hraised : (query.fillInterfaces getAll interfaces self).raised = some exception) :
    exception.isRuntimeError = false := by
  induction interfaces generalizing self with
  | nil => exact absurd hraised (by simp [fillInterfaces])
  | cons interface rest ih =>
      rw [fillInterfaces] at hraised
      split at hraised
      · exact ih hraised
      · dsimp only at hraised
        split at hraised
        · exact ih hraised
        · split at hraised
          · exact ih hraised
          · next hescapes =>
              have heq := Option.some.inj hraised
              rw [← heq]
              simpa using hescapes

/-- The supplement is not guarded. -/
theorem initializeInstance_raised {self : InstanceData}
    (hraised : (query.initializeInstance bus self).raised = some exception) :
    exception.isRuntimeError = false ∨
      ∃ filled, (query.supplementByStaticFields filled).1 = some exception := by
  unfold initializeInstance at hraised
  dsimp only at hraised
  split at hraised
  · exact Or.inl (fillInterfaces_raised hraised)
  · next hfilled =>
      split at hraised
      · next hsupplement => exact Or.inr ⟨_, hsupplement.trans hraised⟩
      · exact absurd (hfilled.symm.trans hraised) (by simp)

/-- Every exception of the formatters is a runtime error, and the supplement raises
none. -/
structure RaisesRuntimeErrors (query : EndpointQuery) : Prop where
  formatters : ∀ property value exception,
    query.processFormatters property value = .error exception → exception.isRuntimeError
  supplement : ∀ instance_, (query.supplementByStaticFields instance_).1 = none

/-- A query whose formatters fail at runtime raises nothing else. -/
theorem RaisesRuntimeErrors.fillInterfaces_raised (hquery : query.RaisesRuntimeErrors)
    {getAll : Bytes → Option DBusPropertiesMap} {interfaces : List Bytes} {self : InstanceData} :
    (query.fillInterfaces getAll interfaces self).raised = none := by
  induction interfaces generalizing self with
  | nil => rfl
  | cons interface rest ih =>
      rw [fillInterfaces]
      split
      · exact ih
      · next properties _ =>
          dsimp only
          split
          · exact ih
          · next exception hraised =>
              obtain ⟨property, value, hrefused⟩ := fillMembers_raised hraised
              rw [if_pos (hquery.formatters property value exception hrefused)]
              exact ih

/-- Such an error does not get out of {lit}`initialize`. -/
theorem RaisesRuntimeErrors.initializeInstance_raised (hquery : query.RaisesRuntimeErrors)
    {self : InstanceData} : (query.initializeInstance bus self).raised = none := by
  unfold initializeInstance
  simp only [hquery.fillInterfaces_raised, hquery.supplement]

/-- A search whose formatters raise runtime errors alone lets out bus errors alone. -/
theorem discoverAll_raised (hquery : query.RaisesRuntimeErrors) {objects : List FoundObject}
    (hraised : query.discoverAll bus objects = .error exception) : exception = .sdBusError := by
  induction objects with
  | nil => exact absurd hraised (by simp [discoverAll])
  | cons found rest ih =>
      have hcreated : (query.createInstance bus found).raised = none :=
        hquery.initializeInstance_raised
      rw [discoverAll] at hraised
      simp only [hcreated] at hraised
      split at hraised
      · next hbind =>
          unfold InstanceData.bindListeners at hbind
          split at hbind
          · exact absurd hbind (by simp)
          · have herror := Except.error.inj hbind
            rw [← Except.error.inj hraised, ← herror]
      · cases hrest : query.discoverAll bus rest with
        | error raised =>
            rw [hrest] at hraised
            have heq : raised = exception := Except.error.inj hraised
            exact ih (hrest.trans (congrArg Except.error heq))
        | ok instances =>
            rw [hrest] at hraised
            exact absurd hraised (by simp [Except.map])

end EndpointQuery

end Entity
end ObmcWebapp
