import ObmcWebapp.Entity.Criteria
import ObmcWebapp.Entity.Properties
import ObmcWebapp.Library.SetDifference

/-!
# Entity - The interfaces of a signal

A query for one object, and one for all objects of a service, take a signal if it names
one of their interfaces.  {lit}`checkCriteria` takes the names in the signal out of its own
list and looks whether that became shorter.  Both lists come in any order, but
{lit}`std::set_difference` is for sorted ranges.

Main results:

- Theorem {lit}`checkInterfaces_intersect_iff`: when {lit}`checkCriteria` decides whether the
  lists have an interface in common.
- Theorem {lit}`meetInOrder_of_sorted`: it does for sorted lists.
-/

open Library

namespace ObmcWebapp
namespace Entity

/-! ## The queries -/

/-- A query for one object; {lit}`searchInterfaces` has the order of its declaration. -/
structure GetObjectDBusQuery where
  serviceName : Bytes
  objectPath : Bytes
  searchInterfaces : List Bytes

namespace GetObjectDBusQuery

/-- {lit}`getObjectPathNamespace` -/
def getObjectPathNamespace (query : GetObjectDBusQuery) : Bytes :=
  query.objectPath

/-- {lit}`checkCriteria` of a path and a service. -/
def checkCriteria (query : GetObjectDBusQuery) (objectPath : Bytes)
    (optionalServiceName : Option Bytes) : Bool :=
  if optionalServiceName ≠ some query.serviceName then false
  else if query.getObjectPathNamespace ≠ objectPath then false
  else true

/-- {lit}`checkCriteria` with the interfaces as well. -/
def checkInterfaces (query : GetObjectDBusQuery) (objectPath : Bytes)
    (inputInterfaces : List Bytes) (optionalServiceName : Option Bytes) : Bool :=
  if !query.checkCriteria objectPath optionalServiceName then false
  else
    let notMatchedInterfaces := setDifference query.searchInterfaces inputInterfaces
    -- no interface matched
    if notMatchedInterfaces.length = query.searchInterfaces.length then false
    else true

end GetObjectDBusQuery

/-- A query for all objects of a service. -/
structure IntrospectServiceDBusQuery where
  serviceName : Bytes
  getSearchPropertiesMap : DBusPropertyEndpointMap

namespace IntrospectServiceDBusQuery

/-- The keys of the endpoint configuration, in their order. -/
def activeInterfaces (query : IntrospectServiceDBusQuery) : List Bytes :=
  query.getSearchPropertiesMap.map Prod.fst

/-- {lit}`checkCriteria` of a path, which does not matter, and a service. -/
def checkCriteria (query : IntrospectServiceDBusQuery) (_objectPath : Bytes)
    (optionalServiceName : Option Bytes) : Bool :=
  if optionalServiceName ≠ some query.serviceName then false else true

/-- {lit}`checkInterfaces` with the active interfaces. -/
def checkInterfaces (query : IntrospectServiceDBusQuery) (objectPath : Bytes)
    (inputInterfaces : List Bytes) (optionalServiceName : Option Bytes) : Bool :=
  let activeInterfaces := query.activeInterfaces
  if !query.checkCriteria objectPath optionalServiceName then false
  else
    let notMatchedInterfaces := setDifference activeInterfaces inputInterfaces
    if notMatchedInterfaces.length = activeInterfaces.length then false
    else true

end IntrospectServiceDBusQuery

/-! ## What a signal is taken for -/

/-- The object of the signal is the one of the query. -/
def GetObjectDBusQuery.Matches (query : GetObjectDBusQuery) (objectPath : Bytes)
    (service : Option Bytes) : Prop :=
  service = some query.serviceName ∧ objectPath = query.objectPath

/-- The object of the signal is one of the service. -/
def IntrospectServiceDBusQuery.Matches (query : IntrospectServiceDBusQuery)
    (service : Option Bytes) : Prop :=
  service = some query.serviceName

/-- Lists that have an interface in common have one that is greater than all before it
in either of them. -/
def MeetInOrder (own input : List Bytes) : Prop :=
  Intersect own input → ∃ interface, LeadingMax interface own ∧ LeadingMax interface input

section

variable {own input : List Bytes} {objectPath : Bytes} {service : Option Bytes}

/-- What {lit}`checkCriteria` checks. -/
theorem GetObjectDBusQuery.checkCriteria_iff {query : GetObjectDBusQuery} :
    query.checkCriteria objectPath service = true ↔ query.Matches objectPath service := by
  simp only [checkCriteria, Matches, getObjectPathNamespace]
  by_cases hservice : service = some query.serviceName
  · simp [hservice, eq_comm]
  · simp [hservice]

/-- What {lit}`checkCriteria` checks. -/
theorem IntrospectServiceDBusQuery.checkCriteria_iff {query : IntrospectServiceDBusQuery} :
    query.checkCriteria objectPath service = true ↔ query.Matches service := by
  simp [checkCriteria, Matches]

/-- Equal greatest interfaces are a common one. -/
theorem intersect_of_leadingMax
    (h : ∃ interface, LeadingMax interface own ∧ LeadingMax interface input) :
    Intersect own input := by
  obtain ⟨interface, hown, hinput⟩ := h
  exact ⟨interface, hinput.mem, hown.mem⟩

/-- What {lit}`checkInterfaces` checks. -/
theorem GetObjectDBusQuery.checkInterfaces_iff {query : GetObjectDBusQuery} :
    query.checkInterfaces objectPath input service = true ↔
      query.Matches objectPath service ∧
        ∃ interface, LeadingMax interface query.searchInterfaces ∧ LeadingMax interface input := by
  rw [← checkCriteria_iff, checkInterfaces]
  simp [length_setDifference_eq_iff]

/-- What {lit}`checkInterfaces` checks. -/
theorem IntrospectServiceDBusQuery.checkInterfaces_iff {query : IntrospectServiceDBusQuery} :
    query.checkInterfaces objectPath input service = true ↔
      query.Matches service ∧
        ∃ interface, LeadingMax interface query.activeInterfaces ∧ LeadingMax interface input := by
  rw [← @checkCriteria_iff objectPath, checkInterfaces]
  simp [length_setDifference_eq_iff]

/-- A check that looks for a common leading maximum finds the common interfaces exactly
where the lists meet in order, if it comes to look. -/
theorem check_intersect_iff {matched accepted : Prop}
    (hcheck : accepted ↔
      matched ∧ ∃ interface, LeadingMax interface own ∧ LeadingMax interface input) :
    (accepted ↔ matched ∧ Intersect own input) ↔ (matched → MeetInOrder own input) := by
  rw [hcheck, and_congr_right_iff]
  apply forall_congr'
  intro _
  constructor
  · exact fun h => h.mpr
  · exact fun h => ⟨intersect_of_leadingMax, h⟩

/-- Both checks accept the signals about their objects that name one of their interfaces,
exactly where the lists meet in order. -/
theorem checkInterfaces_intersect_iff (query : GetObjectDBusQuery)
    (serviceQuery : IntrospectServiceDBusQuery) (objectPath : Bytes)
    (inputInterfaces : List Bytes) (service : Option Bytes) :
    ((query.checkInterfaces objectPath inputInterfaces service = true ↔
          query.Matches objectPath service ∧
            Intersect query.searchInterfaces inputInterfaces) ↔
        (query.Matches objectPath service →
          MeetInOrder query.searchInterfaces inputInterfaces)) ∧
      ((serviceQuery.checkInterfaces objectPath inputInterfaces service = true ↔
          serviceQuery.Matches service ∧
            Intersect serviceQuery.activeInterfaces inputInterfaces) ↔
        (serviceQuery.Matches service →
          MeetInOrder serviceQuery.activeInterfaces inputInterfaces)) := by
  constructor
  · exact check_intersect_iff GetObjectDBusQuery.checkInterfaces_iff
  · exact check_intersect_iff IntrospectServiceDBusQuery.checkInterfaces_iff

/-- In sorted lists a common interface is met. -/
theorem meetInOrder_of_sorted (hown : own.Pairwise (· ≤ ·)) (hinput : input.Pairwise (· ≤ ·)) :
    MeetInOrder own input := by
  intro hintersect
  obtain ⟨interface, hgiven, hsearched⟩ := hintersect
  exact ⟨interface, leadingMax_of_sorted hown hsearched, leadingMax_of_sorted hinput hgiven⟩

end

/-! ## The callback manager -/

namespace StatusByCallbackManager

/-- The interface of a global item. -/
def globalIface : Bytes := bytes "xyz.openbmc_project.Inventory.Item.Global"

/-- The interface with the associations. -/
def assocIface : Bytes := bytes "xyz.openbmc_project.Association.Definitions"

/-- {lit}`StatusByCallbackManager::Query` -/
def query : GetObjectDBusQuery where
  serviceName := bytes "xyz.openbmc_project.CallbackManager"
  objectPath := bytes "/xyz/openbmc_project/CallbackManager"
  searchInterfaces := [globalIface, assocIface]

/-- A signal about the associations alone is not taken, although they are looked for. -/
theorem associations_not_accepted :
    query.Matches query.objectPath (some query.serviceName) ∧
      Intersect query.searchInterfaces [assocIface] ∧
      query.checkInterfaces query.objectPath [assocIface] (some query.serviceName) = false := by
  refine ⟨⟨rfl, rfl⟩, ⟨assocIface, by simp, by simp [query]⟩, ?_⟩
  decide +kernel

end StatusByCallbackManager

end Entity
end ObmcWebapp
