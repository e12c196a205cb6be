import ObmcWebapp.Entity.Criteria
import ObmcWebapp.Entity.Instances
import ObmcWebapp.Entity.Properties

/-!
# Entity - The addresses of an Ethernet interface

The relation between the Ethernet interfaces and the IP addresses compares the paths of
the objects as texts: the address's path has to begin with the interface's path and a
slash.  The search for interfaces admits one segment beneath the network objects, and
also an object at the path of the network objects itself.

Main results:

- Theorem {lit}`atRoot_or_onlySlashes`: of two admitted interfaces one beneath the other,
  the upper one is at the root, or the lower one has only more slashes.
- Theorem {lit}`NetworkCache.linksSoundly_iff`: when every address is related to one
  interface at most.
-/

open Library

namespace ObmcWebapp
namespace Entity

/-! ## The searches and the relation -/

/-- The search of the IP addresses. -/
def ipQuery : FindObjectDBusQuery where
  getQueryCriteria :=
    { path := bytes "/xyz/openbmc_project/network"
      interfaces := [bytes "xyz.openbmc_project.Network.IP"]
      depth := 0
      service := some (bytes "xyz.openbmc_project.Network") }
  searchProperties := [bytes "xyz.openbmc_project.Network.IP"]

/-- The two entities of the relation. -/
inductive NetworkEntity
  | ethernet
  | ip
deriving DecidableEq

/-- The comparison of {lit}`relationToIp`. -/
def startsWithPath : CompareCallback := fun instance_ value =>
  match value with
  | .string objectPath =>
      match instance_ with
      | none => .ok false
      | some field => .ok ((objectPath ++ bytes "/").isPrefixOf field.getStringValue)
  | _ => .error .badVariantAccess

/-- {lit}`relationToIp` -/
def relationToIp : Relation NetworkEntity where
  destination := .ip
  conditionBuildRules := [⟨metaObjectPath, metaObjectPath, startsWithPath⟩]

/-- The names of the entities. -/
def networkSchema : Schema NetworkEntity where
  name
    | .ethernet => bytes "Ethernet"
    | .ip => bytes "IP"
  name_injective := by
    intro first second hname
    cases first <;> cases second <;> first | rfl | exact absurd hname (by decide)
  type _ := .array
  members _ := [metaObjectPath, metaObjectService]
  relations
    | .ethernet => [relationToIp]
    | .ip => []

/-- The queries of the entities. -/
def NetworkEntity.query : NetworkEntity → FindObjectDBusQuery
  | .ethernet => ethernetQuery
  | .ip => ipQuery

/-- The object path that an instance holds. -/
def Instance.objectPath (instance_ : Instance) : Bytes :=
  (instance_.getField metaObjectPath).getStringValue

/-- A cached instance of an object that the criteria of path, depth and service let
through. -/
structure Found (stdHash : Bytes → UInt64) (query : FindObjectDBusQuery) (instance_ : Instance) :
    Prop where
  path : instance_.memberInstances metaObjectPath = some (.string instance_.objectPath)
  hash : instance_.hash =
    getHash stdHash (bytes "xyz.openbmc_project.Network") instance_.objectPath
  inside : Inside query
    ⟨bytes "xyz.openbmc_project.Network", instance_.objectPath, query.searchProperties⟩

/-- The caches of the two entities. -/
structure NetworkCache (stdHash : Bytes → UInt64) extends Cache NetworkEntity where
  found : ∀ entity, ∀ instance_ ∈ instances entity, Found stdHash entity.query instance_

/-! ## Interfaces beneath interfaces -/

/-- The path goes on with slashes only. -/
def OnlySlashes (path longer : Bytes) : Prop :=
  ∃ count, longer = path ++ List.replicate count 0x2F

/-- A text of slashes alone. -/
theorem dropWhile_slashes_eq_nil_iff {text : Bytes} :
    text.dropWhile (· = 0x2F) = [] ↔ ∃ count, text = List.replicate count 0x2F := by
  rw [List.dropWhile_eq_nil_iff]
  constructor
  · intro hall
    exact ⟨text.length, List.eq_replicate_length.mpr fun c hmem => by simpa using hall c hmem⟩
  · rintro ⟨count, rfl⟩ c hmem
    simpa using List.eq_of_mem_replicate hmem

theorem rdropWhile_slashes_eq_nil_iff {text : Bytes} :
    text.rdropWhile (· = 0x2F) = [] ↔ ∃ count, text = List.replicate count 0x2F := by
  rw [List.rdropWhile_eq_nil_iff]
  constructor
  · intro hall
    exact ⟨text.length, List.eq_replicate_length.mpr fun c hmem => by simpa using hall c hmem⟩
  · rintro ⟨count, rfl⟩ c hmem
    simpa using List.eq_of_mem_replicate hmem

/-- Slashes at the end are those of the last part. -/
theorem rdropWhile_append_of_ne_nil {front back : Bytes}
    (hback : back.rdropWhile (· = 0x2F) ≠ []) :
    (front ++ back).rdropWhile (· = 0x2F) = front ++ back.rdropWhile (· = 0x2F) := by
  unfold List.rdropWhile at *
  rw [List.reverse_append, List.dropWhile_append, if_neg]
  · rw [List.reverse_append, List.reverse_reverse]
  · simpa using hback

/-- Two segments with a slash between them are counted as two at least. -/
theorem two_le_countExtraSegmentsOfPath {root upper lower : Bytes}
    (hupper : upper.dropWhile (· = 0x2F) ≠ []) (hlower : lower.rdropWhile (· = 0x2F) ≠ []) :
    2 ≤ countExtraSegmentsOfPath root (root ++ (upper ++ 0x2F :: lower)) := by
  have hfront : (upper ++ 0x2F :: lower).dropWhile (· = 0x2F) =
      upper.dropWhile (· = 0x2F) ++ 0x2F :: lower := by
    rw [List.dropWhile_append, if_neg (by simpa using hupper)]
  have hback : (upper.dropWhile (· = 0x2F) ++ 0x2F :: lower).rdropWhile (· = 0x2F) =
      upper.dropWhile (· = 0x2F) ++ 0x2F :: lower.rdropWhile (· = 0x2F) := by
    rw [List.append_cons, rdropWhile_append_of_ne_nil hlower, ← List.append_cons]
  unfold countExtraSegmentsOfPath
  dsimp only
  rw [List.drop_left, hfront, hback, if_neg (by simp), List.count_append, List.count_cons_self]
  omega

/-- An admitted interface with another one above it: that one is at the root, or it has
only fewer slashes at its end. -/
theorem atRoot_or_onlySlashes {root upper lower : Bytes} (hroot : root <+: upper)
    (hbeneath : upper ++ [0x2F] <+: lower) (hcount : countExtraSegmentsOfPath root lower ≤ 1) :
    OnlySlashes root upper ∨ OnlySlashes upper lower := by
  obtain ⟨first, rfl⟩ := hroot
  obtain ⟨rest, rfl⟩ := hbeneath
  by_cases hupper : first.dropWhile (· = 0x2F) = []
  · obtain ⟨count, rfl⟩ := dropWhile_slashes_eq_nil_iff.mp hupper
    exact Or.inl ⟨count, rfl⟩
  · by_cases hlower : rest.rdropWhile (· = 0x2F) = []
    · obtain ⟨count, rfl⟩ := rdropWhile_slashes_eq_nil_iff.mp hlower
      exact Or.inr ⟨count + 1, by simp [List.replicate_succ]⟩
    · have htwo : 2 ≤ countExtraSegmentsOfPath root (root ++ (first ++ 0x2F :: rest)) :=
        two_le_countExtraSegmentsOfPath hupper hlower
      rw [show root ++ first ++ [0x2F] ++ rest = root ++ (first ++ 0x2F :: rest) by simp] at hcount
      omega

/-- Of two paths above a third one the one is above the other, or they are the same. -/
theorem eq_or_beneath {first second path : Bytes} (hfirst : first ++ [0x2F] <+: path)
    (hsecond : second ++ [0x2F] <+: path) (hle : first.length ≤ second.length) :
    first = second ∨ first ++ [0x2F] <+: second := by
  have hshort : first <+: path := (List.prefix_append _ _).trans hfirst
  have hlong : second <+: path := (List.prefix_append _ _).trans hsecond
  rcases Nat.lt_or_eq_of_le hle with hlt | heq
  · right
    refine List.prefix_of_prefix_length_le hfirst hlong ?_
    rw [List.length_append]
    exact hlt
  · left
    exact (List.prefix_of_prefix_length_le hshort hlong hle).eq_of_length heq

/-! ## The relation in the cache -/

namespace NetworkCache

variable {stdHash : Bytes → UInt64} {cache : NetworkCache stdHash}
  {ethernet ip upper lower : Instance}

/-- The relation gives the address for the interface. -/
def Linked (cache : NetworkCache stdHash) (ethernet ip : Instance) : Prop :=
  ∃ selected, getRelatedInstances networkSchema cache.toCached .ethernet ethernet relationToIp [] =
    .ok selected ∧ ip ∈ selected

/-- The comparison for two found instances. -/
theorem startsWithPath_found {query : FindObjectDBusQuery}
    (hethernet : Found stdHash query ethernet) (ip : Instance) :
    startsWithPath (some (ip.getField metaObjectPath))
        (ethernet.getField metaObjectPath).getValue =
      .ok ((ethernet.objectPath ++ bytes "/").isPrefixOf ip.objectPath) := by
  have hvalue : (ethernet.getField metaObjectPath).getValue = .string ethernet.objectPath := by
    unfold Instance.getField
    rw [hethernet.path]
    rfl
  rw [hvalue]
  rfl

/-- An address is related if its path begins with that of the interface and a slash. -/
theorem related_iff (hethernet : ethernet ∈ cache.instances .ethernet) :
    Related relationToIp ethernet ip ↔ ethernet.objectPath ++ [0x2F] <+: ip.objectPath := by
  have hdummy : metaObjectPath ≠ dummyField := by decide
  unfold Related relationToIp RuleHolds
  rw [List.forall_mem_singleton]
  simp only [hdummy, if_false]
  rw [startsWithPath_found (cache.found .ethernet ethernet hethernet)]
  simp only [Except.ok.injEq, List.isPrefixOf_iff_prefix]
  rfl

/-- The paths of all objects can be compared. -/
theorem comparable (cache : NetworkCache stdHash) : Comparable networkSchema cache.toCache where
  member entity relation hrelation rule hrule := by
    cases entity with
    | ethernet =>
        obtain rfl := List.mem_singleton.mp hrelation
        obtain rfl := List.mem_singleton.mp hrule
        exact Or.inr List.mem_cons_self
    | ip => exact absurd hrelation List.not_mem_nil
  compared entity relation hrelation rule hrule source target hsource htarget := by
    cases entity with
    | ethernet =>
        obtain rfl := List.mem_singleton.mp hrelation
        obtain rfl := List.mem_singleton.mp hrule
        have hdummy : metaObjectPath ≠ dummyField := by decide
        have hfound := cache.found .ethernet source (hsource.resolve_left hdummy)
        refine ⟨(source.objectPath ++ bytes "/").isPrefixOf target.objectPath, ?_⟩
        rw [RuleSet.compare, if_neg hdummy, if_neg hdummy]
        exact startsWithPath_found hfound target
    | ip => exact absurd hrelation List.not_mem_nil

/-- An interface is linked to the addresses beneath its path, on the boundary of a
segment. -/
theorem linked_iff (hethernet : ethernet ∈ cache.instances .ethernet) :
    cache.Linked ethernet ip ↔
      ip ∈ cache.instances .ip ∧ ethernet.objectPath ++ [0x2F] <+: ip.objectPath := by
  have hselected : ∀ selected, getRelatedInstances networkSchema cache.toCached .ethernet ethernet
      relationToIp [] = .ok selected → (ip ∈ selected ↔
        ip ∈ cache.instances .ip ∧ ethernet.objectPath ++ [0x2F] <+: ip.objectPath) := by
    intro selected h
    have hmem : ip ∈ selected ↔ ip ∈ cache.instances .ip ∧ Related relationToIp ethernet ip ∧
        Satisfies [] ip := mem_getRelatedInstances hethernet h ip
    rw [hmem, related_iff hethernet]
    simp [Satisfies]
  constructor
  · rintro ⟨selected, h, hmem⟩
    exact (hselected selected h).mp hmem
  · intro hip
    have hrelation : relationToIp ∈ networkSchema.relations .ethernet := List.mem_cons_self
    obtain ⟨conditions, selected, hconditions, hinstances⟩ :=
      getConditions_getInstances_ok cache.comparable hrelation ethernet.hash
    have h : getRelatedInstances networkSchema cache.toCached .ethernet ethernet relationToIp [] =
        .ok selected := by
      unfold getRelatedInstances
      rw [hconditions]
      simp only [List.append_nil]
      exact hinstances
    exact ⟨selected, h, (hselected selected h).mpr hip⟩

/-- The path and the service give the hash, and a hash stands for one instance. -/
theorem eq_of_objectPath_eq (hupper : upper ∈ cache.instances .ethernet)
    (hlower : lower ∈ cache.instances .ethernet) (hpath : upper.objectPath = lower.objectPath) :
    upper = lower := by
  have hhash : upper.hash = lower.hash := by
    rw [(cache.found .ethernet upper hupper).hash, (cache.found .ethernet lower hlower).hash, hpath]
  have hfind : cache.getInstance .ethernet upper.hash = some upper :=
    Cache.getInstance_eq_some_iff.mpr ⟨hupper, rfl⟩
  have hfind' : cache.getInstance .ethernet lower.hash = some lower :=
    Cache.getInstance_eq_some_iff.mpr ⟨hlower, rfl⟩
  rw [hhash, hfind'] at hfind
  exact (Option.some.inj hfind).symm

/-- The interface is the object at the root of the search, but for slashes at its end. -/
def AtRoot (ethernet : Instance) : Prop :=
  OnlySlashes ethernetQuery.getQueryCriteria.path ethernet.objectPath

/-- An admitted interface beneath another one. -/
theorem atRoot_or_onlySlashes_of_beneath (hupper : upper ∈ cache.instances .ethernet)
    (hlower : lower ∈ cache.instances .ethernet)
    (hbeneath : upper.objectPath ++ [0x2F] <+: lower.objectPath) :
    AtRoot upper ∨ OnlySlashes upper.objectPath lower.objectPath := by
  have hroot := (checkCriteria_iff.mp (cache.found .ethernet upper hupper).inside.1).2
  have hdepth := (cache.found .ethernet lower hlower).inside.2
  refine atRoot_or_onlySlashes hroot hbeneath ?_
  have hone : ¬ ((0 : Int) < 1 ∧ (1 : Int) < countExtraSegmentsOfPath
      ethernetQuery.getQueryCriteria.path lower.objectPath) := hdepth
  omega

/-- Every address is linked to one interface at most, and that is above it. -/
structure LinksSoundly (cache : NetworkCache stdHash) : Prop where
  ancestor : ∀ ethernet ∈ cache.instances .ethernet, ∀ ip, cache.Linked ethernet ip →
    ethernet.objectPath ++ [0x2F] <+: ip.objectPath
  unique : ∀ ip, ∀ ethernet ∈ cache.instances .ethernet, ∀ other ∈ cache.instances .ethernet,
    cache.Linked ethernet ip → cache.Linked other ip → ethernet = other

/-- No address lies beneath two interfaces of which the one is at the root, or has only
fewer slashes at its end than the other. -/
def Apart (cache : NetworkCache stdHash) : Prop :=
  ∀ upper ∈ cache.instances .ethernet, ∀ lower ∈ cache.instances .ethernet, upper ≠ lower →
    AtRoot upper ∨ OnlySlashes upper.objectPath lower.objectPath →
    ∀ ip ∈ cache.instances .ip, ¬ (upper.objectPath ++ [0x2F] <+: ip.objectPath ∧
      lower.objectPath ++ [0x2F] <+: ip.objectPath)

/-- Of two interfaces above an address the one with the shorter path is above the other. -/
theorem Apart.eq_of_le (hapart : cache.Apart) (hip : ip ∈ cache.instances .ip)
    (hupper : upper ∈ cache.instances .ethernet) (hlower : lower ∈ cache.instances .ethernet)
    (hfirst : upper.objectPath ++ [0x2F] <+: ip.objectPath)
    (hsecond : lower.objectPath ++ [0x2F] <+: ip.objectPath)
    (hle : upper.objectPath.length ≤ lower.objectPath.length) : upper = lower := by
  rcases eq_or_beneath hfirst hsecond hle with hsame | hbeneath
  · exact eq_of_objectPath_eq hupper hlower hsame
  · by_contra hne
    have hkind := atRoot_or_onlySlashes_of_beneath hupper hlower hbeneath
    exact hapart upper hupper lower hlower hne hkind ip hip ⟨hfirst, hsecond⟩

/-- Interfaces apart from each other are linked soundly. -/
theorem Apart.linksSoundly (hapart : cache.Apart) : cache.LinksSoundly where
  ancestor ethernet hethernet ip hlinked := ((linked_iff hethernet).mp hlinked).2
  unique ip ethernet hethernet other hother hlinked hlinked' := by
    obtain ⟨hip, hfirst⟩ := (linked_iff hethernet).mp hlinked
    obtain ⟨-, hsecond⟩ := (linked_iff hother).mp hlinked'
    rcases Nat.le_total ethernet.objectPath.length other.objectPath.length with hle | hle
    · exact hapart.eq_of_le hip hethernet hother hfirst hsecond hle
    · exact (hapart.eq_of_le hip hother hethernet hsecond hfirst hle).symm

/-- The links are sound exactly where the interfaces are kept apart. -/
theorem linksSoundly_iff (cache : NetworkCache stdHash) : cache.LinksSoundly ↔ cache.Apart := by
  refine ⟨fun hsound => ?_, Apart.linksSoundly⟩
  intro upper hupper lower hlower hne _ ip hip hboth
  apply hne
  exact hsound.unique ip upper hupper lower hlower ((linked_iff hupper).mpr ⟨hip, hboth.1⟩)
    ((linked_iff hlower).mpr ⟨hip, hboth.2⟩)

/-- Paths that end in a segment of their own beneath the root keep the interfaces apart,
whatever their names. -/
theorem apart_of_segments
    (hroot : ∀ ethernet ∈ cache.instances .ethernet,
      ethernet.objectPath ≠ ethernetQuery.getQueryCriteria.path)
    (hslash : ∀ ethernet ∈ cache.instances .ethernet,
      ethernet.objectPath.getLast? ≠ some 0x2F) : cache.Apart := by
  have hplain : ∀ ethernet ∈ cache.instances .ethernet, ∀ path,
      OnlySlashes path ethernet.objectPath → ethernet.objectPath = path := by
    rintro ethernet hethernet path ⟨count, hcount⟩
    cases count with
    | zero => simpa using hcount
    | succ count =>
        apply absurd _ (hslash ethernet hethernet)
        rw [hcount, List.replicate_succ', ← List.append_assoc, List.getLast?_concat]
  intro upper hupper lower hlower hne hkind ip _ _
  rcases hkind with hatRoot | hslashes
  · exact hroot upper hupper (hplain upper hupper _ hatRoot)
  · exact hne (eq_of_objectPath_eq hupper hlower (hplain lower hlower _ hslashes).symm)

end NetworkCache

/-! ## An interface at the root -/

/-- A hash function that is the length. -/
def lengthHash (text : Bytes) : UInt64 :=
  UInt64.ofNat text.length

/-- An object of the network. -/
def networkInstance (path : Bytes) : Instance where
  hash := getHash lengthHash (bytes "xyz.openbmc_project.Network") path
  memberInstances := fun memberName =>
    if memberName = metaObjectPath then some (.string path) else none

/-- The path of an object. -/
theorem objectPath_networkInstance (path : Bytes) : (networkInstance path).objectPath = path := by
  simp [Instance.objectPath, Instance.getField, networkInstance, Field.getStringValue,
    Field.getValue]

/-- Such an object is found at its place. -/
theorem found_networkInstance {query : FindObjectDBusQuery} {path : Bytes}
    (hinside : Inside query ⟨bytes "xyz.openbmc_project.Network", path, query.searchProperties⟩) :
    Found lengthHash query (networkInstance path) where
  path := by
    rw [objectPath_networkInstance]
    rfl
  hash := by
    rw [objectPath_networkInstance]
    rfl
  inside := by
    rw [objectPath_networkInstance]
    exact hinside

/-- An interface beneath an object that is one itself, with an address. -/
def rootCache : NetworkCache lengthHash where
  instances
    | .ethernet => [networkInstance (bytes "/xyz/openbmc_project/network/eth0"),
        networkInstance (bytes "/xyz/openbmc_project/network")]
    | .ip => [networkInstance (bytes "/xyz/openbmc_project/network/eth0/ipv4/4bf59855")]
  initDefaultFieldsValue _ object := .ok object
  verifyState _ object := .ok object
  providers _ := []
  ordered entity := by cases entity <;> decide
  settled _ _ _ := rfl
  found entity instance_ hmem := by
    cases entity with
    | ethernet =>
        rcases List.mem_pair.mp hmem with rfl | rfl
        · exact found_networkInstance ⟨by decide, by decide⟩
        · exact found_networkInstance ⟨by decide, by decide⟩
    | ip =>
        obtain rfl := List.mem_singleton.mp hmem
        exact found_networkInstance ⟨by decide, by decide⟩

/-- The address is linked to both. -/
theorem rootCache_not_linksSoundly : ¬ rootCache.LinksSoundly := by
  intro hsound
  have heth0 : networkInstance (bytes "/xyz/openbmc_project/network/eth0") ∈
      rootCache.instances .ethernet := List.mem_cons_self
  have hroot : networkInstance (bytes "/xyz/openbmc_project/network") ∈
      rootCache.instances .ethernet := List.mem_cons_of_mem _ List.mem_cons_self
  have hip : networkInstance (bytes "/xyz/openbmc_project/network/eth0/ipv4/4bf59855") ∈
      rootCache.instances .ip := List.mem_cons_self
  have hsame := hsound.unique _ _ heth0 _ hroot
    ((NetworkCache.linked_iff heth0).mpr ⟨hip, by simp only [objectPath_networkInstance]; decide⟩)
    ((NetworkCache.linked_iff hroot).mpr ⟨hip, by simp only [objectPath_networkInstance]; decide⟩)
  have hhash := congrArg Instance.hash hsame
  exact absurd hhash (by decide)

end Entity
end ObmcWebapp
