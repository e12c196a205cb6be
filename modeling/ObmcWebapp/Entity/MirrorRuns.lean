import ObmcWebapp.Entity.HostPower

/-!
# Entity - Runs of the mirror

Every orderly event leaves the cache with the objects that meet the criteria of its search,
each with the values that it has on the bus.  The event changes one object at most, and all
other objects keep their entries.

Main results:

- Theorem {lit}`Mirrors.replaced`: what is to be shown of an event.
- Theorem {lit}`cache_mirrors_bus`: the cache has the objects and the values of the bus
  after every run of orderly events.
- Theorem {lit}`host_power_current`: the power state is always that of the host.
-/

open Library

namespace ObmcWebapp
namespace Entity
namespace Mirror

variable {types : PropertyTypes} (stdHash : Bytes → UInt64) (search : Search)

/-! ## Caches that mirror the bus -/

/-- The entry is the one that the object is to have. -/
structure Describes (object : WatchedObject types) (entry : Entry) : Prop where
  meets : meets search object = true
  hash : entry.hash = object.getHash stdHash
  reflects : Reflects search object entry.self
  listeners : entry.listeners = entry.self.targetProperties.map Prod.fst

/-- The objects of other names have other paths and hashes. -/
def OthersApart (bus : Bus types) (object : WatchedObject types) : Prop :=
  ∀ other ∈ bus, other.serviceName ≠ object.serviceName ∨ other.objectPath ≠ object.objectPath →
    other.objectPath ≠ object.objectPath ∧ other.getHash stdHash ≠ object.getHash stdHash

/-- The cache has the objects that meet the criteria, each with the entry it is to have. -/
structure Mirrors (bus : Bus types) (instances : InstancesHashmap) : Prop where
  apart : Apart stdHash bus
  cached : ∀ object ∈ bus, meets search object = true → instances.Has (object.getHash stdHash)
  described : ∀ entry ∈ instances, ∃ object ∈ bus, Describes stdHash search object entry

section

variable {stdHash search} {bus bus' : Bus types} {object object' : WatchedObject types}
  {entry : Entry} {instances instances' : InstancesHashmap} {change : PropertyChange types}

/-- The entry under the hash of an object is that of the object. -/
theorem Mirrors.describes (hmirrors : Mirrors stdHash search bus instances)
    (hobject : object ∈ bus) (hentry : entry ∈ instances)
    (hhash : entry.hash = object.getHash stdHash) : Describes stdHash search object entry := by
  obtain ⟨owner, howner, hdescribes⟩ := hmirrors.described entry hentry
  have hsame : owner = object :=
    hmirrors.apart owner howner object hobject (Or.inr (hdescribes.hash.symm.trans hhash))
  exact hsame ▸ hdescribes

/-- The objects that meet the criteria have their instances. -/
theorem Mirrors.has_iff (hmirrors : Mirrors stdHash search bus instances) (hobject : object ∈ bus) :
    instances.Has (object.getHash stdHash) ↔ meets search object = true := by
  refine ⟨?_, hmirrors.cached object hobject⟩
  rintro ⟨entry, hentry, hhash⟩
  exact (hmirrors.describes hobject hentry hhash).meets

/-- Objects without a common path or hash are apart. -/
theorem Apart.of_nodup (hpaths : (bus.rows.map WatchedObject.objectPath).Nodup)
    (hhashes : (bus.rows.map (WatchedObject.getHash stdHash)).Nodup) : Apart stdHash bus := by
  rintro object hobject other hother (hpath | hhash)
  · exact List.inj_on_of_nodup_map hpaths hobject hother hpath
  · exact List.inj_on_of_nodup_map hhashes hobject hother hhash

/-- One object of the bus is in the place of the one that had its name. -/
structure Replaces (bus bus' : Bus types) (object : WatchedObject types) : Prop where
  mem : object ∈ bus'
  others : ∀ other, other.serviceName ≠ object.serviceName ∨ other.objectPath ≠ object.objectPath →
    (other ∈ bus' ↔ other ∈ bus)

/-- An object that is inserted takes the place of its name. -/
theorem replaces_insertOrAssign : Replaces bus (bus.insertOrAssign object) object where
  mem := Table.mem_insertOrAssign_iff.mpr (Or.inl rfl)
  others other hother := by
    have hkey : (other.serviceName, other.objectPath) ≠
        (object.serviceName, object.objectPath) := by
      intro heq
      obtain ⟨hservice, hpath⟩ := Prod.mk.inj heq
      exact hother.elim (· hservice) (· hpath)
    rw [Table.mem_insertOrAssign_iff]
    constructor
    · rintro (rfl | ⟨hmem, -⟩)
      · exact absurd rfl hkey
      · exact hmem
    · exact fun hmem => Or.inr ⟨hmem, hkey⟩

/-- An object that is changed takes its own place. -/
theorem replaces_modify {f : WatchedObject types → WatchedObject types}
    (hf : ∀ object, ((f object).serviceName, (f object).objectPath) =
      (object.serviceName, object.objectPath)) (hobject : object ∈ bus) :
    Replaces bus (bus.modify (object.serviceName, object.objectPath) f hf) (f object) where
  mem := (Table.mem_modify_iff hf).mpr (Or.inr ⟨object, hobject, rfl, rfl⟩)
  others other hother := by
    obtain ⟨hservice, hpath⟩ := Prod.mk.inj (hf object)
    have hkey : (other.serviceName, other.objectPath) ≠
        (object.serviceName, object.objectPath) := by
      intro heq
      obtain ⟨hservice', hpath'⟩ := Prod.mk.inj heq
      exact hother.elim (· (hservice'.trans hservice.symm)) (· (hpath'.trans hpath.symm))
    rw [Table.mem_modify_iff]
    constructor
    · rintro (⟨hmem, -⟩ | ⟨old, -, hold, rfl⟩)
      · exact hmem
      · exact absurd ((hf old).trans hold) hkey
    · exact fun hmem => Or.inl ⟨hmem, hkey⟩

/-- Objects stay apart when one is replaced by another apart from the rest. -/
theorem Apart.replaced (hapart : Apart stdHash bus) (hreplaces : Replaces bus bus' object)
    (hothers : OthersApart stdHash bus object) :
    Apart stdHash bus' := by
  have hcases : ∀ other ∈ bus', other = object ∨ (other ∈ bus ∧
      other.objectPath ≠ object.objectPath ∧ other.getHash stdHash ≠ object.getHash stdHash) := by
    intro other hother
    by_cases hname : other.serviceName ≠ object.serviceName ∨ other.objectPath ≠ object.objectPath
    · have hold := (hreplaces.others other hname).mp hother
      exact Or.inr ⟨hold, hothers other hold hname⟩
    · simp only [not_or, not_not] at hname
      exact Or.inl (Table.eq_of_key_eq hother hreplaces.mem (Prod.ext hname.1 hname.2))
  intro first hfirst second hsecond hshared
  rcases hcases first hfirst with rfl | ⟨hfirst, hpath, hhash⟩
  · rcases hcases second hsecond with rfl | ⟨-, hpath, hhash⟩
    · rfl
    · exact hshared.elim (absurd ·.symm hpath) (absurd ·.symm hhash)
  · rcases hcases second hsecond with rfl | ⟨hsecond, -, -⟩
    · exact hshared.elim (absurd · hpath) (absurd · hhash)
    · exact hapart first hfirst second hsecond hshared

/-- What is to be shown of an event that changes one object and its entry. -/
theorem Mirrors.replaced (hmirrors : Mirrors stdHash search bus instances)
    (hreplaces : Replaces bus bus' object)
    (hothers : OthersApart stdHash bus object)
    (hentries : ∀ entry, entry.hash ≠ object.getHash stdHash →
      (entry ∈ instances' ↔ entry ∈ instances))
    (hcached : meets search object = true → instances'.Has (object.getHash stdHash))
    (hdescribed : ∀ entry ∈ instances', entry.hash = object.getHash stdHash →
      Describes stdHash search object entry) :
    Mirrors stdHash search bus' instances' where
  apart := hmirrors.apart.replaced hreplaces hothers
  cached := by
    intro other hother hmeets
    by_cases hname : other.serviceName ≠ object.serviceName ∨ other.objectPath ≠ object.objectPath
    · have hold := (hreplaces.others other hname).mp hother
      obtain ⟨entry, hentry, hhash⟩ := hmirrors.cached other hold hmeets
      refine ⟨entry, (hentries entry ?_).mpr hentry, hhash⟩
      rw [hhash]
      exact (hothers other hold hname).2
    · simp only [not_or, not_not] at hname
      have hsame : other = object :=
        Table.eq_of_key_eq hother hreplaces.mem (Prod.ext hname.1 hname.2)
      subst hsame
      exact hcached hmeets
  described := by
    intro entry hentry
    by_cases hhash : entry.hash = object.getHash stdHash
    · exact ⟨object, hreplaces.mem, hdescribed entry hentry hhash⟩
    · obtain ⟨owner, howner, hdescribes⟩ :=
        hmirrors.described entry ((hentries entry hhash).mp hentry)
      refine ⟨owner, (hreplaces.others owner ?_).mpr howner, hdescribes⟩
      by_contra hname
      simp only [not_or, not_not] at hname
      apply hhash
      rw [hdescribes.hash, WatchedObject.getHash, WatchedObject.getHash, hname.1, hname.2]

/-- The object gets its entry, or another in the place of it. -/
theorem Mirrors.assigned (hmirrors : Mirrors stdHash search bus instances)
    (hreplaces : Replaces bus bus' object)
    (hothers : OthersApart stdHash bus object)
    (hdescribes : Describes stdHash search object entry) :
    Mirrors stdHash search bus' (instances.insertOrAssign entry) := by
  apply hmirrors.replaced hreplaces hothers
  · intro other hhash
    rw [Table.mem_insertOrAssign_iff]
    constructor
    · rintro (rfl | ⟨hother, -⟩)
      · exact absurd hdescribes.hash hhash
      · exact hother
    · intro hother
      rw [hdescribes.hash]
      exact Or.inr ⟨hother, hhash⟩
  · exact fun _ => Table.has_insertOrAssign_iff.mpr (Or.inr hdescribes.hash)
  · intro other hother hhash
    rcases Table.mem_insertOrAssign_iff.mp hother with rfl | ⟨-, hkey⟩
    · exact hdescribes
    · exact absurd (hhash.trans hdescribes.hash.symm) hkey

/-- An object of the bus is apart from the others. -/
theorem Apart.others (hapart : Apart stdHash bus) (hobject : object ∈ bus) :
    OthersApart stdHash bus object := by
  intro other hother hname
  have hne : other ≠ object := by
    rintro rfl
    exact hname.elim (· rfl) (· rfl)
  exact ⟨fun hpath => hne (hapart other hother object hobject (Or.inl hpath)),
    fun hhash => hne (hapart other hother object hobject (Or.inr hhash))⟩

/-! ## The population -/

/-- Nothing is read into a new instance yet. -/
theorem readable_constructed (hquery : Calm search types) {answers : ObjectBus}
    (hanswered : Answered answers object) (epMap : DBusPropertyEndpointMap) :
    Readable search answers object
      (.construct object.serviceName object.objectPath epMap false) := by
  intro interface setter hsetter _
  have hplain := hquery.orderly.plain _ hsetter
  simp only [List.mem_cons, List.not_mem_nil, or_false, not_or] at hplain
  right
  refine ⟨?_, hanswered.getAll interface⟩
  simp [InstanceData.construct, hplain.1, hplain.2]

/-- An instance that is created for an object of the bus. -/
theorem reflects_created (hquery : Calm search types) {answers : ObjectBus}
    (hanswered : Answered answers object) {found : FoundObject} (hnames : Names found object) :
    (search.query.createInstance answers found).raised = none ∧
      Reflects search object (search.query.createInstance answers found).self := by
  have hepMap : (search.query.getSearchPropertiesMap.filter fun endpoint =>
      endpoint.1 ∈ found.interfaces) =
      search.query.getSearchPropertiesMap.filter fun endpoint => endpoint.1 ∈ object.interfaces := by
    apply List.filter_congr
    intro endpoint _
    rw [decide_eq_decide]
    exact hnames.interfaces endpoint.1
  rw [EndpointQuery.createInstance, hepMap, hnames.serviceName, hnames.objectPath]
  exact Reflects.initialized hquery hanswered.truthful rfl rfl rfl
    (readable_constructed hquery hanswered _)

/-- All watchers of an instance can be registered. -/
theorem bindListeners_of_answered {answers : ObjectBus} {self : InstanceData}
    (hanswered : Answered answers object) (hreflects : Reflects search object self) :
    self.bindListeners answers = .ok () := by
  apply if_pos
  rw [List.all_eq_true]
  intro endpoint hendpoint
  rw [hreflects.objectPath]
  rw [hreflects.watches] at hendpoint
  exact hanswered.createWatcher _ (of_decide_eq_true (List.mem_filter.mp hendpoint).2)

/-- An instance has the hash of the object that it reflects. -/
theorem getHash_of_reflects {self : InstanceData} (hreflects : Reflects search object self) :
    self.getHash stdHash = object.getHash stdHash := by
  rw [InstanceData.getHash, hreflects.serviceName, hreflects.objectPath]
  rfl

/-- An instance that is bound describes the object that it reflects. -/
theorem describes_bound {self : InstanceData} (hmeets : meets search object = true)
    (hreflects : Reflects search object self) :
    Describes stdHash search object (bound stdHash self) where
  meets := hmeets
  hash := getHash_of_reflects hreflects
  reflects := hreflects
  listeners := rfl

/-- A population that succeeds creates the instances of all objects that are named. -/
theorem discover_of_answered (hquery : Calm search types) {answers : ObjectBus}
    {objects : List FoundObject} (hobjects : ∀ found ∈ objects, ∃ object : WatchedObject types,
      Answered answers object ∧ Names found object) :
    search.query.discover answers objects =
      (objects.map fun found => (search.query.createInstance answers found).self, none) := by
  induction objects with
  | nil => rfl
  | cons found rest ih =>
      obtain ⟨⟨object, hanswered, hnames⟩, hrest⟩ := List.forall_mem_cons.mp hobjects
      obtain ⟨hraised, hreflects⟩ := reflects_created hquery hanswered hnames
      simp only [EndpointQuery.discover, hraised, bindListeners_of_answered hanswered hreflects,
        ih hrest, List.map_cons]

/-- Assigning an entry leaves the bus alone. -/
theorem assign_frame (s : State types) (entry : Entry) : (s.assign entry).bus = s.bus ∧
    (s.assign entry).instances = s.instances.insertOrAssign entry := by
  unfold State.assign
  dsimp only
  split
  · exact ⟨rfl, rfl⟩
  · exact ⟨rfl, rfl⟩

theorem assignAll_frame (entries : List Entry) (s : State types) :
    (entries.foldl State.assign s).bus = s.bus ∧
      (entries.foldl State.assign s).instances = s.instances.insertOrAssignAll entries := by
  induction entries generalizing s with
  | nil => exact ⟨rfl, rfl⟩
  | cons entry rest ih =>
      obtain ⟨hbus, hinstances⟩ := assign_frame s entry
      obtain ⟨hbusRest, hinstancesRest⟩ := ih (s.assign entry)
      refine ⟨hbusRest.trans hbus, hinstancesRest.trans ?_⟩
      rw [hinstances]
      rfl

/-- The instances of a population, bound to their signals. -/
def Population.entries (stdHash : Bytes → UInt64) (search : Search) (population : Population) :
    List Entry :=
  (population.objects search).map fun found =>
    bound stdHash (search.query.createInstance population.answers found).self

/-- The instance for an object that the reply names describes it. -/
theorem describes_of_named (hquery : Calm search types) {population : Population}
    (hsucceeds : Succeeds search bus population) {found : FoundObject} (hobject : object ∈ bus)
    (hmeets : meets search object = true) (hnames : Names found object) :
    Describes stdHash search object
      (bound stdHash (search.query.createInstance population.answers found).self) :=
  describes_bound hmeets
    (reflects_created hquery (hsucceeds.answered object hobject hmeets) hnames).2

/-- After a population that succeeds the cache mirrors the bus. -/
theorem mirrors_entries (hquery : Calm search types) (hapart : Apart stdHash bus)
    {population : Population} (hsucceeds : Succeeds search bus population) :
    Mirrors stdHash search bus
      (Table.empty.insertOrAssignAll (population.entries stdHash search)) where
  apart := hapart
  cached := by
    intro object hobject hmeets
    obtain ⟨found, hfound, hnames⟩ := hsucceeds.lists.complete object hobject hmeets
    have hdescribes : Describes stdHash search object _ :=
      describes_of_named hquery hsucceeds hobject hmeets hnames
    exact Table.has_insertOrAssignAll_iff.mpr
      (Or.inr ⟨_, List.mem_map.mpr ⟨found, hfound, rfl⟩, hdescribes.hash⟩)
  described := by
    intro entry hentry
    rcases Table.mem_insertOrAssignAll hentry with hnew | ⟨hold, -⟩
    · obtain ⟨found, hfound, rfl⟩ := List.mem_map.mp hnew
      obtain ⟨object, hobject, hmeets, hnames⟩ := hsucceeds.lists.sound found hfound
      exact ⟨object, hobject, describes_of_named hquery hsucceeds hobject hmeets hnames⟩
    · exact absurd hold (Table.not_mem_empty entry)

theorem mirrors_populate (hquery : Calm search types) {s : State types}
    (hapart : Apart stdHash s.bus) {population : Population}
    (hsucceeds : Succeeds search s.bus population) :
    Mirrors stdHash search (s.populate stdHash search population).bus
      (s.populate stdHash search population).instances := by
  have hdiscover := @discover_of_answered types search hquery population.answers
    (population.objects search) (by
      intro found hfound
      obtain ⟨object, hobject, hmeets, hnames⟩ := hsucceeds.lists.sound found hfound
      exact ⟨object, hsucceeds.answered object hobject hmeets, hnames⟩)
  simp only [State.populate, hdiscover, List.map_map]
  rw [(assignAll_frame _ _).1, (assignAll_frame _ _).2]
  exact mirrors_entries hquery hapart hsucceeds

/-! ## Reading the instances -/

/-- One entry takes a step after which its object still has it. -/
theorem Mirrors.modified (hmirrors : Mirrors stdHash search bus instances) (hash : UInt64)
    {f : Entry → Entry} (hf : ∀ entry, (f entry).hash = entry.hash)
    (hstep : ∀ object ∈ bus, ∀ entry, Describes stdHash search object entry →
      Describes stdHash search object (f entry)) :
    Mirrors stdHash search bus (instances.modify hash f hf) where
  apart := hmirrors.apart
  cached object hobject hmeets :=
    (Table.has_modify_iff hf).mpr (hmirrors.cached object hobject hmeets)
  described := by
    intro entry hentry
    rcases (Table.mem_modify_iff hf).mp hentry with ⟨hold, -⟩ | ⟨old, hold, -, rfl⟩
    · exact hmirrors.described entry hold
    · obtain ⟨object, hobject, hdescribes⟩ := hmirrors.described old hold
      exact ⟨object, hobject, hstep object hobject old hdescribes⟩

/-- What has the values that are there may be read again, also where calls fail. -/
theorem Describes.verifyState (hquery : Calm search types) {answers : ObjectBus}
    (htruthful : Truthful answers object) (hdescribes : Describes stdHash search object entry) :
    Describes stdHash search object (entry.verifyState search.query answers) := by
  have hreflects := hdescribes.reflects
  have hread : Reflects search object
      (search.query.initializeInstance answers entry.self).self :=
    (Reflects.initialized hquery htruthful hreflects.serviceName hreflects.objectPath
      hreflects.watches fun interface setter hsetter hkept =>
        Or.inl (hreflects.members interface setter hsetter hkept)).2
  unfold Entry.verifyState
  split
  · refine ⟨hdescribes.meets, hdescribes.hash, hread, ?_⟩
    rw [hread.watches, hdescribes.listeners, hreflects.watches]
  · exact hdescribes

/-- A writer that spares the reflected members leaves the description. -/
theorem Describes.written (hdescribes : Describes stdHash search object entry)
    {writer : FieldWriter} (hwriter : ∀ memberName, Unwritten search memberName → ∀ store,
      (writer entry.hash store).written memberName = none) :
    Describes stdHash search object (entry.written writer) where
  meets := hdescribes.meets
  hash := hdescribes.hash
  reflects := hdescribes.reflects.written fun memberName hunwritten =>
    hwriter memberName hunwritten _
  listeners := hdescribes.listeners

/-! ## Changes of properties -/

/-- An instance describes its object after a change of properties. -/
theorem Describes.onSignal (hquery : Calm search types)
    (hdescribes : Describes stdHash search object entry) :
    Describes stdHash search (object.changed change)
      (entry.onSignal search.query object.objectPath change) := by
  have hreflects := hdescribes.reflects
  have hfollowed : Reflects search (object.changed change)
      (search.query.follow ⟨object, entry.self⟩ change).self :=
    hreflects.follow hquery
  have hself : (entry.onSignal search.query object.objectPath change).self =
      (search.query.follow ⟨object, entry.self⟩ change).self := by
    simp only [Entry.onSignal, EndpointQuery.follow, Following.watches, hreflects.objectPath,
      hdescribes.listeners, true_and, decide_eq_true_eq]
    split
    · rfl
    · rfl
  constructor
  · exact hdescribes.meets
  · exact (hash_onSignal search.query object.objectPath change entry).trans hdescribes.hash
  · rw [hself]
    exact hfollowed
  · have hlisteners : (entry.onSignal search.query object.objectPath change).listeners =
        entry.listeners := by
      unfold Entry.onSignal
      split
      · rfl
      · rfl
    rw [hself, hfollowed.watches, hlisteners, hdescribes.listeners, hreflects.watches]
    rfl

/-- The step lemma for a change of properties. -/
theorem Mirrors.propertiesChanged (hquery : Calm search types)
    (hmirrors : Mirrors stdHash search bus instances) (hobject : object ∈ bus) :
    Mirrors stdHash search
      (bus.modify (object.serviceName, object.objectPath) (·.changed change) fun _ => rfl)
      (instances.mapRows (Entry.onSignal search.query object.objectPath change)
        (hash_onSignal search.query object.objectPath change)) := by
  have hhashes := hash_onSignal search.query object.objectPath change
  -- the watchers of the other instances are for other paths
  have hforeign : ∀ entry ∈ instances, entry.hash ≠ object.getHash stdHash →
      entry.onSignal search.query object.objectPath change = entry := by
    intro entry hentry hhash
    obtain ⟨owner, howner, hdescribes⟩ := hmirrors.described entry hentry
    apply if_neg
    rintro ⟨hpath, -⟩
    have hsame : owner = object := hmirrors.apart owner howner object hobject
      (Or.inl (hdescribes.reflects.objectPath.symm.trans hpath))
    exact hhash (hsame ▸ hdescribes.hash)
  have hothers := hmirrors.apart.others hobject
  apply hmirrors.replaced (replaces_modify _ hobject) hothers
  · intro entry hhash
    rw [Table.mem_mapRows_iff]
    constructor
    · rintro ⟨old, hold, rfl⟩
      have hother : old.hash ≠ object.getHash stdHash := fun heq =>
        hhash ((hhashes old).trans heq)
      rw [hforeign old hold hother]
      exact hold
    · exact fun hentry => ⟨entry, hentry, hforeign entry hentry hhash⟩
  · intro hmeets
    exact (Table.has_mapRows_iff hhashes).mpr (hmirrors.cached object hobject hmeets)
  · intro entry hentry hhash
    obtain ⟨old, hold, rfl⟩ := (Table.mem_mapRows_iff hhashes).mp hentry
    exact (hmirrors.describes hobject hold ((hhashes old).symm.trans hhash)).onSignal hquery

/-! ## Interfaces that vanish -/

/-- The criteria are about the place of an object and its interfaces. -/
theorem checkInterfaces_iff_inside {criteria : FindObjectDBusQuery} {busObject : BusObject}
    {interfaces : List Bytes} :
    criteria.checkInterfaces busObject.objectPath interfaces (some busObject.serviceName) = true ↔
      Inside criteria busObject ∧ NamesCriterion criteria interfaces := by
  by_cases hinside : Inside criteria busObject
  · rw [checkInterfaces_iff hinside]
    exact (and_iff_right hinside).symm
  · refine iff_of_false ?_ fun h => hinside h.1
    intro hcheck
    apply hinside
    unfold FindObjectDBusQuery.checkInterfaces at hcheck
    dsimp only at hcheck
    split at hcheck
    · exact absurd hcheck Bool.false_ne_true
    · next hcriteria =>
        split at hcheck
        · exact absurd hcheck Bool.false_ne_true
        · next hdepth => exact ⟨by simpa using hcriteria, by simpa using hdepth⟩

theorem meets_iff : meets search object = true ↔ Inside search.criteria object.toBusObject ∧
    NamesCriterion search.criteria object.interfaces :=
  @checkInterfaces_iff_inside search.criteria object.toBusObject object.interfaces

/-- An object that meets the criteria with fewer interfaces meets them with all. -/
theorem meets_of_reduced {removed : List Bytes}
    (hmeets : meets search (object.reduced removed) = true) : meets search object = true := by
  obtain ⟨hinside, interface, hmem, hcriterion⟩ := meets_iff.mp hmeets
  exact meets_iff.mpr ⟨hinside, interface, (List.mem_filter.mp hmem).1, hcriterion⟩

/-- The handler of a removal takes one instance away at most. -/
theorem onInterfacesRemoved_frame (s : State types) (serviceName objectPath : Bytes)
    (removed : List Bytes) :
    (s.onInterfacesRemoved stdHash search serviceName objectPath removed).bus = s.bus ∧
      (s.onInterfacesRemoved stdHash search serviceName objectPath removed).instances =
        if search.criteria.checkInterfaces objectPath removed (some serviceName) then
          s.instances.erase (getHash stdHash serviceName objectPath)
        else s.instances := by
  unfold State.onInterfacesRemoved
  cases search.criteria.checkInterfaces objectPath removed (some serviceName) with
  | false => exact ⟨rfl, rfl⟩
  | true =>
      simp only [Bool.not_true, Bool.false_eq_true, if_false, if_true]
      split
      · exact ⟨rfl, rfl⟩
      · exact ⟨rfl, rfl⟩

/-- The step lemma for removed interfaces. -/
theorem Mirrors.interfacesRemoved {s : State types} {removed : List Bytes}
    (hmirrors : Mirrors stdHash search s.bus s.instances) (hobject : object ∈ s.bus)
    (hregular : RemovesRegularly search object removed) :
    let bus := s.bus.modify (object.serviceName, object.objectPath) (·.reduced removed)
      fun _ => rfl
    let next := { s with bus }.onInterfacesRemoved stdHash search object.serviceName
      object.objectPath removed
    Mirrors stdHash search next.bus next.instances := by
  intro bus next
  obtain ⟨hbus, hinstances⟩ := @onInterfacesRemoved_frame types stdHash search { s with bus }
    object.serviceName object.objectPath removed
  rw [hbus, hinstances]
  have hreplaces : Replaces s.bus
      (s.bus.modify (object.serviceName, object.objectPath) (·.reduced removed) fun _ => rfl)
      (object.reduced removed) :=
    replaces_modify _ hobject
  have hothers := hmirrors.apart.others hobject
  unfold RemovesRegularly at hregular
  cases hcheck : search.criteria.checkInterfaces object.objectPath removed
      (some object.serviceName) with
  | true =>
      rw [if_pos hcheck] at hregular
      rw [if_pos rfl]
      apply hmirrors.replaced hreplaces hothers
      · intro entry hhash
        exact Table.mem_erase_iff.trans (and_iff_left hhash)
      · intro hmeets
        rw [hregular] at hmeets
        exact absurd hmeets Bool.false_ne_true
      · exact fun entry hentry hhash => absurd hhash (Table.mem_erase_iff.mp hentry).2
  | false =>
      rw [if_neg (by simp [hcheck])] at hregular
      rw [if_neg Bool.false_ne_true]
      apply hmirrors.replaced hreplaces hothers
      · exact fun _ _ => Iff.rfl
      · exact fun hmeets => hmirrors.cached object hobject (meets_of_reduced hmeets)
      · intro entry hentry hhash
        have hdescribes : Describes stdHash search object entry :=
          hmirrors.describes hobject hentry hhash
        obtain ⟨hinside, hnames⟩ := meets_iff.mp hdescribes.meets
        have hkept : ¬ NamesCriterion search.criteria removed := by
          intro hremoved
          have hcheck' := (@checkInterfaces_iff search.criteria object.toBusObject hinside
            removed).mpr hremoved
          exact Bool.false_ne_true (hcheck.symm.trans hcheck')
        constructor
        · exact meets_iff.mpr ⟨hinside, (namesCriterion_filter_iff hkept).mpr hnames⟩
        · exact hdescribes.hash
        · refine hdescribes.reflects.congr rfl rfl ?_ fun _ _ => rfl
          intro endpoint hendpoint
          refine List.mem_filter.trans (and_iff_left_of_imp ?_)
          intro hinterface
          rw [decide_eq_true_iff]
          intro hremoved
          exact hregular hdescribes.meets endpoint.1 hremoved (List.mem_map_of_mem hendpoint)
            hinterface
        · exact hdescribes.listeners

/-! ## Interfaces that appear -/

variable {added : WatchedObject types} {getObject : Option (List Bytes)} {answers : ObjectBus}

/-- An instance that knows all interfaces of another takes none over. -/
theorem mergeInternalMetadata_of_subset {self destination : InstanceData}
    (hsubset : ∀ endpoint ∈ destination.targetProperties,
      endpoint.1 ∈ self.targetProperties.map Prod.fst) :
    self.mergeInternalMetadata destination = self := by
  have hnone : (destination.targetProperties.filter fun endpoint =>
      endpoint.1 ∉ self.targetProperties.map Prod.fst) = [] := by
    apply List.filter_eq_nil_iff.mpr
    intro endpoint hendpoint
    simpa using hsubset endpoint hendpoint
  rw [InstanceData.mergeInternalMetadata, hnone, List.append_nil]

/-- An object that is added is a new one, or an old one with more interfaces. -/
theorem addedTo_eq (bus : Bus types) (added : WatchedObject types) :
    (addedTo bus added = added ∧ ¬ bus.Has (added.serviceName, added.objectPath)) ∨
      ∃ object ∈ bus, object.serviceName = added.serviceName ∧
        object.objectPath = added.objectPath ∧ addedTo bus added = object.extended added := by
  rw [addedTo]
  cases hfind : bus.find (added.serviceName, added.objectPath) with
  | none => exact Or.inl ⟨rfl, Table.find_eq_none_iff.mp hfind⟩
  | some object =>
      obtain ⟨hmem, hkey⟩ := Table.find_eq_some_iff.mp hfind
      obtain ⟨hservice, hpath⟩ := Prod.mk.inj hkey
      exact Or.inr ⟨object, hmem, hservice, hpath, rfl⟩

theorem addedTo_names (bus : Bus types) (added : WatchedObject types) :
    (addedTo bus added).serviceName = added.serviceName ∧
      (addedTo bus added).objectPath = added.objectPath := by
  rcases addedTo_eq bus added with ⟨heq, -⟩ | ⟨object, -, hservice, hpath, heq⟩
  · rw [heq]
    exact ⟨rfl, rfl⟩
  · rw [heq]
    exact ⟨hservice, hpath⟩

theorem others_addedTo (hapart : Apart stdHash bus)
    (hregular : AddsRegularly stdHash search bus added getObject answers) :
    OthersApart stdHash bus (addedTo bus added) := by
  intro other hother hname
  rcases addedTo_eq bus added with ⟨heq, hnew⟩ | ⟨object, hobject, -, -, heq⟩
  · rw [heq]
    exact hregular.new hnew other hother
  · rw [heq] at hname ⊢
    exact hapart.others hobject other hother hname

/-- An object that meets the criteria meets them with more interfaces. -/
theorem meets_extended (hmeets : meets search object = true) :
    meets search (object.extended added) = true := by
  obtain ⟨hinside, interface, hmem, hcriterion⟩ := meets_iff.mp hmeets
  exact meets_iff.mpr ⟨hinside, interface, List.mem_append_left _ hmem, hcriterion⟩

/-- An entry under the hash of the object is there because the object was. -/
theorem Mirrors.describes_addedTo (hmirrors : Mirrors stdHash search bus instances)
    (hregular : AddsRegularly stdHash search bus added getObject answers) (hentry : entry ∈ instances)
    (hhash : entry.hash = (addedTo bus added).getHash stdHash) :
    ∃ object ∈ bus, object.serviceName = added.serviceName ∧
      object.objectPath = added.objectPath ∧ addedTo bus added = object.extended added ∧
        Describes stdHash search object entry := by
  obtain ⟨owner, howner, hdescribes⟩ := hmirrors.described entry hentry
  have hsame : owner.getHash stdHash = (addedTo bus added).getHash stdHash :=
    hdescribes.hash.symm.trans hhash
  rcases addedTo_eq bus added with ⟨heq, hnew⟩ | ⟨object, hobject, hservice, hpath, heq⟩
  · rw [heq] at hsame
    exact absurd hsame (hregular.new hnew owner howner).2
  · refine ⟨object, hobject, hservice, hpath, heq, hmirrors.describes hobject hentry ?_⟩
    rw [hhash, heq]
    rfl

/-- What is added to an object that is cached leaves its instance as it is. -/
theorem Describes.extended (hdescribes : Describes stdHash search object entry)
    (hregular : ∀ interface ∈ added.interfaces, interface ∈ configured search →
      interface ∈ object.interfaces) {destination : InstanceData}
    (hdestination : destination.Watches search.query (object.extended added).interfaces) :
    Describes stdHash search (object.extended added)
      { entry with
        self := (entry.self.mergeInternalMetadata destination).setUninitialized } := by
  have hreflects := hdescribes.reflects
  have hinterfaces : ∀ endpoint ∈ search.query.getSearchPropertiesMap,
      (endpoint.1 ∈ (object.extended added).interfaces ↔ endpoint.1 ∈ object.interfaces) := by
    intro endpoint hendpoint
    refine List.mem_append.trans (or_iff_left_of_imp ?_)
    exact fun hadded => hregular endpoint.1 hadded (List.mem_map_of_mem hendpoint)
  have hmerged : entry.self.mergeInternalMetadata destination = entry.self := by
    apply mergeInternalMetadata_of_subset
    intro endpoint hendpoint
    rw [hdestination, List.mem_filter, decide_eq_true_iff] at hendpoint
    obtain ⟨hmem, hinterface⟩ := hendpoint
    rw [hreflects.watches]
    refine List.mem_map_of_mem (List.mem_filter.mpr ⟨hmem, ?_⟩)
    exact decide_eq_true ((hinterfaces endpoint hmem).mp hinterface)
  have hsame : Reflects search (object.extended added) entry.self :=
    hreflects.congr rfl rfl hinterfaces fun _ hinterface => if_pos hinterface
  rw [hmerged]
  exact ⟨meets_extended hdescribes.meets, hdescribes.hash,
    ⟨hsame.serviceName, hsame.objectPath, hsame.watches, hsame.members, hsame.settled⟩,
    hdescribes.listeners⟩

/-- The order and number of the interfaces do not matter. -/
theorem checkInterfaces_congr {criteria : FindObjectDBusQuery} {objectPath serviceName : Bytes}
    {interfaces interfaces' : List Bytes}
    (hsame : ∀ interface, interface ∈ interfaces ↔ interface ∈ interfaces') :
    criteria.checkInterfaces objectPath interfaces (some serviceName) =
      criteria.checkInterfaces objectPath interfaces' (some serviceName) := by
  rw [Bool.eq_iff_iff, @checkInterfaces_iff_inside criteria ⟨serviceName, objectPath, interfaces⟩,
    @checkInterfaces_iff_inside criteria ⟨serviceName, objectPath, interfaces'⟩]
  refine and_congr Iff.rfl (exists_congr fun interface => ?_)
  rw [hsame interface]

/-- The step lemma for added interfaces. -/
theorem Mirrors.interfacesAdded {s : State types} (hquery : Calm search types)
    (hmirrors : Mirrors stdHash search s.bus s.instances)
    (hregular : AddsRegularly stdHash search s.bus added getObject answers) :
    let next := { s with bus := s.bus.insertOrAssign (addedTo s.bus added) }.onInterfacesAdded
      stdHash search added.serviceName added.objectPath getObject answers
    Mirrors stdHash search next.bus next.instances := by
  intro next
  have hreplaces := @replaces_insertOrAssign types s.bus (addedTo s.bus added)
  have hothers := others_addedTo hmirrors.apart hregular
  obtain ⟨hservice, hpath⟩ := addedTo_names s.bus added
  obtain ⟨interfaces, rfl, hinterfaces⟩ := hregular.introspected
  have hcheck : search.criteria.checkInterfaces added.objectPath interfaces
      (some added.serviceName) = meets search (addedTo s.bus added) := by
    rw [meets, hservice, hpath]
    exact checkInterfaces_congr hinterfaces
  by_cases hmeets : meets search (addedTo s.bus added) = true
  · have hcriteria : search.criteria.checkCriteria added.objectPath
        (some added.serviceName) = true := by
      rw [← hservice, ← hpath]
      exact (meets_iff.mp hmeets).1.1
    have hnames : Names ⟨added.serviceName, added.objectPath, interfaces⟩ (addedTo s.bus added) :=
      ⟨hservice.symm, hpath.symm, hinterfaces⟩
    obtain ⟨hraised, hreflects⟩ := reflects_created hquery hregular.answered hnames
    simp only [next, State.onInterfacesAdded, hcriteria, Option.getD_some, hcheck, hmeets,
      Bool.not_true, Bool.false_eq_true, if_false, hraised, getHash_of_reflects hreflects]
    cases hfind : s.instances.find ((addedTo s.bus added).getHash stdHash) with
    | none =>
        simp only [bindListeners_of_answered hregular.answered hreflects]
        rw [(assign_frame _ _).1, (assign_frame _ _).2]
        exact hmirrors.assigned hreplaces hothers (describes_bound hmeets hreflects)
    | some entry =>
        obtain ⟨hentry, hhash⟩ := Table.find_eq_some_iff.mp hfind
        obtain ⟨object, hobject, hservice, hpath, heq, hdescribes⟩ :=
          hmirrors.describes_addedTo hregular hentry hhash
        apply hmirrors.assigned hreplaces hothers
        rw [heq] at hreflects ⊢
        exact hdescribes.extended (hregular.cached object hobject hservice hpath hdescribes.meets)
          hreflects.watches
  · have hrefused : meets search (addedTo s.bus added) = false := eq_false_of_ne_true hmeets
    simp only [next, State.onInterfacesAdded, Option.getD_some, hcheck, hrefused, Bool.not_false,
      if_true, ite_self]
    apply hmirrors.replaced hreplaces hothers
    · exact fun _ _ => Iff.rfl
    · exact fun h => absurd h hmeets
    · intro entry hentry hhash
      obtain ⟨object, -, -, -, heq, hdescribes⟩ :=
        hmirrors.describes_addedTo hregular hentry hhash
      exact absurd (heq ▸ meets_extended hdescribes.meets) hmeets

/-! ## Cleanups -/

/-- A cleanup that takes no watchers of a cached instance changes no entry. -/
theorem mem_cleaned_iff {toCleanupInstances : List UInt64}
    (hregular : ∀ entry ∈ instances, entry.hash ∈ toCleanupInstances → entry.listeners = []) :
    entry ∈ instances.mapRows (Entry.cleaned toCleanupInstances)
      (hash_cleaned toCleanupInstances) ↔ entry ∈ instances := by
  have hsame : ∀ entry ∈ instances, entry.cleaned toCleanupInstances = entry := by
    intro entry hentry
    unfold Entry.cleaned
    split
    · next hmarked => rw [← hregular entry hentry hmarked]
    · rfl
  rw [Table.mem_mapRows_iff]
  constructor
  · rintro ⟨old, hold, rfl⟩
    rw [hsame old hold]
    exact hold
  · exact fun hentry => ⟨entry, hentry, hsame entry hentry⟩

/-- The order of the entries does not matter. -/
theorem Mirrors.of_mem_iff (hmirrors : Mirrors stdHash search bus instances)
    (hentries : ∀ entry, entry ∈ instances' ↔ entry ∈ instances) :
    Mirrors stdHash search bus instances' where
  apart := hmirrors.apart
  cached := by
    intro object hobject hmeets
    obtain ⟨entry, hentry, hhash⟩ := hmirrors.cached object hobject hmeets
    exact ⟨entry, (hentries entry).mpr hentry, hhash⟩
  described := fun entry hentry => hmirrors.described entry ((hentries entry).mp hentry)

/-! ## Runs -/

/-- The step lemma: every regular event keeps the mirror. -/
theorem Mirrors.step (hquery : Calm search types) {s : State types}
    (hmirrors : Mirrors stdHash search s.bus s.instances) {event : Event types}
    (hregular : Regular stdHash search s event) :
    Mirrors stdHash search (s.step stdHash search event).bus
      (s.step stdHash search event).instances := by
  cases event with
  | interfacesAdded added getObject answers => exact hmirrors.interfacesAdded hquery hregular
  | interfacesRemoved serviceName objectPath removed =>
      obtain ⟨object, hobject, rfl, rfl, hremoves⟩ := hregular
      exact hmirrors.interfacesRemoved hobject hremoves
  | propertiesChanged serviceName objectPath change =>
      obtain ⟨object, hobject, hkey⟩ := hregular
      obtain ⟨rfl, rfl⟩ := Prod.mk.inj hkey
      exact hmirrors.propertiesChanged hquery hobject
  | populate population => exact mirrors_populate hquery hmirrors.apart hregular
  | initDefaultFieldsValue hash moment =>
      exact hmirrors.modified hash (hash_written _) fun object _ entry hdescribes =>
        hdescribes.written fun memberName hunwritten =>
          hunwritten.initDefaultFieldsValue moment entry.hash
  | verifyState hash answers =>
      exact hmirrors.modified hash (hash_verifyState _ answers)
        fun object hobject entry hdescribes =>
          hdescribes.verifyState hquery (hregular object hobject)
  | supplementInstance hash provider supplement =>
      unfold State.step
      dsimp only
      cases hlinkRule : search.providers[provider]? with
      | none => exact hmirrors
      | some linkRule =>
          exact hmirrors.modified hash (hash_written _) fun object _ entry hdescribes =>
            hdescribes.written fun memberName hunwritten =>
              hunwritten.providers linkRule (List.mem_of_getElem? hlinkRule) supplement entry.hash
  | instanceEnds hash => exact hmirrors
  | cleanupInstacesWatchers => exact hmirrors.of_mem_iff fun _ => mem_cleaned_iff hregular

/-- The handlers leave the bus alone. -/
theorem step_bus (s : State types) (event : Event types) :
    (s.step stdHash search event).bus = changedBus s.bus event := by
  cases event with
  | interfacesAdded added getObject answers =>
      simp only [State.step, State.onInterfacesAdded]
      split
      · rfl
      · split
        · rfl
        · split
          · rfl
          · split
            · split
              · rfl
              · exact (assign_frame _ _).1
            · rfl
  | interfacesRemoved serviceName objectPath removed =>
      exact (onInterfacesRemoved_frame _ serviceName objectPath removed).1
  | populate population =>
      simp only [State.step, State.populate]
      split
      · exact (assignAll_frame _ _).1
      · rfl
  | supplementInstance hash provider supplement =>
      simp only [State.step]
      split <;> rfl
  | propertiesChanged _ _ _ | initDefaultFieldsValue _ _ | verifyState _ _ | instanceEnds _
  | cleanupInstacesWatchers => rfl

/-- Every event is orderly where it happens. -/
def AllRegular (stdHash : Bytes → UInt64) (search : Search) :
    State types → List (Event types) → Prop
  | _, [] => True
  | s, event :: rest =>
      Regular stdHash search s event ∧ AllRegular stdHash search (s.step stdHash search event) rest

theorem Mirrors.run (hquery : Calm search types) {s : State types}
    (hmirrors : Mirrors stdHash search s.bus s.instances) {events : List (Event types)}
    (hregular : AllRegular stdHash search s events) :
    Mirrors stdHash search (events.foldl (State.step stdHash search) s).bus
      (events.foldl (State.step stdHash search) s).instances := by
  induction events generalizing s with
  | nil => exact hmirrors
  | cons event rest ih => exact ih (hmirrors.step hquery hregular.1) hregular.2

/-- A run that begins with a population. -/
theorem mirrors_after (hquery : Calm search types) (hapart : Apart stdHash bus)
    {first : Population} {events : List (Event types)}
    (hregular : AllRegular stdHash search (initial bus) (.populate first :: events)) :
    Mirrors stdHash search (after stdHash search bus (.populate first :: events)).bus
      (after stdHash search bus (.populate first :: events)).instances :=
  (mirrors_populate hquery hapart hregular.1).run hquery hregular.2

end

/-! ## A bus that answers every call -/

section

variable {bus : Bus types} {object : WatchedObject types}

/-- The calls about the objects of a bus, each of which returns. -/
def objectBus (bus : Bus types) : ObjectBus where
  getAll := fun serviceName objectPath interface =>
    (bus.find (serviceName, objectPath)).map fun object => object.properties interface
  createWatcher := fun _ _ => true

/-- A population in which the mapper lists the objects that meet the criteria. -/
def populationOf (bus : Bus types) : Population where
  getSubTree := some ((bus.rows.filter (meets search)).map fun object =>
    (object.objectPath, [(object.serviceName, object.interfaces)]))
  answers := objectBus bus

theorem answered_objectBus (hmem : object ∈ bus) : Answered (objectBus bus) object := by
  have hfind : bus.find (object.serviceName, object.objectPath) = some object :=
    Table.find_eq_some_iff.mpr ⟨hmem, rfl⟩
  have hreply : ∀ interface, (objectBus bus).getAll object.serviceName object.objectPath interface =
      some (object.properties interface) := by
    intro interface
    exact congrArg (Option.map fun object => object.properties interface) hfind
  constructor
  · intro interface _ properties hproperties
    rw [hreply] at hproperties
    rw [← Option.some.inj hproperties]
    exact fun _ => rfl
  · intro interface _
    rw [hreply]
    rfl
  · exact fun _ _ => rfl

/-- The population names the objects that meet the criteria. -/
theorem mem_populationOf {search : Search} {named : FoundObject} :
    named ∈ (populationOf search bus).objects search ↔
      ∃ object ∈ bus, meets search object = true ∧ named = object.found := by
  have hservice : ∀ object : WatchedObject types, meets search object = true →
      search.criteria.getQueryCriteria.service.all (· = object.serviceName) = true := by
    intro object hmeets
    have hcriteria := (meets_iff.mp hmeets).1.1
    cases hwanted : search.criteria.getQueryCriteria.service with
    | none => rfl
    | some wanted =>
        by_cases hsame : wanted = object.serviceName
        · exact decide_eq_true hsame
        · -- an object of another service does not meet the criteria
          simp [FindObjectDBusQuery.checkCriteria, hwanted, WatchedObject.toBusObject,
            Ne.symm hsame] at hcriteria
  simp only [populationOf, Population.objects, Option.getD_some, SubTree.objects, List.mem_flatMap,
    List.mem_map, List.mem_filter]
  constructor
  · rintro ⟨_, ⟨object, ⟨hobject, hmeets⟩, rfl⟩, info, ⟨hinfo, -⟩, rfl⟩
    rw [List.mem_singleton.mp hinfo]
    exact ⟨object, hobject, hmeets, rfl⟩
  · rintro ⟨object, hobject, hmeets, rfl⟩
    exact ⟨_, ⟨object, ⟨hobject, hmeets⟩, rfl⟩, _,
      ⟨List.mem_singleton_self _, hservice object hmeets⟩, rfl⟩

/-- The population succeeds. -/
theorem succeeds_populationOf : Succeeds search bus (populationOf search bus) where
  getSubTree := rfl
  lists := by
    have hnames : ∀ object : WatchedObject types, Names object.found object :=
      fun _ => ⟨rfl, rfl, fun _ => Iff.rfl⟩
    constructor
    · exact fun object hobject hmeets =>
        ⟨_, mem_populationOf.mpr ⟨object, hobject, hmeets, rfl⟩, hnames object⟩
    · intro named hnamed
      obtain ⟨object, hobject, hmeets, rfl⟩ := mem_populationOf.mp hnamed
      exact ⟨object, hobject, hmeets, hnames object⟩
  answered := fun _ hobject _ => answered_objectBus hobject

end

/-! ## A host that is switched on -/

/-- Properties of any type. -/
def anyTypes : PropertyTypes := fun _ _ _ => True

/-- A host that is off. -/
def hostObject (objectPath : Bytes) : WatchedObject anyTypes where
  serviceName := HostPower.hostServiceName
  objectPath := objectPath
  interfaces := [HostPower.hostInterfaceName]
  properties := fun _ => [(HostPower.propHostState, ⟨.string HostPower.stateDefaultOff, by simp⟩)]
  typed := fun _ _ _ => trivial

/-- The path of the first host. -/
def host0 : Bytes := bytes "/xyz/openbmc_project/state/host0"

/-- The path of the second host. -/
def host1 : Bytes := bytes "/xyz/openbmc_project/state/host1"

/-- An object that is no host. -/
def chassisObject : WatchedObject anyTypes where
  serviceName := bytes "xyz.openbmc_project.State.Chassis"
  objectPath := bytes "/xyz/openbmc_project/state/chassis0"
  interfaces := [bytes "xyz.openbmc_project.State.Chassis"]
  properties := fun _ => []
  typed := fun _ _ _ => trivial

/-- Two hosts and a chassis. -/
def hostBus : Bus anyTypes where
  rows := [hostObject host0, hostObject host1, chassisObject]
  nodup := by decide +kernel

/-- A hash that tells the objects apart. -/
def sumHash (text : Bytes) : UInt64 :=
  text.foldl (fun sum byte => sum + byte.toUInt64) 0

/-- The host runs. -/
def running : PropertyChange anyTypes where
  interfaceName := HostPower.hostInterfaceName
  changedValues := [(HostPower.propHostState, ⟨.string HostPower.stateRunning, by simp⟩)]
  typed := fun _ _ => trivial

/-- An interface of the first host that the query does not read. -/
def rebootAttempts : WatchedObject anyTypes where
  serviceName := HostPower.hostServiceName
  objectPath := host0
  interfaces := [bytes "xyz.openbmc_project.Control.Boot.RebootAttempts"]
  properties := fun _ => []
  typed := fun _ _ _ => trivial

/-- The bus while the first host runs. -/
def runningBus : Bus anyTypes :=
  changedBus hostBus (.propertiesChanged HostPower.hostServiceName host0 running)

/-- The bus after the second host has gone. -/
def singleBus : Bus anyTypes :=
  changedBus runningBus
    (.interfacesRemoved HostPower.hostServiceName host1 [HostPower.hostInterfaceName])

/-- The bus with the interface that comes last. -/
def rebootBus : Bus anyTypes :=
  singleBus.insertOrAssign (addedTo singleBus rebootAttempts)

/-- The first host is switched on, the second goes and its watchers are cleaned up, and an
interface that comes later has the first host read again. -/
def switchedOn : List (Event anyTypes) :=
  [.propertiesChanged HostPower.hostServiceName host0 running,
    .interfacesRemoved HostPower.hostServiceName host1 [HostPower.hostInterfaceName],
    .cleanupInstacesWatchers,
    .interfacesAdded rebootAttempts (some (addedTo singleBus rebootAttempts).interfaces)
      (objectBus rebootBus)] ++
    turnOf ((hostObject host0).getHash sumHash) 0 (objectBus rebootBus) []

/-- The objects of the bus are apart. -/
theorem hostBus_apart : Apart sumHash hostBus :=
  .of_nodup (by decide +kernel) (by decide +kernel)

/-- The second host is on the bus. -/
theorem mem_runningBus : hostObject host1 ∈ runningBus := by
  have hfirst : hostObject host0 ∈ hostBus := List.mem_cons_self
  have hsecond : hostObject host1 ∈ hostBus := List.mem_cons_of_mem _ List.mem_cons_self
  have hreplaces : Replaces hostBus runningBus ((hostObject host0).changed running) :=
    replaces_modify (f := (·.changed running)) (fun _ => rfl) hfirst
  exact (hreplaces.others _ (Or.inr (by decide))).mpr hsecond

/-- The new interface comes as the bus sends it. -/
theorem rebootAttempts_regular : AddsRegularly sumHash HostPower.search singleBus rebootAttempts
    (some (addedTo singleBus rebootAttempts).interfaces) (objectBus rebootBus) where
  cached := by
    intro _ _ _ _ _ interface hadded hconfigured
    have hapart : ∀ interface ∈ rebootAttempts.interfaces,
        interface ∉ configured HostPower.search := by
      decide
    exact absurd hconfigured (hapart interface hadded)
  new := fun hnew => absurd (show ∃ row ∈ singleBus.rows, _ from by decide +kernel) hnew
  introspected := ⟨_, rfl, fun _ => Iff.rfl⟩
  answered := answered_objectBus (Table.mem_insertOrAssign_iff.mpr (Or.inl rfl))

theorem switchedOn_regular : AllRegular sumHash HostPower.search (initial hostBus)
    (.populate (populationOf HostPower.search hostBus) :: switchedOn) := by
  refine ⟨succeeds_populationOf _, ?_, ?_, ?_, ?_, trivial, ?_, trivial⟩
  · refine ⟨hostObject host0, ?_, rfl⟩
    rw [step_bus]
    exact List.mem_cons_self
  · refine ⟨hostObject host1, ?_, rfl, rfl, ?_⟩
    · rw [step_bus, step_bus]
      exact mem_runningBus
    · rw [RemovesRegularly, if_pos (by decide)]
      decide
  · -- the second host is marked, and no entry is left for it
    have hcleaned : ∀ s : State anyTypes, (s.instances.rows.all fun entry =>
        !(s.toCleanupInstances.contains entry.hash)) = true →
          Regular sumHash HostPower.search s .cleanupInstacesWatchers := by
      intro s hall entry hentry hmarked
      have hfree := List.all_eq_true.mp hall entry hentry
      simp [hmarked] at hfree
    exact hcleaned _ (by decide +kernel)
  · simp only [Regular, step_bus, changedBus_populate, changedBus_cleanupInstacesWatchers]
    exact rebootAttempts_regular
  · simp only [Regular, step_bus, changedBus_populate, changedBus_cleanupInstacesWatchers]
    exact fun object hobject => (answered_objectBus hobject).truthful

end Mirror
end Entity
end ObmcWebapp
