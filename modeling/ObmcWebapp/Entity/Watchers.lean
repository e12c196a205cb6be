import ObmcWebapp.Entity.DBusInstance

/-!
# Entity - Watchers of the cached objects

A sequence of operations on the caches is followed from empty caches.  The watchers
of a hash always belong to an object that lives or to a hash that is marked; which
watchers a cached object keeps depends on the marks that other objects with its hash
left, and on the interfaces that were merged into it after it was bound.

Main results:

- Theorem {lit}`Caches.invariant_after`: what holds after every sequence.
- Theorem {lit}`Caches.registered_after`: cached objects keep the watchers they were
  bound with, as long as every cleanup is harmless.
- Theorem {lit}`watched_after_cleanup_iff`: when the watchers are right after every
  cleanup.
-/

open Library

namespace ObmcWebapp
namespace Entity

variable {stdHash : Bytes → UInt64}

/-! ## The property and its condition -/

/-- The watcher of an object for an interface is registered. -/
def Caches.Registered (stdHash : Bytes → UInt64) (s : Caches) (object : DBusInstance)
    (interface : Bytes) : Prop :=
  { self := object.id, objectPath := object.objectPath, interface } ∈
    s.listeners (object.getHash stdHash)

/-- Every cached, bound object has its watchers, and no watcher is left under a hash
that no object has. -/
structure Watched (stdHash : Bytes → UInt64) (s : Caches) : Prop where
  registered : ∀ object ∈ s.objects, s.Cached object → object.bound ≠ none →
    ∀ interface ∈ object.targetProperties, s.Registered stdHash object interface
  live : ∀ hash, s.listeners hash ≠ [] → ∃ object ∈ s.objects, object.getHash stdHash = hash

/-- No cached, bound object with an interface to watch has a marked hash, and none
has an interface that it did not have when it was bound. -/
def Harmless (stdHash : Bytes → UInt64) (s : Caches) : Prop :=
  ∀ object ∈ s.objects, s.Cached object → ∀ interfaces, object.bound = some interfaces →
    (object.getHash stdHash ∈ s.toCleanupInstances → object.targetProperties = []) ∧
      object.targetProperties ⊆ interfaces

namespace Caches

/-! ## What holds after every sequence -/

/-- The numbers of objects, and the objects behind watchers and entries. -/
structure Invariant (stdHash : Bytes → UInt64) (s : Caches) : Prop where
  fresh : ∀ object ∈ s.objects, object.id < s.nextId
  owners : ∀ hash, ∀ watcher ∈ s.listeners hash, watcher.self < s.nextId
  /-- Interfaces are only ever added. -/
  grown : ∀ object ∈ s.objects, ∀ interfaces, object.bound = some interfaces →
    interfaces ⊆ object.targetProperties
  /-- An object's watchers are for the interfaces it was bound with. -/
  owned : ∀ object ∈ s.objects, ∀ hash, ∀ watcher ∈ s.listeners hash,
    watcher.self = object.id → ∃ interfaces, object.bound = some interfaces ∧
      watcher.interface ∈ interfaces
  live : ∀ hash, s.listeners hash ≠ [] →
    (∃ object ∈ s.objects, object.getHash stdHash = hash) ∨ hash ∈ s.toCleanupInstances

namespace Invariant

variable {s : Caches}

/-- At the start there is nothing. -/
theorem initial : Invariant stdHash {} where
  fresh := by
    intro object hmem
    exact absurd hmem (Table.not_mem_empty object)
  owners := by
    intro hash watcher hmem
    exact absurd hmem List.not_mem_nil
  grown := by
    intro object hmem
    exact absurd hmem (Table.not_mem_empty object)
  owned := by
    intro object hmem
    exact absurd hmem (Table.not_mem_empty object)
  live := by
    intro hash hne
    exact absurd rfl hne

/-- Caches and the references of requests play no part. -/
theorem of_eq (h : Invariant stdHash s) {t : Caches} (hobjects : t.objects = s.objects)
    (hlisteners : t.listeners = s.listeners)
    (hqueue : t.toCleanupInstances = s.toCleanupInstances) (hnext : t.nextId = s.nextId) :
    Invariant stdHash t where
  fresh := by
    rw [hobjects, hnext]
    exact h.fresh
  owners := by
    rw [hlisteners, hnext]
    exact h.owners
  grown := by
    rw [hobjects]
    exact h.grown
  owned := by
    rw [hobjects, hlisteners]
    exact h.owned
  live := by
    rw [hobjects, hlisteners, hqueue]
    exact h.live

/-- A new object has a new number. -/
theorem construct (h : Invariant stdHash s) (serviceName objectPath : Bytes)
    (targetProperties : List Bytes) :
    Invariant stdHash (s.construct serviceName objectPath targetProperties).2 where
  fresh := by
    intro object hmem
    change object.id < s.nextId + 1
    rcases mem_objects_construct hmem with hold | rfl
    · have := h.fresh object hold
      omega
    · exact Nat.lt_succ_self _
  owners := by
    intro hash watcher hmem
    have : watcher.self < s.nextId := h.owners hash watcher hmem
    exact Nat.lt_succ_of_lt this
  grown := by
    intro object hmem interfaces hbound
    rcases mem_objects_construct hmem with hold | rfl
    · exact h.grown object hold interfaces hbound
    · exact absurd hbound (by simp [Caches.construct])
  owned := by
    intro object hmem hash watcher hwatcher hself
    rcases mem_objects_construct hmem with hold | rfl
    · exact h.owned object hold hash watcher hwatcher hself
    · -- no watcher refers to the new object
      have hlt : watcher.self < s.nextId := h.owners hash watcher hwatcher
      have heq : watcher.self = s.nextId := hself
      omega
  live := by
    intro hash hne
    rcases h.live hash hne with ⟨object, hmem, hhash⟩ | hmarked
    · exact Or.inl ⟨object, Table.mem_emplace_of_mem hmem, hhash⟩
    · exact Or.inr hmarked

/-- Binding an object leaves all objects under their hashes. -/
private theorem exists_registerWatchers (object : DBusInstance) (interfaces : List Bytes)
    {other : DBusInstance} (hother : other ∈ s.objects) :
    ∃ other' ∈ (s.registerWatchers stdHash object interfaces).objects,
      other'.getHash stdHash = other.getHash stdHash := by
  by_cases hid : other.id = object.id
  · exact ⟨_, mem_objects_registerWatchers.mpr (Or.inr ⟨other, hother, hid, rfl⟩), rfl⟩
  · exact ⟨other, mem_objects_registerWatchers.mpr (Or.inl ⟨hother, hid⟩), rfl⟩

/-- An object without watchers is bound. -/
theorem registerWatchers (h : Invariant stdHash s) {object : DBusInstance}
    (hobject : object ∈ s.objects)
    (hnew : ∀ hash, ∀ watcher ∈ s.listeners hash, watcher.self ≠ object.id)
    {interfaces : List Bytes} (hsub : interfaces ⊆ object.targetProperties) :
    Invariant stdHash (s.registerWatchers stdHash object interfaces) := by
  have hobjects : ∀ other ∈ (s.registerWatchers stdHash object interfaces).objects,
      (other ∈ s.objects ∧ other.id ≠ object.id) ∨
        other = { object with bound := some interfaces } := by
    intro other hmem
    rcases mem_objects_registerWatchers.mp hmem with hold | ⟨old, hold, hid, rfl⟩
    · exact Or.inl hold
    · right
      rw [Table.eq_of_key_eq hold hobject hid]
  constructor
  · intro other hmem
    rw [nextId_registerWatchers]
    rcases hobjects other hmem with ⟨hold, -⟩ | rfl
    · exact h.fresh other hold
    · exact h.fresh object hobject
  · intro hash watcher hmem
    rw [nextId_registerWatchers]
    rcases mem_listeners_registerWatchers.mp hmem with hold | ⟨-, hself, -⟩
    · exact h.owners hash watcher hold
    · rw [hself]
      exact h.fresh object hobject
  · intro other hmem bound hbound
    rcases hobjects other hmem with ⟨hold, -⟩ | rfl
    · exact h.grown other hold bound hbound
    · cases hbound
      exact hsub
  · intro other hmem hash watcher hwatcher hself
    rcases mem_listeners_registerWatchers.mp hwatcher with holdw | ⟨-, hnewself, -, hinterface⟩
    · rcases hobjects other hmem with ⟨hold, -⟩ | rfl
      · exact h.owned other hold hash watcher holdw hself
      · exact absurd hself (hnew hash watcher holdw)
    · rcases hobjects other hmem with ⟨-, hid⟩ | rfl
      · exact absurd (hself.symm.trans hnewself) hid
      · exact ⟨interfaces, rfl, hinterface⟩
  · intro hash hne
    rw [toCleanupInstances_registerWatchers]
    obtain ⟨watcher, hwatcher⟩ := List.exists_mem_of_ne_nil _ hne
    rcases mem_listeners_registerWatchers.mp hwatcher with hold | ⟨hhash, -⟩
    · rcases h.live hash (List.ne_nil_of_mem hold) with ⟨other, hother, heq⟩ | hmarked
      · obtain ⟨other', hother', heq'⟩ := exists_registerWatchers object interfaces hother
        exact Or.inl ⟨other', hother', heq'.trans heq⟩
      · exact Or.inr hmarked
    · obtain ⟨other', hother', heq'⟩ := exists_registerWatchers object interfaces hobject
      exact Or.inl ⟨other', hother', heq'.trans hhash.symm⟩

/-- Merging changes the interfaces alone. -/
theorem mergeInternalMetadata (h : Invariant stdHash s) (id : Nat) (destination : DBusInstance) :
    Invariant stdHash (s.mergeInternalMetadata id destination) where
  fresh := by
    intro object hmem
    rcases mem_objects_mergeInternalMetadata.mp hmem with ⟨hold, -⟩ | ⟨old, hold, -, rfl⟩
    · exact h.fresh object hold
    · exact h.fresh old hold
  owners := h.owners
  grown := by
    intro object hmem interfaces hbound
    rcases mem_objects_mergeInternalMetadata.mp hmem with ⟨hold, -⟩ | ⟨old, hold, -, rfl⟩
    · exact h.grown object hold interfaces hbound
    · exact List.Subset.trans (h.grown old hold interfaces hbound) (List.subset_append_left _ _)
  owned := by
    intro object hmem
    rcases mem_objects_mergeInternalMetadata.mp hmem with ⟨hold, -⟩ | ⟨old, hold, -, rfl⟩
    · exact h.owned object hold
    · exact h.owned old hold
  live := by
    intro hash hne
    rcases h.live hash hne with ⟨object, hmem, hhash⟩ | hmarked
    · left
      by_cases hid : object.id = id
      · exact ⟨_, mem_objects_mergeInternalMetadata.mpr (Or.inr ⟨object, hmem, hid, rfl⟩), hhash⟩
      · exact ⟨object, mem_objects_mergeInternalMetadata.mpr (Or.inl ⟨hmem, hid⟩), hhash⟩
    · exact Or.inr hmarked

/-- An object that ends is not referred to. -/
theorem reap (h : Invariant stdHash s) : Invariant stdHash (s.reap stdHash) where
  fresh := by
    intro object hmem
    exact h.fresh object (mem_objects_reap.mp hmem).1
  owners := h.owners
  grown := by
    intro object hmem
    exact h.grown object (mem_objects_reap.mp hmem).1
  owned := by
    intro object hmem
    exact h.owned object (mem_objects_reap.mp hmem).1
  live := by
    intro hash hne
    rcases h.live hash hne with ⟨object, hmem, rfl⟩ | hmarked
    · rcases mem_objects_reap_or hmem with hleft | hmark
      · exact Or.inl ⟨object, hleft, rfl⟩
      · exact Or.inr hmark
    · exact Or.inr (List.mem_append_left _ hmarked)

/-- The watchers that are left. -/
theorem listeners_cleanup {hash : UInt64} {watcher : Watcher} :
    watcher ∈ s.cleanupInstacesWatchers.listeners hash ↔
      watcher ∈ s.listeners hash ∧ hash ∉ s.toCleanupInstances := by
  simp only [cleanupInstacesWatchers]
  by_cases hmarked : hash ∈ s.toCleanupInstances
  · simp [hmarked]
  · simp [hmarked]

theorem cleanup_live (h : Invariant stdHash s) (hash : UInt64)
    (hne : s.cleanupInstacesWatchers.listeners hash ≠ []) :
    ∃ object ∈ s.objects, object.getHash stdHash = hash := by
  obtain ⟨watcher, hwatcher⟩ := List.exists_mem_of_ne_nil _ hne
  obtain ⟨hold, hunmarked⟩ := listeners_cleanup.mp hwatcher
  rcases h.live hash (List.ne_nil_of_mem hold) with hobject | hmarked
  · exact hobject
  · exact absurd hmarked hunmarked

/-- Cleaning up keeps the invariant. -/
theorem cleanup (h : Invariant stdHash s) : Invariant stdHash s.cleanupInstacesWatchers where
  fresh := h.fresh
  owners := by
    intro hash watcher hmem
    exact h.owners hash watcher (listeners_cleanup.mp hmem).1
  grown := h.grown
  owned := by
    intro object hmem hash watcher hwatcher
    exact h.owned object hmem hash watcher (listeners_cleanup.mp hwatcher).1
  live := by
    intro hash hne
    exact Or.inl (h.cleanup_live hash hne)

/-! ### Whole operations -/

/-- A new object is there. -/
theorem mem_construct (h : Invariant stdHash s) (serviceName objectPath : Bytes)
    (targetProperties : List Bytes) :
    (s.construct serviceName objectPath targetProperties).1 ∈
      (s.construct serviceName objectPath targetProperties).2.objects := by
  apply Table.mem_emplace_iff.mpr
  refine Or.inr ⟨rfl, ?_⟩
  rintro ⟨old, hold, hid⟩
  have hlt : old.id < s.nextId := h.fresh old hold
  exact absurd hid (Nat.ne_of_lt hlt)

/-- A new object has no watchers. -/
theorem not_owner_construct (h : Invariant stdHash s) (serviceName objectPath : Bytes)
    (targetProperties : List Bytes) :
    ∀ hash, ∀ watcher ∈ (s.construct serviceName objectPath targetProperties).2.listeners hash,
      watcher.self ≠ (s.construct serviceName objectPath targetProperties).1.id := by
  intro hash watcher hmem
  have hlt : watcher.self < s.nextId := h.owners hash watcher hmem
  exact Nat.ne_of_lt hlt

/-- A new object is bound to some of its interfaces. -/
theorem construct_registerWatchers (h : Invariant stdHash s) (serviceName objectPath : Bytes)
    {targetProperties interfaces : List Bytes} (hsub : interfaces ⊆ targetProperties) :
    Invariant stdHash ((s.construct serviceName objectPath targetProperties).2.registerWatchers
      stdHash (s.construct serviceName objectPath targetProperties).1 interfaces) :=
  (h.construct serviceName objectPath targetProperties).registerWatchers
    (h.mem_construct serviceName objectPath targetProperties)
    (h.not_owner_construct serviceName objectPath targetProperties) hsub

theorem discover (h : Invariant stdHash s) (query : DBusQuery) (found : FoundObject) :
    Invariant stdHash (s.discover stdHash query found).2 := by
  unfold Caches.discover
  cases query.kind with
  | findObject => exact h.construct_registerWatchers _ _ (List.Subset.refl _)
  | getObject => exact h.construct_registerWatchers _ _ (List.Subset.refl _)
  | introspectService => exact h.construct_registerWatchers _ _ (List.Subset.refl _)
  | staticProtocols => exact h.construct _ _ _

theorem process (h : Invariant stdHash s) (query : DBusQuery) (reply : List FoundObject) :
    Invariant stdHash (s.process stdHash query reply).2 := by
  induction reply generalizing s with
  | nil => exact h
  | cons found rest ih => exact ih (h.discover query found)

theorem setInstances (h : Invariant stdHash s) (entity : Bytes) (objects : List DBusInstance) :
    Invariant stdHash (s.setInstances stdHash entity objects) := by
  induction objects generalizing s with
  | nil => exact h
  | cons object rest ih =>
      have hassigned : Invariant stdHash (s.assign stdHash entity object) :=
        h.of_eq rfl rfl rfl rfl
      exact ih hassigned

theorem mergeInstance (h : Invariant stdHash s) (entity : Bytes) (object : DBusInstance) :
    Invariant stdHash (s.mergeInstance stdHash entity object) := by
  unfold Caches.mergeInstance
  split
  · exact h.of_eq rfl rfl rfl rfl
  · exact h.mergeInternalMetadata _ _

theorem interfacesAdded (h : Invariant stdHash s) (entity : Bytes) (query : DBusQuery)
    (found : FoundObject) : Invariant stdHash (s.interfacesAdded stdHash entity query found) := by
  unfold Caches.interfacesAdded
  simp only
  split
  · apply mergeInstance
    exact h.construct_registerWatchers _ _ (List.Subset.refl _)
  · apply mergeInternalMetadata
    exact h.construct _ _ _

theorem apply (h : Invariant stdHash s) (operation : Operation) :
    Invariant stdHash (s.apply stdHash operation) := by
  cases operation with
  | process entity query reply => exact ((h.process query reply).setInstances _ _).reap
  | processProxy entity provider selected => exact (h.setInstances _ _).reap
  | abandon serviceName objectPath targetProperties registered =>
      exact (h.construct_registerWatchers _ _ (List.take_subset _ _)).reap
  | interfacesAdded entity query found => exact (h.interfacesAdded entity query found).reap
  | interfacesRemoved entity serviceName objectPath =>
      have hremoved : Invariant stdHash (s.removeInstance entity
          (getHash stdHash serviceName objectPath)) := h.of_eq rfl rfl rfl rfl
      exact hremoved.reap
  | resetCache entity =>
      have hreset : Invariant stdHash (s.resetCache entity) := h.of_eq rfl rfl rfl rfl
      exact hreset.reap
  | getInstances entity => exact h.of_eq rfl rfl rfl rfl
  | giveBack id =>
      have hreturned : Invariant stdHash { s with borrowed := s.borrowed.erase id } :=
        h.of_eq rfl rfl rfl rfl
      exact hreturned.reap
  | cleanupInstacesWatchers => exact h.cleanup

end Invariant

theorem invariant_after (operations : List Operation) :
    Invariant stdHash (after stdHash operations) := by
  apply (Run.foldl (apply stdHash) {} operations).invariant Invariant.initial
  rintro s operation t h rfl
  exact h.apply operation

/-! ## The watchers that an object was bound with -/

/-- The cached objects, and others given by their addresses, have the watchers they
were bound with. -/
def Kept (stdHash : Bytes → UInt64) (s : Caches) (others : List Nat) : Prop :=
  ∀ object ∈ s.objects, s.Cached object ∨ object.id ∈ others →
    ∀ interfaces, object.bound = some interfaces →
      ∀ interface ∈ interfaces, s.Registered stdHash object interface

namespace Kept

variable {s t : Caches} {others : List Nat}

/-- The caches refer to fewer objects, or to more of the given ones. -/
theorem of_cached (h : Kept stdHash s others) {others' : List Nat}
    (hobjects : ∀ object ∈ t.objects, object ∈ s.objects)
    (hlisteners : t.listeners = s.listeners)
    (hcached : ∀ object, t.Cached object ∨ object.id ∈ others' →
      s.Cached object ∨ object.id ∈ others) : Kept stdHash t others' := by
  intro object hmem hkept interfaces hbound interface hinterface
  unfold Registered
  rw [hlisteners]
  exact h object (hobjects object hmem) (hcached object hkept) interfaces hbound interface
    hinterface

/-- Objects may be let go. -/
theorem forget (h : Kept stdHash s others) : Kept stdHash s [] := by
  apply h.of_cached (fun _ hmem => hmem) rfl
  rintro object (hcached | hnil)
  · exact Or.inl hcached
  · exact absurd hnil List.not_mem_nil

/-- What is not kept may end. -/
theorem reap (h : Kept stdHash s others) : Kept stdHash (s.reap stdHash) [] :=
  h.forget.of_cached (fun _ hmem => (mem_objects_reap.mp hmem).1) rfl fun _ hkept => hkept

/-- A new object is kept. -/
theorem construct (h : Kept stdHash s others) (hinvariant : Invariant stdHash s)
    (serviceName objectPath : Bytes) (targetProperties : List Bytes) :
    Kept stdHash (s.construct serviceName objectPath targetProperties).2
      ((s.construct serviceName objectPath targetProperties).1.id :: others) := by
  intro object hmem hkept interfaces hbound
  rcases mem_objects_construct hmem with hold | rfl
  · apply h object hold _ interfaces hbound
    rcases hkept with hcached | hothers
    · exact Or.inl hcached
    · right
      have hlt : object.id < s.nextId := hinvariant.fresh object hold
      exact List.mem_of_ne_of_mem (Nat.ne_of_lt hlt) hothers
  · exact absurd hbound (by simp [Caches.construct])

/-- A kept object gets its watchers. -/
theorem registerWatchers (h : Kept stdHash s others) {object : DBusInstance}
    (hobject : object ∈ s.objects) (interfaces : List Bytes) :
    Kept stdHash (s.registerWatchers stdHash object interfaces) others := by
  intro other hmem hkept bound hbound interface hinterface
  apply mem_listeners_registerWatchers.mpr
  rcases mem_objects_registerWatchers.mp hmem with ⟨hold, -⟩ | ⟨old, hold, hid, rfl⟩
  · left
    apply h other hold _ bound hbound interface hinterface
    simpa only [Cached, instances_registerWatchers] using hkept
  · -- the bound object itself
    right
    have hsame : old = object := Table.eq_of_key_eq hold hobject hid
    subst hsame
    cases hbound
    exact ⟨rfl, rfl, rfl, hinterface⟩

/-- A new object gets its watchers. -/
theorem construct_registerWatchers (h : Kept stdHash s others)
    (hinvariant : Invariant stdHash s) (serviceName objectPath : Bytes)
    (targetProperties interfaces : List Bytes) :
    Kept stdHash ((s.construct serviceName objectPath targetProperties).2.registerWatchers
        stdHash (s.construct serviceName objectPath targetProperties).1 interfaces)
      ((s.construct serviceName objectPath targetProperties).1.id :: others) :=
  (h.construct hinvariant serviceName objectPath targetProperties).registerWatchers
    (hinvariant.mem_construct serviceName objectPath targetProperties) interfaces

/-- An object that is discovered is kept. -/
theorem discover (h : Kept stdHash s others) (hinvariant : Invariant stdHash s)
    (query : DBusQuery) (found : FoundObject) :
    Kept stdHash (s.discover stdHash query found).2
      ((s.discover stdHash query found).1.id :: others) := by
  unfold Caches.discover
  cases query.kind with
  | findObject => exact h.construct_registerWatchers hinvariant _ _ _ _
  | getObject => exact h.construct_registerWatchers hinvariant _ _ _ _
  | introspectService => exact h.construct_registerWatchers hinvariant _ _ _ _
  | staticProtocols => exact h.construct hinvariant _ _ _

/-- All objects of a reply are bound when the last one is. -/
theorem process (h : Kept stdHash s others) (hinvariant : Invariant stdHash s)
    (query : DBusQuery) (reply : List FoundObject) :
    ∃ others', Kept stdHash (s.process stdHash query reply).2 others' ∧ others ⊆ others' ∧
      ∀ object ∈ (s.process stdHash query reply).1, object.id ∈ others' := by
  induction reply generalizing s others with
  | nil =>
      refine ⟨others, h, List.Subset.refl _, ?_⟩
      intro object hmem
      exact absurd hmem List.not_mem_nil
  | cons found rest ih =>
      obtain ⟨others', hkept, hsub, hrest⟩ :=
        ih (h.discover hinvariant query found) (hinvariant.discover query found)
      have hfirst := hsub (List.mem_cons_self ..)
      refine ⟨others', hkept, fun id hid => hsub (List.mem_cons_of_mem _ hid), ?_⟩
      intro object hmem
      rcases List.mem_cons.mp hmem with rfl | hmem
      · exact hfirst
      · exact hrest object hmem

/-- An object that is assigned is cached. -/
theorem assign (h : Kept stdHash s others) (entity : Bytes) {object : DBusInstance}
    (hobject : s.Cached object ∨ object.id ∈ others) :
    Kept stdHash (s.assign stdHash entity object) others := by
  refine h.of_cached (t := s.assign stdHash entity object) (fun _ hmem => hmem) rfl ?_
  rintro other (hcached | hothers)
  · rcases cached_assign hcached with hold | hid
    · exact Or.inl hold
    · -- being cached is a matter of the address
      unfold Cached
      rw [hid]
      exact hobject
  · exact Or.inr hothers

theorem setInstances (h : Kept stdHash s others) (entity : Bytes) {objects : List DBusInstance}
    (hobjects : ∀ object ∈ objects, object.id ∈ others) :
    Kept stdHash (s.setInstances stdHash entity objects) others := by
  induction objects generalizing s with
  | nil => exact h
  | cons object rest ih =>
      apply ih
      · exact h.assign entity (Or.inr (hobjects object (List.mem_cons_self ..)))
      · intro other hmem
        exact hobjects other (List.mem_cons_of_mem _ hmem)

/-- Merging leaves what is kept. -/
theorem mergeInternalMetadata (h : Kept stdHash s others) (id : Nat)
    (destination : DBusInstance) :
    Kept stdHash (s.mergeInternalMetadata id destination) others := by
  intro object hmem hkept
  rcases mem_objects_mergeInternalMetadata.mp hmem with ⟨hold, -⟩ | ⟨old, hold, -, rfl⟩
  · exact h object hold hkept
  · exact h old hold hkept

/-- A merged object is cached. -/
theorem mergeInstance (h : Kept stdHash s others) (entity : Bytes) {object : DBusInstance}
    (hobject : object.id ∈ others) :
    Kept stdHash (s.mergeInstance stdHash entity object) others := by
  unfold Caches.mergeInstance
  split
  · exact h.assign entity (Or.inr hobject)
  · exact h.mergeInternalMetadata _ _

/-- An object whose interfaces are added is kept. -/
theorem interfacesAdded (h : Kept stdHash s others) (hinvariant : Invariant stdHash s)
    (entity : Bytes) (query : DBusQuery) (found : FoundObject) :
    ∃ others', Kept stdHash (s.interfacesAdded stdHash entity query found) others' := by
  unfold Caches.interfacesAdded
  simp only
  split
  · refine ⟨_, mergeInstance (h.construct_registerWatchers hinvariant _ _ _ _) entity ?_⟩
    exact List.mem_cons_self ..
  · exact ⟨_, (h.construct hinvariant _ _ _).mergeInternalMetadata _ _⟩

/-- A harmless cleanup erases no watcher of a cached object. -/
theorem cleanup (h : Kept stdHash s []) (hinvariant : Invariant stdHash s)
    (hharmless : Harmless stdHash s) : Kept stdHash s.cleanupInstacesWatchers [] := by
  rintro object hmem (hcached | hnil) interfaces hbound interface hinterface
  · apply Invariant.listeners_cleanup.mpr
    refine ⟨h object hmem (Or.inl hcached) interfaces hbound interface hinterface, ?_⟩
    intro hmarked
    have hempty := (hharmless object hmem hcached interfaces hbound).1 hmarked
    have htarget := hinvariant.grown object hmem interfaces hbound hinterface
    rw [hempty] at htarget
    exact absurd htarget List.not_mem_nil
  · exact absurd hnil List.not_mem_nil

theorem apply (h : Kept stdHash s []) (hinvariant : Invariant stdHash s) {operation : Operation}
    (hharmless : operation = .cleanupInstacesWatchers → Harmless stdHash s) :
    Kept stdHash (s.apply stdHash operation) [] := by
  cases operation with
  | process entity query reply =>
      obtain ⟨others, hkept, -, hobjects⟩ := h.process hinvariant query reply
      exact (hkept.setInstances entity hobjects).reap
  | processProxy entity provider selected =>
      have hselected : Kept stdHash s ((s.select provider selected).map DBusInstance.id) := by
        apply h.of_cached (fun _ hmem => hmem) rfl
        rintro object (hcached | hmem)
        · exact Or.inl hcached
        · left
          obtain ⟨other, hother, hid⟩ := List.mem_map.mp hmem
          have hentry := (List.mem_filter.mp hother).2
          simp only [decide_eq_true_eq] at hentry
          obtain ⟨entry, hentry, -, -, heq⟩ := hentry
          exact ⟨entry, hentry, heq.trans hid⟩
      apply reap (setInstances hselected entity _)
      intro object hmem
      exact List.mem_map_of_mem hmem
  | abandon serviceName objectPath targetProperties registered =>
      exact (h.construct_registerWatchers hinvariant _ _ _ _).reap
  | interfacesAdded entity query found =>
      obtain ⟨others, hkept⟩ := h.interfacesAdded hinvariant entity query found
      exact hkept.reap
  | interfacesRemoved entity serviceName objectPath =>
      have hremoved : Kept stdHash (s.removeInstance entity
          (getHash stdHash serviceName objectPath)) [] :=
        h.of_cached (fun _ hmem => hmem) rfl fun _ hkept => hkept.imp_left cached_removeInstance
      exact hremoved.reap
  | resetCache entity =>
      have hreset : Kept stdHash (s.resetCache entity) [] :=
        h.of_cached (fun _ hmem => hmem) rfl fun _ hkept => hkept.imp_left cached_resetCache
      exact hreset.reap
  | getInstances entity => exact h
  | giveBack id =>
      have hreturned : Kept stdHash { s with borrowed := s.borrowed.erase id } [] := h
      exact hreturned.reap
  | cleanupInstacesWatchers => exact h.cleanup hinvariant (hharmless rfl)

end Kept

theorem registered_after (operations : List Operation)
    (hharmless : ∀ earlier later,
      operations = earlier ++ .cleanupInstacesWatchers :: later →
        Harmless stdHash (after stdHash earlier)) :
    Kept stdHash (after stdHash operations) [] := by
  have hrun := Run.foldl_restrict (apply stdHash)
    (fun s operation => operation = .cleanupInstacesWatchers → Harmless stdHash s) {} operations
    (by
      rintro earlier operation later heq rfl
      exact hharmless earlier later heq)
  have hboth : Invariant stdHash (after stdHash operations) ∧
      Kept stdHash (after stdHash operations) [] := by
    apply @Run.invariant _ _ _ _ _ _ (fun s => Invariant stdHash s ∧ Kept stdHash s []) hrun
    · refine ⟨Invariant.initial, ?_⟩
      intro object hmem
      exact absurd hmem (Table.not_mem_empty object)
    · rintro s operation t ⟨hinvariant, hkept⟩ ⟨hok, rfl⟩
      exact ⟨hinvariant.apply operation, hkept.apply hinvariant hok⟩
  exact hboth.2

end Caches

/-! ## After every cleanup -/

/-- A cleanup that leaves the watchers right was harmless. -/
theorem harmless_of_watched {s : Caches} (hinvariant : s.Invariant stdHash)
    (hwatched : Watched stdHash s.cleanupInstacesWatchers) : Harmless stdHash s := by
  intro object hmem hcached interfaces hbound
  have hregistered : ∀ interface ∈ object.targetProperties,
      s.Registered stdHash object interface ∧
        object.getHash stdHash ∉ s.toCleanupInstances := by
    intro interface hinterface
    have hne : object.bound ≠ none := by simp [hbound]
    exact Caches.Invariant.listeners_cleanup.mp
      (hwatched.registered object hmem hcached hne interface hinterface)
  constructor
  · intro hmarked
    apply List.eq_nil_iff_forall_not_mem.mpr
    intro interface hinterface
    exact (hregistered interface hinterface).2 hmarked
  · intro interface hinterface
    obtain ⟨bound, hbound', hmem'⟩ :=
      hinvariant.owned object hmem _ _ (hregistered interface hinterface).1 rfl
    rw [hbound] at hbound'
    cases hbound'
    exact hmem'

/-- Where every cached object is kept, each has its watchers. -/
theorem watched_of_kept {s : Caches} (hinvariant : s.Invariant stdHash)
    (hkept : s.Kept stdHash []) (hharmless : Harmless stdHash s) :
    Watched stdHash s.cleanupInstacesWatchers where
  registered := by
    intro object hmem hcached hbound interface hinterface
    obtain ⟨interfaces, hinterfaces⟩ := Option.ne_none_iff_exists'.mp hbound
    apply hkept.cleanup hinvariant hharmless object hmem (Or.inl hcached) interfaces hinterfaces
    exact (hharmless object hmem hcached interfaces hinterfaces).2 hinterface
  live := hinvariant.cleanup_live

/-- When each cleanup leaves the watchers of the cached objects. -/
theorem watched_after_cleanup_iff (stdHash : Bytes → UInt64) (operations : List Operation) :
    (∀ earlier later, operations = earlier ++ .cleanupInstacesWatchers :: later →
        Watched stdHash (Caches.after stdHash (earlier ++ [.cleanupInstacesWatchers]))) ↔
      ∀ earlier later, operations = earlier ++ .cleanupInstacesWatchers :: later →
        Harmless stdHash (Caches.after stdHash earlier) := by
  have hlast : ∀ earlier, Caches.after stdHash (earlier ++ [.cleanupInstacesWatchers]) =
      (Caches.after stdHash earlier).cleanupInstacesWatchers := by
    intro earlier
    exact List.foldl_append
  constructor
  · intro hwatched earlier later heq
    have hafter := hwatched earlier later heq
    rw [hlast] at hafter
    exact harmless_of_watched (Caches.invariant_after earlier) hafter
  · intro hharmless earlier later heq
    rw [hlast]
    apply watched_of_kept (Caches.invariant_after earlier) _ (hharmless earlier later heq)
    apply Caches.registered_after
    intro earlier' later' heq'
    apply hharmless earlier' (later' ++ .cleanupInstacesWatchers :: later)
    rw [heq, heq', List.append_assoc, List.cons_append]

/-! ## A signal for a cached object -/

/-- A stand-in for {lit}`std::hash` of a string. -/
def sampleHash (text : Bytes) : UInt64 :=
  text.foldl (fun hash c => hash * 31 + c.toUInt64) 7

/-- A query for items. -/
def sampleQuery : DBusQuery where
  kind := .findObject
  searchProperties := [bytes "xyz.openbmc_project.Inventory.Item"]

/-- A chassis in the inventory. -/
def sampleFound : FoundObject where
  serviceName := bytes "xyz.openbmc_project.Inventory.Manager"
  objectPath := bytes "/xyz/openbmc_project/inventory/system/chassis"
  interfaces := [bytes "xyz.openbmc_project.Inventory.Item"]

/-- An object is found and bound, its interface is signalled once more, and the
connection's thread cleans up. -/
def sampleOperations : List Operation :=
  [.process (bytes "Chassis") sampleQuery [sampleFound],
    .interfacesAdded (bytes "Chassis") sampleQuery sampleFound,
    .cleanupInstacesWatchers]

/-- The object built to be merged marks the hash it shares with the cached one. -/
theorem signal_unwatches_cached :
    ¬ Watched sampleHash (Caches.after sampleHash sampleOperations) := by
  intro h
  let object : DBusInstance :=
    { id := 0
      serviceName := sampleFound.serviceName
      objectPath := sampleFound.objectPath
      targetProperties := sampleQuery.searchProperties
      bound := some sampleQuery.searchProperties }
  have hmem : object ∈ (Caches.after sampleHash sampleOperations).objects.rows := by decide +kernel
  have hcached : (Caches.after sampleHash sampleOperations).Cached object := by decide +kernel
  have hregistered := h.registered object hmem hcached (by decide)
    (bytes "xyz.openbmc_project.Inventory.Item") (by decide)
  have hnone : (Caches.after sampleHash sampleOperations).listeners
      (object.getHash sampleHash) = [] := by decide +kernel
  unfold Caches.Registered at hregistered
  rw [hnone] at hregistered
  exact absurd hregistered List.not_mem_nil

end Entity
end ObmcWebapp
