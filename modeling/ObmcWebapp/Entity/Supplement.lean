import Mathlib.Data.List.Forall2
import Mathlib.Data.List.Induction
import ObmcWebapp.Entity.RelatedInstances
import ObmcWebapp.Library.Writers

/-!
# Entity - Instances supplemented by providers

{lit}`getInstances` writes into the cached objects that it reads: the default fields, what
{lit}`verifyState` reads anew, and what the link rules take over from the instances of the
providers.  Nothing is taken out again, so that a field of a provider instance that is
gone stays on the objects that an earlier read supplemented.

An object that is to be initialised again is given by what {lit}`verifyState` writes.

Main results:

- Theorem {lit}`getInstances_eq_cached`: what a read returns.
- Theorem {lit}`earlier_reads_do_not_matter`: in which histories a read returns what it
  would without the reads before it.
- Theorem {lit}`reads_do_not_matter_iff`: for rules that write into every object alike these
  are all such histories.
- Theorem {lit}`allKeep_of_resetting`: for rules that reset what they write every history is one.
-/

open Library

namespace ObmcWebapp
namespace Entity

/-! ## What is written -/

/-- What is written into an object of a hash, by its fields. -/
abbrev FieldWriter := UInt64 → Writer Bytes FieldType Exception

/-- {lit}`supplementOrUpdate` of a {lit}`StaticInstance` takes over all fields of another
instance; that of a {lit}`DBusInstance` leaves out those about the object itself. -/
def Instance.supplied (instance_ : Instance) (isStatic : Bool) : Store Bytes FieldType :=
  fun memberName =>
    if !isStatic && (bytes "__meta_").isPrefixOf memberName then none
    else (instance_.memberInstances memberName).map fun value => Field.getValue (some value)

/-- {lit}`defaultLinkProvider`, for objects of the two kinds. -/
def defaultLinkProvider (isStatic : UInt64 → Bool) (supplement : Instance) : FieldWriter :=
  fun hash _ => ⟨supplement.supplied (isStatic hash), none⟩

/-- What an entity fixes: the kind of its objects, the setters of their default fields,
what {lit}`verifyState` does, and the link rule of each provider. -/
structure SupplementRules where
  isStatic : UInt64 → Bool
  initDefaultFieldsValue : FieldWriter
  verifyState : FieldWriter
  providers : List (Instance → FieldWriter)

/-- The instances of an entity and those of its providers. -/
structure Supplemented where
  instances : List Instance
  provided : List (List Instance)

/-- The writers of a read for an object, in their order. -/
def SupplementRules.writers (rules : SupplementRules) (provided : List (List Instance))
    (hash : UInt64) : List (Writer Bytes FieldType Exception) :=
  rules.initDefaultFieldsValue hash :: rules.verifyState hash ::
    (rules.providers.zip provided).flatMap fun provider =>
      provider.2.map fun supplement => provider.1 supplement hash

/-- What is written into an object. -/
def Instance.update (instance_ : Instance) (written : Store Bytes FieldType) : Instance :=
  { instance_ with memberInstances := Store.write instance_.memberInstances written }

/-- The hash stays. -/
@[simp] theorem Instance.update_hash (instance_ : Instance) (written : Store Bytes FieldType) :
    (instance_.update written).hash = instance_.hash :=
  rfl

/-- The object as its writers leave it. -/
def Instance.refreshed (writers : UInt64 → List (Writer Bytes FieldType Exception))
    (object : Instance) : Instance × Option Exception :=
  let outcome := runWriters (writers object.hash) object.memberInstances
  ({ object with memberInstances := outcome.1 }, outcome.2)

/-- The loop of {lit}`getInstances`, with the objects as it leaves them. -/
def readInstances (writers : UInt64 → List (Writer Bytes FieldType Exception))
    (conditions : List Condition) : List Instance →
      List Instance × Except Exception (List Instance)
  | [] => ([], .ok [])
  | object :: rest =>
      match object.refreshed writers with
      | (instance_, some exception) => (instance_ :: rest, .error exception)
      | (instance_, none) =>
          match checkConditions conditions instance_ with
          | .error exception => (instance_ :: rest, .error exception)
          | .ok passed =>
              let later := readInstances writers conditions rest
              (instance_ :: later.1,
                later.2.map fun result => if passed then instance_ :: result else result)

namespace Supplemented

/-- {lit}`getInstances`, with the objects as it leaves them. -/
def getInstances (rules : SupplementRules) (s : Supplemented) (conditions : List Condition) :
    List Instance × Except Exception (List Instance) :=
  readInstances (rules.writers s.provided) conditions s.instances

end Supplemented

/-! ## What a read returns -/

/-- An object that is left by its writers, or the exception of one of them. -/
def outcomeOf (outcome : Instance × Option Exception) : Except Exception Instance :=
  match outcome.2 with
  | some exception => .error exception
  | none => .ok outcome.1

/-- A writer as a function of the object. -/
def FieldWriter.run (writer : FieldWriter) (object : Instance) : Except Exception Instance :=
  let effect := writer object.hash object.memberInstances
  outcomeOf (object.update effect.written, effect.raised)

/-- The same entity with what it does to an object as functions. -/
def Supplemented.toCached (rules : SupplementRules) (s : Supplemented) : Cached Unit where
  instances _ := s.instances
  initDefaultFieldsValue _ := rules.initDefaultFieldsValue.run
  verifyState _ := rules.verifyState.run
  providers _ := (rules.providers.zip s.provided).map fun provider =>
    { instances := provider.2, linkRule := fun supplement => (provider.1 supplement).run }

section

variable {rules : SupplementRules} {s : Supplemented} {object : Instance}

/-- Functions that return one after the other are writers in their order. -/
theorem foldlM_run (writers : List FieldWriter) (object : Instance) :
    writers.foldlM (fun target writer => writer.run target) object =
      outcomeOf (object.refreshed fun hash => writers.map fun writer => writer hash) := by
  induction writers generalizing object with
  | nil => rfl
  | cons writer rest ih =>
      rw [List.foldlM_cons]
      cases hraised : (writer object.hash object.memberInstances).raised with
      | some exception =>
          have hrun : writer.run object = .error exception := by
            simp [FieldWriter.run, outcomeOf, hraised]
          rw [hrun]
          simp [Instance.refreshed, runWriters, outcomeOf, hraised, bind, Except.bind]
      | none =>
          have hrun : writer.run object =
              .ok (object.update (writer object.hash object.memberInstances).written) := by
            simp [FieldWriter.run, outcomeOf, hraised]
          rw [hrun]
          refine (ih _).trans ?_
          simp [Instance.refreshed, runWriters, hraised, Instance.update]

/-- An object is refreshed by its writers. -/
theorem refresh_eq : (s.toCached rules).refresh () object =
    outcomeOf (object.refreshed (rules.writers s.provided)) := by
  have hlinks : ∀ target, (((rules.providers.zip s.provided).map fun provider =>
      ({ instances := provider.2, linkRule := fun supplement => (provider.1 supplement).run } :
        Provider)).foldlM (fun target provider => provider.supplementInstance target) target) =
      ((rules.providers.zip s.provided).flatMap fun provider =>
        provider.2.map provider.1).foldlM (fun target writer => writer.run target) target := by
    induction rules.providers.zip s.provided with
    | nil =>
        intro target
        rfl
    | cons provider rest ih =>
        intro target
        rw [List.map_cons, List.foldlM_cons, List.flatMap_cons, List.foldlM_append,
          List.foldlM_map]
        exact congrArg (_ >>= ·) (funext ih)
  have hall := foldlM_run (rules.initDefaultFieldsValue :: rules.verifyState ::
    (rules.providers.zip s.provided).flatMap fun provider => provider.2.map provider.1) object
  have hwriters : (fun hash => (rules.initDefaultFieldsValue :: rules.verifyState ::
      (rules.providers.zip s.provided).flatMap fun provider => provider.2.map provider.1).map
        fun writer => writer hash) = rules.writers s.provided := by
    funext hash
    simp [SupplementRules.writers, List.map_flatMap, Function.comp_def]
  rw [hwriters] at hall
  simp only [← hall, List.foldlM_cons, ← hlinks]
  rfl

/-- A read returns what the loop over the refreshed objects collects. -/
theorem getInstances_eq_cached (conditions : List Condition) :
    (s.getInstances rules conditions).2 = (s.toCached rules).getInstances () conditions := by
  unfold Supplemented.getInstances Cached.getInstances
  have hobjects : (s.toCached rules).instances () = s.instances := rfl
  rw [hobjects]
  induction s.instances with
  | nil => rfl
  | cons object rest ih =>
      rw [readInstances, Cached.collect, refresh_eq]
      rcases object.refreshed (rules.writers s.provided) with ⟨instance_, raised⟩
      cases raised with
      | some exception => rfl
      | none =>
          simp only [outcomeOf, bind, Except.bind]
          cases hcheck : checkConditions conditions instance_ with
          | error exception => rfl
          | ok passed =>
              simp only
              rw [← ih]
              cases (readInstances (rules.writers s.provided) conditions rest).2 <;> rfl

end

/-! ## Histories -/

/-- What happens to an entity and its providers: additions and removals, an object that
is merged into the cache, changed properties of a cached object, other instances of the
providers, and a read. -/
inductive Event
  | change (change : Change)
  | mergeInstance (instance_ : Instance)
  | propertiesChanged (hash : UInt64) (values : Store Bytes FieldType)
  | provide (provided : List (List Instance))
  | getInstances (conditions : List Condition)

/-- The objects of a hash are updated. -/
def updateInstances (hash : UInt64) (written : Store Bytes FieldType) (instances : List Instance) :
    List Instance :=
  instances.map fun object => if object.hash = hash then object.update written else object

/-- {lit}`mergeInstance` supplements an object that is there. -/
def mergeInto (rules : SupplementRules) (instance_ : Instance) (instances : List Instance) :
    List Instance :=
  if instances.any fun object => object.hash = instance_.hash then
    updateInstances instance_.hash (instance_.supplied (rules.isStatic instance_.hash)) instances
  else insertOrAssign instance_ instances

namespace Supplemented

/-- The state after an event. -/
def apply (rules : SupplementRules) (s : Supplemented) : Event → Supplemented
  | .change change => { s with instances := change.apply s.instances }
  | .mergeInstance instance_ => { s with instances := mergeInto rules instance_ s.instances }
  | .propertiesChanged hash values => { s with instances := updateInstances hash values s.instances }
  | .provide provided => { s with provided }
  | .getInstances conditions => { s with instances := (s.getInstances rules conditions).1 }

/-- The state after a history, from an empty cache. -/
def after (rules : SupplementRules) (history : List Event) : Supplemented :=
  history.foldl (apply rules) ⟨[], []⟩

end Supplemented

/-- The event is a read. -/
def Event.isRead : Event → Bool
  | .getInstances _ => true
  | _ => false

/-- A history without its reads. -/
def withoutReads (history : List Event) : List Event :=
  history.filter fun event => !event.isRead

section

variable {rules : SupplementRules} {history : List Event} {event : Event}

/-- The last event of a history. -/
@[simp] theorem Supplemented.after_append (event : Event) :
    Supplemented.after rules (history ++ [event]) =
      (Supplemented.after rules history).apply rules event := by
  simp [Supplemented.after]

/-- A read is left out. -/
theorem withoutReads_append_read (h : event.isRead = true) :
    withoutReads (history ++ [event]) = withoutReads history := by
  simp [withoutReads, h]

/-- Another event is kept. -/
theorem withoutReads_append (h : event.isRead = false) :
    withoutReads (history ++ [event]) = withoutReads history ++ [event] := by
  simp [withoutReads, h]

end

/-! ## Objects and their own fields -/

/-- An object, beside the same one as it would be without the reads. -/
structure OwnCovered (rules : SupplementRules) (provided : List (List Instance))
    (object own : Instance) : Prop where
  hash : object.hash = own.hash
  covered : Covered (rules.writers provided object.hash) object.memberInstances own.memberInstances

/-- The objects are those of the history without its reads, up to what the next read
writes. -/
structure Tracks (rules : SupplementRules) (s own : Supplemented) : Prop where
  provided : s.provided = own.provided
  objects : List.Forall₂ (OwnCovered rules s.provided) s.instances own.instances

section

variable {rules : SupplementRules} {provided : List (List Instance)} {object own : Instance}
  {objects owns : List Instance} {s : Supplemented} {conditions : List Condition}

/-- An object is covered by itself. -/
theorem OwnCovered.refl (object : Instance) : OwnCovered rules provided object object where
  hash := rfl
  covered := Covered.refl _ _

/-- A covered object is refreshed as its own. -/
theorem OwnCovered.refreshed_eq (h : OwnCovered rules provided object own) :
    object.refreshed (rules.writers provided) = own.refreshed (rules.writers provided) := by
  unfold Instance.refreshed
  rw [h.covered.runWriters_eq, h.hash]

/-- A read returns the same of the objects and of their own fields. -/
theorem readInstances_eq (h : List.Forall₂ (OwnCovered rules provided) objects owns) :
    (readInstances (rules.writers provided) conditions objects).2 =
      (readInstances (rules.writers provided) conditions owns).2 := by
  induction h with
  | nil => rfl
  | @cons object own rest owns hobject _ ih =>
      rw [readInstances, readInstances, hobject.refreshed_eq]
      rcases own.refreshed (rules.writers provided) with ⟨instance_, raised⟩
      cases raised with
      | some exception => rfl
      | none =>
          cases hcheck : checkConditions conditions instance_ with
          | error exception => simp [hcheck]
          | ok passed => simp [hcheck, ih]

/-- A read of a tracked state returns the same. -/
theorem Tracks.getInstances_eq {own : Supplemented} (h : Tracks rules s own) :
    (s.getInstances rules conditions).2 = (own.getInstances rules conditions).2 := by
  unfold Supplemented.getInstances
  rw [readInstances_eq h.objects, h.provided]

/-! ## What keeps the objects covered -/

/-- The setters and rules would write into an object that is read what they have just
written. -/
def Stable (rules : SupplementRules) (provided : List (List Instance)) (object : Instance) : Prop :=
  together (rules.writers provided object.hash)
      (runWriters (rules.writers provided object.hash) object.memberInstances).1 =
    together (rules.writers provided object.hash) object.memberInstances

/-- A read does not change what the setters and rules write; after an update of cached
objects, and after a change of the providers, they write into every object what they would
into its own fields, and so every field in which the two differ. -/
def Keeps (rules : SupplementRules) (s own : Supplemented) : Event → Prop
  | .change _ => True
  | .mergeInstance instance_ =>
      ∀ pair ∈ s.instances.zip own.instances, pair.1.hash = instance_.hash →
        OwnCovered rules s.provided
          (pair.1.update (instance_.supplied (rules.isStatic instance_.hash)))
          (pair.2.update (instance_.supplied (rules.isStatic instance_.hash)))
  | .propertiesChanged hash values =>
      ∀ pair ∈ s.instances.zip own.instances, pair.1.hash = hash →
        OwnCovered rules s.provided (pair.1.update values) (pair.2.update values)
  | .provide provided =>
      ∀ pair ∈ s.instances.zip own.instances, OwnCovered rules provided pair.1 pair.2
  | .getInstances _ => ∀ object ∈ s.instances, Stable rules s.provided object

/-- A read keeps an object covered. -/
theorem OwnCovered.refreshed (h : OwnCovered rules provided object own)
    (hstable : Stable rules provided object) :
    OwnCovered rules provided (object.refreshed (rules.writers provided)).1 own where
  hash := h.hash
  covered := h.covered.again hstable

section

variable {R : Instance → Instance → Prop}

/-- A read keeps the objects related. -/
theorem forall₂_readInstances (h : List.Forall₂ R objects owns)
    (hread : ∀ object ∈ objects, ∀ own, R object own →
      R (object.refreshed (rules.writers provided)).1 own) :
    List.Forall₂ R (readInstances (rules.writers provided) conditions objects).1 owns := by
  induction h with
  | nil => exact .nil
  | @cons object own rest owns hobject hrest ih =>
      obtain ⟨hfirst, hlater⟩ := List.forall_mem_cons.mp hread
      have hrefreshed := hfirst own hobject
      rw [readInstances]
      rcases houtcome : object.refreshed (rules.writers provided) with ⟨instance_, raised⟩
      rw [houtcome] at hrefreshed
      cases raised with
      | some exception => exact .cons hrefreshed hrest
      | none =>
          dsimp only
          cases checkConditions conditions instance_ with
          | error exception => exact .cons hrefreshed hrest
          | ok passed => exact .cons hrefreshed (ih hlater)

/-- Caches whose objects are related in pairs, and so have the same hashes, stay so under the same
changes. -/
structure Pairs (R : Instance → Instance → Prop) : Prop where
  refl : ∀ object, R object object
  hash : ∀ {object own}, R object own → object.hash = own.hash

/-- {lit}`insertOrAssign` keeps the objects related. -/
theorem Pairs.insertOrAssign (hR : Pairs R) (h : List.Forall₂ R objects owns) (new : Instance) :
    List.Forall₂ R (insertOrAssign new objects) (insertOrAssign new owns) := by
  induction h with
  | nil => exact .cons (hR.refl new) .nil
  | @cons object own rest owns hobject hrest ih =>
      rw [Entity.insertOrAssign, Entity.insertOrAssign, ← hR.hash hobject]
      split
      · exact .cons (hR.refl new) (.cons hobject hrest)
      · split
        · exact .cons (hR.refl new) hrest
        · exact .cons hobject ih

theorem Pairs.change (hR : Pairs R) (h : List.Forall₂ R objects owns) (change : Change) :
    List.Forall₂ R (change.apply objects) (change.apply owns) := by
  cases change with
  | resetCache => exact .nil
  | removeInstance hash =>
      rw [Change.apply, Change.apply]
      induction h with
      | nil => exact .nil
      | @cons object own rest owns hobject _ ih =>
          rw [List.filter_cons, List.filter_cons, ← hR.hash hobject]
          split
          · exact .cons hobject ih
          · exact ih
  | setInstances instancesList =>
      rw [Change.apply, Change.apply]
      induction instancesList generalizing objects owns with
      | nil => exact h
      | cons new rest ih => exact ih (hR.insertOrAssign h new)

theorem Pairs.updateInstances (hR : Pairs R) {hash : UInt64} {written : Store Bytes FieldType}
    (h : List.Forall₂ R objects owns)
    (hkeeps : ∀ pair ∈ objects.zip owns, pair.1.hash = hash →
      R (pair.1.update written) (pair.2.update written)) :
    List.Forall₂ R (updateInstances hash written objects) (updateInstances hash written owns) := by
  induction h with
  | nil => exact .nil
  | @cons object own rest owns hobject _ ih =>
      rw [List.zip_cons_cons] at hkeeps
      obtain ⟨hfirst, hlater⟩ := List.forall_mem_cons.mp hkeeps
      refine .cons ?_ (ih hlater)
      dsimp only
      rw [← hR.hash hobject]
      split
      · next hhash => exact hfirst hhash
      · exact hobject

/-- Both have the same hashes. -/
theorem Pairs.any_hash_eq (hR : Pairs R) (h : List.Forall₂ R objects owns) (hash : UInt64) :
    (objects.any fun object => object.hash = hash) = owns.any fun object => object.hash = hash := by
  induction h with
  | nil => rfl
  | @cons object own rest owns hobject _ ih => rw [List.any_cons, List.any_cons, ih, hR.hash hobject]

theorem Pairs.mergeInto (hR : Pairs R) {instance_ : Instance} (h : List.Forall₂ R objects owns)
    (hkeeps : ∀ pair ∈ objects.zip owns, pair.1.hash = instance_.hash →
      R (pair.1.update (instance_.supplied (rules.isStatic instance_.hash)))
        (pair.2.update (instance_.supplied (rules.isStatic instance_.hash)))) :
    List.Forall₂ R (mergeInto rules instance_ objects) (mergeInto rules instance_ owns) := by
  rw [Entity.mergeInto, Entity.mergeInto, hR.any_hash_eq h]
  split
  · exact hR.updateInstances h hkeeps
  · exact hR.insertOrAssign h instance_

end

/-- Covered objects are pairs. -/
theorem pairs_ownCovered : Pairs (OwnCovered rules provided) where
  refl := .refl
  hash := fun h => h.hash

/-- The step lemma: what happens to both states. -/
theorem Tracks.apply {own : Supplemented} {event : Event} (h : Tracks rules s own)
    (hread : event.isRead = false) (hkeeps : Keeps rules s own event) :
    Tracks rules (s.apply rules event) (own.apply rules event) := by
  cases event with
  | getInstances conditions => cases hread
  | change change => exact ⟨h.provided, pairs_ownCovered.change h.objects change⟩
  | propertiesChanged hash values =>
      exact ⟨h.provided, pairs_ownCovered.updateInstances h.objects hkeeps⟩
  | mergeInstance instance_ => exact ⟨h.provided, pairs_ownCovered.mergeInto h.objects hkeeps⟩
  | provide provided =>
      refine ⟨rfl, ?_⟩
      exact List.forall₂_iff_zip.mpr ⟨h.objects.length_eq, fun hmem => hkeeps _ hmem⟩

/-- The step lemma for a read. -/
theorem Tracks.read {own : Supplemented} {event : Event} (h : Tracks rules s own)
    (hread : event.isRead = true) (hkeeps : Keeps rules s own event) :
    Tracks rules (s.apply rules event) own := by
  cases event with
  | getInstances conditions =>
      exact ⟨h.provided, forall₂_readInstances h.objects fun object hmem _ hobject =>
        hobject.refreshed (hkeeps object hmem)⟩
  | _ => cases hread

/-- The events of a history all keep the objects covered. -/
def AllKeep (rules : SupplementRules) (history : List Event) : Prop :=
  ∀ before event rest, history = before ++ event :: rest →
    Keeps rules (Supplemented.after rules before)
      (Supplemented.after rules (withoutReads before)) event

/-- A part of such a history is one. -/
theorem AllKeep.before {history before rest : List Event} (h : AllKeep rules history)
    (hsplit : history = before ++ rest) : AllKeep rules before := by
  intro earlier event later heq
  apply h earlier event (later ++ rest)
  rw [hsplit, heq, List.append_assoc, List.cons_append]

/-- The last event of such a history. -/
theorem allKeep_append_iff {history : List Event} {event : Event} :
    AllKeep rules (history ++ [event]) ↔ AllKeep rules history ∧
      Keeps rules (Supplemented.after rules history)
        (Supplemented.after rules (withoutReads history)) event := by
  constructor
  · intro h
    exact ⟨h.before rfl, h history event [] rfl⟩
  · rintro ⟨hearlier, hevent⟩ before event' rest heq
    cases List.eq_nil_or_concat rest with
    | inl hnil =>
        subst hnil
        obtain ⟨rfl, hlast⟩ := List.append_inj' heq rfl
        cases hlast
        exact hevent
    | inr hconcat =>
        obtain ⟨others, last, rfl⟩ := hconcat
        rw [List.concat_eq_append, ← List.cons_append, ← List.append_assoc] at heq
        exact hearlier before event' others (List.append_inj' heq rfl).1

/-- The run lemma. -/
theorem tracks_after {history : List Event} (hkeeps : AllKeep rules history) :
    Tracks rules (Supplemented.after rules history)
      (Supplemented.after rules (withoutReads history)) := by
  induction history using List.reverseRecOn with
  | nil => exact ⟨rfl, .nil⟩
  | append_singleton history event ih =>
      obtain ⟨hearlier, hevent⟩ := allKeep_append_iff.mp hkeeps
      have htracks := ih hearlier
      rw [Supplemented.after_append]
      cases hread : event.isRead with
      | true =>
          rw [withoutReads_append_read hread]
          exact htracks.read hread hevent
      | false =>
          rw [withoutReads_append hread, Supplemented.after_append]
          exact htracks.apply hread hevent

/-- In a history whose events all keep the objects covered, every read returns what it would
without the reads before it. -/
theorem earlier_reads_do_not_matter {history : List Event} (hkeeps : AllKeep rules history)
    (before rest : List Event) (hsplit : history = before ++ rest) (conditions : List Condition) :
    ((Supplemented.after rules before).getInstances rules conditions).2 =
      ((Supplemented.after rules (withoutReads before)).getInstances rules conditions).2 :=
  (tracks_after (hkeeps.before hsplit)).getInstances_eq

/-! ## Rules that write into every object alike -/

/-- Setters and rules that write the same into every object and do not raise, such as
those that only link by default. -/
def Unconditional (rules : SupplementRules) : Prop :=
  ∀ provided hash, ∀ writer ∈ rules.writers provided hash, Constant writer

/-- A writer that writes nothing. -/
def writesNothing : FieldWriter := fun _ _ => ⟨fun _ => none, none⟩

/-- An entity with some providers that link by default. -/
def defaultRules (isStatic : UInt64 → Bool) (count : Nat) : SupplementRules where
  isStatic := isStatic
  initDefaultFieldsValue := writesNothing
  verifyState := writesNothing
  providers := List.replicate count (defaultLinkProvider isStatic)

/-- The default rules write into every object alike. -/
theorem unconditional_defaultRules (isStatic : UInt64 → Bool) (count : Nat) :
    Unconditional (defaultRules isStatic count) := by
  intro provided hash writer hmem
  simp only [SupplementRules.writers, List.mem_cons, List.mem_flatMap, List.mem_map] at hmem
  rcases hmem with rfl | rfl | ⟨provider, hprovider, supplement, -, rfl⟩
  · exact ⟨_, rfl⟩
  · exact ⟨_, rfl⟩
  · obtain ⟨hlink, -⟩ := List.of_mem_zip hprovider
    rw [List.eq_of_mem_replicate hlink]
    exact ⟨supplement.supplied (isStatic hash), rfl⟩

theorem refreshed_raised (hrules : Unconditional rules) (object : Instance) :
    (object.refreshed (rules.writers provided)).2 = none := by
  obtain ⟨written, htogether⟩ := together_constant (hrules provided object.hash)
  unfold Instance.refreshed
  rw [runWriters_eq, htogether]

/-- Without conditions a read returns all objects as it leaves them. -/
theorem readInstances_nil (hrules : Unconditional rules) :
    (readInstances (rules.writers provided) [] objects).2 =
      .ok (objects.map fun object => (object.refreshed (rules.writers provided)).1) := by
  induction objects with
  | nil => rfl
  | cons object rest ih =>
      have hraised : (object.refreshed (rules.writers provided)).2 = none :=
        refreshed_raised hrules object
      rw [readInstances, List.map_cons]
      rcases houtcome : object.refreshed (rules.writers provided) with ⟨instance_, raised⟩
      rw [houtcome] at hraised
      cases hraised
      simp [checkConditions, ih, Except.map]

/-- All events but those of the providers keep the objects covered. -/
theorem keeps_of_unconditional (hrules : Unconditional rules) {own : Supplemented} {event : Event}
    (h : Tracks rules s own) (hprovide : ∀ provided, event ≠ .provide provided) :
    Keeps rules s own event := by
  have hupdate : ∀ (written : Store Bytes FieldType), ∀ pair ∈ s.instances.zip own.instances,
      OwnCovered rules s.provided (pair.1.update written) (pair.2.update written) := by
    intro written pair hmem
    have hpair := (List.forall₂_iff_zip.mp h.objects).2 hmem
    exact ⟨hpair.hash, hpair.covered.write (hrules _ _) written⟩
  cases event with
  | change change => exact trivial
  | mergeInstance instance_ => exact fun pair hmem _ => hupdate _ pair hmem
  | propertiesChanged hash values => exact fun pair hmem _ => hupdate _ pair hmem
  | provide provided => exact absurd rfl (hprovide provided)
  | getInstances conditions =>
      intro object _
      obtain ⟨written, htogether⟩ := together_constant (hrules s.provided object.hash)
      unfold Stable
      rw [htogether]

/-- If a read returns the same of both states after a change of the providers, the objects
are still covered. -/
theorem keeps_provide_of_getInstances_eq (hrules : Unconditional rules) {own : Supplemented}
    (h : Tracks rules s own)
    (hsame : ((s.apply rules (.provide provided)).getInstances rules []).2 =
      ((own.apply rules (.provide provided)).getInstances rules []).2) :
    Keeps rules s own (.provide provided) := by
  have hobjects := h.objects
  simp only [Supplemented.getInstances, Supplemented.apply, readInstances_nil hrules,
    Except.ok.injEq] at hsame
  rw [Keeps]
  generalize s.instances = objects at hobjects hsame
  generalize own.instances = owns at hobjects hsame
  induction hobjects with
  | nil =>
      intro pair hmem
      exact absurd hmem List.not_mem_nil
  | @cons object other rest owns hobject _ ih =>
      rw [List.map_cons, List.map_cons, List.cons.injEq] at hsame
      rw [List.zip_cons_cons]
      refine List.forall_mem_cons.mpr ⟨⟨hobject.hash, ?_⟩, ih hsame.2⟩
      apply Covered.of_constant (hrules provided object.hash)
      have hfields := congrArg Instance.memberInstances hsame.1
      have hraised : (object.refreshed (rules.writers provided)).2 =
          (other.refreshed (rules.writers provided)).2 :=
        (refreshed_raised hrules object).trans (refreshed_raised hrules other).symm
      unfold Instance.refreshed at hfields hraised
      rw [← hobject.hash] at hfields hraised
      exact Prod.ext hfields hraised

/-- For such rules the condition is exact. -/
theorem reads_do_not_matter_iff (hrules : Unconditional rules) {history : List Event} :
    (∀ before rest, history = before ++ rest → ∀ conditions,
      ((Supplemented.after rules before).getInstances rules conditions).2 =
        ((Supplemented.after rules (withoutReads before)).getInstances rules conditions).2) ↔
      AllKeep rules history := by
  constructor
  · intro hall
    induction history using List.reverseRecOn with
    | nil =>
        intro before event rest heq
        simp at heq
    | append_singleton history event ih =>
        have hearlier : AllKeep rules history := by
          apply ih
          intro before rest heq
          apply hall before (rest ++ [event])
          rw [heq, List.append_assoc]
        have htracks := tracks_after hearlier
        refine allKeep_append_iff.mpr ⟨hearlier, ?_⟩
        by_cases hprovide : ∃ provided, event = .provide provided
        · obtain ⟨provided, rfl⟩ := hprovide
          apply keeps_provide_of_getInstances_eq hrules htracks
          have hsame := hall (history ++ [.provide provided]) [] (List.append_nil _).symm []
          rw [withoutReads_append rfl, Supplemented.after_append,
            Supplemented.after_append] at hsame
          exact hsame
        · exact keeps_of_unconditional hrules htracks fun provided hevent =>
            hprovide ⟨provided, hevent⟩
  · intro hkeeps before rest hsplit conditions
    exact (tracks_after (hkeeps.before hsplit)).getInstances_eq

/-! ## Rules that reset what they write -/

/-- The fields that some setters and rules reset, with these instances of the providers: no other
field is written, and none of them decides on what an earlier read has left in one. -/
structure Resetting (rules : SupplementRules) (resets : Bytes → Prop)
    (provided : List (List Instance)) : Prop where
  reads : ∀ hash, ReadsFixed (fun memberName => ¬ resets memberName) (rules.writers provided hash)
  reset : ∀ hash memberName, resets memberName →
    ∃ writer ∈ rules.writers provided hash, Resets writer memberName
  others : ∀ hash, ∀ writer ∈ rules.writers provided hash, ∀ store memberName,
    ¬ resets memberName → (writer store).written memberName = none
  returns : ∀ hash store, (together (rules.writers provided hash) store).raised = none

/-- An object that differs from its own fields in those alone that are reset. -/
structure OwnElsewhere (resets : Bytes → Prop) (object own : Instance) : Prop where
  hash : object.hash = own.hash
  same : ∀ memberName, ¬ resets memberName →
    object.memberInstances memberName = own.memberInstances memberName

/-- Such objects are pairs. -/
theorem pairs_ownElsewhere {resets : Bytes → Prop} : Pairs (OwnElsewhere resets) where
  refl := fun _ => ⟨rfl, fun _ _ => rfl⟩
  hash := fun h => h.hash

section

variable {resets : Bytes → Prop}

/-- The same is written into both. -/
theorem OwnElsewhere.update (h : OwnElsewhere resets object own) (written : Store Bytes FieldType) :
    OwnElsewhere resets (object.update written) (own.update written) where
  hash := h.hash
  same := fun memberName hreset => by
    simp only [Instance.update, Store.write_apply, h.same memberName hreset]

/-- A read writes into an object what is reset. -/
theorem OwnElsewhere.refreshed (hrules : Resetting rules resets provided)
    (h : OwnElsewhere resets object own) :
    OwnElsewhere resets (object.refreshed (rules.writers provided)).1 own where
  hash := h.hash
  same := fun memberName hreset =>
    (runWriters_other fun writer hwriter store =>
      hrules.others object.hash writer hwriter store memberName hreset).trans
        (h.same memberName hreset)

/-- What is reset is written in any case. -/
theorem OwnElsewhere.ownCovered (hrules : Resetting rules resets provided)
    (h : OwnElsewhere resets object own) : OwnCovered rules provided object own where
  hash := h.hash
  covered := Covered.of_resets (hrules.reads object.hash) (hrules.returns object.hash _) h.same
    fun memberName hne => hrules.reset object.hash memberName (by
      by_contra hreset
      exact hne (h.same memberName hreset))

/-- A second read in a row writes the same. -/
theorem Resetting.stable (hrules : Resetting rules resets provided) (object : Instance) :
    Stable rules provided object :=
  (hrules.reads object.hash).together_eq
    (OwnElsewhere.refreshed hrules (pairs_ownElsewhere.refl object)).same

/-- What an event gives to the providers is reset. -/
def Provides (rules : SupplementRules) (resets : Bytes → Prop) : Event → Prop
  | .provide provided => Resetting rules resets provided
  | _ => True

/-- Whatever is added, merged, changed or removed, and whatever instances the providers get. -/
theorem keeps_of_resetting {own : Supplemented} {event : Event}
    (hrules : Resetting rules resets s.provided) (hprovides : Provides rules resets event)
    (h : List.Forall₂ (OwnElsewhere resets) s.instances own.instances) :
    Keeps rules s own event := by
  have hpairs : ∀ pair ∈ s.instances.zip own.instances, OwnElsewhere resets pair.1 pair.2 :=
    fun pair hmem => (List.forall₂_iff_zip.mp h).2 hmem
  cases event with
  | change change => exact trivial
  | mergeInstance instance_ =>
      exact fun pair hmem _ => ((hpairs pair hmem).update _).ownCovered hrules
  | propertiesChanged hash values =>
      exact fun pair hmem _ => ((hpairs pair hmem).update values).ownCovered hrules
  | provide provided => exact fun pair hmem => (hpairs pair hmem).ownCovered hprovides
  | getInstances conditions => exact fun object _ => hrules.stable object

/-- The objects differ from their own fields in what is reset, and the providers reset it. -/
structure Restores (rules : SupplementRules) (resets : Bytes → Prop) (s own : Supplemented) :
    Prop where
  rules : Resetting rules resets s.provided
  objects : List.Forall₂ (OwnElsewhere resets) s.instances own.instances

/-- The step lemma for other events. -/
theorem Restores.apply {own : Supplemented} {event : Event} (h : Restores rules resets s own)
    (hread : event.isRead = false) (hprovides : Provides rules resets event) :
    Restores rules resets (s.apply rules event) (own.apply rules event) := by
  have hupdate : ∀ (written : Store Bytes FieldType), ∀ pair ∈ s.instances.zip own.instances,
      OwnElsewhere resets (pair.1.update written) (pair.2.update written) :=
    fun written pair hmem => ((List.forall₂_iff_zip.mp h.objects).2 hmem).update written
  cases event with
  | getInstances conditions => cases hread
  | change change => exact ⟨h.rules, pairs_ownElsewhere.change h.objects change⟩
  | propertiesChanged hash values =>
      exact ⟨h.rules, pairs_ownElsewhere.updateInstances h.objects fun pair hmem _ =>
        hupdate values pair hmem⟩
  | mergeInstance instance_ =>
      exact ⟨h.rules, pairs_ownElsewhere.mergeInto h.objects fun pair hmem _ =>
        hupdate _ pair hmem⟩
  | provide provided => exact ⟨hprovides, h.objects⟩

/-- The step lemma for a read. -/
theorem Restores.read {own : Supplemented} {event : Event} (h : Restores rules resets s own)
    (hread : event.isRead = true) : Restores rules resets (s.apply rules event) own := by
  cases event with
  | getInstances conditions =>
      exact ⟨h.rules, forall₂_readInstances h.objects fun _ _ _ hobject =>
        hobject.refreshed h.rules⟩
  | _ => cases hread

theorem restores_after {first : List (List Instance)} {rest : List Event}
    (hprovides : ∀ event ∈ .provide first :: rest, Provides rules resets event) :
    Restores rules resets (Supplemented.after rules (.provide first :: rest))
      (Supplemented.after rules (withoutReads (.provide first :: rest))) := by
  induction rest using List.reverseRecOn with
  | nil => exact ⟨hprovides _ (List.mem_singleton_self _), .nil⟩
  | append_singleton rest event ih =>
      rw [← List.cons_append] at hprovides ⊢
      have hearlier := ih fun other hmem => hprovides other (List.mem_append_left _ hmem)
      rw [Supplemented.after_append]
      cases hread : event.isRead with
      | true =>
          rw [withoutReads_append_read hread]
          exact hearlier.read hread
      | false =>
          rw [withoutReads_append hread, Supplemented.after_append]
          exact hearlier.apply hread (hprovides event (by simp))

/-- Every history keeps the objects covered in which all instances that the providers get, from
the start on, let the rules reset. -/
theorem allKeep_of_resetting {first : List (List Instance)} {rest : List Event}
    (hprovides : ∀ event ∈ .provide first :: rest, Provides rules resets event) :
    AllKeep rules (.provide first :: rest) := by
  intro before event later hsplit
  cases before with
  | nil =>
      obtain ⟨rfl, -⟩ := List.cons.inj hsplit
      exact fun _ hmem => absurd hmem List.not_mem_nil
  | cons start before =>
      obtain ⟨rfl, rfl⟩ := List.cons.inj hsplit
      have hrestores := @restores_after rules resets first before fun other hmem =>
        hprovides other (List.mem_append_left (event :: later) hmem)
      exact keeps_of_resetting hrestores.rules (hprovides event (by simp)) hrestores.objects

end

end

/-! ## A chassis and its state -/

/-- A chassis without fields. -/
def chassis : Instance where
  hash := 1
  memberInstances _ := none

/-- The chassis is an object of the bus with one provider. -/
def chassisRules : SupplementRules :=
  defaultRules (fun _ => false) 1

/-- The instance of the provider. -/
def stateOf (powerState : Bytes) : Instance where
  hash := 2
  memberInstances memberName :=
    if memberName = bytes "PowerState" then some (.string powerState) else none

/-- The rule of the chassis writes into every object alike. -/
theorem unconditional_chassisRules : Unconditional chassisRules :=
  unconditional_defaultRules _ 1

/-- The chassis is read while the provider has its state. -/
def readHistory : List Event :=
  [.change (.setInstances [chassis]), .provide [[stateOf (bytes "On")]], .getInstances []]

/-- What the first read has left is written again. -/
theorem covered_stateOf (powerState : Bytes) :
    OwnCovered chassisRules [[stateOf powerState]]
      (chassis.update ((stateOf (bytes "On")).supplied false)) chassis where
  hash := rfl
  covered := by
    apply Covered.of_constant (unconditional_chassisRules _ _)
    have hwriters : ∀ hash, chassisRules.writers [[stateOf powerState]] hash =
        [writesNothing hash, writesNothing hash,
          defaultLinkProvider (fun _ => false) (stateOf powerState) hash] := fun _ => rfl
    rw [hwriters]
    refine Prod.ext ?_ rfl
    funext memberName
    by_cases hname : memberName = bytes "PowerState"
    · subst hname
      rfl
    · simp [runWriters, writesNothing, defaultLinkProvider, Instance.supplied, stateOf, chassis,
        Instance.update, Store.write, hname]

theorem allKeep_readHistory :
    AllKeep chassisRules (readHistory ++ [.provide [[stateOf (bytes "Off")]]]) := by
  have hempty : AllKeep chassisRules [] := by
    intro before event rest heq
    simp at heq
  have hset : AllKeep chassisRules ([] ++ [.change (.setInstances [chassis])]) :=
    allKeep_append_iff.mpr ⟨hempty, trivial⟩
  have hprovided : AllKeep chassisRules
      ([.change (.setInstances [chassis])] ++ [.provide [[stateOf (bytes "On")]]]) := by
    refine allKeep_append_iff.mpr ⟨hset, ?_⟩
    intro pair hmem
    rw [List.mem_singleton.mp hmem]
    exact OwnCovered.refl chassis
  have hread : AllKeep chassisRules ([.change (.setInstances [chassis]),
      .provide [[stateOf (bytes "On")]]] ++ [.getInstances []]) :=
    allKeep_append_iff.mpr ⟨hprovided, keeps_of_unconditional unconditional_chassisRules
      (tracks_after hprovided) fun _ heq => nomatch heq⟩
  refine (@allKeep_append_iff _ readHistory _).mpr ⟨hread, ?_⟩
  intro pair hmem
  rw [List.mem_singleton.mp hmem]
  exact covered_stateOf (bytes "Off")

/-- After another state is provided, a read returns what it would without the first. -/
theorem changed_state_reported :
    ((Supplemented.after chassisRules (readHistory ++ [.provide [[stateOf (bytes "Off")]]])
        ).getInstances chassisRules []).2 =
      ((Supplemented.after chassisRules (withoutReads (readHistory ++
        [.provide [[stateOf (bytes "Off")]]]))).getInstances chassisRules []).2 :=
  earlier_reads_do_not_matter allKeep_readHistory _ [] (List.append_nil _).symm []

/-- The state that the first read has put into the chassis is still reported when the
provider has none. -/
theorem removed_state_reported :
    ((Supplemented.after chassisRules (readHistory ++ [.provide [[]]])).getInstances
        chassisRules []).2 ≠
      ((Supplemented.after chassisRules (withoutReads (readHistory ++ [.provide [[]]]))
        ).getInstances chassisRules []).2 := by
  intro hsame
  have hstates := congrArg (fun result => result.map fun instances => instances.map fun instance_ =>
    instance_.getField (bytes "PowerState")) hsame
  have hreported : ((Supplemented.after chassisRules (readHistory ++ [.provide [[]]])
      ).getInstances chassisRules []).2.map (fun instances => instances.map fun instance_ =>
        instance_.getField (bytes "PowerState")) = .ok [some (.string (bytes "On"))] := by
    decide
  have hnone : ((Supplemented.after chassisRules (withoutReads
      (readHistory ++ [.provide [[]]]))).getInstances chassisRules []).2.map
        (fun instances => instances.map fun instance_ =>
          instance_.getField (bytes "PowerState")) = .ok [none] := by
    decide
  cases hreported.symm.trans (hstates.trans hnone)

end Entity
end ObmcWebapp
