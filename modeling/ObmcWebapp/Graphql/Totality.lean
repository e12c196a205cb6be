import ObmcWebapp.Graphql.Interleaving

/-!
# GraphQL - Queries of any form

A query need not be well typed: it may name entities and members that do not exist,
or use an alias for a leaf.  Where it cannot be visited to its end an exception of
the visitor leaves the traversal, and the destructor of the visitor still finds all
items that it reads, so the response holds an error.  The same holds where a population
raises an exception that the handlers know; any other leaves the traversal as it is.

Main results:

- Theorem {lit}`refused_of_not_visited`: a query that cannot be visited is refused.
- Theorem {lit}`escapes_of_not_contained`: an exception that no handler knows.
- Theorem {lit}`run_total`: a run ends with data or an error, and when with which.
-/

open Library

namespace ObmcWebapp
namespace Graphql

open Entity

variable {ε : Type} {manager : EntityManager ε} {course : Nat → Moment ε}

/-- A traversal that ends with an exception of the visitor, whose destructor raises
nothing. -/
def Refused (manager : EntityManager ε) (course : Nat → Moment ε)
    (result : Except (Exception × Visitor ε) (Visitor ε)) : Prop :=
  ∃ stopped, result = .error (.gqlException, stopped) ∧
    ∃ document, stopped.document manager (course stopped.clock).cache = .ok document

/-- The items of the current builder are those of all instances that may still be
read. -/
structure Holding (manager : EntityManager ε) (course : Nat → Moment ε) (visitor : Visitor ε)
    (entity : Option ε) : Prop where
  declared : visitor.current.target.Declared manager
  visiting : ∃ members, Visiting visitor entity (Present (course visitor.clock).cache entity) members

namespace Holding

variable {visitor : Visitor ε} {entity : Option ε}

/-- At the start nothing is held. -/
theorem initial : Holding manager course .initial none where
  declared := trivial
  visiting := by
    refine ⟨fun _ => [], rfl, ?_, ?_⟩
    · intro hash hpresent
      obtain ⟨target, instance_, htarget, -⟩ := hpresent
      cases htarget
    · intro entry hmem
      rw [List.mem_singleton.mp hmem]
      trivial

/-- The destructor finds all items that it reads. -/
theorem document (hcomparable : ∀ moment, Comparable manager.toSchema (course moment).cache)
    (h : Holding manager course visitor entity) {later : Nat} (hlater : visitor.clock ≤ later)
    (hnone : NoneAppears course entity visitor.clock later) :
    ∃ document, visitor.document manager (course later).cache = .ok document := by
  obtain ⟨members, hentity, hcarries⟩ := h.visiting
  cases entity with
  | none => exact document_root hentity
  | some destination =>
      unfold Visitor.document
      refine ⟨_, getFragment_ok (hcomparable later) visitor.current h.declared hentity
        (fun instance_ => .ofMembers (members (some instance_.hash))) ?_⟩
      intro instance_ hmem
      apply hcarries.item
      have hcached := mem_instances_of_selected (hcomparable later) h.declared hentity hmem
      exact hnone _ _ (Nat.le_refl _) hlater (Nat.le_refl _) _
        ⟨destination, instance_, rfl, hcached, rfl⟩

/-- A callback that raises an exception of the visitor ends the traversal. -/
theorem refused (hcomparable : ∀ moment, Comparable manager.toSchema (course moment).cache)
    (h : Holding manager course visitor entity)
    (hnone : NoneAppears course entity visitor.clock (visitor.clock + 1))
    {action : Moment ε → Visitor ε → Except Exception (Visitor ε)}
    (haction : action (course visitor.clock) visitor = .error .gqlException) :
    Refused manager course (callback course action visitor) :=
  ⟨_, callback_of_error haction, h.document hcomparable (Nat.le_succ _) hnone⟩

/-- After a field that can be visited the items are still there. -/
theorem next (hcomparable : ∀ moment, Comparable manager.toSchema (course moment).cache)
    (h : Holding manager course visitor entity) {field : AstField}
    (hnone : NoneAppears course entity visitor.clock (visitor.clock + span field))
    (hquiet : QuietField manager course entity visitor.clock field)
    (hraised : raised manager (course visitor.clock) entity field = none)
    (hreadable : ReadableField manager entity field) :
    ∃ fragment, acceptField manager course field visitor =
        .ok (visitor.extended fragment (span field)) ∧
      Holding manager course (visitor.extended fragment (span field)) entity := by
  obtain ⟨members, hvisiting⟩ := h.visiting
  obtain ⟨fragment, haccept, hcarries, -⟩ := acceptField_responds hcomparable field hvisiting
    hreadable (hquiet.steady field) hraised
  refine ⟨fragment, haccept, h.declared, _, hvisiting.entity, hcarries.mono ?_⟩
  intro hash hpresent
  have hlater : visitor.clock ≤ visitor.clock + span field := by omega
  have hbefore := hnone _ _ (Nat.le_refl _) hlater (Nat.le_refl _) _ hpresent
  refine ⟨hbefore, ?_⟩
  cases field with
  | leaf name fieldAlias => exact hbefore
  | node name fieldAlias selectionSet => trivial

end Holding

/-- A field that the entity does not have is refused. -/
theorem supplement_refused {cache : Cache ε} {builder : GqlObjectBuild ε} {entity : Option ε}
    (hentity : builder.getEntity = entity) {fieldName : Bytes}
    (h : ¬ ∃ target, entity = some target ∧ fieldName ∈ manager.members target) :
    builder.supplement manager cache fieldName = .error .gqlException := by
  unfold GqlObjectBuild.supplement
  rw [hentity]
  cases entity with
  | none => rfl
  | some target =>
      have hmember : fieldName ∉ manager.members target := fun hmember => h ⟨target, rfl, hmember⟩
      simp only [if_neg hmember]
      rfl

section

variable (hcomparable : ∀ moment, Comparable manager.toSchema (course moment).cache)

include hcomparable

theorem acceptLeaf_refused {visitor : Visitor ε} {entity : Option ε}
    (h : Holding manager course visitor entity)
    (hnone : NoneAppears course entity visitor.clock (visitor.clock + 1)) {fieldName : Name}
    {fieldAlias : Option Name} (hnot : ¬ ReadableField manager entity (.leaf fieldName fieldAlias)) :
    Refused manager course (acceptField manager course (.leaf fieldName fieldAlias) visitor) := by
  obtain ⟨members, hentity, -⟩ := h.visiting
  have hvisit : visitor.visitField manager (.leaf fieldName fieldAlias) (course visitor.clock) =
      .error .gqlException := by
    unfold Visitor.visitField
    dsimp only
    rw [supplement_refused hentity hnot]
    rfl
  obtain ⟨stopped, hstopped, hdocument⟩ := h.refused hcomparable hnone hvisit
  refine ⟨stopped, ?_, hdocument⟩
  unfold acceptField
  dsimp only
  rw [hstopped]
  rfl

/-- A name that leads nowhere. -/
theorem visitField_refused {visitor : Visitor ε} {entity : Option ε}
    (h : Holding manager course visitor entity)
    (hnone : NoneAppears course entity visitor.clock (visitor.clock + 1)) {fieldName : Name}
    (fieldAlias : Option Name) (selectionSet : List AstField)
    (hresolve : Visitor.resolve manager entity fieldName.value = none) :
    Refused manager course
      (acceptField manager course (.node fieldName fieldAlias selectionSet) visitor) := by
  obtain ⟨members, hentity, -⟩ := h.visiting
  have hvisit : visitor.visitField manager (.node fieldName fieldAlias selectionSet)
      (course visitor.clock) = .error .gqlException := by
    obtain ⟨exception, hfound, hhandled⟩ :=
      @findTarget_of_none ε manager (course visitor.clock) entity fieldName hresolve
    unfold Visitor.visitField
    simp only [hentity, hfound, catching, bind, Except.bind, Except.mapError, hhandled]
  obtain ⟨stopped, hstopped, hdocument⟩ := h.refused hcomparable hnone hvisit
  refine ⟨stopped, ?_, hdocument⟩
  unfold acceptField
  dsimp only
  rw [hstopped]
  rfl

mutual

/-- A field that cannot be visited is refused, if its population returns. -/
theorem acceptField_refused : (field : AstField) → {visitor : Visitor ε} → {entity : Option ε} →
    Holding manager course visitor entity →
    NoneAppears course entity visitor.clock (visitor.clock + span field) →
    QuietField manager course entity visitor.clock field →
    raised manager (course visitor.clock) entity field = none →
    ¬ ReadableField manager entity field →
    Refused manager course (acceptField manager course field visitor)
  | .leaf fieldName fieldAlias, visitor, _, h, hnone, _, _, hnot => by
      have hshort : visitor.clock + 1 ≤ visitor.clock + span (.leaf fieldName fieldAlias) := by
        simp only [span]
        omega
      exact acceptLeaf_refused hcomparable h (hnone.mono (Nat.le_refl _) hshort) hnot
  | .node fieldName fieldAlias selectionSet, visitor, entity, h, hnone, hquiet, hraised, hnot => by
      have hshort : visitor.clock + 1 ≤
          visitor.clock + span (.node fieldName fieldAlias selectionSet) := by
        simp only [span]
        omega
      cases hresolve : Visitor.resolve manager entity fieldName.value with
      | none =>
          exact visitField_refused hcomparable h (hnone.mono (Nat.le_refl _) hshort) fieldAlias
            selectionSet hresolve
      | some target =>
          obtain ⟨members, hentity, -⟩ := h.visiting
          obtain ⟨hdeclared, destination, hdestination⟩ := declared_of_resolve hresolve
          have hbelow : ¬ ReadableAll manager target.getEntity selectionSet :=
            fun hreadable => hnot ⟨target, hresolve, hreadable⟩
          obtain ⟨hopen, hselectionQuiet⟩ := hquiet target hresolve
          obtain ⟨empty, hvisit, hempty⟩ :=
            visitField_entered hentity fieldAlias selectionSet hresolve hraised
          have hentered : Holding manager course
              (visitor.entered fieldName fieldAlias target empty) target.getEntity := by
            refine ⟨hdeclared, fun _ => [], rfl, hempty.mono ?_⟩
            intro hash hpresent
            have hlater : visitor.clock + 1 ≤ visitor.clock + 1 + spanAll selectionSet := by omega
            exact hopen _ _ (Nat.le_refl _) (Nat.le_succ _) hlater _ hpresent
          rw [hdestination] at hentered hopen hselectionQuiet hbelow
          obtain ⟨stopped, hstopped, hdocument⟩ := acceptAll_refused selectionSet hentered
            (hopen.mono (Nat.le_succ _) (Nat.le_refl _)) hselectionQuiet hbelow
          refine ⟨stopped, ?_, hdocument⟩
          unfold acceptField
          dsimp only
          rw [hvisit]
          simp only [bind, Except.bind]
          rw [hstopped]

/-- A selection set that cannot be visited to its end is refused. -/
theorem acceptAll_refused : (fields : List AstField) → {visitor : Visitor ε} → {source : ε} →
    Holding manager course visitor (some source) →
    NoneAppears course (some source) visitor.clock (visitor.clock + spanAll fields) →
    QuietAll manager course (some source) visitor.clock fields →
    ¬ ReadableAll manager (some source) fields →
    Refused manager course (acceptAll manager course fields visitor)
  | [], _, _, _, _, _, hnot => absurd trivial hnot
  | field :: rest, visitor, source, h, hnone, hquiet, hnot => by
      obtain ⟨hfieldQuiet, hrestQuiet⟩ := hquiet
      have hraised := @raised_below ε manager (course visitor.clock) source field
      simp only [spanAll, ← Nat.add_assoc] at hnone
      have hfieldNone := hnone.mono (Nat.le_refl _) (Nat.le_add_right _ (spanAll rest))
      unfold acceptAll
      by_cases hfield : ReadableField manager (some source) field
      · have hrest : ¬ ReadableAll manager (some source) rest := fun hrest => hnot ⟨hfield, hrest⟩
        obtain ⟨fragment, haccept, hnext⟩ :=
          h.next hcomparable hfieldNone hfieldQuiet hraised hfield
        rw [haccept]
        exact acceptAll_refused rest hnext (hnone.mono (Nat.le_add_right _ _) (Nat.le_refl _))
          hrestQuiet hrest
      · obtain ⟨stopped, hstopped, hdocument⟩ :=
          acceptField_refused field h hfieldNone hfieldQuiet hraised hfield
        refine ⟨stopped, ?_, hdocument⟩
        rw [hstopped]
        rfl

end

/-! ## Queries -/

/-- A field of the root that cannot be visited refuses the query. -/
theorem entered_refused {fields : List AstField} {moment start : Nat} {field : AstField}
    (hentered : Entered manager course moment fields start field)
    (hraised : raised manager (course start) none field = none)
    (hnot : ¬ ReadableField manager none field) (hquiet : Quiet manager course moment fields)
    {visitor : Visitor ε} (hclock : visitor.clock = moment)
    (hholding : Holding manager course visitor none) :
    Refused manager course (acceptAll manager course fields visitor) := by
  induction hentered generalizing visitor with
  | @first moment field rest =>
      subst hclock
      obtain ⟨stopped, hstopped, hdocument⟩ := acceptField_refused hcomparable field hholding
        (noneAppears_root _ _) (hquiet _ _ .first hraised) hraised hnot
      refine ⟨stopped, ?_, hdocument⟩
      rw [acceptAll, hstopped]
      rfl
  | @next moment start before field rest hreturns hreadable hrest ih =>
      subst hclock
      obtain ⟨fragment, haccept, hnext⟩ := hholding.next hcomparable (noneAppears_root _ _)
        (hquiet _ _ .first hreturns) hreturns hreadable
      obtain ⟨stopped, hstopped, hdocument⟩ :=
        ih hraised hnot (hquiet.rest hreturns hreadable) rfl hnext
      refine ⟨stopped, ?_, hdocument⟩
      rw [acceptAll, haccept]
      exact hstopped

variable {fields : List AstField} (hquiet : Quiet manager course 0 fields)

include hquiet

/-- A query that is not visited to its end is refused, if the handlers know what the
populations raise. -/
theorem refused_of_not_visited (hcontained : Contained manager course 0 fields)
    (hnot : ¬ (ReadableAll manager none fields ∧ PopulatedAll manager course none 0 fields)) :
    Refused manager course (acceptAll manager course fields .initial) := by
  rcases entered_cases fields 0 with
    hvisited | ⟨start, field, hentered, ⟨exception, hraised⟩ | ⟨hraised, hunreadable⟩⟩
  · exact absurd hvisited hnot
  · obtain ⟨stopped, hstopped, hroot⟩ := acceptAll_raised hcomparable hentered hraised
      hquiet.steady rfl ⟨_, _, Visiting.initial⟩
    rw [hcontained start field hentered exception hraised] at hstopped
    exact ⟨stopped, hstopped, document_root hroot⟩
  · exact entered_refused hcomparable hentered hraised hunreadable hquiet rfl Holding.initial

/-- What a population raises and no handler knows leaves the traversal. -/
theorem escapes_of_not_contained (hnot : ¬ Contained manager course 0 fields) :
    ∃ exception stopped, acceptAll manager course fields .initial = .error (exception, stopped) ∧
      exception ≠ .gqlException ∧ stopped.current.getEntity = none := by
  simp only [Contained, not_forall, exists_prop] at hnot
  obtain ⟨start, field, hentered, exception, hraised, hunknown⟩ := hnot
  obtain ⟨stopped, hstopped, hroot⟩ := acceptAll_raised hcomparable hentered hraised hquiet.steady
    rfl ⟨_, _, Visiting.initial⟩
  exact ⟨_, stopped, hstopped, hunknown, hroot⟩

/-- A run ends with the response where the query can be visited, and with an error where
it cannot. -/
theorem run_total (hcontained : Contained manager course 0 fields)
    (htexts : ∀ moment, TextsValid (course moment).cache) :
    (ReadableAll manager none fields ∧ PopulatedAll manager course none 0 fields →
      run manager course fields = .data (.object [(GqlObjectBuild.visitorName, .ofMembers
        (pushMembers [] (respondAll manager course none none 0 fields)))])) ∧
    (¬ (ReadableAll manager none fields ∧ PopulatedAll manager course none 0 fields) →
      run manager course fields = .error) := by
  constructor
  · rintro ⟨hreadable, hpopulated⟩
    obtain ⟨visitor, haccept, hdocument⟩ := run_responds hcomparable hreadable
      (hquiet.steady.all hreadable hpopulated) hpopulated
    have hvalid := @utf8Valid_response ε manager course htexts fields 0
    unfold run Outcome.ofTraversal
    rw [haccept]
    simp only [hdocument]
    rw [if_pos hvalid]
  · intro hnot
    obtain ⟨stopped, hstopped, document, hdocument⟩ :=
      refused_of_not_visited hcomparable hquiet hcontained hnot
    unfold run Outcome.ofTraversal
    rw [hstopped]
    simp only [hdocument]
    rfl

end

end Graphql
end ObmcWebapp
