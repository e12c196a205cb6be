import Mathlib.Order.Bounds.Basic
import ObmcWebapp.Library.Outcomes

/-!
# Library - The greatest value met in a loop

A loop that may raise and keeps the greatest of the values it has met.  What it
returns depends on the set of these values alone, not on the order or the repetition
of the steps.

Main results:

- Theorem {lit}`foldlM_returns_iff`, {lit}`foldlM_greatest`: when the loop returns, and what.
- Theorem {lit}`isGreatest_unique`: the set of the values decides on the result.
- Theorem {lit}`isGreatest_insert_iff_below`: when two sets have the same greatest value.
-/

namespace Library

variable {δ α β : Type} {f : β → α → Except δ β} {items : List α} {start result : β}

/-- A loop returns exactly if every step does, whatever it starts from. -/
theorem foldlM_returns_iff {ok : α → Prop} (hstep : ∀ s x, (∃ t, f s x = .ok t) ↔ ok x) :
    (∃ t, items.foldlM f start = .ok t) ↔ ∀ x ∈ items, ok x := by
  induction items generalizing start with
  | nil => simp [pure, Except.pure]
  | cons x rest ih =>
      rw [List.forall_mem_cons, ← hstep start x, List.foldlM_cons]
      simp only [bind_eq_ok]
      constructor
      · intro h
        obtain ⟨t, s, hs, ht⟩ := h
        exact ⟨⟨s, hs⟩, ih.mp ⟨t, ht⟩⟩
      · intro h
        obtain ⟨⟨s, hs⟩, hrest⟩ := h
        obtain ⟨t, ht⟩ := ih.mpr hrest
        exact ⟨t, s, hs, ht⟩

variable [LE β] [Std.IsPartialOrder β] {first second : Set β} {middle : β}

/-- The greatest of the greatest of some values and others. -/
theorem isGreatest_insert_union (hfirst : IsGreatest (insert start first) middle)
    (hsecond : IsGreatest (insert middle second) result) :
    IsGreatest (insert start (first ∪ second)) result := by
  constructor
  · rcases hsecond.1 with rfl | hmem
    · rcases hfirst.1 with rfl | hmem
      · exact Set.mem_insert ..
      · exact Set.mem_insert_of_mem _ (Or.inl hmem)
    · exact Set.mem_insert_of_mem _ (Or.inr hmem)
  · have hmiddle : middle ≤ result := hsecond.2 (Set.mem_insert ..)
    rintro value (rfl | hvalue | hvalue)
    · exact Std.le_trans (hfirst.2 (Set.mem_insert ..)) hmiddle
    · exact Std.le_trans (hfirst.2 (Set.mem_insert_of_mem _ hvalue)) hmiddle
    · exact hsecond.2 (Set.mem_insert_of_mem _ hvalue)

/-- Where every step keeps the greatest of its own values, the loop keeps that of all. -/
theorem foldlM_greatest {values : α → Set β}
    (hstep : ∀ s x t, f s x = .ok t → IsGreatest (insert s (values x)) t)
    (h : items.foldlM f start = .ok result) :
    IsGreatest (insert start {value | ∃ x ∈ items, value ∈ values x}) result := by
  induction items generalizing start with
  | nil =>
      rw [List.foldlM_nil, pure_eq_ok] at h
      subst h
      simp [IsGreatest, upperBounds, Std.le_refl]
  | cons x rest ih =>
      rw [List.foldlM_cons, bind_eq_ok] at h
      obtain ⟨middle, hmiddle, hrest⟩ := h
      have hgreatest := isGreatest_insert_union (hstep start x middle hmiddle) (ih hrest)
      have hvalues : {value | ∃ y ∈ x :: rest, value ∈ values y} =
          values x ∪ {value | ∃ y ∈ rest, value ∈ values y} := by
        ext value
        simp [List.mem_cons, or_and_right, exists_or]
      rwa [hvalues]

/-- Two greatest values of one set are the same. -/
theorem isGreatest_unique {values : Set β} {other : β}
    (hresult : IsGreatest values result) (hother : IsGreatest values other) : result = other :=
  Std.le_antisymm (hother.2 hresult.1) (hresult.2 hother.1)

/-- None of some values exceeds both the start and all others. -/
def Below (start : β) (values others : Set β) : Prop :=
  ∀ value ∈ values, value ≤ start ∨ ∃ other ∈ others, value ≤ other

/-- Fewer values are below the others. -/
theorem Below.of_subset {values others : Set β} (h : values ⊆ others) : Below start values others :=
  fun value hvalue => Or.inr ⟨value, h hvalue, Std.le_refl value⟩

/-- The greatest of the others is above them. -/
theorem Below.le_greatest (hbelow : Below start second first)
    (hgreatest : IsGreatest (insert start first) result) : ∀ value ∈ second, value ≤ result := by
  intro value hvalue
  rcases hbelow value hvalue with hstart | ⟨other, hother, hle⟩
  · exact Std.le_trans hstart (hgreatest.2 (Set.mem_insert ..))
  · exact Std.le_trans hle (hgreatest.2 (Set.mem_insert_of_mem _ hother))

/-- The greatest of some values is that of others exactly if neither exceed the others. -/
theorem isGreatest_insert_iff_below (hfirst : IsGreatest (insert start first) result) :
    IsGreatest (insert start second) result ↔
      Below start second first ∧ Below start first second := by
  constructor
  · intro hsecond
    have hbound : ∀ values, IsGreatest (insert start values) result →
        ∀ value ≤ result, value ≤ start ∨ ∃ other ∈ values, value ≤ other := by
      intro values hvalues value hle
      rcases hvalues.1 with heq | hmem
      · exact Or.inl (heq ▸ hle)
      · exact Or.inr ⟨result, hmem, hle⟩
    constructor
    · intro value hvalue
      exact hbound first hfirst value (hsecond.2 (Set.mem_insert_of_mem _ hvalue))
    · intro value hvalue
      exact hbound second hsecond value (hfirst.2 (Set.mem_insert_of_mem _ hvalue))
  · rintro ⟨hmissed, hextra⟩
    have hle := hmissed.le_greatest hfirst
    have hstart : start ≤ result := hfirst.2 (Set.mem_insert ..)
    refine ⟨?_, ?_⟩
    · rcases hfirst.1 with heq | hmem
      · exact heq ▸ Set.mem_insert ..
      · -- what exceeds the result in the other set is the result itself
        rcases hextra result hmem with hbelow | ⟨other, hother, hbelow⟩
        · exact Std.le_antisymm hbelow hstart ▸ Set.mem_insert ..
        · exact Std.le_antisymm hbelow (hle other hother) ▸ Set.mem_insert_of_mem _ hother
    · rintro value (rfl | hvalue)
      · exact hstart
      · exact hle value hvalue

end Library
