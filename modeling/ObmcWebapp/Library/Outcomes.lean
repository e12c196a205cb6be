import Mathlib.Tactic.Common

/-!
# Library - Computations that return or raise

When a computation in {lit}`Except` returns a value: the rules for its steps one after
the other and for a loop over a list.

Main results:

- Theorem {lit}`bind_eq_ok`: two steps, the second with the value of the first.
- Theorem {lit}`mapM_eq_ok_iff`: a loop whose steps return known values where they return.
-/

namespace Library

variable {δ : Type} {α β : Type}

/-- A computation in two parts returns where both return. -/
theorem bind_eq_ok {first : Except δ α} {next : α → Except δ β} {result : β} :
    (first >>= next) = .ok result ↔ ∃ value, first = .ok value ∧ next value = .ok result := by
  cases first with
  | error exception => simp [bind, Except.bind]
  | ok value => simp [bind, Except.bind]

/-- A value is returned. -/
theorem pure_eq_ok {value result : α} : (pure value : Except δ α) = .ok result ↔ value = result := by
  simp [pure, Except.pure]

/-- Nothing is left to be computed. -/
theorem mapM_nil_eq_ok {f : α → Except δ β} {ys : List β} :
    ([] : List α).mapM f = .ok ys ↔ ys = [] := by
  rw [List.mapM_nil, pure_eq_ok, eq_comm]

/-- The first result stands before those of the rest. -/
theorem mapM_cons_eq_ok {f : α → Except δ β} {x : α} {xs : List α} {ys : List β} :
    (x :: xs).mapM f = .ok ys ↔
      ∃ y, f x = .ok y ∧ ∃ rest, xs.mapM f = .ok rest ∧ y :: rest = ys := by
  simp only [List.mapM_cons, bind_eq_ok, pure_eq_ok]

/-- A loop whose steps return, where they return, what a function says. -/
theorem mapM_eq_ok_iff {f : α → Except δ β} {ok : α → Prop} {value : α → β}
    (hf : ∀ x y, f x = .ok y ↔ ok x ∧ y = value x) {xs : List α} {ys : List β} :
    xs.mapM f = .ok ys ↔ (∀ x ∈ xs, ok x) ∧ ys = xs.map value := by
  induction xs generalizing ys with
  | nil =>
      rw [mapM_nil_eq_ok, List.map_nil]
      simp
  | cons x rest ih =>
      rw [mapM_cons_eq_ok, List.forall_mem_cons, List.map_cons]
      constructor
      · intro h
        obtain ⟨y, hy, others, hothers, rfl⟩ := h
        obtain ⟨hx, rfl⟩ := (hf x y).mp hy
        obtain ⟨hrest, rfl⟩ := ih.mp hothers
        exact ⟨⟨hx, hrest⟩, rfl⟩
      · intro h
        exact ⟨_, (hf x _).mpr ⟨h.1.1, rfl⟩, _, ih.mpr ⟨h.1.2, rfl⟩, h.2.symm⟩

end Library
