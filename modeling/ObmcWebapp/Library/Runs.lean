import Mathlib.Data.List.Induction
import Mathlib.Tactic.Common

/-!
# Library - Runs of a labelled transition system

A run takes one labelled step after the other from a start state.  The rules
here carry an invariant along a run and narrow the steps a run may take.

Main results:

- Theorem {lit}`Run.invariant`: what holds at the start and survives every step
  holds of every state reached.
- Theorem {lit}`Run.foldl_restrict`: a folded list of operations as a run.
- Theorem {lit}`foldl_always_iff`: a folded list of operations keeps to an invariant
  exactly where every operation does.
-/

namespace Library

variable {σ ℓ : Type*} {step : σ → ℓ → σ → Prop} {start s t : σ} {labels : List ℓ} {label : ℓ}

/-- The labels taken in order, and the state they lead to. -/
inductive Run (step : σ → ℓ → σ → Prop) (start : σ) : List ℓ → σ → Prop
  | refl : Run step start [] start
  | snoc {labels : List ℓ} {s t : σ} {label : ℓ} (hrun : Run step start labels s)
      (hstep : step s label t) : Run step start (labels ++ [label]) t

/-- The steps taken from states and under labels that meet a condition. -/
def Restrict (step : σ → ℓ → σ → Prop) (ok : σ → ℓ → Prop) (s : σ) (label : ℓ) (t : σ) : Prop :=
  ok s label ∧ step s label t

namespace Run

/-- A step is a run. -/
theorem single (hstep : step start label t) : Run step start [label] t :=
  @snoc σ ℓ step start [] start t label refl hstep

/-- The invariant rule. -/
theorem invariant {I : σ → Prop} (hrun : Run step start labels s) (hstart : I start)
    (hstep : ∀ s label t, I s → step s label t → I t) : I s := by
  induction hrun with
  | refl => exact hstart
  | snoc _ hlast ih => exact hstep _ _ _ ih hlast

/-- A list of operations is run by folding it. -/
theorem foldl (f : σ → ℓ → σ) (start : σ) (labels : List ℓ) :
    Run (fun s label t => t = f s label) start labels (labels.foldl f start) := by
  induction labels using List.reverseRecOn with
  | nil => exact refl
  | append_singleton labels label ih =>
      rw [List.foldl_append]
      exact snoc ih rfl

/-- A folded list whose operations all meet a condition where they are taken. -/
theorem foldl_restrict (f : σ → ℓ → σ) (ok : σ → ℓ → Prop) (start : σ) (labels : List ℓ)
    (hok : ∀ before label rest, labels = before ++ label :: rest →
      ok (before.foldl f start) label) :
    Run (Restrict (fun s label t => t = f s label) ok) start labels (labels.foldl f start) := by
  induction labels using List.reverseRecOn with
  | nil => exact refl
  | append_singleton labels label ih =>
      have hlast : ok (labels.foldl f start) label := hok labels label [] rfl
      have hearlier : ∀ before label' rest, labels = before ++ label' :: rest →
          ok (before.foldl f start) label' := by
        intro before label' rest heq
        apply hok before label' (rest ++ [label])
        rw [heq, List.append_assoc, List.cons_append]
      rw [List.foldl_append]
      exact snoc (ih hearlier) ⟨hlast, rfl⟩

end Run

/-- Where an operation keeps the invariant exactly under a condition, all states of a
folded list keep it exactly where all operations meet the condition. -/
theorem foldl_always_iff {f : σ → ℓ → σ} {I : σ → Prop} {ok : σ → ℓ → Prop} {start : σ}
    (hstart : I start) (labels : List ℓ)
    (hstep : ∀ s, I s → ∀ label ∈ labels, (I (f s label) ↔ ok s label)) :
    (∀ before rest, labels = before ++ rest → I (before.foldl f start)) ↔
      ∀ before label rest, labels = before ++ label :: rest → ok (before.foldl f start) label := by
  constructor
  · intro hall before label rest heq
    have hbefore : I (before.foldl f start) := hall before (label :: rest) heq
    have hafter : I ((before ++ [label]).foldl f start) := by
      apply hall (before ++ [label]) rest
      rw [heq, List.append_assoc]
      rfl
    rw [List.foldl_append] at hafter
    have hmem : label ∈ labels := by
      rw [heq]
      exact List.mem_append_right before List.mem_cons_self
    exact (hstep _ hbefore label hmem).mp hafter
  · intro hok before
    induction before using List.reverseRecOn with
    | nil =>
        intro rest _
        exact hstart
    | append_singleton before label ih =>
        intro rest heq
        have heq' : labels = before ++ label :: rest := by
          rw [heq, List.append_assoc]
          rfl
        have hmem : label ∈ labels := by
          rw [heq']
          exact List.mem_append_right before List.mem_cons_self
        rw [List.foldl_append]
        exact (hstep _ (ih (label :: rest) heq') label hmem).mpr (hok before label rest heq')

end Library
