import Mathlib.Data.List.Basic
import Mathlib.Tactic.Common

/-!
# Library - The difference of two ranges

{lit}`std::set_difference` walks through two ranges side by side and drops the lesser of
the two heads.  For sorted ranges it takes the elements of the second out of the
first.  For ranges in any order it meets an element of both only if nothing greater
comes before it in either.

Main results:

- Theorem {lit}`length_setDifference_eq_iff`: when nothing at all is taken out.
- Theorem {lit}`leadingMax_of_sorted`: in a sorted range the first occurrence of every
  element is a leading maximum.
-/

namespace Library

variable {α : Type*} [LT α]

/-! ## Leading maxima -/

/-- An element that is greater than all before it. -/
def LeadingMax (a : α) (range : List α) : Prop :=
  ∃ before after, range = before ++ a :: after ∧ ∀ b ∈ before, b < a

variable {a b c : α} {first second range : List α}

/-- The greatest of the first elements is one of them. -/
theorem LeadingMax.mem (h : LeadingMax a range) : a ∈ range := by
  obtain ⟨before, after, heq, -⟩ := h
  rw [heq]
  exact List.mem_append_right before List.mem_cons_self

/-- An empty range has none. -/
theorem not_leadingMax_nil : ¬ LeadingMax a ([] : List α) := by
  intro h
  exact absurd h.mem List.not_mem_nil

theorem leadingMax_cons_iff :
    LeadingMax c (a :: range) ↔ c = a ∨ (a < c ∧ LeadingMax c range) := by
  constructor
  · intro h
    obtain ⟨before, after, heq, hbefore⟩ := h
    cases before with
    | nil => exact Or.inl (List.cons.inj heq).1.symm
    | cons other before =>
        obtain ⟨rfl, hrange⟩ := List.cons.inj heq
        obtain ⟨hfirst, hrest⟩ := List.forall_mem_cons.mp hbefore
        exact Or.inr ⟨hfirst, before, after, hrange, hrest⟩
  · intro h
    cases h with
    | inl heq => exact ⟨[], range, by rw [heq, List.nil_append], by simp⟩
    | inr hlater =>
        obtain ⟨hfirst, before, after, hrange, hbefore⟩ := hlater
        refine ⟨a :: before, after, by rw [hrange, List.cons_append], ?_⟩
        exact List.forall_mem_cons.mpr ⟨hfirst, hbefore⟩

section

variable [LE α] [Std.LawfulOrderLT α] [Std.IsLinearOrder α]

/-- Sorted ranges lead to the first occurrence of every element. -/
theorem leadingMax_of_sorted (hsorted : range.Pairwise (· ≤ ·)) (hmem : a ∈ range) :
    LeadingMax a range := by
  induction range with
  | nil => exact absurd hmem List.not_mem_nil
  | cons b range ih =>
      obtain ⟨hfirst, hrest⟩ := List.pairwise_cons.mp hsorted
      rw [leadingMax_cons_iff]
      by_cases heq : a = b
      · exact Or.inl heq
      · have hlater : a ∈ range := (List.mem_cons.mp hmem).resolve_left heq
        exact Or.inr ⟨Std.lt_of_le_of_ne (hfirst a hlater) (Ne.symm heq), ih hrest hlater⟩

/-- The lesser head is no leading maximum of both ranges. -/
theorem common_cons_left_iff (hless : a < b) :
    (∃ c, LeadingMax c (a :: first) ∧ LeadingMax c (b :: second)) ↔
      ∃ c, LeadingMax c first ∧ LeadingMax c (b :: second) := by
  apply exists_congr
  intro c
  refine and_congr_left fun hsecond => ?_
  have hgreater : a < c := by
    cases leadingMax_cons_iff.mp hsecond with
    | inl heq => rwa [heq]
    | inr hlater => exact Std.lt_trans hless hlater.1
  rw [leadingMax_cons_iff, and_iff_right hgreater]
  apply or_iff_right
  intro heq
  rw [heq] at hgreater
  exact Std.lt_irrefl hgreater

end

/-! ## The difference -/

variable [DecidableLT α]

/-- {lit}`std::set_difference` -/
def setDifference : List α → List α → List α
  | [], _ => []
  | first, [] => first
  | a :: first, b :: second =>
      if a < b then a :: setDifference first (b :: second)
      else if b < a then setDifference (a :: first) second
      else setDifference first second
termination_by first second => first.length + second.length

/-- The difference is not longer than the first range. -/
theorem length_setDifference_le (first second : List α) :
    (setDifference first second).length ≤ first.length := by
  fun_induction setDifference first second with
  | case1 => simp
  | case2 => simp
  | case3 a first b second hless ih => simpa using ih
  | case4 a first b second hless hgreater ih => exact ih
  | case5 a first b second hless hgreater ih =>
      rw [List.length_cons]
      omega

variable [LE α] [Std.LawfulOrderLT α] [Std.IsLinearOrder α]

/-- Nothing is taken out of the first range exactly if the two have no leading maximum in
common. -/
theorem length_setDifference_eq_iff (first second : List α) :
    (setDifference first second).length = first.length ↔
      ¬ ∃ c, LeadingMax c first ∧ LeadingMax c second := by
  fun_induction setDifference first second with
  | case1 second => simp [not_leadingMax_nil]
  | case2 first => simp [not_leadingMax_nil]
  | case3 a first b second hless ih =>
      rw [common_cons_left_iff hless, ← ih, List.length_cons, List.length_cons]
      omega
  | case4 a first b second hless hgreater ih =>
      simp only [and_comm (b := LeadingMax _ (b :: second))]
      rw [common_cons_left_iff hgreater, ih]
      simp only [and_comm]
  | case5 a first b second hless hgreater ih =>
      have heq : a = b := by
        rcases Std.lt_trichotomy a b with hlt | heq | hgt
        · exact absurd hlt hless
        · exact heq
        · exact absurd hgt hgreater
      have hshorter := length_setDifference_le first second
      rw [List.length_cons]
      apply iff_of_false
      · omega
      · rw [not_not, heq]
        exact ⟨b, leadingMax_cons_iff.mpr (Or.inl rfl), leadingMax_cons_iff.mpr (Or.inl rfl)⟩

end Library
