import ObmcWebapp.Redfish.DumpEscaped

/-!
# Redfish - The passes of the escaping loop

A malformed byte inside a sequence steps the index of {lit}`dumpEscaped` back, so that
the byte is read again.  The index is recorded pass by pass, as the integer that the step
back leaves.

Main results:

- Theorem {lit}`iteration_i`: as long as the recorded index is not negative, it is the
  index of the loop.
- Theorem {lit}`passes_isChain`: each pass goes on from the index that the last one left.
- Theorem {lit}`count_index_le`: what is still to come reads no byte a third time.
- Theorem {lit}`dumpEscaped_passes`: the loop ends, every byte is read twice at most, and
  the index never falls below zero.
-/

open Library
open Library.Utf8 (State)

namespace ObmcWebapp
namespace Redfish

/-! ## Passes -/

/-- The index that a pass reads at, and the one that it leaves for the increment. -/
structure Pass where
  index : Nat
  left : Int

/-- The decoder refuses a byte inside a sequence. -/
def Escaper.StepsBack (str : Bytes) (s : Escaper) : Prop :=
  (decode s.state s.codePoint (str.getD s.i 0)).1 = utf8Reject ∧ 0 < s.undumpedChars

instance (str : Bytes) (s : Escaper) : Decidable (s.StepsBack str) :=
  inferInstanceAs (Decidable (_ ∧ _))

/-- The index of a pass and where it leaves the loop. -/
def Escaper.pass (str : Bytes) (s : Escaper) : Pass where
  index := s.i
  left := if s.StepsBack str then (s.i : Int) - 1 else s.i

/-- The passes that the loop makes. -/
def passes (str : Bytes) : Nat → Escaper → List Pass
  | 0, _ => []
  | count + 1, s =>
      if s.i < str.length then s.pass str :: passes str count (iteration str s) else []

/-- Natural numbers do for the index as long as the step back leaves none below zero. -/
theorem iteration_i {str : Bytes} {s : Escaper} (hleft : 0 ≤ (s.pass str).left) :
    ((iteration str s).i : Int) = (s.pass str).left + 1 := by
  unfold Escaper.pass at *
  dsimp only at *
  by_cases hback : s.StepsBack str
  · rw [if_pos hback] at hleft ⊢
    obtain ⟨hreject, hundumped⟩ := hback
    have hne : utf8Reject ≠ utf8Accept := by decide
    simp only [iteration, hreject, if_neg hne, if_pos hundumped, if_true]
    omega
  · rw [if_neg hback]
    unfold iteration
    dsimp only
    split
    · rfl
    · split
      · next hreject =>
          have hundumped : ¬ 0 < s.undumpedChars := fun h => hback ⟨hreject, h⟩
          rw [if_neg hundumped]
          rfl
      · rfl

/-- A step back is made inside a sequence, which began at an earlier byte. -/
theorem Escaper.Reads.left_nonneg {str : Bytes} {s : Escaper} {q : State} (hreads : s.Reads q) :
    0 ≤ (s.pass str).left := by
  unfold Escaper.pass
  dsimp only
  split
  · next hback =>
      have hpos := hreads.index_pos (hreads.undumped_iff.mp hback.2)
      omega
  · exact Int.natCast_nonneg _

/-! ## Runs of passes -/

/-- How often the bytes are still read: those behind the index no more, and the byte at the
index a second time only inside a sequence. -/
def readsLeft (k : Nat) (s : Escaper) (q : State) : Nat :=
  if k < s.i then 0 else if k = s.i ∧ q = .start then 1 else 2

/-- A byte is read twice at most from any state. -/
theorem readsLeft_le_two (k : Nat) (s : Escaper) (q : State) : readsLeft k s q ≤ 2 := by
  unfold readsLeft
  split_ifs
  · exact Nat.zero_le _
  · exact Nat.le_succ 1
  · exact le_rfl

/-- A pass moves on to a later byte, or gives a sequence up and stays. -/
theorem iteration_advances {str : Bytes} {s : Escaper} {q : State} (hreads : s.Reads q)
    (hi : s.i < str.length) :
    ∃ q', (iteration str s).Reads q' ∧
      (s.i < (iteration str s).i ∨ (iteration str s).i = s.i ∧ q ≠ .start ∧ q' = .start) := by
  obtain ⟨q', read, hreads', -, -, -, hless⟩ := iteration_scan hreads hi
  refine ⟨q', hreads', ?_⟩
  unfold passesLeft at hless
  by_cases hq : q = .start
  · rw [if_pos hq] at hless
    left
    omega
  · rw [if_neg hq] at hless
    by_cases hq' : q' = .start
    · rw [if_pos hq'] at hless
      have hle : s.i ≤ (iteration str s).i := by omega
      rcases hle.lt_or_eq with hlt | heq
      · exact Or.inl hlt
      · exact Or.inr ⟨heq.symm, hq, hq'⟩
    · rw [if_neg hq'] at hless
      left
      omega

/-- The loop stays inside the text. -/
theorem passes_nonneg {str : Bytes} {count : Nat} {s : Escaper} {q : State}
    (hreads : s.Reads q) :
    ∀ pass ∈ passes str count s, pass.index < str.length ∧ 0 ≤ pass.left := by
  induction count generalizing s q with
  | zero => exact fun _ hmem => absurd hmem List.not_mem_nil
  | succ count ih =>
      unfold passes
      split
      · next hi =>
          obtain ⟨q', hreads', -⟩ := iteration_advances hreads hi
          rw [List.forall_mem_cons]
          exact ⟨⟨hi, hreads.left_nonneg⟩, ih hreads'⟩
      · exact fun _ hmem => absurd hmem List.not_mem_nil

/-- The first pass is that of the state. -/
theorem eq_pass_of_passes {str : Bytes} {count : Nat} {s : Escaper} {next : Pass}
    {later : List Pass} (h : passes str count s = next :: later) : next = s.pass str := by
  cases count with
  | zero => cases h
  | succ count =>
      unfold passes at h
      split at h
      · exact (List.cons.inj h).1.symm
      · cases h

/-- The index that a pass leaves is incremented for the next one. -/
theorem passes_isChain {str : Bytes} {count : Nat} {s : Escaper} {q : State}
    (hreads : s.Reads q) :
    (passes str count s).IsChain fun pass next => (next.index : Int) = pass.left + 1 := by
  induction count generalizing s q with
  | zero => exact .nil
  | succ count ih =>
      unfold passes
      split
      · next hi =>
          obtain ⟨q', hreads', -⟩ := iteration_advances hreads hi
          have hrest := ih hreads'
          cases hpasses : passes str count (iteration str s) with
          | nil => exact .singleton _
          | cons next later =>
              have hnext : next.index = (iteration str s).i :=
                congrArg Pass.index (eq_pass_of_passes hpasses)
              rw [hpasses] at hrest
              refine .cons_cons ?_ hrest
              rw [hnext]
              exact iteration_i hreads.left_nonneg
      · exact .nil

/-- A byte is read as often as the state allows. -/
theorem count_index_le {str : Bytes} {count : Nat} {s : Escaper} {q : State}
    (hreads : s.Reads q) (k : Nat) :
    ((passes str count s).map Pass.index).count k ≤ readsLeft k s q := by
  induction count generalizing s q with
  | zero => exact Nat.zero_le _
  | succ count ih =>
      unfold passes
      split
      · next hi =>
          obtain ⟨q', hreads', hadvance⟩ := iteration_advances hreads hi
          have hrest := ih hreads'
          have hindex : (s.pass str).index = s.i := rfl
          rw [List.map_cons, hindex]
          rcases Nat.lt_trichotomy k s.i with hbehind | rfl | hahead
          · rw [List.count_cons_of_ne hbehind.ne']
            have hnone : readsLeft k (iteration str s) q' = 0 := if_pos (by omega)
            omega
          · -- the byte at the index is read now, and once more where the sequence is given up
            rw [List.count_cons_self]
            unfold readsLeft at *
            rcases hadvance with hlater | ⟨hstays, hq, hq'⟩
            · rw [if_pos hlater] at hrest
              split_ifs <;> omega
            · simp only [hstays, hq, hq', Nat.lt_irrefl, if_false, and_self, and_false,
                if_true] at hrest ⊢
              omega
          · rw [List.count_cons_of_ne hahead.ne]
            have htwo : readsLeft k s q = 2 := by
              unfold readsLeft
              rw [if_neg (by omega), if_neg (by omega)]
            have hmost := readsLeft_le_two k (iteration str s) q'
            omega
      · exact Nat.zero_le _

/-- More passes than are left change nothing. -/
theorem loop_add {str : Bytes} {s : Escaper} {count : Nat}
    (hend : str.length ≤ (loop str count s).i) (more : Nat) :
    loop str (count + more) s = loop str count s := by
  induction count generalizing s with
  | zero =>
      have hstop : ¬ s.i < str.length := not_lt.mpr hend
      rw [Nat.zero_add]
      cases more with
      | zero => rfl
      | succ more => exact if_neg hstop
  | succ count ih =>
      rw [Nat.add_right_comm, loop, loop]
      unfold loop at hend
      by_cases hi : s.i < str.length
      · rw [if_pos hi] at hend ⊢
        rw [if_pos hi, ih hend]
      · rw [if_neg hi, if_neg hi]

/-- The loop ends, after two passes for every byte at most; none reads a byte for the third
time, and the index goes from pass to pass without falling below zero. -/
theorem dumpEscaped_passes (out str : Bytes) :
    (∀ count, 2 * str.length ≤ count →
      loop str count (Escaper.initial out) = afterLoop out str ∧
        str.length ≤ (afterLoop out str).i) ∧
    ∀ count,
      (∀ pass ∈ passes str count (Escaper.initial out),
        pass.index < str.length ∧ 0 ≤ pass.left) ∧
      ((passes str count (Escaper.initial out)).IsChain fun pass next =>
        (next.index : Int) = pass.left + 1) ∧
      ∀ k, ((passes str count (Escaper.initial out)).map Pass.index).count k ≤ 2 := by
  have hreads := reads_initial out
  have hend := (afterLoop_eq out str).1
  constructor
  · intro count hcount
    obtain ⟨more, rfl⟩ := Nat.exists_eq_add_of_le hcount
    exact ⟨loop_add hend more, hend⟩
  · intro count
    refine ⟨passes_nonneg hreads, passes_isChain hreads, fun k => ?_⟩
    have hcount : ((passes str count (Escaper.initial out)).map Pass.index).count k ≤
        readsLeft k (Escaper.initial out) .start := count_index_le hreads k
    exact hcount.trans (readsLeft_le_two _ _ _)

end Redfish
end ObmcWebapp
