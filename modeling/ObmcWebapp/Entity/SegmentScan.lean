import Mathlib.Data.List.GetD
import ObmcWebapp.Entity.FindObject

/-!
# Entity - Counting the segments of a path

{lit}`countExtraSegmentsOfPath` with its two indices, which move over the slashes from
both ends towards each other, and with every position that it reads.

Main results:

- Theorem {lit}`SegmentScan.value_eq`: the indices compute what trimming the text does.
- Theorem {lit}`countExtraSegmentsOfPath_join`: the count of segments between slashes.
- Theorem {lit}`SegmentScan.counts_segments`: both, and that no position outside of the
  path is read.
-/

open Library

namespace ObmcWebapp
namespace Entity

namespace SegmentScan

/-! ## The loops -/

/-- What a loop or the function returns, and the positions it has read. -/
structure Scan where
  value : Nat
  reads : List Nat

/-- The first loop, over the slashes from the start. -/
def skipStart (path : Bytes) (start stop : Nat) : Scan :=
  if start < stop then
    if path.getD start 0 = 0x2F then
      let later := skipStart path (start + 1) stop
      { later with reads := start :: later.reads }
    else
      { value := start, reads := [start] }
  else
    { value := start, reads := [] }
termination_by stop - start

/-- The second loop, over the slashes at the end. -/
def skipEnd (path : Bytes) (start stop : Nat) : Scan :=
  if start < stop then
    if path.getD (stop - 1) 0 = 0x2F then
      let later := skipEnd path start (stop - 1)
      { later with reads := (stop - 1) :: later.reads }
    else
      { value := stop, reads := [stop - 1] }
  else
    { value := stop, reads := [] }
termination_by stop - start

/-- The text between two positions. -/
def between (path : Bytes) (start stop : Nat) : Bytes :=
  (path.take stop).drop start

/-- {lit}`countExtraSegmentsOfPath` -/
def countExtraSegmentsOfPath (namespacePath path : Bytes) : Scan :=
  let first := skipStart path namespacePath.length path.length
  let last := skipEnd path first.value path.length
  if first.value < last.value then
    { value := (between path first.value last.value).count 0x2F + 1
      reads := first.reads ++ last.reads ++
        List.range' first.value (last.value - first.value) }
  else
    { value := 0, reads := first.reads ++ last.reads }

/-! ## What the loops skip -/

section Loops

variable {path : Bytes} {start stop : Nat}

/-- The text from a byte on. -/
theorem drop_eq_getD_cons (hlt : start < path.length) :
    path.drop start = path.getD start 0 :: path.drop (start + 1) := by
  rw [List.drop_eq_getElem_cons hlt, List.getD_eq_getElem _ _ hlt]

/-- The slashes in front are skipped. -/
theorem drop_skipStart (path : Bytes) (start : Nat) :
    path.drop (skipStart path start path.length).value =
      (path.drop start).dropWhile (· = 0x2F) := by
  fun_induction skipStart path start path.length with
  | case1 start hlt hslash later ih =>
      rw [ih, drop_eq_getD_cons hlt, hslash]
      rfl
  | case2 start hlt hother =>
      rw [drop_eq_getD_cons hlt, List.dropWhile_cons_of_neg (by simpa using hother)]
  | case3 start hend =>
      rw [List.drop_eq_nil_of_le (not_lt.mp hend)]
      rfl

/-- Only the text is read. -/
theorem skipStart_reads : ∀ i ∈ (skipStart path start stop).reads, i < stop := by
  fun_induction skipStart path start stop with
  | case1 start hlt hslash later ih =>
      rw [List.forall_mem_cons]
      exact ⟨hlt, ih⟩
  | case2 start hlt hother => simpa using hlt
  | case3 start hend => exact fun i hmem => absurd hmem List.not_mem_nil

/-- The last byte of a part. -/
theorem between_eq_concat (hlt : start < stop) (hstop : stop ≤ path.length) :
    between path start stop = between path start (stop - 1) ++ [path.getD (stop - 1) 0] := by
  have hlast : stop - 1 < path.length := by omega
  have hsucc : stop = stop - 1 + 1 := by omega
  unfold between
  rw [List.getD_eq_getElem _ _ hlast]
  conv_lhs => rw [hsucc, List.take_succ_eq_append_getElem hlast]
  rw [List.drop_append_of_le_length]
  rw [List.length_take]
  omega

/-- An empty part. -/
theorem between_eq_nil (hle : stop ≤ start) : between path start stop = [] := by
  unfold between
  rw [List.drop_eq_nil_of_le]
  rw [List.length_take]
  omega

/-- The length of a part. -/
theorem length_between (hstop : stop ≤ path.length) :
    (between path start stop).length = stop - start := by
  unfold between
  rw [List.length_drop, List.length_take, Nat.min_eq_left hstop]

/-- The slashes at the end are skipped. -/
theorem between_skipEnd (hstop : stop ≤ path.length) :
    between path start (skipEnd path start stop).value =
      (between path start stop).rdropWhile (· = 0x2F) := by
  fun_induction skipEnd path start stop with
  | case1 stop hlt hslash later ih =>
      rw [ih (by omega), between_eq_concat hlt hstop, List.rdropWhile_concat_pos]
      exact decide_eq_true hslash
  | case2 stop hlt hother =>
      rw [between_eq_concat hlt hstop, List.rdropWhile_concat_neg]
      simpa using hother
  | case3 stop hend =>
      rw [between_eq_nil (not_lt.mp hend)]
      rfl

/-- The end does not move forward. -/
theorem skipEnd_value_le : (skipEnd path start stop).value ≤ stop := by
  fun_induction skipEnd path start stop with
  | case1 stop hlt hslash later ih => exact ih.trans (Nat.sub_le _ _)
  | case2 stop hlt hother => exact le_rfl
  | case3 stop hend => exact le_rfl

/-- Only the text is read. -/
theorem skipEnd_reads : ∀ i ∈ (skipEnd path start stop).reads, i < stop := by
  fun_induction skipEnd path start stop with
  | case1 stop hlt hslash later ih =>
      rw [List.forall_mem_cons]
      exact ⟨by omega, fun i hmem => (ih i hmem).trans_le (Nat.sub_le _ _)⟩
  | case2 stop hlt hother =>
      rw [List.forall_mem_singleton]
      omega
  | case3 stop hend => exact fun i hmem => absurd hmem List.not_mem_nil

end Loops

/-! ## The function -/

/-- The indices compute what trimming the text does. -/
theorem value_eq (root path : Bytes) :
    (countExtraSegmentsOfPath root path).value = Entity.countExtraSegmentsOfPath root path := by
  have hfront : between path (skipStart path root.length path.length).value path.length =
      (path.drop root.length).dropWhile (· = 0x2F) := by
    unfold between
    rw [List.take_length, drop_skipStart]
  unfold countExtraSegmentsOfPath Entity.countExtraSegmentsOfPath
  dsimp only
  generalize (skipStart path root.length path.length).value = start at hfront ⊢
  have hrest : between path start (skipEnd path start path.length).value =
      ((path.drop root.length).dropWhile (· = 0x2F)).rdropWhile (· = 0x2F) := by
    rw [between_skipEnd le_rfl, hfront]
  have hstop : (skipEnd path start path.length).value ≤ path.length := skipEnd_value_le
  rw [← hrest]
  split
  · next hlt =>
      have hlength : (between path start (skipEnd path start path.length).value).length =
          (skipEnd path start path.length).value - start := length_between hstop
      have hne : between path start (skipEnd path start path.length).value ≠ [] :=
        List.ne_nil_of_length_pos (by omega)
      rw [if_neg hne]
  · next hle => rw [if_pos (between_eq_nil (not_lt.mp hle))]

/-- Both loops and the last step read the text alone. -/
theorem reads_lt (root path : Bytes) :
    ∀ i ∈ (countExtraSegmentsOfPath root path).reads, i < path.length := by
  have hloops : ∀ start, ∀ i ∈ (skipStart path root.length path.length).reads ++
      (skipEnd path start path.length).reads, i < path.length := by
    intro start
    rw [List.forall_mem_append]
    exact ⟨skipStart_reads, skipEnd_reads⟩
  unfold countExtraSegmentsOfPath
  dsimp only
  split
  · rw [List.forall_mem_append]
    refine ⟨hloops _, ?_⟩
    intro i hmem
    have hstop : (skipEnd path (skipStart path root.length path.length).value
        path.length).value ≤ path.length := skipEnd_value_le
    have hrange := (List.mem_range'_1.mp hmem).2
    omega
  · exact hloops _

end SegmentScan

/-! ## Segments between slashes -/

/-- Segments as they stand in a path: not empty, and without a slash. -/
def PathSegment (segment : Bytes) : Prop :=
  segment ≠ [] ∧ 0x2F ∉ segment

instance (segment : Bytes) : Decidable (PathSegment segment) :=
  inferInstanceAs (Decidable (_ ∧ _))

/-- The segments with single slashes between them. -/
def joinSegments (segments : List Bytes) : Bytes :=
  [0x2F].intercalate segments

section Join

variable {segments : List Bytes}

/-- A path begins and ends with a segment. -/
theorem exists_join_eq_append (hne : segments ≠ []) :
    (∃ first ∈ segments, ∃ back, joinSegments segments = first ++ back) ∧
      ∃ last ∈ segments, ∃ front, joinSegments segments = front ++ last := by
  induction segments with
  | nil => exact absurd rfl hne
  | cons segment rest ih =>
      by_cases hrest : rest = []
      · subst hrest
        have hjoin : joinSegments [segment] = segment := List.intercalate_singleton
        exact ⟨⟨segment, List.mem_cons_self .., [], by rw [hjoin, List.append_nil]⟩,
          segment, List.mem_cons_self .., [], by rw [hjoin, List.nil_append]⟩
      · have hjoin : joinSegments (segment :: rest) = segment ++ [0x2F] ++ joinSegments rest :=
          List.intercalate_cons_of_ne_nil hrest
        obtain ⟨last, hmem, front, hlast⟩ := (ih hrest).2
        constructor
        · exact ⟨segment, List.mem_cons_self .., [0x2F] ++ joinSegments rest, by
            rw [hjoin, List.append_assoc]⟩
        · exact ⟨last, List.mem_cons_of_mem _ hmem, segment ++ [0x2F] ++ front, by
            rw [hjoin, hlast, List.append_assoc _ front]⟩

/-- A path has no slash in front. -/
theorem dropWhile_join_append (hne : segments ≠ [])
    (hsegments : ∀ segment ∈ segments, PathSegment segment) (back : Bytes) :
    (joinSegments segments ++ back).dropWhile (· = 0x2F) = joinSegments segments ++ back := by
  obtain ⟨⟨first, hmem, rest, hjoin⟩, -⟩ := exists_join_eq_append hne
  obtain ⟨hfirst, hslash⟩ := hsegments first hmem
  rw [hjoin]
  match first with
  | c :: cs =>
      have hc : c ≠ 0x2F := fun heq => hslash (heq ▸ List.mem_cons_self ..)
      exact List.dropWhile_cons_of_neg (by simpa using hc)

/-- A path has no slash at its end. -/
theorem rdropWhile_join_append (hne : segments ≠ [])
    (hsegments : ∀ segment ∈ segments, PathSegment segment) (count : Nat) :
    (joinSegments segments ++ List.replicate count 0x2F).rdropWhile (· = 0x2F) =
      joinSegments segments := by
  induction count with
  | zero =>
      obtain ⟨-, last, hmem, front, hjoin⟩ := exists_join_eq_append hne
      obtain ⟨hlast, hslash⟩ := hsegments last hmem
      rw [List.replicate_zero, List.append_nil, List.rdropWhile_eq_self_iff]
      intro hnil heq
      have hend : (joinSegments segments).getLast hnil ∈ last := by
        simp only [hjoin, List.getLast_append_of_ne_nil _ hlast, List.getLast_mem]
      rw [of_decide_eq_true heq] at hend
      exact hslash hend
  | succ count ih =>
      rw [List.replicate_succ', ← List.append_assoc, List.rdropWhile_concat_pos]
      · exact ih
      · rfl

end Join

/-- A path with some segments behind the namespace and slashes around them. -/
theorem countExtraSegmentsOfPath_join (root : Bytes) (slashes trailing : Nat)
    {segments : List Bytes} (hsegments : ∀ segment ∈ segments, PathSegment segment) :
    countExtraSegmentsOfPath root (root ++ (List.replicate slashes 0x2F ++
      (joinSegments segments ++ List.replicate trailing 0x2F))) = segments.length := by
  have hslashes : ∀ c ∈ List.replicate slashes (0x2F : UInt8), decide (c = 0x2F) = true :=
    fun c hmem => decide_eq_true (List.eq_of_mem_replicate hmem)
  unfold countExtraSegmentsOfPath
  dsimp only
  rw [List.drop_left, List.dropWhile_append_of_pos hslashes]
  by_cases hne : segments = []
  · subst hne
    have htrailing :
        (joinSegments [] ++ List.replicate trailing 0x2F).dropWhile (· = 0x2F) = [] := by
      rw [List.dropWhile_eq_nil_iff]
      intro c hmem
      exact decide_eq_true (List.eq_of_mem_replicate hmem)
    rw [htrailing]
    rfl
  · have hsplit : (joinSegments segments).splitOn 0x2F = segments :=
      List.splitOn_intercalate _ (fun segment hmem => (hsegments segment hmem).2) hne
    have hlength := length_splitOn (joinSegments segments) 0x2F
    rw [hsplit] at hlength
    obtain ⟨⟨first, hmem, rest, hjoin⟩, -⟩ := exists_join_eq_append hne
    have hjoined : joinSegments segments ≠ [] := by
      rw [hjoin]
      exact List.append_ne_nil_of_left_ne_nil (hsegments first hmem).1 _
    rw [dropWhile_join_append hne hsegments, rdropWhile_join_append hne hsegments,
      if_neg hjoined]
    exact hlength.symm

/-- All segments are counted, and only positions in the path are read. -/
theorem SegmentScan.counts_segments :
    (∀ (root : Bytes) (slashes trailing : Nat) (segments : List Bytes),
      (∀ segment ∈ segments, PathSegment segment) →
        (SegmentScan.countExtraSegmentsOfPath root (root ++ (List.replicate slashes 0x2F ++
          (joinSegments segments ++ List.replicate trailing 0x2F)))).value = segments.length) ∧
    ∀ root path : Bytes,
      ∀ i ∈ (SegmentScan.countExtraSegmentsOfPath root path).reads, i < path.length := by
  constructor
  · intro root slashes trailing segments hsegments
    rw [SegmentScan.value_eq]
    exact countExtraSegmentsOfPath_join root slashes trailing hsegments
  · exact SegmentScan.reads_lt

/-- Two segments behind a namespace, with more than one slash around them. -/
theorem SegmentScan.counts_eth0_ipv4 :
    (SegmentScan.countExtraSegmentsOfPath (bytes "/network") (bytes "/network" ++
      (List.replicate 2 0x2F ++ (joinSegments [bytes "eth0", bytes "ipv4"] ++
        List.replicate 1 0x2F)))).value = 2 :=
  SegmentScan.counts_segments.1 (bytes "/network") 2 1 [bytes "eth0", bytes "ipv4"] (by decide)

end Entity
end ObmcWebapp
