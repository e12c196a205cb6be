import ObmcWebapp.Entity.FindObject

/-!
# Entity - The criteria of a search

What the criteria of a search say about an object: its path is the path of the
criteria or lies beneath it, by whole segments.  {lit}`checkCriteria` compares the texts
of the paths instead, so that a sibling whose name begins with the last segment is
taken for an object beneath, and a slash at the end of the criteria path excludes the
object of that path itself.

Main results:

- Theorem {lit}`countExtraSegmentsOfPath_eq`: the segments are counted right.
- Theorem {lit}`checkInterfaces_meets_iff`: when {lit}`checkCriteria` decides as the
  criteria say.
-/

open Library

namespace ObmcWebapp
namespace Entity

/-! ## Paths and their segments -/

/-- A path without the slashes at its end. -/
def stripSlashes (path : Bytes) : Bytes :=
  path.rdropWhile (· = 0x2F)

/-- A path is that of the root or lies beneath it, on the boundary of a segment. -/
def Beneath (root path : Bytes) : Prop :=
  path = stripSlashes root ∨ stripSlashes root ++ [0x2F] <+: path

/-- The segments of a path beyond the root; slashes at the ends separate nothing. -/
def extraSegments (root path : Bytes) : List Bytes :=
  let rest := ((path.drop (stripSlashes root).length).dropWhile (· = 0x2F)).rdropWhile (· = 0x2F)
  if rest = [] then [] else rest.splitOn 0x2F

/-- Two services match if either is left open. -/
def ServicesMatch (criteria given : Option Bytes) : Prop :=
  given = none ∨ criteria = none ∨ given = criteria

/-- One of the given interfaces is among the criteria. -/
def Intersect (criteria given : List Bytes) : Prop :=
  ∃ interface ∈ given, interface ∈ criteria

/-- An object meets the criteria of a search. -/
structure Meets (criteria : DBusObjectEndpoint) (objectPath : Bytes) (interfaces : List Bytes)
    (service : Option Bytes) : Prop where
  service : ServicesMatch criteria.service service
  path : Beneath criteria.path objectPath
  depth : 0 < criteria.depth → (extraSegments criteria.path objectPath).length ≤ criteria.depth
  interfaces : Intersect criteria.interfaces interfaces

/-! ## Texts of paths -/

variable {root path : Bytes}

/-- A path is what is left without its slashes, and these. -/
theorem exists_slashes (path : Bytes) :
    ∃ count, path = stripSlashes path ++ List.replicate count 0x2F := by
  refine ⟨(path.rtakeWhile (· = 0x2F)).length, ?_⟩
  have hslashes : path.rtakeWhile (· = 0x2F) =
      List.replicate (path.rtakeWhile (· = 0x2F)).length 0x2F := by
    apply List.eq_replicate_length.mpr
    intro c hmem
    simpa using List.mem_rtakeWhile_imp hmem
  rw [← hslashes]
  exact (List.rdropWhile_append_rtakeWhile ..).symm

/-- The text of the root goes on in the middle of a segment. -/
def SharesText (root path : Bytes) : Prop :=
  stripSlashes root = root ∧ ∃ c rest, c ≠ 0x2F ∧ path = root ++ c :: rest

/-- Where the path goes on or ends, the root has more slashes. -/
def MoreSlashes (root path : Bytes) : Prop :=
  ∃ fewer more rest, fewer < more ∧ root = stripSlashes root ++ List.replicate more 0x2F ∧
    path = stripSlashes root ++ List.replicate fewer 0x2F ++ rest ∧ rest.head? ≠ some 0x2F ∧
    (fewer = 0 → rest = [])

/-- The prefix admits more than what is beneath: paths that only share its text. -/
theorem not_beneath_of_prefix_iff :
    (root <+: path ∧ ¬ Beneath root path) ↔ SharesText root path := by
  constructor
  · rintro ⟨⟨rest, rfl⟩, hbeneath⟩
    obtain ⟨count, hroot⟩ := exists_slashes root
    cases count with
    | succ count =>
        exfalso
        apply hbeneath
        right
        refine ⟨List.replicate count 0x2F ++ rest, ?_⟩
        conv_rhs => rw [hroot]
        simp [List.replicate_succ]
    | zero =>
        have hstrip : stripSlashes root = root := by simpa using hroot.symm
        refine ⟨hstrip, ?_⟩
        cases rest with
        | nil =>
            exfalso
            apply hbeneath
            left
            rw [hstrip, List.append_nil]
        | cons c rest =>
            refine ⟨c, rest, ?_, rfl⟩
            intro hslash
            apply hbeneath
            right
            rw [hstrip, hslash]
            exact ⟨rest, by simp⟩
  · rintro ⟨hstrip, c, rest, hc, rfl⟩
    refine ⟨⟨c :: rest, rfl⟩, ?_⟩
    intro hbeneath
    unfold Beneath at hbeneath
    rw [hstrip] at hbeneath
    cases hbeneath with
    | inl hsame => simp at hsame
    | inr hprefix =>
        rw [List.prefix_append_right_inj] at hprefix
        obtain ⟨other, hother⟩ := hprefix
        exact hc (List.cons.inj hother).1.symm

/-- Slashes at the start of a text, and what follows them. -/
theorem exists_leading (text : Bytes) :
    ∃ count rest, text = List.replicate count 0x2F ++ rest ∧ rest.head? ≠ some 0x2F := by
  induction text with
  | nil => exact ⟨0, [], rfl, by simp⟩
  | cons c rest ih =>
      by_cases hc : c = 0x2F
      · obtain ⟨count, others, rfl, hothers⟩ := ih
        exact ⟨count + 1, others, by simp [hc, List.replicate_succ], hothers⟩
      · exact ⟨0, c :: rest, rfl, by simpa using hc⟩

/-- The prefix admits less where the root ends in slashes. -/
theorem beneath_of_not_prefix_iff :
    (Beneath root path ∧ ¬ root <+: path) ↔ MoreSlashes root path := by
  obtain ⟨more, hroot⟩ := exists_slashes root
  constructor
  · rintro ⟨hbeneath, hprefix⟩
    have hextends : stripSlashes root <+: path := by
      cases hbeneath with
      | inl hsame => exact hsame ▸ List.prefix_rfl
      | inr hslash => exact (List.prefix_append _ _).trans hslash
    obtain ⟨text, rfl⟩ := hextends
    obtain ⟨fewer, rest, rfl, hrest⟩ := exists_leading text
    refine ⟨fewer, more, rest, ?_, hroot, by rw [List.append_assoc], hrest, ?_⟩
    · by_contra hle
      apply hprefix
      conv_lhs => rw [hroot]
      rw [List.prefix_append_right_inj]
      obtain ⟨extra, rfl⟩ := Nat.exists_eq_add_of_le (Nat.le_of_not_lt hle)
      rw [List.replicate_add, List.append_assoc]
      exact List.prefix_append _ _
    · intro hzero
      subst hzero
      cases hbeneath with
      | inl hsame => simpa using hsame
      | inr hslash =>
          rw [List.prefix_append_right_inj] at hslash
          obtain ⟨other, hother⟩ := hslash
          simp only [List.replicate_zero, List.nil_append] at hother
          rw [← hother] at hrest
          exact absurd rfl hrest
  · rintro ⟨fewer, count, rest, hlt, hroot', rfl, hrest, hzero⟩
    constructor
    · cases fewer with
      | zero =>
          left
          simp [hzero rfl]
      | succ fewer =>
          right
          exact ⟨List.replicate fewer 0x2F ++ rest, by simp [List.replicate_succ]⟩
    · rintro ⟨extra, heq⟩
      obtain ⟨gap, rfl⟩ := Nat.exists_eq_add_of_lt hlt
      have hslashes : List.replicate (fewer + gap + 1) 0x2F ++ extra =
          List.replicate fewer 0x2F ++ rest := by
        refine @List.append_cancel_left _ (stripSlashes root) _ _ ?_
        rw [← List.append_assoc, ← hroot', heq, List.append_assoc]
      rw [Nat.add_assoc, List.replicate_add, List.append_assoc] at hslashes
      rw [← List.append_cancel_left hslashes] at hrest
      exact hrest rfl

/-! ## Counting the segments -/

/-- The segments are counted right behind the text of the root. -/
theorem countExtraSegmentsOfPath_eq (h : root <+: path) :
    countExtraSegmentsOfPath root path = (extraSegments root path).length := by
  obtain ⟨rest, rfl⟩ := h
  obtain ⟨count, hroot⟩ := exists_slashes root
  have hsplit : root ++ rest = stripSlashes root ++ (List.replicate count 0x2F ++ rest) := by
    rw [← List.append_assoc, ← hroot]
  have hbehind : (root ++ rest).drop (stripSlashes root).length =
      List.replicate count 0x2F ++ rest := by
    rw [hsplit, List.drop_left]
  have htrimmed : (List.replicate count 0x2F ++ rest).dropWhile (· = 0x2F) =
      rest.dropWhile (· = 0x2F) := by
    apply List.dropWhile_append_of_pos
    intro c hmem
    simpa using List.eq_of_mem_replicate hmem
  unfold countExtraSegmentsOfPath extraSegments
  dsimp only
  rw [List.drop_left, hbehind, htrimmed]
  split
  · rfl
  · exact (length_splitOn _ _).symm

/-! ## The decision -/

section

variable {query : FindObjectDBusQuery} {objectPath : Bytes} {interfaces : List Bytes}
  {service : Option Bytes}

/-- What {lit}`checkCriteria` checks. -/
theorem checkCriteria_iff :
    query.checkCriteria objectPath service = true ↔
      ServicesMatch query.getQueryCriteria.service service ∧
        query.getQueryCriteria.path <+: objectPath := by
  unfold FindObjectDBusQuery.checkCriteria ServicesMatch
  cases service with
  | none => simp
  | some given =>
      cases query.getQueryCriteria.service with
      | none => simp
      | some criteria =>
          by_cases hsame : given = criteria
          · simp [hsame]
          · simp [hsame]

/-- What {lit}`checkInterfaces` checks. -/
theorem checkInterfaces_true_iff :
    query.checkInterfaces objectPath interfaces service = true ↔
      ServicesMatch query.getQueryCriteria.service service ∧
        query.getQueryCriteria.path <+: objectPath ∧
        (0 < query.getQueryCriteria.depth →
          countExtraSegmentsOfPath query.getQueryCriteria.path objectPath ≤
            query.getQueryCriteria.depth) ∧
        Intersect query.getQueryCriteria.interfaces interfaces := by
  unfold FindObjectDBusQuery.checkInterfaces Intersect
  by_cases hcriteria : query.checkCriteria objectPath service = true
  · have hboth := checkCriteria_iff.mp hcriteria
    simp only [hcriteria, Bool.not_true, Bool.false_eq_true, if_false, hboth, true_and]
    by_cases hdepth : 0 < query.getQueryCriteria.depth ∧ query.getQueryCriteria.depth <
        countExtraSegmentsOfPath query.getQueryCriteria.path objectPath
    · have hcount := Int.not_le.mpr hdepth.2
      simp [hdepth, hcount]
    · have hcount : 0 < query.getQueryCriteria.depth →
          countExtraSegmentsOfPath query.getQueryCriteria.path objectPath ≤
            query.getQueryCriteria.depth :=
        fun hpositive => Int.not_lt.mp fun hlt => hdepth ⟨hpositive, hlt⟩
      rw [and_iff_right hcount]
      simp [hdepth]
  · have hnot := mt checkCriteria_iff.mpr hcriteria
    rw [eq_false_of_ne_true hcriteria]
    simp only [Bool.not_false, if_true, Bool.false_eq_true, false_iff]
    exact fun hall => hnot ⟨hall.1, hall.2.1⟩

end

/-- The other criteria let an object through of which the texts of the paths tell
something else than their segments. -/
def Misread (criteria : DBusObjectEndpoint) (objectPath : Bytes) (interfaces : List Bytes)
    (service : Option Bytes) : Prop :=
  ServicesMatch criteria.service service ∧ Intersect criteria.interfaces interfaces ∧
    ((SharesText criteria.path objectPath ∧
        (0 < criteria.depth →
          countExtraSegmentsOfPath criteria.path objectPath ≤ criteria.depth)) ∨
      (MoreSlashes criteria.path objectPath ∧
        (0 < criteria.depth →
          (extraSegments criteria.path objectPath).length ≤ criteria.depth)))

/-- {lit}`checkCriteria` decides as the criteria say exactly where the paths are not
misread. -/
theorem checkInterfaces_meets_iff (query : FindObjectDBusQuery) (objectPath : Bytes)
    (interfaces : List Bytes) (service : Option Bytes) :
    (query.checkInterfaces objectPath interfaces service = true ↔
        Meets query.getQueryCriteria objectPath interfaces service) ↔
      ¬ Misread query.getQueryCriteria objectPath interfaces service := by
  generalize hcriteria : query.getQueryCriteria = criteria
  have hmeets : Meets criteria objectPath interfaces service ↔
      ServicesMatch criteria.service service ∧ Beneath criteria.path objectPath ∧
        (0 < criteria.depth →
          (extraSegments criteria.path objectPath).length ≤ criteria.depth) ∧
        Intersect criteria.interfaces interfaces :=
    ⟨fun h => ⟨h.service, h.path, h.depth, h.interfaces⟩,
      fun h => ⟨h.1, h.2.1, h.2.2.1, h.2.2.2⟩⟩
  rw [checkInterfaces_true_iff, hcriteria, hmeets, Misread, ← not_beneath_of_prefix_iff,
    ← beneath_of_not_prefix_iff]
  by_cases hservice : ServicesMatch criteria.service service
  · by_cases hinterfaces : Intersect criteria.interfaces interfaces
    · by_cases hprefix : criteria.path <+: objectPath
      · rw [countExtraSegmentsOfPath_eq hprefix]
        by_cases hbeneath : Beneath criteria.path objectPath
        · simp [hservice, hinterfaces, hprefix, hbeneath]
        · simp [hservice, hinterfaces, hprefix, hbeneath]
      · by_cases hbeneath : Beneath criteria.path objectPath
        · simp [hservice, hinterfaces, hprefix, hbeneath]
        · simp [hservice, hinterfaces, hprefix, hbeneath]
    · simp [hinterfaces]
  · simp [hservice]

/-! ## A sibling of the network objects -/

/-- The search of the network interfaces. -/
def ethernetQuery : FindObjectDBusQuery where
  getQueryCriteria :=
    { path := bytes "/xyz/openbmc_project/network"
      interfaces := [bytes "xyz.openbmc_project.Network.EthernetInterface"]
      depth := 1
      service := some (bytes "xyz.openbmc_project.Network") }
  searchProperties := [bytes "xyz.openbmc_project.Network.EthernetInterface"]

/-- An object beside the root is accepted. -/
theorem sibling_accepted :
    ethernetQuery.checkInterfaces (bytes "/xyz/openbmc_project/network_eth0")
        [bytes "xyz.openbmc_project.Network.EthernetInterface"]
        (some (bytes "xyz.openbmc_project.Network")) = true ∧
      ¬ Meets ethernetQuery.getQueryCriteria (bytes "/xyz/openbmc_project/network_eth0")
        [bytes "xyz.openbmc_project.Network.EthernetInterface"]
        (some (bytes "xyz.openbmc_project.Network")) := by
  refine ⟨by decide, ?_⟩
  intro hmeets
  cases hmeets.path with
  | inl hsame => exact absurd hsame (by decide)
  | inr hprefix => exact absurd hprefix (by decide)

end Entity
end ObmcWebapp
