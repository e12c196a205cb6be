import Mathlib.Data.List.Basic
import Mathlib.Data.List.Nodup
import Mathlib.Tactic.Common

/-!
# Library - Tables of records with distinct keys

A table is a list of records of which no two have the same key; the order of the
rows stands for an iteration order that nothing relies on.  The operations are
those of a hash map whose key is part of the stored value.

Main results:

- Theorem {lit}`Table.find_eq_some_iff`: looking a key up finds the row under it.
- Theorems {lit}`Table.mem_emplace_iff`, {lit}`Table.mem_insertOrAssign_iff`,
  {lit}`Table.mem_erase_iff`, {lit}`Table.mem_filter_iff`,
  {lit}`Table.mem_modify_iff`: the rows after each operation.
- Theorems {lit}`Table.has_emplaceAll_iff`, {lit}`Table.rows_emplaceAll_of_nodup`: the
  keys and the rows after a bulk insertion.
- Theorems {lit}`Table.mem_insertOrAssignAll`, {lit}`Table.mem_insertOrAssignAll_append`: the
  rows after a bulk assignment.
-/

namespace Library

variable {α β : Type*} {key : β → α}

/-- Records with distinct keys. -/
@[ext]
structure Table (key : β → α) where
  rows : List β
  nodup : (rows.map key).Nodup

namespace Table

instance : Membership β (Table key) :=
  ⟨fun table row => row ∈ table.rows⟩

/-- A row of a table is one of its rows. -/
theorem mem_def {table : Table key} {row : β} : row ∈ table ↔ row ∈ table.rows := Iff.rfl

/-- The table without rows. -/
def empty : Table key where
  rows := []
  nodup := List.nodup_nil

/-- The empty table has no row. -/
@[simp]
theorem not_mem_empty (row : β) : row ∉ (empty : Table key) := List.not_mem_nil

/-- A row stands under the key. -/
def Has (table : Table key) (k : α) : Prop :=
  ∃ row ∈ table, key row = k

/-- The empty table has no key. -/
@[simp]
theorem not_has_empty (k : α) : ¬ (empty : Table key).Has k := by
  rintro ⟨row, hmem, -⟩
  exact not_mem_empty row hmem

/-- A table has the keys of its rows. -/
theorem has_of_mem {table : Table key} {row : β} (hmem : row ∈ table) : table.Has (key row) :=
  ⟨row, hmem, rfl⟩

/-- Two rows under one key are the same row. -/
theorem eq_of_key_eq {table : Table key} {row row' : β} (hmem : row ∈ table)
    (hmem' : row' ∈ table) (hkey : key row = key row') : row = row' :=
  List.inj_on_of_nodup_map table.nodup hmem hmem' hkey

/-! ## Removing and changing rows -/

/-- Keep the rows that satisfy a test. -/
def filter (table : Table key) (keep : β → Bool) : Table key where
  rows := table.rows.filter keep
  nodup := table.nodup.sublist (List.filter_sublist.map key)

/-- The rows that are kept. -/
@[simp]
theorem mem_filter_iff {table : Table key} {keep : β → Bool} {row : β} :
    row ∈ table.filter keep ↔ row ∈ table ∧ keep row = true :=
  List.mem_filter

/-- Change all rows, each of which keeps its key. -/
def mapRows (table : Table key) (f : β → β) (hf : ∀ row, key (f row) = key row) : Table key where
  rows := table.rows.map f
  nodup := by
    have hkeys : (table.rows.map f).map key = table.rows.map key := by
      rw [List.map_map]
      exact List.map_congr_left fun row _ => hf row
    rw [hkeys]
    exact table.nodup

/-- The rows of a table that is changed row by row. -/
theorem mem_mapRows_iff {table : Table key} {f : β → β} (hf : ∀ row, key (f row) = key row)
    {row : β} : row ∈ table.mapRows f hf ↔ ∃ old ∈ table, f old = row :=
  List.mem_map

/-- Such a change leaves the keys. -/
theorem has_mapRows_iff {table : Table key} {f : β → β} (hf : ∀ row, key (f row) = key row)
    {k : α} : (table.mapRows f hf).Has k ↔ table.Has k := by
  constructor
  · rintro ⟨row, hmem, rfl⟩
    obtain ⟨old, hold, rfl⟩ := (mem_mapRows_iff hf).mp hmem
    exact ⟨old, hold, (hf old).symm⟩
  · rintro ⟨row, hmem, rfl⟩
    exact ⟨f row, (mem_mapRows_iff hf).mpr ⟨row, hmem, rfl⟩, hf row⟩

section Lookup

variable [DecidableEq α]

/-- The table without the row of a key. -/
def erase (table : Table key) (k : α) : Table key :=
  table.filter fun row => key row ≠ k

/-- All other rows are left. -/
@[simp]
theorem mem_erase_iff {table : Table key} {k : α} {row : β} :
    row ∈ table.erase k ↔ row ∈ table ∧ key row ≠ k := by
  simp [erase]

/-- Change the row under a key, if there is one; the change leaves the key alone. -/
def modify (table : Table key) (k : α) (f : β → β) (hf : ∀ row, key (f row) = key row) :
    Table key where
  rows := table.rows.map fun row => if key row = k then f row else row
  nodup := by
    have hkeys : (table.rows.map fun row => if key row = k then f row else row).map key =
        table.rows.map key := by
      rw [List.map_map]
      refine List.map_congr_left fun row _ => ?_
      by_cases hrow : key row = k
      · simp [hrow, hf]
      · simp [hrow]
    rw [hkeys]
    exact table.nodup

/-- One row is changed, the others are left. -/
theorem mem_modify_iff {table : Table key} {k : α} {f : β → β}
    (hf : ∀ row, key (f row) = key row) {row : β} :
    row ∈ table.modify k f hf ↔
      (row ∈ table ∧ key row ≠ k) ∨ ∃ old ∈ table, key old = k ∧ row = f old := by
  simp only [mem_def, modify, List.mem_map]
  constructor
  · rintro ⟨old, hmem, rfl⟩
    by_cases hold : key old = k
    · exact Or.inr ⟨old, hmem, hold, by simp [hold]⟩
    · exact Or.inl ⟨by simpa [hold] using hmem, by simp [hold]⟩
  · rintro (⟨hmem, hrow⟩ | ⟨old, hmem, hold, rfl⟩)
    · exact ⟨row, hmem, by simp [hrow]⟩
    · exact ⟨old, hmem, by simp [hold]⟩

/-- The keys are left. -/
theorem has_modify_iff {table : Table key} {k k' : α} {f : β → β}
    (hf : ∀ row, key (f row) = key row) : (table.modify k f hf).Has k' ↔ table.Has k' := by
  constructor
  · rintro ⟨row, hmem, rfl⟩
    rcases (mem_modify_iff hf).mp hmem with ⟨hold, -⟩ | ⟨old, hold, -, rfl⟩
    · exact has_of_mem hold
    · exact ⟨old, hold, (hf old).symm⟩
  · rintro ⟨row, hmem, rfl⟩
    by_cases hrow : key row = k
    · exact ⟨f row, (mem_modify_iff hf).mpr (Or.inr ⟨row, hmem, hrow, rfl⟩), hf row⟩
    · exact has_of_mem ((mem_modify_iff hf).mpr (Or.inl ⟨hmem, hrow⟩))

/-! ## Lookup and insertion -/

/-- The row of a key. -/
def find (table : Table key) (k : α) : Option β :=
  table.rows.find? fun row => key row = k

/-- The row that is found is the one with the key. -/
theorem find_eq_some_iff {table : Table key} {k : α} {row : β} :
    table.find k = some row ↔ row ∈ table ∧ key row = k := by
  constructor
  · intro h
    exact ⟨List.mem_of_find?_eq_some h, by simpa using List.find?_some h⟩
  · rintro ⟨hmem, rfl⟩
    cases hfind : table.find (key row) with
    | none =>
        have hmiss := List.find?_eq_none.mp hfind row hmem
        simp at hmiss
    | some other =>
        have hother : key other = key row := by simpa using List.find?_some hfind
        rw [eq_of_key_eq (List.mem_of_find?_eq_some hfind) hmem hother]

/-- No row is found where the table does not have the key. -/
theorem find_eq_none_iff {table : Table key} {k : α} : table.find k = none ↔ ¬ table.Has k := by
  simp only [find, List.find?_eq_none, decide_eq_true_eq, Has, not_exists, not_and]
  rfl

/-- Insert a row unless its key is taken. -/
def emplace (table : Table key) (row : β) : Table key :=
  if h : table.find (key row) = none then
    { rows := table.rows ++ [row]
      nodup := by
        have hfresh : key row ∉ table.rows.map key := by
          rintro hmem
          obtain ⟨old, hold, hkey⟩ := List.mem_map.mp hmem
          exact find_eq_none_iff.mp h ⟨old, hold, hkey⟩
        rw [List.map_append]
        exact List.nodup_append.mpr ⟨table.nodup, List.nodup_singleton _, by
          rintro k hk _ hk' rfl
          exact hfresh (List.mem_singleton.mp hk' ▸ hk)⟩ }
  else
    table

/-- A new row is there unless its key was. -/
theorem mem_emplace_iff {table : Table key} {new row : β} :
    row ∈ table.emplace new ↔ row ∈ table ∨ (row = new ∧ ¬ table.Has (key new)) := by
  rw [← find_eq_none_iff]
  unfold emplace
  split
  · next h => simp [mem_def, h]
  · next h => simp [h]

/-- Rows are left by {lit}`emplace`. -/
theorem mem_emplace_of_mem {table : Table key} {new row : β} (hmem : row ∈ table) :
    row ∈ table.emplace new :=
  mem_emplace_iff.mpr (Or.inl hmem)

/-- The key of the new row is there in any case. -/
theorem has_emplace_iff {table : Table key} {new : β} {k : α} :
    (table.emplace new).Has k ↔ table.Has k ∨ key new = k := by
  constructor
  · rintro ⟨row, hmem, rfl⟩
    rcases mem_emplace_iff.mp hmem with hold | ⟨rfl, -⟩
    · exact Or.inl (has_of_mem hold)
    · exact Or.inr rfl
  · rintro (⟨row, hmem, rfl⟩ | rfl)
    · exact has_of_mem (mem_emplace_of_mem hmem)
    · by_cases htaken : table.Has (key new)
      · obtain ⟨row, hmem, hkey⟩ := htaken
        exact ⟨row, mem_emplace_of_mem hmem, hkey⟩
      · exact has_of_mem (mem_emplace_iff.mpr (Or.inr ⟨rfl, htaken⟩))

/-- Insert a row in the place of the one under its key. -/
def insertOrAssign (table : Table key) (row : β) : Table key :=
  (table.erase (key row)).emplace row

/-- The new row takes the place of the one with its key. -/
theorem mem_insertOrAssign_iff {table : Table key} {new row : β} :
    row ∈ table.insertOrAssign new ↔ row = new ∨ (row ∈ table ∧ key row ≠ key new) := by
  have hfree : ¬ (table.erase (key new)).Has (key new) := by
    rintro ⟨old, hold, hkey⟩
    exact (mem_erase_iff.mp hold).2 hkey
  simp only [insertOrAssign, mem_emplace_iff, mem_erase_iff]
  constructor
  · rintro (hold | ⟨heq, -⟩)
    · exact Or.inr hold
    · exact Or.inl heq
  · rintro (heq | hold)
    · exact Or.inr ⟨heq, hfree⟩
    · exact Or.inl hold

/-- The key of the new row is there in any case. -/
theorem has_insertOrAssign_iff {table : Table key} {new : β} {k : α} :
    (table.insertOrAssign new).Has k ↔ table.Has k ∨ key new = k := by
  constructor
  · rintro ⟨row, hmem, hkey⟩
    rcases mem_insertOrAssign_iff.mp hmem with rfl | ⟨hold, -⟩
    · exact Or.inr hkey
    · exact Or.inl ⟨row, hold, hkey⟩
  · intro h
    by_cases hnew : key new = k
    · exact ⟨new, mem_insertOrAssign_iff.mpr (Or.inl rfl), hnew⟩
    · obtain ⟨row, hmem, rfl⟩ := h.resolve_right hnew
      exact ⟨row, mem_insertOrAssign_iff.mpr (Or.inr ⟨hmem, Ne.symm hnew⟩), rfl⟩

/-- The new row is found under its key. -/
theorem find_insertOrAssign (table : Table key) (row : β) (k : α) :
    (table.insertOrAssign row).find k = if k = key row then some row else table.find k := by
  split
  · next hk =>
      exact find_eq_some_iff.mpr ⟨mem_insertOrAssign_iff.mpr (Or.inl rfl), hk.symm⟩
  · next hk =>
      cases hfind : table.find k with
      | none =>
          rw [find_eq_none_iff, has_insertOrAssign_iff]
          rintro (hold | hnew)
          · exact find_eq_none_iff.mp hfind hold
          · exact hk hnew.symm
      | some old =>
          obtain ⟨hmem, hold⟩ := find_eq_some_iff.mp hfind
          refine find_eq_some_iff.mpr ⟨mem_insertOrAssign_iff.mpr (Or.inr ⟨hmem, ?_⟩), hold⟩
          rw [hold]
          exact hk

/-- Assign rows one after the other. -/
def insertOrAssignAll (table : Table key) (rows : List β) : Table key :=
  rows.foldl insertOrAssign table

/-- Rows may be inserted in two parts. -/
theorem insertOrAssignAll_append (table : Table key) (rows rows' : List β) :
    table.insertOrAssignAll (rows ++ rows') =
      (table.insertOrAssignAll rows).insertOrAssignAll rows' :=
  List.foldl_append

/-- The keys of all rows are there. -/
theorem has_insertOrAssignAll_iff {table : Table key} {rows : List β} {k : α} :
    (table.insertOrAssignAll rows).Has k ↔ table.Has k ∨ ∃ row ∈ rows, key row = k := by
  induction rows generalizing table with
  | nil => simp [insertOrAssignAll]
  | cons new rest ih =>
      have hrest : (table.insertOrAssignAll (new :: rest)).Has k ↔
          (table.insertOrAssign new).Has k ∨ ∃ row ∈ rest, key row = k := ih
      rw [hrest, has_insertOrAssign_iff, List.exists_mem_cons_iff, or_assoc]

/-- A row after some were assigned is one of them, or is in nobody's way. -/
theorem mem_insertOrAssignAll {table : Table key} {rows : List β} {row : β}
    (hmem : row ∈ table.insertOrAssignAll rows) :
    row ∈ rows ∨ (row ∈ table ∧ ∀ other ∈ rows, key row ≠ key other) := by
  induction rows generalizing table with
  | nil => exact Or.inr ⟨hmem, by simp⟩
  | cons new rest ih =>
      rcases ih hmem with hrest | ⟨hmid, hothers⟩
      · exact Or.inl (List.mem_cons_of_mem _ hrest)
      · rcases mem_insertOrAssign_iff.mp hmid with rfl | ⟨hold, hkey⟩
        · exact Or.inl List.mem_cons_self
        · exact Or.inr ⟨hold, List.forall_mem_cons.mpr ⟨hkey, hothers⟩⟩

/-- A row stays where it is the only one to be assigned under its key. -/
theorem mem_insertOrAssignAll_of_only {table : Table key} {rows : List β} {row : β}
    (hmem : row ∈ table ∨ row ∈ rows) (honly : ∀ other ∈ rows, key other = key row → other = row) :
    row ∈ table.insertOrAssignAll rows := by
  induction rows generalizing table with
  | nil => exact hmem.resolve_right List.not_mem_nil
  | cons new rest ih =>
      obtain ⟨hnew, hrest⟩ := List.forall_mem_cons.mp honly
      refine ih ?_ hrest
      rw [mem_insertOrAssign_iff]
      rcases hmem with hold | hmem
      · by_cases hkey : key new = key row
        · exact Or.inl (Or.inl (hnew hkey).symm)
        · exact Or.inl (Or.inr ⟨hold, Ne.symm hkey⟩)
      · rcases List.mem_cons.mp hmem with rfl | hlater
        · exact Or.inl (Or.inl rfl)
        · exact Or.inr hlater

/-- The same where it is the only one from some point on. -/
theorem mem_insertOrAssignAll_append {table : Table key} {before after : List β} {row : β}
    (hmem : row ∈ after) (honly : ∀ other ∈ after, key other = key row → other = row) :
    row ∈ table.insertOrAssignAll (before ++ after) := by
  rw [insertOrAssignAll_append]
  exact mem_insertOrAssignAll_of_only (Or.inr hmem) honly

/-- Insert rows one after the other. -/
def emplaceAll (table : Table key) (rows : List β) : Table key :=
  rows.foldl emplace table

/-- Nothing is emplaced. -/
@[simp]
theorem emplaceAll_nil (table : Table key) : table.emplaceAll [] = table := rfl

/-- The first row is emplaced first. -/
@[simp]
theorem emplaceAll_cons (table : Table key) (row : β) (rows : List β) :
    table.emplaceAll (row :: rows) = (table.emplace row).emplaceAll rows := rfl

/-- Rows may be emplaced in two parts. -/
theorem emplaceAll_append (table : Table key) (rows rows' : List β) :
    table.emplaceAll (rows ++ rows') = (table.emplaceAll rows).emplaceAll rows' :=
  List.foldl_append

/-- Rows are left by {lit}`emplaceAll`. -/
theorem mem_emplaceAll_of_mem {table : Table key} {rows : List β} {row : β} (hmem : row ∈ table) :
    row ∈ table.emplaceAll rows := by
  induction rows generalizing table with
  | nil => exact hmem
  | cons new rest ih => exact ih (mem_emplace_of_mem hmem)

/-- A row found after a bulk insertion was there or is new under its key. -/
theorem mem_emplaceAll {table : Table key} {rows : List β} {row : β}
    (hmem : row ∈ table.emplaceAll rows) :
    row ∈ table ∨ (row ∈ rows ∧ ¬ table.Has (key row)) := by
  induction rows generalizing table with
  | nil => exact Or.inl hmem
  | cons new rest ih =>
      rcases ih hmem with hmid | ⟨hrest, hfresh⟩
      · rcases mem_emplace_iff.mp hmid with hold | ⟨rfl, hfresh⟩
        · exact Or.inl hold
        · exact Or.inr ⟨List.mem_cons_self .., hfresh⟩
      · refine Or.inr ⟨List.mem_cons_of_mem _ hrest, fun htaken => hfresh ?_⟩
        exact has_emplace_iff.mpr (Or.inl htaken)

/-- The keys of all rows are there. -/
theorem has_emplaceAll_iff {table : Table key} {rows : List β} {k : α} :
    (table.emplaceAll rows).Has k ↔ table.Has k ∨ ∃ row ∈ rows, key row = k := by
  induction rows generalizing table with
  | nil => simp
  | cons new rest ih => simp [ih, has_emplace_iff, or_assoc]

/-- Rows with distinct, new keys are all inserted. -/
theorem mem_emplaceAll_of_nodup {table : Table key} {rows : List β}
    (hnodup : (rows.map key).Nodup) (hfresh : ∀ row ∈ rows, ¬ table.Has (key row)) {row : β}
    (hmem : row ∈ rows) : row ∈ table.emplaceAll rows := by
  have htaken : (table.emplaceAll rows).Has (key row) :=
    has_emplaceAll_iff.mpr (Or.inr ⟨row, hmem, rfl⟩)
  obtain ⟨found, hfound, hkey⟩ := htaken
  rcases mem_emplaceAll hfound with hold | ⟨hnew, -⟩
  · exact absurd ⟨found, hold, hkey⟩ (hfresh row hmem)
  · rw [← List.inj_on_of_nodup_map hnodup hnew hmem hkey]
    exact hfound

/-- Rows with distinct, new keys come after the others, in their order. -/
theorem rows_emplaceAll_of_nodup {table : Table key} {rows : List β}
    (hnodup : (rows.map key).Nodup) (hfresh : ∀ row ∈ rows, ¬ table.Has (key row)) :
    (table.emplaceAll rows).rows = table.rows ++ rows := by
  induction rows generalizing table with
  | nil => simp
  | cons new rest ih =>
      rw [List.map_cons, List.nodup_cons] at hnodup
      have hfree : table.find (key new) = none :=
        find_eq_none_iff.mpr (hfresh new List.mem_cons_self)
      have hnew : (table.emplace new).rows = table.rows ++ [new] := by
        unfold emplace
        rw [dif_pos hfree]
      have hrest : ∀ row ∈ rest, ¬ (table.emplace new).Has (key row) := by
        intro row hrow htaken
        cases has_emplace_iff.mp htaken with
        | inl hold => exact hfresh row (List.mem_cons_of_mem _ hrow) hold
        | inr hkey => exact hnodup.1 (hkey ▸ List.mem_map_of_mem hrow)
      rw [emplaceAll_cons, ih hnodup.2 hrest, hnew, List.append_assoc]
      rfl

/-- Rows whose keys are taken change nothing. -/
theorem emplaceAll_of_has {table : Table key} {rows : List β}
    (htaken : ∀ row ∈ rows, table.Has (key row)) : table.emplaceAll rows = table := by
  induction rows with
  | nil => rfl
  | cons new rest ih =>
      have hnew : table.emplace new = table := by
        apply dif_neg
        intro hfree
        exact find_eq_none_iff.mp hfree (htaken new List.mem_cons_self)
      rw [emplaceAll_cons, hnew]
      exact ih fun row hrow => htaken row (List.mem_cons_of_mem _ hrow)

end Lookup

end Table
end Library
