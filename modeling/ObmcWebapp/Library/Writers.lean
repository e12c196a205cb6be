import Mathlib.Tactic.Common

/-!
# Library - Writers over a store

A store maps keys to values, and a writer decides from the store what it writes into
it; one that raises ends the writers after it.  A store that earlier writes have
changed is covered when the writers that run next decide as on the unchanged one and
write every key that differs: what they leave does then not show the earlier writes.

Main results:

- Theorem {lit}`runWriters_eq`: the writers together are one writer.
- Theorem {lit}`Covered.runWriters_eq`: a covered store is left as the unchanged one is.
- Theorem {lit}`Covered.again`: writers that would write the same again keep a store covered.
- Theorem {lit}`Covered.of_resets`: writers cover what they reset and do not look at before.
-/

namespace Library

variable {κ ν δ : Type}

/-- What is stored under each key, if anything. -/
abbrev Store (κ ν : Type) := κ → Option ν

/-- What a writer writes, and the exception with which it ends. -/
structure Effect (κ ν δ : Type) where
  written : Store κ ν
  raised : Option δ

/-- What is written is decided from the store. -/
abbrev Writer (κ ν δ : Type) := Store κ ν → Effect κ ν δ

namespace Store

/-- What is written goes before what was there. -/
def write (store written : Store κ ν) : Store κ ν :=
  fun key => (written key).or (store key)

variable {store own written later : Store κ ν} {key : κ}

/-- The value of a key after a write. -/
@[simp] theorem write_apply : store.write written key = (written key).or (store key) :=
  rfl

/-- Two writes are one. -/
theorem write_write : (store.write written).write later = store.write (written.write later) := by
  ext key : 1
  exact Option.or_assoc.symm

/-- Stores that differ only where something is written are the same afterwards. -/
theorem write_eq_of_written (h : ∀ key, store key ≠ own key → written key ≠ none) :
    store.write written = own.write written := by
  ext key : 1
  cases hwritten : written key with
  | some value => simp [hwritten]
  | none =>
      have hsame : store key = own key := by
        by_contra hne
        exact h key hne hwritten
      simp [hwritten, hsame]

/-- Stores that a write makes the same differed only in what is written. -/
theorem written_of_write_eq (h : store.write written = own.write written)
    (hne : store key ≠ own key) : written key ≠ none := by
  intro hnone
  have hkey := congrFun h key
  simp only [write_apply, hnone, Option.none_or] at hkey
  exact hne hkey

/-- A key that differs after a write was written or differed before. -/
theorem written_or_ne_of_write_ne (h : store.write written key ≠ own key) :
    written key ≠ none ∨ store key ≠ own key := by
  cases hwritten : written key with
  | some value => exact Or.inl (Option.some_ne_none value)
  | none =>
      right
      simpa [hwritten] using h

end Store

/-! ## Writers one after the other -/

/-- The writers in their order, up to the first that raises. -/
def runWriters : List (Writer κ ν δ) → Store κ ν → Store κ ν × Option δ
  | [], store => (store, none)
  | writer :: rest, store =>
      let effect := writer store
      match effect.raised with
      | some exception => (store.write effect.written, some exception)
      | none => runWriters rest (store.write effect.written)

/-- The writers as one. -/
def together : List (Writer κ ν δ) → Writer κ ν δ
  | [], _ => ⟨fun _ => none, none⟩
  | writer :: rest, store =>
      let effect := writer store
      match effect.raised with
      | some exception => ⟨effect.written, some exception⟩
      | none =>
          let later := together rest (store.write effect.written)
          ⟨effect.written.write later.written, later.raised⟩

variable {writers : List (Writer κ ν δ)} {store own : Store κ ν}

/-- The writers as one write. -/
theorem runWriters_eq : runWriters writers store =
    (store.write (together writers store).written, (together writers store).raised) := by
  induction writers generalizing store with
  | nil => rfl
  | cons writer rest ih =>
      rw [runWriters, together]
      cases (writer store).raised with
      | some exception => rfl
      | none => exact ih.trans (by rw [Store.write_write])

/-- Writers that all return leave to the later ones what they have written. -/
theorem runWriters_append {earlier later : List (Writer κ ν δ)} {store left : Store κ ν}
    (h : runWriters (earlier ++ later) store = (left, none)) :
    ∃ between, runWriters earlier store = (between, none) ∧
      runWriters later between = (left, none) := by
  induction earlier generalizing store with
  | nil => exact ⟨store, rfl, h⟩
  | cons writer rest ih =>
      rw [List.cons_append, runWriters] at h
      rw [runWriters]
      cases hraised : (writer store).raised with
      | some exception => simp [hraised] at h
      | none =>
          rw [hraised] at h
          exact ih h

/-- A single writer that returns leaves what it writes. -/
theorem runWriters_singleton {writer : Writer κ ν δ} {store left : Store κ ν}
    (h : runWriters [writer] store = (left, none)) :
    (writer store).raised = none ∧ left = store.write (writer store).written := by
  rw [runWriters] at h
  cases hraised : (writer store).raised with
  | some exception => simp [hraised] at h
  | none =>
      rw [hraised] at h
      exact ⟨rfl, (congrArg Prod.fst h).symm⟩

/-- A key that no writer writes is as it was. -/
theorem runWriters_other {writers : List (Writer κ ν δ)} {store : Store κ ν} {key : κ}
    (h : ∀ writer ∈ writers, ∀ store, (writer store).written key = none) :
    (runWriters writers store).1 key = store key := by
  induction writers generalizing store with
  | nil => rfl
  | cons writer rest ih =>
      obtain ⟨hfirst, hrest⟩ := List.forall_mem_cons.mp h
      have hwritten : store.write (writer store).written key = store key := by
        rw [Store.write_apply, hfirst, Option.none_or]
      rw [runWriters]
      cases (writer store).raised with
      | some exception => exact hwritten
      | none => exact (ih hrest).trans hwritten

/-- A key that has one of some values keeps one of them under writers that write no other. -/
theorem runWriters_keep {writers : List (Writer κ ν δ)} {store : Store κ ν} {key : κ}
    {P : ν → Prop} (hstore : ∃ value, store key = some value ∧ P value)
    (h : ∀ writer ∈ writers, ∀ store value, (writer store).written key = some value → P value) :
    ∃ value, (runWriters writers store).1 key = some value ∧ P value := by
  induction writers generalizing store with
  | nil => exact hstore
  | cons writer rest ih =>
      obtain ⟨hfirst, hrest⟩ := List.forall_mem_cons.mp h
      have hwritten : ∃ value, store.write (writer store).written key = some value ∧ P value := by
        rw [Store.write_apply]
        cases hvalue : (writer store).written key with
        | none => rwa [Option.none_or]
        | some value => exact ⟨value, Option.some_or, hfirst store value hvalue⟩
      rw [runWriters]
      cases (writer store).raised with
      | some exception => exact hwritten
      | none => exact ih hwritten hrest

/-- A key that one of the writers always writes, and that no writer writes otherwise, has one of
the values after all have run. -/
theorem runWriters_given {writers : List (Writer κ ν δ)} {store left : Store κ ν} {key : κ}
    {P : ν → Prop} (hreturns : runWriters writers store = (left, none))
    (h : ∀ writer ∈ writers, ∀ store value, (writer store).written key = some value → P value)
    (hone : ∃ writer ∈ writers, ∀ store, (writer store).written key ≠ none) :
    ∃ value, left key = some value ∧ P value := by
  obtain ⟨writer, hmem, hwrites⟩ := hone
  obtain ⟨before, after, rfl⟩ := List.append_of_mem hmem
  obtain ⟨between, -, hnext⟩ := runWriters_append hreturns
  obtain ⟨value, hvalue⟩ := Option.ne_none_iff_exists'.mp (hwrites between)
  have hwritten : ∃ value, between.write (writer between).written key = some value ∧ P value :=
    ⟨value, by rw [Store.write_apply, hvalue, Option.some_or], h writer hmem between value hvalue⟩
  rw [runWriters] at hnext
  cases hraised : (writer between).raised with
  | some exception => simp [hraised] at hnext
  | none =>
      rw [hraised] at hnext
      obtain ⟨last, hlast, hholds⟩ := runWriters_keep hwritten fun later hlater =>
        h later (List.mem_append_right before (List.mem_cons_of_mem writer hlater))
      exact ⟨last, (congrArg (fun run => run.1 key) hnext).symm.trans hlast, hholds⟩

/-- The writer writes the same into every store and does not raise. -/
def Constant (writer : Writer κ ν δ) : Prop :=
  ∃ written, writer = fun _ => ⟨written, none⟩

/-- Constant writers are constant together. -/
theorem together_constant (h : ∀ writer ∈ writers, Constant writer) :
    ∃ written, together writers = fun _ => ⟨written, none⟩ := by
  induction writers with
  | nil => exact ⟨fun _ => none, rfl⟩
  | cons writer rest ih =>
      obtain ⟨⟨first, rfl⟩, hrest⟩ := List.forall_mem_cons.mp h
      obtain ⟨later, hlater⟩ := ih hrest
      refine ⟨first.write later, ?_⟩
      funext store
      simp only [together, hlater]

/-! ## Covered stores -/

/-- A store beside the unchanged one, up to what the writers write. -/
structure Covered (writers : List (Writer κ ν δ)) (store own : Store κ ν) : Prop where
  alike : together writers store = together writers own
  written : ∀ key, store key ≠ own key → (together writers own).written key ≠ none

namespace Covered

/-- The unchanged store is covered. -/
theorem refl (writers : List (Writer κ ν δ)) (store : Store κ ν) : Covered writers store store where
  alike := rfl
  written := fun _ hne => absurd rfl hne

/-- What is left of a covered store. -/
theorem runWriters_eq (h : Covered writers store own) :
    runWriters writers store = runWriters writers own := by
  rw [Library.runWriters_eq, Library.runWriters_eq, h.alike, Store.write_eq_of_written h.written]

/-- Constant writers cover a store that they leave like the unchanged one. -/
theorem of_constant (hconstant : ∀ writer ∈ writers, Constant writer)
    (h : runWriters writers store = runWriters writers own) : Covered writers store own := by
  obtain ⟨written, htogether⟩ := together_constant hconstant
  rw [Library.runWriters_eq, Library.runWriters_eq, htogether] at h
  constructor
  · rw [htogether]
  · intro key hne
    rw [htogether]
    exact Store.written_of_write_eq (congrArg Prod.fst h) hne

/-- Constant writers still cover a store after the same is written into both. -/
theorem write (hconstant : ∀ writer ∈ writers, Constant writer) (h : Covered writers store own)
    (written : Store κ ν) : Covered writers (store.write written) (own.write written) := by
  obtain ⟨later, htogether⟩ := together_constant hconstant
  constructor
  · rw [htogether]
  · intro key hne
    have hcovered := h.written key fun hsame => hne (by simp [hsame])
    rw [htogether] at hcovered ⊢
    exact hcovered

/-- Writers that would write the same again keep the store covered. -/
theorem again (h : Covered writers store own)
    (hstable : together writers (runWriters writers store).1 = together writers store) :
    Covered writers (runWriters writers store).1 own where
  alike := hstable.trans h.alike
  written := by
    intro key hne
    rw [Library.runWriters_eq] at hne
    cases Store.written_or_ne_of_write_ne hne with
    | inl hwritten => exact h.alike ▸ hwritten
    | inr hbefore => exact h.written key hbefore

end Covered

/-! ## Writers that reset -/

/-- The writer looks at some keys alone. -/
def Reads (keys : κ → Prop) (writer : Writer κ ν δ) : Prop :=
  ∀ store own, (∀ key, keys key → store key = own key) → writer store = writer own

/-- The writer writes the key into every store, unless it raises. -/
def Resets (writer : Writer κ ν δ) (key : κ) : Prop :=
  ∀ store, (writer store).raised = none → (writer store).written key ≠ none

/-- Each writer looks at fixed keys, and at those that a writer before it resets. -/
def ReadsFixed : (κ → Prop) → List (Writer κ ν δ) → Prop
  | _, [] => True
  | fixed, writer :: rest =>
      Reads fixed writer ∧ ReadsFixed (fun key => fixed key ∨ Resets writer key) rest

/-- A constant writer looks at nothing. -/
theorem Constant.reads {writer : Writer κ ν δ} (h : Constant writer) (keys : κ → Prop) :
    Reads keys writer := by
  obtain ⟨written, rfl⟩ := h
  exact fun _ _ _ => rfl

/-- Writers decide alike on stores with the same fixed keys. -/
theorem ReadsFixed.together_eq {fixed : κ → Prop} (h : ReadsFixed fixed writers)
    (hsame : ∀ key, fixed key → store key = own key) :
    together writers store = together writers own := by
  induction writers generalizing fixed store own with
  | nil => rfl
  | cons writer rest ih =>
      obtain ⟨hreads, hrest⟩ := h
      have heffect : writer store = writer own := hreads store own hsame
      rw [together, together, heffect]
      cases hraised : (writer own).raised with
      | some exception => rfl
      | none =>
          have hlater : together rest (store.write (writer own).written) =
              together rest (own.write (writer own).written) := by
            apply ih hrest
            rintro key (hfixed | hreset)
            · rw [Store.write_apply, Store.write_apply, hsame key hfixed]
            · obtain ⟨value, hvalue⟩ := Option.ne_none_iff_exists'.mp (hreset own hraised)
              rw [Store.write_apply, Store.write_apply, hvalue, Option.some_or, Option.some_or]
          simp only [hlater]

/-- What one of the writers resets is written where none raises. -/
theorem together_written_of_resets {writer : Writer κ ν δ} {key : κ} (hwriter : writer ∈ writers)
    (hreset : Resets writer key) (hreturns : (together writers store).raised = none) :
    (together writers store).written key ≠ none := by
  induction writers generalizing store with
  | nil => exact absurd hwriter List.not_mem_nil
  | cons first rest ih =>
      rw [together] at hreturns ⊢
      cases hraised : (first store).raised with
      | some exception => simp [hraised] at hreturns
      | none =>
          simp only [hraised] at hreturns
          simp only [Store.write_apply, ne_eq, Option.or_eq_none_iff, not_and_or]
          rcases List.mem_cons.mp hwriter with rfl | hlater
          · exact Or.inr (hreset store hraised)
          · exact Or.inl (ih hlater hreturns)

/-- Stores that differ only in what is reset, and not in what is fixed. -/
theorem Covered.of_resets {fixed : κ → Prop} (hreads : ReadsFixed fixed writers)
    (hreturns : (together writers own).raised = none)
    (hsame : ∀ key, fixed key → store key = own key)
    (hreset : ∀ key, store key ≠ own key → ∃ writer ∈ writers, Resets writer key) :
    Covered writers store own where
  alike := hreads.together_eq hsame
  written := by
    intro key hne
    obtain ⟨writer, hwriter, hresets⟩ := hreset key hne
    exact together_written_of_resets hwriter hresets hreturns

end Library
