import Mathlib.Data.List.Induction
import Mathlib.Data.List.Nodup
import Mathlib.Data.List.Perm.Basic
import Mathlib.Logic.Function.Basic
import ObmcWebapp.Library.Writers

/-!
# Library - Setters of a dictionary

Each setter of a dictionary computes a value from the whole store and writes it under its
own key; one that raises ends the run.  The dictionary is run in any order of its
setters.

Main results:

- Theorem {lit}`runSetters_same_iff`: when all orders leave the same store.
-/

namespace Library

variable {κ ν δ : Type}

/-- A setter finds the value of its key in a store, or raises. -/
structure Setter (κ ν δ : Type) where
  key : κ
  value : Store κ ν → Except δ ν

/-- The setter raises, or it would write what is there. -/
def Setter.Idle (setter : Setter κ ν δ) (store : Store κ ν) : Prop :=
  ∀ value, setter.value store = .ok value → store setter.key = some value

/-- The order of the setters does not matter for their keys. -/
theorem nodup_order {setters order : List (Setter κ ν δ)}
    (hnodup : (setters.map Setter.key).Nodup) (horder : order.Perm setters) :
    (order.map Setter.key).Nodup :=
  (horder.map Setter.key).nodup_iff.mpr hnodup

/-- An order of mapped elements comes from an order of the elements. -/
theorem exists_order_of_map {α β : Type} {f : α → β} {items : List α} {order : List β}
    (h : order.Perm (items.map f)) : ∃ items' : List α, items'.Perm items ∧ items'.map f = order := by
  induction order generalizing items with
  | nil =>
      rw [List.nil_perm, List.map_eq_nil_iff] at h
      exact ⟨[], by rw [h], rfl⟩
  | cons x order ih =>
      obtain ⟨item, hmem, rfl⟩ := List.mem_map.mp (h.mem_iff.mp List.mem_cons_self)
      obtain ⟨before, after, rfl⟩ := List.append_of_mem hmem
      have hrest : order.Perm ((before ++ after).map f) := by
        apply (List.perm_cons (f item)).mp
        refine h.trans ?_
        rw [← List.map_cons]
        exact List.perm_middle.map f
      obtain ⟨items', hperm, hmap⟩ := ih hrest
      exact ⟨item :: items', (hperm.cons item).trans List.perm_middle.symm, by rw [List.map_cons, hmap]⟩

variable [DecidableEq κ]

/-- The setters one after the other, up to the first that raises. -/
def runSetters : List (Setter κ ν δ) → Store κ ν → Store κ ν × Option δ
  | [], store => (store, none)
  | setter :: rest, store =>
      match setter.value store with
      | .error exception => (store, some exception)
      | .ok value => runSetters rest (Function.update store setter.key (some value))

/-- A store with the value that a setter gives at the start. -/
def give (start reached : Store κ ν) (setter : Setter κ ν δ) : Store κ ν :=
  match setter.value start with
  | .error _ => reached
  | .ok value => Function.update reached setter.key (some value)

/-- The store with all values that some setters give at the start. -/
def given (start : Store κ ν) (setters : List (Setter κ ν δ)) : Store κ ν :=
  setters.foldl (give start) start

/-- A setter gives after the values of those before it what it gives at the start; or it
raises there, and neither it nor those after it would change the store. -/
def Steady (start : Store κ ν) (before : List (Setter κ ν δ)) (setter : Setter κ ν δ)
    (after : List (Setter κ ν δ)) : Prop :=
  (∃ value, setter.value start = .ok value ∧ setter.value (given start before) = .ok value) ∨
    ((∃ exception, setter.value (given start before) = .error exception) ∧
      ∀ later ∈ setter :: after, later.Idle start)

/-- Every setter is steady, in every order. -/
def Undisturbed (setters : List (Setter κ ν δ)) (start : Store κ ν) : Prop :=
  ∀ before setter after, (before ++ setter :: after).Perm setters →
    Steady start before setter after

variable {setters before after rest : List (Setter κ ν δ)} {setter : Setter κ ν δ}
  {start store reached : Store κ ν} {key : κ} {value : ν}

/-! ## Values at the start -/

/-- The last setter gives last. -/
theorem given_snoc : given start (before ++ [setter]) = give start (given start before) setter := by
  simp [given]

/-- A setter that returns gives its value. -/
theorem give_of_ok (hvalue : setter.value start = .ok value) :
    give start reached setter = Function.update reached setter.key (some value) := by
  simp only [give, hvalue]

/-- A key without a setter is as it was reached. -/
theorem foldl_give_of_not_mem (hkey : key ∉ setters.map Setter.key) :
    setters.foldl (give start) reached key = reached key := by
  induction setters generalizing reached with
  | nil => rfl
  | cons setter rest ih =>
      rw [List.map_cons, List.mem_cons, not_or] at hkey
      rw [List.foldl_cons, ih hkey.2]
      cases hvalue : setter.value start with
      | error exception => simp only [give, hvalue]
      | ok value => rw [give_of_ok hvalue, Function.update_of_ne hkey.1]

/-- A key without a setter is as it was at the start. -/
theorem given_of_not_mem (hkey : key ∉ setters.map Setter.key) :
    given start setters key = start key :=
  foldl_give_of_not_mem hkey

/-- The values of idle setters change nothing. -/
theorem given_snoc_idle (hkey : setter.key ∉ before.map Setter.key) (hidle : setter.Idle start) :
    given start (before ++ [setter]) = given start before := by
  rw [given_snoc]
  cases hvalue : setter.value start with
  | error exception => simp only [give, hvalue]
  | ok value =>
      have hsame : given start before setter.key = some value :=
        (given_of_not_mem hkey).trans (hidle value hvalue)
      rw [give_of_ok hvalue, ← hsame, Function.update_eq_self]

/-- Setters that would leave the start change nothing. -/
theorem given_append_idle (hnodup : ((before ++ rest).map Setter.key).Nodup)
    (hidle : ∀ setter ∈ rest, setter.Idle start) :
    given start (before ++ rest) = given start before := by
  induction rest generalizing before with
  | nil => rw [List.append_nil]
  | cons setter rest ih =>
      obtain ⟨hsetter, hrest⟩ := List.forall_mem_cons.mp hidle
      have hsplit : before ++ setter :: rest = (before ++ [setter]) ++ rest := by simp
      have hkey : setter.key ∉ before.map Setter.key := by
        rw [List.map_append, List.nodup_append] at hnodup
        intro hmem
        exact hnodup.2.2 _ hmem _ (by simp) rfl
      rw [hsplit] at hnodup ⊢
      rw [ih hnodup hrest, given_snoc_idle hkey hsetter]

/-- The value of a key is given by its setter. -/
theorem given_of_mem (hnodup : (setters.map Setter.key).Nodup) (hmem : setter ∈ setters) :
    given start setters setter.key = give start start setter setter.key := by
  obtain ⟨before, after, rfl⟩ := List.append_of_mem hmem
  rw [List.map_append, List.map_cons, List.nodup_append] at hnodup
  have hafter : setter.key ∉ after.map Setter.key := (List.nodup_cons.mp hnodup.2.1).1
  have hbefore : setter.key ∉ before.map Setter.key := by
    intro hkey
    exact hnodup.2.2 _ hkey _ List.mem_cons_self rfl
  rw [given, List.foldl_append, List.foldl_cons, foldl_give_of_not_mem hafter]
  cases hvalue : setter.value start with
  | error exception =>
      simp only [give, hvalue]
      exact foldl_give_of_not_mem hbefore
  | ok value => simp only [give_of_ok hvalue, Function.update_self]

/-! ## Runs -/

/-- A setter that returns leaves its value to the others. -/
theorem runSetters_of_ok (hvalue : setter.value store = .ok value) :
    runSetters (setter :: rest) store =
      runSetters rest (Function.update store setter.key (some value)) := by
  simp only [runSetters, hvalue]

/-- A setter that raises ends the run. -/
theorem runSetters_of_error {exception : δ} (hvalue : setter.value store = .error exception) :
    runSetters (setter :: rest) store = (store, some exception) := by
  simp only [runSetters, hvalue]

/-- Setters that all return leave their store to the others. -/
theorem runSetters_append (h : runSetters before store = (reached, none)) :
    runSetters (before ++ rest) store = runSetters rest reached := by
  induction before generalizing store with
  | nil =>
      cases h
      rfl
  | cons setter before ih =>
      cases hvalue : setter.value store with
      | error exception =>
          rw [runSetters_of_error hvalue] at h
          cases h
      | ok value =>
          rw [runSetters_of_ok hvalue] at h
          rw [List.cons_append, runSetters_of_ok hvalue, ih h]

/-- A run writes under the keys of its setters alone. -/
theorem runSetters_of_not_mem (hkey : key ∉ setters.map Setter.key) :
    (runSetters setters store).1 key = store key := by
  induction setters generalizing store with
  | nil => rfl
  | cons setter rest ih =>
      rw [List.map_cons, List.mem_cons, not_or] at hkey
      cases hvalue : setter.value store with
      | error exception => rw [runSetters_of_error hvalue]
      | ok value =>
          rw [runSetters_of_ok hvalue, ih hkey.2]
          exact Function.update_of_ne hkey.1 ..

/-- A run whose next setter returns leaves its value. -/
theorem runSetters_key (hnodup : ((setter :: rest).map Setter.key).Nodup)
    (hvalue : setter.value store = .ok value) :
    (runSetters (setter :: rest) store).1 setter.key = some value := by
  rw [runSetters_of_ok hvalue, runSetters_of_not_mem (List.nodup_cons.mp hnodup).1,
    Function.update_self]

/-! ## All orders -/

/-- Setters of which each is undisturbed by those before it all return. -/
theorem runSetters_completes {setters : List (Setter κ ν δ)}
    (hreturns : ∀ before setter after, setters = before ++ setter :: after →
      ∃ value, setter.value start = .ok value ∧
        setter.value (given start before) = .ok value) :
    runSetters setters start = (given start setters, none) := by
  induction setters using List.reverseRecOn with
  | nil => rfl
  | append_singleton setters setter ih =>
      obtain ⟨value, hstart, hreached⟩ := hreturns setters setter [] rfl
      have hearlier := ih fun before other after hsplit =>
        hreturns before other (after ++ [setter]) (by rw [hsplit]; simp)
      rw [runSetters_append hearlier, runSetters_of_ok hreached, given_snoc, give_of_ok hstart]
      rfl

section

variable (hnodup : (setters.map Setter.key).Nodup)
include hnodup

/-- The values at the start do not depend on the order. -/
theorem given_order {order : List (Setter κ ν δ)} (horder : order.Perm setters) :
    given start order = given start setters := by
  funext key
  by_cases hkey : key ∈ setters.map Setter.key
  · obtain ⟨setter, hmem, rfl⟩ := List.mem_map.mp hkey
    rw [given_of_mem hnodup hmem,
      given_of_mem (nodup_order hnodup horder) (horder.mem_iff.mpr hmem)]
  · rw [given_of_not_mem hkey, given_of_not_mem (mt (horder.map Setter.key).mem_iff.mp hkey)]

/-- Undisturbed setters leave their values at the start, in every order. -/
theorem runSetters_of_undisturbed (hundisturbed : Undisturbed setters start)
    (horder : (before ++ rest).Perm setters) :
    (runSetters rest (given start before)).1 = given start setters := by
  rw [← given_order hnodup horder]
  induction rest generalizing before with
  | nil => rw [runSetters, List.append_nil]
  | cons setter rest ih =>
      rcases hundisturbed before setter rest horder with
        ⟨value, hstart, hreached⟩ | ⟨⟨exception, hreached⟩, hidle⟩
      · have hsplit : before ++ setter :: rest = (before ++ [setter]) ++ rest := by simp
        rw [runSetters_of_ok hreached, ← give_of_ok hstart, ← given_snoc, hsplit]
        exact ih (hsplit ▸ horder)
      · rw [runSetters_of_error hreached, given_append_idle (nodup_order hnodup horder) hidle]

/-- Where all orders leave the same, and not every setter is idle, none raises at the start
and all leave what they give there. -/
theorem same_key (hsame : ∀ order other : List (Setter κ ν δ), order.Perm setters →
      other.Perm setters → (runSetters order start).1 = (runSetters other start).1)
    (hbusy : ¬ ∀ setter ∈ setters, setter.Idle start) (hmem : setter ∈ setters) :
    ∃ value, setter.value start = .ok value ∧
      ∀ order : List (Setter κ ν δ), order.Perm setters →
        (runSetters order start).1 setter.key = some value := by
  have hfirst : ∀ setter ∈ setters, ∃ order, (setter :: order).Perm setters := by
    intro setter hmem
    obtain ⟨before, after, rfl⟩ := List.append_of_mem hmem
    exact ⟨before ++ after, List.perm_middle.symm⟩
  obtain ⟨order, horder⟩ := hfirst setter hmem
  cases hvalue : setter.value start with
  | ok value =>
      refine ⟨value, rfl, ?_⟩
      intro other hother
      rw [hsame other (setter :: order) hother horder]
      exact runSetters_key (nodup_order hnodup horder) hvalue
  | error exception =>
      refine absurd ?_ hbusy
      intro busy hbusy value hgiven
      obtain ⟨others, hothers⟩ := hfirst busy hbusy
      have hleft := hsame _ _ horder hothers
      rw [runSetters_of_error hvalue] at hleft
      rw [show start = _ from hleft]
      exact runSetters_key (nodup_order hnodup hothers) hgiven

/-- A setter is steady if the ones before it have all returned. -/
theorem steady_of_completes (hsame : ∀ order other : List (Setter κ ν δ), order.Perm setters →
      other.Perm setters → (runSetters order start).1 = (runSetters other start).1)
    (hbusy : ¬ ∀ setter ∈ setters, setter.Idle start)
    (horder : (before ++ setter :: after).Perm setters)
    (hcompletes : runSetters before start = (given start before, none)) :
    Steady start before setter after := by
  have hkeys := nodup_order hnodup horder
  rw [List.map_append, List.nodup_append] at hkeys
  have hrun : runSetters (before ++ setter :: after) start = _ := runSetters_append hcompletes
  cases hreached : setter.value (given start before) with
  | ok value =>
      obtain ⟨value', hvalue, hleft⟩ := same_key hnodup hsame hbusy
        (horder.mem_iff.mp (List.mem_append_right before List.mem_cons_self))
      have hkey := hleft _ horder
      rw [hrun, runSetters_key hkeys.2.1 hreached] at hkey
      exact Or.inl ⟨value', hvalue, by rw [hreached, Option.some.inj hkey]⟩
  | error exception =>
      refine Or.inr ⟨⟨exception, hreached⟩, ?_⟩
      intro later hmem value hvalue
      obtain ⟨value', hvalue', hleft⟩ := same_key hnodup hsame hbusy
        (horder.mem_iff.mp (List.mem_append_right before hmem))
      have hkey := hleft _ horder
      have hbefore : later.key ∉ before.map Setter.key := by
        intro hmem'
        exact hkeys.2.2 _ hmem' _ (List.mem_map_of_mem hmem) rfl
      rw [hrun, runSetters_of_error hreached] at hkey
      cases hvalue'.symm.trans hvalue
      exact (given_of_not_mem hbefore).symm.trans hkey

/-- A setter that is idle at the start may as well come after the one that is steady. -/
theorem steady_snoc_idle {last : Setter κ ν δ}
    (horder : (before ++ [last] ++ setter :: after).Perm setters) (hidle : last.Idle start)
    (hsteady : Steady start before setter (last :: after)) :
    Steady start (before ++ [last]) setter after := by
  have hkeys := nodup_order hnodup horder
  simp only [List.map_append, List.map_cons, List.nodup_append] at hkeys
  have hkey : last.key ∉ before.map Setter.key := by
    intro hmem
    exact hkeys.1.2.2 _ hmem _ List.mem_cons_self rfl
  rw [Steady, given_snoc_idle hkey hidle]
  refine hsteady.imp_right fun hraises => ⟨hraises.1, fun later hmem => hraises.2 later ?_⟩
  rcases List.mem_cons.mp hmem with rfl | hafter
  · exact List.mem_cons_self
  · exact List.mem_cons_of_mem _ (List.mem_cons_of_mem _ hafter)

/-- Where every order leaves the same, no setter disturbs another. -/
theorem undisturbed_of_same (hsame : ∀ order other : List (Setter κ ν δ), order.Perm setters →
      other.Perm setters → (runSetters order start).1 = (runSetters other start).1)
    (hbusy : ¬ ∀ setter ∈ setters, setter.Idle start) : Undisturbed setters start := by
  intro before
  -- induction on the number of setters before the one at hand
  induction hlength : before.length using Nat.strongRecOn generalizing before with
  | _ count ih =>
  intro setter after horder
  by_cases hlast : ∃ earlier last, before = earlier ++ [last] ∧ last.Idle start
  · obtain ⟨earlier, last, rfl, hidle⟩ := hlast
    have hperm : (earlier ++ setter :: last :: after).Perm setters := by
      refine List.Perm.trans ?_ horder
      rw [List.append_assoc]
      exact (List.Perm.swap last setter after).append_left earlier
    have hearlier : earlier.length < count := by
      rw [← hlength, List.length_append, List.length_singleton]
      omega
    exact steady_snoc_idle hnodup horder hidle
      (ih _ hearlier earlier rfl setter (last :: after) hperm)
  · -- none of those before raises, as the last of them is not idle
    apply steady_of_completes hnodup hsame hbusy horder
    apply runSetters_completes
    intro earlier other between hsplit
    have hearlier : earlier.length < count := by
      rw [← hlength, hsplit, List.length_append, List.length_cons]
      omega
    have hperm : (earlier ++ other :: (between ++ setter :: after)).Perm setters := by
      simpa [hsplit] using horder
    refine (ih _ hearlier earlier rfl other _ hperm).resolve_right ?_
    rintro ⟨-, hlater⟩
    obtain ⟨others, last, hconcat⟩ :=
      (List.eq_nil_or_concat (other :: between)).resolve_left (List.cons_ne_nil _ _)
    rw [List.concat_eq_append] at hconcat
    refine hlast ⟨earlier ++ others, last, by rw [hsplit, hconcat, List.append_assoc], ?_⟩
    apply hlater
    rw [← List.cons_append, hconcat]
    simp

end

/-- All orders of a dictionary leave the same store exactly where the setters do not disturb
each other. -/
theorem runSetters_same_iff (hnodup : (setters.map Setter.key).Nodup) :
    (∀ order other : List (Setter κ ν δ), order.Perm setters → other.Perm setters →
        (runSetters order start).1 = (runSetters other start).1) ↔
      Undisturbed setters start := by
  constructor
  · intro hsame
    by_cases hidle : ∀ setter ∈ setters, setter.Idle start
    · intro before setter after horder
      have hall : ∀ other ∈ before ++ setter :: after, other.Idle start := fun other hmem =>
        hidle other (horder.mem_iff.mp hmem)
      obtain ⟨hbefore, hafter⟩ := List.forall_mem_append.mp hall
      have hkeys := nodup_order hnodup horder
      rw [List.map_append, List.nodup_append] at hkeys
      have hgiven : given start ([] ++ before) = given start [] :=
        given_append_idle hkeys.1 hbefore
      rw [Steady, show given start before = start from hgiven]
      cases hvalue : setter.value start with
      | ok value => exact Or.inl ⟨value, rfl, rfl⟩
      | error exception => exact Or.inr ⟨⟨exception, rfl⟩, hafter⟩
    · exact undisturbed_of_same hnodup hsame hidle
  · intro hundisturbed order other horder hother
    have hleft := fun (order : List (Setter κ ν δ)) (horder : ([] ++ order).Perm setters) =>
      runSetters_of_undisturbed hnodup hundisturbed horder
    exact (hleft order horder).trans (hleft other hother).symm

end Library
