import Mathlib.Data.Nat.Find
import Mathlib.Data.List.Basic

/-! Finite maps from the naturals: a lookup that holds nothing from some index on.
An index is updated, the values are mapped partially, an insert takes the least
index that holds nothing, and the values are listed by scanning the indexes
upward. -/

@[ext] structure FiniteMap (α : Type) where
  lookup : Nat → Option α
  finite : ∃ n, ∀ j, n ≤ j → lookup j = none

namespace FiniteMap

variable {α : Type}

def update (m : FiniteMap α) (index : Nat) (value : Option α) : FiniteMap α where
  lookup j := if j = index then value else m.lookup j
  finite := by
    obtain ⟨n, beyond⟩ := m.finite
    exact ⟨max n (index + 1), fun j far => by rw [if_neg (by omega), beyond j (by omega)]⟩

def bindValues (m : FiniteMap α) (f : α → Option α) : FiniteMap α where
  lookup j := (m.lookup j).bind f
  finite := by
    obtain ⟨n, beyond⟩ := m.finite
    exact ⟨n, fun j far => by rw [beyond j far]; rfl⟩

@[simp] theorem lookupUpdate (m : FiniteMap α) (index : Nat) (value : Option α) (j : Nat) :
    (m.update index value).lookup j = if j = index then value else m.lookup j := rfl

@[simp] theorem lookupBindValues (m : FiniteMap α) (f : α → Option α) (j : Nat) :
    (m.bindValues f).lookup j = (m.lookup j).bind f := rfl

theorem existsFree (m : FiniteMap α) : ∃ i, (m.lookup i).isNone := by
  obtain ⟨n, beyond⟩ := m.finite
  exact ⟨n, by rw [beyond n (Nat.le_refl n)]; rfl⟩

noncomputable def leastFree (m : FiniteMap α) : Nat := Nat.find m.existsFree

theorem leastFreeSpec (m : FiniteMap α) : m.lookup m.leastFree = none ∧ ∀ j < m.leastFree, (m.lookup j).isSome := by
  refine ⟨Option.isNone_iff_eq_none.mp (Nat.find_spec m.existsFree), fun j before => ?_⟩
  have taken : ¬ (m.lookup j).isNone := Nat.find_min m.existsFree before
  cases lookup : m.lookup j with
  | none => simp [lookup] at taken
  | some item => rfl

theorem leastFreeEq {m : FiniteMap α} {i : Nat} (free : m.lookup i = none) (least : ∀ j < i, (m.lookup j).isSome) :
    m.leastFree = i := by
  have atMost : m.leastFree ≤ i := Nat.find_min' m.existsFree (by simp [free])
  rcases Nat.eq_or_lt_of_le atMost with same | below
  · exact same
  · have taken := least _ below
    rw [(leastFreeSpec m).1] at taken
    cases taken

open Classical in
noncomputable def bound (m : FiniteMap α) : Nat := Nat.find m.finite

noncomputable def values (m : FiniteMap α) : List α := (List.range m.bound).filterMap m.lookup

theorem filterMapRangeAdd (f : Nat → Option α) {b : Nat} (beyond : ∀ j, b ≤ j → f j = none) :
    ∀ k, (List.range (b + k)).filterMap f = (List.range b).filterMap f
  | 0 => rfl
  | k + 1 => by
    rw [← Nat.add_assoc, List.range_succ, List.filterMap_append, filterMapRangeAdd f beyond k,
      List.filterMap_cons_none (beyond _ (Nat.le_add_right b k)), List.filterMap_nil, List.append_nil]

theorem valuesEq (m : FiniteMap α) {n : Nat} (beyond : ∀ j, n ≤ j → m.lookup j = none) :
    m.values = (List.range n).filterMap m.lookup := by
  classical
  have least : m.bound ≤ n := Nat.find_min' m.finite beyond
  have past : ∀ j, m.bound ≤ j → m.lookup j = none := Nat.find_spec m.finite
  rw [values, ← Nat.add_sub_cancel' least, filterMapRangeAdd m.lookup past]

end FiniteMap
