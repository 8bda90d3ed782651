import Mathlib.Data.Nat.ModEq

/-! A bounded FIFO queue, and its layout in a ring of cells. The queue is the
specification: a write appends as many leading items as there is room for, and a
read removes the oldest ones. In the ring the `i`-th item sits in cell
`(head + i) % length`. The layout therefore depends on `head` only modulo the
length; writing the cells after the last item appends, and moving `head` on
drops the oldest items. -/

namespace BoundedQueue

variable {α : Type}

def write (capacity : Nat) (queue src : List α) : List α × Nat :=
  let count := min src.length (capacity - queue.length)
  (queue ++ src.take count, count)

def read (queue dest : List α) : List α × List α × Nat :=
  let count := min dest.length queue.length
  (queue.drop count, queue.take count ++ dest.drop count, count)

end BoundedQueue

namespace Ring

variable {α : Type}

def Holds (cells : List α) (head : Nat) (queue : List α) : Prop :=
  ∀ i (inside : i < queue.length), cells[(head + i) % cells.length]? = some queue[i]

def fill (cells : List α) (position : Nat → Nat) (n : Nat) (value : Nat → α) : List α :=
  (List.range n).foldl (fun cells i => cells.set (position i) (value i)) cells

def copyOut [Inhabited α] (cells : List α) (position : Nat → Nat) (n : Nat) (dest : List α) : List α :=
  (List.range n).foldl (fun dest i => dest.set i cells[position i]!) dest

theorem fillSucc (cells : List α) (position : Nat → Nat) (n : Nat) (value : Nat → α) :
    fill cells position (n + 1) value = (fill cells position n value).set (position n) (value n) := by
  simp [fill, List.range_succ, List.foldl_append]

@[simp] theorem lengthFill (cells : List α) (position : Nat → Nat) (n : Nat) (value : Nat → α) :
    (fill cells position n value).length = cells.length := by
  induction n with
  | zero => rfl
  | succ n ih => rw [fillSucc, List.length_set, ih]

theorem copyOutSucc [Inhabited α] (cells : List α) (position : Nat → Nat) (n : Nat) (dest : List α) :
    copyOut cells position (n + 1) dest = (copyOut cells position n dest).set n cells[position n]! := by
  simp [copyOut, List.range_succ, List.foldl_append]

@[simp] theorem lengthCopyOut [Inhabited α] (cells : List α) (position : Nat → Nat) (n : Nat) (dest : List α) :
    (copyOut cells position n dest).length = dest.length := by
  induction n with
  | zero => rfl
  | succ n ih => rw [copyOutSucc, List.length_set, ih]

theorem holdsNil (cells : List α) (head : Nat) : Holds cells head [] := fun _ inside => absurd inside (by simp)

theorem ringPositionNe {head i j length : Nat} (before : i < j) (within : j < length) :
    (head + i) % length ≠ (head + j) % length := by
  intro same
  have congruent : i ≡ j [MOD length] := Nat.ModEq.add_left_cancel' head same
  have : i % length = j % length := congruent
  rw [Nat.mod_eq_of_lt (by omega), Nat.mod_eq_of_lt within] at this
  omega

theorem holdsModEq {cells queue : List α} {head head' : Nat} (holds : Holds cells head queue)
    (congruent : head % cells.length = head' % cells.length) : Holds cells head' queue := by
  intro i inside
  rw [← holds i inside, Nat.add_mod head', ← congruent, ← Nat.add_mod]

theorem holdsDrop {cells queue : List α} {head : Nat} (holds : Holds cells head queue) (k : Nat) :
    Holds cells (head + k) (queue.drop k) := by
  intro i inside
  rw [List.getElem_drop, ← holds (k + i) (by simp at inside; omega), Nat.add_assoc]

theorem holdsPush {cells queue : List α} {head : Nat} (holds : Holds cells head queue)
    (room : queue.length < cells.length) (x : α) :
    Holds (cells.set ((head + queue.length) % cells.length) x) head (queue ++ [x]) := by
  have inCells : (head + queue.length) % cells.length < cells.length := Nat.mod_lt _ (by omega)
  intro i inside
  rw [List.length_set, List.getElem?_set]
  simp only [List.length_append, List.length_singleton] at inside
  by_cases last : i = queue.length
  · subst last
    simp [inCells]
  · have older : i < queue.length := by omega
    rw [if_neg (ringPositionNe older room).symm, holds i older, List.getElem_append_left older]

theorem holdsFill {cells queue : List α} {head : Nat} (holds : Holds cells head queue)
    {position : Nat → Nat} {n : Nat} (value : Nat → α) (room : queue.length + n ≤ cells.length)
    (atRing : ∀ i < n, position i = (head + queue.length + i) % cells.length) :
    Holds (fill cells position n value) head (queue ++ (List.range n).map value) := by
  induction n with
  | zero => simpa [fill] using holds
  | succ n ih =>
    have before := ih (by omega) fun i lt => atRing i (by omega)
    have pushed := holdsPush before (by simp; omega) (value n)
    rw [fillSucc, atRing n (by omega)]
    simpa [List.range_succ, Nat.add_assoc] using pushed

theorem copyOutEq [Inhabited α] {cells queue : List α} {head : Nat} (holds : Holds cells head queue)
    {position : Nat → Nat} {n : Nat} (dest : List α) (few : n ≤ queue.length) (fits : n ≤ dest.length)
    (atRing : ∀ i < n, position i = (head + i) % cells.length) :
    copyOut cells position n dest = queue.take n ++ dest.drop n := by
  induction n with
  | zero => simp [copyOut]
  | succ n ih =>
    have item : cells[position n]! = queue[n] := by
      rw [atRing n (by omega), getElem!_def, holds n (by omega)]
    rw [copyOutSucc, ih (by omega) (by omega) fun i lt => atRing i (by omega), item,
      List.set_append_right _ _ (by simp), List.drop_eq_getElem_cons (by omega)]
    have taken : (queue.take n).length = n := List.length_take_of_le (by omega)
    rw [taken, Nat.sub_self, List.set_cons_zero, List.take_add_one, List.getElem?_eq_getElem (by omega)]
    simp only [Option.toList, List.append_assoc, List.singleton_append]

theorem rangeMapGetElem [Inhabited α] (items : List α) {n : Nat} (few : n ≤ items.length) :
    (List.range n).map (fun i => items[i]!) = items.take n := by
  apply List.ext_getElem (by simp; omega)
  intro i inside _
  simp only [List.length_map, List.length_range] at inside
  simp [getElem!_def, List.getElem?_eq_getElem (show i < items.length by omega)]

end Ring
