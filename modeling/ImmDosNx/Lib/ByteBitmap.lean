import Mathlib.Data.List.Basic

/-! A bitmap kept as a vector of bytes: bit `i` is bit `i % 8` of byte `i / 8`.
Testing, setting and clearing one bit, and growing the vector by a byte. The
byte-level facts come from the bitwise operations and the eight masks; the
vector-level ones follow from them by the position of the byte. -/
namespace ByteBitmap

def byteBit (b : UInt8) (j : Nat) : Bool := b.toNat.testBit j

def mask (j : Nat) : UInt8 := 1 <<< j.toUInt8

def testBit (map : List UInt8) (i : Nat) : Bool :=
  match map[i / 8]? with
  | some b => byteBit b (i % 8)
  | none => false

def setBit (map : List UInt8) (i : Nat) : List UInt8 := map.modify (i / 8) (· ||| mask (i % 8))

def clearBit (map : List UInt8) (i : Nat) : List UInt8 := map.modify (i / 8) (· &&& ~~~mask (i % 8))

theorem byteBitOr (a b : UInt8) (k : Nat) : byteBit (a ||| b) k = (byteBit a k || byteBit b k) := by
  simp [byteBit, UInt8.toNat_or, Nat.testBit_or]

theorem byteBitAndNot (a b : UInt8) {k : Nat} (inside : k < 8) :
    byteBit (a &&& ~~~b) k = (byteBit a k && !byteBit b k) := by
  have asVector : ∀ x : UInt8, byteBit x k = x.toBitVec.getLsbD k := fun _ => rfl
  simp [asVector, inside]

theorem byteBitMask : ∀ j k : Fin 8, byteBit (mask j) k = (j.val == k.val) := by decide

theorem byteBitOrMaskFin : ∀ (b : UInt8) (j k : Fin 8),
    byteBit (b ||| mask j) k = (byteBit b k || j.val == k.val) := by
  intro b j k
  rw [byteBitOr, byteBitMask]

theorem byteBitAndNotMaskFin : ∀ (b : UInt8) (j k : Fin 8),
    byteBit (b &&& ~~~mask j) k = (byteBit b k && j.val != k.val) := by
  intro b j k
  rw [byteBitAndNot b _ k.isLt, byteBitMask]
  rfl

theorem byteBitOrMask (b : UInt8) {j k : Nat} (hj : j < 8) (hk : k < 8) :
    byteBit (b ||| mask j) k = (byteBit b k || j == k) :=
  byteBitOrMaskFin b ⟨j, hj⟩ ⟨k, hk⟩

theorem byteBitAndNotMask (b : UInt8) {j k : Nat} (hj : j < 8) (hk : k < 8) :
    byteBit (b &&& ~~~mask j) k = (byteBit b k && j != k) :=
  byteBitAndNotMaskFin b ⟨j, hj⟩ ⟨k, hk⟩

theorem eqIffModEq {i k : Nat} (same : i / 8 = k / 8) : (i % 8 == k % 8) = (i == k) := by
  by_cases h : i = k
  · simp [h]
  · have : i % 8 ≠ k % 8 := fun e => h (by omega)
    simp [h, this]

theorem testBitOfLengthLe {map : List UInt8} {i : Nat} (beyond : map.length ≤ i / 8) :
    testBit map i = false := by
  simp [testBit, List.getElem?_eq_none beyond]

@[simp] theorem testBitSetBit (map : List UInt8) (i k : Nat) :
    testBit (setBit map i) k = (testBit map k || (i == k && decide (i / 8 < map.length))) := by
  unfold testBit setBit
  by_cases same : i / 8 = k / 8
  · rw [← same, List.getElem?_modify_eq]
    cases hb : map[i / 8]? with
    | none =>
      have : map.length ≤ i / 8 := List.getElem?_eq_none_iff.mp hb
      simp [this]
    | some b =>
      have inside : i / 8 < map.length := (List.getElem?_eq_some_iff.mp hb).1
      simp only [Option.map_eq_map, Option.map_some, inside, decide_true, Bool.and_true]
      rw [byteBitOrMask b (Nat.mod_lt _ (by omega)) (Nat.mod_lt _ (by omega)), eqIffModEq same]
  · rw [List.getElem?_modify_ne _ _ same]
    have : i ≠ k := fun e => same (by rw [e])
    simp [this]

@[simp] theorem testBitClearBit (map : List UInt8) (i k : Nat) :
    testBit (clearBit map i) k = (testBit map k && i != k) := by
  unfold testBit clearBit
  by_cases same : i / 8 = k / 8
  · rw [← same, List.getElem?_modify_eq]
    cases hb : map[i / 8]? with
    | none => simp
    | some b =>
      simp only [Option.map_eq_map, Option.map_some]
      rw [byteBitAndNotMask b (Nat.mod_lt _ (by omega)) (Nat.mod_lt _ (by omega))]
      simp only [bne, eqIffModEq same]
  · rw [List.getElem?_modify_ne _ _ same]
    have : i ≠ k := fun e => same (by rw [e])
    simp [this]

@[simp] theorem lengthSetBit (map : List UInt8) (i : Nat) : (setBit map i).length = map.length := by
  simp [setBit]

@[simp] theorem lengthClearBit (map : List UInt8) (i : Nat) : (clearBit map i).length = map.length := by
  simp [clearBit]

theorem testBitAppend (map : List UInt8) (b : UInt8) (k : Nat) :
    testBit (map ++ [b]) k =
      if k / 8 < map.length then testBit map k else (k / 8 == map.length && byteBit b (k % 8)) := by
  unfold testBit
  by_cases inside : k / 8 < map.length
  · simp [List.getElem?_append_left inside, inside]
  · rw [List.getElem?_append_right (by omega)]
    by_cases last : k / 8 = map.length
    · simp [last]
    · have : k / 8 - map.length ≠ 0 := by omega
      simp [inside, last, this]

/-! The first byte holds bits `0..7`; bit `8 + i` is bit `i` of the rest. -/

theorem testBitConsLow (b : UInt8) (map : List UInt8) {k : Nat} (low : k < 8) :
    testBit (b :: map) k = byteBit b k := by
  simp [testBit, Nat.div_eq_of_lt low, Nat.mod_eq_of_lt low]

theorem testBitConsHigh (b : UInt8) (map : List UInt8) (i : Nat) :
    testBit (b :: map) (8 + i) = testBit map i := by
  have div : (8 + i) / 8 = i / 8 + 1 := by omega
  simp [testBit, div, Nat.add_mod_left]

theorem setBitConsLow (b : UInt8) (map : List UInt8) {k : Nat} (low : k < 8) :
    setBit (b :: map) k = (b ||| mask k) :: map := by
  simp [setBit, Nat.div_eq_of_lt low, Nat.mod_eq_of_lt low, List.modify_zero_cons]

theorem setBitConsHigh (b : UInt8) (map : List UInt8) (i : Nat) :
    setBit (b :: map) (8 + i) = b :: setBit map i := by
  have div : (8 + i) / 8 = i / 8 + 1 := by omega
  simp [setBit, div, Nat.add_mod_left, List.modify_succ_cons]

/-! ## Runs of updates -/

theorem testBitFoldClearBit (indices : List Nat) (map : List UInt8) (k : Nat) :
    testBit (indices.foldl clearBit map) k = (testBit map k && !indices.contains k) := by
  induction indices generalizing map with
  | nil => simp
  | cons i rest ih =>
    rw [List.foldl_cons, ih, testBitClearBit, List.contains_cons]
    by_cases same : i = k
    · subst same; simp
    · rw [bne_iff_ne.mpr same, beq_eq_false_iff_ne.mpr (Ne.symm same)]
      simp

@[simp] theorem lengthFoldSetBit (indices : List Nat) (map : List UInt8) :
    (indices.foldl setBit map).length = map.length := by
  induction indices generalizing map with
  | nil => rfl
  | cons i rest ih => rw [List.foldl_cons, ih, lengthSetBit]

@[simp] theorem lengthFoldClearBit (indices : List Nat) (map : List UInt8) :
    (indices.foldl clearBit map).length = map.length := by
  induction indices generalizing map with
  | nil => rfl
  | cons i rest ih => rw [List.foldl_cons, ih, lengthClearBit]

theorem testBitFoldSetBit (indices : List Nat) (map : List UInt8) (k : Nat)
    (inside : ∀ i ∈ indices, i / 8 < map.length) :
    testBit (indices.foldl setBit map) k = (testBit map k || indices.contains k) := by
  induction indices generalizing map with
  | nil => simp
  | cons i rest ih =>
    rw [List.foldl_cons, ih _ fun j mem => by rw [lengthSetBit]; exact inside j (List.mem_cons_of_mem i mem),
      testBitSetBit, List.contains_cons, decide_eq_true (inside i List.mem_cons_self), Bool.and_true]
    by_cases same : i = k
    · subst same; simp
    · rw [beq_eq_false_iff_ne.mpr same, beq_eq_false_iff_ne.mpr (Ne.symm same)]
      simp

theorem byteBitFull : ∀ j : Fin 8, byteBit 0xff j = true := by decide

end ByteBitmap
