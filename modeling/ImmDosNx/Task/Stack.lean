import ImmDosNx.Lib.Run
import ImmDosNx.Lib.ByteBitmap
import Mathlib.Data.FinEnum

/-! Kernel stack slots (`task/stack.rs`). Slot `i` is one bit of the byte vector
`ALLOCATED_KERNEL_STACKS` and the box `STACKS_TOP - (i + 1) * STACK_SIZE`;
`free_stack` recovers the slot from the box address. Addresses are the `usize`
of the i386 release build, so they wrap; slot indices are plain numbers.
`find_free_space` hands out the lowest clear bit, but the decode in `free_stack`
yields `i + 1` for the box of slot `i`. -/
namespace ImmDosNx.Stack
open ByteBitmap

def stacksTop : UInt32 := 0xffc00000

def stackSize : UInt32 := 0x4000

/-- Models `allocate_initial_stacks`: slot 0 (temporary paging) and slot 1 (the bootstrap process) are marked
taken. -/
def allocateInitialStacks (allocMap : List UInt8) : List UInt8 := allocMap ++ [3]

def stackBoxFromIndex (index : Nat) : UInt32 := stacksTop - (index.toUInt32 + 1) * stackSize

/-- The `while inv != 0` loop of `find_free_space` over one inverted byte. -/
def scanByte : Nat → UInt8 → UInt8 → Nat → Option (UInt8 × Nat)
  | 0, _, _, _ => none
  | fuel + 1, inv, mask, stackIndex =>
    if inv != 0 then
      if inv &&& 1 != 0 then some (mask, stackIndex)
      else scanByte fuel (inv >>> 1) (mask <<< 1) (stackIndex + 1)
    else none

def findFreeSpaceFrom (index : Nat) : List UInt8 → Option (List UInt8 × Nat)
  | [] => none
  | map :: rest =>
    let later := (findFreeSpaceFrom (index + 1) rest).map fun (r, i) => (map :: r, i)
    if map != 0xff then
      match scanByte 8 (~~~map) 1 (index * 8) with
      | some (mask, stackIndex) => some ((map ||| mask) :: rest, stackIndex)
      | none => later
    else later

/-- Models `find_free_space`: with every byte full, a byte `1` is pushed and its first slot returned. -/
def findFreeSpace (allocMap : List UInt8) : List UInt8 × Nat :=
  match findFreeSpaceFrom 0 allocMap with
  | some found => found
  | none => (allocMap ++ [1], allocMap.length * 8)

def freeIndex (allocMap : List UInt8) (index : Nat) : List UInt8 :=
  let byteIndex := index / 8
  let localIndex := index &&& 7
  match allocMap[byteIndex]? with
  | some map => allocMap.set byteIndex (map &&& ~~~(1 <<< localIndex.toUInt8))
  | none => allocMap

/-- Models `free_stack`: the slot is recomputed from the box address. -/
def freeStack (allocMap : List UInt8) (location : UInt32) : List UInt8 :=
  let offset := (stacksTop - location) / stackSize
  freeIndex allocMap offset.toNat

def allocateStack (allocMap : List UInt8) : List UInt8 × UInt32 :=
  let (map, index) := findFreeSpace allocMap
  (map, stackBoxFromIndex index)

/-! ## The byte scan -/

theorem scanByteShift (fuel : Nat) (inv mask : UInt8) (s : Nat) :
    scanByte fuel inv mask s = (scanByte fuel inv mask 0).map fun r => (r.1, s + r.2) := by
  induction fuel generalizing inv mask s with
  | zero => rfl
  | succ fuel ih =>
    simp only [scanByte]
    split
    · split
      · simp
      · rw [ih _ _ (s + 1), ih _ _ (0 + 1), Option.map_map]
        congr 1; funext r; simp [Nat.add_assoc]
    · rfl

theorem scanByteLowest : ∀ b : UInt8, b ≠ 0xff → ∃ j : Fin 8,
    scanByte 8 (~~~b) 1 0 = some (ByteBitmap.mask j, j.val) ∧
      byteBit b j = false ∧ ∀ k : Fin 8, k < j → byteBit b k = true := by
  decide +kernel

theorem fullByteBits : ∀ k : Fin 8, byteBit 0xff k = true := by decide

theorem firstByteBits : ∀ k : Fin 8, byteBit 1 k = (k.val == 0) := by decide

/-! ## `find_free_space` hands out the lowest clear slot -/

theorem findFreeSpaceFromShift (n : Nat) (m : List UInt8) :
    findFreeSpaceFrom n m = (findFreeSpaceFrom 0 m).map fun r => (r.1, 8 * n + r.2) := by
  induction m generalizing n with
  | nil => rfl
  | cons map rest ih =>
    have later : ∀ n, ((findFreeSpaceFrom (n + 1) rest).map fun (r, i) => (map :: r, i)) =
        (findFreeSpaceFrom 0 rest).map fun r => (map :: r.1, 8 * (n + 1) + r.2) := by
      intro n; rw [ih (n + 1), Option.map_map]; rfl
    simp only [findFreeSpaceFrom, later, Nat.zero_mul]
    rw [scanByteShift _ _ _ (n * 8)]
    by_cases notFull : (map != 0xff) = true
    · simp only [notFull, if_true]
      cases scanByte 8 (~~~map) 1 0 with
      | none =>
        simp only [Option.map_none, Option.map_map, Function.comp_def]
        congr 1; funext r; simp only [Prod.mk.injEq, true_and]; omega
      | some r => simp; omega
    · simp only [notFull, Bool.false_eq_true, if_false, Option.map_map, Function.comp_def]
      congr 1; funext r; simp only [Prod.mk.injEq, true_and]; omega

theorem findFreeSpaceFromSome {m m' : List UInt8} {i : Nat} (found : findFreeSpaceFrom 0 m = some (m', i)) :
    i / 8 < m.length ∧ testBit m i = false ∧ (∀ k < i, testBit m k = true) ∧ m' = setBit m i := by
  induction m generalizing m' i with
  | nil => simp [findFreeSpaceFrom] at found
  | cons map rest ih =>
    by_cases full : map = 0xff
    · subst full
      simp only [findFreeSpaceFrom, bne_self_eq_false, Bool.false_eq_true, if_false,
        findFreeSpaceFromShift 1 rest, Option.map_map] at found
      obtain ⟨⟨r, j⟩, inner, hr⟩ := Option.map_eq_some_iff.mp found
      simp only [Function.comp_apply, Prod.mk.injEq] at hr
      obtain ⟨rfl, rfl⟩ := hr
      obtain ⟨inside, clear, below, set⟩ := ih inner
      refine ⟨by simp; omega, by rw [testBitConsHigh]; exact clear, ?_, by rw [setBitConsHigh, set]⟩
      intro k hk
      by_cases low : k < 8
      · rw [testBitConsLow _ _ low]; exact fullByteBits ⟨k, low⟩
      · obtain ⟨k, rfl⟩ : ∃ k', k = 8 + k' := ⟨k - 8, by omega⟩
        rw [testBitConsHigh]; exact below k (by omega)
    · obtain ⟨j, scan, clear, below⟩ := scanByteLowest map full
      have notFull : (map != 0xff) = true := by simpa using full
      simp only [findFreeSpaceFrom, notFull, if_true, Nat.zero_mul, scan] at found
      cases found
      refine ⟨by simp [Nat.div_eq_of_lt j.isLt], by rw [testBitConsLow _ _ j.isLt]; exact clear, ?_,
        (setBitConsLow _ _ j.isLt).symm⟩
      intro k hk
      rw [testBitConsLow _ _ (by omega)]
      exact below ⟨k, by omega⟩ hk

theorem findFreeSpaceFromNone {m : List UInt8} (none : findFreeSpaceFrom 0 m = none) :
    ∀ k < m.length * 8, testBit m k = true := by
  induction m with
  | nil => simp
  | cons map rest ih =>
    by_cases full : map = 0xff
    · subst full
      simp only [findFreeSpaceFrom, bne_self_eq_false, Bool.false_eq_true, if_false,
        findFreeSpaceFromShift 1 rest, Option.map_map, Option.map_eq_none_iff] at none
      intro k hk
      by_cases low : k < 8
      · rw [testBitConsLow _ _ low]; exact fullByteBits ⟨k, low⟩
      · obtain ⟨k, rfl⟩ : ∃ k', k = 8 + k' := ⟨k - 8, by omega⟩
        rw [testBitConsHigh]; exact ih none k (by simp at hk; omega)
    · obtain ⟨j, scan, -, -⟩ := scanByteLowest map full
      have notFull : (map != 0xff) = true := by simpa using full
      simp [findFreeSpaceFrom, notFull, scan] at none

theorem findFreeSpaceSpec (m : List UInt8) :
    testBit m (findFreeSpace m).2 = false ∧ (∀ k < (findFreeSpace m).2, testBit m k = true) ∧
      ∀ k, testBit (findFreeSpace m).1 k = (testBit m k || k == (findFreeSpace m).2) := by
  unfold findFreeSpace
  cases found : findFreeSpaceFrom 0 m with
  | some r =>
    obtain ⟨inside, clear, below, set⟩ := findFreeSpaceFromSome found
    refine ⟨clear, below, fun k => ?_⟩
    rw [set, testBitSetBit]
    simp [inside, Bool.beq_comm]
  | none =>
    refine ⟨testBitOfLengthLe (by simp), findFreeSpaceFromNone found, fun k => ?_⟩
    rw [testBitAppend]
    by_cases inside : k / 8 < m.length
    · have : k ≠ m.length * 8 := by omega
      simp [inside, this]
    · rw [testBitOfLengthLe (by omega), firstByteBits ⟨k % 8, Nat.mod_lt _ (by omega)⟩]
      simp only [inside, if_false, Bool.false_or]
      rw [Bool.eq_iff_iff]
      simp only [Bool.and_eq_true, beq_iff_eq]
      omega

/-! ## `free_index` and `free_stack` -/

theorem freeIndexEq (m : List UInt8) (index : Nat) : freeIndex m index = clearBit m index := by
  have low : index &&& 7 = index % 8 := Nat.and_two_pow_sub_one_eq_mod index 3
  simp only [freeIndex, clearBit, ByteBitmap.mask, low]
  cases hb : m[index / 8]? with
  | none => exact (List.modify_eq_self (List.getElem?_eq_none_iff.mp hb)).symm
  | some b => simp [List.modify_eq_set, hb]

theorem freeStackOffset (index : Nat) (small : index < 0x3ff00) :
    ((stacksTop - stackBoxFromIndex index) / stackSize).toNat = index + 1 := by
  have slot : ((index.toUInt32 + 1) * stackSize).toNat = (index + 1) * 0x4000 := by
    simp [UInt32.toNat_mul, UInt32.toNat_add, Nat.toUInt32, stackSize]; omega
  have below : (index.toUInt32 + 1) * stackSize ≤ stacksTop := by
    rw [UInt32.le_iff_toNat_le, slot]; simp [stacksTop]; omega
  have box : (stackBoxFromIndex index).toNat = 0xffc00000 - (index + 1) * 0x4000 := by
    rw [stackBoxFromIndex, UInt32.toNat_sub_of_le _ _ below, slot]; rfl
  have within : stackBoxFromIndex index ≤ stacksTop := by
    rw [UInt32.le_iff_toNat_le, box]; simp [stacksTop]
  rw [UInt32.toNat_div, UInt32.toNat_sub_of_le _ _ within, box]
  simp [stacksTop, stackSize]
  omega

theorem freeStackClearsNextSlot (m : List UInt8) (index : Nat) (small : index < 0x3ff00) :
    freeStack m (stackBoxFromIndex index) = clearBit m (index + 1) := by
  simp only [freeStack, freeStackOffset index small, freeIndexEq]

/-! ## Processes holding stacks

The state is the allocation map and the boxes held by live processes, in the
order they were handed out. `Process::create_fork` takes a box from
`allocate_stack`; `Drop for Process` hands one back to `free_stack`. -/

structure Stacks where
  allocatedKernelStacks : List UInt8
  live : List UInt32
  deriving DecidableEq, Repr

inductive Call where
  | allocateStack
  | freeStack (position : Nat)
  deriving DecidableEq, Repr

def step (s : Stacks) : Call → Option Stacks
  | .allocateStack =>
    let (map, box) := allocateStack s.allocatedKernelStacks
    some ⟨map, s.live ++ [box]⟩
  | .freeStack position => s.live[position]?.map fun box =>
    ⟨freeStack s.allocatedKernelStacks box, s.live.eraseIdx position⟩

def initial : Stacks := ⟨allocateInitialStacks [], []⟩

theorem liveStacksShareSlot :
    ∃ s, Machine.Reachable step initial s ∧ s.live = [stackBoxFromIndex 3, stackBoxFromIndex 3] := by
  have trace : Machine.run step initial [.allocateStack, .allocateStack, .freeStack 0, .allocateStack] =
      some ⟨[0x0f], [stackBoxFromIndex 3, stackBoxFromIndex 3]⟩ := by decide
  exact ⟨_, Machine.reachableFromInit trace, rfl⟩

end ImmDosNx.Stack
