import Mathlib
import ImmDosNx.Lib.Run

/-! The kernel heap (`memory/heap/list_allocator.rs`). Node headers live in
the heap bytes themselves: a 32-bit magic, a 32-bit size whose top bit marks an
occupied node, and in a free node a 32-bit pointer to the next free node. The
model keeps the bytes as a function from `usize` addresses (32-bit, wrapping)
and reads and writes the headers little-endian, as the raw pointer casts do.
The three loops over the free list run on fuel: a terminating search visits no
address twice, so `2 ^ 32` rounds never cut a terminating run short; the
merging loop gets `2 ^ 64`. An exhausted fuel is reported as `none`. -/
namespace ImmDosNx.KernelHeap

abbrev Memory := UInt32 → UInt8

def read32 (mem : Memory) (a : UInt32) : UInt32 :=
  (mem a).toUInt32 ||| ((mem (a + 1)).toUInt32 <<< 8) ||| ((mem (a + 2)).toUInt32 <<< 16) |||
    ((mem (a + 3)).toUInt32 <<< 24)

def write8 (mem : Memory) (a : UInt32) (v : UInt8) : Memory := fun b => if b = a then v else mem b

def write32 (mem : Memory) (a v : UInt32) : Memory :=
  write8 (write8 (write8 (write8 mem a v.toUInt8) (a + 1) (v >>> 8).toUInt8) (a + 2) (v >>> 16).toUInt8)
    (a + 3) (v >>> 24).toUInt8

def magic : UInt32 := 0xA110CA7E

/-! ## `AllocNode` fields: magic at offset 0, size at 4, next at 8 -/

def sizeField (mem : Memory) (node : UInt32) : UInt32 := read32 mem (node + 4)

def isValid (mem : Memory) (node : UInt32) : Bool := read32 mem node == magic

def getSize (mem : Memory) (node : UInt32) : UInt32 := sizeField mem node &&& 0x7fffffff

def isFree (mem : Memory) (node : UInt32) : Bool := sizeField mem node &&& 0x80000000 == 0

def getNext (mem : Memory) (node : UInt32) : UInt32 := read32 mem (node + 8)

def init (mem : Memory) (node size : UInt32) : Memory :=
  write32 (write32 (write32 mem node magic) (node + 4) (size &&& 0x7fffffff)) (node + 8) 0

def markOccupied (mem : Memory) (node : UInt32) : Memory :=
  write32 mem (node + 4) (sizeField mem node ||| 0x80000000)

def markFree (mem : Memory) (node : UInt32) : Memory :=
  write32 mem (node + 4) (sizeField mem node &&& 0x7fffffff)

def setNext (mem : Memory) (node addr : UInt32) : Memory := write32 mem (node + 8) addr

def setSize (mem : Memory) (node size : UInt32) : Memory :=
  write32 mem (node + 4) ((sizeField mem node &&& 0x80000000) ||| (size &&& 0x7fffffff))

def getAlignedStart (node alignment : UInt32) : UInt32 :=
  let start := node + 12
  let lowAlignmentBits := alignment - 1
  (start + lowAlignmentBits) &&& ~~~lowAlignmentBits

/-- Models `mark_padded`: the padding length is stored in the four bytes before the data; a padding below 4 bytes
panics (`none`). -/
def markPadded (mem : Memory) (node padding : UInt32) : Option Memory :=
  if padding < 4 then none
  else
    let start := node + 8
    some (write32 mem (start + padding - 4) padding)

def findNodeFromAllocatedPointer (mem : Memory) (ptr : UInt32) : UInt32 :=
  let padding := read32 mem (ptr - 4)
  ptr - padding - 8

structure Layout where
  size : UInt32
  align : UInt32
  powerOfTwo : align.toNat.isPowerOfTwo

structure ListAllocator where
  start : UInt32
  size : UInt32
  firstFree : UInt32
  deriving DecidableEq, Repr

structure Heap where
  allocator : ListAllocator
  mem : Memory

def new (mem : Memory) (start size : UInt32) : Heap :=
  ⟨⟨start, size, start⟩, init mem start size⟩

/-! ## `alloc` -/

def takeNode (heap : Heap) (prev current next alignedStart alignedEnd : UInt32) : Option (Heap × UInt32) := do
  let mem := heap.mem
  let remainder := current + getSize mem current - alignedEnd
  let mem := markOccupied mem current
  let padding := alignedStart - current - 8
  let mem ← markPadded mem current padding
  if remainder > 16 then
    let trailingStart := (alignedEnd + 3) &&& ~~~3
    let newSize := current + getSize mem current - trailingStart
    let mem := init mem trailingStart newSize
    let mem := setNext mem trailingStart next
    let (mem, firstFree) :=
      if prev != 0 then (setNext mem prev trailingStart, heap.allocator.firstFree)
      else (mem, trailingStart)
    let mem := setSize mem current (trailingStart - current)
    some (⟨{ heap.allocator with firstFree }, mem⟩, alignedStart)
  else
    some (⟨{ heap.allocator with firstFree := next }, mem⟩, alignedStart)

def allocLoop (heap : Heap) (layout : Layout) : Nat → UInt32 → UInt32 → Option (Heap × UInt32)
  | 0, _, _ => none
  | fuel + 1, prev, current =>
    if current != 0 then
      let next := getNext heap.mem current
      let alignedStart := getAlignedStart current layout.align
      let alignedEnd := alignedStart + layout.size
      if current + getSize heap.mem current >= alignedEnd then
        takeNode heap prev current next alignedStart alignedEnd
      else allocLoop heap layout fuel current next
    else some (heap, 0)

def alloc (heap : Heap) (layout : Layout) : Option (Heap × UInt32) :=
  allocLoop heap layout (2 ^ 32) 0 heap.allocator.firstFree

/-! ## `dealloc` and `merge_free_areas` -/

def mergeLoop (mem : Memory) : Nat → UInt32 → Option Memory
  | 0, _ => none
  | fuel + 1, iterAddr =>
    if iterAddr != 0 then
      let nextByte := iterAddr + getSize mem iterAddr
      let nextAddr := getNext mem iterAddr
      if nextByte == nextAddr then
        let mem' := setSize mem iterAddr (getSize mem iterAddr + getSize mem nextAddr)
        mergeLoop (setNext mem' iterAddr (getNext mem' nextAddr)) fuel iterAddr
      else mergeLoop mem fuel nextAddr
    else some mem

def mergeFreeAreas (heap : Heap) : Option Heap :=
  (mergeLoop heap.mem (2 ^ 64) heap.allocator.firstFree).map fun mem => ⟨heap.allocator, mem⟩

def insertLoop (mem : Memory) (nodeAddr : UInt32) : Nat → UInt32 → Option Memory
  | 0, _ => none
  | fuel + 1, iterAddr =>
    if iterAddr != 0 then
      let nextAddr := getNext mem iterAddr
      if iterAddr < nodeAddr && (nodeAddr < nextAddr || nextAddr == 0) then
        some (setNext (setNext mem iterAddr nodeAddr) nodeAddr nextAddr)
      else insertLoop mem nodeAddr fuel nextAddr
    else some mem

/-- Models `dealloc`: the three panics (out of bounds, not a node, already free) are `none`. -/
def dealloc (heap : Heap) (ptr : UInt32) : Option Heap := do
  let a := heap.allocator
  if ptr < a.start || ptr > a.start + a.size then none
  let node := findNodeFromAllocatedPointer heap.mem ptr
  if !isValid heap.mem node then none
  if isFree heap.mem node then none
  let mem := markFree heap.mem node
  let inserted : Heap ←
    if node < a.firstFree then some ⟨{ a with firstFree := node }, setNext mem node a.firstFree⟩
    else (insertLoop mem node (2 ^ 32) a.firstFree).map fun mem => ⟨a, mem⟩
  mergeFreeAreas inserted

/-! ## Clients of the heap

A run allocates and frees in any order; each free is of a pointer that an
earlier allocation returned and that is not yet freed. -/

structure Clients where
  heap : Heap
  live : List UInt32

inductive Call where
  | alloc (layout : Layout)
  | dealloc (position : Nat)

def step (s : Clients) : Call → Option Clients
  | .alloc layout => (alloc s.heap layout).map fun (heap, ptr) =>
    ⟨heap, if ptr != 0 then s.live ++ [ptr] else s.live⟩
  | .dealloc position => do
    let ptr ← s.live[position]?
    let heap ← dealloc s.heap ptr
    some ⟨heap, s.live.eraseIdx position⟩

def initial : Clients := ⟨new (fun _ => 0) 0x1000 100, []⟩

def word : Layout := ⟨4, 4, ⟨2, rfl⟩⟩

def fiftySix : Layout := ⟨56, 4, ⟨2, rfl⟩⟩

def lostNodeAt1000 (s : Clients) : Bool :=
  s.heap.allocator.firstFree == 0 && isValid s.heap.mem 0x1000 && isFree s.heap.mem 0x1000 &&
    getSize s.heap.mem 0x1000 == 16 && (alloc s.heap word).map Prod.snd == some 0

theorem freeNodeLostFromList :
    ∃ s, Machine.Reachable step initial s ∧ s.heap.allocator.firstFree = 0 ∧
      isValid s.heap.mem 0x1000 = true ∧ isFree s.heap.mem 0x1000 = true ∧ getSize s.heap.mem 0x1000 = 16 ∧
      (alloc s.heap word).map Prod.snd = some 0 := by
  have evaluated : (Machine.run step initial [.alloc word, .alloc word, .dealloc 0, .alloc fiftySix]).any
      lostNodeAt1000 = true := by decide +kernel
  obtain ⟨s, ran, lost⟩ := (Option.any_eq_true _ _).mp evaluated
  simp only [lostNodeAt1000, Bool.and_eq_true, beq_iff_eq] at lost
  exact ⟨s, Machine.reachableFromInit ran, lost.1.1.1.1, lost.1.1.1.2, lost.1.1.2, lost.1.2, lost.2⟩

end ImmDosNx.KernelHeap
