import ImmDosNx.Task.Exec.Segment
import ImmDosNx.Lib.Align

/-! The memory map of a process (`MemoryRegions`, `task/memory.rs`): the
execution segments, the heap after them and the mmap regions below
`memory_top`. Addresses and sizes are `usize` of a 32-bit kernel built for
release, so they are `UInt32` and every sum and difference wraps. The
`BTreeMap` of regions is a list of key and region in increasing key order. -/
namespace ImmDosNx.Regions
open Exec

inductive MMapBacking where
  | direct (address : UInt32)
  | anonymous
  | dma
  | deviceFile
  deriving DecidableEq, Repr

structure MMapRegion where
  address : UInt32
  size : UInt32
  backedBy : MMapBacking
  deriving DecidableEq, Repr

/-- Models `get_address_range`, as start and end. -/
def MMapRegion.range (r : MMapRegion) : UInt32 × UInt32 := (r.address, r.address + r.size)

structure MemoryRegions where
  executionSegments : List ExecutionSegment
  heapStart : UInt32
  heapSize : UInt32
  memoryTop : UInt32
  mmapRegions : List (UInt32 × MMapRegion)
  deriving DecidableEq, Repr

def userKernelBarrier : UInt32 := 0xc0000000

def nextPageBarrier (x : UInt32) : UInt32 := if x &&& 0xfff == 0 then x else (x + 0x1000) &&& 0xfffff000

def prevPageBarrier (x : UInt32) : UInt32 := x &&& 0xfffff000

theorem pageOffsetToNat (x : UInt32) : (x &&& 0xfff).toNat = x.toNat % 4096 :=
  @Align.toNatAndLowMask x 0xfff 12 rfl

theorem prevPageBarrierToNat (x : UInt32) : (prevPageBarrier x).toNat = x.toNat / 4096 * 4096 :=
  @Align.toNatAndHighMask x 0xfffff000 12 (by omega) rfl

/-! ## The `BTreeMap` operations the regions use -/

def insertKey : List (UInt32 × MMapRegion) → UInt32 → MMapRegion → List (UInt32 × MMapRegion)
  | [], k, v => [(k, v)]
  | (k', v') :: rest, k, v =>
    if k < k' then (k, v) :: (k', v') :: rest
    else if k = k' then (k, v) :: rest
    else (k', v') :: insertKey rest k v

def removeKey (regions : List (UInt32 × MMapRegion)) (k : UInt32) : Option MMapRegion × List (UInt32 × MMapRegion) :=
  ((regions.find? (·.1 == k)).map (·.2), regions.filter (·.1 != k))

namespace MemoryRegions

def new : MemoryRegions := ⟨[], 0, 0, userKernelBarrier, []⟩

def getExecutionSegmentsStart (m : MemoryRegions) : UInt32 :=
  if m.executionSegments.isEmpty then 0
  else m.executionSegments.foldl (fun low s => if s.address.toUInt32 < low then s.address.toUInt32 else low) 0xffffffff

/-- Models `reset_execution_segments`: the heap starts empty after the new segments. -/
def resetExecutionSegments (m : MemoryRegions) (segments : List ExecutionSegment) : MemoryRegions :=
  { m with executionSegments := segments, heapStart := (getExecutionSegmentsEnd segments).toUInt32, heapSize := 0 }

def getHeapPageRange (m : MemoryRegions) : UInt32 × UInt32 :=
  let finish := m.heapStart + m.heapSize
  (m.heapStart, if finish &&& 0xfff != 0 then (finish + 0x1000) &&& 0xfffff000 else finish)

end MemoryRegions

def rangesOverlap (a b : UInt32 × UInt32) : Bool :=
  let low := min a.1 b.1
  let high := max a.2 b.2
  (a.2 - a.1) + (b.2 - b.1) > high - low

namespace MemoryRegions

/-- Models `can_fit_range`: a range ending below the first segment fits at once, without a look at the regions. -/
def canFitRange (m : MemoryRegions) (range : UInt32 × UInt32) : Bool :=
  if range.2 ≤ m.getExecutionSegmentsStart then true
  else if rangesOverlap range m.getHeapPageRange then false
  else !(m.mmapRegions.any fun entry => rangesOverlap entry.2.range range)

/-- The backward walk of `find_free_mmap_space` over the regions in decreasing order. -/
def scanDown (size : UInt32) : UInt32 → List (UInt32 × MMapRegion) → UInt32
  | prevStart, [] => (prevStart - size) &&& 0xfffff000
  | prevStart, (_, region) :: rest =>
    let regionEnd := nextPageBarrier (region.address + region.size)
    if prevStart - regionEnd ≥ size then prevPageBarrier (prevStart - size)
    else scanDown size region.address rest

def findFreeMmapSpace (m : MemoryRegions) (size : UInt32) : Option UInt32 :=
  if m.memoryTop - size < m.getHeapPageRange.2 then none
  else some (scanDown size m.memoryTop m.mmapRegions.reverse)

def mmap (m : MemoryRegions) (addr : Option UInt32) (size : UInt32) (backing : MMapBacking) :
    Except ProcessMemoryError (MemoryRegions × UInt32) := do
  let location ← match addr with
    | some requestStart =>
      if requestStart &&& 0xfff != 0 then throw .mmapWrongAlignment
      let requestEnd := requestStart + size
      pure (if m.canFitRange (requestStart, requestEnd) then some requestStart else m.findFreeMmapSpace size)
    | none => pure (m.findFreeMmapSpace size)
  match location with
  | some freeSpace =>
    pure ({ m with mmapRegions := insertKey m.mmapRegions freeSpace ⟨freeSpace, size, backing⟩ }, freeSpace)
  | none => throw .notEnoughMemory

def munmapScan : UInt32 → UInt32 → List (UInt32 × MMapRegion) → List (UInt32 × UInt32 × UInt32)
  | _, _, [] => []
  | unmapStart, unmapLength, (_, region) :: rest =>
    let (regionStart, regionEnd) := region.range
    let (unmapStart, unmapLength) :=
      if unmapStart < regionStart && unmapStart + unmapLength > regionStart then
        let delta := regionStart - unmapStart
        (unmapStart + delta, unmapLength - delta)
      else (unmapStart, unmapLength)
    if regionStart ≤ unmapStart && unmapStart < regionEnd then
      let canUnmap := regionEnd - unmapStart
      let (toRemove, remaining) := if canUnmap > unmapLength then (unmapLength, 0) else (canUnmap, unmapLength - canUnmap)
      let removeStart := unmapStart - regionStart
      (regionStart, removeStart, removeStart + toRemove) ::
        if remaining == 0 then [] else munmapScan (unmapStart + toRemove) remaining rest
    else munmapScan unmapStart unmapLength rest

def applyModification (regions : List (UInt32 × MMapRegion)) (modification : UInt32 × UInt32 × UInt32) :
    List (UInt32 × MMapRegion) :=
  let (key, removeStart, removeEnd) := modification
  match removeKey regions key with
  | (some region, regions) =>
    let regions := if removeStart > 0 then
      insertKey regions region.address ⟨region.address, removeStart, region.backedBy⟩ else regions
    if removeEnd < region.size then
      let newSize := region.size - removeEnd
      let newAddress := region.address + (region.size - newSize)
      insertKey regions newAddress ⟨newAddress, newSize, region.backedBy⟩
    else regions
  | (none, regions) => regions

def munmap (m : MemoryRegions) (addr length : UInt32) :
    Except ProcessMemoryError (MemoryRegions × (UInt32 × UInt32)) := do
  if length &&& 0xfff != 0 then throw .munmapNotPageMultiple
  if addr ≥ userKernelBarrier || addr + length ≥ userKernelBarrier then throw .mapOutOfBounds
  let modified := munmapScan addr length m.mmapRegions
  pure ({ m with mmapRegions := modified.foldl applyModification m.mmapRegions }, (addr, addr + length))

end MemoryRegions

/-! ## Calls on the memory map -/

inductive Call where
  | mmap (addr : Option UInt32) (size : UInt32) (backing : MMapBacking)
  | munmap (addr length : UInt32)
  deriving DecidableEq, Repr

def step (m : MemoryRegions) : Call → Option MemoryRegions
  | .mmap addr size backing => some (match m.mmap addr size backing with
    | .ok (m', _) => m'
    | .error _ => m)
  | .munmap addr length => some (match m.munmap addr length with
    | .ok (m', _) => m'
    | .error _ => m)

theorem explicitMmapsOverlap :
    ∃ m₁ m₂, (MemoryRegions.new.resetExecutionSegments [⟨0x400000, 0x1000, [⟨0, some 0, 0x1000⟩], false⟩]).mmap
        (some 0x1000) 0x2000 .anonymous = .ok (m₁, 0x1000) ∧
      m₁.mmap (some 0x2000) 0x1000 .anonymous = .ok (m₂, 0x2000) ∧
      m₂.mmapRegions = [(0x1000, ⟨0x1000, 0x2000, .anonymous⟩), (0x2000, ⟨0x2000, 0x1000, .anonymous⟩)] ∧
      rangesOverlap (0x1000, 0x3000) (0x2000, 0x3000) = true :=
  ⟨_, _, rfl, rfl, rfl, rfl⟩

end ImmDosNx.Regions
