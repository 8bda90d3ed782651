import ImmDosNx.Lib.Except
import ImmDosNx.Memory.Physical.FrameBitmap

/-! Building the frame allocator from the BIOS memory map (`memory/physical/mod.rs`,
`init_allocator`; `bios.rs`; `FrameBitmap::initialize_from_memory_map`). The map's
64-bit bases and lengths are cut to the kernel's 32-bit `usize`; every frame of the
bitmap starts allocated, the frame spans of the free entries are cleared in map order,
and the bitmap's own frames and frame 0 are set again. -/
namespace ImmDosNx.Physical
open ByteBitmap FrameBitmap

structure MapEntry where
  base : UInt64
  length : UInt64
  regionType : UInt32
  deriving DecidableEq, Repr

def regionTypeFree : UInt32 := 1
def regionTypeReserved : UInt32 := 2

def entryRange (entry : MapEntry) : FrameRange :=
  ⟨(entry.base &&& 0xffffffff).toUInt32, (entry.length &&& 0xffffffff).toUInt32⟩

/-- The end of each entry is summed in 64 bits, then cut to usize. -/
def memoryLimit (map : List MapEntry) : UInt32 :=
  map.foldl (fun limit entry =>
    let entryEnd := (entry.base + entry.length).toUInt32
    if entryEnd > limit then entryEnd else limit) 0

def freeEntries (b : FrameBitmap) : List MapEntry → Except BitmapError FrameBitmap
  | [] => .ok b
  | entry :: rest =>
    if entry.regionType == regionTypeFree then do
      let b ← b.freeRange (entryRange entry)
      freeEntries b rest
    else freeEntries b rest

def FrameBitmap.initializeFromMemoryMap (b : FrameBitmap) (map : List MapEntry) :
    Except BitmapError FrameBitmap :=
  freeEntries b.reset map

def ownRange (location : UInt32) (b : FrameBitmap) : FrameRange :=
  ⟨location, (b.sizeInFrames * 0x1000).toUInt32⟩

/-- A failed assert or unwrap is a panic: none. -/
def initAllocator (memory : Nat → UInt8) (location : UInt32) (map : List MapEntry) : Option FrameBitmap :=
  if location &&& 0xfff != 0 then none
  else do
    let bitmap := atLocation memory location.toNat (memoryLimit map >>> 12).toNat
    let bitmap ← (bitmap.initializeFromMemoryMap map).toOption
    let bitmap ← (bitmap.allocateRange (ownRange location bitmap)).toOption
    (bitmap.allocateRange ⟨0, 0x1000⟩).toOption

def FreedBy (map : List MapEntry) (k : Nat) : Prop :=
  ∃ entry ∈ map, entry.regionType = regionTypeFree ∧ k ∈ frames (entryRange entry)

instance (map : List MapEntry) : DecidablePred (FreedBy map) := fun k =>
  inferInstanceAs (Decidable (∃ entry ∈ map, entry.regionType = regionTypeFree ∧ k ∈ frames (entryRange entry)))

theorem freedByCons {entry : MapEntry} {rest : List MapEntry} {k : Nat} :
    FreedBy (entry :: rest) k ↔
      (entry.regionType = regionTypeFree ∧ k ∈ frames (entryRange entry)) ∨ FreedBy rest k := by
  simp [FreedBy]

theorem ownRangeCongr {location : UInt32} {b b' : FrameBitmap} (same : b.frameCount = b'.frameCount) :
    ownRange location b = ownRange location b' := by
  simp only [ownRange, sizeInFrames, same]

/-! ### Initialising from the map -/

theorem freeEntriesSpec {b b' : FrameBitmap} {map : List MapEntry} (ok : freeEntries b map = .ok b') :
    b'.frameCount = b.frameCount ∧ b'.map.length = b.map.length ∧
      (∀ k, testBit b'.map k = true ↔ testBit b.map k = true ∧ ¬ FreedBy map k) ∧
      ∀ entry ∈ map, entry.regionType = regionTypeFree → (entryRange entry).getLastFrameIndex < b.frameCount := by
  induction map generalizing b with
  | nil =>
    simp only [freeEntries, Except.ok.injEq] at ok
    subst ok
    simp [FreedBy]
  | cons entry rest ih =>
    by_cases free : entry.regionType = regionTypeFree
    · simp only [freeEntries, free, beq_self_eq_true, if_true, Except.bindEqOk] at ok
      obtain ⟨b1, freed, restOk⟩ := ok
      obtain ⟨count1, length1, bits1, -⟩ := freeRangeSpec freed
      obtain ⟨count, length, bits, inside⟩ := ih restOk
      refine ⟨count.trans count1, length.trans length1, fun k => ?_, fun e mem eFree => ?_⟩
      · rw [bits, bits1, freedByCons]
        simp only [free, true_and]
        tauto
      · rcases List.mem_cons.mp mem with rfl | later
        · exact (freeRangeEq.mp freed).1
        · exact count1 ▸ inside e later eFree
    · simp only [freeEntries, beq_iff_eq, free, if_false] at ok
      obtain ⟨count, length, bits, inside⟩ := ih ok
      refine ⟨count, length, fun k => ?_, fun e mem eFree => ?_⟩
      · rw [bits, freedByCons]
        simp [free]
      · rcases List.mem_cons.mp mem with rfl | later
        · exact absurd eFree free
        · exact inside e later eFree

theorem freeEntriesComplete (b : FrameBitmap) (map : List MapEntry)
    (inside : ∀ entry ∈ map, entry.regionType = regionTypeFree →
      (entryRange entry).getLastFrameIndex < b.frameCount) :
    ∃ b', freeEntries b map = .ok b' := by
  induction map generalizing b with
  | nil => exact ⟨b, rfl⟩
  | cons entry rest ih =>
    have later : ∀ e ∈ rest, e.regionType = regionTypeFree → (entryRange e).getLastFrameIndex < b.frameCount :=
      fun e mem => inside e (List.mem_cons_of_mem _ mem)
    by_cases free : entry.regionType = regionTypeFree
    · have freed := freeRangeEq.mpr ⟨inside entry List.mem_cons_self free, rfl⟩
      obtain ⟨b', ok⟩ := ih ⟨b.frameCount, (frames (entryRange entry)).foldl clearBit b.map⟩ later
      exact ⟨b', by simp only [freeEntries, free, beq_self_eq_true, if_true]; exact Except.bindEqOk.mpr ⟨_, freed, ok⟩⟩
    · obtain ⟨b', ok⟩ := ih b later
      exact ⟨b', by simp only [freeEntries, beq_iff_eq, free, if_false]; exact ok⟩

theorem initializeFromMemoryMapSpec {memory : Nat → UInt8} {start frameCount : Nat} {map : List MapEntry}
    {b : FrameBitmap} (ok : (atLocation memory start frameCount).initializeFromMemoryMap map = .ok b) :
    b.frameCount = frameCount ∧ b.map.length = byteSize frameCount ∧
      (∀ k < frameCount, testBit b.map k = true ↔ ¬ FreedBy map k) ∧
      ∀ entry ∈ map, entry.regionType = regionTypeFree → (entryRange entry).getLastFrameIndex < frameCount := by
  obtain ⟨count, length, bits, inside⟩ := freeEntriesSpec ok
  refine ⟨count, by simp [length], fun k lt => ?_, inside⟩
  have allSet : testBit (atLocation memory start frameCount).reset.map k = true :=
    testBitReset _ lt (by simpa using byteIndexLt lt)
  rw [bits, allSet]
  simp

/-! ### init_allocator -/

theorem initAllocatorEq {memory : Nat → UInt8} {location : UInt32} {map : List MapEntry} {b : FrameBitmap} :
    initAllocator memory location map = some b ↔ location &&& 0xfff = 0 ∧
      ∃ b1 b2, (atLocation memory location.toNat (memoryLimit map >>> 12).toNat).initializeFromMemoryMap map = .ok b1 ∧
        b1.allocateRange (ownRange location b1) = .ok b2 ∧ b2.allocateRange ⟨0, 0x1000⟩ = .ok b := by
  unfold initAllocator
  by_cases aligned : location &&& 0xfff = 0
  · simp [aligned, Option.bind_eq_some_iff]
  · simp [aligned]

theorem initAllocatorFrameCount {memory : Nat → UInt8} {location : UInt32} {map : List MapEntry}
    {b : FrameBitmap} (done : initAllocator memory location map = some b) :
    b.frameCount = (memoryLimit map >>> 12).toNat := by
  obtain ⟨-, b1, b2, init, own, zero⟩ := initAllocatorEq.mp done
  obtain ⟨-, rfl⟩ := allocateRangeEq.mp zero
  obtain ⟨-, rfl⟩ := allocateRangeEq.mp own
  exact (initializeFromMemoryMapSpec init).1

theorem initAllocatorIsFree {memory : Nat → UInt8} {location : UInt32} {map : List MapEntry} {b : FrameBitmap}
    (done : initAllocator memory location map = some b) (k : Nat) :
    b.isFree k = true ↔ FreedBy map k ∧ k ∉ frames (ownRange location b) ∧ k ≠ 0 := by
  obtain ⟨-, b1, b2, init, own, zero⟩ := initAllocatorEq.mp done
  obtain ⟨count1, length1, bits1, inside1⟩ := initializeFromMemoryMapSpec init
  obtain ⟨count2, length2, bits2⟩ := allocateRangeSpec own (by rw [length1, count1])
  obtain ⟨count, -, bits⟩ := allocateRangeSpec zero (by rw [length2, count2, length1, count1])
  have frameZero : frames ⟨0, 0x1000⟩ = [0] := rfl
  have freedInside : FreedBy map k → k < (memoryLimit map >>> 12).toNat := by
    rintro ⟨e, mem, free, span⟩
    exact Nat.lt_of_le_of_lt (memFrames.mp span).2 (inside1 e mem free)
  rw [isFreeIff, bits, bits2, ownRangeCongr (count.trans count2), frameZero, count, count2, count1]
  by_cases lt : k < (memoryLimit map >>> 12).toNat
  · rw [bits1 k lt]
    simp only [List.mem_singleton]
    tauto
  · exact iff_of_false (fun free => lt free.1) (fun free => lt (freedInside free.1))

theorem initAllocatorCompletes (memory : Nat → UInt8) (location : UInt32) (map : List MapEntry) :
    let bitmap := atLocation memory location.toNat (memoryLimit map >>> 12).toNat
    (initAllocator memory location map).isSome = true ↔ location &&& 0xfff = 0 ∧
      (∀ entry ∈ map, entry.regionType = regionTypeFree → bitmap.containsRange (entryRange entry) = true) ∧
      bitmap.containsRange (ownRange location bitmap) = true ∧ bitmap.containsRange ⟨0, 0x1000⟩ = true := by
  intro bitmap
  rw [Option.isSome_iff_exists]
  constructor
  · rintro ⟨b, done⟩
    obtain ⟨aligned, b1, b2, init, own, zero⟩ := initAllocatorEq.mp done
    obtain ⟨count1, -, -, inside1⟩ := initializeFromMemoryMapSpec init
    have same : b1.frameCount = bitmap.frameCount := count1
    obtain ⟨ownInside, rfl⟩ := allocateRangeEq.mp own
    have zeroInside := (allocateRangeEq.mp zero).1
    refine ⟨aligned, fun e mem free => containsRangeIff.mpr (inside1 e mem free), ?_, ?_⟩
    · rw [containsRangeIff, ownRangeCongr same.symm, ← same]
      exact ownInside
    · rw [containsRangeIff, ← same]
      exact zeroInside
  · rintro ⟨aligned, inside, ownInside, zeroInside⟩
    obtain ⟨b1, init⟩ := freeEntriesComplete bitmap.reset map fun e mem free =>
      containsRangeIff.mp (inside e mem free)
    have same : b1.frameCount = bitmap.frameCount := (initializeFromMemoryMapSpec init).1
    have ownInside' : (ownRange location b1).getLastFrameIndex < b1.frameCount := by
      rw [ownRangeCongr same, same]
      exact containsRangeIff.mp ownInside
    obtain ⟨b2, own, count2⟩ : ∃ b2, b1.allocateRange (ownRange location b1) = .ok b2 ∧
        b2.frameCount = b1.frameCount := ⟨_, allocateRangeEq.mpr ⟨ownInside', rfl⟩, rfl⟩
    have zeroInside' : (⟨0, 0x1000⟩ : FrameRange).getLastFrameIndex < b2.frameCount := by
      rw [count2, same]
      exact containsRangeIff.mp zeroInside
    exact ⟨_, initAllocatorEq.mpr ⟨aligned, b1, b2, init, own, allocateRangeEq.mpr ⟨zeroInside', rfl⟩⟩⟩

theorem initAllocatorFreesOnlyFreeSpans (memory : Nat → UInt8) (location : UInt32) (map : List MapEntry) :
    let bitmap := atLocation memory location.toNat (memoryLimit map >>> 12).toNat
    ((initAllocator memory location map).isSome = true ↔ location &&& 0xfff = 0 ∧
      (∀ entry ∈ map, entry.regionType = regionTypeFree → bitmap.containsRange (entryRange entry) = true) ∧
      bitmap.containsRange (ownRange location bitmap) = true ∧ bitmap.containsRange ⟨0, 0x1000⟩ = true) ∧
    ∀ b, initAllocator memory location map = some b →
      ∀ k, b.isFree k = true ↔ FreedBy map k ∧ k ∉ frames (ownRange location b) ∧ k ≠ 0 :=
  ⟨initAllocatorCompletes memory location map, fun _ done k => initAllocatorIsFree done k⟩

theorem initAllocatorFreesReservedFrame :
    (∃ b, initAllocator (fun _ => 0) 0x10000
        [⟨0, 0x20000, regionTypeFree⟩, ⟨0x9000, 0x1000, regionTypeReserved⟩] = some b ∧ b.isFree 9 = true) ∧
      9 ∈ frames (entryRange ⟨0x9000, 0x1000, regionTypeReserved⟩) ∧
      initAllocator (fun _ => 0) 0x10000 [⟨0, 0x20000, regionTypeFree⟩, ⟨0, 0, regionTypeFree⟩] = none :=
  ⟨⟨_, rfl, by decide⟩, by decide, by decide⟩

theorem ownRangeMissesLastByte :
    (∀ b : FrameBitmap, b.sizeInFrames * 0x1000 < byteSize b.frameCount ↔
        b.frameCount % 8 ≠ 0 ∧ b.frameCount / 8 % 4096 = 0) ∧
    (∀ b : FrameBitmap, byteSize b.frameCount ≤ b.sizeInFrames * 0x1000 + 1) ∧
    ∃ b, initAllocator (fun _ => 0) 0x10000 [⟨0, 0x8001000, regionTypeFree⟩] = some b ∧
      byteSize b.frameCount = 4097 ∧ b.sizeInFrames = 1 ∧
      b.isFree ((0x10000 + byteSize b.frameCount - 1) / 0x1000) = true := by
  refine ⟨fun b => (sizeInFramesShort b).1, fun b => (sizeInFramesShort b).2, ?_⟩
  obtain ⟨b, done⟩ := Option.isSome_iff_exists.mp
    ((initAllocatorCompletes (fun _ => 0) 0x10000 [⟨0, 0x8001000, regionTypeFree⟩]).mpr
      ⟨by decide, by decide, by decide, by decide⟩)
  have count : b.frameCount = 32769 := by rw [initAllocatorFrameCount done]; rfl
  have size : b.sizeInFrames = 1 := by rw [sizeInFramesEq, count]
  have bytes : byteSize b.frameCount = 4097 := by rw [count]; rfl
  have own : ownRange 0x10000 b = ⟨0x10000, 0x1000⟩ := by rw [ownRange, size]; rfl
  have freed : FreedBy [⟨0, 0x8001000, regionTypeFree⟩] 17 :=
    ⟨_, List.mem_singleton_self _, rfl, memFrames.mpr ⟨by decide, by decide⟩⟩
  have notOwn : 17 ∉ frames (ownRange 0x10000 b) := by
    rw [own, memFrames]
    decide
  refine ⟨b, done, bytes, size, ?_⟩
  rw [bytes]
  exact (initAllocatorIsFree done 17).mpr ⟨freed, notOwn, by decide⟩

end ImmDosNx.Physical
