import Mathlib
import ImmDosNx.Lib.ByteBitmap

/-! The frame bitmap (`memory/physical/frame_bitmap.rs`) and the frame ranges
it works on (`frame_range.rs`). Bit `i` of the map, bit `i & 7` of byte
`i >> 3`, is set when frame `i` is allocated. Byte and frame addresses are
`usize` of a 32-bit kernel built for release, so the range arithmetic is
`UInt32` and wraps; frame indices, bounded by `2 ^ 20`, are numbers. -/
namespace ImmDosNx.Physical
open ByteBitmap

structure FrameRange where
  start : UInt32
  length : UInt32
  deriving DecidableEq, Repr

namespace FrameRange

def getFirstFrameIndex (r : FrameRange) : Nat := (r.start >>> 12).toNat

/-- Here `(start + length - 1) >> 12`: for an empty range at 0 the difference wraps. -/
def getLastFrameIndex (r : FrameRange) : Nat := ((r.start + r.length - 1) >>> 12).toNat

end FrameRange

inductive BitmapError where
  | noAvailableSpace
  | outOfBounds
  deriving DecidableEq, Repr

structure FrameBitmap where
  frameCount : Nat
  map : List UInt8
  deriving DecidableEq, Repr

namespace FrameBitmap

def byteSize (frameCount : Nat) : Nat := frameCount >>> 3 + if frameCount &&& 7 != 0 then 1 else 0

def atLocation (memory : Nat → UInt8) (start frameCount : Nat) : FrameBitmap :=
  ⟨frameCount, (List.range (byteSize frameCount)).map fun i => memory (start + i)⟩

def reset (b : FrameBitmap) : FrameBitmap :=
  ⟨b.frameCount, b.map.mapIdx fun byteIndex byte => if byteIndex * 8 < b.frameCount then 0xff else byte⟩

def sizeInFrames (b : FrameBitmap) : Nat :=
  let byteSize := b.frameCount >>> 3
  let frameCount := byteSize >>> 12
  if byteSize &&& 0xfff == 0 then frameCount else frameCount + 1

def containsFrameIndex (b : FrameBitmap) (index : Nat) : Bool := index < b.frameCount

def containsRange (b : FrameBitmap) (range : FrameRange) : Bool := b.containsFrameIndex range.getLastFrameIndex

def frames (range : FrameRange) : List Nat :=
  List.range' range.getFirstFrameIndex (range.getLastFrameIndex + 1 - range.getFirstFrameIndex)

def allocateRange (b : FrameBitmap) (range : FrameRange) : Except BitmapError FrameBitmap :=
  if !b.containsRange range then .error .outOfBounds
  else .ok ⟨b.frameCount, (frames range).foldl setBit b.map⟩

def freeRange (b : FrameBitmap) (range : FrameRange) : Except BitmapError FrameBitmap :=
  if !b.containsRange range then .error .outOfBounds
  else .ok ⟨b.frameCount, (frames range).foldl clearBit b.map⟩

def isFree (b : FrameBitmap) (frame : Nat) : Bool := frame < b.frameCount && !testBit b.map frame

def isRangeFree (b : FrameBitmap) (range : FrameRange) : Bool :=
  b.containsRange range && (frames range).all fun frame => !testBit b.map frame

/-- The loop of `find_free_range` from `frame` on, one round per frame. -/
def findFreeRangeFrom (b : FrameBitmap) (frameCount : UInt32) : Nat → Nat → UInt32 → Nat → Option FrameRange
  | 0, _, _, _ => none
  | fuel + 1, frame, remaining, searchStart =>
    if frame < b.frameCount then
      if testBit b.map frame then findFreeRangeFrom b frameCount fuel (frame + 1) frameCount (frame + 1)
      else
        let remaining := remaining - 1
        if remaining == 0 then
          some ⟨(searchStart <<< 12).toUInt32, ((frame + 1 - searchStart) <<< 12).toUInt32⟩
        else findFreeRangeFrom b frameCount fuel (frame + 1) remaining searchStart
    else none

def findFreeRange (b : FrameBitmap) (frameCount : UInt32) : Option FrameRange :=
  findFreeRangeFrom b frameCount b.frameCount 0 frameCount 0

def allocateFrames (b : FrameBitmap) (frameCount : UInt32) : Except BitmapError (FrameBitmap × FrameRange) :=
  match b.findFreeRange frameCount with
  | none => .error .noAvailableSpace
  | some range => (b.allocateRange range).map fun b => (b, range)

/-- The loop of `get_free_frame_count`: a byte that is not `0xff` counts all eight of its clear bits at once,
padding bits included. -/
def freeFrameCountFrom (b : FrameBitmap) : Nat → Nat → Nat → Nat
  | 0, _, free => free
  | fuel + 1, frame, free =>
    if frame < b.frameCount then
      let mapValue := b.map.getD (frame >>> 3) 0
      if mapValue != 0xff then
        freeFrameCountFrom b fuel (frame + 8) (free + ((List.range 8).filter fun j => !byteBit mapValue j).length)
      else freeFrameCountFrom b fuel (frame + 1) free
    else free

def getFreeFrameCount (b : FrameBitmap) : Nat := b.freeFrameCountFrom (b.frameCount + 1) 0 0

/-! ### What each operation does to the bits -/

theorem byteSizeEq (frameCount : Nat) : byteSize frameCount = (frameCount + 7) / 8 := by
  have low : frameCount &&& 7 = frameCount % 8 := Nat.and_two_pow_sub_one_eq_mod frameCount 3
  unfold byteSize
  rw [Nat.shiftRight_eq_div_pow, low]
  by_cases whole : frameCount % 8 = 0
  · simp only [whole, bne_self_eq_false, Bool.false_eq_true, if_false]; omega
  · rw [if_pos (bne_iff_ne.mpr whole)]; omega

theorem sizeInFramesEq (b : FrameBitmap) : b.sizeInFrames = (b.frameCount / 8 + 4095) / 4096 := by
  have low : b.frameCount >>> 3 &&& 0xfff = b.frameCount / 8 % 4096 := by
    rw [Nat.shiftRight_eq_div_pow]
    exact Nat.and_two_pow_sub_one_eq_mod _ 12
  unfold sizeInFrames
  dsimp only
  rw [low, Nat.shiftRight_eq_div_pow, Nat.shiftRight_eq_div_pow]
  by_cases whole : b.frameCount / 8 % 4096 = 0
  · rw [if_pos (beq_iff_eq.mpr whole)]; omega
  · rw [if_neg (by simpa using whole)]; omega

theorem sizeInFramesShort (b : FrameBitmap) :
    (b.sizeInFrames * 0x1000 < byteSize b.frameCount ↔ b.frameCount % 8 ≠ 0 ∧ b.frameCount / 8 % 4096 = 0) ∧
      byteSize b.frameCount ≤ b.sizeInFrames * 0x1000 + 1 := by
  rw [sizeInFramesEq, byteSizeEq]
  omega

theorem byteIndexLt {frameCount k : Nat} (inside : k < frameCount) : k / 8 < byteSize frameCount := by
  rw [byteSizeEq]; omega

theorem memFrames {range : FrameRange} {k : Nat} :
    k ∈ frames range ↔ range.getFirstFrameIndex ≤ k ∧ k ≤ range.getLastFrameIndex := by
  unfold frames; rw [List.mem_range'_1]; omega

@[simp] theorem lengthAtLocation (memory : Nat → UInt8) (start frameCount : Nat) :
    (atLocation memory start frameCount).map.length = byteSize frameCount := by
  simp [atLocation]

@[simp] theorem frameCountReset (b : FrameBitmap) : b.reset.frameCount = b.frameCount := rfl

@[simp] theorem lengthReset (b : FrameBitmap) : b.reset.map.length = b.map.length := by
  simp [reset]

theorem testBitResetOfByte (b : FrameBitmap) {k : Nat} (written : k / 8 * 8 < b.frameCount)
    (stored : k / 8 < b.map.length) : testBit b.reset.map k = true := by
  unfold testBit reset
  rw [List.getElem?_mapIdx, List.getElem?_eq_getElem stored]
  simp only [Option.map_some, if_pos written]
  exact ByteBitmap.byteBitFull ⟨k % 8, Nat.mod_lt _ (by omega)⟩

theorem testBitReset (b : FrameBitmap) {k : Nat} (inside : k < b.frameCount) (stored : k / 8 < b.map.length) :
    testBit b.reset.map k = true :=
  testBitResetOfByte b (by omega) stored

theorem containsRangeIff {b : FrameBitmap} {range : FrameRange} :
    b.containsRange range = true ↔ range.getLastFrameIndex < b.frameCount := by
  simp [containsRange, containsFrameIndex]

theorem isFreeIff {b : FrameBitmap} {frame : Nat} :
    b.isFree frame = true ↔ frame < b.frameCount ∧ ¬ testBit b.map frame = true := by
  simp [isFree]

theorem freeRangeEq {b b' : FrameBitmap} {range : FrameRange} :
    b.freeRange range = .ok b' ↔
      range.getLastFrameIndex < b.frameCount ∧ b' = ⟨b.frameCount, (frames range).foldl clearBit b.map⟩ := by
  unfold freeRange containsRange containsFrameIndex
  by_cases inside : range.getLastFrameIndex < b.frameCount
  · simp [inside, eq_comm]
  · simp [inside]

theorem allocateRangeEq {b b' : FrameBitmap} {range : FrameRange} :
    b.allocateRange range = .ok b' ↔
      range.getLastFrameIndex < b.frameCount ∧ b' = ⟨b.frameCount, (frames range).foldl setBit b.map⟩ := by
  unfold allocateRange containsRange containsFrameIndex
  by_cases inside : range.getLastFrameIndex < b.frameCount
  · simp [inside, eq_comm]
  · simp [inside]

theorem freeRangeSpec {b b' : FrameBitmap} {range : FrameRange} (ok : b.freeRange range = .ok b') :
    b'.frameCount = b.frameCount ∧ b'.map.length = b.map.length ∧
      (∀ k, testBit b'.map k = true ↔ testBit b.map k = true ∧ k ∉ frames range) ∧
      ∀ k ∈ frames range, k < b.frameCount := by
  obtain ⟨inside, rfl⟩ := freeRangeEq.mp ok
  refine ⟨rfl, lengthFoldClearBit _ _, fun k => ?_, fun k mem => ?_⟩
  · simp [testBitFoldClearBit]
  · exact Nat.lt_of_le_of_lt (memFrames.mp mem).2 inside

theorem allocateRangeSpec {b b' : FrameBitmap} {range : FrameRange} (ok : b.allocateRange range = .ok b')
    (sized : b.map.length = byteSize b.frameCount) :
    b'.frameCount = b.frameCount ∧ b'.map.length = b.map.length ∧
      ∀ k, testBit b'.map k = true ↔ testBit b.map k = true ∨ k ∈ frames range := by
  obtain ⟨inside, rfl⟩ := allocateRangeEq.mp ok
  have stored : ∀ i ∈ frames range, i / 8 < b.map.length := fun i mem =>
    sized ▸ byteIndexLt (Nat.lt_of_le_of_lt (memFrames.mp mem).2 inside)
  refine ⟨rfl, lengthFoldSetBit _ _, fun k => ?_⟩
  simp [testBitFoldSetBit _ _ _ stored]

end FrameBitmap

end ImmDosNx.Physical
