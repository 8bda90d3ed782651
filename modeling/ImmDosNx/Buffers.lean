import ImmDosNx.Lib.Ring
import ImmDosNx.Lib.Run
import ImmDosNx.Lib.Align

/-! `RingBuffer` (`buffers.rs`): a single-producer, single-consumer byte queue in
a fixed slice. The `head` and `tail` counters run free and are reduced modulo
the slice length only to index it. `usize` is 32 bits wide and wraps; when the
slice length divides 2^32 the reduction commutes with the wrap, and the buffer
refines a bounded FIFO queue of the slice's length over every sequence of calls,
however far the counters have run. -/
namespace ImmDosNx.Buffers

structure RingBuffer where
  head : UInt32
  tail : UInt32
  data : List UInt8
  deriving DecidableEq, Repr

namespace RingBuffer

def new (data : List UInt8) : RingBuffer := ⟨0, 0, data⟩

/-- The length of `dest` is a `usize`, so its comparison with `available_len` is the same in `Nat`. The copy loop
is `Ring.copyOut` at the source's positions. -/
def read (rb : RingBuffer) (dest : List UInt8) : RingBuffer × List UInt8 × UInt32 :=
  let len := rb.data.length.toUInt32
  let availableLen := rb.tail - rb.head
  let toRead := if availableLen.toNat < dest.length then availableLen else dest.length.toUInt32
  let dest := Ring.copyOut rb.data (fun i => ((rb.head + i.toUInt32) % len).toNat) toRead.toNat dest
  ({ rb with head := rb.head + toRead }, dest, toRead)

def write (rb : RingBuffer) (src : List UInt8) : RingBuffer × UInt32 :=
  let len := rb.data.length.toUInt32
  let availableRoom := rb.head + len - rb.tail
  let toWrite := if availableRoom.toNat < src.length then availableRoom else src.length.toUInt32
  let data := Ring.fill rb.data (fun i => ((rb.tail + i.toUInt32) % len).toNat) toWrite.toNat fun i => src[i]!
  ({ rb with tail := rb.tail + toWrite, data }, toWrite)

def availableBytes (rb : RingBuffer) : UInt32 := rb.tail - rb.head

def drain (rb : RingBuffer) : RingBuffer := { rb with head := rb.tail }

end RingBuffer

inductive Call
  | read (dest : List UInt8)
  | write (src : List UInt8)
  | availableBytes
  | drain
  deriving DecidableEq, Repr

inductive Reply
  | read (dest : List UInt8) (count : Nat)
  | written (count : Nat)
  | available (count : Nat)
  | drained
  deriving DecidableEq, Repr

def RingBuffer.perform (rb : RingBuffer) : Call → RingBuffer × Reply
  | .read dest =>
    let (rb, dest, count) := rb.read dest
    (rb, .read dest count.toNat)
  | .write src =>
    let (rb, count) := rb.write src
    (rb, .written count.toNat)
  | .availableBytes => (rb, .available rb.availableBytes.toNat)
  | .drain => (rb.drain, .drained)

def queuePerform (capacity : Nat) (queue : List UInt8) : Call → List UInt8 × Reply
  | .read dest =>
    let (queue, dest, count) := BoundedQueue.read queue dest
    (queue, .read dest count)
  | .write src =>
    let (queue, count) := BoundedQueue.write capacity queue src
    (queue, .written count)
  | .availableBytes => (queue, .available queue.length)
  | .drain => ([], .drained)

/-- A slice length that a `usize` holds and that divides 2^32. -/
structure Fits (capacity : Nat) : Prop where
  nonempty : 0 < capacity
  divides : capacity ∣ 2 ^ 32
  isUsize : capacity < 2 ^ 32

structure Represents (capacity : Nat) (rb : RingBuffer) (queue : List UInt8) : Prop where
  length : rb.data.length = capacity
  size : (rb.tail - rb.head).toNat = queue.length
  bounded : queue.length ≤ capacity
  layout : Ring.Holds rb.data rb.head.toNat queue

section Refinement

variable {capacity : Nat} (fits : Fits capacity)
include fits

theorem lenToNat {data : List UInt8} (length : data.length = capacity) :
    data.length.toUInt32.toNat = capacity := by
  rw [UInt32.toNat_ofNat', length, Nat.mod_eq_of_lt fits.isUsize]

theorem positionEq {data : List UInt8} (length : data.length = capacity) (x : UInt32) {i : Nat}
    (small : i < 2 ^ 32) : ((x + i.toUInt32) % data.length.toUInt32).toNat = (x.toNat + i) % capacity := by
  rw [UInt32.toNat_mod, lenToNat fits length, Align.addToNatMod _ _ fits.divides, UInt32.toNat_ofNat',
    Nat.mod_eq_of_lt small]

theorem tailCongruent {rb : RingBuffer} {queue : List UInt8} (holds : Represents capacity rb queue) :
    rb.tail.toNat % capacity = (rb.head.toNat + queue.length) % capacity := by
  rw [Align.distanceToNatMod rb.head rb.tail fits.divides, holds.size]

theorem readRepresents {rb : RingBuffer} {queue : List UInt8} (holds : Represents capacity rb queue)
    (dest : List UInt8) :
    Represents capacity (rb.read dest).1 (BoundedQueue.read queue dest).1 ∧
      (rb.read dest).2.1 = (BoundedQueue.read queue dest).2.1 ∧
      (rb.read dest).2.2.toNat = (BoundedQueue.read queue dest).2.2 := by
  have count : (if (rb.tail - rb.head).toNat < dest.length then rb.tail - rb.head else dest.length.toUInt32).toNat =
      min dest.length queue.length := by
    split
    · next fewer => rw [holds.size] at fewer ⊢; omega
    · next enough =>
      rw [holds.size] at enough
      rw [UInt32.toNat_ofNat', Nat.mod_eq_of_lt (by have := holds.bounded; have := fits.isUsize; omega)]
      omega
  simp only [RingBuffer.read, BoundedQueue.read]
  generalize toRead : (if (rb.tail - rb.head).toNat < dest.length then rb.tail - rb.head else dest.length.toUInt32) = n
    at count ⊢
  have few : n.toNat ≤ queue.length := by omega
  refine ⟨⟨holds.length, ?_, ?_, ?_⟩, ?_, count⟩
  · rw [Align.distanceAfterFirst _ _ _ (by rw [holds.size]; exact few), holds.size, count]
    simp
  · have := holds.bounded
    simp only [List.length_drop]
    omega
  · dsimp only
    rw [← count]
    apply Ring.holdsModEq (Ring.holdsDrop holds.layout n.toNat)
    rw [holds.length, Align.addToNatMod _ _ fits.divides]
  · rw [← count]
    exact Ring.copyOutEq holds.layout dest few (by omega) fun i lt =>
      by rw [positionEq fits holds.length _ (by have := n.toNat_lt; omega), holds.length]

theorem writeRepresents {rb : RingBuffer} {queue : List UInt8} (holds : Represents capacity rb queue)
    (src : List UInt8) :
    Represents capacity (rb.write src).1 (BoundedQueue.write capacity queue src).1 ∧
      (rb.write src).2.toNat = (BoundedQueue.write capacity queue src).2 := by
  have room : (rb.head + rb.data.length.toUInt32 - rb.tail).toNat = capacity - queue.length := by
    have within : rb.tail - rb.head ≤ rb.data.length.toUInt32 := by
      rw [UInt32.le_iff_toNat_le, holds.size, lenToNat fits holds.length]
      exact holds.bounded
    have flipped : rb.head + rb.data.length.toUInt32 - rb.tail = rb.data.length.toUInt32 - (rb.tail - rb.head) := by
      grind
    rw [flipped, UInt32.toNat_sub_of_le _ _ within, holds.size, lenToNat fits holds.length]
  have count : (if (rb.head + rb.data.length.toUInt32 - rb.tail).toNat < src.length
      then rb.head + rb.data.length.toUInt32 - rb.tail else src.length.toUInt32).toNat =
      min src.length (capacity - queue.length) := by
    split
    · next fewer => rw [room] at fewer ⊢; omega
    · next enough =>
      rw [room] at enough
      rw [UInt32.toNat_ofNat', Nat.mod_eq_of_lt (by have := fits.isUsize; omega)]
      omega
  simp only [RingBuffer.write, BoundedQueue.write]
  generalize toWrite : (if (rb.head + rb.data.length.toUInt32 - rb.tail).toNat < src.length
      then rb.head + rb.data.length.toUInt32 - rb.tail else src.length.toUInt32) = n at count ⊢
  have bounded := holds.bounded
  refine ⟨⟨by simp [holds.length], ?_, ?_, ?_⟩, count⟩
  · rw [Align.distanceAfterSecond _ _ _ (by rw [holds.size, count]; have := fits.isUsize; omega), holds.size, count]
    simp only [List.length_append, List.length_take]
    omega
  · simp only [List.length_append, List.length_take]
    omega
  · dsimp only
    rw [← count, ← Ring.rangeMapGetElem src (by omega : n.toNat ≤ src.length)]
    refine Ring.holdsFill holds.layout _ (by rw [holds.length]; omega) fun i lt => ?_
    rw [positionEq fits holds.length _ (by have := n.toNat_lt; omega), holds.length, Nat.add_mod,
      tailCongruent fits holds, ← Nat.add_mod]

theorem performRepresents {rb : RingBuffer} {queue : List UInt8} (holds : Represents capacity rb queue)
    (call : Call) :
    Represents capacity (rb.perform call).1 (queuePerform capacity queue call).1 ∧
      (rb.perform call).2 = (queuePerform capacity queue call).2 := by
  cases call with
  | read dest =>
    obtain ⟨next, filled, count⟩ := readRepresents fits holds dest
    exact ⟨next, by simp only [RingBuffer.perform, queuePerform, filled, count]⟩
  | write src =>
    obtain ⟨next, count⟩ := writeRepresents fits holds src
    exact ⟨next, by simp only [RingBuffer.perform, queuePerform, count]⟩
  | availableBytes => exact ⟨holds, by simp [RingBuffer.perform, queuePerform, RingBuffer.availableBytes, holds.size]⟩
  | drain =>
    refine ⟨⟨holds.length, by simp [RingBuffer.perform, RingBuffer.drain, queuePerform], Nat.zero_le _, Ring.holdsNil _ _⟩, rfl⟩

end Refinement

theorem ringBufferRefinesQueue (data : List UInt8) (nonempty : 0 < data.length) (divides : data.length ∣ 2 ^ 32)
    (isUsize : data.length < 2 ^ 32) (calls : List Call) :
    ∃ rb queue replies,
      Machine.runWith (fun rb call => some (rb.perform call)) (RingBuffer.new data) calls = some (rb, replies) ∧
      Machine.runWith (fun queue call => some (queuePerform data.length queue call)) [] calls = some (queue, replies) ∧
      Represents data.length rb queue :=
  Machine.runWithSimulation (Represents data.length)
    (fun _ _ call holds => performRepresents ⟨nonempty, divides, isUsize⟩ holds call)
    ⟨rfl, by simp [RingBuffer.new], Nat.zero_le _, Ring.holdsNil _ _⟩ calls

theorem ttyBufferRefinesQueue :
    0 < (List.replicate 512 (0 : UInt8)).length ∧ (List.replicate 512 (0 : UInt8)).length ∣ 2 ^ 32 ∧
      (List.replicate 512 (0 : UInt8)).length < 2 ^ 32 ∧
      ∃ rb queue replies,
        Machine.runWith (fun rb call => some (rb.perform call)) (RingBuffer.new (List.replicate 512 0))
          [.write (List.replicate 600 7), .read [0, 0], .availableBytes] = some (rb, replies) ∧
        Machine.runWith (fun queue call => some (queuePerform (List.replicate 512 (0 : UInt8)).length queue call)) []
          [.write (List.replicate 600 7), .read [0, 0], .availableBytes] = some (queue, replies) ∧
        Represents (List.replicate 512 (0 : UInt8)).length rb queue := by
  have fits : 0 < (List.replicate 512 (0 : UInt8)).length ∧ (List.replicate 512 (0 : UInt8)).length ∣ 2 ^ 32 ∧
      (List.replicate 512 (0 : UInt8)).length < 2 ^ 32 := by
    simp only [List.length_replicate]
    decide
  exact ⟨fits.1, fits.2.1, fits.2.2, ringBufferRefinesQueue _ fits.1 fits.2.1 fits.2.2 _⟩

end ImmDosNx.Buffers
