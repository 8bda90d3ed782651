import ImmDosNx.Lib.Ring
import ImmDosNx.Lib.Run
import ImmDosNx.Lib.Align

/-! The `InputBuffer` of an input device (`input/buffers.rs`). A process that reads
the keyboard owns one: `start_read` opens it empty, the interrupt handler writes key
events into it a pair of bytes at a time, and the reader copies out what is pending.
`head` and `tail` run free and are masked with `BUFFER_LENGTH - 1` only to index the
array; a pair goes to the cell at `tail & 31` and to the one after it, unmasked, so
the buffer would index past its end unless `tail` stays even. It refines a FIFO
queue of pending bytes that takes a pair while reading and fewer than 30 bytes wait. -/
namespace ImmDosNx.Input

def bufferLength : UInt32 := 32

structure InputBuffer where
  data : List UInt8
  sized : data.length = bufferLength.toNat
  head : UInt32
  tail : UInt32
  isReading : Bool

namespace InputBuffer

def forProcess : InputBuffer := ⟨List.replicate bufferLength.toNat 0, List.length_replicate, 0, 0, false⟩

def startRead (b : InputBuffer) : InputBuffer := { b with isReading := true, head := 0, tail := 0 }

/-- Here `none` where `data[location + 1]` indexes past the array and panics. -/
def writePair (b : InputBuffer) (pair : UInt8 × UInt8) : Option InputBuffer :=
  if !b.isReading then some b
  else if b.tail - b.head ≥ b.data.length.toUInt32 - 2 then some b
  else
    let location := (b.tail &&& (bufferLength - 1)).toNat
    if location + 1 < b.data.length then
      some { b with tail := b.tail + 2, data := (b.data.set location pair.1).set (location + 1) pair.2,
                    sized := by simp [b.sized] }
    else none

def readToBuffer (b : InputBuffer) (buffer : List UInt8) : InputBuffer × List UInt8 × UInt32 :=
  let availableLength := b.tail - b.head
  if availableLength = 0 then (b, buffer, 0)
  else
    let writingLength := if buffer.length ≤ availableLength.toNat then buffer.length.toUInt32 else availableLength
    let writingStart := b.head &&& (bufferLength - 1)
    let buffer := Ring.copyOut b.data (fun i => ((writingStart + i.toUInt32) &&& (bufferLength - 1)).toNat)
      writingLength.toNat buffer
    ({ b with head := b.head + writingLength }, buffer, writingLength)

def bytesAvailable (b : InputBuffer) : UInt32 := b.tail - b.head

end InputBuffer

inductive Call
  | startRead
  | writePair (pair : UInt8 × UInt8)
  | readToBuffer (buffer : List UInt8)
  | bytesAvailable
  deriving DecidableEq, Repr

inductive Reply
  | done
  | read (buffer : List UInt8) (count : Nat)
  | available (count : Nat)
  deriving DecidableEq, Repr

def InputBuffer.perform (b : InputBuffer) : Call → Option (InputBuffer × Reply)
  | .startRead => some (b.startRead, .done)
  | .writePair pair => (b.writePair pair).map (·, .done)
  | .readToBuffer buffer =>
    let (b, buffer, count) := b.readToBuffer buffer
    some (b, .read buffer count.toNat)
  | .bytesAvailable => some (b, .available b.bytesAvailable.toNat)

structure Pending where
  reading : Bool
  queue : List UInt8
  deriving DecidableEq, Repr

def Pending.perform (p : Pending) : Call → Pending × Reply
  | .startRead => (⟨true, []⟩, .done)
  | .writePair (x, y) => (if p.reading ∧ p.queue.length < 30 then { p with queue := p.queue ++ [x, y] } else p, .done)
  | .readToBuffer buffer =>
    let (queue, buffer, count) := BoundedQueue.read p.queue buffer
    ({ p with queue }, .read buffer count)
  | .bytesAvailable => (p, .available p.queue.length)

structure Represents (b : InputBuffer) (p : Pending) : Prop where
  reading : b.isReading = p.reading
  size : (b.tail - b.head).toNat = p.queue.length
  bounded : p.queue.length < bufferLength.toNat
  even : b.tail.toNat % 2 = 0
  layout : Ring.Holds b.data b.head.toNat p.queue

namespace InputBuffer

@[simp] theorem bufferLengthToNat : bufferLength.toNat = 32 := rfl

theorem maskToNat (x : UInt32) : (x &&& (bufferLength - 1)).toNat = x.toNat % 32 :=
  @Align.toNatAndLowMask x _ 5 rfl

theorem startReadRepresents (b : InputBuffer) : Represents b.startRead ⟨true, []⟩ :=
  ⟨rfl, by simp [startRead], by decide, rfl, Ring.holdsNil _ _⟩

theorem writePairRepresents {b : InputBuffer} {p : Pending} (holds : Represents b p) (x y : UInt8) :
    ∃ b', b.writePair (x, y) = some b' ∧ Represents b' (p.perform (.writePair (x, y))).1 := by
  have sized := b.sized
  simp only [bufferLengthToNat] at sized
  have full : b.tail - b.head ≥ b.data.length.toUInt32 - 2 ↔ 30 ≤ p.queue.length := by
    rw [ge_iff_le, UInt32.le_iff_toNat_le, holds.size, sized]
    rfl
  unfold writePair
  by_cases accepted : p.reading ∧ p.queue.length < 30
  · obtain ⟨reading, room⟩ := accepted
    have atTail : b.tail.toNat % 32 = (b.head.toNat + p.queue.length) % 32 := by
      rw [Align.distanceToNatMod b.head b.tail (by decide), holds.size]
    have even := holds.even
    have inside : b.tail.toNat % 32 + 1 < b.data.length := by omega
    refine ⟨{ b with
        tail := b.tail + 2
        data := (b.data.set (b.tail.toNat % 32) x).set (b.tail.toNat % 32 + 1) y
        sized := by simp [b.sized] }, ?_, ?_⟩
    · simp only [maskToNat]
      simp [holds.reading, reading, full, Nat.not_le.mpr room, inside]
    refine ⟨holds.reading.trans (by simp [Pending.perform, reading, room]), ?_, ?_, ?_, ?_⟩
    · simp only [Pending.perform, reading, room, and_self, if_true, List.length_append]
      rw [Align.distanceAfterSecond _ _ _ (by rw [holds.size]; simp only [UInt32.reduceToNat]; omega), holds.size]
      rfl
    · simp [Pending.perform, reading, room]
      omega
    · rw [UInt32.toNat_add]
      simp only [UInt32.reduceToNat]
      omega
    · have pushed := Ring.holdsPush (Ring.holdsPush holds.layout (by omega) x) (by simp [sized]; omega) y
      simp only [List.length_set, List.length_append, List.length_singleton, List.append_assoc,
        List.singleton_append, sized] at pushed
      have atNext : b.tail.toNat % 32 + 1 = (b.head.toNat + (p.queue.length + 1)) % 32 := by omega
      simp only [Pending.perform, reading, room, and_self, if_true]
      rw [atNext, atTail]
      exact pushed
  · have kept : (p.perform (.writePair (x, y))).1 = p := by simp [Pending.perform, accepted]
    rw [kept]
    refine ⟨b, ?_, holds⟩
    by_cases reading : p.reading
    · have fullNow : 30 ≤ p.queue.length := Nat.not_lt.mp fun room => accepted ⟨reading, room⟩
      simp [holds.reading, reading, full.mpr fullNow]
    · simp [holds.reading, reading]

theorem readPositionEq (b : InputBuffer) {i : Nat} (small : i < 2 ^ 32) :
    ((b.head &&& (bufferLength - 1)) + i.toUInt32 &&& (bufferLength - 1)).toNat = (b.head.toNat + i) % b.data.length := by
  rw [maskToNat, Align.addToNatMod _ _ (by decide), maskToNat, UInt32.toNat_ofNat', Nat.mod_eq_of_lt small, b.sized,
    bufferLengthToNat, Nat.mod_add_mod]

theorem readToBufferRepresents {b : InputBuffer} {p : Pending} (holds : Represents b p) (buffer : List UInt8) :
    Represents (b.readToBuffer buffer).1 (p.perform (.readToBuffer buffer)).1 ∧
      (b.readToBuffer buffer).2.1 = (BoundedQueue.read p.queue buffer).2.1 ∧
      (b.readToBuffer buffer).2.2.toNat = (BoundedQueue.read p.queue buffer).2.2 := by
  have bounded := holds.bounded
  simp only [bufferLengthToNat] at bounded
  unfold readToBuffer
  dsimp only
  split
  · next empty =>
    obtain ⟨reading, queue⟩ := p
    have none : queue = [] := List.eq_nil_of_length_eq_zero (by rw [← holds.size, empty]; rfl)
    subst none
    simpa [Pending.perform, BoundedQueue.read] using holds
  · have count : (if buffer.length ≤ (b.tail - b.head).toNat then buffer.length.toUInt32 else b.tail - b.head).toNat =
        min buffer.length p.queue.length := by
      split
      · next fits =>
        rw [holds.size] at fits
        rw [UInt32.toNat_ofNat', Nat.mod_eq_of_lt (by omega)]
        omega
      · next more =>
        rw [holds.size] at more ⊢
        omega
    generalize writingLength : (if buffer.length ≤ (b.tail - b.head).toNat then buffer.length.toUInt32
      else b.tail - b.head) = n at count ⊢
    have few : n.toNat ≤ p.queue.length := by omega
    simp only [Pending.perform, BoundedQueue.read]
    refine ⟨⟨holds.reading, ?_, ?_, holds.even, ?_⟩, ?_, count⟩
    · rw [Align.distanceAfterFirst _ _ _ (by rw [holds.size]; exact few), holds.size, count, List.length_drop]
    · simp only [List.length_drop, bufferLengthToNat]
      omega
    · rw [← count]
      apply Ring.holdsModEq (Ring.holdsDrop holds.layout n.toNat)
      rw [b.sized, bufferLengthToNat, Align.addToNatMod _ _ (by decide)]
    · rw [← count]
      exact Ring.copyOutEq holds.layout buffer few (by omega) fun i lt =>
        readPositionEq b (by have := n.toNat_lt; omega)

theorem performRepresents {b : InputBuffer} {p : Pending} (holds : Represents b p) (call : Call) :
    ∃ b', b.perform call = some (b', (p.perform call).2) ∧ Represents b' (p.perform call).1 := by
  cases call with
  | startRead => exact ⟨_, rfl, startReadRepresents b⟩
  | writePair pair =>
    obtain ⟨x, y⟩ := pair
    obtain ⟨b', written, next⟩ := writePairRepresents holds x y
    exact ⟨b', by simp only [perform, written, Option.map_some]; rfl, next⟩
  | readToBuffer buffer =>
    obtain ⟨next, filled, count⟩ := readToBufferRepresents holds buffer
    exact ⟨_, by simp only [perform, Pending.perform, filled, count], next⟩
  | bytesAvailable => exact ⟨b, by simp [perform, Pending.perform, bytesAvailable, holds.size], holds⟩

theorem forProcessRepresents : Represents forProcess ⟨false, []⟩ :=
  ⟨rfl, rfl, by decide, rfl, Ring.holdsNil _ _⟩

end InputBuffer

theorem inputBufferRefinesPending (calls : List Call) :
    ∃ b p replies,
      Machine.runWith InputBuffer.perform InputBuffer.forProcess calls = some (b, replies) ∧
      Machine.runWith (fun p call => some (p.perform call)) ⟨false, []⟩ calls = some (p, replies) ∧
      Represents b p :=
  Machine.runWithRefines Represents (fun _ _ call holds => InputBuffer.performRepresents holds call)
    InputBuffer.forProcessRepresents calls

end ImmDosNx.Input
