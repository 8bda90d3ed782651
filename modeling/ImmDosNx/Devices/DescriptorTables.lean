import ImmDosNx.Collections.SlotList

/-! The descriptor tables of two drivers: `TTYDeviceData.open_io`
(`tty/device.rs`) and `ComDevice.open_handles` (`input/com/device.rs`), each a
`SlotList` of descriptors that pair an IO handle with the process holding it.
Both closes search the table for the handle. The TTY loop never advances its
index, so it only ends when slot 0 holds the handle or the table is empty. The
COM close takes the handle's position among the live descriptors as a slot
index, which is another slot once an earlier descriptor has been closed. -/
namespace ImmDosNx

namespace Tty

structure Descriptor where
  process : Nat
  handle : Nat
  deriving DecidableEq, Repr

structure TTYDeviceData where
  nextHandle : Nat
  openIo : SlotList Descriptor
  deriving DecidableEq, Repr

namespace TTYDeviceData

def new : TTYDeviceData := ⟨1, .new⟩

def «open» (d : TTYDeviceData) (process : Nat) : TTYDeviceData × Nat :=
  (⟨d.nextHandle + 1, (d.openIo.insert ⟨process, d.nextHandle⟩).1⟩, d.nextHandle)

def reopen (d : TTYDeviceData) (process : Nat) : TTYDeviceData × Nat :=
  (⟨d.nextHandle + 1, (d.openIo.insert ⟨process, d.nextHandle⟩).1⟩, d.nextHandle)

/-- The search loop of `close`, `index` left as the source leaves it; `none` is a loop that `fuel` iterations do
not end. -/
def closeSearch (openIo : SlotList Descriptor) (closeHandle index : Nat) : Nat → Option (Option Nat)
  | 0 => none
  | fuel + 1 =>
    if index < openIo.len then
      match openIo.get index with
      | some entry => if entry.handle = closeHandle then some (some index) else closeSearch openIo closeHandle index fuel
      | none => closeSearch openIo closeHandle index fuel
    else some none

def close (d : TTYDeviceData) (closeHandle : Nat) (fuel : Nat) : Option (TTYDeviceData × Except Unit Unit) :=
  (closeSearch d.openIo closeHandle 0 fuel).map fun
    | some i => ({ d with openIo := (d.openIo.remove i).1 }, .ok ())
    | none => (d, .error ())

end TTYDeviceData

theorem closeSearchStuck (openIo : SlotList Descriptor) (closeHandle index : Nat) (inside : index < openIo.len)
    (miss : (openIo.get index).map Descriptor.handle ≠ some closeHandle) (fuel : Nat) :
    TTYDeviceData.closeSearch openIo closeHandle index fuel = none := by
  induction fuel with
  | zero => rfl
  | succ fuel ih =>
    simp only [TTYDeviceData.closeSearch, if_pos inside]
    split
    · next entry found =>
      have other : entry.handle ≠ closeHandle := fun same => miss (by simp [found, same])
      simp only [if_neg other, ih]
    · exact ih

theorem closeSearchEnds (openIo : SlotList Descriptor) (closeHandle : Nat) (fuel : Nat) :
    TTYDeviceData.closeSearch openIo closeHandle 0 (fuel + 1) =
      if 0 < openIo.len then
        (if (openIo.get 0).map Descriptor.handle = some closeHandle then some (some 0)
          else TTYDeviceData.closeSearch openIo closeHandle 0 fuel)
      else some none := by
  simp only [TTYDeviceData.closeSearch]
  split
  · split <;> simp_all
  · rfl

theorem closeNeverEnds (d : TTYDeviceData) (closeHandle : Nat) (inside : 0 < d.openIo.len)
    (miss : (d.openIo.get 0).map Descriptor.handle ≠ some closeHandle) (fuel : Nat) : d.close closeHandle fuel = none := by
  simp [TTYDeviceData.close, closeSearchStuck d.openIo closeHandle 0 inside miss]

end Tty

namespace Com

structure Descriptor where
  process : Nat
  handle : Nat
  deriving DecidableEq, Repr

structure ComDevice where
  nextHandle : Nat
  openHandles : SlotList Descriptor
  deriving DecidableEq, Repr

namespace ComDevice

def new : ComDevice := ⟨0, .new⟩

def «open» (c : ComDevice) (process : Nat) : ComDevice × Nat :=
  (⟨c.nextHandle + 1, (c.openHandles.insert ⟨process, c.nextHandle⟩).1⟩, c.nextHandle)

def close (c : ComDevice) (handle : Nat) : ComDevice :=
  match c.openHandles.iter.findIdx? (·.handle == handle) with
  | some index => { c with openHandles := (c.openHandles.remove index).1 }
  | none => c

end ComDevice

end Com

theorem descriptorClosesMisbehave :
    (∀ (d : Tty.TTYDeviceData) (closeHandle : Nat), 0 < d.openIo.len →
        (d.openIo.get 0).map Tty.Descriptor.handle ≠ some closeHandle → ∀ fuel, d.close closeHandle fuel = none) ∧
      (∀ fuel, ((Tty.TTYDeviceData.new.open 7).1.open 7).1.close 2 fuel = none) ∧
      (((((Com.ComDevice.new.open 7).1.open 7).1.open 7).1.close 0).close 2).openHandles.iter.map
        Com.Descriptor.handle = [2] := by
  exact ⟨Tty.closeNeverEnds, Tty.closeNeverEnds _ 2 (by decide) (by decide), by decide⟩

end ImmDosNx
