import ImmDosNx.Fs.FileSystem

/-! Device drivers and the table of installed devices (`devices/driver.rs`,
`devices/installed.rs`), with the NULL and ZERO drivers (`devices/null.rs`,
`devices/zero.rs`). A driver keeps its state behind a shared reference; here the
state of all drivers is one value of `σ`, which each driver call may change. -/
namespace ImmDosNx.Devices

open Fs

structure DeviceDriver (σ : Type) where
  «open» : σ → σ × Except Unit Nat
  read : Nat → List UInt8 → σ → σ × Except Unit (UInt32 × List UInt8)
  write : Nat → List UInt8 → σ → σ × Except Unit UInt32
  close : Nat → σ → σ × Except Unit Unit
  seek : Nat → SeekMethod → σ → σ × Except Unit UInt32 := fun _ _ state => (state, .error ())
  reopen : Nat → Nat → σ → σ × Except Unit Nat := fun _ _ state => (state, .error ())

structure DeviceNumberByName where
  name : List UInt8
  number : Nat
  deriving DecidableEq, Repr

structure InstalledDevices (σ : Type) where
  drivers : List (DeviceDriver σ)
  deviceNames : List DeviceNumberByName

namespace InstalledDevices

variable {σ : Type} (devices : InstalledDevices σ)

def new : InstalledDevices σ := ⟨[], []⟩

def getDevice (driverNumber : Nat) : Option (DeviceDriver σ) :=
  if driverNumber > 0 then devices.drivers[driverNumber - 1]? else none

def getDeviceNumberByName (seek : List UInt8) : Option Nat :=
  (devices.deviceNames.find? fun byName => byName.name == seek).map DeviceNumberByName.number

def getDeviceName (driverNumber : Nat) : Option (List UInt8) :=
  devices.deviceNames[driverNumber]?.map DeviceNumberByName.name

def registerDriver (name : List UInt8) (driver : DeviceDriver σ) : InstalledDevices σ × Nat :=
  let drivers := devices.drivers ++ [driver]
  let number := drivers.length
  (⟨drivers, devices.deviceNames ++ [⟨name, number⟩]⟩, number)

end InstalledDevices

def nullDriver : DeviceDriver Nat where
  «open» := fun nextHandle => (nextHandle + 1, .ok nextHandle)
  read := fun _ buffer state => (state, .ok (0, buffer))
  write := fun _ buffer state => (state, .ok buffer.length.toUInt32)
  close := fun _ state => (state, .ok ())

def zeroDriver : DeviceDriver Nat where
  «open» := fun nextHandle => (nextHandle + 1, .ok nextHandle)
  read := fun _ buffer state => (state, .ok (buffer.length.toUInt32, buffer.map fun _ => 0))
  write := fun _ buffer state => (state, .ok buffer.length.toUInt32)
  close := fun _ state => (state, .ok ())

end ImmDosNx.Devices
