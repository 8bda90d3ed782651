import ImmDosNx.Collections.SlotList
import ImmDosNx.Devices.Driver
import ImmDosNx.Lib.Except

/-! DevFS (`fs/drivers/devfs.rs`): the installed devices as files. A device
handle records the device and the IO handle its driver gave out, and every call
on it is forwarded to the driver. `close` forwards too, and removes nothing from
the table: a closed device handle stays usable, and a directory handle, which
`get_device_handle` refuses, can never be closed. DevFS keeps no `HandleTable`
contract, whatever the drivers. -/
namespace ImmDosNx.Fs.DevFs

open Devices

structure OpenDevice where
  deviceNumber : Nat
  ioHandle : Nat
  deriving DecidableEq, Repr

inductive OpenHandle
  | device (openDevice : OpenDevice)
  | directory (cursor : Nat)
  deriving DecidableEq, Repr

def OpenHandle.kind : OpenHandle → HandleKind
  | .device _ => .device
  | .directory _ => .directory

structure DevFileSystem where
  openHandles : SlotList OpenHandle
  deriving DecidableEq, Repr

namespace DevFileSystem

def new : DevFileSystem := ⟨.new⟩

section Calls

variable {σ : Type} (devices : InstalledDevices σ) (fs : DevFileSystem) (state : σ)

def getHandle (handle : Nat) : Option OpenHandle := fs.openHandles.get handle

def getDeviceHandle (handle : Nat) : Option OpenDevice :=
  match fs.getHandle handle with
  | some (.device dev) => some dev
  | _ => none

def runDeviceOperation {τ : Type} (deviceNumber : Nat) (op : DeviceDriver σ → σ → σ × Except Unit τ) :
    σ × Except Unit τ :=
  match devices.getDevice deviceNumber with
  | some driver => op driver state
  | none => (state, .error ())

def «open» (path : List UInt8) : DevFileSystem × σ × Except Unit Nat :=
  match devices.getDeviceNumberByName ((localPath path).takeWhile (· != 0x5c)) with
  | none => (fs, state, .error ())
  | some deviceNumber =>
    match runDeviceOperation devices state deviceNumber fun driver => driver.«open» with
    | (state, .error e) => (fs, state, .error e)
    | (state, .ok ioHandle) =>
      let (openHandles, handle) := fs.openHandles.insert (.device ⟨deviceNumber, ioHandle⟩)
      (⟨openHandles⟩, state, .ok handle)

def read (handle : Nat) (buffer : List UInt8) : σ × Except Unit (UInt32 × List UInt8) :=
  match fs.getDeviceHandle handle with
  | none => (state, .error ())
  | some deviceHandle =>
    runDeviceOperation devices state deviceHandle.deviceNumber fun driver => driver.read deviceHandle.ioHandle buffer

def write (handle : Nat) (buffer : List UInt8) : σ × Except Unit UInt32 :=
  match fs.getDeviceHandle handle with
  | none => (state, .error ())
  | some deviceHandle =>
    runDeviceOperation devices state deviceHandle.deviceNumber fun driver => driver.write deviceHandle.ioHandle buffer

def close (handle : Nat) : σ × Except Unit Unit :=
  match fs.getDeviceHandle handle with
  | none => (state, .error ())
  | some deviceHandle =>
    runDeviceOperation devices state deviceHandle.deviceNumber fun driver => driver.close deviceHandle.ioHandle

def reopen (handle : Nat) (id : Nat) : DevFileSystem × σ × Except Unit Nat :=
  match fs.getDeviceHandle handle with
  | none => (fs, state, .error ())
  | some deviceHandle =>
    match runDeviceOperation devices state deviceHandle.deviceNumber
        fun driver => driver.reopen deviceHandle.ioHandle id with
    | (state, .error e) => (fs, state, .error e)
    | (state, .ok ioHandle) =>
      let (openHandles, newHandle) := fs.openHandles.insert (.device ⟨deviceHandle.deviceNumber, ioHandle⟩)
      (⟨openHandles⟩, state, .ok newHandle)

def seek (handle : Nat) (offset : SeekMethod) : σ × Except Unit UInt32 :=
  match fs.getDeviceHandle handle with
  | none => (state, .error ())
  | some deviceHandle =>
    runDeviceOperation devices state deviceHandle.deviceNumber fun driver => driver.seek deviceHandle.ioHandle offset

def openDir (path : List UInt8) : DevFileSystem × Except Unit Nat :=
  if path != [] then (fs, .error ())
  else
    let (openHandles, index) := fs.openHandles.insert (.directory 0)
    (⟨openHandles⟩, .ok index)

/-- The cursor counts the device names listed so far. A name is copied into the eight bytes of `file_name`, and a
longer one panics: `none`. -/
def readDir (handle : Nat) (info : DirEntryInfo) : Option (DevFileSystem × DirEntryInfo × Except Unit Bool) :=
  match fs.openHandles.get handle with
  | some (.directory cursor) =>
    match devices.getDeviceName cursor with
    | none => some (fs, info, .error ())
    | some name =>
      if name.length > 8 then none
      else
        let fileName := name ++ List.replicate (8 - name.length) 0x20
        let info := { info with fileName := fileName, fileExt := List.replicate 3 0x20 }
        let openHandles := (fs.openHandles.getMut handle fun _ => (.directory (cursor + 1), ())).1
        some (⟨openHandles⟩, info, .ok (devices.getDeviceName (cursor + 1)).isSome)
  | _ => some (fs, info, .error ())

end Calls

def perform {σ : Type} (devices : InstalledDevices σ) :
    DevFileSystem × σ → Call → Option ((DevFileSystem × σ) × Except Unit Reply)
  | (fs, state), .open path =>
    let (fs, state, result) := fs.«open» devices state path
    some ((fs, state), result.map .handle)
  | (fs, state), .read handle buffer =>
    let (state, result) := fs.read devices state handle buffer
    some ((fs, state), result.map fun (count, buffer) => .read count buffer)
  | (fs, state), .write handle buffer =>
    let (state, result) := fs.write devices state handle buffer
    some ((fs, state), result.map .written)
  | (fs, state), .close handle =>
    let (state, result) := fs.close devices state handle
    some ((fs, state), result.map fun _ => .closed)
  | (fs, state), .reopen handle id =>
    let (fs, state, result) := fs.reopen devices state handle id
    some ((fs, state), result.map .handle)
  | (fs, state), .seek handle offset =>
    let (state, result) := fs.seek devices state handle offset
    some ((fs, state), result.map .position)
  | (fs, state), .openDir path =>
    let (fs, result) := fs.openDir path
    some ((fs, state), result.map .handle)
  | (fs, state), .readDir handle info =>
    (fs.readDir devices handle info).map fun (fs, info, result) => ((fs, state), result.map fun more => .entry more info)
  | system, .ioctl _ _ _ => some (system, .error ())
  | system, .stat _ _ => some (system, .error ())

def kind {σ : Type} (system : DevFileSystem × σ) (handle : Nat) : Option HandleKind :=
  (system.1.openHandles.get handle).map OpenHandle.kind

section Lifecycle

variable {σ : Type} (devices : InstalledDevices σ)

def HandsOut (fs : DevFileSystem) (k : HandleKind) (fs' : DevFileSystem) (result : Except Unit Nat) : Prop :=
  (fs' = fs ∧ result = .error ()) ∨
    ∃ h, result = .ok h ∧ (fs.openHandles.get h).map OpenHandle.kind = none ∧
      ∀ j, (fs'.openHandles.get j).map OpenHandle.kind =
        if j = h then some k else (fs.openHandles.get j).map OpenHandle.kind

theorem handsOutInsert (fs : DevFileSystem) (item : OpenHandle) :
    HandsOut fs item.kind ⟨(fs.openHandles.insert item).1⟩ (.ok (fs.openHandles.insert item).2) := by
  refine .inr ⟨_, rfl, by simp [SlotList.insertFresh], fun j => ?_⟩
  simp only [SlotList.getInsert]
  split <;> rfl

theorem openHandsOut (fs : DevFileSystem) (state : σ) (path : List UInt8) :
    HandsOut fs .device (fs.«open» devices state path).1 (fs.«open» devices state path).2.2 := by
  unfold «open»
  split
  · exact .inl ⟨rfl, rfl⟩
  · split
    · exact .inl ⟨rfl, rfl⟩
    · exact handsOutInsert fs _

theorem reopenHandsOut (fs : DevFileSystem) (state : σ) (handle id : Nat) :
    HandsOut fs .device (fs.reopen devices state handle id).1 (fs.reopen devices state handle id).2.2 := by
  unfold reopen
  split
  · exact .inl ⟨rfl, rfl⟩
  · split
    · exact .inl ⟨rfl, rfl⟩
    · exact handsOutInsert fs _

theorem openDirHandsOut (fs : DevFileSystem) (path : List UInt8) :
    HandsOut fs .directory (fs.openDir path).1 (fs.openDir path).2 := by
  unfold openDir
  split
  · exact .inl ⟨rfl, rfl⟩
  · exact handsOutInsert fs _

theorem readDirKeepsKinds {fs fs' : DevFileSystem} {handle : Nat} {info info' : DirEntryInfo}
    {result : Except Unit Bool} (listed : fs.readDir devices handle info = some (fs', info', result)) (j : Nat) :
    (fs'.openHandles.get j).map OpenHandle.kind = (fs.openHandles.get j).map OpenHandle.kind := by
  simp only [readDir] at listed
  split at listed
  · next cursor directory =>
    split at listed
    · cases listed; rfl
    · split at listed
      · cases listed
      · simp only [Option.some.injEq, Prod.mk.injEq] at listed
        obtain ⟨rfl, _, _⟩ := listed
        simp only [SlotList.getMutFst, directory]
        split <;> simp_all [OpenHandle.kind]
  · cases listed; rfl

theorem handedOutHandsOut {fs fs' : DevFileSystem} {k : HandleKind} {result : Except Unit Nat} (state state' : σ)
    (hands : HandsOut fs k fs' result) :
    (∃ k h, handedOut (result.map .handle) = some h ∧ kind (fs, state) h = none ∧
      ∀ j, kind (fs', state') j = if j = h then some k else kind (fs, state) j) ∨
    (handedOut (result.map .handle) = none ∧ ∀ j, kind (fs', state') j = kind (fs, state) j) := by
  rcases hands with ⟨rfl, rfl⟩ | ⟨h, rfl, free, kinds⟩
  · exact .inr ⟨rfl, fun _ => rfl⟩
  · exact .inl ⟨k, h, rfl, free, kinds⟩

theorem performKinds {s t : DevFileSystem × σ} {c : Call} {r : Except Unit Reply}
    (step : perform devices s c = some (t, r)) :
    (∃ k h, handedOut r = some h ∧ kind s h = none ∧ ∀ j, kind t j = if j = h then some k else kind s j) ∨
    (handedOut r = none ∧ ∀ j, kind t j = kind s j) := by
  obtain ⟨fs, state⟩ := s
  cases c with
  | «open» path =>
    simp only [perform, Option.some.injEq, Prod.mk.injEq] at step
    obtain ⟨rfl, rfl⟩ := step
    exact handedOutHandsOut _ _ (openHandsOut devices fs state path)
  | reopen handle id =>
    simp only [perform, Option.some.injEq, Prod.mk.injEq] at step
    obtain ⟨rfl, rfl⟩ := step
    exact handedOutHandsOut _ _ (reopenHandsOut devices fs state handle id)
  | openDir path =>
    simp only [perform, Option.some.injEq, Prod.mk.injEq] at step
    obtain ⟨rfl, rfl⟩ := step
    exact handedOutHandsOut _ _ (openDirHandsOut fs path)
  | readDir handle info =>
    simp only [perform, Option.map_eq_some_iff, Prod.exists, Prod.mk.injEq] at step
    obtain ⟨fs', info', result, listed, rfl, rfl⟩ := step
    exact .inr ⟨handedOutMap _ fun _ _ => Reply.noConfusion, readDirKeepsKinds devices listed⟩
  | ioctl | stat =>
    simp only [perform, Option.some.injEq, Prod.mk.injEq] at step
    obtain ⟨rfl, rfl⟩ := step
    exact .inr ⟨rfl, fun _ => rfl⟩
  | read | write | close | seek =>
    simp only [perform, Option.some.injEq, Prod.mk.injEq] at step
    obtain ⟨rfl, rfl⟩ := step
    exact .inr ⟨handedOutMap _ fun _ _ => Reply.noConfusion, fun _ => rfl⟩

theorem performRejectsFree {s : DevFileSystem × σ} {c : Call} {handle : Nat} (looks : c.lookup = some handle)
    (absent : kind s handle = none) : perform devices s c = some (s, .error ()) := by
  obtain ⟨fs, state⟩ := s
  have free : fs.openHandles.get handle = none := Option.map_eq_none_iff.mp absent
  have noDevice : fs.getDeviceHandle handle = none := by simp [getDeviceHandle, getHandle, free]
  cases c <;> simp only [Call.lookup, Option.some.injEq, reduceCtorEq] at looks <;> subst looks
  · simp [perform, read, noDevice, Except.map]
  · simp [perform, close, noDevice, Except.map]
  · simp [perform, reopen, noDevice, Except.map]
  · simp [perform, seek, noDevice, Except.map]
  · simp [perform, readDir, free, Except.map]

theorem closeKeepsTable (s : DevFileSystem × σ) (handle : Nat) {t : DevFileSystem × σ} {r : Except Unit Reply}
    (step : perform devices s (.close handle) = some (t, r)) : t.1 = s.1 := by
  obtain ⟨fs, state⟩ := s
  simp only [perform, Option.some.injEq, Prod.mk.injEq] at step
  obtain ⟨rfl, -⟩ := step
  rfl

theorem closeDirectoryRefused (s : DevFileSystem × σ) {handle cursor : Nat}
    (directory : s.1.openHandles.get handle = some (.directory cursor)) :
    perform devices s (.close handle) = some (s, .error ()) := by
  obtain ⟨fs, state⟩ := s
  have noDevice : fs.getDeviceHandle handle = none := by simp [getDeviceHandle, getHandle, directory]
  simp [perform, close, noDevice, Except.map]

end Lifecycle

/-- The name "NULL", the name `devices::init` registers the NULL driver under. -/
def nullName : List UInt8 := [0x4e, 0x55, 0x4c, 0x4c]

theorem closedDeviceHandleStaysUsable :
    (∀ {σ : Type} (devices : InstalledDevices σ) (_state : σ), ¬ HandleTable (perform devices) kind) ∧
    (∀ {σ : Type} (devices : InstalledDevices σ) (s t : DevFileSystem × σ) (handle : Nat) (r : Except Unit Reply),
      perform devices s (.close handle) = some (t, r) → t.1 = s.1) ∧
    (Machine.runWith (perform (InstalledDevices.new.registerDriver nullName nullDriver).1) (DevFileSystem.new, 1)
        [.openDir [], .close 0, .open nullName, .close 1, .read 1 [], .close 1]).map Prod.snd =
      some [.ok (.handle 0), .error (), .ok (.handle 1), .ok .closed, .ok (.read 0 []), .ok .closed] := by
  refine ⟨fun devices state table => ?_, fun devices s _ handle _ step => closeKeepsTable devices s handle step,
    by decide⟩
  have live : (kind ((DevFileSystem.new.openDir []).1, state) 0).isSome := rfl
  obtain ⟨t, closed⟩ := table.closeLive live
  rw [@closeDirectoryRefused _ devices _ 0 0 rfl] at closed
  simp at closed

end DevFileSystem

end ImmDosNx.Fs.DevFs
