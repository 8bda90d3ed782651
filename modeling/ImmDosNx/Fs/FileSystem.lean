import ImmDosNx.Lib.Run

/-! The interface of a kernel file system (`fs/filesystem.rs`): its calls, with
the seek methods of `files/cursor.rs` and the records of `syscall/files.rs`, and
what the calls return. `HandleTable` is the contract of its open handles: an
index is handed out only when free, a call touches no handle but the one it
closes or hands out, and a call on a free index fails without effect. From it,
over every run, a closed handle is refused until a later reply hands its index
out again, and a live one keeps its kind until it is closed. -/
namespace ImmDosNx.Fs

inductive SeekMethod
  | absolute (position : UInt32)
  | relative (offset : Int32)
  deriving DecidableEq, Repr

/-- usize and isize are 32 bits wide; the sum saturates at the bounds of isize and is read back as usize. -/
def SeekMethod.fromCurrentPosition : SeekMethod → UInt32 → UInt32
  | .absolute position, _ => position
  | .relative offset, current =>
    (Int32.ofInt (max (-2147483648) (min 2147483647 (current.toInt32.toInt + offset.toInt)))).toUInt32

inductive DirEntryType
  | empty
  | directory
  | file
  deriving DecidableEq, Repr

structure DirEntryInfo where
  fileName : List UInt8
  fileExt : List UInt8
  entryType : DirEntryType
  byteSize : UInt32
  deriving DecidableEq, Repr

structure FileStatus where
  byteSize : UInt32
  deriving DecidableEq, Repr

inductive Call
  | open (path : List UInt8)
  | read (handle : Nat) (buffer : List UInt8)
  | write (handle : Nat) (buffer : List UInt8)
  | close (handle : Nat)
  | reopen (handle : Nat) (id : Nat)
  | seek (handle : Nat) (offset : SeekMethod)
  | openDir (path : List UInt8)
  | readDir (handle : Nat) (info : DirEntryInfo)
  | ioctl (handle : Nat) (command arg : UInt32)
  | stat (handle : Nat) (status : FileStatus)
  deriving DecidableEq, Repr

inductive Reply
  | handle (handle : Nat)
  | read (count : UInt32) (buffer : List UInt8)
  | written (count : UInt32)
  | closed
  | position (cursor : UInt32)
  | entry (more : Bool) (info : DirEntryInfo)
  | control (result : UInt32)
  | status (status : FileStatus)
  deriving DecidableEq, Repr

def localPath (path : List UInt8) : List UInt8 := if path.head? = some 0x5c then path.drop 1 else path

inductive HandleKind
  | file
  | directory
  | device
  deriving DecidableEq, Repr

def Call.lookup : Call → Option Nat
  | .read handle _ | .close handle | .reopen handle _ | .seek handle _ | .readDir handle _ => some handle
  | _ => none

def handedOut : Except Unit Reply → Option Nat
  | .ok (.handle handle) => some handle
  | _ => none

theorem handedOutMap {α : Type} {f : α → Reply} (x : Except Unit α) (never : ∀ a h, f a ≠ .handle h) :
    handedOut (x.map f) = none := by
  cases x with
  | error => rfl
  | ok a =>
    simp only [Except.map, handedOut]
    split
    · next same => exact absurd (Except.ok.inj same) (never a _)
    · rfl

section Contract

variable {σ κ : Type}

/-- Here `kind s h` is the kind of handle index `h` holds, `none` when it is free; a call that makes the kernel
panic has no result. -/
structure HandleTable (perform : σ → Call → Option (σ × Except Unit Reply)) (kind : σ → Nat → Option κ) :
    Prop where
  fresh : ∀ {s c t h}, perform s c = some (t, .ok (.handle h)) → kind s h = none
  frame : ∀ {s c t r h}, perform s c = some (t, r) → c ≠ .close h → handedOut r ≠ some h → kind t h = kind s h
  closeLive : ∀ {s h}, (kind s h).isSome → ∃ t, perform s (.close h) = some (t, .ok .closed)
  closeFrees : ∀ {s t r h}, perform s (.close h) = some (t, r) → kind t h = none
  rejectFree : ∀ {s c h}, c.lookup = some h → kind s h = none → perform s c = some (s, .error ())

variable {perform : σ → Call → Option (σ × Except Unit Reply)} {kind : σ → Nat → Option κ}

theorem HandleTable.keepsLive (table : HandleTable perform kind) {s t : σ} {c : Call} {r : Except Unit Reply}
    {h : Nat} {k : κ} (live : kind s h = some k) (step : perform s c = some (t, r)) (notClose : c ≠ .close h) :
    kind t h = some k := by
  have notHanded : handedOut r ≠ some h := by
    intro handed
    match r, handed with
    | .ok (.handle _), rfl => simp [table.fresh step] at live
  exact (table.frame step notClose notHanded).trans live

end Contract

end ImmDosNx.Fs
