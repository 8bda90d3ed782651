import ImmDosNx.Task.Exec.Segment
import ImmDosNx.Fs.FileSystem
import ImmDosNx.Lib.Client

/-! What a loader hands to `exec` (`loaders/environment.rs`), how the loaders read
the executable, and the BIN and COM loaders (`loaders/bin.rs`, `loaders/com.rs`),
which only ask for the file's size. A loader is a client of the file system of the
executable's drive: every call goes to it, and a refused call ends the load with
`FileNotFound`. The drive was found when the file was opened, so the lookups of
the same drive inside a loader succeed. -/
namespace ImmDosNx.Loaders

open Exec Fs

structure InitialRegisters where
  eax : Option UInt32
  eip : Option UInt32
  esp : Option UInt32
  cs : Option UInt32
  ds : Option UInt32
  es : Option UInt32
  ss : Option UInt32
  deriving DecidableEq, Repr

structure ExecutionEnvironment where
  segments : List ExecutionSegment
  relocations : List Relocation
  registers : InitialRegisters
  requireVm : Bool
  deriving DecidableEq, Repr

abbrev Loader (α : Type) := Client Call (Except Unit Reply) LoaderError α

def u16Le (bytes : List UInt8) (offset : Nat) : UInt16 :=
  (bytes.getD offset 0).toUInt16 ||| (bytes.getD (offset + 1) 0).toUInt16 <<< 8

def u32Le (bytes : List UInt8) (offset : Nat) : UInt32 :=
  (u16Le bytes offset).toUInt32 ||| (u16Le bytes (offset + 2)).toUInt32 <<< 16

def filledBuffer (buffer : List UInt8) : Reply → List UInt8
  | .read _ filled => filled
  | .handle _ | .written _ | .closed | .position _ | .entry _ _ | .control _ | .status _ => buffer

def filledStatus (status : FileStatus) : Reply → FileStatus
  | .status filled => filled
  | .handle _ | .read _ _ | .written _ | .closed | .position _ | .entry _ _ | .control _ => status

def openedHandle : Reply → Nat
  | .handle handle => handle
  | .read _ _ | .written _ | .closed | .position _ | .entry _ _ | .control _ | .status _ => 0

def openExecFile (path : List UInt8) : Loader Nat :=
  .call (.open path) fun
    | .error _ => .fail .fileNotFound
    | .ok reply => .done (openedHandle reply)

def seekTo (handle : Nat) (position : UInt32) : Loader Unit :=
  .call (.seek handle (.absolute position)) fun
    | .error _ => .fail .fileNotFound
    | .ok _ => .done ()

def readBuffer (handle : Nat) (buffer : List UInt8) : Loader (List UInt8) :=
  .call (.read handle buffer) fun
    | .error _ => .fail .fileNotFound
    | .ok reply => .done (filledBuffer buffer reply)

def readExecFile (handle : Nat) (seek : UInt32) (buffer : List UInt8) : Loader (List UInt8) := do
  seekTo handle seek
  readBuffer handle buffer

/-- Here `instance.stat` into `FileStatus::empty()`. -/
def fileSizeOf (handle : Nat) : Loader UInt32 :=
  .call (.stat handle ⟨0⟩) fun
    | .error _ => .fail .fileNotFound
    | .ok reply => .done (filledStatus ⟨0⟩ reply).byteSize

def NeverCloses {α : Type} (x : Loader α) : Prop := Client.OnlyIssues (fun c => ∀ handle, c ≠ .close handle) x

theorem seekToNeverCloses (handle : Nat) (position : UInt32) : NeverCloses (seekTo handle position) :=
  .call (fun _ => nofun) fun
    | .error _ => .fail _
    | .ok _ => .done _

theorem readBufferNeverCloses (handle : Nat) (buffer : List UInt8) : NeverCloses (readBuffer handle buffer) :=
  .call (fun _ => nofun) fun
    | .error _ => .fail _
    | .ok _ => .done _

theorem readExecFileNeverCloses (handle : Nat) (seek : UInt32) (buffer : List UInt8) :
    NeverCloses (readExecFile handle seek buffer) :=
  .bind (seekToNeverCloses handle seek) fun _ => readBufferNeverCloses handle buffer

theorem fileSizeOfNeverCloses (handle : Nat) : NeverCloses (fileSizeOf handle) :=
  .call (fun _ => nofun) fun
    | .error _ => .fail _
    | .ok _ => .done _

namespace Bin

def buildEnvironment (handle : Nat) : Loader ExecutionEnvironment := do
  let fileSize ← fileSizeOf handle
  let segments ← Client.ofExcept (buildSingleSectionEnvironment fileSize.toNat 0)
  pure ⟨segments, [], ⟨some 0, some 0, some 0xbffffffc, some 0x1b, none, none, some 0x23⟩, false⟩

theorem buildEnvironmentNeverCloses (handle : Nat) : NeverCloses (buildEnvironment handle) :=
  .bind (fileSizeOfNeverCloses handle) fun _ => .bind (.ofExcept _) fun _ => .done _

end Bin

namespace Com

def buildEnvironment (handle : Nat) : Loader ExecutionEnvironment := do
  let fileSize ← fileSizeOf handle
  let pspSegment : UInt32 := 0x100
  let ip := pspSize.toUInt32
  let segments ← Client.ofExcept (buildSingleSectionEnvironmentWithPsp fileSize.toNat pspSegment.toNat)
  pure ⟨segments, [], ⟨some 0, some ip, some 0xfffe, some pspSegment, some pspSegment, some pspSegment,
    some pspSegment⟩, true⟩

theorem buildEnvironmentNeverCloses (handle : Nat) : NeverCloses (buildEnvironment handle) :=
  .bind (fileSizeOfNeverCloses handle) fun _ => .bind (.ofExcept _) fun _ => .done _

end Com

end ImmDosNx.Loaders
