import ImmDosNx.Loaders.Mz
import ImmDosNx.Loaders.Elf
import ImmDosNx.Files.Filename
import ImmDosNx.Dos.Files
import ImmDosNx.Fs.InitFs

/-! Loading an executable and running it (`loaders/mod.rs`, `task/exec.rs`).
`load_executable` opens the file on its drive, reads its magic number and hands
the handle to the loader of its format. No loader closes a handle, so a load that
fails after the open leaves the file open on its drive. `exec` replaces the
process's segments, relocations, subsystem and executable file, and only then
closes the old executable, which may fail. -/
namespace ImmDosNx.Exec

def LoaderError.toSystemError : LoaderError → Dos.SystemError
  | .fileNotFound => .noSuchEntity
  | .internalError => .unknown
  | .invalidHeader => .unknown

end ImmDosNx.Exec

namespace ImmDosNx.Loaders

open Exec Fs

inductive ExecutableFormat
  | bin
  | elf
  | com
  | mz
  deriving DecidableEq, Repr

inductive InterpretationMode
  | detect
  | native
  | dos
  deriving DecidableEq, Repr

def InterpretationMode.fromU32 (raw : UInt32) : InterpretationMode :=
  if raw = 1 then .native else if raw = 2 then .dos else .detect

def elfMagic : List UInt8 := [0x7f, 0x45, 0x4c, 0x46]

def comExtension : List UInt8 := [0x63, 0x6f, 0x6d]

def determineFormat (handle : Nat) (interpMode : InterpretationMode) (extension : Option (List UInt8)) :
    Loader ExecutableFormat := do
  let magicNumber ← readBuffer handle [0, 0, 0, 0]
  let isElf := magicNumber == elfMagic
  let isMz := magicNumber.take 2 == [0x4d, 0x5a] || magicNumber.take 2 == [0x5a, 0x4d]
  pure <| match interpMode with
    | .detect => if isElf then .elf else if isMz then .mz else if extension = some comExtension then .com else .bin
    | .native => if isElf then .elf else .bin
    | .dos => if isMz then .mz else .com

def ExecutableFormat.buildEnvironment : ExecutableFormat → Nat → Loader ExecutionEnvironment
  | .bin => Bin.buildEnvironment
  | .com => Com.buildEnvironment
  | .elf => Elf.buildEnvironment
  | .mz => Mz.buildEnvironment

/-- Here `drive` is the drive and path get_drive_id_and_path resolved, `none` when it or the drive's instance is
not found; the program runs against that drive's file system. -/
def loadExecutable (drive : Option (Nat × List UInt8)) (pathStr : List UInt8) (interpMode : InterpretationMode) :
    Loader (Nat × Nat × ExecutionEnvironment) :=
  match drive with
  | none => .fail .fileNotFound
  | some (driveId, fullPath) => do
    let localHandle ← openExecFile fullPath
    let format ← determineFormat localHandle interpMode (Files.getExtension pathStr)
    let env ← format.buildEnvironment localHandle
    pure (driveId, localHandle, env)

theorem determineFormatNeverCloses (handle : Nat) (interpMode : InterpretationMode)
    (extension : Option (List UInt8)) : NeverCloses (determineFormat handle interpMode extension) :=
  .bind (readBufferNeverCloses handle _) fun _ => .done _

theorem buildEnvironmentNeverCloses (format : ExecutableFormat) (handle : Nat) :
    NeverCloses (format.buildEnvironment handle) := by
  cases format with
  | bin => exact Bin.buildEnvironmentNeverCloses handle
  | elf => exact Elf.buildEnvironmentNeverCloses handle
  | com => exact Com.buildEnvironmentNeverCloses handle
  | mz => exact Mz.buildEnvironmentNeverCloses handle

section Handles

variable {σ κ : Type} {perform : σ → Call → Option (σ × Except Unit Reply)} {kind : σ → Nat → Option κ}

theorem afterOpenNeverCloses (driveId handle : Nat) (pathStr : List UInt8) (interpMode : InterpretationMode) :
    NeverCloses (do
      let format ← determineFormat handle interpMode (Files.getExtension pathStr)
      let env ← format.buildEnvironment handle
      pure (driveId, handle, env) : Loader (Nat × Nat × ExecutionEnvironment)) :=
  .bind (determineFormatNeverCloses handle _ _) fun format =>
    .bind (buildEnvironmentNeverCloses format handle) fun _ => .done _

theorem loadExecutableKeepsOpened (table : HandleTable perform kind) {driveId : Nat} {fullPath pathStr : List UInt8}
    {interpMode : InterpretationMode} {s u t : σ} {h : Nat} {k : κ}
    {result : Except LoaderError (Nat × Nat × ExecutionEnvironment)}
    (opened : perform s (.open fullPath) = some (u, .ok (.handle h))) (live : kind u h = some k)
    (ran : (loadExecutable (some (driveId, fullPath)) pathStr interpMode).run perform s = some (t, result)) :
    kind s h = none ∧ kind t h = some k := by
  have openRun : (openExecFile fullPath).run perform s = some (u, .ok h) := by
    rw [openExecFile, Client.runCall, opened]
    rfl
  simp only [loadExecutable, Client.bindEq] at ran
  rw [Client.runBindOfOk perform openRun] at ran
  refine ⟨table.fresh opened, ?_⟩
  exact (afterOpenNeverCloses driveId h pathStr interpMode).runPreserves
    (fun _ _ _ _ live notClose step => table.keepsLive live step (notClose h)) live ran

theorem loadExecutableRefusedOpen (table : HandleTable perform kind) {driveId : Nat}
    {fullPath pathStr : List UInt8} {interpMode : InterpretationMode} {s u t : σ}
    {result : Except LoaderError (Nat × Nat × ExecutionEnvironment)}
    (refused : perform s (.open fullPath) = some (u, .error ()))
    (ran : (loadExecutable (some (driveId, fullPath)) pathStr interpMode).run perform s = some (t, result)) :
    result = .error .fileNotFound ∧ ∀ j, kind t j = kind s j := by
  simp only [loadExecutable, Client.bindEq, Client.runBind, openExecFile, Client.runCall, refused,
    Option.bind_some] at ran
  obtain ⟨rfl, rfl⟩ := Prod.mk.inj (Option.some.inj ran)
  exact ⟨rfl, fun j => table.frame refused nofun (by simp [handedOut])⟩

end Handles

/-! ### exec -/

inductive Subsystem
  | native
  | dos
  deriving DecidableEq, Repr

structure ExecProcess where
  memory : Regions.MemoryRegions
  relocations : List Relocation
  execFile : Option (Nat × Nat)
  subsystem : Subsystem
  deriving DecidableEq, Repr

structure EnvironmentRegisters where
  eax : UInt32
  ecx : UInt32
  edx : UInt32
  ebx : UInt32
  ebp : UInt32
  esi : UInt32
  edi : UInt32
  eip : UInt32
  cs : UInt32
  flags : UInt32
  esp : UInt32
  ss : UInt32
  es : UInt32
  ds : UInt32
  fs : UInt32
  gs : UInt32
  deriving DecidableEq, Repr

def userRegisters (env : ExecutionEnvironment) : EnvironmentRegisters :=
  { eax := 0, ecx := 0, edx := 0, ebx := 0, ebp := 0, esi := 0, edi := 0
    eip := env.registers.eip.getD 0
    cs := env.registers.cs.getD (0x18 ||| 3)
    flags := if env.requireVm then 0x200 ||| 0x20000 else 0x200
    esp := 0xbffffffc
    ss := env.registers.ss.getD (0x20 ||| 3)
    es := env.registers.es.getD (0x20 ||| 3)
    ds := env.registers.ds.getD (0x20 ||| 3)
    fs := 0
    gs := 0 }

/-- exec from load_executable's result; `closeOld drive handle` is what the old executable's drive answers to its
close, `none` when no file system has the drive, and `.ok` is the return to user space with the new program's
registers. -/
def exec (loaded : Except LoaderError (Nat × Nat × ExecutionEnvironment))
    (closeOld : Nat → Nat → Option (Except Unit Reply)) (p : ExecProcess) :
    ExecProcess × Except Dos.SystemError EnvironmentRegisters :=
  match loaded with
  | .error e => (p, .error e.toSystemError)
  | .ok (driveId, localHandle, env) =>
    let process : ExecProcess :=
      ⟨p.memory.resetExecutionSegments env.segments, env.relocations, some (driveId, localHandle),
        if env.requireVm then .dos else p.subsystem⟩
    match p.execFile with
    | none => (process, .ok (userRegisters env))
    | some (closeDrive, closeHandle) =>
      match closeOld closeDrive closeHandle with
      | none => (process, .error .noSuchFileSystem)
      | some (.error _) => (process, .error .ioError)
      | some (.ok _) => (process, .ok (userRegisters env))

theorem execReplaces (driveId localHandle : Nat) (env : ExecutionEnvironment)
    (closeOld : Nat → Nat → Option (Except Unit Reply)) (p : ExecProcess) :
    (exec (.ok (driveId, localHandle, env)) closeOld p).1 =
      ⟨p.memory.resetExecutionSegments env.segments, env.relocations, some (driveId, localHandle),
        if env.requireVm then .dos else p.subsystem⟩ := by
  simp only [exec]
  split
  · rfl
  · split <;> rfl

theorem execOldHandleFree {σ κ : Type} {perform : σ → Call → Option (σ × Except Unit Reply)}
    {kind : σ → Nat → Option κ} (table : HandleTable perform kind) {s : σ} {p : ExecProcess}
    {closeDrive closeHandle : Nat} (old : p.execFile = some (closeDrive, closeHandle))
    (free : kind s closeHandle = none) (driveId localHandle : Nat) (env : ExecutionEnvironment) :
    (exec (.ok (driveId, localHandle, env)) (fun _ j => (perform s (.close j)).map (·.2)) p).2 = .error .ioError := by
  have refused : perform s (.close closeHandle) = some (s, .error ()) := table.rejectFree rfl free
  simp [exec, old, refused]

def mzStubArchive : List UInt8 :=
  [0xc7, 0x71] ++ List.replicate 18 0 ++ [1, 0, 0, 0, 4, 0] ++ [0, 0] ++ [0x4d, 0x5a, 0, 0] ++
  [0xc7, 0x71] ++ List.replicate 18 0 ++ [11, 0, 0, 0, 0, 0] ++
  [0x54, 0x52, 0x41, 0x49, 0x4c, 0x45, 0x52, 0x21, 0x21, 0x21, 0, 0]

def mzStubMemory (address : UInt32) : UInt8 := mzStubArchive.getD address.toNat 0

theorem failedLoadLeavesFileOpen :
    (∀ {σ κ : Type} (perform : σ → Call → Option (σ × Except Unit Reply)) (kind : σ → Nat → Option κ),
      HandleTable perform kind → ∀ (driveId : Nat) (fullPath pathStr : List UInt8) interpMode (s u t : σ) h k e,
        perform s (.open fullPath) = some (u, .ok (.handle h)) → kind u h = some k →
        (loadExecutable (some (driveId, fullPath)) pathStr interpMode).run perform s = some (t, .error e) →
        kind s h = none ∧ kind t h = some k) ∧
    (loadExecutable (some (0, [])) [] .detect).run (InitFs.InitFileSystem.perform mzStubMemory)
        (InitFs.InitFileSystem.new 0 70) =
      some (⟨0, 70, ⟨[some (.file ⟨4, 4, 0, 28⟩)]⟩⟩, .error .internalError) ∧
    (InitFs.InitFileSystem.new 0 70).kind 0 = none ∧
    (⟨0, 70, ⟨[some (.file ⟨4, 4, 0, 28⟩)]⟩⟩ : InitFs.InitFileSystem).kind 0 = some .file ∧
    (∀ e closeOld p, exec (.error e) closeOld p = (p, .error e.toSystemError)) ∧
    (∀ {σ κ : Type} (perform : σ → Call → Option (σ × Except Unit Reply)) (kind : σ → Nat → Option κ),
      HandleTable perform kind → ∀ (s : σ) (p : ExecProcess) closeDrive closeHandle driveId localHandle env,
        p.execFile = some (closeDrive, closeHandle) → kind s closeHandle = none →
        exec (.ok (driveId, localHandle, env)) (fun _ j => (perform s (.close j)).map (·.2)) p =
          (⟨p.memory.resetExecutionSegments env.segments, env.relocations, some (driveId, localHandle),
            if env.requireVm then .dos else p.subsystem⟩, .error .ioError)) ∧
    (exec (.ok (0, 0, ⟨[], [], ⟨none, none, none, none, none, none, none⟩, false⟩))
        (fun _ j => (InitFs.InitFileSystem.perform mzStubMemory (InitFs.InitFileSystem.new 0 70) (.close j)).map (·.2))
        ⟨.new, [], some (0, 0), .native⟩).2 = .error .ioError := by
  refine ⟨fun perform kind table driveId fullPath pathStr interpMode s u t h k e opened live ran =>
      loadExecutableKeepsOpened table opened live ran, by decide, by decide, by decide, fun _ _ _ => rfl, ?_, by decide⟩
  intro σ κ perform kind table s p closeDrive closeHandle driveId localHandle env old free
  exact Prod.ext (execReplaces driveId localHandle env _ p) (execOldHandleFree table old free driveId localHandle env)

end ImmDosNx.Loaders
