import Mathlib
import ImmDosNx.Loaders.Loader

/-! The DOS MZ EXE loader (`loaders/mz.rs`). The 28-byte header is read into a
zeroed packed struct; the file size follows from the page count and the bytes of
the last page, the load module is the file past the header, and one writable
segment from the PSP's page holds the PSP and the load module. The sizes are
`usize`: a header longer than the file makes the load module's size wrap. -/
namespace ImmDosNx.Loaders

open Exec Fs

structure MZHeader where
  lastPageSize : UInt16
  pageCount : UInt16
  relocationEntries : UInt16
  headerSizeParagraphs : UInt16
  initialSs : UInt16
  initialSp : UInt16
  initialIp : UInt16
  initialCs : UInt16
  relocationTableOffset : UInt16
  deriving DecidableEq, Repr

def MZHeader.ofBytes (bytes : List UInt8) : MZHeader :=
  ⟨u16Le bytes 2, u16Le bytes 4, u16Le bytes 6, u16Le bytes 8, u16Le bytes 14, u16Le bytes 16, u16Le bytes 20,
    u16Le bytes 22, u16Le bytes 24⟩

structure SegmentedAddress where
  offset : UInt16
  segment : UInt16
  deriving DecidableEq, Repr

def SegmentedAddress.toVirtualAddress (address : SegmentedAddress) : UInt32 :=
  address.offset.toUInt32 + address.segment.toUInt32 * 16

namespace Mz

def pspSegment : UInt32 := 0x100

def loadModuleSegment : UInt32 := pspSegment + (pspSize / 16).toUInt32

def pspAddress : UInt32 := pspSegment <<< 4

def loadModuleAddress : UInt32 := pspAddress + pspSize.toUInt32

def fileSize (header : MZHeader) : UInt32 :=
  (header.pageCount.toUInt32 - 1) * 512 + if header.lastPageSize = 0 then 512 else header.lastPageSize.toUInt32

def codeStart (header : MZHeader) : UInt32 := header.headerSizeParagraphs.toUInt32 * 16

def execSize (header : MZHeader) : UInt32 := fileSize header - codeStart header

def buildSegments (header : MZHeader) : Except LoaderError (List ExecutionSegment) :=
  if header.pageCount < 1 then .error .internalError
  else do
    let pageStart := pspAddress &&& 0xfffff000
    let pspSection : ExecutionSection := ⟨(pspAddress - pageStart).toNat, none, pspSize⟩
    let loadSection : ExecutionSection :=
      ⟨(loadModuleAddress - pageStart).toNat, some (codeStart header).toNat, (execSize header).toNat⟩
    let finalByte := loadModuleAddress + execSize header
    let totalLength := finalByte - pageStart
    let segment ← (ExecutionSegment.atAddress pageStart.toNat (pageCount totalLength.toNat)).mapError
      fun _ => .internalError
    let segment := segment.setUserCanWrite true
    let segment ← (segment.addSection pspSection).mapError fun _ => .internalError
    let segment ← (segment.addSection loadSection).mapError fun _ => .internalError
    pure [segment]

section Layout

variable (header : MZHeader)

theorem fileSizeToNat (pages : 1 ≤ header.pageCount.toNat) :
    (fileSize header).toNat =
      (header.pageCount.toNat - 1) * 512 + if header.lastPageSize = 0 then 512 else header.lastPageSize.toNat := by
  have count := header.pageCount.toNat_lt
  have last := header.lastPageSize.toNat_lt
  have fewer : (header.pageCount.toUInt32 - 1).toNat = header.pageCount.toNat - 1 := by
    rw [UInt32.toNat_sub_of_le _ _ (UInt32.le_iff_toNat_le.mpr (by simpa using pages))]
    simp
  unfold fileSize
  split <;> simp only [UInt32.toNat_add, UInt32.toNat_mul, fewer, UInt16.toNat_toUInt32] <;> simp <;> omega

theorem codeStartToNat : (codeStart header).toNat = header.headerSizeParagraphs.toNat * 16 := by
  have size := header.headerSizeParagraphs.toNat_lt
  simp only [codeStart, UInt32.toNat_mul, UInt16.toNat_toUInt32]
  simp
  omega

theorem execSizeToNat :
    (execSize header).toNat = (2 ^ 32 - (codeStart header).toNat + (fileSize header).toNat) % 2 ^ 32 :=
  UInt32.toNat_sub _ _

theorem totalLengthEq : loadModuleAddress + execSize header - (pspAddress &&& 0xfffff000) = 256 + execSize header := by
  have load : loadModuleAddress = 4352 := by decide
  have page : pspAddress &&& 0xfffff000 = 4096 := by decide
  rw [load, page]
  grind

theorem buildSegmentsSpec (pages : 1 ≤ header.pageCount.toNat) :
    buildSegments header =
      if 256 ≤ pageCount ((256 + (execSize header).toNat) % 2 ^ 32) * 4096 % 2 ^ 32 ∧
          (256 + (execSize header).toNat) % 2 ^ 32 ≤ pageCount ((256 + (execSize header).toNat) % 2 ^ 32) * 4096 % 2 ^ 32
      then .ok [⟨4096, pageCount ((256 + (execSize header).toNat) % 2 ^ 32) * 4096 % 2 ^ 32,
        [⟨0, none, 256⟩, ⟨256, some (codeStart header).toNat, (execSize header).toNat⟩], true⟩]
      else .error .internalError := by
  have counted : ¬ header.pageCount < 1 := by
    rw [UInt16.lt_iff_toNat_lt]
    simp only [UInt16.toNat_one]
    omega
  have page : (pspAddress &&& 0xfffff000).toNat = 4096 := by decide
  have pspOffset : (pspAddress - (pspAddress &&& 0xfffff000)).toNat = 0 := by decide
  have loadOffset : (loadModuleAddress - (pspAddress &&& 0xfffff000)).toNat = 256 := by decide
  have total : (loadModuleAddress + execSize header - (pspAddress &&& 0xfffff000)).toNat =
      (256 + (execSize header).toNat) % 2 ^ 32 := by
    rw [totalLengthEq, UInt32.toNat_add]
    rfl
  simp only [buildSegments, counted, if_false, page, pspOffset, loadOffset, total, ExecutionSegment.atAddress,
    pageSizeInBytes, show (4096 % 4096 != 0) = false from rfl, Bool.false_eq_true, Except.mapError, bind,
    Except.bind, ExecutionSegment.setUserCanWrite, ExecutionSegment.addSection, pspSize, Nat.zero_add]
  generalize (256 + (execSize header).toNat) % 2 ^ 32 = ending
  generalize pageCount ending * 4096 % 2 ^ 32 = size
  rw [show 256 % 2 ^ 32 = 256 from rfl]
  by_cases pspFits : 256 ≤ size
  · by_cases loadFits : ending ≤ size
    · simp [Nat.not_lt_of_le pspFits, Nat.not_lt_of_le loadFits, pspFits, loadFits, pure, Except.pure]
    · simp [Nat.not_lt_of_le pspFits, Nat.lt_of_not_le loadFits, loadFits]
  · simp [Nat.lt_of_not_le pspFits, pspFits]

theorem buildSegmentsEmpty (none : header.pageCount = 0) : buildSegments header = .error .internalError := by
  simp [buildSegments, none]

theorem fileSizeBelow (pages : 1 ≤ header.pageCount.toNat) : (fileSize header).toNat < 2 ^ 26 := by
  have count := header.pageCount.toNat_lt
  have last := header.lastPageSize.toNat_lt
  rw [fileSizeToNat header pages]
  split <;> omega

theorem buildSegmentsFits (pages : 1 ≤ header.pageCount.toNat)
    (fits : (codeStart header).toNat ≤ (fileSize header).toNat) :
    buildSegments header =
      .ok [⟨4096, pageCount (256 + ((fileSize header).toNat - (codeStart header).toNat)) * 4096,
        [⟨0, none, 256⟩, ⟨256, some (codeStart header).toNat, (fileSize header).toNat - (codeStart header).toNat⟩],
        true⟩] := by
  have below := fileSizeBelow header pages
  have exec : (execSize header).toNat = (fileSize header).toNat - (codeStart header).toNat := by
    rw [execSizeToNat, show 2 ^ 32 - (codeStart header).toNat + (fileSize header).toNat =
      (fileSize header).toNat - (codeStart header).toNat + 2 ^ 32 by omega, Nat.add_mod_right,
      Nat.mod_eq_of_lt (by omega)]
  have ending : (256 + (execSize header).toNat) % 2 ^ 32 = 256 + ((fileSize header).toNat - (codeStart header).toNat) := by
    rw [exec, Nat.mod_eq_of_lt (by omega)]
  have size : pageCount (256 + ((fileSize header).toNat - (codeStart header).toNat)) * 4096 % 2 ^ 32 =
      pageCount (256 + ((fileSize header).toNat - (codeStart header).toNat)) * 4096 := by
    rw [pageCountEq, Nat.mod_eq_of_lt (by omega)]
  have within := pageCountCovers (256 + ((fileSize header).toNat - (codeStart header).toNat))
  rw [buildSegmentsSpec header pages, ending, size, exec, if_pos ⟨by omega, within⟩]

theorem buildSegmentsWraps (pages : 1 ≤ header.pageCount.toNat)
    (past : (fileSize header).toNat < (codeStart header).toNat)
    (close : (codeStart header).toNat - (fileSize header).toNat < 256) :
    buildSegments header =
      .ok [⟨4096, 4096, [⟨0, none, 256⟩,
        ⟨256, some (codeStart header).toNat, 2 ^ 32 - ((codeStart header).toNat - (fileSize header).toNat)⟩], true⟩] := by
  have code : (codeStart header).toNat < 2 ^ 20 := by
    have size := header.headerSizeParagraphs.toNat_lt
    rw [codeStartToNat]
    omega
  have exec : (execSize header).toNat = 2 ^ 32 - ((codeStart header).toNat - (fileSize header).toNat) := by
    rw [execSizeToNat, Nat.mod_eq_of_lt (by omega)]
    omega
  have ending : (256 + (execSize header).toNat) % 2 ^ 32 =
      256 - ((codeStart header).toNat - (fileSize header).toNat) := by
    rw [exec, show 256 + (2 ^ 32 - ((codeStart header).toNat - (fileSize header).toNat)) =
      256 - ((codeStart header).toNat - (fileSize header).toNat) + 2 ^ 32 by omega, Nat.add_mod_right,
      Nat.mod_eq_of_lt (by omega)]
  have onePage : pageCount (256 - ((codeStart header).toNat - (fileSize header).toNat)) = 1 := by
    rw [pageCountEq]
    omega
  rw [buildSegmentsSpec header pages, ending, onePage, exec, if_pos ⟨by decide, by omega⟩, Nat.one_mul,
    Nat.mod_eq_of_lt (by decide : 4096 < 2 ^ 32)]

end Layout

def relocationsOf (table : List UInt8) (count : Nat) : List Relocation :=
  (List.range count).map fun i =>
    let entry : SegmentedAddress := ⟨u16Le table (4 * i), u16Le table (4 * i + 2)⟩
    .dosExe (entry.toVirtualAddress + loadModuleAddress).toNat loadModuleSegment.toUInt16

def registersOf (header : MZHeader) : InitialRegisters :=
  ⟨some 0, some header.initialIp.toUInt32, some header.initialSp.toUInt32,
    some (header.initialCs.toUInt32 + loadModuleSegment), some pspSegment, some pspSegment,
    some (header.initialSs.toUInt32 + loadModuleSegment)⟩

theorem segmentRegistersToNat (header : MZHeader) :
    ((registersOf header).cs.map UInt32.toNat) = some (header.initialCs.toNat + 0x110) ∧
      ((registersOf header).ss.map UInt32.toNat) = some (header.initialSs.toNat + 0x110) := by
  have cs := header.initialCs.toNat_lt
  have ss := header.initialSs.toNat_lt
  have load : loadModuleSegment.toNat = 0x110 := by decide
  simp only [registersOf, Option.map_some, UInt32.toNat_add, UInt16.toNat_toUInt32, load]
  constructor <;> congr 1 <;> omega

def buildEnvironment (handle : Nat) : Loader ExecutionEnvironment := do
  let bytes ← readExecFile handle 0 (List.replicate 28 0)
  let header := MZHeader.ofBytes bytes
  let segments ← Client.ofExcept (buildSegments header)
  let table ← readExecFile handle header.relocationTableOffset.toUInt32
    (List.replicate (header.relocationEntries.toNat * 4) 0)
  pure ⟨segments, relocationsOf table header.relocationEntries.toNat, registersOf header, true⟩

theorem buildEnvironmentNeverCloses (handle : Nat) : NeverCloses (buildEnvironment handle) :=
  .bind (readExecFileNeverCloses handle 0 _) fun _ => .bind (.ofExcept _) fun _ =>
    .bind (readExecFileNeverCloses handle _ _) fun _ => .done _

theorem buildEnvironmentLayout {σ : Type} {perform : σ → Call → Option (σ × Except Unit Reply)} {s t : σ}
    {handle : Nat} {env : ExecutionEnvironment} (ok : (buildEnvironment handle).run perform s = some (t, .ok env)) :
    ∃ header, buildSegments header = .ok env.segments ∧ env.registers = registersOf header := by
  obtain ⟨_, bytes, -, rest⟩ := Client.runBindOk perform ok
  obtain ⟨_, segments, built, rest⟩ := Client.runBindOk perform rest
  obtain ⟨_, table, -, last⟩ := Client.runBindOk perform rest
  cases Option.some.inj last
  exact ⟨MZHeader.ofBytes bytes, (Client.runOfExceptOk perform built).1, rfl⟩

end Mz

theorem mzLayoutWrapsPastFile :
    (∀ {σ : Type} (perform : σ → Call → Option (σ × Except Unit Reply)) (s t : σ) handle env,
      (Mz.buildEnvironment handle).run perform s = some (t, .ok env) →
        ∃ header, Mz.buildSegments header = .ok env.segments ∧ env.registers = Mz.registersOf header) ∧
    (∀ header : MZHeader, header.pageCount = 0 → Mz.buildSegments header = .error .internalError) ∧
    (∀ header : MZHeader, 1 ≤ header.pageCount.toNat → (Mz.codeStart header).toNat ≤ (Mz.fileSize header).toNat →
      (Mz.fileSize header).toNat =
          (header.pageCount.toNat - 1) * 512 + (if header.lastPageSize = 0 then 512 else header.lastPageSize.toNat) ∧
        (Mz.codeStart header).toNat = header.headerSizeParagraphs.toNat * 16 ∧
        Mz.buildSegments header =
          .ok [⟨4096, pageCount (256 + ((Mz.fileSize header).toNat - (Mz.codeStart header).toNat)) * 4096,
            [⟨0, none, 256⟩, ⟨256, some (Mz.codeStart header).toNat,
              (Mz.fileSize header).toNat - (Mz.codeStart header).toNat⟩], true⟩] ∧
        256 + ((Mz.fileSize header).toNat - (Mz.codeStart header).toNat) ≤
          pageCount (256 + ((Mz.fileSize header).toNat - (Mz.codeStart header).toNat)) * 4096 ∧
        (Mz.registersOf header).cs.map UInt32.toNat = some (header.initialCs.toNat + 0x110) ∧
        (Mz.registersOf header).ss.map UInt32.toNat = some (header.initialSs.toNat + 0x110)) ∧
    (∀ header : MZHeader, 1 ≤ header.pageCount.toNat → (Mz.fileSize header).toNat < (Mz.codeStart header).toNat →
      (Mz.codeStart header).toNat - (Mz.fileSize header).toNat < 256 →
        Mz.buildSegments header =
          .ok [⟨4096, 4096, [⟨0, none, 256⟩, ⟨256, some (Mz.codeStart header).toNat,
            2 ^ 32 - ((Mz.codeStart header).toNat - (Mz.fileSize header).toNat)⟩], true⟩]) ∧
    Mz.buildSegments ⟨0, 1, 0, 33, 0, 0, 0, 0, 0⟩ =
      .ok [⟨4096, 4096, [⟨0, none, 256⟩, ⟨256, some 528, 4294967280⟩], true⟩] := by
  refine ⟨fun perform s t handle env ok => Mz.buildEnvironmentLayout ok, fun header none => Mz.buildSegmentsEmpty header none,
    fun header pages fits => ?_, fun header pages past close => Mz.buildSegmentsWraps header pages past close, by decide⟩
  exact ⟨Mz.fileSizeToNat header pages, Mz.codeStartToNat header, Mz.buildSegmentsFits header pages fits,
    pageCountCovers _, Mz.segmentRegistersToNat header⟩

end ImmDosNx.Loaders
