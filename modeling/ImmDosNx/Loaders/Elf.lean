import ImmDosNx.Loaders.Loader
import ImmDosNx.Task.MemoryRegions
import ImmDosNx.Lib.Except

/-! The ELF loader (`loaders/elf/`). `load_tables` reads the 52-byte header, then
the program headers and the section headers one after another from their tables'
offsets, each into a zeroed packed struct. Every loadable program header gives a
segment over the pages it spans, and every allocated section goes into the first
segment whose range holds its start. Addresses are `usize`, so the end of a segment
and the page count wrap. -/
namespace ImmDosNx.Loaders

open Exec Fs Regions

namespace Elf

structure Header where
  entryPoint : UInt32
  programHeaderTableOffset : UInt32
  sectionHeaderTableOffset : UInt32
  programHeaderTableCount : UInt16
  sectionHeaderTableCount : UInt16
  deriving DecidableEq, Repr

def Header.ofBytes (bytes : List UInt8) : Header :=
  ⟨u32Le bytes 24, u32Le bytes 28, u32Le bytes 32, u16Le bytes 44, u16Le bytes 48⟩

structure ProgramHeader where
  segmentType : UInt32
  segmentVirtualAddress : UInt32
  segmentSizeInMemory : UInt32
  segmentFlags : UInt32
  deriving DecidableEq, Repr

def ProgramHeader.ofBytes (bytes : List UInt8) : ProgramHeader :=
  ⟨u32Le bytes 0, u32Le bytes 8, u32Le bytes 20, u32Le bytes 24⟩

structure SectionHeader where
  sectionType : UInt32
  sectionFlags : UInt32
  sectionVirtualAddress : UInt32
  sectionFileOffset : UInt32
  sectionSizeInFile : UInt32
  deriving DecidableEq, Repr

def SectionHeader.ofBytes (bytes : List UInt8) : SectionHeader :=
  ⟨u32Le bytes 4, u32Le bytes 8, u32Le bytes 12, u32Le bytes 16, u32Le bytes 20⟩

def segmentTypeLoad : UInt32 := 1

def sectionTypeNobits : UInt32 := 8

def sectionFlagAlloc : UInt32 := 2

def readEntries (handle size : Nat) : Nat → Loader (List (List UInt8))
  | 0 => pure []
  | count + 1 => do
    let entry ← readBuffer handle (List.replicate size 0)
    let rest ← readEntries handle size count
    pure (entry :: rest)

theorem readEntriesNeverCloses (handle size count : Nat) : NeverCloses (readEntries handle size count) := by
  induction count with
  | zero => exact .done _
  | succ count ih => exact .bind (readBufferNeverCloses handle _) fun _ => .bind ih fun _ => .done _

def loadTables (handle : Nat) : Loader (Header × List ProgramHeader × List SectionHeader) := do
  let header := Header.ofBytes (← readExecFile handle 0 (List.replicate 52 0))
  seekTo handle header.programHeaderTableOffset
  let programTable ← readEntries handle 32 header.programHeaderTableCount.toNat
  seekTo handle header.sectionHeaderTableOffset
  let sectionTable ← readEntries handle 40 header.sectionHeaderTableCount.toNat
  pure (header, programTable.map ProgramHeader.ofBytes, sectionTable.map SectionHeader.ofBytes)

theorem loadTablesNeverCloses (handle : Nat) : NeverCloses (loadTables handle) :=
  .bind (readExecFileNeverCloses handle 0 _) fun _ => .bind (seekToNeverCloses handle _) fun _ =>
    .bind (readEntriesNeverCloses handle 32 _) fun _ => .bind (seekToNeverCloses handle _) fun _ =>
      .bind (readEntriesNeverCloses handle 40 _) fun _ => .done _

def segmentOf (programHeader : ProgramHeader) : Option ExecutionSegment :=
  if programHeader.segmentType != segmentTypeLoad then none
  else
    let segmentStart := programHeader.segmentVirtualAddress
    let segmentEnd := segmentStart + programHeader.segmentSizeInMemory
    let address := prevPageBarrier segmentStart
    let pageCount := (nextPageBarrier segmentEnd - address) / 4096
    match ExecutionSegment.atAddress address.toNat pageCount.toNat with
    | .ok segment => some (segment.setUserCanWrite (programHeader.segmentFlags &&& 2 == 2))
    | .error _ => none

theorem segmentOfSome {programHeader : ProgramHeader} {segment : ExecutionSegment}
    (built : segmentOf programHeader = some segment) :
    programHeader.segmentType = segmentTypeLoad ∧
      segment.address = programHeader.segmentVirtualAddress.toNat / 4096 * 4096 := by
  unfold segmentOf at built
  split at built
  · cases built
  · next load =>
    dsimp only at built
    split at built
    · next created =>
      cases built
      rw [(ExecutionSegment.atAddressOk created).2, ← prevPageBarrierToNat]
      exact ⟨by simpa using load, rfl⟩
    · cases built

theorem segmentOfLoad {programHeader : ProgramHeader} (load : programHeader.segmentType = segmentTypeLoad) :
    (segmentOf programHeader).isSome := by
  have aligned : (prevPageBarrier programHeader.segmentVirtualAddress).toNat % 4096 = 0 := by
    rw [prevPageBarrierToNat]
    exact Nat.mul_mod_left _ _
  simp [segmentOf, load, ExecutionSegment.atAddressAligned aligned]

theorem segmentAddresses (programHeaders : List ProgramHeader) :
    (programHeaders.filterMap segmentOf).map (·.address) =
      (programHeaders.filter (·.segmentType == segmentTypeLoad)).map
        (·.segmentVirtualAddress.toNat / 4096 * 4096) := by
  induction programHeaders with
  | nil => rfl
  | cons programHeader rest ih =>
    cases built : segmentOf programHeader with
    | none =>
      have other : programHeader.segmentType ≠ segmentTypeLoad := fun load => by
        simpa [built] using segmentOfLoad load
      simp [built, other, ih]
    | some segment =>
      obtain ⟨load, address⟩ := segmentOfSome built
      simp [built, load, address, ih]

def placeSection (sectionHeader : SectionHeader) : List ExecutionSegment → Except LoaderError (List ExecutionSegment)
  | [] => .ok []
  | segment :: rest =>
    let start := sectionHeader.sectionVirtualAddress.toNat
    let segmentStart := segment.address
    let segmentEnd := (segmentStart + segment.size) % 2 ^ 32
    if sectionHeader.sectionFlags &&& sectionFlagAlloc != 0 ∧ segmentStart ≤ start ∧ start < segmentEnd then
      let offset := if sectionHeader.sectionType = sectionTypeNobits then none
        else some sectionHeader.sectionFileOffset.toNat
      let newSection : ExecutionSection := ⟨start - segmentStart, offset, sectionHeader.sectionSizeInFile.toNat⟩
      match segment.addSection newSection with
      | .ok segment => .ok (segment :: rest)
      | .error _ => .error .internalError
    else (placeSection sectionHeader rest).map (segment :: ·)

theorem placeSectionAddresses {sectionHeader : SectionHeader} {segments placed : List ExecutionSegment}
    (ok : placeSection sectionHeader segments = .ok placed) : placed.map (·.address) = segments.map (·.address) := by
  induction segments generalizing placed with
  | nil => cases ok; rfl
  | cons segment rest ih =>
    simp only [placeSection] at ok
    split at ok
    · split at ok
      · next added =>
        cases ok
        simp [(ExecutionSegment.addSectionOk added).2]
      · cases ok
    · obtain ⟨tail, placedRest, rfl⟩ := Except.mapEqOk.mp ok
      simp [ih placedRest]

theorem placeSectionsAddresses (sectionHeaders : List SectionHeader) {segments placed : List ExecutionSegment}
    (ok : sectionHeaders.foldlM (fun segments sectionHeader => placeSection sectionHeader segments) segments =
      .ok placed) :
    placed.map (·.address) = segments.map (·.address) := by
  induction sectionHeaders generalizing segments with
  | nil =>
    cases ok
    rfl
  | cons sectionHeader rest ih =>
    rw [List.foldlM_cons] at ok
    obtain ⟨middle, first, later⟩ := Except.bindEqOk.mp ok
    rw [ih later, placeSectionAddresses first]

def buildEnvironment (handle : Nat) : Loader ExecutionEnvironment := do
  let (header, programHeaders, sectionHeaders) ← loadTables handle
  let segments := programHeaders.filterMap segmentOf
  let segments ← Client.ofExcept (sectionHeaders.foldlM (fun segments sectionHeader =>
    placeSection sectionHeader segments) segments)
  pure ⟨segments, [], ⟨none, some header.entryPoint, some 0xbffffffc, none, none, none, none⟩, false⟩

theorem buildEnvironmentNeverCloses (handle : Nat) : NeverCloses (buildEnvironment handle) :=
  .bind (loadTablesNeverCloses handle) fun _ => .bind (.ofExcept _) fun _ => .done _

theorem buildEnvironmentLayout {σ : Type} {perform : σ → Fs.Call → Option (σ × Except Unit Reply)} {s t : σ}
    {handle : Nat} {env : ExecutionEnvironment} (ok : (buildEnvironment handle).run perform s = some (t, .ok env)) :
    ∃ (header : Header) (programHeaders : List ProgramHeader), env.segments.map (·.address) =
        (programHeaders.filter (·.segmentType == segmentTypeLoad)).map (·.segmentVirtualAddress.toNat / 4096 * 4096) ∧
      env.registers = ⟨none, some header.entryPoint, some 0xbffffffc, none, none, none, none⟩ ∧
      env.relocations = [] ∧ env.requireVm = false := by
  obtain ⟨_, ⟨header, programHeaders, sectionHeaders⟩, -, rest⟩ := Client.runBindOk perform ok
  obtain ⟨_, segments, placed, last⟩ := Client.runBindOk perform rest
  cases Option.some.inj last
  refine ⟨header, programHeaders, ?_, rfl, rfl, rfl⟩
  rw [placeSectionsAddresses sectionHeaders (Client.runOfExceptOk perform placed).1, segmentAddresses]

end Elf

end ImmDosNx.Loaders
