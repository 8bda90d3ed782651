import Mathlib

/-! Execution segments (`task/memory.rs`) and the layouts the BIN and COM
loaders build from them (`loaders/bin.rs`, `loaders/com.rs`). A segment is a
page-aligned run of pages; its sections say which bytes come from the file and
which are zero. Addresses and sizes are plain numbers below `2 ^ 32`. The size
product of `at_address` and the bound sum of `add_section` are taken modulo
`2 ^ 32`, as the kernel's `usize` arithmetic wraps: a loader may hand them a size
that has already wrapped. -/
namespace ImmDosNx.Exec

def pageSizeInBytes : Nat := 0x1000

inductive ProcessMemoryError where
  | segmentWrongAlignment
  | sectionOutOfBounds
  | mmapWrongAlignment
  | notEnoughMemory
  | mapOutOfBounds
  | munmapNotPageMultiple
  deriving DecidableEq, Repr

inductive LoaderError where
  | fileNotFound
  | internalError
  | invalidHeader
  deriving DecidableEq, Repr

structure ExecutionSection where
  segmentOffset : Nat
  executableOffset : Option Nat
  size : Nat
  deriving DecidableEq, Repr

namespace ExecutionSection

def clipTo (s : ExecutionSection) (rangeStart rangeEnd : Nat) : ExecutionSection :=
  let (start, offset) :=
    if s.segmentOffset < rangeStart then
      let delta := rangeStart - s.segmentOffset
      (rangeStart, s.executableOffset.map fun off => (off + delta) % 2 ^ 32)
    else (s.segmentOffset, s.executableOffset)
  let finish := min rangeEnd ((s.segmentOffset + s.size) % 2 ^ 32)
  let size := if finish > start then finish - start else 0
  ⟨start, offset, size⟩

def isEmpty (s : ExecutionSection) : Bool := s.size == 0

def virtualRangeContains (s : ExecutionSection) (segmentStart addr : Nat) : Bool :=
  let start := (segmentStart + s.segmentOffset) % 2 ^ 32
  start ≤ addr && addr < (start + s.size) % 2 ^ 32

theorem virtualRangeContainsIff (s : ExecutionSection) {segmentStart : Nat} (addr : Nat)
    (fits : segmentStart + s.segmentOffset + s.size < 2 ^ 32) :
    s.virtualRangeContains segmentStart addr = true ↔
      segmentStart + s.segmentOffset ≤ addr ∧ addr < segmentStart + s.segmentOffset + s.size := by
  simp only [virtualRangeContains, Bool.and_eq_true, decide_eq_true_eq]
  rw [Nat.mod_eq_of_lt (by omega : segmentStart + s.segmentOffset < 2 ^ 32), Nat.mod_eq_of_lt fits]

theorem clipToSegmentOffset (s : ExecutionSection) (rangeStart rangeEnd : Nat) :
    (s.clipTo rangeStart rangeEnd).segmentOffset = max s.segmentOffset rangeStart := by
  unfold clipTo
  by_cases late : s.segmentOffset < rangeStart
  · simp only [late, if_true]
    omega
  · simp only [late, if_false]
    omega

theorem clipToEq (s : ExecutionSection) (rangeStart rangeEnd : Nat) (fits : s.segmentOffset + s.size < 2 ^ 32) :
    s.clipTo rangeStart rangeEnd = ⟨max s.segmentOffset rangeStart,
      if s.segmentOffset < rangeStart then
        s.executableOffset.map fun off => (off + (rangeStart - s.segmentOffset)) % 2 ^ 32
      else s.executableOffset,
      min rangeEnd (s.segmentOffset + s.size) - max s.segmentOffset rangeStart⟩ := by
  unfold clipTo
  rw [Nat.mod_eq_of_lt fits]
  by_cases late : s.segmentOffset < rangeStart
  · simp only [late, if_true]
    congr 1
    · omega
    · split <;> omega
  · simp only [late, if_false]
    congr 1
    · omega
    · split <;> omega

theorem clipToCovers (s : ExecutionSection) (rangeStart rangeEnd x : Nat) (fits : s.segmentOffset + s.size < 2 ^ 32) :
    ((s.clipTo rangeStart rangeEnd).segmentOffset ≤ x ∧
        x < (s.clipTo rangeStart rangeEnd).segmentOffset + (s.clipTo rangeStart rangeEnd).size) ↔
      s.segmentOffset ≤ x ∧ x < s.segmentOffset + s.size ∧ rangeStart ≤ x ∧ x < rangeEnd := by
  rw [clipToEq s rangeStart rangeEnd fits]
  dsimp only
  omega

theorem clipToFileOffset (s : ExecutionSection) (rangeStart rangeEnd : Nat) {e : Nat}
    (fits : s.segmentOffset + s.size < 2 ^ 32) (fromFile : s.executableOffset = some e) (span : e + s.size ≤ 2 ^ 32) :
    ∃ e', (s.clipTo rangeStart rangeEnd).executableOffset = some e' ∧
      ∀ x, (s.clipTo rangeStart rangeEnd).segmentOffset ≤ x →
        x < (s.clipTo rangeStart rangeEnd).segmentOffset + (s.clipTo rangeStart rangeEnd).size →
        e' + (x - (s.clipTo rangeStart rangeEnd).segmentOffset) = e + (x - s.segmentOffset) := by
  rw [clipToEq s rangeStart rangeEnd fits]
  by_cases late : s.segmentOffset < rangeStart
  · refine ⟨(e + (rangeStart - s.segmentOffset)) % 2 ^ 32, by simp [late, fromFile], fun x after before => ?_⟩
    dsimp only at after before ⊢
    have small : e + (rangeStart - s.segmentOffset) < 2 ^ 32 := by omega
    rw [Nat.mod_eq_of_lt small]
    omega
  · refine ⟨e, by simp [late, fromFile], fun x after _ => ?_⟩
    dsimp only at after ⊢
    omega

theorem clipToZero (s : ExecutionSection) (rangeStart rangeEnd : Nat) (zero : s.executableOffset = none) :
    (s.clipTo rangeStart rangeEnd).executableOffset = none := by
  unfold clipTo
  by_cases late : s.segmentOffset < rangeStart <;> simp [late, zero]

end ExecutionSection

structure ExecutionSegment where
  address : Nat
  size : Nat
  sections : List ExecutionSection
  canWrite : Bool
  deriving DecidableEq, Repr

namespace ExecutionSegment

def atAddress (address pages : Nat) : Except ProcessMemoryError ExecutionSegment :=
  if address % pageSizeInBytes != 0 then .error .segmentWrongAlignment
  else .ok ⟨address, pages * pageSizeInBytes % 2 ^ 32, [], false⟩

def addSection (seg : ExecutionSegment) (s : ExecutionSection) : Except ProcessMemoryError ExecutionSegment :=
  if (s.segmentOffset + s.size) % 2 ^ 32 > seg.size then .error .sectionOutOfBounds
  else .ok { seg with sections := seg.sections ++ [s] }

theorem atAddressOk {address pages : Nat} {seg : ExecutionSegment} (created : atAddress address pages = .ok seg) :
    address % 4096 = 0 ∧ seg = ⟨address, pages * 4096 % 2 ^ 32, [], false⟩ := by
  unfold atAddress at created
  split at created
  · cases created
  · next aligned => exact ⟨by simpa [pageSizeInBytes] using aligned, (Except.ok.inj created).symm⟩

theorem atAddressAligned {address : Nat} (aligned : address % 4096 = 0) (pages : Nat) :
    atAddress address pages = .ok ⟨address, pages * 4096 % 2 ^ 32, [], false⟩ := by
  simp [atAddress, pageSizeInBytes, aligned]

theorem addSectionOk {seg seg' : ExecutionSegment} {s : ExecutionSection} (added : seg.addSection s = .ok seg') :
    (s.segmentOffset + s.size) % 2 ^ 32 ≤ seg.size ∧ seg' = { seg with sections := seg.sections ++ [s] } := by
  unfold addSection at added
  split at added
  · cases added
  · exact ⟨by omega, (Except.ok.inj added).symm⟩

def setUserCanWrite (seg : ExecutionSegment) (flag : Bool) : ExecutionSegment := { seg with canWrite := flag }

def containsAddress (seg : ExecutionSegment) (addr : Nat) : Bool :=
  seg.sections.any fun s => s.virtualRangeContains seg.address addr

end ExecutionSegment

/-- Models `get_execution_segment_containing_address`: the first segment with a section at `addr`. -/
def getExecutionSegmentContainingAddress (segments : List ExecutionSegment) (addr : Nat) :
    Option ExecutionSegment :=
  segments.find? (·.containsAddress addr)

def getExecutionSegmentsEnd (segments : List ExecutionSegment) : Nat :=
  segments.foldl (fun high segment => max high ((segment.address + segment.size) % 2 ^ 32)) 0

def pageCount (dataSize : Nat) : Nat :=
  dataSize / 0x1000 + if dataSize &&& 0xfff != 0 then 1 else 0

theorem pageCountEq (dataSize : Nat) : pageCount dataSize = (dataSize + 4095) / 4096 := by
  rw [pageCount, show (0xfff : Nat) = 2 ^ 12 - 1 from rfl, Nat.and_two_pow_sub_one_eq_mod]
  split
  · next uneven =>
    have : dataSize % 2 ^ 12 ≠ 0 := by simpa using uneven
    omega
  · next even =>
    have : dataSize % 2 ^ 12 = 0 := by simpa using even
    omega

theorem pageCountCovers (dataSize : Nat) : dataSize ≤ pageCount dataSize * 4096 := by
  rw [pageCountEq]
  omega

def buildSingleSectionEnvironment (fileSize offset : Nat) : Except LoaderError (List ExecutionSegment) := do
  let dataSize := fileSize + offset
  let fileSection : ExecutionSection := ⟨offset, some 0, dataSize⟩
  let segment ← (ExecutionSegment.atAddress 0 (pageCount dataSize)).mapError fun _ => .internalError
  let segment := segment.setUserCanWrite true
  let segment ← (segment.addSection fileSection).mapError fun _ => .internalError
  pure [segment]

def pspSize : Nat := 0x100

def prevPageBarrier (addr : Nat) : Nat := addr / 0x1000 * 0x1000

def buildSingleSectionEnvironmentWithPsp (fileSize pspSegment : Nat) :
    Except LoaderError (List ExecutionSegment) := do
  let pspStart := pspSegment <<< 4
  let codeStart := pspStart + pspSize
  let pageStart := prevPageBarrier pspStart
  let pspSection : ExecutionSection := ⟨pspStart - pageStart, none, pspSize⟩
  let fileSection : ExecutionSection := ⟨codeStart - pageStart, some 0, fileSize⟩
  let finalByte := codeStart + fileSize
  let totalLength := finalByte - pageStart
  let segment ← (ExecutionSegment.atAddress pageStart (pageCount totalLength)).mapError fun _ => .internalError
  let segment := segment.setUserCanWrite true
  let segment ← (segment.addSection pspSection).mapError fun _ => .internalError
  let segment ← (segment.addSection fileSection).mapError fun _ => .internalError
  pure [segment]

inductive Relocation where
  | dosExe (address : Nat) (offset : UInt16)
  deriving DecidableEq, Repr

def Relocation.getAddress : Relocation → Nat
  | .dosExe address _ => address

end ImmDosNx.Exec
