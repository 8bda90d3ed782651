import ImmDosNx.Task.Exec.Segment
import ImmDosNx.Loaders.Mz

/-! Demand paging of user memory: `page_on_demand` (`task/paging.rs`) for a
page that is not present, and the VM86 handler `handle_page_fault`
(`dos/emulation.rs`) that takes its place for DOS programs. The address space
is the bytes at virtual addresses and, per page, whether it is present and
writable. A frame from `allocate_frame` keeps what it held before; the
environment chooses it, content and all, or refuses (`none`). A handler that
returns `false` gives `none`. -/
namespace ImmDosNx.Paging
open Exec

abbrev Memory := Nat → UInt8

structure Space where
  mem : Memory
  pages : Nat → Option Bool

structure ProcessView where
  heapStart : Nat
  heapSize : Nat
  executionSegments : List ExecutionSegment
  relocations : List Relocation
  execFile : Option (List UInt8)

def userKernelBarrier : Nat := 0xc0000000

def stackSize : Nat := 0x2000

def onPage (pageStart x : Nat) : Prop := pageStart ≤ x ∧ x < pageStart + 0x1000

instance (pageStart x : Nat) : Decidable (onPage pageStart x) := inferInstanceAs (Decidable (_ ∧ _))

def mapPage (space : Space) (pageStart : Nat) (frame : Memory) (writable : Bool) : Space :=
  ⟨fun x => if onPage pageStart x then frame (x - pageStart) else space.mem x,
    Function.update space.pages (pageStart / 0x1000) (some writable)⟩

def zeroFill (mem : Memory) (start size : Nat) : Memory := fun x => if start ≤ x ∧ x < start + size then 0 else mem x

def readInto (mem : Memory) (file : List UInt8) (offset start size : Nat) : Memory :=
  fun x => if start ≤ x ∧ x < start + size ∧ offset + (x - start) < file.length then
    file.getD (offset + (x - start)) 0 else mem x

def write8 (mem : Memory) (a : Nat) (v : UInt8) : Memory := fun x => if x = a then v else mem x

def applyRelocation (mem : Memory) : Relocation → Memory
  | .dosExe address offset =>
    let word := (mem address).toUInt16 ||| ((mem (address + 1)).toUInt16 <<< 8)
    let sum := word + offset
    write8 (write8 mem address sum.toUInt8) (address + 1) (sum >>> 8).toUInt8

def loadSubsection (file : List UInt8) (relocations : List Relocation) (mem : Memory) :
    Nat × Nat × Option Nat → Memory
  | (start, size, some offset) => relocations.foldl applyRelocation (readInto mem file offset start size)
  | (start, size, none) => zeroFill mem start size

def subsectionsOf (segment : ExecutionSegment) (pageStart : Nat) : List (Nat × Nat × Option Nat) :=
  let startOffset := (pageStart + 2 ^ 32 - segment.address) % 2 ^ 32
  let endOffset := (startOffset + 0x1000) % 2 ^ 32
  let clipped := (segment.sections.map (·.clipTo startOffset endOffset)).filter (!·.isEmpty)
  clipped.map fun s => ((segment.address + s.segmentOffset) % 2 ^ 32, s.size, s.executableOffset)

def pageOnDemand (p : ProcessView) (space : Space) (frame : Option Memory) (address : Nat) : Option Space := do
  let inStack := userKernelBarrier - stackSize ≤ address ∧ address < userKernelBarrier
  let inHeap := p.heapStart ≤ address ∧ address < p.heapStart + p.heapSize
  let pageStart := prevPageBarrier address
  if inHeap ∨ inStack then
    let frame ← frame
    let space := mapPage space pageStart frame true
    return { space with mem := zeroFill space.mem pageStart 0x1000 }
  let (subsections, writable) := match getExecutionSegmentContainingAddress p.executionSegments address with
    | some segment => (subsectionsOf segment pageStart, segment.canWrite)
    | none => ([], false)
  let relocations := p.relocations.filter fun r => decide (onPage pageStart r.getAddress)
  let file ← p.execFile
  if subsections.isEmpty then none
  let frame ← frame
  let space := mapPage space pageStart frame writable
  return { space with mem := subsections.foldl (loadSubsection file relocations) space.mem }

/-- Here `handle_page_fault` in VM86 mode: below `0xa0000` a fresh frame is mapped writable; between `0xa0000` and
`0xc0000` the terminal's video memory or its backup, `video`. -/
def dosHandlePageFault (space : Space) (frame : Option Memory) (video : Memory) (address : Nat) : Option Space :=
  if address < 0xa0000 then do
    let frame ← frame
    return mapPage space (prevPageBarrier address) frame true
  else if address < 0xc0000 then some (mapPage space (prevPageBarrier address) video true)
  else none

def pageFault (vm86 : Bool) (p : ProcessView) (space : Space) (frame : Option Memory) (video : Memory)
    (address : Nat) : Option Space :=
  if vm86 then dosHandlePageFault space frame video address else pageOnDemand p space frame address

def eagerImage (file : List UInt8) (segments : List ExecutionSegment) (relocations : List Relocation) : Memory :=
  let loadSegment (mem : Memory) (segment : ExecutionSegment) : Memory :=
    segment.sections.foldl (fun mem s => match s.executableOffset with
      | some offset => readInto mem file offset (segment.address + s.segmentOffset) s.size
      | none => zeroFill mem (segment.address + s.segmentOffset) s.size) mem
  relocations.foldl applyRelocation (segments.foldl loadSegment fun _ => 0)

def execView (segments : List ExecutionSegment) (relocations : List Relocation) (file : List UInt8) :
    ProcessView :=
  ⟨getExecutionSegmentsEnd segments, 0, segments, relocations, some file⟩

/-! ## What a page-in writes -/

theorem applyOutside (mem : Memory) (r : Relocation) {x : Nat}
    (apart : r.getAddress ≠ x ∧ r.getAddress + 1 ≠ x) : applyRelocation mem r x = mem x := by
  cases r with
  | dosExe address offset =>
    simp only [Relocation.getAddress] at apart
    simp [applyRelocation, write8, Ne.symm apart.1, Ne.symm apart.2]

theorem relocationsOutside (relocations : List Relocation) (mem : Memory) {x : Nat}
    (apart : ∀ r ∈ relocations, r.getAddress ≠ x ∧ r.getAddress + 1 ≠ x) :
    relocations.foldl applyRelocation mem x = mem x := by
  induction relocations generalizing mem with
  | nil => rfl
  | cons r rest ih =>
    rw [List.foldl_cons, ih _ fun r' mem' => apart r' (List.mem_cons_of_mem r mem'),
      applyOutside mem r (apart r List.mem_cons_self)]

theorem loadSubsectionOutside (file : List UInt8) (relocations : List Relocation) (mem : Memory)
    (sub : Nat × Nat × Option Nat) {x : Nat} (outside : ¬(sub.1 ≤ x ∧ x < sub.1 + sub.2.1))
    (apart : ∀ r ∈ relocations, r.getAddress ≠ x ∧ r.getAddress + 1 ≠ x) :
    loadSubsection file relocations mem sub x = mem x := by
  obtain ⟨start, size, offset⟩ := sub
  cases offset with
  | some offset =>
    simp only [loadSubsection, relocationsOutside relocations _ apart, readInto]
    rw [if_neg fun inside => outside ⟨inside.1, inside.2.1⟩]
  | none => simp only [loadSubsection, zeroFill]; rw [if_neg outside]

theorem loadSubsectionsOutside (file : List UInt8) (relocations : List Relocation)
    (subsections : List (Nat × Nat × Option Nat)) (mem : Memory) {x : Nat}
    (outside : ∀ sub ∈ subsections, ¬(sub.1 ≤ x ∧ x < sub.1 + sub.2.1))
    (apart : ∀ r ∈ relocations, r.getAddress ≠ x ∧ r.getAddress + 1 ≠ x) :
    subsections.foldl (loadSubsection file relocations) mem x = mem x := by
  induction subsections generalizing mem with
  | nil => rfl
  | cons sub rest ih =>
    rw [List.foldl_cons, ih _ fun sub' mem' => outside sub' (List.mem_cons_of_mem sub mem'),
      loadSubsectionOutside file relocations mem sub (outside sub List.mem_cons_self) apart]

/-- A page of a segment on which none of the kernel's 32-bit sums wraps. -/
structure NoWrap (segment : ExecutionSegment) (pageStart : Nat) : Prop where
  inSegment : segment.address ≤ pageStart
  below : pageStart + 0x1000 < 2 ^ 32
  fits : ∀ s ∈ segment.sections, segment.address + s.segmentOffset + s.size < 2 ^ 32

theorem subsectionsOfEq {segment : ExecutionSegment} {pageStart : Nat} (page : NoWrap segment pageStart) :
    subsectionsOf segment pageStart =
      ((segment.sections.map (·.clipTo (pageStart - segment.address) (pageStart - segment.address + 0x1000))).filter
        (!·.isEmpty)).map fun s => (segment.address + s.segmentOffset, s.size, s.executableOffset) := by
  have inSegment := page.inSegment
  have below := page.below
  have start : (pageStart + 2 ^ 32 - segment.address) % 2 ^ 32 = pageStart - segment.address := by
    rw [show pageStart + 2 ^ 32 - segment.address = pageStart - segment.address + 2 ^ 32 by omega, Nat.add_mod_right,
      Nat.mod_eq_of_lt (by omega)]
  have finish : (pageStart - segment.address + 0x1000) % 2 ^ 32 = pageStart - segment.address + 0x1000 :=
    Nat.mod_eq_of_lt (by omega)
  unfold subsectionsOf
  rw [start]
  dsimp only
  rw [finish]
  apply List.map_congr_left
  intro clipped mem
  obtain ⟨s, sMem, rfl⟩ := List.mem_map.mp (List.mem_filter.mp mem).1
  have fits := page.fits s sMem
  rw [ExecutionSection.clipToSegmentOffset, Nat.mod_eq_of_lt (by omega)]

theorem pageClipCovers {segment : ExecutionSegment} {pageStart : Nat} (page : NoWrap segment pageStart)
    {s : ExecutionSection} (sMem : s ∈ segment.sections) (x : Nat) :
    (segment.address + (s.clipTo (pageStart - segment.address) (pageStart - segment.address + 0x1000)).segmentOffset ≤ x ∧
        x < segment.address +
          (s.clipTo (pageStart - segment.address) (pageStart - segment.address + 0x1000)).segmentOffset +
          (s.clipTo (pageStart - segment.address) (pageStart - segment.address + 0x1000)).size) ↔
      pageStart ≤ x ∧ x < pageStart + 0x1000 ∧ s.virtualRangeContains segment.address x = true := by
  have fits := page.fits s sMem
  have inSegment := page.inSegment
  rw [ExecutionSection.virtualRangeContainsIff s x fits]
  constructor
  · intro inside
    have covered := (s.clipToCovers (pageStart - segment.address) (pageStart - segment.address + 0x1000)
      (x - segment.address) (by omega)).mp (by omega)
    omega
  · intro inside
    have covered := (s.clipToCovers (pageStart - segment.address) (pageStart - segment.address + 0x1000)
      (x - segment.address) (by omega)).mpr (by omega)
    omega

theorem subsectionsFileOffset {segment : ExecutionSegment} {pageStart : Nat} {sub : Nat × Nat × Option Nat}
    (page : NoWrap segment pageStart) (mem : sub ∈ subsectionsOf segment pageStart) :
    ∃ s ∈ segment.sections,
      (∀ x, sub.1 ≤ x → x < sub.1 + sub.2.1 → s.virtualRangeContains segment.address x = true) ∧
      (s.executableOffset = none → sub.2.2 = none) ∧
      ∀ e, s.executableOffset = some e → e + s.size ≤ 2 ^ 32 → ∃ e', sub.2.2 = some e' ∧
        ∀ x, sub.1 ≤ x → x < sub.1 + sub.2.1 → e' + (x - sub.1) = e + (x - (segment.address + s.segmentOffset)) := by
  rw [subsectionsOfEq page] at mem
  obtain ⟨clipped, clippedMem, rfl⟩ := List.mem_map.mp mem
  obtain ⟨s, sMem, rfl⟩ := List.mem_map.mp (List.mem_filter.mp clippedMem).1
  have fits := page.fits s sMem
  have inSegment := page.inSegment
  refine ⟨s, sMem, fun x after before => ?_,
    s.clipToZero (pageStart - segment.address) (pageStart - segment.address + 0x1000), fun e fromFile span => ?_⟩
  · exact ((pageClipCovers page sMem x).mp ⟨after, before⟩).2.2
  · obtain ⟨e', clippedFrom, same⟩ := s.clipToFileOffset (pageStart - segment.address)
      (pageStart - segment.address + 0x1000) (by omega) fromFile span
    refine ⟨e', clippedFrom, fun x after before => ?_⟩
    dsimp only at after before ⊢
    have := same (x - segment.address) (by omega) (by omega)
    omega

theorem subsectionsWithin {segment : ExecutionSegment} {pageStart x : Nat}
    {sub : Nat × Nat × Option Nat} (page : NoWrap segment pageStart) (mem : sub ∈ subsectionsOf segment pageStart)
    (inside : sub.1 ≤ x ∧ x < sub.1 + sub.2.1) :
    ∃ s ∈ segment.sections, s.virtualRangeContains segment.address x = true := by
  obtain ⟨s, sMem, covers, -⟩ := subsectionsFileOffset page mem
  exact ⟨s, sMem, covers x inside.1 inside.2⟩

theorem subsectionsCover {segment : ExecutionSegment} {pageStart : Nat} (page : NoWrap segment pageStart) (x : Nat) :
    (∃ sub ∈ subsectionsOf segment pageStart, sub.1 ≤ x ∧ x < sub.1 + sub.2.1) ↔
      pageStart ≤ x ∧ x < pageStart + 0x1000 ∧
        ∃ s ∈ segment.sections, s.virtualRangeContains segment.address x = true := by
  rw [subsectionsOfEq page]
  simp only [List.mem_map, List.mem_filter]
  constructor
  · rintro ⟨_, ⟨_, ⟨⟨s, sMem, rfl⟩, -⟩, rfl⟩, after, before⟩
    obtain ⟨first, last, contains⟩ := (pageClipCovers page sMem x).mp ⟨after, before⟩
    exact ⟨first, last, s, sMem, contains⟩
  · rintro ⟨first, last, s, sMem, contains⟩
    obtain ⟨after, before⟩ := (pageClipCovers page sMem x).mpr ⟨first, last, contains⟩
    refine ⟨_, ⟨_, ⟨⟨s, sMem, rfl⟩, ?_⟩, rfl⟩, after, before⟩
    simp only [ExecutionSection.isEmpty, Bool.not_eq_true', beq_eq_false_iff_ne]
    omega

theorem clipKeepsFileMapping :
    (∀ (s : ExecutionSection) (rangeStart rangeEnd : Nat), s.segmentOffset + s.size < 2 ^ 32 →
      (s.clipTo rangeStart rangeEnd).segmentOffset = max s.segmentOffset rangeStart ∧
      (s.clipTo rangeStart rangeEnd).size = min (s.segmentOffset + s.size) rangeEnd - max s.segmentOffset rangeStart ∧
      (∀ x, ((s.clipTo rangeStart rangeEnd).segmentOffset ≤ x ∧
          x < (s.clipTo rangeStart rangeEnd).segmentOffset + (s.clipTo rangeStart rangeEnd).size) ↔
        s.segmentOffset ≤ x ∧ x < s.segmentOffset + s.size ∧ rangeStart ≤ x ∧ x < rangeEnd) ∧
      (s.executableOffset = none → (s.clipTo rangeStart rangeEnd).executableOffset = none) ∧
      ∀ e, s.executableOffset = some e → e + s.size ≤ 2 ^ 32 →
        ∃ e', (s.clipTo rangeStart rangeEnd).executableOffset = some e' ∧
          ∀ x, (s.clipTo rangeStart rangeEnd).segmentOffset ≤ x →
            x < (s.clipTo rangeStart rangeEnd).segmentOffset + (s.clipTo rangeStart rangeEnd).size →
            e' + (x - (s.clipTo rangeStart rangeEnd).segmentOffset) = e + (x - s.segmentOffset)) ∧
    (∀ (segment : ExecutionSegment) (pageStart : Nat), NoWrap segment pageStart → ∀ x,
      (∃ sub ∈ subsectionsOf segment pageStart, sub.1 ≤ x ∧ x < sub.1 + sub.2.1) ↔
        pageStart ≤ x ∧ x < pageStart + 0x1000 ∧
          ∃ s ∈ segment.sections, s.virtualRangeContains segment.address x = true) ∧
    (∀ (segment : ExecutionSegment) (pageStart : Nat) sub, NoWrap segment pageStart →
      sub ∈ subsectionsOf segment pageStart →
      ∃ s ∈ segment.sections,
        (∀ x, sub.1 ≤ x → x < sub.1 + sub.2.1 → s.virtualRangeContains segment.address x = true) ∧
        (s.executableOffset = none → sub.2.2 = none) ∧
        ∀ e, s.executableOffset = some e → e + s.size ≤ 2 ^ 32 → ∃ e', sub.2.2 = some e' ∧
          ∀ x, sub.1 ≤ x → x < sub.1 + sub.2.1 → e' + (x - sub.1) = e + (x - (segment.address + s.segmentOffset))) := by
  refine ⟨fun s rangeStart rangeEnd fits => ⟨s.clipToSegmentOffset rangeStart rangeEnd, ?_,
    fun x => s.clipToCovers rangeStart rangeEnd x fits, s.clipToZero rangeStart rangeEnd,
    fun e fromFile span => s.clipToFileOffset rangeStart rangeEnd fits fromFile span⟩,
    fun segment pageStart page => subsectionsCover page, fun segment pageStart sub page => subsectionsFileOffset page⟩
  rw [ExecutionSection.clipToEq s rangeStart rangeEnd fits, Nat.min_comm]

theorem clipKeepsBinMapping :
    let bin : ExecutionSegment := ⟨0, 4096, [⟨0, some 0, 16⟩], true⟩
    NoWrap bin 0 ∧
      ((∃ sub ∈ subsectionsOf bin 0, sub.1 ≤ 5 ∧ 5 < sub.1 + sub.2.1) ↔
        0 ≤ 5 ∧ 5 < 0 + 0x1000 ∧ ∃ s ∈ bin.sections, s.virtualRangeContains bin.address 5 = true) := by
  intro bin
  have noWrap : NoWrap bin 0 := ⟨by decide, by decide, by decide⟩
  exact ⟨noWrap, clipKeepsFileMapping.2.1 bin 0 noWrap 5⟩

theorem clipDropsWrappedSection :
    Loaders.Mz.buildSegments ⟨0, 1, 0, 33, 0, 0, 0, 0, 0⟩ =
        .ok [⟨4096, 4096, [⟨0, none, 256⟩, ⟨256, some 528, 4294967280⟩], true⟩] ∧
      (ExecutionSection.clipTo ⟨256, some 528, 4294967280⟩ 0 4096).size = 0 ∧
      min (256 + 4294967280) 4096 - max 256 0 = 3840 :=
  ⟨by decide, by decide, by decide⟩

theorem pageOnDemandExec {p : ProcessView} {space space' : Space} {stale : Memory} {address : Nat}
    {segment : ExecutionSegment}
    (outsideHeap : ¬(p.heapStart ≤ address ∧ address < p.heapStart + p.heapSize))
    (outsideStack : ¬(userKernelBarrier - stackSize ≤ address ∧ address < userKernelBarrier))
    (found : getExecutionSegmentContainingAddress p.executionSegments address = some segment)
    (ok : pageOnDemand p space (some stale) address = some space') :
    ∃ bytes, p.execFile = some bytes ∧
      space' = { mapPage space (prevPageBarrier address) stale segment.canWrite with
        mem := (subsectionsOf segment (prevPageBarrier address)).foldl
          (loadSubsection bytes (p.relocations.filter fun r => decide (onPage (prevPageBarrier address) r.getAddress)))
          (mapPage space (prevPageBarrier address) stale segment.canWrite).mem } := by
  dsimp only [pageOnDemand] at ok
  rw [if_neg (not_or.mpr ⟨outsideHeap, outsideStack⟩), found] at ok
  cases file : p.execFile with
  | none => simp [file] at ok
  | some bytes =>
    cases empty : (subsectionsOf segment (prevPageBarrier address)).isEmpty with
    | true => simp [file, empty] at ok
    | false =>
      simp only [file, empty, Bool.false_eq_true, if_false, Option.bind_eq_bind, Option.bind_some,
        Option.pure_def, Option.some.injEq] at ok
      exact ⟨bytes, rfl, ok.symm⟩

theorem pageOnDemandGap {p : ProcessView} {space space' : Space} {stale : Memory}
    {address x : Nat} {segment : ExecutionSegment}
    (outsideHeap : ¬(p.heapStart ≤ address ∧ address < p.heapStart + p.heapSize))
    (outsideStack : ¬(userKernelBarrier - stackSize ≤ address ∧ address < userKernelBarrier))
    (found : getExecutionSegmentContainingAddress p.executionSegments address = some segment)
    (ok : pageOnDemand p space (some stale) address = some space')
    (page : onPage (prevPageBarrier address) x)
    (noWrap : NoWrap segment (prevPageBarrier address))
    (gap : ∀ s ∈ segment.sections, s.virtualRangeContains segment.address x = false)
    (unrelocated : ∀ r ∈ p.relocations, r.getAddress ≠ x ∧ r.getAddress + 1 ≠ x) :
    space'.mem x = stale (x - prevPageBarrier address) := by
  obtain ⟨bytes, -, rfl⟩ := pageOnDemandExec outsideHeap outsideStack found ok
  have outside : ∀ sub ∈ subsectionsOf segment (prevPageBarrier address), ¬(sub.1 ≤ x ∧ x < sub.1 + sub.2.1) := by
    intro sub mem inside
    obtain ⟨s, sMem, hit⟩ := subsectionsWithin noWrap mem inside
    rw [gap s sMem] at hit
    cases hit
  dsimp only
  rw [loadSubsectionsOutside _ _ _ _ outside fun r mem => unrelocated r (List.mem_filter.mp mem).1]
  simp [mapPage, page]

theorem dosHandlePageFaultLow (space : Space) (frame video : Memory) {address : Nat} (low : address < 0xa0000) :
    dosHandlePageFault space (some frame) video address = some (mapPage space (prevPageBarrier address) frame true) := by
  simp [dosHandlePageFault, low]

theorem binPageKeepsStaleBytes :
    ∃ segments space, buildSingleSectionEnvironment 16 0 = .ok segments ∧
      pageFault false (execView segments [] (List.replicate 16 0x90)) ⟨fun _ => 0, fun _ => none⟩
        (some fun _ => 0xAA) (fun _ => 0) 0 = some space ∧
      space.pages 0 = some true ∧ space.mem 0x10 = 0xAA ∧
      eagerImage (List.replicate 16 0x90) segments [] 0x10 = 0 := by
  refine ⟨_, _, rfl, rfl, ?_, ?_, ?_⟩ <;> decide

end ImmDosNx.Paging
