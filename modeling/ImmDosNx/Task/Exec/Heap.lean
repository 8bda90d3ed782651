import ImmDosNx.Task.MemoryRegions

/-! Moving the heap top (`set_heap_top`, `move_heap_top`, `unmap_unused_heap`,
`task/exec.rs`). A shrinking heap unmaps the pages from the one after
`prev_page_barrier` of the new end through `prev_page_barrier` of the old end.
When an end is page aligned that window is a page off: an aligned new end keeps
its first freed page mapped, and an aligned old end unmaps the page just past
the heap. -/
namespace ImmDosNx.Regions

/-- The `while page <= end` loop: the pages it hands to `unmap_page`, in order, or `none` when `fuel` iterations
do not end it. -/
def unmapLoop (page «end» : UInt32) : Nat → Option (List UInt32)
  | 0 => none
  | fuel + 1 =>
    if page ≤ «end» then (unmapLoop (page + 4096) «end» fuel).map (page :: ·) else some []

def unmapUnusedHeap (start prevSize newSize : UInt32) : Option (List UInt32) :=
  if newSize ≥ prevSize then some []
  else
    let prevEnd := start + prevSize
    let newEnd := start + newSize
    unmapLoop (prevPageBarrier newEnd + 4096) (prevPageBarrier prevEnd) (2 ^ 20 + 1)

/-- Both calls return the new top and the pages they unmapped; `none` is a loop that never ends. -/
def setHeapTop (m : MemoryRegions) (addr : UInt32) : Option (Except Unit (MemoryRegions × UInt32 × List UInt32)) :=
  if addr < m.heapStart then some (.error ())
  else
    let prevSize := m.heapSize
    let size := addr - m.heapStart
    let m := { m with heapSize := size }
    (unmapUnusedHeap m.heapStart prevSize size).map fun pages => .ok (m, m.heapStart + m.heapSize, pages)

/-- Here `current_size as isize + delta` wraps like the 32-bit `isize` it is. -/
def moveHeapTop (m : MemoryRegions) (delta : Int32) : Option (Except Unit (MemoryRegions × UInt32 × List UInt32)) :=
  if delta != 0 then
    let currentSize := m.heapSize
    let newSize := currentSize.toInt32 + delta
    if newSize < 0 then some (.error ())
    else
      let m := { m with heapSize := newSize.toUInt32 }
      (unmapUnusedHeap m.heapStart currentSize newSize.toUInt32).map fun pages =>
        .ok (m, m.heapStart + m.heapSize, pages)
  else some (.ok (m, m.heapStart + m.heapSize, []))

theorem toNatAddBelow {a b : UInt32} (small : a.toNat + b.toNat < 2 ^ 32) : (a + b).toNat = a.toNat + b.toNat := by
  rw [UInt32.toNat_add]
  exact Nat.mod_eq_of_lt small

theorem unmapLoopPages (page «end» : UInt32) (fuel : Nat) (room : «end».toNat + 4096 < 2 ^ 32)
    (enough : («end».toNat + 4096 - page.toNat) / 4096 < fuel) :
    ∃ pages, unmapLoop page «end» fuel = some pages ∧
      ∀ p : UInt32, p ∈ pages ↔ page ≤ p ∧ p ≤ «end» ∧ p.toNat % 4096 = page.toNat % 4096 := by
  induction fuel generalizing page with
  | zero => omega
  | succ fuel ih =>
    simp only [unmapLoop]
    split
    · next within =>
      rw [UInt32.le_iff_toNat_le] at within
      have next : (page + 4096).toNat = page.toNat + 4096 := toNatAddBelow (by simp; omega)
      obtain ⟨pages, loop, members⟩ := ih (page + 4096) (by rw [next]; omega)
      refine ⟨page :: pages, by simp [loop], fun p => ?_⟩
      simp only [List.mem_cons, members, UInt32.le_iff_toNat_le, next, UInt32.ext_iff]
      omega
    · next beyond =>
      refine ⟨[], rfl, fun p => ?_⟩
      simp only [List.not_mem_nil, false_iff, not_and, UInt32.le_iff_toNat_le]
      rw [UInt32.le_iff_toNat_le] at beyond
      omega

theorem unmapUnusedHeapPages (start prevSize newSize : UInt32) (shrinks : newSize < prevSize)
    (below : start.toNat + prevSize.toNat < userKernelBarrier.toNat) :
    ∃ pages, unmapUnusedHeap start prevSize newSize = some pages ∧ ∀ p : UInt32, p ∈ pages ↔
      p.toNat % 4096 = 0 ∧ (start.toNat + newSize.toNat) / 4096 * 4096 + 4096 ≤ p.toNat ∧
        p.toNat ≤ (start.toNat + prevSize.toNat) / 4096 * 4096 := by
  have barrier : userKernelBarrier.toNat = 0xc0000000 := rfl
  rw [UInt32.lt_iff_toNat_lt] at shrinks
  have first : (prevPageBarrier (start + newSize) + 4096).toNat = (start.toNat + newSize.toNat) / 4096 * 4096 + 4096 := by
    rw [UInt32.toNat_add, prevPageBarrierToNat, toNatAddBelow (by omega)]
    exact Nat.mod_eq_of_lt (by simp; omega)
  have last : (prevPageBarrier (start + prevSize)).toNat = (start.toNat + prevSize.toNat) / 4096 * 4096 := by
    rw [prevPageBarrierToNat, toNatAddBelow (by omega)]
  obtain ⟨pages, loop, members⟩ := unmapLoopPages (prevPageBarrier (start + newSize) + 4096)
    (prevPageBarrier (start + prevSize)) (2 ^ 20 + 1) (by omega) (by omega)
  have shrinking : ¬ newSize ≥ prevSize := by rw [ge_iff_le, UInt32.le_iff_toNat_le]; omega
  refine ⟨pages, by simp only [unmapUnusedHeap, if_neg shrinking]; exact loop, fun p => ?_⟩
  simp only [members, UInt32.le_iff_toNat_le, first, last]
  omega

theorem alignedHeapEndsMisplaceUnmap :
    (∀ start prevSize newSize : UInt32, newSize < prevSize → start.toNat + prevSize.toNat < userKernelBarrier.toNat →
      ∃ pages, unmapUnusedHeap start prevSize newSize = some pages ∧
        ((start + newSize) &&& 0xfff = 0 → start + newSize ∉ pages) ∧
        ((start + prevSize) &&& 0xfff = 0 → start + prevSize ∈ pages)) ∧
      unmapUnusedHeap 0x400000 0x2000 0 = some [0x401000, 0x402000] := by
  refine ⟨fun start prevSize newSize shrinks below => ?_, by decide⟩
  obtain ⟨pages, unmapped, members⟩ := unmapUnusedHeapPages start prevSize newSize shrinks below
  have barrier : userKernelBarrier.toNat = 0xc0000000 := rfl
  rw [UInt32.lt_iff_toNat_lt] at shrinks
  have newEnd := @toNatAddBelow start newSize (by omega)
  have prevEnd := @toNatAddBelow start prevSize (by omega)
  refine ⟨pages, unmapped, fun aligned => ?_, fun aligned => ?_⟩
  · rw [← UInt32.toNat_inj, pageOffsetToNat, UInt32.toNat_zero, newEnd] at aligned
    simp only [members, newEnd, not_and]
    omega
  · rw [← UInt32.toNat_inj, pageOffsetToNat, UInt32.toNat_zero, prevEnd] at aligned
    simp only [members, prevEnd]
    omega

end ImmDosNx.Regions
