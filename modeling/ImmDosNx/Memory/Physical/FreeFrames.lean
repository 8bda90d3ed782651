import ImmDosNx.Memory.Physical.Init

/-! First fit and the free count of the frame bitmap (`find_free_range`,
`allocate_frames`, `get_free_frame_count`), stated over the bits themselves. A
free run is a stretch of clear frames inside the bitmap, and the scan returns the
lowest one. The count reads whole bytes, so it is right only while the padding
bits of the last byte stay set; that holds of every bitmap the allocator builds
with `reset` and changes afterwards. -/
namespace ImmDosNx.Physical
open ByteBitmap

namespace FrameBitmap

def FreeRun (b : FrameBitmap) (n s : Nat) : Prop :=
  s + n ≤ b.frameCount ∧ ∀ k < n, testBit b.map (s + k) = false

instance (b : FrameBitmap) (n s : Nat) : Decidable (b.FreeRun n s) :=
  inferInstanceAs (Decidable (_ ∧ _))

def FirstFit (b : FrameBitmap) (n s : Nat) : Prop := b.FreeRun n s ∧ ∀ t < s, ¬ b.FreeRun n t

/-- The counter is decremented before it is tested, so a request for 0 frames wraps and looks for 2 ^ 32 of them. -/
def searchLength (n : UInt32) : Nat := if n = 0 then 2 ^ 32 else n.toNat

/-- FrameRange::new(search_start << 12, (frame + 1 - search_start) << 12) -/
def runRange (s n : Nat) : FrameRange := ⟨(s <<< 12).toUInt32, (n <<< 12).toUInt32⟩

theorem searchLengthPos (n : UInt32) : 0 < searchLength n := by
  unfold searchLength
  split
  · omega
  · next nonzero =>
    have : n.toNat ≠ 0 := fun h => nonzero (UInt32.toNat_inj.mp h)
    omega

theorem searchLengthMod (n : UInt32) : searchLength n % 2 ^ 32 = n.toNat := by
  have := UInt32.toNat_lt n
  unfold searchLength
  split
  · next zero => rw [zero]; rfl
  · omega

theorem searchLengthOfLt {n : UInt32} (small : searchLength n < 2 ^ 32) : searchLength n = n.toNat := by
  rw [← searchLengthMod n, Nat.mod_eq_of_lt small]

theorem firstFitUnique {b : FrameBitmap} {n s t : Nat} (fs : b.FirstFit n s) (ft : b.FirstFit n t) : s = t := by
  rcases Nat.lt_trichotomy s t with lt | same | gt
  · exact absurd fs.1 (ft.2 s lt)
  · exact same
  · exact absurd ft.1 (fs.2 t gt)

/-! ### The scan of `find_free_range` -/

/-- What holds each time the scan reaches `frame`: the frames since `search_start` are clear and fewer than asked
for, and no run starts before `search_start`. -/
structure Scanning (b : FrameBitmap) (n : UInt32) (frame : Nat) (remaining : UInt32) (searchStart : Nat) :
    Prop where
  started : searchStart ≤ frame
  short : frame - searchStart < searchLength n
  counter : remaining.toNat = (searchLength n - (frame - searchStart)) % 2 ^ 32
  clear : ∀ k, searchStart ≤ k → k < frame → testBit b.map k = false
  noneBefore : ∀ t < searchStart, ¬ b.FreeRun (searchLength n) t

section Scan

variable {b : FrameBitmap} {n : UInt32} {frame searchStart : Nat} {remaining : UInt32}

theorem scanningStart (b : FrameBitmap) (n : UInt32) : Scanning b n 0 n 0 where
  started := Nat.le_refl 0
  short := searchLengthPos n
  counter := (searchLengthMod n).symm
  clear := fun _ low high => absurd (Nat.lt_of_le_of_lt low high) (Nat.lt_irrefl 0)
  noneBefore := fun _ lt => absurd lt (Nat.not_lt_zero _)

theorem noRunPast (scan : Scanning b n frame remaining searchStart) (past : b.frameCount ≤ frame) (t : Nat) :
    ¬ b.FreeRun (searchLength n) t := by
  intro run
  by_cases early : t < searchStart
  · exact scan.noneBefore t early run
  · have fits := run.1
    have short := scan.short
    omega

theorem scanningOccupied (scan : Scanning b n frame remaining searchStart) (set : testBit b.map frame = true) :
    Scanning b n (frame + 1) n (frame + 1) where
  started := Nat.le_refl _
  short := by rw [Nat.sub_self]; exact searchLengthPos n
  counter := by rw [Nat.sub_self, Nat.sub_zero, searchLengthMod]
  clear := fun _ low high => absurd high (by omega)
  noneBefore := fun t before run => by
    by_cases early : t < searchStart
    · exact scan.noneBefore t early run
    · have short := scan.short
      have covered := run.2 (frame - t) (by omega)
      rw [show t + (frame - t) = frame by omega, set] at covered
      exact Bool.noConfusion covered

theorem counterStep {used length : Nat} (counter : remaining.toNat = (length - used) % 2 ^ 32)
    (short : used < length) : (remaining - 1).toNat = (length - (used + 1)) % 2 ^ 32 := by
  rw [UInt32.toNat_sub, counter, UInt32.toNat_one]
  omega

theorem scanningFree (scan : Scanning b n frame remaining searchStart) (free : testBit b.map frame = false)
    (more : remaining - 1 ≠ 0) : Scanning b n (frame + 1) (remaining - 1) searchStart := by
  have started := scan.started
  have counted : (remaining - 1).toNat = (searchLength n - (frame + 1 - searchStart)) % 2 ^ 32 := by
    rw [counterStep scan.counter scan.short, Nat.sub_add_comm started]
  have nonzero : (remaining - 1).toNat ≠ 0 := fun h => more (UInt32.toNat_inj.mp h)
  have short := scan.short
  refine ⟨by omega, ?_, counted, fun k low high => ?_, scan.noneBefore⟩
  · rw [counted] at nonzero
    have := searchLengthPos n
    by_contra full
    exact nonzero (by rw [Nat.sub_eq_zero_of_le (by omega), Nat.zero_mod])
  · rcases Nat.lt_succ_iff_lt_or_eq.mp high with before | rfl
    · exact scan.clear k low before
    · exact free

theorem scanningFound (scan : Scanning b n frame remaining searchStart) (inside : frame < b.frameCount)
    (free : testBit b.map frame = false) (done : remaining - 1 = 0) :
    b.FirstFit (searchLength n) searchStart ∧ frame + 1 - searchStart = searchLength n := by
  have started := scan.started
  have short := scan.short
  have emptied := counterStep scan.counter short
  rw [done, UInt32.toNat_zero] at emptied
  have bounded : searchLength n ≤ 2 ^ 32 := by
    have := UInt32.toNat_lt n
    unfold searchLength
    split <;> omega
  have length : frame + 1 - searchStart = searchLength n := by omega
  have run : b.FreeRun (searchLength n) searchStart := by
    refine ⟨by omega, fun k lt => ?_⟩
    by_cases last : searchStart + k = frame
    · rw [last]
      exact free
    · exact scan.clear _ (Nat.le_add_right _ _) (by omega)
  exact ⟨⟨run, scan.noneBefore⟩, length⟩

end Scan

theorem findFreeRangeFromSpec (b : FrameBitmap) (n : UInt32) (fuel : Nat) : ∀ frame remaining searchStart,
    Scanning b n frame remaining searchStart → b.frameCount ≤ frame + fuel →
      (∃ s, b.FirstFit (searchLength n) s ∧
        b.findFreeRangeFrom n fuel frame remaining searchStart = some (runRange s (searchLength n))) ∨
      ((∀ s, ¬ b.FreeRun (searchLength n) s) ∧ b.findFreeRangeFrom n fuel frame remaining searchStart = none) := by
  induction fuel with
  | zero => exact fun frame remaining searchStart scan enough => .inr ⟨noRunPast scan enough, rfl⟩
  | succ fuel ih =>
    intro frame remaining searchStart scan enough
    by_cases inside : frame < b.frameCount
    · cases bit : testBit b.map frame with
      | true =>
        have step : b.findFreeRangeFrom n (fuel + 1) frame remaining searchStart =
            b.findFreeRangeFrom n fuel (frame + 1) n (frame + 1) := by
          simp [findFreeRangeFrom, inside, bit]
        rw [step]
        exact ih _ _ _ (scanningOccupied scan bit) (by omega)
      | false =>
        by_cases done : remaining - 1 = 0
        · obtain ⟨fit, length⟩ := scanningFound scan inside bit done
          refine .inl ⟨searchStart, fit, ?_⟩
          simp [findFreeRangeFrom, inside, bit, done, runRange, length]
        · have step : b.findFreeRangeFrom n (fuel + 1) frame remaining searchStart =
              b.findFreeRangeFrom n fuel (frame + 1) (remaining - 1) searchStart := by
            simp [findFreeRangeFrom, inside, bit, done]
          rw [step]
          exact ih _ _ _ (scanningFree scan bit done) (by omega)
    · refine .inr ⟨noRunPast scan (by omega), ?_⟩
      simp [findFreeRangeFrom, inside]

theorem findFreeRangeCases (b : FrameBitmap) (n : UInt32) :
    (∃ s, b.FirstFit (searchLength n) s ∧ b.findFreeRange n = some (runRange s (searchLength n))) ∨
      ((∀ s, ¬ b.FreeRun (searchLength n) s) ∧ b.findFreeRange n = none) :=
  findFreeRangeFromSpec b n b.frameCount 0 n 0 (scanningStart b n) (by omega)

section Found

variable {b : FrameBitmap} {n : UInt32}

theorem findFreeRangeSome {r : FrameRange} :
    b.findFreeRange n = some r ↔ ∃ s, b.FirstFit (searchLength n) s ∧ r = runRange s (searchLength n) := by
  rcases findFreeRangeCases b n with ⟨s, fit, found⟩ | ⟨noRun, missing⟩
  · rw [found, Option.some.injEq]
    constructor
    · rintro rfl
      exact ⟨s, fit, rfl⟩
    · rintro ⟨t, fit', rfl⟩
      rw [firstFitUnique fit fit']
  · rw [missing]
    exact iff_of_false nofun fun ⟨s, fit, _⟩ => noRun s fit.1

end Found

/-! ### The range found, as frames -/

section Decode

variable {s n : Nat}

theorem firstFrameRunRange (pos : 0 < n) (fits : s + n ≤ 2 ^ 20) : (runRange s n).getFirstFrameIndex = s := by
  simp [runRange, FrameRange.getFirstFrameIndex, UInt32.toNat_shiftRight, Nat.shiftLeft_eq,
    Nat.shiftRight_eq_div_pow]
  omega

theorem lastFrameRunRange (pos : 0 < n) (fits : s + n ≤ 2 ^ 20) :
    (runRange s n).getLastFrameIndex = s + n - 1 := by
  simp [runRange, FrameRange.getLastFrameIndex, UInt32.toNat_shiftRight, UInt32.toNat_sub, UInt32.toNat_add,
    Nat.shiftLeft_eq, Nat.shiftRight_eq_div_pow]
  omega

theorem framesRunRange (pos : 0 < n) (fits : s + n ≤ 2 ^ 20) : frames (runRange s n) = List.range' s n := by
  rw [frames, firstFrameRunRange pos fits, lastFrameRunRange pos fits]
  congr 1
  omega

end Decode

/-! ### allocate_frames -/

section Allocate

variable {b b' : FrameBitmap} {n : UInt32} {r : FrameRange}

theorem allocateFramesEq : b.allocateFrames n = .ok (b', r) ↔
    b.findFreeRange n = some r ∧ b.allocateRange r = .ok b' := by
  unfold allocateFrames
  cases found : b.findFreeRange n with
  | none => exact iff_of_false nofun fun ⟨h, _⟩ => nomatch h
  | some range =>
    cases allocated : b.allocateRange range with
    | error e =>
      simp only [Except.map, allocated, Option.some.injEq]
      exact iff_of_false nofun fun ⟨same, ok⟩ => by rw [← same, allocated] at ok; nomatch ok
    | ok b1 =>
      simp only [Except.map, allocated, Option.some.injEq, Except.ok.injEq, Prod.mk.injEq]
      constructor
      · rintro ⟨rfl, rfl⟩
        exact ⟨rfl, allocated⟩
      · rintro ⟨rfl, ok⟩
        rw [allocated, Except.ok.injEq] at ok
        exact ⟨ok, rfl⟩

variable (addressable : b.frameCount ≤ 2 ^ 20)
include addressable

theorem allocateFramesSpec (sized : b.map.length = byteSize b.frameCount) (ok : b.allocateFrames n = .ok (b', r)) :
    ∃ s, b.FirstFit (searchLength n) s ∧ r = runRange s (searchLength n) ∧
      frames r = List.range' s (searchLength n) ∧ b'.frameCount = b.frameCount ∧ b'.map.length = b.map.length ∧
      ∀ k, testBit b'.map k = true ↔ testBit b.map k = true ∨ k ∈ List.range' s (searchLength n) := by
  obtain ⟨found, allocated⟩ := allocateFramesEq.mp ok
  obtain ⟨s, fit, rfl⟩ := findFreeRangeSome.mp found
  have decoded := framesRunRange (searchLengthPos n) (Nat.le_trans fit.1.1 addressable)
  obtain ⟨count, length, bits⟩ := allocateRangeSpec allocated sized
  exact ⟨s, fit, rfl, decoded, count, length, fun k => decoded ▸ bits k⟩

end Allocate

def freeBelow (map : List UInt8) (f : Nat) : Nat := (List.range f).countP fun k => !testBit map k

structure Padded (b : FrameBitmap) : Prop where
  sized : b.map.length = byteSize b.frameCount
  padding : ∀ k, b.frameCount ≤ k → k < 8 * b.map.length → testBit b.map k = true

theorem freeBelowSucc (map : List UInt8) (f : Nat) :
    freeBelow map (f + 1) = freeBelow map f + if testBit map f then 0 else 1 := by
  simp [freeBelow, List.range_succ, List.countP_append]
  split <;> simp_all

theorem freeBelowByte {map : List UInt8} {f : Nat} {v : UInt8} (aligned : f % 8 = 0)
    (stored : map[f / 8]? = some v) :
    freeBelow map (f + 8) = freeBelow map f + ((List.range 8).filter fun j => !byteBit v j).length := by
  simp only [freeBelow, List.range_add, List.countP_append, List.countP_map, ← List.countP_eq_length_filter]
  congr 1
  apply List.countP_congr
  intro j mem
  have small := List.mem_range.mp mem
  have inByte : (f + j) / 8 = f / 8 := by omega
  have offset : (f + j) % 8 = j := by omega
  simp [testBit, inByte, offset, stored]

theorem freeBelowPast {b : FrameBitmap} (pad : Padded b) (d : Nat) (stop : b.frameCount + d ≤ 8 * b.map.length) :
    freeBelow b.map (b.frameCount + d) = freeBelow b.map b.frameCount := by
  induction d with
  | zero => rfl
  | succ d ih =>
    rw [← Nat.add_assoc, freeBelowSucc, pad.padding _ (Nat.le_add_right _ _) (by omega), if_pos rfl, Nat.add_zero]
    exact ih (by omega)

theorem freeBelowPadding {b : FrameBitmap} (pad : Padded b) {f : Nat} (past : b.frameCount ≤ f)
    (stop : f ≤ 8 * b.map.length) : freeBelow b.map f = freeBelow b.map b.frameCount := by
  obtain ⟨d, rfl⟩ := Nat.exists_eq_add_of_le past
  exact freeBelowPast pad d stop

theorem freeFrameCountFromSpec {b : FrameBitmap} (pad : Padded b) (fuel : Nat) : ∀ frame,
    b.frameCount < frame + fuel → frame ≤ 8 * b.map.length → (frame % 8 = 0 ∨ b.map[frame / 8]? = some 0xff) →
      b.freeFrameCountFrom fuel frame (freeBelow b.map frame) = freeBelow b.map b.frameCount := by
  have cover : b.frameCount ≤ 8 * b.map.length := by rw [pad.sized, byteSizeEq]; omega
  induction fuel with
  | zero => exact fun frame past stop _ => freeBelowPadding pad (by omega) stop
  | succ fuel ih =>
    intro frame enough stop aligned
    by_cases inside : frame < b.frameCount
    · have stored : frame / 8 < b.map.length := pad.sized ▸ byteIndexLt inside
      have read : b.map.getD (frame >>> 3) 0 = b.map[frame / 8] := by
        rw [Nat.shiftRight_eq_div_pow, List.getD_eq_getElem?_getD, List.getElem?_eq_getElem stored]
        rfl
      by_cases full : b.map[frame / 8] = 0xff
      · have set : testBit b.map frame = true := by
          simp only [testBit, List.getElem?_eq_getElem stored, full]
          exact byteBitFull ⟨frame % 8, Nat.mod_lt _ (by omega)⟩
        have step : b.freeFrameCountFrom (fuel + 1) frame (freeBelow b.map frame) =
            b.freeFrameCountFrom fuel (frame + 1) (freeBelow b.map (frame + 1)) := by
          rw [freeBelowSucc, set, if_pos rfl, Nat.add_zero, freeFrameCountFrom, if_pos inside]
          simp only [read, full, bne_self_eq_false, Bool.false_eq_true, if_false, Nat.add_zero]
        rw [step]
        refine ih _ (by omega) (by omega) ?_
        by_cases boundary : (frame + 1) % 8 = 0
        · exact .inl boundary
        · right
          rw [show (frame + 1) / 8 = frame / 8 by omega, List.getElem?_eq_getElem stored, full]
      · have start : frame % 8 = 0 :=
          aligned.resolve_right fun same => full (by rw [List.getElem?_eq_getElem stored] at same; simpa using same)
        have step : b.freeFrameCountFrom (fuel + 1) frame (freeBelow b.map frame) =
            b.freeFrameCountFrom fuel (frame + 8) (freeBelow b.map (frame + 8)) := by
          rw [freeBelowByte start (List.getElem?_eq_getElem stored), freeFrameCountFrom, if_pos inside]
          simp only [read, if_pos (bne_iff_ne.mpr full)]
        rw [step]
        exact ih _ (by omega) (by omega) (.inl (by omega))
    · have stopped : b.freeFrameCountFrom (fuel + 1) frame (freeBelow b.map frame) = freeBelow b.map frame := by
        simp [freeFrameCountFrom, inside]
      rw [stopped]
      exact freeBelowPadding pad (by omega) stop

theorem getFreeFrameCountEq {b : FrameBitmap} (pad : Padded b) : b.getFreeFrameCount = freeBelow b.map b.frameCount :=
  freeFrameCountFromSpec pad (b.frameCount + 1) 0 (by omega) (Nat.zero_le _) (.inl rfl)

/-! ### How the operations change the count -/

theorem countRangeMem (f s n : Nat) :
    (List.range f).countP (fun k => decide (k ∈ List.range' s n)) = min f (s + n) - s := by
  induction f with
  | zero => simp
  | succ f ih =>
    rw [List.range_succ, List.countP_append, ih]
    by_cases mem : f ∈ List.range' s n
    · have := List.mem_range'_1.mp mem
      rw [List.countP_singleton, if_pos (decide_eq_true mem)]
      omega
    · have := mt List.mem_range'_1.mpr mem
      rw [List.countP_singleton, if_neg (by simpa using mem)]
      omega

theorem freeBelowSetBits {m m' : List UInt8} (p : Nat → Bool) (bits : ∀ k, testBit m' k = (testBit m k || p k))
    (wasClear : ∀ k, p k = true → testBit m k = false) (f : Nat) :
    freeBelow m' f + (List.range f).countP p = freeBelow m f := by
  induction f with
  | zero => rfl
  | succ f ih =>
    rw [freeBelowSucc, freeBelowSucc, List.range_succ, List.countP_append, ← ih, bits]
    cases chosen : p f
    · simp [chosen]
      omega
    · simp [chosen, wasClear f chosen]
      omega

theorem paddedReset (memory : Nat → UInt8) (start frameCount : Nat) :
    Padded (atLocation memory start frameCount).reset := by
  refine ⟨by rw [lengthReset, lengthAtLocation]; rfl, fun k past below => testBitResetOfByte _ ?_ ?_⟩
  · simp only [lengthReset, lengthAtLocation, byteSizeEq] at below
    show k / 8 * 8 < frameCount
    omega
  · simp only [lengthReset] at below ⊢
    omega

section Steps

variable {b b' : FrameBitmap}

theorem paddedAllocateRange {range : FrameRange} (pad : Padded b) (ok : b.allocateRange range = .ok b') :
    Padded b' := by
  obtain ⟨count, length, bits⟩ := allocateRangeSpec ok pad.sized
  refine ⟨by rw [length, count, pad.sized], fun k past below => (bits k).mpr (.inl ?_)⟩
  exact pad.padding k (count ▸ past) (length ▸ below)

theorem paddedFreeRange {range : FrameRange} (pad : Padded b) (ok : b.freeRange range = .ok b') : Padded b' := by
  obtain ⟨count, length, bits, inside⟩ := freeRangeSpec ok
  refine ⟨by rw [length, count, pad.sized], fun k past below => (bits k).mpr ⟨?_, fun mem => ?_⟩⟩
  · exact pad.padding k (count ▸ past) (length ▸ below)
  · have := inside k mem
    omega

theorem paddedAllocateFrames {n : UInt32} {r : FrameRange} (pad : Padded b) (ok : b.allocateFrames n = .ok (b', r)) :
    Padded b' :=
  paddedAllocateRange pad (allocateFramesEq.mp ok).2

theorem allocateFramesCount {n : UInt32} {r : FrameRange} (pad : Padded b) (addressable : b.frameCount < 2 ^ 20)
    (ok : b.allocateFrames n = .ok (b', r)) : b'.getFreeFrameCount + n.toNat = b.getFreeFrameCount := by
  obtain ⟨s, fit, -, -, count, -, bits⟩ := allocateFramesSpec (Nat.le_of_lt addressable) pad.sized ok
  have fits := fit.1.1
  have length : searchLength n = n.toNat := searchLengthOfLt (by omega)
  have counted := freeBelowSetBits (fun k => decide (k ∈ List.range' s (searchLength n)))
    (fun k => Bool.eq_iff_iff.mpr (by simpa using bits k))
    (fun k mem => by
      have within := List.mem_range'_1.mp (of_decide_eq_true mem)
      have clear := fit.1.2 (k - s) (by omega)
      rwa [Nat.add_sub_cancel' within.1] at clear) b.frameCount
  rw [getFreeFrameCountEq (paddedAllocateFrames pad ok), getFreeFrameCountEq pad, count, ← length, ← counted,
    countRangeMem]
  omega

theorem freeRangeCount {range : FrameRange} (pad : Padded b) (ok : b.freeRange range = .ok b')
    (allocated : ∀ k ∈ frames range, testBit b.map k = true) :
    b'.getFreeFrameCount = b.getFreeFrameCount + (frames range).length := by
  obtain ⟨count, -, bits, -⟩ := freeRangeSpec ok
  have last := (freeRangeEq.mp ok).1
  have restored : ∀ k, testBit b.map k = (testBit b'.map k || decide (k ∈ frames range)) := by
    intro k
    by_cases mem : k ∈ frames range
    · simp [mem, allocated k mem]
    · simp only [mem, decide_false, Bool.or_false]
      exact Bool.eq_iff_iff.mpr (by simpa [mem] using (bits k).symm)
  have counted := freeBelowSetBits (fun k => decide (k ∈ frames range)) restored
    (fun k mem => Bool.eq_false_iff.mpr fun set => ((bits k).mp set).2 (of_decide_eq_true mem)) b.frameCount
  have covered : (List.range b.frameCount).countP (fun k => decide (k ∈ frames range)) = (frames range).length := by
    unfold frames
    rw [countRangeMem, List.length_range']
    omega
  rw [getFreeFrameCountEq (paddedFreeRange pad ok), getFreeFrameCountEq pad, count, ← counted, covered]

end Steps

/-! ### Every bitmap the allocator holds -/

/-- Here `init_allocator` places the bitmap with `at_location(limit >> 12)` for a 32-bit limit and resets it;
afterwards only the three operations change it. -/
inductive Reachable : FrameBitmap → Prop
  | reset (memory : Nat → UInt8) (start : Nat) (limit : UInt32) :
      Reachable (atLocation memory start (limit >>> 12).toNat).reset
  | allocateRange {b b' : FrameBitmap} (range : FrameRange) :
      Reachable b → b.allocateRange range = .ok b' → Reachable b'
  | freeRange {b b' : FrameBitmap} (range : FrameRange) :
      Reachable b → b.freeRange range = .ok b' → Reachable b'
  | allocateFrames {b b' : FrameBitmap} (n : UInt32) (range : FrameRange) :
      Reachable b → b.allocateFrames n = .ok (b', range) → Reachable b'

theorem reachableInvariant {b : FrameBitmap} (reached : b.Reachable) : Padded b ∧ b.frameCount < 2 ^ 20 := by
  induction reached with
  | reset memory start limit =>
    refine ⟨paddedReset memory start _, ?_⟩
    have := UInt32.toNat_lt limit
    simp [atLocation, reset, UInt32.toNat_shiftRight, Nat.shiftRight_eq_div_pow]
    omega
  | allocateRange range _ ok ih =>
    exact ⟨paddedAllocateRange ih.1 ok, (allocateRangeEq.mp ok).2 ▸ ih.2⟩
  | freeRange range _ ok ih =>
    exact ⟨paddedFreeRange ih.1 ok, (freeRangeEq.mp ok).2 ▸ ih.2⟩
  | allocateFrames n range _ ok ih =>
    exact ⟨paddedAllocateFrames ih.1 ok, (allocateRangeEq.mp (allocateFramesEq.mp ok).2).2 ▸ ih.2⟩

theorem reachableFreeEntries {b b' : FrameBitmap} {map : List MapEntry} (reached : b.Reachable)
    (ok : freeEntries b map = .ok b') : b'.Reachable := by
  induction map generalizing b with
  | nil =>
    simp only [freeEntries, Except.ok.injEq] at ok
    exact ok ▸ reached
  | cons entry rest ih =>
    by_cases free : entry.regionType = regionTypeFree
    · simp only [freeEntries, free, beq_self_eq_true, if_true, Except.bindEqOk] at ok
      obtain ⟨b1, freed, restOk⟩ := ok
      exact ih (.freeRange _ reached freed) restOk
    · simp only [freeEntries, beq_iff_eq, free, if_false] at ok
      exact ih reached ok

theorem reachableInitAllocator {memory : Nat → UInt8} {location : UInt32} {map : List MapEntry} {b : FrameBitmap}
    (done : initAllocator memory location map = some b) : b.Reachable := by
  obtain ⟨-, b1, b2, init, own, zero⟩ := initAllocatorEq.mp done
  exact .allocateRange _ (.allocateRange _ (reachableFreeEntries (.reset _ _ _) init) own) zero

theorem freeFrameCountMatchesBitmap {b : FrameBitmap} (reached : b.Reachable) :
    (∀ k, b.frameCount ≤ k → k < 8 * b.map.length → testBit b.map k = true) ∧
    b.getFreeFrameCount = freeBelow b.map b.frameCount ∧
    (∀ n b' r, b.allocateFrames n = .ok (b', r) → b'.getFreeFrameCount + n.toNat = b.getFreeFrameCount) ∧
    ∀ range b', b.freeRange range = .ok b' → (∀ k ∈ frames range, testBit b.map k = true) →
      b'.getFreeFrameCount = b.getFreeFrameCount + (frames range).length := by
  obtain ⟨pad, addressable⟩ := reachableInvariant reached
  exact ⟨pad.padding, getFreeFrameCountEq pad, fun n b' r ok => allocateFramesCount pad addressable ok,
    fun range b' ok allocated => freeRangeCount pad ok allocated⟩

theorem freeFrameCountAfterReset :
    (atLocation (fun _ => 0) 0 ((0x3c000 : UInt32) >>> 12).toNat).reset.getFreeFrameCount = 0 :=
  (freeFrameCountMatchesBitmap (.reset (fun _ => 0) 0 0x3c000)).2.1.trans (by decide)

end FrameBitmap

end ImmDosNx.Physical
