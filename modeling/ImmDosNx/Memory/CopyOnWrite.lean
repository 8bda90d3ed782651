import Mathlib.Data.List.Nodup
import ImmDosNx.Lib.Run
import ImmDosNx.Memory.Physical.FrameRefcount

/-! Copy-on-write sharing of frames between processes. The page tables of all
processes are kept as the list of their present user entries, each with the
frame and the flag bits that `fork_page_directory(true)`
(`task/switching.rs`), the copy-on-write branch of the page fault handler
(`interrupts/exceptions.rs`), `unmap_page` / `unmap_task` and
`unmap_terminated_task` (`task/paging.rs`) read or write. The frame bitmap is
the set of allocated frames; which clear frame the allocator hands out is the
environment's choice, part of the action. `page_on_demand` maps fresh frames,
the way user memory comes to exist. The invariant `Consistent` ties the
refcount to the entries: a frame mapped only by reclaimable entries is counted
exactly once per entry, any other mapped frame at least once per entry. -/
namespace ImmDosNx.CopyOnWrite
open Refcount

structure Entry where
  frame : Nat
  writable : Bool
  cow : Bool
  reclaim : Bool
  deriving DecidableEq, Repr

structure Mapping where
  pid : Nat
  page : Nat
  entry : Entry
  deriving DecidableEq, Repr

def Mapping.key (m : Mapping) : Nat × Nat := (m.pid, m.page)

def Mapping.isAt (m : Mapping) (pid page : Nat) : Bool := m.pid == pid && m.page == page

structure System where
  mappings : List Mapping
  refcount : FrameRefcount
  allocated : Nat → Bool

def framesOf (ms : List Mapping) (frame : Nat) : Nat := ms.countP (·.entry.frame == frame)

def mappedCount (s : System) (frame : Nat) : Nat := framesOf s.mappings frame

def OnlyReclaimable (s : System) (frame : Nat) : Prop :=
  ∀ m ∈ s.mappings, m.entry.frame = frame → m.entry.reclaim = true

def lookup (s : System) (pid page : Nat) : Option Mapping := s.mappings.find? (·.isAt pid page)

def updateAt (ms : List Mapping) (pid page : Nat) (f : Entry → Entry) : List Mapping :=
  ms.map fun m => if m.isAt pid page then { m with entry := f m.entry } else m

def removeAt (ms : List Mapping) (pid page : Nat) : List Mapping := ms.filter fun m => !m.isAt pid page

/-! ## The operations -/

/-- Models `free_frame`: one reference is released; a frame with none left is cleared in the bitmap. -/
def freeFrame (acc : FrameRefcount × (Nat → Bool)) (frame : Nat) : FrameRefcount × (Nat → Bool) :=
  let (rc, remainingRefs) := releaseFrameAtAddress acc.1 frame
  if remainingRefs < 1 then (rc, Function.update acc.2 frame false) else (rc, acc.2)

def cowEntry (e : Entry) : Entry := if e.writable then { e with writable := false, cow := true } else e

def forkMappings (parent : Nat) (rc : FrameRefcount) : List Mapping → FrameRefcount × List Mapping
  | [] => (rc, [])
  | m :: rest =>
    if m.pid = parent then
      let rc := (referenceFrameAtAddress rc m.entry.frame).1
      let (rc, rest) := forkMappings parent rc rest
      (rc, { m with entry := cowEntry m.entry } :: rest)
    else
      let (rc, rest) := forkMappings parent rc rest
      (rc, m :: rest)

def forkPageDirectory (s : System) (parent child : Nat) : System :=
  let (rc, mappings) := forkMappings parent s.refcount s.mappings
  let copies := (mappings.filter (·.pid == parent)).map fun m => { m with pid := child }
  ⟨mappings ++ copies, rc, s.allocated⟩

def cowFault (s : System) (pid page newFrame : Nat) : Option System := do
  let m ← lookup s pid page
  if !m.entry.cow then none
  let (rc, newCount) := releaseFrameAtAddress s.refcount m.entry.frame
  if newCount == 0 then
    some ⟨updateAt s.mappings pid page fun e => { e with cow := false, writable := true }, rc, s.allocated⟩
  else if s.allocated newFrame then none
  else
    some ⟨updateAt s.mappings pid page fun e => { e with frame := newFrame, cow := false, writable := true },
      rc, Function.update s.allocated newFrame true⟩

/-- Models `unmap_page`, and each page of `unmap_task`: a present entry is zeroed and its frame freed. -/
def unmapPage (s : System) (pid page : Nat) : System :=
  match lookup s pid page with
  | none => s
  | some m =>
    let (rc, allocated) := freeFrame (s.refcount, s.allocated) m.entry.frame
    ⟨removeAt s.mappings pid page, rc, allocated⟩

/-- Models `unmap_terminated_task`: the frame of every present reclaimable entry is freed, and the tables go with
the process. -/
def unmapTerminatedTask (s : System) (pid : Nat) : System :=
  let reclaimed := (s.mappings.filter fun m => m.pid == pid && m.entry.reclaim).map (·.entry.frame)
  let (rc, allocated) := reclaimed.foldl freeFrame (s.refcount, s.allocated)
  ⟨s.mappings.filter (·.pid != pid), rc, allocated⟩

/-- Here `page_on_demand` for the heap, the stack or an execution segment: a fresh frame is mapped at a page that
is not present. -/
def pageOnDemand (s : System) (pid page frame : Nat) (writable : Bool) : Option System :=
  if s.allocated frame then none
  else if (lookup s pid page).isSome then none
  else some ⟨s.mappings ++ [⟨pid, page, ⟨frame, writable, false, true⟩⟩], s.refcount,
    Function.update s.allocated frame true⟩

inductive Action where
  | fork (parent child : Nat)
  | cowFault (pid page newFrame : Nat)
  | unmap (pid page : Nat)
  | exit (pid : Nat)
  | pageIn (pid page frame : Nat) (writable : Bool)
  deriving DecidableEq, Repr

def step (s : System) : Action → Option System
  | .fork parent child => if s.mappings.any (·.pid == child) then none else some (forkPageDirectory s parent child)
  | .cowFault pid page newFrame => cowFault s pid page newFrame
  | .unmap pid page => some (unmapPage s pid page)
  | .exit pid => some (unmapTerminatedTask s pid)
  | .pageIn pid page frame writable => pageOnDemand s pid page frame writable

def initial : System := ⟨[], new, fun _ => false⟩

/-! ## Entries by key -/

theorem isAtIff (m : Mapping) (pid page : Nat) : m.isAt pid page = true ↔ m.key = (pid, page) := by
  simp [Mapping.isAt, Mapping.key]

theorem splitAtKey {ms : List Mapping} {pid page : Nat} {m : Mapping}
    (keys : (ms.map Mapping.key).Nodup) (found : ms.find? (·.isAt pid page) = some m) :
    ∃ pre post, ms = pre ++ m :: post ∧ (∀ x ∈ pre, x.isAt pid page = false) ∧
      ∀ x ∈ post, x.isAt pid page = false := by
  obtain ⟨here, pre, post, split, before⟩ := List.find?_eq_some_iff_append.mp found
  refine ⟨pre, post, split, fun x hx => by simpa using before x hx, fun x hx => ?_⟩
  subst split
  have fresh : m.key ∉ post.map Mapping.key := by
    simp only [List.map_append, List.map_cons] at keys
    exact (List.nodup_cons.mp (List.nodup_append.mp keys).2.1).1
  by_contra hit
  have same : x.key = m.key := by rw [(isAtIff x pid page).mp (by simpa using hit), (isAtIff m pid page).mp here]
  exact fresh (List.mem_map.mpr ⟨x, hx, same⟩)

theorem updateAtSplit {pre post : List Mapping} {pid page : Nat} (m : Mapping) (f : Entry → Entry)
    (before : ∀ x ∈ pre, x.isAt pid page = false) (after : ∀ x ∈ post, x.isAt pid page = false)
    (here : m.isAt pid page = true) :
    updateAt (pre ++ m :: post) pid page f = pre ++ { m with entry := f m.entry } :: post := by
  have keep : ∀ l : List Mapping, (∀ x ∈ l, x.isAt pid page = false) →
      l.map (fun n => if n.isAt pid page then { n with entry := f n.entry } else n) = l := by
    intro l untouched
    exact (List.map_congr_left fun x hx => by simp [untouched x hx]).trans (List.map_id l)
  rw [updateAt, List.map_append, List.map_cons, keep pre before, keep post after, if_pos here]

theorem removeAtSplit {pre post : List Mapping} {pid page : Nat} (m : Mapping)
    (before : ∀ x ∈ pre, x.isAt pid page = false) (after : ∀ x ∈ post, x.isAt pid page = false)
    (here : m.isAt pid page = true) :
    removeAt (pre ++ m :: post) pid page = pre ++ post := by
  have keep : ∀ l : List Mapping, (∀ x ∈ l, x.isAt pid page = false) → l.filter (fun n => !n.isAt pid page) = l :=
    fun l untouched => List.filter_eq_self.mpr fun x hx => by simp [untouched x hx]
  rw [removeAt, List.filter_append, List.filter_cons_of_neg (by simp [here]), keep pre before, keep post after]

@[simp] theorem framesOfAppend (xs ys : List Mapping) (f : Nat) :
    framesOf (xs ++ ys) f = framesOf xs f + framesOf ys f := by
  simp [framesOf]

@[simp] theorem framesOfCons (m : Mapping) (ms : List Mapping) (f : Nat) :
    framesOf (m :: ms) f = framesOf ms f + if m.entry.frame = f then 1 else 0 := by
  simp [framesOf, List.countP_cons]

@[simp] theorem framesOfNil (f : Nat) : framesOf [] f = 0 := rfl

theorem framesOfEqCountP (ms : List Mapping) (q : Mapping → Bool) (f : Nat) :
    framesOf ms f = framesOf (ms.filter q) f + framesOf (ms.filter fun m => !q m) f := by
  rw [framesOf, ← (List.filter_append_perm q ms).countP_eq, List.countP_append]
  rfl

theorem framesOfEqCount (ms : List Mapping) (f : Nat) : framesOf ms f = (ms.map (·.entry.frame)).count f := by
  simp only [framesOf, List.count, List.countP_map]
  rfl

/-! ## Reference counts through the operations -/

/-- References taken one after the other, as the loop of `fork_page_directory` does. -/
def referenceFrames (rc : FrameRefcount) (frames : List Nat) : FrameRefcount :=
  frames.foldl (fun rc f => (referenceFrameAtAddress rc f).1) rc

theorem referenceFramesCons (rc : FrameRefcount) (f : Nat) (frames : List Nat) :
    referenceFrames rc (f :: frames) = referenceFrames (referenceFrameAtAddress rc f).1 frames := rfl

theorem storedReferenceFrames {rc : FrameRefcount} (valid : Stored rc) (frames : List Nat) :
    Stored (referenceFrames rc frames) := by
  induction frames generalizing rc with
  | nil => exact valid
  | cons f rest ih => exact ih (storedReference valid f)

theorem countReferenceFrames {rc : FrameRefcount} (valid : Stored rc) (frames : List Nat) (other : Nat) :
    getCountForAddress (referenceFrames rc frames) other = getCountForAddress rc other + frames.count other := by
  induction frames generalizing rc with
  | nil => rfl
  | cons f rest ih =>
    rw [referenceFramesCons, ih (storedReference valid f), countAfterReference valid, List.count_cons]
    by_cases same : other = f
    · subst same; simp; omega
    · simp [same, Ne.symm same]

def cowMapping (parent : Nat) (m : Mapping) : Mapping :=
  if m.pid = parent then { m with entry := cowEntry m.entry } else m

@[simp] theorem cowMappingPid (parent : Nat) (m : Mapping) : (cowMapping parent m).pid = m.pid := by
  unfold cowMapping; split <;> rfl

theorem cowMappingKey (parent : Nat) (m : Mapping) : (cowMapping parent m).key = m.key := by
  unfold cowMapping; split <;> rfl

@[simp] theorem cowMappingFrame (parent : Nat) (m : Mapping) :
    (cowMapping parent m).entry.frame = m.entry.frame := by
  unfold cowMapping cowEntry; split <;> (try split) <;> rfl

@[simp] theorem cowMappingReclaim (parent : Nat) (m : Mapping) :
    (cowMapping parent m).entry.reclaim = m.entry.reclaim := by
  unfold cowMapping cowEntry; split <;> (try split) <;> rfl

theorem forkMappingsEq (parent : Nat) (rc : FrameRefcount) (ms : List Mapping) :
    forkMappings parent rc ms =
      (referenceFrames rc ((ms.filter (·.pid == parent)).map (·.entry.frame)), ms.map (cowMapping parent)) := by
  induction ms generalizing rc with
  | nil => rfl
  | cons m rest ih =>
    by_cases own : m.pid = parent
    · simp [forkMappings, own, ih, referenceFramesCons, cowMapping]
    · simp [forkMappings, own, ih, cowMapping]

theorem freeFrameEq (acc : FrameRefcount × (Nat → Bool)) (frame : Nat) :
    freeFrame acc frame = ((releaseFrameAtAddress acc.1 frame).1,
      if getCountForAddress acc.1 frame ≤ 1 then Function.update acc.2 frame false else acc.2) := by
  have remaining := releaseResult acc.1 frame
  unfold freeFrame
  cases h : releaseFrameAtAddress acc.1 frame with
  | mk rc k =>
    rw [h] at remaining
    by_cases last : getCountForAddress acc.1 frame ≤ 1
    · simp only [last, if_true]; simp only at remaining; rw [if_pos (by omega)]
    · simp only [last, if_false]; simp only at remaining; rw [if_neg (by omega)]

theorem storedFreeFrame {acc : FrameRefcount × (Nat → Bool)} (valid : Stored acc.1) (frame : Nat) :
    Stored (freeFrame acc frame).1 := by
  rw [freeFrameEq]
  exact storedRelease valid frame

theorem countFreeFrame {acc : FrameRefcount × (Nat → Bool)} (valid : Stored acc.1) (frame other : Nat) :
    getCountForAddress (freeFrame acc frame).1 other =
      if other = frame then max (getCountForAddress acc.1 frame - 1) 1 else getCountForAddress acc.1 other := by
  rw [freeFrameEq]
  exact countAfterRelease valid frame other

theorem allocatedFreeFrame (acc : FrameRefcount × (Nat → Bool)) (frame other : Nat) :
    (freeFrame acc frame).2 other =
      if other = frame ∧ getCountForAddress acc.1 frame ≤ 1 then false else acc.2 other := by
  rw [freeFrameEq]
  by_cases same : other = frame
  · subst same; by_cases last : getCountForAddress acc.1 other ≤ 1 <;> simp [last]
  · by_cases last : getCountForAddress acc.1 frame ≤ 1 <;> simp [last, same]

theorem storedFreeFrames {acc : FrameRefcount × (Nat → Bool)} (valid : Stored acc.1) (frames : List Nat) :
    Stored (frames.foldl freeFrame acc).1 := by
  induction frames generalizing acc with
  | nil => exact valid
  | cons f rest ih => exact ih (storedFreeFrame valid f)

theorem countFreeFrames {acc : FrameRefcount × (Nat → Bool)} (valid : Stored acc.1) (frames : List Nat)
    (other : Nat) :
    getCountForAddress (frames.foldl freeFrame acc).1 other =
      max (getCountForAddress acc.1 other - frames.count other) 1 := by
  induction frames generalizing acc with
  | nil => have := countPos valid other; simp; omega
  | cons f rest ih =>
    rw [List.foldl_cons, ih (storedFreeFrame valid f), countFreeFrame valid, List.count_cons]
    by_cases same : other = f
    · subst same; simp; omega
    · simp [same, Ne.symm same]

theorem allocatedFreeFrames {acc : FrameRefcount × (Nat → Bool)} (valid : Stored acc.1) (frames : List Nat)
    (other : Nat) :
    (frames.foldl freeFrame acc).2 other =
      if getCountForAddress acc.1 other ≤ frames.count other then false else acc.2 other := by
  induction frames generalizing acc with
  | nil => have := countPos valid other; simp; omega
  | cons f rest ih =>
    rw [List.foldl_cons, ih (storedFreeFrame valid f), countFreeFrame valid, allocatedFreeFrame, List.count_cons]
    by_cases same : other = f
    · subst same
      have := countPos valid other
      simp only [beq_self_eq_true, if_true, true_and]
      by_cases last : getCountForAddress acc.1 other ≤ 1
      · have gone : getCountForAddress acc.1 other ≤ rest.count other + 1 := by omega
        rw [if_pos last, ite_self, if_pos gone]
      · rw [if_neg last]
        by_cases gone : getCountForAddress acc.1 other ≤ rest.count other + 1
        · rw [if_pos gone, if_pos (show max (getCountForAddress acc.1 other - 1) 1 ≤ rest.count other by omega)]
        · rw [if_neg gone, if_neg (show ¬max (getCountForAddress acc.1 other - 1) 1 ≤ rest.count other by omega)]
    · simp [same, Ne.symm same]

/-! ## The invariant -/

structure Consistent (s : System) : Prop where
  keys : (s.mappings.map Mapping.key).Nodup
  stored : Stored s.refcount
  counted : ∀ f, getCountForAddress s.refcount f = max (mappedCount s f) 1
  allocated : ∀ f, 1 ≤ mappedCount s f → s.allocated f = true
  reclaimable : ∀ m ∈ s.mappings, m.entry.reclaim = true

theorem consistentInitial : Consistent initial where
  keys := List.nodup_nil
  stored := storedNew
  counted _ := rfl
  allocated f mapped := absurd mapped (by simp [mappedCount, initial])
  reclaimable _ mem := absurd mem (List.not_mem_nil)

theorem framesOfMap (g : Mapping → Mapping) (keep : ∀ m, (g m).entry.frame = m.entry.frame)
    (ms : List Mapping) (f : Nat) : framesOf (ms.map g) f = framesOf ms f := by
  simp only [framesOf, List.countP_map]
  exact List.countP_congr fun m _ => by simp [keep]

theorem keysMap (g : Mapping → Mapping) (keep : ∀ m, (g m).key = m.key) (ms : List Mapping) :
    (ms.map g).map Mapping.key = ms.map Mapping.key := by
  rw [List.map_map]
  exact List.map_congr_left fun m _ => keep m

theorem keysFilter {ms : List Mapping} (keys : (ms.map Mapping.key).Nodup) (q : Mapping → Bool) :
    ((ms.filter q).map Mapping.key).Nodup :=
  keys.sublist (List.filter_sublist.map _)

theorem framesOfPos {ms : List Mapping} {m : Mapping} (mem : m ∈ ms) : 1 ≤ framesOf ms m.entry.frame :=
  List.countP_pos_iff.mpr ⟨m, mem, by simp⟩

theorem lookupSome {s : System} {pid page : Nat} {m : Mapping} (found : lookup s pid page = some m) :
    m ∈ s.mappings ∧ m.isAt pid page = true := by
  unfold lookup at found
  have here := List.find?_some found
  exact ⟨List.mem_of_find?_eq_some found, here⟩

theorem keyFreshOfLookup {s : System} {pid page : Nat} (absent : lookup s pid page = none) :
    (pid, page) ∉ s.mappings.map Mapping.key := by
  intro mem
  obtain ⟨m, hm, key⟩ := List.mem_map.mp mem
  exact List.find?_eq_none.mp absent m hm ((isAtIff m pid page).mpr key)

section Operations
variable {s t : System}

theorem unmappedOfFree (c : Consistent s) {f : Nat} (free : s.allocated f = false) : mappedCount s f = 0 := by
  by_contra mapped
  rw [c.allocated f (by omega)] at free
  cases free

theorem countMapped (c : Consistent s) {f : Nat} (mapped : 1 ≤ mappedCount s f) :
    getCountForAddress s.refcount f = mappedCount s f := by
  rw [c.counted f]
  omega

theorem pageOnDemandEq {pid page frame : Nat} {writable : Bool}
    (ok : pageOnDemand s pid page frame writable = some t) :
    s.allocated frame = false ∧ lookup s pid page = none ∧
      t = ⟨s.mappings ++ [⟨pid, page, ⟨frame, writable, false, true⟩⟩], s.refcount,
        Function.update s.allocated frame true⟩ := by
  unfold pageOnDemand at ok
  cases free : s.allocated frame with
  | true => simp [free] at ok
  | false =>
    cases absent : lookup s pid page with
    | some m => simp [free, absent] at ok
    | none => simp only [free, absent] at ok; exact ⟨rfl, rfl, (Option.some.inj ok).symm⟩

theorem consistentPageIn (c : Consistent s) {pid page frame : Nat} {writable : Bool}
    (ok : pageOnDemand s pid page frame writable = some t) : Consistent t := by
  obtain ⟨free, absent, rfl⟩ := pageOnDemandEq ok
  have unmapped := unmappedOfFree c free
  refine ⟨?_, c.stored, fun f => ?_, fun f mapped => ?_, fun m mem => ?_⟩
  · simp only [List.map_append, List.map_cons, List.map_nil]
    exact List.nodup_append.mpr ⟨c.keys, List.nodup_singleton _,
      fun a ha b hb => by
        simp at hb; subst hb
        exact fun same => keyFreshOfLookup absent (by rw [same] at ha; exact ha)⟩
  · simp only [mappedCount, framesOfAppend, framesOfCons, framesOfNil, Nat.zero_add]
    by_cases same : frame = f
    · subst same
      have zero : framesOf s.mappings frame = 0 := unmapped
      rw [if_pos rfl, c.counted, unmapped, zero]
      rfl
    · rw [if_neg same, Nat.add_zero]; exact c.counted f
  · simp only [mappedCount, framesOfAppend, framesOfCons, framesOfNil] at mapped
    by_cases same : f = frame
    · subst same; simp
    · dsimp only
      rw [Function.update_of_ne same]
      exact c.allocated f (by simp only [mappedCount]; split at mapped <;> omega)
  · rcases List.mem_append.mp mem with old | new
    · exact c.reclaimable m old
    · simp at new; subst new; rfl

theorem mappedPageIn {pid page frame f : Nat} {writable : Bool}
    (ok : pageOnDemand s pid page frame writable = some t) (mapped : 1 ≤ mappedCount s f) :
    1 ≤ mappedCount t f := by
  obtain ⟨-, -, rfl⟩ := pageOnDemandEq ok
  simp only [mappedCount, framesOfAppend] at mapped ⊢
  omega

theorem framesOfRemoveAt (c : Consistent s) {pid page : Nat} {m : Mapping} (found : lookup s pid page = some m)
    (f : Nat) :
    framesOf (removeAt s.mappings pid page) f + (if m.entry.frame = f then 1 else 0) = mappedCount s f := by
  obtain ⟨pre, post, split, before, after⟩ := splitAtKey c.keys found
  rw [mappedCount, split, removeAtSplit m before after (lookupSome found).2]
  simp only [framesOfAppend, framesOfCons]
  omega

theorem unmapPageEq {pid page : Nat} {m : Mapping} (found : lookup s pid page = some m) :
    unmapPage s pid page = ⟨removeAt s.mappings pid page, (freeFrame (s.refcount, s.allocated) m.entry.frame).1,
      (freeFrame (s.refcount, s.allocated) m.entry.frame).2⟩ := by
  unfold unmapPage
  rw [found]

theorem consistentUnmap (c : Consistent s) (pid page : Nat) : Consistent (unmapPage s pid page) := by
  cases found : lookup s pid page with
  | none => unfold unmapPage; rw [found]; exact c
  | some m =>
    rw [unmapPageEq found]
    have count := framesOfRemoveAt c found
    have mapped := framesOfPos (lookupSome found).1
    refine ⟨keysFilter c.keys _, storedFreeFrame c.stored _, fun f => ?_, fun f left => ?_,
      fun n mem => c.reclaimable n (List.mem_filter.mp mem).1⟩
    · have := count f
      rw [countFreeFrame c.stored, c.counted, c.counted]
      simp only [mappedCount] at this ⊢
      split <;> rename_i same
      · subst same; simp only [if_true] at this; omega
      · rw [if_neg (Ne.symm same)] at this; omega
    · have := count f
      have left : 1 ≤ framesOf (removeAt s.mappings pid page) f := left
      dsimp only
      rw [allocatedFreeFrame, if_neg]
      · exact c.allocated f (by omega)
      · rintro ⟨same, last⟩
        subst same
        rw [if_pos rfl] at this
        rw [c.counted] at last
        omega

theorem clearedUnmap (c : Consistent s) {pid page f : Nat} (mapped : 1 ≤ mappedCount s f)
    (gone : mappedCount (unmapPage s pid page) f = 0) : (unmapPage s pid page).allocated f = false := by
  cases found : lookup s pid page with
  | none => simp only [unmapPage, found] at gone; omega
  | some m =>
    rw [unmapPageEq found] at gone ⊢
    have count := framesOfRemoveAt c found f
    have gone : framesOf (removeAt s.mappings pid page) f = 0 := gone
    have same : m.entry.frame = f := by
      by_contra other
      rw [if_neg other] at count
      omega
    rw [if_pos same] at count
    dsimp only
    rw [allocatedFreeFrame, if_pos]
    refine ⟨same.symm, ?_⟩
    rw [c.counted, same]
    omega

def reclaimedFrames (s : System) (pid : Nat) : List Nat :=
  (s.mappings.filter fun m => m.pid == pid && m.entry.reclaim).map (·.entry.frame)

theorem unmapTerminatedTaskEq (pid : Nat) :
    unmapTerminatedTask s pid = ⟨s.mappings.filter (·.pid != pid),
      ((reclaimedFrames s pid).foldl freeFrame (s.refcount, s.allocated)).1,
      ((reclaimedFrames s pid).foldl freeFrame (s.refcount, s.allocated)).2⟩ := rfl

theorem framesOfExit (c : Consistent s) (pid f : Nat) :
    (reclaimedFrames s pid).count f + framesOf (s.mappings.filter (·.pid != pid)) f = mappedCount s f := by
  have reclaimedEq : reclaimedFrames s pid = (s.mappings.filter (·.pid == pid)).map (·.entry.frame) := by
    unfold reclaimedFrames
    rw [List.filter_congr fun m mem => by rw [c.reclaimable m mem, Bool.and_true]]
  rw [reclaimedEq, ← framesOfEqCount, mappedCount, framesOfEqCountP s.mappings (·.pid == pid)]
  rfl

theorem consistentExit (c : Consistent s) (pid : Nat) : Consistent (unmapTerminatedTask s pid) := by
  rw [unmapTerminatedTaskEq]
  refine ⟨keysFilter c.keys _, storedFreeFrames c.stored _, fun f => ?_, fun f left => ?_,
    fun n mem => c.reclaimable n (List.mem_filter.mp mem).1⟩
  · have := framesOfExit c pid f
    show _ = max (framesOf (s.mappings.filter (·.pid != pid)) f) 1
    rw [countFreeFrames c.stored, c.counted]
    omega
  · have := framesOfExit c pid f
    have left : 1 ≤ framesOf (s.mappings.filter (·.pid != pid)) f := left
    dsimp only
    rw [allocatedFreeFrames c.stored, c.counted, if_neg (by omega)]
    exact c.allocated f (by omega)

theorem clearedExit (c : Consistent s) {pid f : Nat} (mapped : 1 ≤ mappedCount s f)
    (gone : mappedCount (unmapTerminatedTask s pid) f = 0) : (unmapTerminatedTask s pid).allocated f = false := by
  rw [unmapTerminatedTaskEq] at gone ⊢
  have := framesOfExit c pid f
  have gone : framesOf (s.mappings.filter (·.pid != pid)) f = 0 := gone
  dsimp only
  rw [allocatedFreeFrames c.stored, c.counted, if_pos (by omega)]

theorem framesOfUpdateAt (c : Consistent s) {pid page : Nat} {m : Mapping} (found : lookup s pid page = some m)
    (h : Entry → Entry) (f : Nat) :
    framesOf (updateAt s.mappings pid page h) f + (if m.entry.frame = f then 1 else 0) =
      mappedCount s f + if (h m.entry).frame = f then 1 else 0 := by
  obtain ⟨pre, post, split, before, after⟩ := splitAtKey c.keys found
  rw [mappedCount, split, updateAtSplit m h before after (lookupSome found).2]
  simp only [framesOfAppend, framesOfCons]
  omega

theorem keysUpdateAt (ms : List Mapping) (pid page : Nat) (h : Entry → Entry) :
    (updateAt ms pid page h).map Mapping.key = ms.map Mapping.key :=
  keysMap _ (fun n => by unfold Mapping.key; split <;> rfl) ms

theorem reclaimableUpdateAt (c : Consistent s) {pid page : Nat} (h : Entry → Entry)
    (keep : ∀ e, (h e).reclaim = e.reclaim) : ∀ n ∈ updateAt s.mappings pid page h, n.entry.reclaim = true := by
  intro n mem
  obtain ⟨old, oldMem, rfl⟩ := List.mem_map.mp mem
  split
  · exact (keep old.entry).trans (c.reclaimable old oldMem)
  · exact c.reclaimable old oldMem

theorem lookupUpdateAt (s : System) (pid page : Nat) (h : Entry → Entry) (rc : FrameRefcount)
    (allocated : Nat → Bool) :
    lookup ⟨updateAt s.mappings pid page h, rc, allocated⟩ pid page =
      (lookup s pid page).map fun m => { m with entry := h m.entry } := by
  unfold lookup updateAt
  have sameKey : ((fun n : Mapping => n.isAt pid page) ∘
      fun n : Mapping => if n.isAt pid page then { n with entry := h n.entry } else n) =
      fun n : Mapping => n.isAt pid page := by
    funext n
    simp only [Function.comp]
    split <;> rfl
  dsimp only
  rw [List.find?_map, sameKey]
  cases hit : s.mappings.find? (·.isAt pid page) with
  | none => rfl
  | some n => simp [List.find?_some hit]

theorem cowFaultEq {pid page newFrame : Nat} (ok : cowFault s pid page newFrame = some t) :
    ∃ m, lookup s pid page = some m ∧ m.entry.cow = true ∧
      ((getCountForAddress s.refcount m.entry.frame ≤ 1 ∧
          t = ⟨updateAt s.mappings pid page fun e => { e with cow := false, writable := true },
            (releaseFrameAtAddress s.refcount m.entry.frame).1, s.allocated⟩) ∨
        (1 < getCountForAddress s.refcount m.entry.frame ∧ s.allocated newFrame = false ∧
          t = ⟨updateAt s.mappings pid page fun e => { e with frame := newFrame, cow := false, writable := true },
            (releaseFrameAtAddress s.refcount m.entry.frame).1, Function.update s.allocated newFrame true⟩)) := by
  cases found : lookup s pid page with
  | none => simp [cowFault, found] at ok
  | some m =>
    cases cow : m.entry.cow with
    | false => simp [cowFault, found, cow] at ok
    | true =>
      have remaining := releaseResult s.refcount m.entry.frame
      simp only [cowFault, found, cow, Option.bind_eq_bind, Option.bind_some, Bool.not_true, Bool.false_eq_true,
        if_false, remaining] at ok
      refine ⟨m, rfl, cow, ?_⟩
      by_cases last : getCountForAddress s.refcount m.entry.frame ≤ 1
      · rw [if_pos (by simp; omega)] at ok
        exact Or.inl ⟨last, (Option.some.inj ok).symm⟩
      · rw [if_neg (by simp; omega)] at ok
        cases free : s.allocated newFrame with
        | true => simp [free] at ok
        | false =>
          simp only [free, Bool.false_eq_true, if_false] at ok
          exact Or.inr ⟨by omega, rfl, (Option.some.inj ok).symm⟩

theorem cowFaultSome {pid page newFrame : Nat} {m : Mapping} (found : lookup s pid page = some m)
    (cow : m.entry.cow = true) (free : s.allocated newFrame = false) : ∃ t, cowFault s pid page newFrame = some t := by
  simp only [cowFault, found, cow, Option.bind_eq_bind, Option.bind_some, Bool.not_true, Bool.false_eq_true, if_false,
    free]
  split
  · exact ⟨_, rfl⟩
  · exact ⟨_, rfl⟩

theorem consistentCowFault (c : Consistent s) {pid page newFrame : Nat}
    (ok : cowFault s pid page newFrame = some t) : Consistent t := by
  obtain ⟨m, found, -, outcome⟩ := cowFaultEq ok
  have moved := framesOfUpdateAt c found
  have mapped : 1 ≤ mappedCount s m.entry.frame := framesOfPos (lookupSome found).1
  have countOld := countMapped c mapped
  rcases outcome with ⟨last, rfl⟩ | ⟨shared, free, rfl⟩
  · refine ⟨by rw [keysUpdateAt]; exact c.keys, storedRelease c.stored _, fun f => ?_, fun f left => ?_,
      reclaimableUpdateAt c (fun e => { e with cow := false, writable := true }) fun _ => rfl⟩
    · have := moved (fun e => { e with cow := false, writable := true }) f
      dsimp only at this
      simp only [mappedCount]
      rw [countAfterRelease c.stored, c.counted]
      by_cases same : f = m.entry.frame
      · subst same
        rw [if_pos rfl]
        rw [if_pos rfl] at this
        omega
      · rw [if_neg same, c.counted]
        omega
    · have := moved (fun e => { e with cow := false, writable := true }) f
      dsimp only at this
      simp only [mappedCount] at left
      exact c.allocated f (by omega)
  · have unmapped := unmappedOfFree c free
    have fresh : m.entry.frame ≠ newFrame := fun same => by rw [← same] at unmapped; omega
    refine ⟨by rw [keysUpdateAt]; exact c.keys, storedRelease c.stored _, fun f => ?_, fun f left => ?_,
      reclaimableUpdateAt c (fun e => { e with frame := newFrame, cow := false, writable := true }) fun _ => rfl⟩
    · have := moved (fun e => { e with frame := newFrame, cow := false, writable := true }) f
      dsimp only at this
      simp only [mappedCount]
      rw [countAfterRelease c.stored]
      by_cases same : f = m.entry.frame
      · subst same
        rw [if_pos rfl, c.counted]
        rw [if_pos rfl, if_neg (Ne.symm fresh)] at this
        omega
      · rw [if_neg same, c.counted]
        rw [if_neg (Ne.symm same)] at this
        by_cases target : f = newFrame
        · subst target
          rw [if_pos rfl] at this
          omega
        · rw [if_neg (Ne.symm target)] at this
          omega
    · have := moved (fun e => { e with frame := newFrame, cow := false, writable := true }) f
      dsimp only at this
      simp only [mappedCount] at left
      dsimp only
      by_cases target : f = newFrame
      · subst target; simp
      · rw [Function.update_of_ne target]
        rw [if_neg (Ne.symm target)] at this
        exact c.allocated f (by omega)

theorem mappedCowFault (c : Consistent s) {pid page newFrame f : Nat}
    (ok : cowFault s pid page newFrame = some t) (mapped : 1 ≤ mappedCount s f) : 1 ≤ mappedCount t f := by
  obtain ⟨m, found, -, outcome⟩ := cowFaultEq ok
  have moved := framesOfUpdateAt c found
  have countOld := countMapped c (framesOfPos (lookupSome found).1 : 1 ≤ mappedCount s m.entry.frame)
  rcases outcome with ⟨-, rfl⟩ | ⟨shared, -, rfl⟩
  · have := moved (fun e => { e with cow := false, writable := true }) f
    dsimp only at this
    simp only [mappedCount]
    omega
  · have := moved (fun e => { e with frame := newFrame, cow := false, writable := true }) f
    dsimp only at this
    simp only [mappedCount]
    by_cases same : m.entry.frame = f
    · subst same
      rw [if_pos rfl] at this
      omega
    · rw [if_neg same] at this
      omega

theorem cowFaultResolved (c : Consistent s) {pid page newFrame : Nat}
    (ok : cowFault s pid page newFrame = some t) :
    ∃ m, lookup t pid page = some m ∧ m.entry.writable = true ∧ m.entry.cow = false ∧
      mappedCount t m.entry.frame = 1 := by
  obtain ⟨m, found, -, outcome⟩ := cowFaultEq ok
  have moved := framesOfUpdateAt c found
  have mapped : 1 ≤ mappedCount s m.entry.frame := framesOfPos (lookupSome found).1
  have countOld := countMapped c mapped
  rcases outcome with ⟨last, rfl⟩ | ⟨-, free, rfl⟩
  · refine ⟨_, by rw [lookupUpdateAt, found]; rfl, rfl, rfl, ?_⟩
    have := moved (fun e => { e with cow := false, writable := true }) m.entry.frame
    dsimp only at this
    simp only [mappedCount]
    rw [if_pos rfl] at this
    omega
  · refine ⟨_, by rw [lookupUpdateAt, found]; rfl, rfl, rfl, ?_⟩
    have unmapped := unmappedOfFree c free
    have fresh : m.entry.frame ≠ newFrame := fun same => by rw [← same] at unmapped; omega
    have := moved (fun e => { e with frame := newFrame, cow := false, writable := true }) newFrame
    dsimp only at this
    simp only [mappedCount]
    rw [if_pos rfl, if_neg fresh] at this
    omega

def forkedFrames (s : System) (parent : Nat) : List Nat :=
  (s.mappings.filter (·.pid == parent)).map (·.entry.frame)

theorem forkPageDirectoryEq (parent child : Nat) :
    forkPageDirectory s parent child =
      ⟨s.mappings.map (cowMapping parent) ++
          ((s.mappings.filter (·.pid == parent)).map (cowMapping parent)).map fun m => { m with pid := child },
        referenceFrames s.refcount (forkedFrames s parent), s.allocated⟩ := by
  have samePid : (fun m : Mapping => m.pid == parent) ∘ cowMapping parent = fun m => m.pid == parent := by
    funext m
    simp
  unfold forkPageDirectory
  rw [forkMappingsEq]
  dsimp only
  rw [List.filter_map, samePid]
  rfl

theorem framesOfFork (parent child f : Nat) :
    mappedCount (forkPageDirectory s parent child) f = mappedCount s f + (forkedFrames s parent).count f := by
  rw [forkPageDirectoryEq, forkedFrames, ← framesOfEqCount]
  simp only [mappedCount, framesOfAppend]
  rw [framesOfMap (fun m => { m with pid := child }) (fun _ => rfl),
    framesOfMap _ (fun _ => cowMappingFrame parent _), framesOfMap _ (fun _ => cowMappingFrame parent _)]

theorem forkedFramesLe (s : System) (parent f : Nat) : (forkedFrames s parent).count f ≤ mappedCount s f := by
  rw [forkedFrames, ← framesOfEqCount, mappedCount, framesOfEqCountP s.mappings (·.pid == parent)]
  omega

theorem keysFork (c : Consistent s) {parent child : Nat} (noChild : s.mappings.any (·.pid == child) = false) :
    ((forkPageDirectory s parent child).mappings.map Mapping.key).Nodup := by
  rw [forkPageDirectoryEq]
  have parentKeys := keysFilter c.keys (·.pid == parent)
  have childKeys : (((s.mappings.filter (·.pid == parent)).map (cowMapping parent)).map
      fun m => ({ m with pid := child } : Mapping)).map Mapping.key =
      (s.mappings.filter (·.pid == parent)).map fun m => (child, m.page) := by
    simp only [List.map_map]
    exact List.map_congr_left fun m _ => by simp [Mapping.key, cowMapping]; split <;> rfl
  simp only [List.map_append]
  rw [keysMap _ (cowMappingKey parent), childKeys]
  refine List.nodup_append.mpr ⟨c.keys, ?_, ?_⟩
  · refine (List.Nodup.of_map _ parentKeys).map_on fun x hx y hy same => ?_
    apply List.inj_on_of_nodup_map parentKeys hx hy
    have px := (List.mem_filter.mp hx).2
    have py := (List.mem_filter.mp hy).2
    simp only [beq_iff_eq] at px py
    simp only [Prod.mk.injEq, true_and] at same
    simp [Mapping.key, px, py, same]
  · intro a ha b hb same
    obtain ⟨m, hm, rfl⟩ := List.mem_map.mp ha
    obtain ⟨n, -, rfl⟩ := List.mem_map.mp hb
    have notChild := List.any_eq_false.mp noChild m hm
    simp only [Mapping.key, Prod.mk.injEq] at same
    simp [same.1] at notChild

theorem consistentFork (c : Consistent s) {parent child : Nat} (noChild : s.mappings.any (·.pid == child) = false) :
    Consistent (forkPageDirectory s parent child) := by
  refine ⟨keysFork c noChild, ?_, fun f => ?_, fun f left => ?_, fun m mem => ?_⟩
  · rw [forkPageDirectoryEq]
    exact storedReferenceFrames c.stored _
  · have le := forkedFramesLe s parent f
    rw [framesOfFork, forkPageDirectoryEq, countReferenceFrames c.stored, c.counted]
    omega
  · have le := forkedFramesLe s parent f
    rw [framesOfFork] at left
    rw [forkPageDirectoryEq]
    exact c.allocated f (by omega)
  · rw [forkPageDirectoryEq] at mem
    rcases List.mem_append.mp mem with kept | copied
    · obtain ⟨old, oldMem, rfl⟩ := List.mem_map.mp kept
      rw [cowMappingReclaim]
      exact c.reclaimable old oldMem
    · obtain ⟨copy, copyMem, rfl⟩ := List.mem_map.mp copied
      obtain ⟨old, oldMem, rfl⟩ := List.mem_map.mp copyMem
      rw [cowMappingReclaim] at *
      exact c.reclaimable old (List.mem_filter.mp oldMem).1

/-! ## Runs -/

theorem stepConsistent (c : Consistent s) (a : Action) (ok : step s a = some t) : Consistent t := by
  cases a with
  | fork parent child =>
    cases noChild : s.mappings.any (·.pid == child) with
    | true => simp [step, noChild] at ok
    | false =>
      simp only [step, noChild, Bool.false_eq_true, if_false, Option.some.injEq] at ok
      exact ok ▸ consistentFork c noChild
  | cowFault pid page newFrame => exact consistentCowFault c ok
  | unmap pid page => exact (Option.some.inj ok) ▸ consistentUnmap c pid page
  | exit pid => exact (Option.some.inj ok) ▸ consistentExit c pid
  | pageIn pid page frame writable => exact consistentPageIn c ok

theorem reachableConsistent (reached : Machine.Reachable step initial s) : Consistent s :=
  reached.invariant consistentInitial fun _ a _ c ok => stepConsistent c a ok

theorem stepClears (c : Consistent s) (a : Action) (ok : step s a = some t) {f : Nat}
    (mapped : 1 ≤ mappedCount s f) : t.allocated f = false ↔ mappedCount t f = 0 := by
  have next := stepConsistent c a ok
  constructor
  · intro cleared
    by_contra left
    rw [next.allocated f (by omega)] at cleared
    cases cleared
  · intro gone
    cases a with
    | fork parent child =>
      cases noChild : s.mappings.any (·.pid == child) with
      | true => simp [step, noChild] at ok
      | false =>
        simp only [step, noChild, Bool.false_eq_true, if_false, Option.some.injEq] at ok
        subst ok
        rw [framesOfFork] at gone
        omega
    | cowFault pid page newFrame => have := mappedCowFault c ok mapped; omega
    | unmap pid page =>
      cases Option.some.inj ok
      exact clearedUnmap c mapped gone
    | exit pid =>
      cases Option.some.inj ok
      exact clearedExit c mapped gone
    | pageIn pid page frame writable => have := mappedPageIn ok mapped; omega

end Operations

theorem refcountAgreesWithTables {s : System} (reached : Machine.Reachable step initial s) :
    (∀ f, 1 ≤ mappedCount s f →
      OnlyReclaimable s f ∧ getCountForAddress s.refcount f = mappedCount s f ∧ s.allocated f = true) ∧
    (∀ a t f, step s a = some t → 1 ≤ mappedCount s f → (t.allocated f = false ↔ mappedCount t f = 0)) ∧
    (∀ pid page newFrame m, lookup s pid page = some m → m.entry.cow = true → s.allocated newFrame = false →
      ∃ t, step s (.cowFault pid page newFrame) = some t) ∧
    (∀ pid page newFrame t, step s (.cowFault pid page newFrame) = some t →
      ∃ m, lookup t pid page = some m ∧ m.entry.writable = true ∧ m.entry.cow = false ∧
        mappedCount t m.entry.frame = 1) := by
  have c := reachableConsistent reached
  refine ⟨fun f mapped => ⟨fun m mem _ => c.reclaimable m mem, countMapped c mapped, c.allocated f mapped⟩,
    fun a t f ok mapped => stepClears c a ok mapped, fun pid page newFrame m found cow free => cowFaultSome found cow free,
    fun pid page newFrame t ok => cowFaultResolved c ok⟩

theorem refcountAgreesAfterFork :
    let forked := forkPageDirectory ⟨[⟨1, 0, ⟨5, true, false, true⟩⟩], new, Function.update (fun _ => false) 5 true⟩ 1 2
    Machine.Reachable step initial forked ∧
    (lookup forked 1 0).map (·.entry.cow) = some true ∧ forked.allocated 6 = false ∧
    (∀ f, 1 ≤ mappedCount forked f →
      OnlyReclaimable forked f ∧ getCountForAddress forked.refcount f = mappedCount forked f ∧
        forked.allocated f = true) ∧
    (∀ a t f, step forked a = some t → 1 ≤ mappedCount forked f →
      (t.allocated f = false ↔ mappedCount t f = 0)) ∧
    (∀ pid page newFrame m, lookup forked pid page = some m → m.entry.cow = true → forked.allocated newFrame = false →
      ∃ t, step forked (.cowFault pid page newFrame) = some t) ∧
    (∀ pid page newFrame t, step forked (.cowFault pid page newFrame) = some t →
      ∃ m, lookup t pid page = some m ∧ m.entry.writable = true ∧ m.entry.cow = false ∧
        mappedCount t m.entry.frame = 1) := by
  intro forked
  have reached : Machine.Reachable step initial forked :=
    .step (.fork 1 2) (.step (.pageIn 1 0 5 true) .init rfl) rfl
  exact ⟨reached, by decide, by decide, refcountAgreesWithTables reached⟩

end ImmDosNx.CopyOnWrite
