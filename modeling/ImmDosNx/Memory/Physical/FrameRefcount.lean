import Mathlib.Logic.Function.Basic

/-! The reference counts of shared frames (`memory/physical/frame_refcount.rs`).
The `BTreeMap` is a partial map from a frame's physical address to its count;
only `get`, `insert` and `remove` are used, so a function to `Option Nat` has
its meaning. A frame that is absent counts once. The calls keep every stored
count at 2 or more, and under that invariant each call moves the count of its
own frame by one and no other count. Counts are `usize`; they are bounded by the
number of page-table entries, far below `2 ^ 32`, so they are plain numbers. -/
namespace ImmDosNx.Refcount

structure FrameRefcount where
  references : Nat → Option Nat

def new : FrameRefcount := ⟨fun _ => none⟩

def insert (rc : FrameRefcount) (addr count : Nat) : FrameRefcount :=
  ⟨Function.update rc.references addr (some count)⟩

def remove (rc : FrameRefcount) (addr : Nat) : FrameRefcount :=
  ⟨Function.update rc.references addr none⟩

/-- Models `reference_frame_at_address`: the stored count goes up by one; an absent frame is stored with 2. -/
def referenceFrameAtAddress (rc : FrameRefcount) (addr : Nat) : FrameRefcount × Nat :=
  let (rc, prev) := match rc.references addr with
    | some entry => (insert rc addr (entry + 1), entry)
    | none => (rc, 0)
  if prev == 0 then (insert rc addr 2, 2) else (rc, prev)

/-- Models `release_frame_at_address`: the stored count goes down by one and is removed below 2; the new count is
returned, 0 for an absent frame. -/
def releaseFrameAtAddress (rc : FrameRefcount) (addr : Nat) : FrameRefcount × Nat :=
  let (rc, remainder) := match rc.references addr with
    | some entry => if entry == 0 then (rc, 0) else (insert rc addr (entry - 1), entry - 1)
    | none => (rc, 0)
  if remainder < 2 then (remove rc addr, remainder) else (rc, remainder)

def getCountForAddress (rc : FrameRefcount) (addr : Nat) : Nat := (rc.references addr).getD 1

def Stored (rc : FrameRefcount) : Prop := ∀ addr count, rc.references addr = some count → 2 ≤ count

theorem storedNew : Stored new := by
  intro addr count h
  simp [new] at h

@[simp] theorem referencesInsert (rc : FrameRefcount) (addr count other : Nat) :
    (insert rc addr count).references other = if other = addr then some count else rc.references other := by
  simp [insert, Function.update_apply]

@[simp] theorem referencesRemove (rc : FrameRefcount) (addr other : Nat) :
    (remove rc addr).references other = if other = addr then none else rc.references other := by
  simp [remove, Function.update_apply]

theorem referenceFrameEq (rc : FrameRefcount) (addr : Nat) :
    referenceFrameAtAddress rc addr =
      match rc.references addr with
      | some 0 => (insert rc addr 2, 2)
      | some entry => (insert rc addr (entry + 1), entry)
      | none => (insert rc addr 2, 2) := by
  unfold referenceFrameAtAddress
  cases h : rc.references addr with
  | none => simp
  | some entry =>
    cases entry with
    | zero => simp [insert, Function.update_idem]
    | succ n => simp

theorem releaseFrameEq (rc : FrameRefcount) (addr : Nat) :
    releaseFrameAtAddress rc addr =
      match rc.references addr with
      | some entry => if entry - 1 < 2 then (remove rc addr, entry - 1) else (insert rc addr (entry - 1), entry - 1)
      | none => (remove rc addr, 0) := by
  unfold releaseFrameAtAddress
  cases h : rc.references addr with
  | none => simp
  | some entry =>
    cases entry with
    | zero => simp
    | succ n => by_cases small : n < 2 <;> simp [small, insert, remove, Function.update_idem]

theorem referencesAfterReference {rc : FrameRefcount} (valid : Stored rc) (addr other : Nat) :
    (referenceFrameAtAddress rc addr).1.references other =
      if other = addr then some (getCountForAddress rc addr + 1) else rc.references other := by
  rw [referenceFrameEq]
  unfold getCountForAddress
  cases h : rc.references addr with
  | none => simp
  | some entry =>
    have := valid addr entry h
    cases entry with
    | zero => omega
    | succ n => simp

theorem referencesAfterRelease (rc : FrameRefcount) (addr other : Nat) :
    (releaseFrameAtAddress rc addr).1.references other =
      if other = addr then
        (if getCountForAddress rc addr - 1 < 2 then none else some (getCountForAddress rc addr - 1))
      else rc.references other := by
  rw [releaseFrameEq]
  unfold getCountForAddress
  cases h : rc.references addr with
  | none => simp
  | some entry => by_cases small : entry - 1 < 2 <;> simp [small]

theorem storedReference {rc : FrameRefcount} (valid : Stored rc) (addr : Nat) :
    Stored (referenceFrameAtAddress rc addr).1 := by
  intro other count found
  rw [referencesAfterReference valid] at found
  split at found
  · cases found
    unfold getCountForAddress
    cases h : rc.references addr with
    | none => simp
    | some n => have := valid addr n h; simp; omega
  · exact valid other count found

theorem storedRelease {rc : FrameRefcount} (valid : Stored rc) (addr : Nat) :
    Stored (releaseFrameAtAddress rc addr).1 := by
  intro other count found
  rw [referencesAfterRelease] at found
  split at found
  · split at found
    · cases found
    · cases found; omega
  · exact valid other count found

theorem countAfterReference {rc : FrameRefcount} (valid : Stored rc) (addr other : Nat) :
    getCountForAddress (referenceFrameAtAddress rc addr).1 other =
      getCountForAddress rc other + if other = addr then 1 else 0 := by
  unfold getCountForAddress
  rw [referencesAfterReference valid]
  by_cases same : other = addr
  · subst same; simp [getCountForAddress]
  · simp [same]

theorem countPos {rc : FrameRefcount} (valid : Stored rc) (addr : Nat) : 1 ≤ getCountForAddress rc addr := by
  unfold getCountForAddress
  cases h : rc.references addr with
  | none => simp
  | some entry => have := valid addr entry h; simp; omega

theorem countAfterRelease {rc : FrameRefcount} (valid : Stored rc) (addr other : Nat) :
    getCountForAddress (releaseFrameAtAddress rc addr).1 other =
      if other = addr then max (getCountForAddress rc addr - 1) 1 else getCountForAddress rc other := by
  have atLeastOne := countPos valid addr
  conv => lhs; unfold getCountForAddress
  rw [referencesAfterRelease]
  by_cases same : other = addr
  · subst same
    by_cases small : getCountForAddress rc other - 1 < 2
    · simp [small]; omega
    · simp [small]; omega
  · simp [same, getCountForAddress]

theorem releaseResult (rc : FrameRefcount) (addr : Nat) :
    (releaseFrameAtAddress rc addr).2 = getCountForAddress rc addr - 1 := by
  rw [releaseFrameEq]
  unfold getCountForAddress
  cases rc.references addr with
  | none => rfl
  | some entry => by_cases small : entry - 1 < 2 <;> simp [small]

/-! ### Runs of calls -/

inductive Call where
  | reference (addr : Nat)
  | release (addr : Nat)
  deriving DecidableEq, Repr

def Call.perform (rc : FrameRefcount) : Call → FrameRefcount × Nat
  | .reference addr => referenceFrameAtAddress rc addr
  | .release addr => releaseFrameAtAddress rc addr

def runCalls (rc : FrameRefcount) (calls : List Call) : FrameRefcount :=
  calls.foldl (fun rc call => (call.perform rc).1) rc

def references (addr : Nat) (calls : List Call) : Nat := calls.countP fun call => decide (call = .reference addr)

def releases (addr : Nat) (calls : List Call) : Nat := calls.countP fun call => decide (call = .release addr)

theorem storedPerform {rc : FrameRefcount} (valid : Stored rc) (call : Call) : Stored (call.perform rc).1 := by
  cases call with
  | reference addr => exact storedReference valid addr
  | release addr => exact storedRelease valid addr

theorem storedRunCalls {rc : FrameRefcount} (valid : Stored rc) (calls : List Call) : Stored (runCalls rc calls) := by
  induction calls generalizing rc with
  | nil => exact valid
  | cons call rest ih => exact ih (storedPerform valid call)

theorem countPerform {rc : FrameRefcount} (valid : Stored rc) (addr : Nat) (call : Call)
    (stays : releases addr [call] < getCountForAddress rc addr + references addr [call]) :
    getCountForAddress (call.perform rc).1 addr + releases addr [call] =
      getCountForAddress rc addr + references addr [call] := by
  cases call with
  | reference other =>
    rw [Call.perform, countAfterReference valid]
    by_cases same : addr = other
    · simp [references, releases, same]
    · simp [references, releases, same, Ne.symm same]
  | release other =>
    rw [Call.perform, countAfterRelease valid]
    by_cases same : addr = other
    · subst same
      simp [references, releases] at stays ⊢
      omega
    · simp [references, releases, same, Ne.symm same]

theorem countRunCalls {rc : FrameRefcount} (valid : Stored rc) (addr : Nat) (calls : List Call)
    (stays : ∀ n, releases addr (calls.take n) < getCountForAddress rc addr + references addr (calls.take n)) :
    getCountForAddress (runCalls rc calls) addr + releases addr calls =
      getCountForAddress rc addr + references addr calls := by
  induction calls generalizing rc with
  | nil => simp [runCalls, references, releases]
  | cons call rest ih =>
    have split : ∀ l : List Call, references addr (call :: l) = references addr [call] + references addr l ∧
        releases addr (call :: l) = releases addr [call] + releases addr l := fun l => by
      simp only [references, releases, List.countP_cons, List.countP_nil]
      omega
    have first := countPerform valid addr call (by simpa using stays 1)
    have later := ih (storedPerform valid call) fun n => by
      have := stays (n + 1)
      rw [List.take_succ_cons, (split _).1, (split _).2] at this
      omega
    rw [runCalls, List.foldl_cons, (split rest).1, (split rest).2]
    unfold runCalls at later
    omega

/-- `reference_frame_at_address` is documented to return the new total, but for a frame it
already tracks it returns the count from before the call. Every other part of the account
holds: stored counts stay at 2 or more, the count is one plus the references less the
releases while that stays positive, and a release returns the new count. Once a frame's
count has gone to 0, a later reference stores 2, not 1. -/
theorem referenceReturnsOldCount :
    (∀ calls, Stored (runCalls new calls)) ∧
    (∀ addr calls, (∀ n, releases addr (calls.take n) ≤ references addr (calls.take n)) →
      getCountForAddress (runCalls new calls) addr = 1 + references addr calls - releases addr calls) ∧
    (∀ rc addr, Stored rc → (releaseFrameAtAddress rc addr).2 = getCountForAddress rc addr - 1 ∧
      ((releaseFrameAtAddress rc addr).2 = 0 ↔ getCountForAddress rc addr = 1)) ∧
    (∀ rc addr, Stored rc → 2 ≤ getCountForAddress rc addr →
      (referenceFrameAtAddress rc addr).2 = getCountForAddress rc addr ∧
        getCountForAddress (referenceFrameAtAddress rc addr).1 addr = getCountForAddress rc addr + 1) ∧
    ((referenceFrameAtAddress (referenceFrameAtAddress new 0).1 0).2 = 2 ∧
      getCountForAddress (runCalls new [.reference 0, .reference 0]) 0 = 3) ∧
    (getCountForAddress (runCalls new [.release 0, .reference 0]) 0 = 2 ∧
      1 + references 0 [.release 0, .reference 0] - releases 0 [.release 0, .reference 0] = 1) := by
  refine ⟨storedRunCalls storedNew, fun addr calls stays => ?_, fun rc addr valid => ?_,
    fun rc addr valid tracked => ?_, by decide, by decide⟩
  · have start : getCountForAddress new addr = 1 := rfl
    have counted := countRunCalls storedNew addr calls fun n => by
      have := stays n
      rw [start]
      omega
    have := stays calls.length
    rw [List.take_length] at this
    rw [start] at counted
    omega
  · have atLeastOne := countPos valid addr
    rw [releaseResult]
    exact ⟨rfl, by omega⟩
  · refine ⟨?_, by rw [countAfterReference valid, if_pos rfl]⟩
    rw [referenceFrameEq]
    unfold getCountForAddress at tracked ⊢
    cases h : rc.references addr with
    | none => simp [h] at tracked
    | some entry =>
      rw [h] at tracked
      cases entry with
      | zero => simp at tracked
      | succ k => rfl

end ImmDosNx.Refcount
