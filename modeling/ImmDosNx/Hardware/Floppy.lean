import ImmDosNx.Lib.Run
import ImmDosNx.Task.Process

/-! The floppy controller's operation queue (`hardware/floppy.rs`
`add_operation`, `wait_for_interrupt`, `handle_interrupt`, `block_on_hardware`,
`resume_from_hardware`) and the reader that programs DMA channel 2 before
queueing (`devices/block/floppy.rs` `load_sectors_to_cache`). The queue lock is
never held across a yield, so a push or a pop is one step. Each reader's thread is
at one stage of `read`; it takes a step only when the scheduler can enter it. The
controller raises IRQ 6 once for each command it was given. -/
namespace ImmDosNx.Floppy
open ImmDosNx.Task

inductive Stage where
  | idle
  | programmed
  | blocked
  | first
  | commandSent
  | waiting
  | interrupted
  deriving DecidableEq, Repr

structure Controller where
  procs : Nat → Process
  stage : Nat → Stage
  operationQueue : List Nat
  dmaOwner : Option Nat
  wakeOnInterrupt : Option Nat
  interruptReceived : Bool
  irqPending : Bool

namespace Controller

def setProc (s : Controller) (pid : Nat) (f : Process → Process) : Controller :=
  { s with procs := fun id => if id = pid then f (s.procs id) else s.procs id }

def setStage (s : Controller) (pid : Nat) (stage : Stage) : Controller :=
  { s with stage := fun id => if id = pid then stage else s.stage id }

def resumeFromHardware (s : Controller) (id : Nat) : Controller := s.setProc id Process.hardwareResume

def blockOnHardware (s : Controller) (pid : Nat) : Controller := s.setProc pid (·.hardwareBlock none)

end Controller

def initial : Controller :=
  ⟨fun id => ⟨id, 0, .running⟩, fun _ => .idle, [], none, none, false, false⟩

inductive Action where
  | programDma (pid : Nat)
  | enqueue (pid : Nat)
  | proceed (pid : Nat)
  | sendCommand (pid : Nat)
  | waitForInterrupt (pid : Nat)
  | resumeFromInterrupt (pid : Nat)
  | finish (pid : Nat)
  | irq
  deriving DecidableEq, Repr

def Action.reader : Action → Option Nat
  | .programDma pid | .enqueue pid | .proceed pid | .sendCommand pid | .waitForInterrupt pid
  | .resumeFromInterrupt pid | .finish pid => some pid
  | .irq => none

def Action.startStage : Action → Option Stage
  | .programDma _ => some .idle
  | .enqueue _ => some .programmed
  | .proceed _ => some .blocked
  | .sendCommand _ => some .first
  | .waitForInterrupt _ => some .commandSent
  | .resumeFromInterrupt _ => some .waiting
  | .finish _ => some .interrupted
  | .irq => none

open Controller in
def step (s : Controller) : Action → Option Controller
  | .irq =>
    if s.irqPending then
      let s := { s with irqPending := false, interruptReceived := true }
      some (match s.wakeOnInterrupt with
        | some id => s.resumeFromHardware id
        | none => s)
    else none
  | .programDma pid => if (s.procs pid).canResume && s.stage pid == .idle then
      some ({ s with dmaOwner := some pid }.setStage pid .programmed) else none
  | .enqueue pid => if (s.procs pid).canResume && s.stage pid == .programmed then
      let s := { s with operationQueue := s.operationQueue ++ [pid] }
      if s.operationQueue.length > 1 then some ((s.blockOnHardware pid).setStage pid .blocked)
      else some (s.setStage pid .first)
    else none
  | .proceed pid => if (s.procs pid).canResume && s.stage pid == .blocked then
      some (s.setStage pid .first) else none
  | .sendCommand pid => if (s.procs pid).canResume && s.stage pid == .first then
      some ({ s with interruptReceived := false, irqPending := true }.setStage pid .commandSent) else none
  | .waitForInterrupt pid => if (s.procs pid).canResume && s.stage pid == .commandSent then
      let s := { s with wakeOnInterrupt := some pid }
      if s.interruptReceived then some (s.setStage pid .interrupted)
      else some ((s.blockOnHardware pid).setStage pid .waiting)
    else none
  | .resumeFromInterrupt pid => if (s.procs pid).canResume && s.stage pid == .waiting then
      some ({ s with wakeOnInterrupt := none }.setStage pid .interrupted) else none
  | .finish pid => if (s.procs pid).canResume && s.stage pid == .interrupted then
      let next := s.operationQueue.head?
      let s := { s with operationQueue := s.operationQueue.tail }.setStage pid .idle
      some (match next with
        | some id => s.resumeFromHardware id
        | none => s)
    else none

namespace Controller

@[simp] theorem stageSetStage (s : Controller) (pid id : Nat) (stage : Stage) :
    (s.setStage pid stage).stage id = if id = pid then stage else s.stage id := rfl

@[simp] theorem procsSetStage (s : Controller) (pid : Nat) (stage : Stage) :
    (s.setStage pid stage).procs = s.procs := rfl

@[simp] theorem queueSetStage (s : Controller) (pid : Nat) (stage : Stage) :
    (s.setStage pid stage).operationQueue = s.operationQueue := rfl

@[simp] theorem irqSetStage (s : Controller) (pid : Nat) (stage : Stage) :
    (s.setStage pid stage).irqPending = s.irqPending := rfl

@[simp] theorem procsSetProc (s : Controller) (pid id : Nat) (f : Process → Process) :
    (s.setProc pid f).procs id = if id = pid then f (s.procs id) else s.procs id := rfl

@[simp] theorem stageSetProc (s : Controller) (pid : Nat) (f : Process → Process) :
    (s.setProc pid f).stage = s.stage := rfl

@[simp] theorem queueSetProc (s : Controller) (pid : Nat) (f : Process → Process) :
    (s.setProc pid f).operationQueue = s.operationQueue := rfl

@[simp] theorem irqSetProc (s : Controller) (pid : Nat) (f : Process → Process) :
    (s.setProc pid f).irqPending = s.irqPending := rfl

@[simp] theorem wakeSetStage (s : Controller) (pid : Nat) (stage : Stage) :
    (s.setStage pid stage).wakeOnInterrupt = s.wakeOnInterrupt := rfl

@[simp] theorem wakeSetProc (s : Controller) (pid : Nat) (f : Process → Process) :
    (s.setProc pid f).wakeOnInterrupt = s.wakeOnInterrupt := rfl

end Controller

open Controller

theorem stepGuard {s t : Controller} {a : Action} {pid : Nat} (reader : a.reader = some pid)
    (ok : step s a = some t) : (s.procs pid).canResume = true ∧ a.startStage = some (s.stage pid) := by
  cases a with
  | irq => cases reader
  | programDma q | enqueue q | proceed q | sendCommand q | waitForInterrupt q | resumeFromInterrupt q | finish q =>
    obtain rfl : q = pid := Option.some.inj reader
    simp only [step] at ok
    split at ok
    · next ready =>
      simp only [Bool.and_eq_true, beq_iff_eq] at ready
      exact ⟨ready.1, by rw [ready.2]; rfl⟩
    · cases ok

/-! ### Readers no action names -/

structure Avoids (pid : Nat) (stage : Stage) (proc : Process) (s : Controller) : Prop where
  sameStage : s.stage pid = stage
  sameProc : s.procs pid = proc
  notWoken : s.wakeOnInterrupt ≠ some pid
  notQueued : pid ∉ s.operationQueue

theorem stepAvoids {pid : Nat} {stage : Stage} {proc : Process} {s t : Controller} {a : Action}
    (avoid : Avoids pid stage proc s) (other : a.reader ≠ some pid) (ok : step s a = some t) :
    Avoids pid stage proc t := by
  obtain ⟨sameStage, sameProc, notWoken, notQueued⟩ := avoid
  cases a with
  | irq =>
    simp only [step] at ok
    split at ok
    · cases ok
      split
      · next id woken =>
        have differ : pid ≠ id := fun same => notWoken (same ▸ woken)
        exact ⟨sameStage, by simp [resumeFromHardware, differ, sameProc], by simpa [resumeFromHardware] using notWoken,
          by simpa [resumeFromHardware] using notQueued⟩
      · exact ⟨sameStage, sameProc, notWoken, notQueued⟩
    · cases ok
  | programDma q | proceed q | sendCommand q | resumeFromInterrupt q =>
    have differ : pid ≠ q := fun same => other (by rw [same]; rfl)
    simp only [step] at ok
    split at ok
    · cases ok
      exact ⟨by simp [differ, sameStage], by simp [sameProc], by simp [notWoken], by simp [notQueued]⟩
    · cases ok
  | enqueue q =>
    have differ : pid ≠ q := fun same => other (by rw [same]; rfl)
    simp only [step] at ok
    split at ok
    · split at ok <;> cases ok <;>
        exact ⟨by simp [blockOnHardware, differ, sameStage], by simp [blockOnHardware, differ, sameProc],
          by simp [blockOnHardware, notWoken], by simp [blockOnHardware, notQueued, differ]⟩
    · cases ok
  | waitForInterrupt q =>
    have differ : pid ≠ q := fun same => other (by rw [same]; rfl)
    simp only [step] at ok
    split at ok
    · split at ok <;> cases ok <;>
        exact ⟨by simp [blockOnHardware, differ, sameStage], by simp [blockOnHardware, differ, sameProc],
          by simp [blockOnHardware, Ne.symm differ], by simp [blockOnHardware, notQueued]⟩
    · cases ok
  | finish q =>
    have differ : pid ≠ q := fun same => other (by rw [same]; rfl)
    have notTail : pid ∉ s.operationQueue.tail := fun mem => notQueued (List.mem_of_mem_tail mem)
    simp only [step] at ok
    split at ok
    · cases ok
      split
      · next id head =>
        have notHead : pid ≠ id := by
          rintro rfl; exact notQueued (List.mem_of_mem_head? head)
        exact ⟨by simp [resumeFromHardware, differ, sameStage], by simp [resumeFromHardware, notHead, sameProc],
          by simp [resumeFromHardware, notWoken], by simp [resumeFromHardware, notTail]⟩
      · exact ⟨by simp [differ, sameStage], by simp [sameProc], by simp [notWoken], by simp [notTail]⟩
    · cases ok

theorem avoidsInitial (pid : Nat) : Avoids pid .idle ⟨pid, 0, .running⟩ initial :=
  ⟨rfl, rfl, by simp [initial], by simp [initial]⟩

/-! ### A finished operation resumes its own process -/

structure Stuck (waiter : Nat) (s : Controller) : Prop where
  waiterBlocked : s.stage waiter = .blocked
  parked : ∀ pid, s.stage pid = .blocked → (s.procs pid).state = .hardwareIo none
  outside : ∀ pid, s.stage pid = .idle ∨ s.stage pid = .programmed ∨ s.stage pid = .blocked
  queued : s.operationQueue ≠ []
  noIrq : s.irqPending = false

theorem parkedCannotResume {waiter : Nat} {s : Controller} (stuck : Stuck waiter s) {pid : Nat}
    (blocked : s.stage pid = .blocked) : (s.procs pid).canResume = false := by
  simp [Process.canResume, stuck.parked pid blocked]

theorem stuckStep {waiter : Nat} {s t : Controller} {a : Action} (stuck : Stuck waiter s)
    (ok : step s a = some t) : Stuck waiter t := by
  cases a with
  | irq => simp [step, stuck.noIrq] at ok
  | programDma pid =>
    simp only [step] at ok
    split at ok
    · next ready =>
      cases ok
      simp only [Bool.and_eq_true, beq_iff_eq] at ready
      have idle : s.stage pid = .idle := ready.2
      refine ⟨?_, fun id blocked => ?_, fun id => ?_, stuck.queued, stuck.noIrq⟩
      · have : waiter ≠ pid := fun same => by
          have blocked := stuck.waiterBlocked
          rw [same, idle] at blocked
          cases blocked
        simp [this, stuck.waiterBlocked]
      · by_cases same : id = pid
        · simp [same] at blocked
        · simp only [stageSetStage, same, if_false] at blocked
          exact stuck.parked id blocked
      · by_cases same : id = pid
        · simp [same]
        · simpa [same] using stuck.outside id
    · cases ok
  | enqueue pid =>
    simp only [step] at ok
    split at ok
    · next ready =>
      have longer : (s.operationQueue ++ [pid]).length > 1 := by
        have := List.length_pos_iff.mpr stuck.queued
        simp; omega
      simp only [longer, if_true, Option.some.injEq] at ok
      subst ok
      refine ⟨?_, fun id blocked => ?_, fun id => ?_, by simp [blockOnHardware], by simp [blockOnHardware, stuck.noIrq]⟩
      · by_cases same : waiter = pid
        · simp [same]
        · simp [blockOnHardware, same, stuck.waiterBlocked]
      · by_cases same : id = pid
        · simp [blockOnHardware, same, Process.hardwareBlock]
        · simp only [stageSetStage, same, if_false, blockOnHardware, stageSetProc] at blocked
          simp [blockOnHardware, same, stuck.parked id blocked]
      · by_cases same : id = pid
        · simp [same]
        · simpa [blockOnHardware, same] using stuck.outside id
    · cases ok
  | proceed pid | sendCommand pid | waitForInterrupt pid | resumeFromInterrupt pid | finish pid =>
    obtain ⟨resumable, start⟩ := stepGuard rfl ok
    rcases stuck.outside pid with idle | programmed | blocked
    · rw [idle] at start; cases start
    · rw [programmed] at start; cases start
    · rw [parkedCannotResume stuck blocked] at resumable; cases resumable

theorem secondReaderNeverResumed :
    ∃ s, Machine.Reachable step initial s ∧ s.operationQueue = [2] ∧ s.stage 1 = .idle ∧
      ∀ actions t, Machine.run step s actions = some t →
        t.stage 2 = .blocked ∧ (t.procs 2).state = .hardwareIo none := by
  have trace : Machine.run step initial
      [.programDma 1, .enqueue 1, .programDma 2, .enqueue 2, .sendCommand 1, .waitForInterrupt 1, .irq,
        .resumeFromInterrupt 1, .finish 1] =
      some ((Machine.run step initial
        [.programDma 1, .enqueue 1, .programDma 2, .enqueue 2, .sendCommand 1, .waitForInterrupt 1, .irq,
          .resumeFromInterrupt 1, .finish 1]).getD initial) := rfl
  refine ⟨_, Machine.reachableFromInit trace, rfl, rfl, fun actions t ok => ?_⟩
  have others : ∀ pid, pid ≠ 1 → pid ≠ 2 → Avoids pid .idle ⟨pid, 0, .running⟩ ((Machine.run step initial
      [.programDma 1, .enqueue 1, .programDma 2, .enqueue 2, .sendCommand 1, .waitForInterrupt 1, .irq,
        .resumeFromInterrupt 1, .finish 1]).getD initial) := fun pid one two =>
    Machine.runPreserves (avoidsInitial pid) (fun a mem => by
        simp only [List.mem_cons, List.not_mem_nil, or_false] at mem
        rcases mem with rfl | rfl | rfl | rfl | rfl | rfl | rfl | rfl | rfl <;> simp [Action.reader, Ne.symm one, Ne.symm two])
      (fun _ _ _ avoid other ok => stepAvoids avoid other ok) trace
  have start : Stuck 2 ((Machine.run step initial
      [.programDma 1, .enqueue 1, .programDma 2, .enqueue 2, .sendCommand 1, .waitForInterrupt 1, .irq,
        .resumeFromInterrupt 1, .finish 1]).getD initial) := by
    refine ⟨rfl, fun pid blocked => ?_, fun pid => ?_, by decide, rfl⟩
    · by_cases two : pid = 2
      · subst two; rfl
      · by_cases one : pid = 1
        · subst one; cases blocked
        · rw [(others pid one two).sameStage] at blocked; cases blocked
    · by_cases two : pid = 2
      · subst two; exact .inr (.inr rfl)
      · by_cases one : pid = 1
        · subst one; exact .inl rfl
        · exact .inl (others pid one two).sameStage
  have ended := Machine.runPreserves start (fun _ _ => trivial)
    (fun _ _ _ stuck _ ok => stuckStep stuck ok) ok
  exact ⟨ended.waiterBlocked, ended.parked 2 ended.waiterBlocked⟩

/-! ### The DMA channel and the exclusion -/

theorem dmaReprogrammedBeforeTransfer :
    ∃ s, Machine.Reachable step initial s ∧ s.stage 1 = .first ∧ s.dmaOwner = some 2 ∧
      ∃ t, step s (.sendCommand 1) = some t ∧ t.stage 1 = .commandSent := by
  have trace : Machine.run step initial [.programDma 1, .enqueue 1, .programDma 2] =
      some ((Machine.run step initial [.programDma 1, .enqueue 1, .programDma 2]).getD initial) := rfl
  exact ⟨_, Machine.reachableFromInit trace, rfl, rfl, _, rfl, rfl⟩

theorem staleWakeBreaksExclusion :
    ∃ s, Machine.Reachable step initial s ∧ s.stage 1 = .commandSent ∧ s.stage 2 = .first := by
  have trace : Machine.run step initial
      [.programDma 2, .enqueue 2, .sendCommand 2, .irq, .waitForInterrupt 2, .finish 2,
        .programDma 1, .enqueue 1, .programDma 2, .enqueue 2, .sendCommand 1, .irq, .proceed 2] =
      some ((Machine.run step initial
        [.programDma 2, .enqueue 2, .sendCommand 2, .irq, .waitForInterrupt 2, .finish 2,
          .programDma 1, .enqueue 1, .programDma 2, .enqueue 2, .sendCommand 1, .irq, .proceed 2]).getD initial) :=
    rfl
  exact ⟨_, Machine.reachableFromInit trace, rfl, rfl⟩

end ImmDosNx.Floppy
