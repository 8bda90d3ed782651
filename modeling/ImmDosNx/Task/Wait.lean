import ImmDosNx.Lib.Run
import ImmDosNx.Task.Process

/-! Waiting for a child's exit code (`task/mod.rs` `wait`, `task/exec.rs`
`terminate` / `terminate_process`, `cleanup.rs`, the scheduler of `task/switching.rs`).
The kernel is the task map and the id generator. Each entry also records whether
the process's kernel thread is suspended inside `task::wait`, between its
`yield_coop` and its `resume_from_wait`; the scheduler enters a process only when
`can_resume` holds, so a process runs its own code only when it is `Running`
outside a wait. A step is one action of one process, of the timer, of a signal or
of the cleanup process; every interleaving is a list of actions. -/
namespace ImmDosNx.Task

structure Entry where
  process : Process
  inWait : Bool
  deriving DecidableEq, Repr

structure Kernel where
  taskMap : Nat → Option Entry
  nextId : Nat
  returned : List (Nat × UInt32)

namespace Kernel

def modify (s : Kernel) (pid : Nat) (f : Entry → Entry) : Kernel :=
  { s with taskMap := fun id => if id = pid then (s.taskMap id).map f else s.taskMap id }

def modifyProcess (s : Kernel) (pid : Nat) (f : Process → Process) : Kernel :=
  s.modify pid fun e => { e with process := f e.process }

def stateOf (s : Kernel) (pid : Nat) : Option RunState := (s.taskMap pid).map (·.process.state)

def scheduled (s : Kernel) (pid : Nat) : Option Entry :=
  match s.taskMap pid with
  | some e => if e.process.canResume && !e.inWait then some e else none
  | none => none

end Kernel

def initial : Kernel := ⟨fun id => if id = 0 then some ⟨Process.initial, false⟩ else none, 1, []⟩

def terminateProcess (s : Kernel) (id : Nat) (exitCode : UInt32) : Kernel :=
  match s.taskMap id with
  | none => s
  | some entry =>
    (s.modifyProcess id Process.terminate).modifyProcess entry.process.parentId
      fun parent => parent.childReturned id exitCode

def fork (s : Kernel) (parent : Process) : Kernel :=
  { s with taskMap := fun id => if id = s.nextId then some ⟨parent.createFork s.nextId, false⟩ else s.taskMap id,
           nextId := s.nextId + 1 }

def cleanUpProcess (s : Kernel) (id : Nat) : Kernel :=
  { s with taskMap := fun other => if other = id then none else s.taskMap other }

def updateTimeouts (s : Kernel) (deltaMs : Nat) : Kernel :=
  { s with taskMap := fun id => (s.taskMap id).map fun e => { e with process := e.process.updateTimeouts deltaMs } }

inductive Action where
  | fork (parent : Nat)
  | wait (pid : Nat) (childId : Option Nat)
  | resumeFromWait (pid : Nat)
  | sleep (pid : Nat) (duration : Nat)
  | ipcRead (pid : Nat) (timeout : Option Nat)
  | ipcSend (sender receiver : Nat)
  | tick (deltaMs : Nat)
  | terminate (pid : Nat) (exitCode : UInt32)
  | signal (receiver : Nat)
  | cleanUp (pid : Nat)
  deriving DecidableEq, Repr

def Action.isSignal : Action → Bool
  | .signal _ => true
  | _ => false

def step (s : Kernel) : Action → Option Kernel
  | .fork parent => (s.scheduled parent).map fun e => fork s e.process
  | .wait pid childId => (s.scheduled pid).map fun _ => s.modify pid fun e => ⟨e.process.wait childId, true⟩
  | .resumeFromWait pid =>
    match s.taskMap pid with
    | some e =>
      if e.inWait && e.process.canResume then
        some { s.modify pid (fun e => ⟨e.process.resumeFromWait.1, false⟩) with
               returned := s.returned ++ [(pid, e.process.resumeFromWait.2)] }
      else none
    | none => none
  | .sleep pid duration => (s.scheduled pid).map fun _ => s.modifyProcess pid (·.sleep duration)
  | .ipcRead pid timeout => (s.scheduled pid).map fun _ => s.modifyProcess pid (·.ipcBlock timeout)
  | .ipcSend sender receiver => (s.scheduled sender).map fun _ => s.modifyProcess receiver Process.ipcReceive
  | .tick deltaMs => some (updateTimeouts s deltaMs)
  | .terminate pid exitCode => (s.scheduled pid).map fun _ => terminateProcess s pid exitCode
  | .signal receiver => some (terminateProcess s receiver 0)
  | .cleanUp pid =>
    match s.taskMap pid with
    | some e => if e.process.isTerminated then some (cleanUpProcess s pid) else none
    | none => none

/-! ### Where a process's thread can be

A process enters `WaitingForChild` only in `task::wait`, and `Resumed` only from
there, so these two states are seen inside a wait and no others but
`Terminated`, which a signal can bring anywhere. -/

inductive Place where
  | inside
  | outside
  | anywhere
  deriving DecidableEq, Repr

def RunState.place : RunState → Place
  | .waitingForChild _ | .resumed _ => .inside
  | .terminated => .anywhere
  | .running | .sleeping _ | .paused | .awaitingIPC _ | .handlingSignal _ | .handlingInterrupt _ | .fileIo _
  | .hardwareIo _ => .outside

def Entry.Placed (e : Entry) : Prop :=
  match e.process.state.place with
  | .inside => e.inWait = true
  | .outside => e.inWait = false
  | .anywhere => True

structure Coherent (s : Kernel) : Prop where
  placed : ∀ pid e, s.taskMap pid = some e → e.Placed
  fresh : ∀ pid, s.nextId ≤ pid → s.taskMap pid = none

namespace Process

theorem placeChildReturned (p : Process) (childId : Nat) (code : UInt32) :
    (p.childReturned childId code).state.place = p.state.place := by
  rw [stateChildReturned]
  split
  · next waiting => rcases waiting with waiting | waiting <;> rw [waiting] <;> rfl
  · rfl

theorem placeUpdateTimeouts (p : Process) (deltaMs : Nat) :
    (p.updateTimeouts deltaMs).state.place = p.state.place := by
  unfold updateTimeouts
  split
  · next waiting => rw [waiting]; split <;> rfl
  · next asleep => rw [asleep]; split <;> rfl
  · rfl

theorem placeIpcReceive (p : Process) : p.ipcReceive.state.place = p.state.place := by
  unfold ipcReceive
  split
  · next waiting => rw [waiting]; rfl
  · rfl

theorem childReturnedFixed {p : Process} (notWaiting : ∀ w, p.state ≠ .waitingForChild w)
    (childId : Nat) (code : UInt32) : (p.childReturned childId code).state = p.state := by
  rw [stateChildReturned, if_neg]
  rintro (waiting | waiting)
  · exact notWaiting _ waiting
  · exact notWaiting _ waiting

theorem updateTimeoutsFixed {p : Process} (notIpc : ∀ t, p.state ≠ .awaitingIPC t)
    (notAsleep : ∀ d, p.state ≠ .sleeping d) (deltaMs : Nat) : (p.updateTimeouts deltaMs).state = p.state := by
  rcases stateUpdateTimeouts p deltaMs with same | ⟨t, ipc⟩ | ⟨d, asleep⟩
  · exact same
  · exact absurd ipc (notIpc _)
  · exact absurd asleep (notAsleep _)

theorem ipcReceiveFixed {p : Process} (notIpc : ∀ t, p.state ≠ .awaitingIPC t) :
    p.ipcReceive.state = p.state := by
  rcases stateIpcReceive p with same | ⟨t, ipc⟩
  · exact same
  · exact absurd ipc (notIpc _)

end Process

theorem placedOfPlace {e e' : Entry} (placed : e.Placed) (place : e'.process.state.place = e.process.state.place)
    (thread : e'.inWait = e.inWait) : e'.Placed := by
  unfold Entry.Placed at *
  rw [place, thread]
  exact placed

namespace Kernel

@[simp] theorem taskMapModify (s : Kernel) (pid id : Nat) (f : Entry → Entry) :
    (s.modify pid f).taskMap id = if id = pid then (s.taskMap id).map f else s.taskMap id := rfl

theorem stateOfModifyProcess (s : Kernel) (q pid : Nat) (f : Process → Process) :
    (s.modifyProcess q f).stateOf pid =
      if pid = q then (s.taskMap pid).map fun e => (f e.process).state else s.stateOf pid := by
  unfold modifyProcess stateOf
  by_cases same : pid = q
  · simp [same, Function.comp_def]
  · simp [same]

theorem stateOfModifyProcessFixed {s : Kernel} {q pid : Nat} {f : Process → Process}
    (fixed : ∀ e, s.taskMap pid = some e → pid = q → (f e.process).state = e.process.state) :
    (s.modifyProcess q f).stateOf pid = s.stateOf pid := by
  rw [stateOfModifyProcess]
  split
  · next same =>
    cases found : s.taskMap pid with
    | none => simp [stateOf, found]
    | some e => simp [stateOf, found, fixed e found same]
  · rfl

theorem inWaitModifyProcess (s : Kernel) (q pid : Nat) (f : Process → Process) :
    ((s.modifyProcess q f).taskMap pid).map (·.inWait) = (s.taskMap pid).map (·.inWait) := by
  unfold modifyProcess
  by_cases same : pid = q
  · simp [same, Function.comp_def]
  · simp [same]

theorem scheduledSome {s : Kernel} {pid : Nat} {e : Entry} (found : s.scheduled pid = some e) :
    s.taskMap pid = some e ∧ e.process.canResume = true ∧ e.inWait = false := by
  unfold scheduled at found
  split at found
  · next entry here =>
    split at found
    · next ready =>
      cases found
      simp only [Bool.and_eq_true, Bool.not_eq_true'] at ready
      exact ⟨here, ready⟩
    · cases found
  · cases found

theorem coherentModify {s : Kernel} {pid : Nat} {f : Entry → Entry} (c : Coherent s)
    (here : ∀ e, s.taskMap pid = some e → (f e).Placed) : Coherent (s.modify pid f) := by
  refine ⟨fun id e found => ?_, fun id beyond => ?_⟩
  · by_cases same : id = pid
    · subst same
      simp only [taskMapModify, if_true, Option.map_eq_some_iff] at found
      obtain ⟨old, oldFound, rfl⟩ := found
      exact here old oldFound
    · simp only [taskMapModify, same, if_false] at found
      exact c.placed id e found
  · by_cases same : id = pid
    · simp [same, c.fresh pid (same ▸ beyond)]
    · simp [same, c.fresh id beyond]

theorem coherentModifyProcess {s : Kernel} {pid : Nat} {f : Process → Process} (c : Coherent s)
    (here : ∀ e, s.taskMap pid = some e → ({ e with process := f e.process } : Entry).Placed) :
    Coherent (s.modifyProcess pid f) :=
  coherentModify c here

theorem coherentModifyPlace {s : Kernel} {pid : Nat} {f : Process → Process} (c : Coherent s)
    (place : ∀ p, (f p).state.place = p.state.place) : Coherent (s.modifyProcess pid f) :=
  coherentModifyProcess c fun e found => placedOfPlace (c.placed pid e found) (place e.process) rfl

theorem notScheduledInside {s : Kernel} {pid : Nat} (c : Coherent s) {e : Entry} (found : s.taskMap pid = some e)
    (inside : e.process.state.place = .inside) : s.scheduled pid = none := by
  have placed := c.placed pid e found
  unfold Entry.Placed at placed
  rw [inside] at placed
  cases h : s.scheduled pid with
  | none => rfl
  | some e' =>
    obtain ⟨found', -, outside⟩ := scheduledSome h
    rw [found] at found'
    cases found'
    rw [placed] at outside
    cases outside

end Kernel

open Kernel

theorem stepResumeFromWait {s t : Kernel} {pid : Nat} (ok : step s (.resumeFromWait pid) = some t) :
    ∃ e, s.taskMap pid = some e ∧ e.inWait = true ∧ e.process.canResume = true ∧
      t = { s.modify pid (fun e => ⟨e.process.resumeFromWait.1, false⟩) with
            returned := s.returned ++ [(pid, e.process.resumeFromWait.2)] } := by
  simp only [step] at ok
  split at ok
  · next e found =>
    split at ok
    · next ready =>
      cases ok
      simp only [Bool.and_eq_true] at ready
      exact ⟨e, found, ready.1, ready.2, rfl⟩
    · cases ok
  · cases ok

theorem stepCleanUp {s t : Kernel} {pid : Nat} (ok : step s (.cleanUp pid) = some t) :
    ∃ e, s.taskMap pid = some e ∧ e.process.isTerminated = true ∧ t = cleanUpProcess s pid := by
  simp only [step] at ok
  split at ok
  · next e found =>
    split at ok
    · next ended =>
      cases ok
      exact ⟨e, found, ended, rfl⟩
    · cases ok
  · cases ok

theorem resumedOfInWait {e : Entry} (placed : e.Placed) (inWait : e.inWait = true)
    (canResume : e.process.canResume = true) : ∃ code, e.process.state = .resumed code := by
  unfold Entry.Placed at placed
  unfold Process.canResume at canResume
  cases hstate : e.process.state with
  | resumed code => exact ⟨code, rfl⟩
  | running => simp [hstate, RunState.place, inWait] at placed
  | _ => simp [hstate] at canResume

theorem coherentTerminateProcess {s : Kernel} (c : Coherent s) (id : Nat) (exitCode : UInt32) :
    Coherent (terminateProcess s id exitCode) := by
  unfold terminateProcess
  split
  · exact c
  · apply coherentModifyPlace _ fun p => Process.placeChildReturned p id exitCode
    exact coherentModifyProcess c fun e _ => by simp [Entry.Placed, Process.terminate, RunState.place]

theorem coherentInitial : Coherent initial := by
  refine ⟨fun pid e found => ?_, fun pid beyond => ?_⟩
  · simp only [initial] at found
    split at found
    · cases found; simp [Entry.Placed, Process.initial, RunState.place]
    · cases found
  · simp only [initial] at beyond ⊢
    rw [if_neg (by omega)]

theorem coherentFork {s : Kernel} (c : Coherent s) (parent : Process) : Coherent (fork s parent) := by
  refine ⟨fun pid e found => ?_, fun pid beyond => ?_⟩
  · simp only [fork] at found
    split at found
    · cases found; simp [Entry.Placed, Process.createFork, RunState.place]
    · exact c.placed pid e found
  · simp only [fork] at beyond ⊢
    rw [if_neg (by omega)]
    exact c.fresh pid (by omega)

theorem coherentCleanUp {s : Kernel} (c : Coherent s) (id : Nat) : Coherent (cleanUpProcess s id) := by
  refine ⟨fun pid e found => ?_, fun pid beyond => ?_⟩
  · simp only [cleanUpProcess] at found
    split at found
    · cases found
    · exact c.placed pid e found
  · simp only [cleanUpProcess]
    split
    · rfl
    · exact c.fresh pid beyond

theorem coherentUpdateTimeouts {s : Kernel} (c : Coherent s) (deltaMs : Nat) : Coherent (updateTimeouts s deltaMs) := by
  refine ⟨fun pid e found => ?_, fun pid beyond => ?_⟩
  · simp only [updateTimeouts, Option.map_eq_some_iff] at found
    obtain ⟨old, oldFound, rfl⟩ := found
    exact placedOfPlace (c.placed pid old oldFound) (Process.placeUpdateTimeouts _ _) rfl
  · simp [updateTimeouts, c.fresh pid beyond]

theorem stepCoherent {s t : Kernel} {a : Action} (c : Coherent s) (ok : step s a = some t) : Coherent t := by
  cases a with
  | fork parent =>
    obtain ⟨e, -, rfl⟩ := Option.map_eq_some_iff.mp ok
    exact coherentFork c e.process
  | wait pid childId =>
    obtain ⟨-, -, rfl⟩ := Option.map_eq_some_iff.mp ok
    exact coherentModify c fun e _ => by simp [Entry.Placed, Process.wait, RunState.place]
  | resumeFromWait pid =>
    obtain ⟨e, found, inWait, ready, rfl⟩ := stepResumeFromWait ok
    obtain ⟨code, resumed⟩ := resumedOfInWait (c.placed pid e found) inWait ready
    have inner : Coherent (s.modify pid fun e => ⟨e.process.resumeFromWait.1, false⟩) :=
      coherentModify c fun e' found' => by
        rw [found] at found'; cases found'
        simp [Entry.Placed, Process.resumeFromWait, resumed, RunState.place]
    exact ⟨inner.placed, inner.fresh⟩
  | sleep pid duration =>
    obtain ⟨e, sched, rfl⟩ := Option.map_eq_some_iff.mp ok
    obtain ⟨found, -, outside⟩ := scheduledSome sched
    exact coherentModifyProcess c fun e' found' => by
      rw [found] at found'; cases found'
      simp [Entry.Placed, Process.sleep, RunState.place, outside]
  | ipcRead pid timeout =>
    obtain ⟨e, sched, rfl⟩ := Option.map_eq_some_iff.mp ok
    obtain ⟨found, -, outside⟩ := scheduledSome sched
    exact coherentModifyProcess c fun e' found' => by
      rw [found] at found'; cases found'
      simp [Entry.Placed, Process.ipcBlock, RunState.place, outside]
  | ipcSend sender receiver =>
    obtain ⟨-, -, rfl⟩ := Option.map_eq_some_iff.mp ok
    exact coherentModifyPlace c Process.placeIpcReceive
  | tick deltaMs =>
    cases ok
    exact coherentUpdateTimeouts c deltaMs
  | terminate pid exitCode =>
    obtain ⟨-, -, rfl⟩ := Option.map_eq_some_iff.mp ok
    exact coherentTerminateProcess c pid exitCode
  | signal receiver =>
    cases ok
    exact coherentTerminateProcess c receiver 0
  | cleanUp pid =>
    obtain ⟨-, -, -, rfl⟩ := stepCleanUp ok
    exact coherentCleanUp c pid

theorem reachableCoherent {s : Kernel} (reached : Machine.Reachable step initial s) : Coherent s :=
  reached.invariant coherentInitial fun _ _ _ c ok => stepCoherent c ok

/-! ### What a step does to one process's state -/

namespace Kernel

theorem stateOfModifyOther (s : Kernel) {q pid : Nat} (f : Entry → Entry) (differ : pid ≠ q) :
    (s.modify q f).stateOf pid = s.stateOf pid := by
  simp [stateOf, differ]

theorem inWaitModifyOther (s : Kernel) {q pid : Nat} (f : Entry → Entry) (differ : pid ≠ q) :
    ((s.modify q f).taskMap pid).map (·.inWait) = (s.taskMap pid).map (·.inWait) := by
  simp [differ]

theorem scheduledNoneOfInWait {s : Kernel} {pid : Nat} (inWait : (s.taskMap pid).map (·.inWait) = some true) :
    s.scheduled pid = none := by
  cases h : s.scheduled pid with
  | none => rfl
  | some e =>
    obtain ⟨found, -, outside⟩ := scheduledSome h
    rw [found] at inWait
    simp [outside] at inWait

theorem scheduledNoneOfGone {s : Kernel} {pid : Nat} (gone : s.stateOf pid = none ∨ s.stateOf pid = some .terminated) :
    s.scheduled pid = none := by
  cases h : s.scheduled pid with
  | none => rfl
  | some e =>
    obtain ⟨found, ready, -⟩ := scheduledSome h
    rcases gone with gone | gone <;> simp [stateOf, found] at gone
    simp [Process.canResume, gone] at ready

end Kernel

theorem stateOfFork (s : Kernel) (parent : Process) {pid : Nat} (differ : pid ≠ s.nextId) :
    (fork s parent).stateOf pid = s.stateOf pid := by
  simp [fork, stateOf, differ]

theorem stateOfCleanUp (s : Kernel) {id pid : Nat} (differ : pid ≠ id) :
    (cleanUpProcess s id).stateOf pid = s.stateOf pid := by
  simp [cleanUpProcess, stateOf, differ]

theorem stateOfUpdateTimeoutsFixed {s : Kernel} {pid : Nat} (deltaMs : Nat)
    (fixed : ∀ e, s.taskMap pid = some e → (e.process.updateTimeouts deltaMs).state = e.process.state) :
    (updateTimeouts s deltaMs).stateOf pid = s.stateOf pid := by
  cases found : s.taskMap pid with
  | none => simp [updateTimeouts, stateOf, found]
  | some e => simp [updateTimeouts, stateOf, found, fixed e found]

theorem inWaitTerminateProcess (s : Kernel) (id pid : Nat) (exitCode : UInt32) :
    ((terminateProcess s id exitCode).taskMap pid).map (·.inWait) = (s.taskMap pid).map (·.inWait) := by
  unfold terminateProcess
  split
  · rfl
  · rw [inWaitModifyProcess, inWaitModifyProcess]

theorem nextIdTerminateProcess (s : Kernel) (id : Nat) (exitCode : UInt32) :
    (terminateProcess s id exitCode).nextId = s.nextId := by
  unfold terminateProcess; split <;> rfl

theorem stateOfTerminateProcessSelf (s : Kernel) (id : Nat) (exitCode : UInt32) :
    (terminateProcess s id exitCode).stateOf id = (s.stateOf id).map fun _ => .terminated := by
  unfold terminateProcess
  split
  · next missing => simp [stateOf, missing]
  · next entry found =>
    have ended : (s.modifyProcess id Process.terminate).stateOf id = some .terminated := by
      simp [stateOfModifyProcess, found, Process.terminate]
    rw [stateOfModifyProcessFixed, ended]
    · simp [stateOf, found]
    · intro e found' _
      have terminated : e.process.state = .terminated := by simpa [stateOf, found'] using ended
      exact Process.childReturnedFixed (by simp [terminated]) _ _

theorem stateOfTerminateProcessOther {s : Kernel} {id pid : Nat} (exitCode : UInt32) (differ : pid ≠ id)
    (fixed : ∀ e, s.taskMap pid = some e → (e.process.childReturned id exitCode).state = e.process.state) :
    (terminateProcess s id exitCode).stateOf pid = s.stateOf pid := by
  unfold terminateProcess
  split
  · rfl
  · have first : (s.modifyProcess id Process.terminate).stateOf pid = s.stateOf pid :=
      stateOfModifyProcessFixed fun _ _ same => absurd same differ
    have kept : (s.modifyProcess id Process.terminate).taskMap pid = s.taskMap pid := by
      simp [modifyProcess, differ]
    rw [stateOfModifyProcessFixed fun e found _ => fixed e (kept ▸ found), first]

theorem stateOfTerminateProcessParent {s : Kernel} {c : Nat} {e : Entry} (exitCode : UInt32)
    (found : s.taskMap c = some e) (notSelf : e.process.parentId ≠ c) :
    (terminateProcess s c exitCode).stateOf e.process.parentId = (s.stateOf e.process.parentId).map fun st =>
      if st = .waitingForChild none ∨ st = .waitingForChild (some c) then .resumed exitCode else st := by
  have untouched : (s.modifyProcess c Process.terminate).taskMap e.process.parentId = s.taskMap e.process.parentId := by
    simp [modifyProcess, notSelf]
  simp only [terminateProcess, found]
  rw [stateOfModifyProcess, if_pos rfl, untouched]
  cases parent : s.taskMap e.process.parentId <;> simp [stateOf, parent, Process.stateChildReturned]

theorem stateOfInWait {e : Entry} (placed : e.Placed) (inWait : e.inWait = true) :
    (∃ w, e.process.state = .waitingForChild w) ∨ (∃ code, e.process.state = .resumed code) ∨
      e.process.state = .terminated := by
  unfold Entry.Placed at placed
  cases hstate : e.process.state <;> simp [hstate, RunState.place, inWait] at placed ⊢

theorem resumedStays {s t : Kernel} {a : Action} {pid : Nat} {code : UInt32} (c : Coherent s)
    (resumed : s.stateOf pid = some (.resumed code)) (other : a ≠ .resumeFromWait pid) (ok : step s a = some t) :
    t.stateOf pid = some (.resumed code) ∨ t.stateOf pid = some .terminated := by
  obtain ⟨e, found, state⟩ := Option.map_eq_some_iff.mp resumed
  have idle : s.scheduled pid = none := notScheduledInside c found (by simp [state, RunState.place])
  have notWaiting : ∀ e', s.taskMap pid = some e' → ∀ w, e'.process.state ≠ .waitingForChild w := by
    intro e' found' w; rw [found] at found'; cases found'; simp [state]
  have below : pid < s.nextId := Nat.lt_of_not_le fun beyond => by simp [c.fresh pid beyond] at found
  have actor : ∀ q e', s.scheduled q = some e' → pid ≠ q := fun q e' sched same => by
    rw [← same, idle] at sched; cases sched
  cases a with
  | fork parent =>
    left
    obtain ⟨e', -, rfl⟩ := Option.map_eq_some_iff.mp ok
    rw [stateOfFork _ _ (by omega), resumed]
  | wait q childId =>
    left
    obtain ⟨e', sched, rfl⟩ := Option.map_eq_some_iff.mp ok
    rw [stateOfModifyOther _ _ (actor q e' sched), resumed]
  | resumeFromWait q =>
    left
    have differ : pid ≠ q := fun same => other (by rw [same])
    obtain ⟨-, -, -, -, rfl⟩ := stepResumeFromWait ok
    exact (stateOfModifyOther s _ differ).trans resumed
  | sleep q duration =>
    left
    obtain ⟨e', sched, rfl⟩ := Option.map_eq_some_iff.mp ok
    rw [stateOfModifyProcessFixed fun _ _ same => absurd same (actor q e' sched), resumed]
  | ipcRead q timeout =>
    left
    obtain ⟨e', sched, rfl⟩ := Option.map_eq_some_iff.mp ok
    rw [stateOfModifyProcessFixed fun _ _ same => absurd same (actor q e' sched), resumed]
  | ipcSend sender receiver =>
    left
    obtain ⟨-, -, rfl⟩ := Option.map_eq_some_iff.mp ok
    rw [stateOfModifyProcessFixed fun e' found' _ => by
      rw [found] at found'; cases found'; exact Process.ipcReceiveFixed (by simp [state]), resumed]
  | tick deltaMs =>
    left
    cases ok
    rw [stateOfUpdateTimeoutsFixed deltaMs fun e' found' => by
      rw [found] at found'; cases found'
      exact Process.updateTimeoutsFixed (by simp [state]) (by simp [state]) _, resumed]
  | terminate q exitCode =>
    left
    obtain ⟨e', sched, rfl⟩ := Option.map_eq_some_iff.mp ok
    rw [stateOfTerminateProcessOther exitCode (actor q e' sched)
      fun e'' found' => Process.childReturnedFixed (notWaiting e'' found') _ _, resumed]
  | signal receiver =>
    cases ok
    by_cases same : pid = receiver
    · right
      rw [same, stateOfTerminateProcessSelf, ← same, resumed]
      rfl
    · left
      rw [stateOfTerminateProcessOther 0 same fun e'' found' => Process.childReturnedFixed (notWaiting e'' found') _ _,
        resumed]
  | cleanUp q =>
    left
    obtain ⟨e', found', ended, rfl⟩ := stepCleanUp ok
    have differ : pid ≠ q := by
      rintro rfl; rw [found] at found'; cases found'; simp [Process.isTerminated, state] at ended
    rw [stateOfCleanUp _ differ, resumed]

theorem resumeFromWaitReturns {s t : Kernel} {pid : Nat} (c : Coherent s) (ok : step s (.resumeFromWait pid) = some t) :
    ∃ code, s.stateOf pid = some (.resumed code) ∧ t.returned = s.returned ++ [(pid, code)] ∧
      t.stateOf pid = some .running ∧ (t.taskMap pid).map (·.inWait) = some false := by
  obtain ⟨e, found, inWait, ready, rfl⟩ := stepResumeFromWait ok
  obtain ⟨code, resumed⟩ := resumedOfInWait (c.placed pid e found) inWait ready
  refine ⟨code, by simp [stateOf, found, resumed], by simp [Process.resumeFromWait, resumed], ?_, ?_⟩
  · simp [stateOf, found, Process.resumeFromWait, resumed]
  · simp [found]

theorem waitReturnsDeliveredCodeOnce {s : Kernel} (reached : Machine.Reachable step initial s) :
    (∀ pid e, s.taskMap pid = some e → e.inWait = true →
      (∃ w, e.process.state = .waitingForChild w) ∨ (∃ code, e.process.state = .resumed code) ∨
        e.process.state = .terminated) ∧
    (∀ c e exitCode, s.taskMap c = some e → e.process.parentId ≠ c →
      (terminateProcess s c exitCode).stateOf e.process.parentId = (s.stateOf e.process.parentId).map fun st =>
        if st = .waitingForChild none ∨ st = .waitingForChild (some c) then .resumed exitCode else st) ∧
    (∀ pid code a t, s.stateOf pid = some (.resumed code) → a ≠ .resumeFromWait pid → step s a = some t →
      t.stateOf pid = some (.resumed code) ∨ t.stateOf pid = some .terminated) ∧
    (∀ pid t, step s (.resumeFromWait pid) = some t → ∃ code, s.stateOf pid = some (.resumed code) ∧
      t.returned = s.returned ++ [(pid, code)] ∧ t.stateOf pid = some .running ∧
        (t.taskMap pid).map (·.inWait) = some false) := by
  have c := reachableCoherent reached
  exact ⟨fun pid e found inWait => stateOfInWait (c.placed pid e found) inWait,
    fun _ _ exitCode found notSelf => stateOfTerminateProcessParent exitCode found notSelf,
    fun _ _ _ _ resumed other ok => resumedStays c resumed other ok,
    fun _ _ ok => resumeFromWaitReturns c ok⟩

theorem waitReturnsDeliveredCodeAfterFork :
    let s := (Machine.run step initial [.fork 0, .wait 0 (some 1)]).getD initial
    (∀ pid e, s.taskMap pid = some e → e.inWait = true →
      (∃ w, e.process.state = .waitingForChild w) ∨ (∃ code, e.process.state = .resumed code) ∨
        e.process.state = .terminated) ∧
    (∀ c e exitCode, s.taskMap c = some e → e.process.parentId ≠ c →
      (terminateProcess s c exitCode).stateOf e.process.parentId = (s.stateOf e.process.parentId).map fun st =>
        if st = .waitingForChild none ∨ st = .waitingForChild (some c) then .resumed exitCode else st) ∧
    (∀ pid code a t, s.stateOf pid = some (.resumed code) → a ≠ .resumeFromWait pid → step s a = some t →
      t.stateOf pid = some (.resumed code) ∨ t.stateOf pid = some .terminated) ∧
    (∀ pid t, step s (.resumeFromWait pid) = some t → ∃ code, s.stateOf pid = some (.resumed code) ∧
      t.returned = s.returned ++ [(pid, code)] ∧ t.stateOf pid = some .running ∧
        (t.taskMap pid).map (·.inWait) = some false) :=
  waitReturnsDeliveredCodeOnce (@Machine.reachableFromInit _ _ step initial _ [.fork 0, .wait 0 (some 1)] rfl)

/-! ### A termination before the wait is lost -/

structure Blocked (parent child : Nat) (s : Kernel) : Prop where
  waiting : s.stateOf parent = some (.waitingForChild (some child))
  inWait : (s.taskMap parent).map (·.inWait) = some true
  gone : s.stateOf child = none ∨ s.stateOf child = some .terminated
  parentBelow : parent < s.nextId
  childBelow : child < s.nextId

theorem blockedOfSame {parent child : Nat} {s t : Kernel} (b : Blocked parent child s)
    (sameParent : t.stateOf parent = s.stateOf parent)
    (sameThread : (t.taskMap parent).map (·.inWait) = (s.taskMap parent).map (·.inWait))
    (sameChild : t.stateOf child = s.stateOf child ∨ t.stateOf child = none) (grown : s.nextId ≤ t.nextId) :
    Blocked parent child t := by
  refine ⟨sameParent.trans b.waiting, sameThread.trans b.inWait, ?_, by have := b.parentBelow; omega,
    by have := b.childBelow; omega⟩
  rcases sameChild with same | removed
  · exact same ▸ b.gone
  · exact .inl removed

theorem blockedModifyOther {parent child q : Nat} {s : Kernel} (b : Blocked parent child s) (f : Entry → Entry)
    (differParent : parent ≠ q) (differChild : child ≠ q) : Blocked parent child (s.modify q f) :=
  blockedOfSame b (stateOfModifyOther _ _ differParent) (inWaitModifyOther _ _ differParent)
    (.inl (stateOfModifyOther _ _ differChild)) (Nat.le_refl _)

theorem blockedStep {parent child : Nat} {s t : Kernel} {a : Action} (b : Blocked parent child s)
    (quiet : a.isSignal = false) (ok : step s a = some t) : Blocked parent child t := by
  have idleParent := scheduledNoneOfInWait b.inWait
  have idleChild := scheduledNoneOfGone b.gone
  have actor : ∀ q e, s.scheduled q = some e → parent ≠ q ∧ child ≠ q := by
    intro q e sched
    refine ⟨?_, ?_⟩ <;> rintro rfl
    · rw [idleParent] at sched; cases sched
    · rw [idleChild] at sched; cases sched
  obtain ⟨parentEntry, parentFound, parentState⟩ := Option.map_eq_some_iff.mp b.waiting
  have childEnded : ∀ e, s.taskMap child = some e → e.process.state = .terminated := by
    intro e found
    rcases b.gone with gone | gone <;> simp [stateOf, found] at gone
    exact gone
  have childFixed : ∀ (f : Process → Process), (∀ p, p.state = .terminated → (f p).state = p.state) →
      ∀ q, (s.modifyProcess q f).stateOf child = s.stateOf child := fun f fixes q =>
    stateOfModifyProcessFixed fun e found _ => fixes e.process (childEnded e found)
  have parentFixed : ∀ (f : Process → Process), (∀ p, p.state = .waitingForChild (some child) → (f p).state = p.state) →
      ∀ q, (s.modifyProcess q f).stateOf parent = s.stateOf parent := fun f fixes q =>
    stateOfModifyProcessFixed fun e found _ => by
      rw [parentFound] at found; cases found; exact fixes _ parentState
  cases a with
  | fork q =>
    obtain ⟨e, -, rfl⟩ := Option.map_eq_some_iff.mp ok
    have differParent : parent ≠ s.nextId := by have := b.parentBelow; omega
    exact blockedOfSame b (stateOfFork _ _ differParent) (by simp [fork, differParent])
      (.inl (stateOfFork _ _ (by have := b.childBelow; omega))) (by simp [fork])
  | wait q childId =>
    obtain ⟨e, sched, rfl⟩ := Option.map_eq_some_iff.mp ok
    obtain ⟨differParent, differChild⟩ := actor q e sched
    exact blockedModifyOther b _ differParent differChild
  | resumeFromWait q =>
    obtain ⟨e, found, -, ready, rfl⟩ := stepResumeFromWait ok
    have differParent : parent ≠ q := by
      rintro rfl; rw [parentFound] at found; cases found
      simp [Process.canResume, parentState] at ready
    have differChild : child ≠ q := by
      rintro rfl; simp [Process.canResume, childEnded e found] at ready
    exact blockedOfSame b (stateOfModifyOther _ _ differParent) (inWaitModifyOther _ _ differParent)
      (.inl (stateOfModifyOther _ _ differChild)) (Nat.le_refl _)
  | sleep q duration =>
    obtain ⟨e, sched, rfl⟩ := Option.map_eq_some_iff.mp ok
    obtain ⟨differParent, differChild⟩ := actor q e sched
    exact blockedModifyOther b _ differParent differChild
  | ipcRead q timeout =>
    obtain ⟨e, sched, rfl⟩ := Option.map_eq_some_iff.mp ok
    obtain ⟨differParent, differChild⟩ := actor q e sched
    exact blockedModifyOther b _ differParent differChild
  | ipcSend sender receiver =>
    obtain ⟨-, -, rfl⟩ := Option.map_eq_some_iff.mp ok
    exact blockedOfSame b (parentFixed _ (fun p waiting => Process.ipcReceiveFixed (by simp [waiting])) _)
      (inWaitModifyProcess _ _ _ _) (.inl (childFixed _ (fun p ended => Process.ipcReceiveFixed (by simp [ended])) _))
      (Nat.le_refl _)
  | tick deltaMs =>
    cases ok
    refine blockedOfSame b ?_ (by simp [updateTimeouts, Function.comp_def]) (.inl ?_) (Nat.le_refl _)
    · exact stateOfUpdateTimeoutsFixed deltaMs fun e found => by
        rw [parentFound] at found; cases found
        exact Process.updateTimeoutsFixed (by simp [parentState]) (by simp [parentState]) _
    · exact stateOfUpdateTimeoutsFixed deltaMs fun e found =>
        Process.updateTimeoutsFixed (by simp [childEnded e found]) (by simp [childEnded e found]) _
  | terminate q exitCode =>
    obtain ⟨e, sched, rfl⟩ := Option.map_eq_some_iff.mp ok
    obtain ⟨differParent, differChild⟩ := actor q e sched
    refine blockedOfSame b (stateOfTerminateProcessOther exitCode differParent fun e' found => ?_)
      (inWaitTerminateProcess _ _ _ _)
      (.inl (stateOfTerminateProcessOther exitCode differChild fun e' found =>
        Process.childReturnedFixed (by simp [childEnded e' found]) _ _)) (Nat.le_of_eq (nextIdTerminateProcess _ _ _).symm)
    rw [parentFound] at found; cases found
    rw [Process.stateChildReturned, if_neg]
    rintro (waiting | waiting) <;> rw [parentState] at waiting <;> cases waiting
    exact differChild rfl
  | signal receiver => cases quiet
  | cleanUp q =>
    obtain ⟨e, found, ended, rfl⟩ := stepCleanUp ok
    have differParent : parent ≠ q := by
      rintro rfl; rw [parentFound] at found; cases found
      simp [Process.isTerminated, parentState] at ended
    refine blockedOfSame b (stateOfCleanUp _ differParent) (by simp [cleanUpProcess, differParent]) ?_ (Nat.le_refl _)
    by_cases same : child = q
    · right; simp [cleanUpProcess, stateOf, same]
    · exact .inl (stateOfCleanUp _ same)

theorem childExitBeforeWaitIsLost :
    ∃ s, Machine.Reachable step initial s ∧ s.stateOf 0 = some (.waitingForChild (some 1)) ∧
      s.stateOf 1 = some .terminated ∧
      ∀ actions t, (∀ a ∈ actions, a.isSignal = false) → Machine.run step s actions = some t →
        t.stateOf 0 = some (.waitingForChild (some 1)) := by
  have trace : Machine.run step initial [.fork 0, .terminate 1 7, .wait 0 (some 1)] =
      some ((Machine.run step initial [.fork 0, .terminate 1 7, .wait 0 (some 1)]).getD initial) := rfl
  refine ⟨_, Machine.reachableFromInit trace, rfl, rfl, fun actions t quiet ok => ?_⟩
  have start : Blocked 0 1 ((Machine.run step initial [.fork 0, .terminate 1 7, .wait 0 (some 1)]).getD initial) :=
    ⟨rfl, rfl, .inr rfl, by decide, by decide⟩
  exact (Machine.runPreserves start quiet (fun _ _ _ b quiet' ok' => blockedStep b quiet' ok') ok).waiting

end ImmDosNx.Task
