import Mathlib.Logic.Basic

/-! The run state of a process and the methods of `Process` that change it
(`task/state.rs`, `task/process.rs`). A process id is a number; only the fields
these methods read are kept: the id, the parent's id and the run state. -/
namespace ImmDosNx.Task

inductive RunState where
  | running
  | terminated
  | sleeping (duration : Nat)
  | paused
  | awaitingIPC (timeout : Option Nat)
  | waitingForChild (childId : Option Nat)
  | resumed (code : UInt32)
  | handlingSignal (signal : UInt32)
  | handlingInterrupt (interrupt : UInt32)
  | fileIo (timeout : Option Nat)
  | hardwareIo (timeout : Option Nat)
  deriving DecidableEq, Repr

structure Process where
  id : Nat
  parentId : Nat
  state : RunState
  deriving DecidableEq, Repr

namespace Process

def initial : Process := ⟨0, 0, .running⟩

def createFork (p : Process) (newId : Nat) : Process := ⟨newId, p.id, .running⟩

def canResume (p : Process) : Bool :=
  match p.state with
  | .running | .resumed _ => true
  | _ => false

def isTerminated (p : Process) : Bool := p.state == .terminated

def terminate (p : Process) : Process := { p with state := .terminated }

def sleep (p : Process) (duration : Nat) : Process := { p with state := .sleeping duration }

def wait (p : Process) (childId : Option Nat) : Process := { p with state := .waitingForChild childId }

def resumeFromWait (p : Process) : Process × UInt32 :=
  match p.state with
  | .resumed code => ({ p with state := .running }, code)
  | _ => (p, 0)

def childReturned (p : Process) (childId : Nat) (code : UInt32) : Process :=
  match p.state with
  | .waitingForChild none => { p with state := .resumed code }
  | .waitingForChild (some id) => if id == childId then { p with state := .resumed code } else p
  | _ => p

def hardwareBlock (p : Process) (timeout : Option Nat) : Process := { p with state := .hardwareIo timeout }

def hardwareResume (p : Process) : Process :=
  match p.state with
  | .hardwareIo _ => { p with state := .running }
  | _ => p

def ipcBlock (p : Process) (timeout : Option Nat) : Process := { p with state := .awaitingIPC timeout }

def ipcReceive (p : Process) : Process :=
  match p.state with
  | .awaitingIPC _ => { p with state := .running }
  | _ => p

def updateTimeouts (p : Process) (deltaMs : Nat) : Process :=
  match p.state with
  | .awaitingIPC (some timeout) =>
    { p with state := if timeout < deltaMs then .running else .awaitingIPC (some (timeout - deltaMs)) }
  | .sleeping timeout =>
    { p with state := if timeout < deltaMs then .running else .sleeping (timeout - deltaMs) }
  | _ => p

theorem stateChildReturned (p : Process) (childId : Nat) (code : UInt32) :
    (p.childReturned childId code).state =
      if p.state = .waitingForChild none ∨ p.state = .waitingForChild (some childId) then .resumed code
      else p.state := by
  unfold childReturned
  split
  · next waiting => simp [waiting]
  · next id waiting =>
    by_cases same : id = childId
    · simp [waiting, same]
    · simp [waiting, same]
  · next notAny notThat =>
    rw [if_neg]
    rintro (waiting | waiting)
    · exact notAny waiting
    · exact notThat _ waiting

theorem stateUpdateTimeouts (p : Process) (deltaMs : Nat) :
    (p.updateTimeouts deltaMs).state = p.state ∨
      (∃ timeout, p.state = .awaitingIPC (some timeout)) ∨ ∃ timeout, p.state = .sleeping timeout := by
  unfold updateTimeouts
  split
  · next timeout waiting => exact .inr (.inl ⟨timeout, waiting⟩)
  · next timeout asleep => exact .inr (.inr ⟨timeout, asleep⟩)
  · exact .inl rfl

theorem stateIpcReceive (p : Process) :
    (p.ipcReceive).state = p.state ∨ ∃ timeout, p.state = .awaitingIPC timeout := by
  unfold ipcReceive
  split
  · next timeout waiting => exact .inr ⟨timeout, waiting⟩
  · exact .inl rfl

end Process

end ImmDosNx.Task
