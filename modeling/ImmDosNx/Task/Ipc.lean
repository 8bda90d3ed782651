import Mathlib.Data.Nat.Basic
import ImmDosNx.Lib.ExpiringQueue
import ImmDosNx.Lib.Run
import ImmDosNx.Task.Process

/-! The IPC queue of a process (`task/ipc.rs`). A message sent to a process waits in
its queue with an expiration time in system ticks. Expired entries are removed only
when the queue is used, and only from the front, so an expired entry can wait behind
one that is live. `Process::ipc_read` and `ipc_receive` call `read` and `add` with the
current tick. While the ticks do not go back, the queue refines a log of every message
sent: a read delivers the oldest message neither delivered nor expired, and no message
twice. -/
namespace ImmDosNx.Ipc

structure IPCMessage where
  first : UInt32
  second : UInt32
  third : UInt32
  fourth : UInt32
  deriving DecidableEq, Repr

structure IPCPacket where
  sender : Nat
  message : IPCMessage
  deriving DecidableEq, Repr

structure EnqueuedIPC where
  packet : IPCPacket
  expirationTicks : UInt32
  deriving DecidableEq, Repr

structure IPCQueue where
  queue : List EnqueuedIPC
  deriving DecidableEq, Repr

namespace IPCQueue

def new : IPCQueue := ⟨[]⟩

def removeExpiredEntries (currentTicks : UInt32) : List EnqueuedIPC → List EnqueuedIPC
  | [] => []
  | entry :: rest =>
    if entry.expirationTicks > currentTicks then entry :: rest else removeExpiredEntries currentTicks rest

def add (q : IPCQueue) (sender : Nat) (message : IPCMessage) (currentTicks expirationTicks : UInt32) : IPCQueue :=
  ⟨removeExpiredEntries currentTicks q.queue ++ [⟨⟨sender, message⟩, expirationTicks⟩]⟩

def read (q : IPCQueue) (currentTicks : UInt32) : IPCQueue × Option IPCPacket × Bool :=
  let queue := removeExpiredEntries currentTicks q.queue
  (⟨queue.tail⟩, queue.head?.map (·.packet), !queue.tail.isEmpty)

end IPCQueue

inductive Call
  | add (sender : Nat) (message : IPCMessage) (currentTicks expirationTicks : UInt32)
  | read (currentTicks : UInt32)
  deriving DecidableEq, Repr

def Call.ticks : Call → UInt32
  | .add _ _ currentTicks _ => currentTicks
  | .read currentTicks => currentTicks

inductive Reply
  | added
  | read (packet : Option IPCPacket) (hasMore : Bool)
  deriving DecidableEq, Repr

def IPCQueue.perform (q : IPCQueue) : Call → IPCQueue × Reply
  | .add sender message currentTicks expirationTicks => (q.add sender message currentTicks expirationTicks, .added)
  | .read currentTicks =>
    let (q, packet, hasMore) := q.read currentTicks
    (q, .read packet hasMore)

/-! ## The log of messages sent -/

def deadline (entry : EnqueuedIPC) : Nat := entry.expirationTicks.toNat

abbrev Sent := ExpiringQueue.Log EnqueuedIPC

def specPerform (log : Sent) : Call → Sent × Reply
  | .add sender message _ expirationTicks => (log.add ⟨⟨sender, message⟩, expirationTicks⟩, .added)
  | .read currentTicks =>
    let (log, entry, hasMore) := log.take deadline currentTicks.toNat
    (log, .read (entry.map (·.packet)) hasMore)

def Represents (now : UInt32) (q : IPCQueue) (log : Sent) : Prop :=
  (∃ start, ExpiringQueue.Suffix deadline log now.toNat start q.queue) ∧ log.delivered.Nodup

namespace IPCQueue

theorem removeExpiredEntriesEq (currentTicks : UInt32) (queue : List EnqueuedIPC) :
    removeExpiredEntries currentTicks queue = ExpiringQueue.prune deadline currentTicks.toNat queue := by
  induction queue with
  | nil => rfl
  | cons entry rest ih =>
    simp only [removeExpiredEntries, gt_iff_lt, UInt32.lt_iff_toNat_lt, ih]
    rfl

theorem performRepresents {now : UInt32} {q : IPCQueue} {log : Sent} (holds : Represents now q log) (call : Call)
    (later : now ≤ call.ticks) :
    Represents call.ticks (q.perform call).1 (specPerform log call).1 ∧ (q.perform call).2 = (specPerform log call).2 := by
  obtain ⟨⟨start, s⟩, nodup⟩ := holds
  rw [UInt32.le_iff_toNat_le] at later
  cases call with
  | add sender message currentTicks expirationTicks =>
    change now.toNat ≤ currentTicks.toNat at later
    obtain ⟨start', pruned, -⟩ := s.pruneLater later
    refine ⟨⟨⟨start', ?_⟩, nodup⟩, rfl⟩
    simpa [perform, specPerform, add, removeExpiredEntriesEq, Call.ticks] using pruned.add ⟨⟨sender, message⟩, expirationTicks⟩
  | read currentTicks =>
    change now.toNat ≤ currentTicks.toNat at later
    obtain ⟨start', taken, answered⟩ := s.take later
    refine ⟨⟨⟨start', by simpa [perform, specPerform, read, removeExpiredEntriesEq, Call.ticks] using taken⟩,
      ExpiringQueue.Log.takeNodup nodup⟩, ?_⟩
    simp [perform, specPerform, read, removeExpiredEntriesEq, answered]

theorem newRepresents : Represents 0 new ⟨[], []⟩ :=
  ⟨⟨0, Nat.le_refl 0, rfl, fun _ _ => List.not_mem_nil, fun i h => absurd h (Nat.not_lt_zero i)⟩, List.nodup_nil⟩

end IPCQueue

theorem specPerformRead (log : Sent) (currentTicks : UInt32) :
    (specPerform log (.read currentTicks)).2 =
      .read ((log.oldestLive deadline currentTicks.toNat).map (·.1.packet)) (log.take deadline currentTicks.toNat).2.2 := by
  simp only [specPerform, ExpiringQueue.Log.takeItem, Option.map_map]
  rfl

theorem liveIff {log : Sent} {currentTicks : UInt32} {i : Nat} {entry : EnqueuedIPC} :
    log.Live deadline currentTicks.toNat i entry ↔ i ∉ log.delivered ∧ currentTicks < entry.expirationTicks := by
  rw [ExpiringQueue.Log.Live, deadline, UInt32.lt_iff_toNat_lt]

theorem notLiveIff {log : Sent} {currentTicks : UInt32} {i : Nat} {entry : EnqueuedIPC} :
    ¬ log.Live deadline currentTicks.toNat i entry ↔ i ∈ log.delivered ∨ entry.expirationTicks ≤ currentTicks := by
  rw [liveIff, not_and_or, not_not, UInt32.not_lt]

theorem specReadSome {log : Sent} {currentTicks : UInt32} {packet : IPCPacket} {hasMore : Bool}
    (replied : (specPerform log (.read currentTicks)).2 = .read (some packet) hasMore) :
    ∃ i, ∃ h : i < log.sent.length, log.sent[i].packet = packet ∧ i ∉ log.delivered ∧
      currentTicks < log.sent[i].expirationTicks ∧
      ∀ j (hj : j < i), j ∈ log.delivered ∨ log.sent[j].expirationTicks ≤ currentTicks := by
  rw [specPerformRead, Reply.read.injEq, Option.map_eq_some_iff] at replied
  obtain ⟨⟨⟨entry, i⟩, oldest, same⟩, -⟩ := replied
  obtain ⟨h, item, live, before⟩ := ExpiringQueue.Log.oldestLiveSome.mp oldest
  subst item
  exact ⟨i, h, same, liveIff.mp live |>.1, liveIff.mp live |>.2, fun j hj => notLiveIff.mp (before j hj)⟩

theorem specReadNone {log : Sent} {currentTicks : UInt32} :
    (specPerform log (.read currentTicks)).2 = .read none false ↔
      ∀ i (h : i < log.sent.length), i ∈ log.delivered ∨ log.sent[i].expirationTicks ≤ currentTicks := by
  rw [specPerformRead, Reply.read.injEq, Option.map_eq_none_iff]
  constructor
  · rintro ⟨none, -⟩ i h
    exact notLiveIff.mp (ExpiringQueue.Log.oldestLiveNone.mp none i h)
  · intro dead
    have none := ExpiringQueue.Log.oldestLiveNone.mpr fun i h => notLiveIff.mpr (dead i h)
    simp [ExpiringQueue.Log.take, none]

/-! ## The process methods around the queue -/

/-- Models `Process::ipc_read`: with nothing to read, the process blocks until a message comes or the timeout runs
out. -/
def ipcRead (p : Task.Process) (q : IPCQueue) (currentTicks : UInt32) (timeout : Option Nat) :
    Task.Process × IPCQueue × Option IPCPacket × Bool :=
  let (q, firstRead, hasMore) := q.read currentTicks
  if firstRead.isSome then (p, q, firstRead, hasMore) else (p.ipcBlock timeout, q, none, false)

def ipcReceive (p : Task.Process) (q : IPCQueue) (currentTicks : UInt32) (sender : Nat) (message : IPCMessage)
    (expirationTicks : UInt32) : Task.Process × IPCQueue :=
  (p.ipcReceive, q.add sender message currentTicks expirationTicks)

theorem readPacket {now : UInt32} {q : IPCQueue} {log : Sent} (holds : Represents now q log)
    {currentTicks : UInt32} (later : now ≤ currentTicks) :
    (q.read currentTicks).2.1 = (log.oldestLive deadline currentTicks.toNat).map (·.1.packet) := by
  have answered := (IPCQueue.performRepresents holds (.read currentTicks) later).2
  rw [specPerformRead] at answered
  exact (Reply.read.inj answered).1

theorem ipcReadBlocks {now : UInt32} {q : IPCQueue} {log : Sent} (holds : Represents now q log) (p : Task.Process)
    {currentTicks : UInt32} (later : now ≤ currentTicks) (timeout : Option Nat) :
    (ipcRead p q currentTicks timeout).1 =
      if (log.oldestLive deadline currentTicks.toNat).isSome then p else p.ipcBlock timeout := by
  have packet := readPacket holds later
  unfold ipcRead
  simp only [packet, Option.isSome_map]
  split <;> rfl

theorem ipcQueueDeliversOldestLive :
    (∀ calls : List Call, (calls.map Call.ticks).Pairwise (· ≤ ·) →
      ∃ q log replies,
        Machine.runWith (fun q call => some (q.perform call)) IPCQueue.new calls = some (q, replies) ∧
        Machine.runWith (fun log call => some (specPerform log call)) ⟨[], []⟩ calls = some (log, replies) ∧
        log.delivered.Nodup) ∧
    (∀ (log : Sent) currentTicks packet hasMore,
      (specPerform log (.read currentTicks)).2 = .read (some packet) hasMore →
        ∃ i, ∃ h : i < log.sent.length, log.sent[i].packet = packet ∧ i ∉ log.delivered ∧
          currentTicks < log.sent[i].expirationTicks ∧
          ∀ j (hj : j < i), j ∈ log.delivered ∨ log.sent[j].expirationTicks ≤ currentTicks) ∧
    (∀ (log : Sent) currentTicks, (specPerform log (.read currentTicks)).2 = .read none false ↔
      ∀ i (h : i < log.sent.length), i ∈ log.delivered ∨ log.sent[i].expirationTicks ≤ currentTicks) := by
  refine ⟨fun calls monotone => ?_, fun _ _ _ _ replied => specReadSome replied, fun _ _ => specReadNone⟩
  obtain ⟨q, log, replies, concrete, abstract, _, holds⟩ :=
    Machine.runWithSimulationClocked Call.ticks Represents
      (fun _ _ _ call holds later => IPCQueue.performRepresents holds call later)
      IPCQueue.newRepresents calls (fun _ _ => UInt32.zero_le) monotone
  exact ⟨q, log, replies, concrete, abstract, holds.2⟩

theorem ipcQueueDeliversAddedMessage :
    let calls := [Call.add 1 ⟨1, 2, 3, 4⟩ 0 10, .read 5, .read 6]
    (calls.map Call.ticks).Pairwise (· ≤ ·) ∧
      ∃ q log replies,
        Machine.runWith (fun q call => some (q.perform call)) IPCQueue.new calls = some (q, replies) ∧
        Machine.runWith (fun log call => some (specPerform log call)) ⟨[], []⟩ calls = some (log, replies) ∧
        log.delivered.Nodup := by
  intro calls
  have monotone : (calls.map Call.ticks).Pairwise (· ≤ ·) := by decide
  exact ⟨monotone, ipcQueueDeliversOldestLive.1 calls monotone⟩

end ImmDosNx.Ipc
