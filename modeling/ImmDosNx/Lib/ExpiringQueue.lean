import Mathlib

/-! A FIFO queue whose items expire and are cleaned lazily: only when the queue is
used, and only from the front, up to the first item still live. An expired item may
wait behind a live one. The specification keeps every item added and the indexes
delivered; a take delivers the oldest item neither delivered nor expired. While time
does not go back, the queue is the log's items from some index on, none of them
delivered, and every item before that index was delivered or has expired. -/
namespace ExpiringQueue

variable {α τ : Type} [LinearOrder τ] (deadline : α → τ)

def prune (now : τ) : List α → List α
  | [] => []
  | a :: rest => if now < deadline a then a :: rest else prune now rest

structure Log (α : Type) where
  sent : List α
  delivered : List Nat
  deriving DecidableEq, Repr

namespace Log

def add (log : Log α) (a : α) : Log α := { log with sent := log.sent ++ [a] }

def Live (log : Log α) (now : τ) (i : Nat) (a : α) : Prop := i ∉ log.delivered ∧ now < deadline a

instance (log : Log α) (now : τ) (i : Nat) (a : α) : Decidable (log.Live deadline now i a) :=
  inferInstanceAs (Decidable (_ ∧ _))

def oldestLive (log : Log α) (now : τ) : Option (α × Nat) :=
  log.sent.zipIdx.find? fun entry => decide (log.Live deadline now entry.2 entry.1)

def take (log : Log α) (now : τ) : Log α × Option α × Bool :=
  match log.oldestLive deadline now with
  | none => (log, none, false)
  | some (a, i) => ({ log with delivered := log.delivered ++ [i] }, some a,
      log.sent.zipIdx.any fun entry => decide (i < entry.2 ∧ entry.2 ∉ log.delivered))

end Log

/-- The queue holds the log's items from `start` on, none of them delivered; each item before `start` was
delivered or has expired by `now`. -/
structure Suffix (log : Log α) (now : τ) (start : Nat) (queue : List α) : Prop where
  within : start ≤ log.sent.length
  items : queue = log.sent.drop start
  pending : ∀ i, start ≤ i → i ∉ log.delivered
  dead : ∀ i (h : i < log.sent.length), i < start → i ∈ log.delivered ∨ deadline log.sent[i] ≤ now

theorem pruneDrop (now : τ) (l : List α) :
    ∃ m ≤ l.length, prune deadline now l = l.drop m ∧
      (∀ j (h : j < l.length), j < m → deadline l[j] ≤ now) ∧ ∀ h : m < l.length, now < deadline l[m] := by
  induction l with
  | nil => exact ⟨0, Nat.le_refl 0, rfl, fun j h _ => absurd h (Nat.not_lt_zero j), fun h => absurd h (Nat.lt_irrefl 0)⟩
  | cons a rest ih =>
    by_cases live : now < deadline a
    · exact ⟨0, Nat.zero_le _, by simp [prune, live], fun j _ before => absurd before (Nat.not_lt_zero j),
        fun _ => live⟩
    · obtain ⟨m, fewer, pruned, expired, front⟩ := ih
      refine ⟨m + 1, by simpa using fewer, by simp [prune, live, pruned], fun j h before => ?_, fun h => front _⟩
      cases j with
      | zero => exact not_lt.mp live
      | succ j => exact expired j _ (by omega)

variable {deadline}

theorem Suffix.later {log : Log α} {now t : τ} {start : Nat} {queue : List α}
    (s : Suffix deadline log now start queue) (later : now ≤ t) : Suffix deadline log t start queue :=
  ⟨s.within, s.items, s.pending, fun i h before => (s.dead i h before).imp_right (le_trans · later)⟩

theorem Suffix.pruneLater {log : Log α} {now t : τ} {start : Nat} {queue : List α}
    (s : Suffix deadline log now start queue) (later : now ≤ t) :
    ∃ start', Suffix deadline log t start' (prune deadline t queue) ∧
      ∀ h : start' < log.sent.length, t < deadline log.sent[start'] := by
  obtain ⟨m, fewer, pruned, expired, front⟩ := pruneDrop deadline t queue
  have within := s.within
  have items := s.items
  subst items
  simp only [List.length_drop, List.getElem_drop] at fewer expired front
  refine ⟨start + m, ⟨by omega, by rw [pruned, List.drop_drop], fun i far => s.pending i (by omega),
    fun i h before => ?_⟩, fun h => front (by omega)⟩
  by_cases old : i < start
  · exact (s.later later).dead i h old
  · have := expired (i - start) (by omega) (by omega)
    simp only [Nat.add_sub_cancel' (Nat.le_of_not_lt old)] at this
    exact .inr this

theorem Suffix.add {log : Log α} {now : τ} {start : Nat} {queue : List α}
    (s : Suffix deadline log now start queue) (a : α) : Suffix deadline (log.add a) now start (queue ++ [a]) := by
  have within := s.within
  refine ⟨by simp [Log.add]; omega, by simp [Log.add, s.items, List.drop_append_of_le_length within],
    s.pending, fun i h before => ?_⟩
  have old : i < log.sent.length := by omega
  simpa [Log.add, List.getElem_append_left old] using s.dead i old before

namespace Log

variable {log : Log α} {now : τ}

theorem oldestLiveSome {a : α} {i : Nat} :
    log.oldestLive deadline now = some (a, i) ↔
      ∃ h : i < log.sent.length, log.sent[i] = a ∧ log.Live deadline now i a ∧
        ∀ j (hj : j < i), ¬ log.Live deadline now j log.sent[j] := by
  rw [oldestLive, List.find?_eq_some_iff_getElem]
  constructor
  · rintro ⟨live, k, h, entry, before⟩
    simp only [List.getElem_zipIdx, Nat.zero_add, Prod.mk.injEq] at entry
    obtain ⟨item, rfl⟩ := entry
    refine ⟨by simpa using h, item, by simpa using live, fun j hj => ?_⟩
    simpa [List.getElem_zipIdx] using before j hj
  · rintro ⟨h, item, live, before⟩
    refine ⟨by simpa using live, i, by simpa using h, by simp [List.getElem_zipIdx, item], fun j hj => ?_⟩
    simpa [List.getElem_zipIdx] using before j hj

theorem oldestLiveNone :
    log.oldestLive deadline now = none ↔ ∀ i (h : i < log.sent.length), ¬ log.Live deadline now i log.sent[i] := by
  rw [oldestLive, List.find?_eq_none]
  constructor
  · intro none i h live
    exact none (log.sent[i], i) (List.mem_zipIdx_iff_getElem?.mpr (by simp)) (by simpa using live)
  · rintro none ⟨a, i⟩ mem live
    obtain ⟨h, item⟩ := List.getElem?_eq_some_iff.mp (List.mem_zipIdx_iff_getElem?.mp mem)
    exact none i h (item ▸ by simpa using live)

theorem takeItem : (log.take deadline now).2.1 = (log.oldestLive deadline now).map Prod.fst := by
  unfold take
  split
  · next none => rw [none]; rfl
  · next a i oldest => rw [oldest]; rfl

theorem takeNodup (nodup : log.delivered.Nodup) : (log.take deadline now).1.delivered.Nodup := by
  unfold take
  split
  · exact nodup
  · next a i oldest =>
    obtain ⟨-, -, ⟨fresh, -⟩, -⟩ := oldestLiveSome.mp oldest
    refine List.nodup_append.mpr ⟨nodup, List.nodup_cons.mpr ⟨List.not_mem_nil, List.nodup_nil⟩, fun j mem k single => ?_⟩
    rw [List.mem_singleton.mp single]
    exact ne_of_mem_of_not_mem mem fresh

end Log

theorem Suffix.notLive {log : Log α} {now : τ} {start : Nat} {queue : List α}
    (s : Suffix deadline log now start queue) (j : Nat) (h : j < log.sent.length) (before : j < start) :
    ¬ log.Live deadline now j log.sent[j] := fun ⟨fresh, alive⟩ =>
  (s.dead j h before).elim fresh (not_lt.mpr · alive)

theorem Suffix.anyLater {log : Log α} {now : τ} {start : Nat} {queue : List α}
    (s : Suffix deadline log now start queue) :
    (log.sent.zipIdx.any fun entry => decide (start < entry.2 ∧ entry.2 ∉ log.delivered)) =
      !(log.sent.drop (start + 1)).isEmpty := by
  apply Bool.eq_iff_iff.mpr
  simp only [List.any_eq_true, decide_eq_true_eq, Bool.not_eq_true', List.isEmpty_eq_false_iff, ne_eq,
    List.drop_eq_nil_iff]
  constructor
  · rintro ⟨⟨a, i⟩, mem, later, -⟩
    obtain ⟨h, -⟩ := List.getElem?_eq_some_iff.mp (List.mem_zipIdx_iff_getElem?.mp mem)
    omega
  · intro inside
    exact ⟨(log.sent[start + 1], start + 1), List.mem_zipIdx_iff_getElem?.mpr (by simp),
      Nat.lt_succ_self start, s.pending _ (Nat.le_succ start)⟩

theorem Suffix.take {log : Log α} {now t : τ} {start : Nat} {queue : List α}
    (s : Suffix deadline log now start queue) (later : now ≤ t) :
    ∃ start', Suffix deadline (log.take deadline t).1 t start' (prune deadline t queue).tail ∧
      (log.take deadline t).2 = ((prune deadline t queue).head?, !(prune deadline t queue).tail.isEmpty) := by
  obtain ⟨start', s', front⟩ := s.pruneLater later
  generalize prune deadline t queue = pruned at s' ⊢
  rcases Nat.lt_or_ge start' log.sent.length with inside | atEnd
  · have oldest : log.oldestLive deadline t = some (log.sent[start'], start') :=
      Log.oldestLiveSome.mpr ⟨inside, rfl, ⟨s'.pending _ (Nat.le_refl _), front inside⟩, fun j hj => s'.notLive j _ hj⟩
    have items : pruned = log.sent[start'] :: log.sent.drop (start' + 1) := by
      rw [s'.items, List.drop_eq_getElem_cons inside]
    have taken : log.take deadline t = ({ log with delivered := log.delivered ++ [start'] }, some log.sent[start'],
        !(log.sent.drop (start' + 1)).isEmpty) := by
      simp only [Log.take, oldest]
      rw [s'.anyLater]
    rw [taken, items]
    refine ⟨start' + 1, ⟨inside, rfl, fun i far => ?_, fun i h before => ?_⟩, rfl⟩
    · simpa using ⟨s'.pending i (by omega), by omega⟩
    · rcases Nat.lt_or_ge i start' with old | same
      · simpa using (s'.dead i h old).imp_left Or.inl
      · simp [show i = start' by omega]
  · have none : log.oldestLive deadline t = none :=
      Log.oldestLiveNone.mpr fun i h => s'.notLive i h (by omega)
    have empty : pruned = [] := by rw [s'.items, List.drop_eq_nil_of_le atEnd]
    exact ⟨start', by simpa [Log.take, none, empty] using s', by simp [Log.take, none, empty]⟩

end ExpiringQueue
