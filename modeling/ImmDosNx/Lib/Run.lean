import Mathlib.Logic.Relation

/-! Runs of a deterministic, partial step function over labelled actions.
A nondeterministic choice of the environment (which frame an allocator hands
out, which process the scheduler picks) is part of the action label, so every
interleaving is one list of actions. The invariant rule is proved once here
and used by every state machine of the development. -/
namespace Machine

variable {σ α : Type}

def run (step : σ → α → Option σ) : σ → List α → Option σ
  | s, [] => some s
  | s, a :: rest => (step s a).bind (fun t => run step t rest)

inductive Reachable (step : σ → α → Option σ) (init : σ) : σ → Prop where
  | init : Reachable step init init
  | step {s t : σ} (a : α) (reached : Reachable step init s) (accepted : step s a = some t) :
      Reachable step init t

@[simp] theorem runNil (step : σ → α → Option σ) (s : σ) : run step s [] = some s := rfl

theorem runCons (step : σ → α → Option σ) (s : σ) (a : α) (rest : List α) :
    run step s (a :: rest) = (step s a).bind (fun t => run step t rest) := rfl

theorem reachableOfRun {step : σ → α → Option σ} {init s t : σ} {actions : List α}
    (reached : Reachable step init s) (ok : run step s actions = some t) : Reachable step init t := by
  induction actions generalizing s with
  | nil => cases Option.some.inj ok; exact reached
  | cons a rest ih =>
    cases h : step s a with
    | none => simp [runCons, h] at ok
    | some u =>
      simp only [runCons, h, Option.bind_some] at ok
      exact ih (.step a reached h) ok

theorem reachableFromInit {step : σ → α → Option σ} {init t : σ} {actions : List α}
    (ok : run step init actions = some t) : Reachable step init t :=
  reachableOfRun .init ok

theorem Reachable.invariant {step : σ → α → Option σ} {init s : σ} {inv : σ → Prop}
    (reached : Reachable step init s) (base : inv init)
    (preserve : ∀ s a t, inv s → step s a = some t → inv t) : inv s := by
  induction reached with
  | init => exact base
  | step a _ accepted ih => exact preserve _ a _ ih accepted

theorem runInvariant {step : σ → α → Option σ} {init t : σ} {inv : σ → Prop} {actions : List α}
    (ok : run step init actions = some t) (base : inv init)
    (preserve : ∀ s a t, inv s → step s a = some t → inv t) : inv t :=
  (reachableFromInit ok).invariant base preserve

theorem runPreserves {step : σ → α → Option σ} {inv : σ → Prop} {allowed : α → Prop} {s t : σ}
    {actions : List α} (start : inv s) (onlyAllowed : ∀ a ∈ actions, allowed a)
    (preserve : ∀ s a t, inv s → allowed a → step s a = some t → inv t)
    (ok : run step s actions = some t) : inv t := by
  induction actions generalizing s with
  | nil => cases Option.some.inj ok; exact start
  | cons a rest ih =>
    cases h : step s a with
    | none => simp [runCons, h] at ok
    | some u =>
      simp only [runCons, h, Option.bind_some] at ok
      exact ih (preserve s a u start (onlyAllowed a List.mem_cons_self) h)
        (fun b mem => onlyAllowed b (List.mem_cons_of_mem a mem)) ok

def runWith {β : Type} (step : σ → α → Option (σ × β)) : σ → List α → Option (σ × List β)
  | s, [] => some (s, [])
  | s, a :: rest => (step s a).bind fun (t, b) => (runWith step t rest).map fun (u, bs) => (u, b :: bs)

theorem runWithCons {β : Type} {step : σ → α → Option (σ × β)} {s u : σ} {a : α} {rest : List α}
    {answers : List β} (ok : runWith step s (a :: rest) = some (u, answers)) :
    ∃ t b bs, step s a = some (t, b) ∧ runWith step t rest = some (u, bs) ∧ answers = b :: bs := by
  simp only [runWith, Option.bind_eq_some_iff, Option.map_eq_some_iff, Prod.mk.injEq] at ok
  obtain ⟨⟨t, b⟩, first, ⟨u', bs⟩, rest, same, answered⟩ := ok
  exact ⟨t, b, bs, first, same ▸ rest, answered.symm⟩

theorem runWithInvariant {β : Type} {step : σ → α → Option (σ × β)} {inv : σ → Prop}
    {good keep : α → β → Prop} {s u : σ} {actions : List α} {answers : List β}
    (start : inv s) (preserve : ∀ s a t b, inv s → step s a = some (t, b) → keep a b → inv t ∧ good a b)
    (ok : runWith step s actions = some (u, answers)) (kept : ∀ p ∈ actions.zip answers, keep p.1 p.2) :
    inv u ∧ ∀ p ∈ actions.zip answers, good p.1 p.2 := by
  induction actions generalizing s answers with
  | nil =>
    simp only [runWith, Option.some.injEq, Prod.mk.injEq] at ok
    obtain ⟨same, _⟩ := ok
    exact ⟨same ▸ start, by simp⟩
  | cons a rest ih =>
    obtain ⟨t, b, bs, first, later, answered⟩ := runWithCons ok
    subst answered
    obtain ⟨next, goodFirst⟩ := preserve s a t b start first (kept (a, b) List.mem_cons_self)
    obtain ⟨atEnd, goodLater⟩ := ih next later fun p mem => kept p (List.mem_cons_of_mem (a, b) mem)
    refine ⟨atEnd, fun p mem => ?_⟩
    rcases List.mem_cons.mp mem with head | tail
    · subst head; exact goodFirst
    · exact goodLater p tail

theorem runWithRefines {τ β : Type} {step : σ → α → Option (σ × β)} {spec : τ → α → τ × β}
    (related : σ → τ → Prop)
    (simulate : ∀ s t a, related s t → ∃ s', step s a = some (s', (spec t a).2) ∧ related s' (spec t a).1)
    {s : σ} {t : τ} (start : related s t) (actions : List α) :
    ∃ s' t' answers, runWith step s actions = some (s', answers) ∧
      runWith (fun t a => some (spec t a)) t actions = some (t', answers) ∧ related s' t' := by
  induction actions generalizing s t with
  | nil => exact ⟨s, t, [], rfl, rfl, start⟩
  | cons a rest ih =>
    obtain ⟨next, stepped, related'⟩ := simulate s t a start
    obtain ⟨s', t', answers, concrete, abstract, atEnd⟩ := ih related'
    refine ⟨s', t', (spec t a).2 :: answers, ?_, ?_, atEnd⟩
    · simp [runWith, stepped, concrete]
    · simp [runWith, abstract]

theorem runWithSimulation {τ β : Type} {step : σ → α → σ × β} {spec : τ → α → τ × β} (related : σ → τ → Prop)
    (simulate : ∀ s t a, related s t → related (step s a).1 (spec t a).1 ∧ (step s a).2 = (spec t a).2)
    {s : σ} {t : τ} (start : related s t) (actions : List α) :
    ∃ s' t' answers, runWith (fun s a => some (step s a)) s actions = some (s', answers) ∧
      runWith (fun t a => some (spec t a)) t actions = some (t', answers) ∧ related s' t' := by
  refine runWithRefines related (fun s t a holds => ?_) start actions
  obtain ⟨next, answered⟩ := simulate s t a holds
  exact ⟨(step s a).1, by rw [← answered], next⟩

theorem runWithSimulationClocked {ω τ β : Type} [LE ω] {step : σ → α → σ × β} {spec : τ → α → τ × β}
    (clock : α → ω) (related : ω → σ → τ → Prop)
    (simulate : ∀ now s t a, related now s t → now ≤ clock a →
      related (clock a) (step s a).1 (spec t a).1 ∧ (step s a).2 = (spec t a).2)
    {now : ω} {s : σ} {t : τ} (start : related now s t) (actions : List α)
    (late : ∀ a ∈ actions, now ≤ clock a) (monotone : (actions.map clock).Pairwise (· ≤ ·)) :
    ∃ s' t' answers, runWith (fun s a => some (step s a)) s actions = some (s', answers) ∧
      runWith (fun t a => some (spec t a)) t actions = some (t', answers) ∧ ∃ now', related now' s' t' := by
  induction actions generalizing now s t with
  | nil => exact ⟨s, t, [], rfl, rfl, now, start⟩
  | cons a rest ih =>
    obtain ⟨next, answered⟩ := simulate now s t a start (late a List.mem_cons_self)
    rw [List.map_cons, List.pairwise_cons] at monotone
    obtain ⟨s', t', answers, concrete, abstract, atEnd⟩ :=
      ih next (fun b mem => monotone.1 _ (List.mem_map_of_mem mem)) monotone.2
    refine ⟨s', t', (spec t a).2 :: answers, ?_, ?_, atEnd⟩
    · simp [runWith, concrete, answered]
    · simp [runWith, abstract]

end Machine
