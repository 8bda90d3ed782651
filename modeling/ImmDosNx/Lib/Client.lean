import Mathlib.Logic.Basic

/-! Client programs of a server that answers calls: a free monad over calls, with
failure. A program returns, fails, or issues a call and goes on with the reply.
Run against the server's partial step function, a program changes the server's
state only through the calls it issues, so whatever each call it may issue
preserves holds over the whole run. -/

inductive Client (χ ρ ε α : Type) where
  | done (result : α)
  | fail (error : ε)
  | call (request : χ) (next : ρ → Client χ ρ ε α)

namespace Client

variable {σ χ ρ ε α β : Type}

def bind : Client χ ρ ε α → (α → Client χ ρ ε β) → Client χ ρ ε β
  | done a, f => f a
  | fail e, _ => fail e
  | call c next, f => call c fun r => bind (next r) f

instance : Monad (Client χ ρ ε) where
  pure := done
  bind := bind

def request (c : χ) : Client χ ρ ε ρ := call c done

def ofExcept : Except ε α → Client χ ρ ε α
  | .ok a => done a
  | .error e => fail e

def run (perform : σ → χ → Option (σ × ρ)) : Client χ ρ ε α → σ → Option (σ × Except ε α)
  | done a, s => some (s, .ok a)
  | fail e, s => some (s, .error e)
  | call c next, s => (perform s c).bind fun (t, r) => run perform (next r) t

@[simp] theorem bindEq (x : Client χ ρ ε α) (f : α → Client χ ρ ε β) : x >>= f = x.bind f := rfl

@[simp] theorem pureEq (a : α) : (pure a : Client χ ρ ε α) = done a := rfl

@[simp] theorem bindDone (a : α) (f : α → Client χ ρ ε β) : (done a).bind f = f a := rfl

@[simp] theorem bindFail (e : ε) (f : α → Client χ ρ ε β) : (fail e).bind f = fail e := rfl

@[simp] theorem bindCall (c : χ) (next : ρ → Client χ ρ ε α) (f : α → Client χ ρ ε β) :
    (call c next).bind f = call c fun r => (next r).bind f := rfl

@[simp] theorem requestBind (c : χ) (f : ρ → Client χ ρ ε β) : (request c).bind f = call c f := rfl

@[simp] theorem ofExceptOk (a : α) : (ofExcept (.ok a) : Client χ ρ ε α) = done a := rfl

@[simp] theorem ofExceptError (e : ε) : (ofExcept (.error e) : Client χ ρ ε α) = fail e := rfl

section Run

variable (perform : σ → χ → Option (σ × ρ))

@[simp] theorem runDone (a : α) (s : σ) : (done a : Client χ ρ ε α).run perform s = some (s, .ok a) := rfl

@[simp] theorem runFail (e : ε) (s : σ) : (fail e : Client χ ρ ε α).run perform s = some (s, .error e) := rfl

theorem runCall (c : χ) (next : ρ → Client χ ρ ε α) (s : σ) :
    (call c next).run perform s = (perform s c).bind fun (t, r) => (next r).run perform t := rfl

theorem runBind (x : Client χ ρ ε α) (f : α → Client χ ρ ε β) (s : σ) :
    (x.bind f).run perform s =
      (x.run perform s).bind fun (t, r) =>
        match r with
        | .ok a => (f a).run perform t
        | .error e => some (t, .error e) := by
  induction x generalizing s with
  | done a => rfl
  | fail e => rfl
  | call c next ih =>
    simp only [bindCall, runCall]
    cases perform s c with
    | none => rfl
    | some step => exact ih step.2 step.1

theorem runBindOk {x : Client χ ρ ε α} {f : α → Client χ ρ ε β} {s u : σ} {b : β}
    (ok : (x.bind f).run perform s = some (u, .ok b)) :
    ∃ t a, x.run perform s = some (t, .ok a) ∧ (f a).run perform t = some (u, .ok b) := by
  rw [runBind] at ok
  obtain ⟨⟨t, r⟩, first, rest⟩ := Option.bind_eq_some_iff.mp ok
  cases r with
  | ok a => exact ⟨t, a, first, rest⟩
  | error e => cases rest

theorem runBindOfOk {x : Client χ ρ ε α} {f : α → Client χ ρ ε β} {s t : σ} {a : α}
    (first : x.run perform s = some (t, .ok a)) : (x.bind f).run perform s = (f a).run perform t := by
  rw [runBind, first]
  rfl

theorem runOfExceptOk {x : Except ε α} {s t : σ} {a : α}
    (ok : (ofExcept x : Client χ ρ ε α).run perform s = some (t, .ok a)) : x = .ok a ∧ t = s := by
  cases x with
  | ok b =>
    simp only [ofExceptOk, runDone, Option.some.injEq, Prod.mk.injEq, Except.ok.injEq] at ok
    exact ⟨congrArg Except.ok ok.2, ok.1.symm⟩
  | error e => simp at ok

end Run

inductive OnlyIssues (allowed : χ → Prop) : Client χ ρ ε α → Prop where
  | done (a : α) : OnlyIssues allowed (done a)
  | fail (e : ε) : OnlyIssues allowed (fail e)
  | call {c : χ} {next : ρ → Client χ ρ ε α} (issued : allowed c) (rest : ∀ r, OnlyIssues allowed (next r)) :
      OnlyIssues allowed (call c next)

section OnlyIssues

variable {allowed : χ → Prop}

theorem OnlyIssues.bind {x : Client χ ρ ε α} {f : α → Client χ ρ ε β} (first : OnlyIssues allowed x)
    (rest : ∀ a, OnlyIssues allowed (f a)) : OnlyIssues allowed (x.bind f) := by
  induction first with
  | done a => exact rest a
  | fail e => exact .fail e
  | call issued _ ih => exact .call issued ih

theorem OnlyIssues.request {c : χ} (issued : allowed c) : OnlyIssues allowed (request c : Client χ ρ ε ρ) :=
  .call issued .done

theorem OnlyIssues.ofExcept (x : Except ε α) : OnlyIssues allowed (ofExcept x : Client χ ρ ε α) := by
  cases x with
  | ok a => exact .done a
  | error e => exact .fail e

theorem OnlyIssues.runPreserves {perform : σ → χ → Option (σ × ρ)} {inv : σ → Prop} {x : Client χ ρ ε α}
    (issues : OnlyIssues allowed x) (preserve : ∀ s c t r, inv s → allowed c → perform s c = some (t, r) → inv t)
    {s t : σ} {result : Except ε α} (start : inv s) (ran : x.run perform s = some (t, result)) : inv t := by
  induction issues generalizing s with
  | done a => cases Option.some.inj ran; exact start
  | fail e => cases Option.some.inj ran; exact start
  | @call c next issued _ ih =>
    rw [runCall] at ran
    obtain ⟨⟨u, r⟩, step, rest⟩ := Option.bind_eq_some_iff.mp ran
    exact ih r (preserve s c u r start issued step) rest

end OnlyIssues

end Client
