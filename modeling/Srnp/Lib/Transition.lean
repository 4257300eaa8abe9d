import Mathlib

/-! Guarded runs of a partial step function. A guard is a condition on the
state before a step; a safety result about all runs is the case of the trivial
guard, and a result that holds only while some branch is avoided names that
branch in its guard. -/
namespace Transition

/-- Threads are numbered; there is no bound on how many take part in a run. -/
abbrev ThreadId := Nat

variable {σ α : Type} {step : σ → α → Option σ} {guard : σ → α → Prop} {start s t : σ}

/-- The states reached by runs all of whose steps meet the guard. -/
inductive Reach (step : σ → α → Option σ) (guard : σ → α → Prop) (start : σ) : σ → Prop
  | refl : Reach step guard start start
  | tail {s t : σ} {a : α} : Reach step guard start s → guard s a → step s a = some t →
      Reach step guard start t

def unguarded : σ → α → Prop := fun _ _ => True

theorem Reach.invariant {I : σ → Prop} (initial : I start)
    (preserved : ∀ s a t, I s → guard s a → step s a = some t → I t)
    (reach : Reach step guard start t) : I t := by
  induction reach with
  | refl => exact initial
  | tail _ hguard hstep ih => exact preserved _ _ _ ih hguard hstep

theorem Reach.trans {u : σ} (first : Reach step guard start s)
    (second : Reach step guard s u) : Reach step guard start u := by
  induction second with
  | refl => exact first
  | tail _ hguard hstep ih => exact ih.tail hguard hstep

theorem Reach.mono {stronger : σ → α → Prop} (h : ∀ s a, stronger s a → guard s a)
    (reach : Reach step stronger start t) : Reach step guard start t := by
  induction reach with
  | refl => exact .refl
  | tail _ hguard hstep ih => exact ih.tail (h _ _ hguard) hstep

def run (step : σ → α → Option σ) (s : σ) (actions : List α) : Option σ :=
  actions.foldlM step s

@[simp] theorem run_nil : run step s [] = some s := rfl

@[simp] theorem run_cons (a : α) (rest : List α) :
    run step s (a :: rest) = (step s a).bind fun next => run step next rest := rfl

def checked (step : σ → α → Option σ) (check : σ → α → Bool) (s : σ) (a : α) : Option σ :=
  if check s a then step s a else none

/-- A run whose steps pass a check that implies the guard reaches its end. -/
theorem Reach.of_checked {check : σ → α → Bool} (hcheck : ∀ s a, check s a → guard s a)
    (actions : List α) (h : run (checked step check) s actions = some t) :
    Reach step guard s t := by
  induction actions generalizing s with
  | nil =>
    rw [run_nil] at h
    cases Option.some.inj h
    exact .refl
  | cons a rest ih =>
    rw [run_cons] at h
    obtain ⟨next, hnext, hrest⟩ := Option.bind_eq_some_iff.mp h
    unfold checked at hnext
    split at hnext
    · rename_i hpassed
      have hfirst : Reach step guard s next := .tail .refl (hcheck s a hpassed) hnext
      exact hfirst.trans (ih hrest)
    · contradiction

theorem Reach.of_run (actions : List α) (hguard : ∀ a ∈ actions, ∀ s, guard s a)
    (h : run step s actions = some t) : Reach step guard s t := by
  induction actions generalizing s with
  | nil =>
    rw [run_nil] at h
    cases Option.some.inj h
    exact .refl
  | cons a rest ih =>
    rw [run_cons] at h
    obtain ⟨next, hnext, hrest⟩ := Option.bind_eq_some_iff.mp h
    have hfirst : Reach step guard s next :=
      .tail .refl (hguard a List.mem_cons_self s) hnext
    apply hfirst.trans
    apply ih _ hrest
    intro later hlater
    exact hguard later (List.mem_cons_of_mem a hlater)

end Transition
