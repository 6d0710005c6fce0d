/-
**Runs of a machine, and runs under a condition.**

A machine is a step function; an action that is not enabled in a state leaves it as it is. A run is
a list of actions:

* `Meets` — every step of the run meets a condition on the state before it and the action;
* `Meets.keeps` — what every step under the condition keeps, every run under the condition keeps;
* `Meets.grants` — a run under one condition is a run under another that the invariant grants;
* `meets_of_prefixes` — a run all of whose states are good meets what goodness needs of a step;
* `run_keeps` — the same as `Meets.keeps` where the steps need no condition.

As every prefix of a run that meets a condition meets it (`Meets.of_append`), a fact about the last
state of all such runs is a fact about every state they pass.
-/

import Mathlib.Data.List.Basic

namespace Nvoy.Runs

variable {σ α : Type} {step : σ → α → σ} {condition : σ → α → Prop}

/-- The state after a list of actions. -/
def run (step : σ → α → σ) (start : σ) (actions : List α) : σ :=
  actions.foldl step start

@[simp]
theorem run_nil (start : σ) : run step start [] = start := rfl

@[simp]
theorem run_cons (start : σ) (action : α) (rest : List α) :
    run step start (action :: rest) = run step (step start action) rest := rfl

@[simp]
theorem run_append (start : σ) (front back : List α) :
    run step start (front ++ back) = run step (run step start front) back :=
  List.foldl_append

/-- Every step of the run meets the condition. -/
def Meets (step : σ → α → σ) (condition : σ → α → Prop) : σ → List α → Prop
  | _, [] => True
  | state, action :: rest => condition state action ∧ Meets step condition (step state action) rest

instance [∀ state action, Decidable (condition state action)] :
    ∀ start actions, Decidable (Meets step condition start actions)
  | _, [] => inferInstanceAs (Decidable True)
  | state, action :: rest =>
    have : Decidable (Meets step condition (step state action) rest) :=
      instDecidableMeets (step state action) rest
    inferInstanceAs (Decidable (condition state action ∧ _))

theorem meets_append {start : σ} {front back : List α} :
    Meets step condition start (front ++ back) ↔
      Meets step condition start front ∧ Meets step condition (run step start front) back := by
  induction front generalizing start with
  | nil => simp [Meets]
  | cons action rest ih => simp only [List.cons_append, Meets, ih, run_cons, and_assoc]

theorem Meets.of_append {start : σ} {front back : List α}
    (meets : Meets step condition start (front ++ back)) : Meets step condition start front :=
  (meets_append.mp meets).1

/-- **The run rule.** What every step under the condition keeps holds after every run whose steps
meet it. -/
theorem Meets.keeps {Inv : σ → Prop}
    (keep : ∀ state action, Inv state → condition state action → Inv (step state action))
    {start : σ} {actions : List α} (first : Inv start)
    (meets : Meets step condition start actions) : Inv (run step start actions) := by
  induction actions generalizing start with
  | nil => exact first
  | cons action rest ih => exact ih (keep start action first meets.1) meets.2

/-- A run whose steps meet a condition meets another one that the invariant turns it into. -/
theorem Meets.grants {Inv : σ → Prop} {other : σ → α → Prop}
    (keep : ∀ state action, Inv state → condition state action → Inv (step state action))
    (grant : ∀ state action, Inv state → condition state action → other state action)
    {start : σ} {actions : List α} (first : Inv start)
    (meets : Meets step condition start actions) : Meets step other start actions := by
  induction actions generalizing start with
  | nil => trivial
  | cons action rest ih =>
      exact ⟨grant start action first meets.1, ih (keep start action first meets.1) meets.2⟩

/-- A run all of whose states are good meets what a step between good states meets. -/
theorem meets_of_prefixes {Good : σ → Prop}
    (only : ∀ state action, Good state → Good (step state action) → condition state action)
    {start : σ} {actions : List α} (good : ∀ front, front <+: actions → Good (run step start front)) :
    Meets step condition start actions := by
  induction actions generalizing start with
  | nil => trivial
  | cons action rest ih =>
      refine ⟨only start action (good [] List.nil_prefix)
        (good [action] (List.prefix_append [action] rest)), ih fun front before => ?_⟩
      exact good (action :: front) ((List.prefix_cons_inj action).mpr before)

theorem Meets.mp {other : σ → α → Prop} {start : σ} {actions : List α}
    (implies : Meets step (fun state action => condition state action → other state action) start
      actions) (meets : Meets step condition start actions) : Meets step other start actions := by
  induction actions generalizing start with
  | nil => trivial
  | cons action rest ih => exact ⟨implies.1 meets.1, ih implies.2 meets.2⟩

theorem meets_and {other : σ → α → Prop} {start : σ} {actions : List α} :
    Meets step (fun state action => condition state action ∧ other state action) start actions ↔
      Meets step condition start actions ∧ Meets step other start actions := by
  induction actions generalizing start with
  | nil => simp [Meets]
  | cons action rest ih => simp only [Meets, ih, and_and_and_comm]

/-- What every step keeps holds after every run. -/
theorem run_keeps {Inv : σ → Prop} (keep : ∀ state action, Inv state → Inv (step state action))
    {start : σ} (first : Inv start) (actions : List α) : Inv (run step start actions) := by
  induction actions generalizing start with
  | nil => exact first
  | cons action rest ih => exact ih (keep start action first)

end Nvoy.Runs
