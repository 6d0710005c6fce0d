/-
Sequences of checks: functions that answer in `Except` and stop at the first check that fails.

* `bind_eq_ok`, `bind_eq_error` — what a sequence says about its first step;
* `ensure`, `require`, `objection` — the kinds of check, and what passing one means;
* `mapM_eq_some` — a function that may fail, at every item of a list.
-/

import Mathlib.Init

namespace Nvoy

variable {ε α β : Type}

theorem bind_eq_ok {first : Except ε α} {next : α → Except ε β} {answer : β} :
    first >>= next = .ok answer ↔ ∃ value, first = .ok value ∧ next value = .ok answer := by
  cases first <;> simp [bind, Except.bind]

theorem bind_eq_error {first : Except ε α} {next : α → Except ε β} {refusal : ε} :
    first >>= next = .error refusal ↔
      first = .error refusal ∨ ∃ value, first = .ok value ∧ next value = .error refusal := by
  cases first <;> simp [bind, Except.bind]

theorem ok_bind {value : α} {next : α → Except ε β} : (Except.ok value >>= next) = next value := rfl

theorem error_bind {refusal : ε} {next : α → Except ε β} :
    (Except.error refusal >>= next) = .error refusal := rfl

/-- Goes on when the condition holds, and stops with the refusal when it does not. -/
def ensure (holds : Bool) (refusal : ε) : Except ε Unit :=
  if holds then .ok () else .error refusal

/-- The value, when there is one. -/
def require (value : Option α) (refusal : ε) : Except ε α :=
  match value with
  | some value => .ok value
  | none => .error refusal

/-- Stops with the refusal when there is a reason for one. -/
def objection (reason : Option α) (refusal : α → ε) : Except ε Unit :=
  match reason with
  | some reason => .error (refusal reason)
  | none => .ok ()

@[simp] theorem ensure_eq_ok {holds : Bool} {refusal : ε} {answer : Unit} :
    ensure holds refusal = .ok answer ↔ holds = true := by
  cases holds <;> simp [ensure]

@[simp] theorem require_eq_ok {value : Option α} {refusal : ε} {answer : α} :
    require value refusal = .ok answer ↔ value = some answer := by
  cases value <;> simp [require]

@[simp] theorem objection_eq_ok {reason : Option α} {refusal : α → ε} {answer : Unit} :
    objection reason refusal = .ok answer ↔ reason = none := by
  cases reason <;> simp [objection]

theorem ensure_eq_error {holds : Bool} {refusal answer : ε} :
    ensure holds refusal = .error answer ↔ holds = false ∧ refusal = answer := by
  cases holds <;> simp [ensure]

theorem require_eq_error {value : Option α} {refusal answer : ε} :
    require value refusal = .error answer ↔ value = none ∧ refusal = answer := by
  cases value <;> simp [require]

theorem objection_eq_error {reason : Option α} {refusal : α → ε} {answer : ε} :
    objection reason refusal = .error answer ↔ ∃ hit, reason = some hit ∧ refusal hit = answer := by
  cases reason <;> simp [objection]

theorem ensure_of {holds : Bool} {refusal : ε} (met : holds = true) : ensure holds refusal = .ok () :=
  ensure_eq_ok.mpr met

theorem objection_of {reason : Option α} {refusal : α → ε} (none : reason = none) :
    objection reason refusal = .ok () :=
  objection_eq_ok.mpr none

theorem mapError_ok {δ : Type} {value : α} {f : ε → δ} : (Except.ok value).mapError f = .ok value := rfl

theorem mapError_error {δ : Type} {refusal : ε} {f : ε → δ} :
    (Except.error refusal : Except ε α).mapError f = .error (f refusal) := rfl

theorem mapError_eq_ok {δ : Type} {first : Except ε α} {f : ε → δ} {answer : α} :
    first.mapError f = .ok answer ↔ first = .ok answer := by
  cases first <;> simp [mapError_ok, mapError_error]

/-! ### Every item of a list -/

/-- A function that may fail gives a list of results when it fails nowhere. -/
theorem mapM_eq_some {f : α → Option β} {list : List α} {results : List β} :
    list.mapM f = some results ↔ (∀ a ∈ list, (f a).isSome = true) ∧ list.filterMap f = results := by
  induction list generalizing results with
  | nil => simp
  | cons a list ih =>
      rw [List.mapM_cons, List.forall_mem_cons]
      cases here : f a with
      | none => simp
      | some b =>
          rw [List.filterMap_cons_some here]
          simp only [Option.bind_eq_bind, Option.bind_some, Option.bind_eq_some_iff, Option.pure_def,
            Option.some.injEq, Option.isSome_some, true_and]
          constructor
          · rintro ⟨rest, read, rfl⟩
            obtain ⟨all, rfl⟩ := ih.mp read
            exact ⟨all, rfl⟩
          · rintro ⟨all, rfl⟩
            exact ⟨_, ih.mpr ⟨all, rfl⟩, rfl⟩

end Nvoy
