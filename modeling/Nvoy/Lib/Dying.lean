/-
**Programs that may die at an operation.**

A program reads and changes a state and gives an answer, unless it dies before it has one: what it did
until then stays done.

* `Prog` — such programs, with their sequencing;
* `Holds P x Q D` — from a state with `P`, the program ends with `Q` of its answer, or dies in a state with
  `D`;
* `holds_pure`, `holds_bind`, `holds_forM`, `holds_foldlM`, `holds_get`, `holds_modify`, `holds_act` — a rule for each way a
  program is built.
-/

import Mathlib.Init

namespace Nvoy.Dying

variable {σ α β : Type}

/-- The answer, or none where the program died. -/
def Prog (σ α : Type) : Type := σ → Option α × σ

instance : Monad (Prog σ) where
  pure a := fun s => (some a, s)
  bind x f := fun s =>
    match x s with
    | (some a, s') => f a s'
    | (none, s') => (none, s')

def get : Prog σ σ := fun s => (some s, s)

def modify (f : σ → σ) : Prog σ Unit := fun s => (some (), f s)

/-- An operation the program may die of, once it is done. -/
def act (dies : σ → Bool) (f : σ → α × σ) : Prog σ α := fun s =>
  (if dies s then none else some (f s).1, (f s).2)

/-- What a program does to the states with `P`. -/
def Holds (P : σ → Prop) (x : Prog σ α) (Q : α → σ → Prop) (D : σ → Prop) : Prop :=
  ∀ s, P s → match x s with
    | (some a, s') => Q a s'
    | (none, s') => D s'

section Rules

variable {P P' I D : σ → Prop} {Q Q' : α → σ → Prop} {R : β → σ → Prop} {x : Prog σ α} {f : α → Prog σ β}

theorem Holds.mono (holds : Holds P x Q D) (before : ∀ s, P' s → P s) (after : ∀ a s, Q a s → Q' a s) :
    Holds P' x Q' D := by
  intro s pre
  have ran := holds s (before s pre)
  match done : x s with
  | (some a, s') =>
    rw [done] at ran
    exact after a s' ran
  | (none, s') =>
    rw [done] at ran
    exact ran

theorem holds_pure {a : α} (post : ∀ s, P s → Q a s) : Holds P (pure a : Prog σ α) Q D := post

theorem holds_bind (first : Holds P x Q D) (then_ : ∀ a, Holds (Q a) (f a) R D) : Holds P (x >>= f) R D := by
  intro s pre
  have ran := first s pre
  show match (match x s with
    | (some a, s') => f a s'
    | (none, s') => (none, s')) with
    | (some b, s') => R b s'
    | (none, s') => D s'
  match done : x s with
  | (some a, s') =>
    rw [done] at ran
    exact then_ a s' ran
  | (none, s') =>
    rw [done] at ran
    exact ran

/-- **A loop** keeps what its body keeps. -/
theorem holds_forM {items : List α} {body : α → Prog σ PUnit} (keeps : ∀ a ∈ items, Holds I (body a) (fun _ => I) D) :
    Holds I (items.forM body) (fun _ => I) D := by
  induction items with
  | nil => exact holds_pure fun _ pre => pre
  | cons a items ih =>
    exact holds_bind (keeps a List.mem_cons_self) fun _ => ih fun b member => keeps b (List.mem_cons_of_mem _ member)

theorem holds_foldlM {items : List β} {body : α → β → Prog σ α} (a : α)
    (keeps : ∀ a, ∀ b ∈ items, Holds I (body a b) (fun _ => I) D) : Holds I (items.foldlM body a) (fun _ => I) D := by
  induction items generalizing a with
  | nil => exact holds_pure fun _ pre => pre
  | cons b items ih =>
    exact holds_bind (keeps a b List.mem_cons_self) fun a' =>
      ih a' fun a c member => keeps a c (List.mem_cons_of_mem _ member)

theorem holds_get : Holds P (get : Prog σ σ) (fun a s => a = s ∧ P s) D := fun _ pre => ⟨rfl, pre⟩

theorem holds_modify {g : σ → σ} {Q : Unit → σ → Prop} (post : ∀ s, P s → Q () (g s)) : Holds P (modify g) Q D := post

theorem holds_act {dies : σ → Bool} {g : σ → α × σ} (post : ∀ s, P s → Q (g s).1 (g s).2)
    (dead : ∀ s, P s → D (g s).2) : Holds P (act dies g) Q D := by
  intro s pre
  unfold act
  split
  next a s' same =>
    obtain ⟨answer, rfl⟩ := Prod.mk.inj same
    split at answer
    · cases answer
    · obtain rfl := Option.some_inj.mp answer
      exact post s pre
  next s' same =>
    obtain ⟨-, rfl⟩ := Prod.mk.inj same
    exact dead s pre

end Rules

end Nvoy.Dying
