/-
**Patterns, matched by backtracking.**

A pattern reads a text from its front and lists everything it can take there with what is left, in
the order in which a backtracking matcher tries it; a match is the first of them.

* `Pattern`, `exec` — the matcher, as a list of successes;
* `Pattern.mem_*` — what a pattern can take, whatever the order;
* `exec_lazy_bind` — of a pattern that begins with a lazy repetition, the match begins as early as
  it can;
* `afterFirst` — the text after the first occurrence of a word.
-/

import Mathlib.Data.List.Basic

namespace Nvoy

def Pattern (α : Type) := List Char → List (α × List Char)

namespace Pattern

variable {α β : Type}

instance : Monad Pattern where
  pure x := fun text => [(x, text)]
  bind first next := fun text => (first text).flatMap fun taken => next taken.1 taken.2

/-- `pattern.exec(text)`, of a pattern that begins with `^` -/
def exec (pattern : Pattern α) (text : List Char) : Option α := (pattern text).head?.map Prod.fst

def word (w : List Char) : Pattern Unit := fun text =>
  if w <+: text then [((), text.drop w.length)] else []

def charBefore (c : Char) (taken : List Char × List Char) : List Char × List Char :=
  (c :: taken.1, taken.2)

/-- `[…]*?` -/
def lazy (p : Char → Bool) : Pattern (List Char)
  | [] => [([], [])]
  | c :: rest => ([], c :: rest) :: if p c then (lazy p rest).map (charBefore c) else []

/-- `[…]*` -/
def many (p : Char → Bool) : Pattern (List Char)
  | [] => [([], [])]
  | c :: rest => (if p c then (many p rest).map (charBefore c) else []) ++ [([], c :: rest)]

/-- `[…]+` -/
def many1 (p : Char → Bool) : Pattern (List Char)
  | [] => []
  | c :: rest => if p c then (many p rest).map (charBefore c) else []

/-- `[…]` -/
def one (p : Char → Bool) : Pattern (List Char)
  | [] => []
  | c :: rest => if p c then [([c], rest)] else []

/-- `[…]{0,n}` -/
def atMost (p : Char → Bool) : ℕ → Pattern (List Char)
  | n + 1, c :: rest =>
      (if p c then (atMost p n rest).map (charBefore c) else []) ++ [([], c :: rest)]
  | _, text => [([], text)]

/-- `(a|b)` -/
def either (first second : Pattern α) : Pattern α := fun text => first text ++ second text

/-- `(?:…)?` -/
def opt (pattern : Pattern α) : Pattern (Option α) := fun text =>
  (pattern text).map (fun taken => (some taken.1, taken.2)) ++ [(none, text)]

/-- `$` -/
def done : Pattern Unit := fun text => if text = [] then [((), [])] else []

section Taking

variable {text rest : List Char} {p : Char → Bool}

@[simp] theorem mem_bind {first : Pattern α} {next : α → Pattern β} {taken : β × List Char} :
    taken ∈ (first >>= next) text ↔ ∃ x left, (x, left) ∈ first text ∧ taken ∈ next x left := by
  show taken ∈ (first text).flatMap _ ↔ _
  rw [List.mem_flatMap]
  constructor
  · rintro ⟨⟨x, left⟩, took, followed⟩
    exact ⟨x, left, took, followed⟩
  · rintro ⟨x, left, took, followed⟩
    exact ⟨(x, left), took, followed⟩

@[simp] theorem mem_pure {x : α} {taken : α × List Char} :
    taken ∈ (pure x : Pattern α) text ↔ taken = (x, text) := by
  show taken ∈ [(x, text)] ↔ _
  rw [List.mem_singleton]

@[simp] theorem mem_word {w : List Char} {u : Unit} :
    (u, rest) ∈ word w text ↔ text = w ++ rest := by
  unfold word
  by_cases front : w <+: text
  · rw [if_pos front]
    obtain ⟨after, rfl⟩ := front
    simp [eq_comm]
  · rw [if_neg front]
    refine iff_of_false List.not_mem_nil fun same => front ?_
    rw [same]
    exact List.prefix_append _ _

theorem mem_map_charBefore {c : Char} {taken : List (List Char × List Char)} {x : List Char} :
    (x, rest) ∈ taken.map (charBefore c) ↔ ∃ y, x = c :: y ∧ (y, rest) ∈ taken := by
  rw [List.mem_map]
  constructor
  · rintro ⟨⟨y, left⟩, took, same⟩
    obtain ⟨rfl, rfl⟩ := Prod.mk.inj same
    exact ⟨y, rfl, took⟩
  · rintro ⟨y, rfl, took⟩
    exact ⟨(y, rest), took, rfl⟩

@[simp] theorem mem_lazy {x : List Char} :
    (x, rest) ∈ lazy p text ↔ text = x ++ rest ∧ ∀ c ∈ x, p c = true := by
  induction text generalizing x with
  | nil => cases x <;> simp [lazy]
  | cons c text ih =>
      simp only [lazy, List.mem_cons, Prod.mk.injEq]
      by_cases good : p c = true
      · rw [if_pos good, mem_map_charBefore]
        simp only [ih]
        cases x <;> grind
      · rw [if_neg good]
        cases x <;> grind

@[simp] theorem mem_many {x : List Char} :
    (x, rest) ∈ many p text ↔ text = x ++ rest ∧ ∀ c ∈ x, p c = true := by
  induction text generalizing x with
  | nil => cases x <;> simp [many]
  | cons c text ih =>
      simp only [many, List.mem_append, List.mem_singleton, Prod.mk.injEq]
      by_cases good : p c = true
      · rw [if_pos good, mem_map_charBefore]
        simp only [ih]
        cases x <;> grind
      · rw [if_neg good]
        cases x <;> grind

@[simp] theorem mem_many1 {x : List Char} :
    (x, rest) ∈ many1 p text ↔ x ≠ [] ∧ text = x ++ rest ∧ ∀ c ∈ x, p c = true := by
  cases text with
  | nil => cases x <;> simp [many1]
  | cons c text =>
      simp only [many1]
      by_cases good : p c = true
      · rw [if_pos good, mem_map_charBefore]
        simp only [mem_many]
        cases x <;> grind
      · rw [if_neg good]
        cases x <;> grind

@[simp] theorem mem_atMost {n : ℕ} {x : List Char} :
    (x, rest) ∈ atMost p n text ↔ text = x ++ rest ∧ x.length ≤ n ∧ ∀ c ∈ x, p c = true := by
  induction text generalizing x n with
  | nil => cases n <;> cases x <;> simp [atMost]
  | cons c text ih =>
      cases n with
      | zero => simp only [atMost, List.mem_singleton, Prod.mk.injEq]; grind
      | succ n =>
          simp only [atMost, List.mem_append, List.mem_singleton, Prod.mk.injEq]
          by_cases good : p c = true
          · rw [if_pos good, mem_map_charBefore]
            simp only [ih]
            cases x <;> grind
          · rw [if_neg good]
            cases x <;> grind

@[simp] theorem mem_either {first second : Pattern α} {taken : α × List Char} :
    taken ∈ either first second text ↔ taken ∈ first text ∨ taken ∈ second text :=
  List.mem_append

@[simp] theorem mem_opt {pattern : Pattern α} {x : Option α} :
    (x, rest) ∈ opt pattern text ↔
      (∃ y, x = some y ∧ (y, rest) ∈ pattern text) ∨ (x = none ∧ rest = text) := by
  unfold opt
  simp only [List.mem_append, List.mem_map, List.mem_singleton, Prod.mk.injEq, Prod.exists]
  grind

@[simp] theorem mem_done {u : Unit} : (u, rest) ∈ done text ↔ text = [] ∧ rest = [] := by
  unfold done
  split <;> simp_all

end Taking

/-! ### The first match -/

theorem mem_of_exec {pattern : Pattern α} {text : List Char} {x : α}
    (matched : exec pattern text = some x) : ∃ rest, (x, rest) ∈ pattern text := by
  obtain ⟨⟨x', rest⟩, first, rfl⟩ := Option.map_eq_some_iff.mp matched
  exact ⟨rest, List.mem_of_mem_head? first⟩

theorem exec_of_mem {pattern : Pattern α} {text : List Char} {taken : α × List Char}
    (took : taken ∈ pattern text) : ∃ x, exec pattern text = some x := by
  unfold exec
  cases all : pattern text with
  | nil => rw [all] at took; cases took
  | cons first others => exact ⟨first.1, rfl⟩

/-- The match begins with the shortest text after which the rest of the pattern matches. -/
theorem exec_lazy_bind {p : Char → Bool} {next : List Char → Pattern β} {text : List Char} {y : β}
    (matched : exec (lazy p >>= next) text = some y) :
    ∃ x rest, text = x ++ rest ∧ (∀ c ∈ x, p c = true) ∧ exec (next x) rest = some y ∧
      ∀ x' rest', text = x' ++ rest' → (∀ c ∈ x', p c = true) → x'.length < x.length →
        next x' rest' = [] := by
  induction text generalizing next with
  | nil =>
      refine ⟨[], [], rfl, fun _ listed => absurd listed List.not_mem_nil, ?_,
        fun x' rest' _ _ shorter => absurd shorter (Nat.not_lt_zero _)⟩
      simpa [exec, lazy, bind] using matched
  | cons c text ih =>
      cases here : next [] (c :: text) with
      | cons first others =>
          refine ⟨[], c :: text, rfl, fun _ listed => absurd listed List.not_mem_nil, ?_,
            fun x' rest' _ _ shorter => absurd shorter (Nat.not_lt_zero _)⟩
          simpa [exec, lazy, bind, here] using matched
      | nil =>
          by_cases good : p c = true
          · -- the match is one of the rest of the text, with this character before it
            have later : exec (lazy p >>= fun x => next (c :: x)) text = some y := by
              simpa [exec, lazy, bind, here, good, List.flatMap_map, charBefore] using matched
            obtain ⟨x, rest, rfl, all, found, shortest⟩ := ih later
            refine ⟨c :: x, rest, rfl, List.forall_mem_cons.mpr ⟨good, all⟩, found, ?_⟩
            intro x' rest' same all' shorter
            cases x' with
            | nil =>
                obtain rfl : c :: (x ++ rest) = rest' := same
                exact here
            | cons c' x' =>
                obtain ⟨rfl, same'⟩ := List.cons.inj same
                exact shortest x' rest' same' (List.forall_mem_cons.mp all').2
                  (Nat.lt_of_succ_lt_succ shorter)
          · simp [exec, lazy, bind, here, good] at matched

end Pattern

/-! ### The first occurrence of a word -/

/-- What follows the first occurrence of a word that is not empty. -/
def afterFirst (w : List Char) : List Char → Option (List Char)
  | [] => none
  | c :: rest => if w <+: c :: rest then some ((c :: rest).drop w.length) else afterFirst w rest

section First

variable {w text rest : List Char}

theorem afterFirst_front (here : w <+: text) (nonempty : w ≠ []) :
    afterFirst w text = some (text.drop w.length) := by
  cases text with
  | nil => exact absurd (List.prefix_nil.mp here) nonempty
  | cons c text => exact if_pos here

/-- A text in which the word does not begin is passed over. -/
theorem afterFirst_passes {text : List Char}
    (nowhere : ∀ front back, text = front ++ back → back ≠ [] → ¬ w <+: back ++ rest) :
    afterFirst w (text ++ rest) = afterFirst w rest := by
  induction text with
  | nil => rfl
  | cons c text ih =>
      have here : ¬ w <+: c :: (text ++ rest) := nowhere [] (c :: text) rfl (List.cons_ne_nil _ _)
      show (if w <+: c :: (text ++ rest) then _ else afterFirst w (text ++ rest)) = _
      rw [if_neg here]
      exact ih fun front back same left => nowhere (c :: front) back (by rw [same]; rfl) left

theorem afterFirst_length {found : List Char} (occurs : afterFirst w text = some found) :
    w.length ≤ text.length := by
  induction text with
  | nil => cases occurs
  | cons c text ih =>
      unfold afterFirst at occurs
      split at occurs
      case isTrue here => exact here.length_le
      case isFalse => exact Nat.le_succ_of_le (ih occurs)

theorem afterFirst_append {found : List Char} (occurs : afterFirst w text = some found)
    (more : List Char) : afterFirst w (text ++ more) = some (found ++ more) := by
  induction text with
  | nil => cases occurs
  | cons c text ih =>
      have short := afterFirst_length occurs
      unfold afterFirst at occurs
      by_cases here : w <+: c :: text
      · rw [if_pos here] at occurs
        obtain rfl := Option.some.inj occurs
        have front : w <+: c :: text ++ more := here.trans (List.prefix_append _ _)
        show (if w <+: c :: text ++ more then some ((c :: text ++ more).drop w.length) else _) = _
        rw [if_pos front, List.drop_append_of_le_length short]
      · have later : ¬ w <+: c :: text ++ more := fun front =>
          here (List.prefix_of_prefix_length_le front (List.prefix_append _ _) short)
        rw [if_neg here] at occurs
        show (if w <+: c :: text ++ more then _ else afterFirst w (text ++ more)) = _
        rw [if_neg later]
        exact ih occurs

/-- An occurrence before which there is none is the first. -/
theorem afterFirst_of_shortest {front : List Char} (nonempty : w ≠ [])
    (shortest : ∀ x y, front ++ (w ++ rest) = x ++ (w ++ y) → front.length ≤ x.length) :
    afterFirst w (front ++ (w ++ rest)) = some rest := by
  rw [afterFirst_passes, afterFirst_front (List.prefix_append _ _) nonempty, List.drop_left]
  rintro x y rfl left ⟨z, early⟩
  have bound := shortest x z (by rw [early, List.append_assoc])
  rw [List.length_append] at bound
  have := List.length_pos_of_ne_nil left
  omega

end First

end Nvoy
