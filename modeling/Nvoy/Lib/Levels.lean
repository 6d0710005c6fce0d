/-
**A search level by level, up to a number of hops.**

The search notes every item one hop away, then every item one hop from those it noted first, and so
on; an item met again is not searched from again. It never comes back to the start by itself, but
notes it like any other item when an edge leads there.

* `level` — one hop: the items noted so far, and those noted for the first time;
* `levels` — at most so many hops;
* `mem_levels` — it notes exactly the items at the end of a `Path` of at most so many hops, as an
  item not searched from again was searched from earlier, with more hops left.
-/

import Nvoy.Lib.JsSet

namespace Nvoy.Levels

variable {α : Type} [DecidableEq α] (edges : α → List α)

/-- Meets an item: it is noted, and searched from at the next hop, when it is met first. -/
def meet (noted : JsSet α × List α) (item : α) : JsSet α × List α :=
  if noted.1.has item then noted else (noted.1.add item, noted.2 ++ [item])

/-- One hop from the items of a level. -/
def level (found : JsSet α) (frontier : List α) : JsSet α × List α :=
  (frontier.flatMap edges).foldl meet (found, [])

/-- At most so many hops, and none from an empty level. -/
def levels : Nat → JsSet α → List α → JsSet α
  | 0, found, _ => found
  | hops + 1, found, frontier =>
      if frontier = [] then found
      else levels hops (level edges found frontier).1 (level edges found frontier).2

/-! ### Paths -/

/-- The items a number of hops from the start. -/
inductive Path (start : α) : Nat → α → Prop where
  | start : Path start 0 start
  | step {hops : Nat} {a b : α} (path : Path start hops a) (edge : b ∈ edges a) :
      Path start (hops + 1) b

/-- An item at the end of a path of at least one hop and at most `hops`. -/
def Within (start : α) (hops : Nat) (a : α) : Prop := ∃ k, 1 ≤ k ∧ k ≤ hops ∧ Path edges start k a

/-! ### One level -/

variable {edges} {found : JsSet α} {frontier next items : List α} {start a : α} {hops : Nat}

theorem mem_foldl_meet :
    (a ∈ (items.foldl meet (found, next)).1.items ↔ a ∈ found.items ∨ a ∈ items) ∧
      (a ∈ (items.foldl meet (found, next)).2 ↔ a ∈ next ∨ (a ∈ items ∧ a ∉ found.items)) := by
  induction items generalizing found next with
  | nil => simp
  | cons item items ih =>
      rw [List.foldl_cons, List.mem_cons]
      by_cases old : item ∈ found.items
      · have kept : meet (found, next) item = (found, next) := if_pos (by simpa using old)
        rw [kept, ih.1, ih.2]
        constructor
        · constructor
          · exact Or.imp_right Or.inr
          · rintro (noted | rfl | later)
            · exact Or.inl noted
            · exact Or.inl old
            · exact Or.inr later
        · constructor
          · exact Or.imp_right (And.imp_left Or.inr)
          · rintro (noted | ⟨rfl | later, new⟩)
            · exact Or.inl noted
            · exact absurd old new
            · exact Or.inr ⟨later, new⟩
      · have added : meet (found, next) item = (found.add item, next ++ [item]) :=
          if_neg (by simpa using old)
        have members : ∀ b, b ∈ (found.add item).items ↔ b = item ∨ b ∈ found.items := by
          intro b
          rw [← JsSet.mem_toFinset, JsSet.toFinset_add, Finset.mem_insert, JsSet.mem_toFinset]
        rw [added, ih.1, ih.2, members a, List.mem_append, List.mem_singleton]
        constructor
        · rw [or_assoc, or_left_comm]
        · by_cases same : a = item
          · subst same
            simp [old]
          · simp [same]

theorem mem_level_found :
    a ∈ (level edges found frontier).1.items ↔ a ∈ found.items ∨ ∃ b ∈ frontier, a ∈ edges b := by
  rw [level, mem_foldl_meet.1, List.mem_flatMap]

theorem mem_level_frontier :
    a ∈ (level edges found frontier).2 ↔ (∃ b ∈ frontier, a ∈ edges b) ∧ a ∉ found.items := by
  rw [level, mem_foldl_meet.2, List.mem_flatMap]
  simp

/-! ### The whole search -/

/-- What holds after `hops` hops: an item was noted when a path of so many hops leads to it, and is
searched from next when no shorter one does. -/
structure Reached (edges : α → List α) (start : α) (hops : Nat) (found : JsSet α)
    (frontier : List α) : Prop where
  found_iff : ∀ a, a ∈ found.items ↔ Within edges start hops a
  frontier_iff : ∀ a, a ∈ frontier ↔
    Path edges start hops a ∧ ∀ k, 1 ≤ k → k < hops → ¬ Path edges start k a

theorem reached_start : Reached edges start 0 JsSet.empty [start] where
  found_iff a := by
    constructor
    · exact fun member => absurd member List.not_mem_nil
    · rintro ⟨k, positive, bounded, -⟩
      omega
  frontier_iff a := by
    rw [List.mem_singleton]
    constructor
    · rintro rfl
      exact ⟨Path.start, fun k _ below => absurd below (Nat.not_lt_zero k)⟩
    · rintro ⟨path, -⟩
      cases path
      rfl

omit [DecidableEq α] in
theorem within_succ :
    Within edges start (hops + 1) a ↔ Within edges start hops a ∨ Path edges start (hops + 1) a := by
  constructor
  · rintro ⟨k, positive, bounded, path⟩
    rcases Nat.lt_or_eq_of_le bounded with less | rfl
    · exact Or.inl ⟨k, positive, Nat.lt_succ_iff.mp less, path⟩
    · exact Or.inr path
  · rintro (⟨k, positive, bounded, path⟩ | path)
    · exact ⟨k, positive, Nat.le_succ_of_le bounded, path⟩
    · exact ⟨hops + 1, Nat.succ_pos hops, le_refl _, path⟩

omit [DecidableEq α] in
/-- An item one hop from a level was noted, or its shortest path ends with that hop. -/
theorem Reached.next_iff (reached : Reached edges start hops found frontier) :
    (∃ b ∈ frontier, a ∈ edges b) ∨ Within edges start hops a ↔
      Path edges start (hops + 1) a ∨ Within edges start hops a := by
  constructor
  · rintro (⟨b, member, edge⟩ | noted)
    · exact Or.inl (((reached.frontier_iff b).mp member).1.step edge)
    · exact Or.inr noted
  · rintro (path | noted)
    · cases path with
      | @step _ b _ path edge =>
          by_cases fresh : ∀ k, 1 ≤ k → k < hops → ¬ Path edges start k b
          · exact Or.inl ⟨b, (reached.frontier_iff b).mpr ⟨path, fresh⟩, edge⟩
          · -- The item before it was searched from earlier.
            push Not at fresh
            obtain ⟨k, positive, less, shorter⟩ := fresh
            exact Or.inr ⟨k + 1, by omega, less, shorter.step edge⟩
    · exact Or.inr noted

theorem Reached.level (reached : Reached edges start hops found frontier) :
    Reached edges start (hops + 1) (level edges found frontier).1 (level edges found frontier).2 where
  found_iff a := by
    rw [mem_level_found, reached.found_iff, within_succ, or_comm, reached.next_iff, or_comm]
  frontier_iff a := by
    rw [mem_level_frontier, reached.found_iff]
    constructor
    · rintro ⟨⟨b, member, edge⟩, unmet⟩
      refine ⟨((reached.frontier_iff b).mp member).1.step edge, fun k positive less path => unmet ?_⟩
      exact ⟨k, positive, Nat.lt_succ_iff.mp less, path⟩
    · rintro ⟨path, shortest⟩
      have unmet : ¬ Within edges start hops a := by
        rintro ⟨k, positive, bounded, shorter⟩
        exact shortest k positive (Nat.lt_succ_of_le bounded) shorter
      exact ⟨(reached.next_iff.mpr (Or.inl path)).resolve_right unmet, unmet⟩

theorem levels_nil (hops : Nat) : levels edges hops found [] = found := by
  cases hops with
  | zero => rfl
  | succ hops => rw [levels, if_pos rfl]

/-- Stopping at an empty level changes nothing: one hop from it notes nothing. -/
theorem levels_succ (hops : Nat) : levels edges (hops + 1) found frontier =
    levels edges hops (level edges found frontier).1 (level edges found frontier).2 := by
  rw [levels]
  by_cases done : frontier = []
  · subst done
    exact (if_pos rfl).trans (levels_nil hops).symm
  · rw [if_neg done]

theorem Reached.levels (reached : Reached edges start hops found frontier) (more : Nat) :
    a ∈ (levels edges more found frontier).items ↔ Within edges start (hops + more) a := by
  induction more generalizing hops found frontier with
  | zero => exact reached.found_iff a
  | succ more ih => rw [levels_succ, ih reached.level, Nat.add_assoc, Nat.add_comm 1]

/-- The search notes the items at the end of a path of at least one hop and at most `hops`. -/
theorem mem_levels :
    a ∈ (levels edges hops JsSet.empty [start]).items ↔ Within edges start hops a := by
  rw [reached_start.levels, Nat.zero_add]

/-! ### Edges that agree -/

variable {others : α → List α}

omit [DecidableEq α] in
theorem Path.mono (sub : ∀ b, edges b ⊆ others b) (path : Path edges start hops a) : Path others start hops a := by
  induction path with
  | start => exact .start
  | step _ edge ih => exact ih.step (sub _ edge)

/-- Edges that lead to the same items give the same items. -/
theorem mem_levels_congr (same : ∀ b c, c ∈ edges b ↔ c ∈ others b) :
    a ∈ (levels edges hops JsSet.empty [start]).items ↔ a ∈ (levels others hops JsSet.empty [start]).items := by
  rw [mem_levels, mem_levels]
  have there : ∀ k, Path edges start k a ↔ Path others start k a := fun k =>
    ⟨Path.mono fun b c => (same b c).mp, Path.mono fun b c => (same b c).mpr⟩
  simp only [Within, there]

end Nvoy.Levels
