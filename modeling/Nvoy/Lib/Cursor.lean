/-
**Cursors into a growing list.**

A follower of a list that is only appended to, and holds each element once, keeps its place as the element
it is done with:

* `position` — the place after a cursor, which the list's growth leaves alone (`position_append`);
* `afterLast` — what stands after the last occurrence of an element, found from the end;
* `Upto` — everything up to a place, from a first place on, satisfies a predicate;
* `Stands` — a cursor in the list, with a predicate up to its place.
-/

import Mathlib.Data.List.Infix
import Mathlib.Data.List.Nodup

namespace Nvoy.Cursor

variable {α : Type} {list : List α} {b k : Nat} {P Q : α → Prop}

/-! ### Up to a place -/

/-- Everything before the place, from the first one on. -/
def Upto (list : List α) (b k : Nat) (P : α → Prop) : Prop :=
  ∀ a ∈ (list.take k).drop b, P a

theorem Upto.mono (upto : Upto list b k P) (more : ∀ a, P a → Q a) : Upto list b k Q :=
  fun a member => more a (upto a member)

theorem Upto.append (upto : Upto list b k P) (inside : k ≤ list.length) (later : List α) :
    Upto (list ++ later) b k P := by
  unfold Upto
  rw [List.take_append_of_le_length inside]
  exact upto

theorem upto_self : Upto list k k P := by
  intro a member
  rw [List.drop_eq_nil_of_le (List.length_take_le k list)] at member
  exact absurd member List.not_mem_nil

/-- One place further. -/
theorem Upto.next (upto : Upto list b k P) {a : α} (here : list[k]? = some a) (holds : P a) :
    Upto list b (k + 1) P := by
  intro other member
  rw [List.take_add_one, here, Option.toList_some] at member
  by_cases early : b ≤ (list.take k).length
  · rw [List.drop_append_of_le_length early] at member
    obtain old | new := List.mem_append.mp member
    · exact upto other old
    · exact List.mem_singleton.mp new ▸ holds
  · rw [List.drop_append, List.drop_eq_nil_of_le (by omega), List.nil_append] at member
    exact List.mem_singleton.mp (List.mem_of_mem_drop member) ▸ holds

theorem mem_drop_of_getElem? {a : α} (here : list[k]? = some a) (after : b ≤ k) : a ∈ list.drop b := by
  have there : (list.drop b)[k - b]? = some a := by
    rw [List.getElem?_drop, Nat.add_sub_cancel' after, here]
  exact List.mem_of_getElem? there

/-! ### The place of a cursor -/

section Places

variable [DecidableEq α]

/-- The place after the cursor. -/
def position (list : List α) : Option α → Nat
  | none => 0
  | some cursor => list.idxOf cursor + 1

/-- What stands after the last occurrence. -/
def afterLast (a : α) (list : List α) : List α := (list.reverse.takeWhile (· ≠ a)).reverse

theorem idxOf_of_getElem? (nodup : list.Nodup) {a : α} (here : list[k]? = some a) :
    list.idxOf a = k := by
  obtain ⟨inside, rfl⟩ := List.getElem?_eq_some_iff.mp here
  exact nodup.idxOf_getElem k inside

theorem getElem?_idxOf {a : α} (member : a ∈ list) : list[list.idxOf a]? = some a := by
  have inside := List.idxOf_lt_length_iff.mpr member
  rw [List.getElem?_eq_getElem inside, List.getElem_idxOf inside]

theorem le_idxOf (nodup : list.Nodup) {a : α} (member : a ∈ list.drop b) : b ≤ list.idxOf a := by
  obtain ⟨i, there⟩ := List.mem_iff_getElem?.mp member
  rw [List.getElem?_drop] at there
  rw [idxOf_of_getElem? nodup there]
  exact Nat.le_add_right b i

theorem position_le {cursor : Option α} (member : ∀ a, cursor = some a → a ∈ list) :
    position list cursor ≤ list.length := by
  cases cursor with
  | none => exact Nat.zero_le _
  | some a => exact List.idxOf_lt_length_iff.mpr (member a rfl)

theorem position_append {cursor : Option α} (member : ∀ a, cursor = some a → a ∈ list)
    (later : List α) : position (list ++ later) cursor = position list cursor := by
  cases cursor with
  | none => rfl
  | some a => rw [position, position, List.idxOf_append_of_mem (member a rfl)]

/-- The cursor at the end of the list. -/
theorem position_getLast? (nodup : list.Nodup) (inside : k ≤ list.length) :
    position list (list.take k).getLast? = k := by
  cases k with
  | zero => rfl
  | succ k =>
      have here : list[k]? = some list[k] := List.getElem?_eq_getElem inside
      have last : (list.take (k + 1)).getLast? = some list[k] := by
        rw [List.take_add_one, here, Option.toList_some, List.getLast?_concat]
      rw [last, position, idxOf_of_getElem? nodup here]

theorem position_getElem? (nodup : list.Nodup) {a : α} (here : list[k]? = some a) :
    position list (some a) = k + 1 := by
  rw [position, idxOf_of_getElem? nodup here]

/-- In a list that holds each element once, what stands after the last is what stands after it. -/
theorem afterLast_eq_drop (nodup : list.Nodup) {a : α} (member : a ∈ list) :
    afterLast a list = list.drop (position list (some a)) := by
  obtain ⟨front, back, rfl⟩ := List.append_of_mem member
  obtain ⟨-, nodup, apart⟩ := List.nodup_append.mp nodup
  have before : a ∉ front := fun inFront => apart a inFront a List.mem_cons_self rfl
  have behind : ∀ x ∈ back.reverse, decide (x ≠ a) = true := by
    intro x inBack
    refine decide_eq_true ?_
    rintro rfl
    exact (List.nodup_cons.mp nodup).1 (List.mem_reverse.mp inBack)
  rw [position, List.idxOf_append_of_notMem before, List.idxOf_cons_self, afterLast,
    List.reverse_append, List.reverse_cons, List.append_assoc, List.takeWhile_append_of_pos behind,
    List.singleton_append, List.takeWhile_cons_of_neg (by simp), List.append_nil, List.reverse_reverse]
  simp

/-- A cursor in the list, with the predicate up to its place. -/
structure Stands (list : List α) (b : Nat) (P : α → Prop) (cursor : Option α) : Prop where
  member : ∀ a, cursor = some a → a ∈ list
  after : b ≤ position list cursor
  upto : Upto list b (position list cursor) P

theorem Stands.mono {cursor : Option α} (stands : Stands list b P cursor) (more : ∀ a, P a → Q a) :
    Stands list b Q cursor :=
  ⟨stands.member, stands.after, stands.upto.mono more⟩

theorem Stands.append {cursor : Option α} (stands : Stands list b P cursor) (later : List α) :
    Stands (list ++ later) b P cursor where
  member := fun a same => List.mem_append_left _ (stands.member a same)
  after := by
    rw [position_append stands.member]
    exact stands.after
  upto := by
    rw [position_append stands.member]
    exact stands.upto.append (position_le stands.member) later

/-- A cursor is taken at the end of the list. -/
theorem stands_getLast? (nodup : list.Nodup) (inside : k ≤ list.length) :
    Stands list k P (list.take k).getLast? := by
  have place := position_getLast? nodup inside
  refine ⟨fun a last => List.mem_of_mem_take (List.mem_of_getLast? last), place.ge, ?_⟩
  rw [place]
  exact upto_self

/-- The cursor goes on to an element with the predicate, and everything before it has it. -/
theorem stands_some (nodup : list.Nodup) {a : α} (after : a ∈ list.drop b)
    (upto : Upto list b (list.idxOf a) P) (holds : P a) : Stands list b P (some a) := by
  have inside := List.mem_of_mem_drop after
  refine ⟨?_, Nat.le_succ_of_le (le_idxOf nodup after), upto.next (getElem?_idxOf inside) holds⟩
  rintro _ ⟨⟩
  exact inside

end Places

end Nvoy.Cursor
