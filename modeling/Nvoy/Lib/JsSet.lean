/-
Insertion-ordered sets: the `Set` of the source.

A `JsSet` lists its members in the order they were first added, and none twice. What a set means is
its `toFinset`; every operation is one of `Finset` there.

* `toFinset_add`, `toFinset_delete`, `toFinset_difference`, `toFinset_ofList` — the operations;
* `size_eq_card`, `equal_iff` — the two comparisons the source makes.
-/

import Mathlib.Data.Finset.Basic
import Mathlib.Data.Finset.Card
import Mathlib.Data.Finset.SDiff

namespace Nvoy

/-- A set that remembers the order its members were added in. -/
structure JsSet (α : Type) where
  items : List α
  nodup : items.Nodup
  deriving DecidableEq

namespace JsSet

variable {α : Type}

def empty : JsSet α := ⟨[], List.nodup_nil⟩

def size (s : JsSet α) : Nat := s.items.length

def filter (s : JsSet α) (keep : α → Bool) : JsSet α := ⟨s.items.filter keep, s.nodup.filter keep⟩

variable [DecidableEq α]

def has (s : JsSet α) (x : α) : Bool := decide (x ∈ s.items)

def add (s : JsSet α) (x : α) : JsSet α :=
  if present : x ∈ s.items then s
  else ⟨s.items ++ [x], by
    rw [List.nodup_append]
    refine ⟨s.nodup, List.nodup_singleton _, ?_⟩
    intro old member other single
    rw [List.mem_singleton.mp single]
    rintro rfl
    exact present member⟩

def delete (s : JsSet α) (x : α) : JsSet α := s.filter fun y => y ≠ x

/-- `new Set(list)` -/
def ofList (list : List α) : JsSet α := list.foldl add empty

/-- The members of `s` that `t` lacks. -/
def difference (s t : JsSet α) : JsSet α := s.filter fun x => !t.has x

/-- `setsEqual` -/
def equal (s t : JsSet α) : Bool := s.size == t.size && s.items.all t.has

/-! ### What a set means -/

def toFinset (s : JsSet α) : Finset α := s.items.toFinset

variable {s t : JsSet α} {x y : α}

@[simp] theorem mem_toFinset : x ∈ s.toFinset ↔ x ∈ s.items := List.mem_toFinset

@[simp] theorem has_iff : s.has x = true ↔ x ∈ s.toFinset := by simp [has]

@[simp] theorem toFinset_empty : (empty : JsSet α).toFinset = ∅ := rfl

@[simp] theorem toFinset_filter (keep : α → Bool) :
    (s.filter keep).toFinset = s.toFinset.filter (fun x => keep x = true) := by
  ext x
  simp [filter]

@[simp] theorem toFinset_add : (s.add x).toFinset = insert x s.toFinset := by
  by_cases present : x ∈ s.items
  · rw [add, dif_pos present, Finset.insert_eq_self.mpr (mem_toFinset.mpr present)]
  · rw [add, dif_neg present]
    ext y
    simp [or_comm]

@[simp] theorem toFinset_delete : (s.delete x).toFinset = s.toFinset.erase x := by
  ext y
  simp [delete, and_comm]

theorem toFinset_foldl_add (list : List α) :
    (list.foldl add s).toFinset = s.toFinset ∪ list.toFinset := by
  induction list generalizing s with
  | nil => simp
  | cons x list ih =>
      rw [List.foldl_cons, ih, toFinset_add, List.toFinset_cons, Finset.union_insert,
        Finset.insert_union]

theorem toFinset_foldl_delete (list : List α) :
    (list.foldl delete s).toFinset = s.toFinset \ list.toFinset := by
  induction list generalizing s with
  | nil => simp
  | cons x list ih =>
      rw [List.foldl_cons, ih, toFinset_delete, List.toFinset_cons]
      ext y
      simp only [Finset.mem_sdiff, Finset.mem_erase, Finset.mem_insert]
      tauto

@[simp] theorem toFinset_ofList (list : List α) : (ofList list).toFinset = list.toFinset := by
  rw [ofList, toFinset_foldl_add, toFinset_empty, Finset.empty_union]

@[simp] theorem toFinset_difference : (s.difference t).toFinset = s.toFinset \ t.toFinset := by
  ext x
  simp [difference, has]

theorem size_eq_card : s.size = s.toFinset.card := (List.toFinset_card_of_nodup s.nodup).symm

theorem size_eq_zero : s.size = 0 ↔ s.toFinset = ∅ := by
  rw [size_eq_card, Finset.card_eq_zero]

@[simp] theorem equal_iff : s.equal t = true ↔ s.toFinset = t.toFinset := by
  have inside : s.items.all t.has = true ↔ s.toFinset ⊆ t.toFinset := by
    rw [List.all_eq_true]
    exact ⟨fun all x member => has_iff.mp (all x (mem_toFinset.mp member)),
      fun sub x member => has_iff.mpr (sub (mem_toFinset.mpr member))⟩
  rw [equal, Bool.and_eq_true, beq_iff_eq, inside, size_eq_card, size_eq_card]
  constructor
  · rintro ⟨sameSize, sub⟩
    exact Finset.eq_of_subset_of_card_le sub sameSize.ge
  · intro same
    rw [same]
    exact ⟨rfl, Finset.Subset.refl _⟩

end JsSet

end Nvoy
