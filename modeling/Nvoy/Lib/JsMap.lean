/-
Insertion-ordered maps: the `Map` of the source.

A `JsMap` lists its entries in the order their keys were first set, and no key twice. Setting a key
that is present keeps its place; deleting and filtering keep the order of the rest.

* `get_set`, `get_delete`, `get_filter`, `get_mapValues` — every operation at one key.
* `mem_entries` — an entry is what the map answers at its key.
* `Same` — two maps that answer alike at every key, whatever the order of their entries.
-/

import Mathlib.Data.List.Induction
import Mathlib.Data.List.Nodup

namespace Nvoy

/-- A map that remembers the order its keys were first set in. -/
structure JsMap (κ ν : Type) where
  entries : List (κ × ν)
  nodup : (entries.map Prod.fst).Nodup
  deriving DecidableEq

namespace JsMap

variable {κ ν μ : Type}

def empty : JsMap κ ν := ⟨[], List.nodup_nil⟩

def keys (m : JsMap κ ν) : List κ := m.entries.map Prod.fst

def values (m : JsMap κ ν) : List ν := m.entries.map Prod.snd

def size (m : JsMap κ ν) : Nat := m.entries.length

def filter (m : JsMap κ ν) (keep : κ → ν → Bool) : JsMap κ ν where
  entries := m.entries.filter fun entry => keep entry.1 entry.2
  nodup := m.nodup.sublist (List.filter_sublist.map Prod.fst)

def mapValues (m : JsMap κ ν) (f : ν → μ) : JsMap κ μ where
  entries := m.entries.map fun entry => (entry.1, f entry.2)
  nodup := by simpa [Function.comp_def] using m.nodup

variable [DecidableEq κ]

def get (m : JsMap κ ν) (key : κ) : Option ν :=
  (m.entries.find? fun entry => entry.1 = key).map Prod.snd

def has (m : JsMap κ ν) (key : κ) : Bool := decide (key ∈ m.keys)

def delete (m : JsMap κ ν) (key : κ) : JsMap κ ν := m.filter fun other _ => other ≠ key

theorem has_eq_false {m : JsMap κ ν} {key : κ} : m.has key = false ↔ key ∉ m.keys := by
  simp [has]

/-- A key that is present keeps its place; a new one goes last. -/
def set (m : JsMap κ ν) (key : κ) (value : ν) : JsMap κ ν :=
  if present : m.has key = true then
    { entries := m.entries.map fun entry => if entry.1 = key then (key, value) else entry
      nodup := by
        have same : (m.entries.map fun entry => if entry.1 = key then (key, value) else entry).map
            Prod.fst = m.entries.map Prod.fst := by
          rw [List.map_map]
          refine List.map_congr_left fun entry _ => ?_
          by_cases hit : entry.1 = key
          · simp [hit]
          · simp [hit]
        rw [same]
        exact m.nodup }
  else
    { entries := m.entries ++ [(key, value)]
      nodup := by
        have absent : key ∉ m.keys := has_eq_false.mp (Bool.eq_false_iff.mpr present)
        rw [List.map_append, List.nodup_append]
        refine ⟨m.nodup, List.nodup_singleton _, ?_⟩
        intro old member other single
        rw [List.map_singleton, List.mem_singleton] at single
        rw [single]
        rintro rfl
        exact absent member }

/-! ### Entries and answers -/

theorem mem_entries {m : JsMap κ ν} {key : κ} {value : ν} :
    (key, value) ∈ m.entries ↔ m.get key = some value := by
  constructor
  · intro member
    obtain ⟨found, hit⟩ := Option.isSome_iff_exists.mp
      (List.find?_isSome (p := fun entry : κ × ν => decide (entry.1 = key)) |>.mpr
        ⟨(key, value), member, by simp⟩)
    have sameKey : found.1 = key := by simpa using List.find?_some hit
    have same : found = (key, value) :=
      List.inj_on_of_nodup_map m.nodup (List.mem_of_find?_eq_some hit) member sameKey
    rw [get, hit, same]
    rfl
  · intro answer
    obtain ⟨found, hit, rfl⟩ := Option.map_eq_some_iff.mp answer
    have sameKey : found.1 = key := by simpa using List.find?_some hit
    rw [← sameKey]
    exact List.mem_of_find?_eq_some hit

theorem mem_keys {m : JsMap κ ν} {key : κ} : key ∈ m.keys ↔ ∃ value, m.get key = some value := by
  rw [keys, List.mem_map]
  constructor
  · rintro ⟨⟨other, value⟩, member, rfl⟩
    exact ⟨value, mem_entries.mp member⟩
  · rintro ⟨value, answer⟩
    exact ⟨(key, value), mem_entries.mpr answer, rfl⟩

theorem mem_values {m : JsMap κ ν} {value : ν} :
    value ∈ m.values ↔ ∃ key, m.get key = some value := by
  rw [values, List.mem_map]
  constructor
  · rintro ⟨⟨key, other⟩, member, rfl⟩
    exact ⟨key, mem_entries.mp member⟩
  · rintro ⟨key, answer⟩
    exact ⟨(key, value), mem_entries.mpr answer, rfl⟩

theorem has_iff {m : JsMap κ ν} {key : κ} : m.has key = true ↔ ∃ value, m.get key = some value := by
  rw [← mem_keys, ← not_iff_not, Bool.not_eq_true]
  exact has_eq_false

theorem has_eq_isSome (m : JsMap κ ν) (key : κ) : m.has key = (m.get key).isSome := by
  rw [Bool.eq_iff_iff, has_iff, Option.isSome_iff_exists]

/-- Two answers agree when they agree on every value. -/
theorem get_ext {m : JsMap κ ν} {key : κ} {answer : Option ν}
    (agree : ∀ value, (key, value) ∈ m.entries ↔ answer = some value) : m.get key = answer := by
  refine Option.ext fun value => ?_
  rw [← mem_entries]
  exact agree value

theorem size_eq_zero {m : JsMap κ ν} : m.size = 0 ↔ ∀ key, m.get key = none := by
  rw [size, List.length_eq_zero_iff, List.eq_nil_iff_forall_not_mem]
  constructor
  · intro empty key
    exact get_ext fun value => by simp [empty (key, value)]
  · rintro none ⟨key, value⟩ member
    rw [mem_entries, none key] at member
    exact absurd member (by simp)

theorem size_ne_zero {m : JsMap κ ν} : m.size ≠ 0 ↔ ∃ key value, m.get key = some value := by
  rw [Ne, size_eq_zero, not_forall]
  exact exists_congr fun key => Option.ne_none_iff_exists'

/-! ### The operations at one key -/

@[simp] theorem get_empty (key : κ) : (empty : JsMap κ ν).get key = none := rfl

theorem get_filter (m : JsMap κ ν) (keep : κ → ν → Bool) (key : κ) :
    (m.filter keep).get key = (m.get key).filter (keep key) := by
  refine get_ext fun value => ?_
  simp only [filter, List.mem_filter, mem_entries, Option.filter_eq_some_iff]

theorem get_delete (m : JsMap κ ν) (key other : κ) :
    (m.delete key).get other = if other = key then none else m.get other := by
  rw [delete, get_filter]
  by_cases same : other = key
  · simp [same]
  · cases m.get other <;> simp [same]

theorem get_mapValues (m : JsMap κ ν) (f : ν → μ) (key : κ) :
    (m.mapValues f).get key = (m.get key).map f := by
  refine get_ext fun value => ?_
  simp only [mapValues, List.mem_map, Prod.mk.injEq, Prod.exists, Option.map_eq_some_iff]
  constructor
  · rintro ⟨key, old, member, rfl, rfl⟩
    exact ⟨old, mem_entries.mp member, rfl⟩
  · rintro ⟨old, answer, rfl⟩
    exact ⟨key, old, mem_entries.mpr answer, rfl, rfl⟩

theorem get_set (m : JsMap κ ν) (key other : κ) (value : ν) :
    (m.set key value).get other = if other = key then some value else m.get other := by
  refine get_ext fun found => ?_
  by_cases present : m.has key = true
  · rw [set, dif_pos present]
    simp only [List.mem_map]
    by_cases same : other = key
    · subst same
      rw [if_pos rfl]
      obtain ⟨old, answer⟩ := has_iff.mp present
      constructor
      · rintro ⟨⟨k, v⟩, member, same⟩
        by_cases hit : k = other
        · rw [if_pos hit] at same
          exact congrArg some (Prod.mk.inj same).2
        · rw [if_neg hit] at same
          exact absurd (Prod.mk.inj same).1 hit
      · intro same
        cases same
        exact ⟨(other, old), mem_entries.mpr answer, by simp⟩
    · rw [if_neg same, ← mem_entries]
      constructor
      · rintro ⟨⟨k, v⟩, member, shape⟩
        by_cases hit : k = key
        · rw [if_pos hit] at shape
          exact absurd (Prod.mk.inj shape).1.symm same
        · rw [if_neg hit] at shape
          exact shape ▸ member
      · intro member
        exact ⟨(other, found), member, by simp [same]⟩
  · rw [set, dif_neg present]
    have absent : m.get key = none := by
      refine Option.eq_none_iff_forall_ne_some.mpr fun old answer => present ?_
      exact has_iff.mpr ⟨old, answer⟩
    simp only [List.mem_append, List.mem_singleton, Prod.mk.injEq, mem_entries]
    by_cases same : other = key
    · subst same
      rw [if_pos rfl, absent]
      simp [eq_comm]
    · simp [same]

/-- Setting one value at the key of every entry that passes a test. -/
theorem get_foldl_set {ε : Type} (entries : List ε) (keyOf : ε → κ) (hit : ε → Prop)
    [DecidablePred hit] (value : ν) (m : JsMap κ ν) (key : κ) :
    (entries.foldl (fun m entry => if hit entry then m.set (keyOf entry) value else m) m).get key =
      if ∃ entry ∈ entries, keyOf entry = key ∧ hit entry then some value else m.get key := by
  induction entries generalizing m with
  | nil => simp
  | cons entry entries ih =>
      rw [List.foldl_cons, ih]
      by_cases later : ∃ other ∈ entries, keyOf other = key ∧ hit other
      · obtain ⟨other, member, found⟩ := later
        rw [if_pos ⟨other, member, found⟩, if_pos ⟨other, List.mem_cons_of_mem _ member, found⟩]
      · rw [if_neg later]
        by_cases here : keyOf entry = key ∧ hit entry
        · rw [if_pos here.2, get_set, if_pos here.1.symm]
          exact (if_pos ⟨entry, List.mem_cons_self, here⟩).symm
        · have none : ¬ ∃ other ∈ entry :: entries, keyOf other = key ∧ hit other := by
            rintro ⟨other, member, found⟩
            rcases List.mem_cons.mp member with rfl | member
            · exact here found
            · exact later ⟨other, member, found⟩
          rw [if_neg none]
          by_cases hits : hit entry
          · rw [if_pos hits, get_set, if_neg fun same => here ⟨same.symm, hits⟩]
          · rw [if_neg hits]

/-- Setting a value for every entry keeps the last one of a key. -/
theorem get_foldl_last {ε : Type} (entries : List ε) (keyOf : ε → κ) (valueOf : ε → ν) (m : JsMap κ ν) (key : κ) :
    (entries.foldl (fun m entry => m.set (keyOf entry) (valueOf entry)) m).get key =
      ((entries.filter (keyOf · = key)).getLast?.map valueOf).or (m.get key) := by
  induction entries using List.reverseRecOn with
  | nil => rfl
  | append_singleton entries entry ih =>
      rw [List.foldl_append, List.foldl_cons, List.foldl_nil, get_set, List.filter_append]
      by_cases same : keyOf entry = key
      · have last : [entry].filter (keyOf · = key) = [entry] := by simp [same]
        rw [if_pos same.symm, last, List.getLast?_concat]
        rfl
      · have none : [entry].filter (keyOf · = key) = [] := by simp [same]
        rw [if_neg fun eq => same eq.symm, none, List.append_nil, ih]

/-- The values of those keys that have one, as `Object.fromEntries` collects them. -/
def collect (keys : List κ) (value : κ → Option ν) : JsMap κ ν :=
  keys.foldl (fun m key => match value key with
    | some v => m.set key v
    | none => m) empty

theorem get_collect (keys : List κ) (value : κ → Option ν) (key : κ) :
    (collect keys value).get key = if key ∈ keys then value key else none := by
  unfold collect
  induction keys using List.reverseRecOn with
  | nil => rfl
  | append_singleton keys last ih =>
      rw [List.foldl_append, List.foldl_cons, List.foldl_nil]
      by_cases here : key = last
      · subst here
        rw [if_pos (List.mem_append_right _ (List.mem_singleton_self key))]
        cases found : value key with
        | none =>
            simp only
            rw [ih]
            split_ifs
            · exact found
            · rfl
        | some v =>
            simp only
            rw [get_set, if_pos rfl]
      · have same : key ∈ keys ++ [last] ↔ key ∈ keys := by
          rw [List.mem_append, List.mem_singleton, or_iff_left here]
        rw [if_congr same rfl rfl, ← ih]
        cases value last with
        | none => rfl
        | some v =>
            simp only
            rw [get_set, if_neg here]

theorem get_foldl_delete (keys : List κ) (m : JsMap κ ν) (key : κ) :
    (keys.foldl (fun m other => m.delete other) m).get key =
      if key ∈ keys then none else m.get key := by
  induction keys generalizing m with
  | nil => simp
  | cons other keys ih =>
      rw [List.foldl_cons, ih, get_delete]
      by_cases same : key = other
      · simp [same]
      · by_cases member : key ∈ keys <;> simp [same, member]

@[simp] theorem get_set_self (m : JsMap κ ν) (key : κ) (value : ν) :
    (m.set key value).get key = some value := by
  rw [get_set, if_pos rfl]

/-- The two maps hold the same value at every key. -/
def Same (m m' : JsMap κ ν) : Prop := ∀ key, m.get key = m'.get key

theorem Same.entries {m m' : JsMap κ ν} (same : Same m m') : m.entries.Perm m'.entries := by
  refine (List.perm_ext_iff_of_nodup m.nodup.of_map m'.nodup.of_map).mpr ?_
  rintro ⟨key, value⟩
  rw [mem_entries, mem_entries, same key]

theorem Same.values {m m' : JsMap κ ν} (same : Same m m') : m.values.Perm m'.values :=
  same.entries.map _

end JsMap

end Nvoy
