/-
**Logs that keep their recent end.**

A capped log keeps its last `cap` records, `List.rtake`. A reader of the log asks for the `latest`
record that passes a test:

* `rtake_rtake_append` — capping at every append keeps what capping once at the end keeps;
* `latest_append` — a log and more records: the latest among the new ones, else the old answer;
* `latest_rtake` — a capped log that still has such a record answers as the whole log does;
* `foldl_enter` — records entered one by one into a bounded log of distinct records;
* `get_filed` — records filed under their own keys: a key has the latest record of it;
* `Newest` — a list that holds the newest of a set, up to a bound: `Newest.mem_of_length_le` where
  all of them fit, `Newest.notMem_of_newer` where enough newer ones crowd a record out;
* `ages`, `Newest.ages_eq` — the ages of the set, newest first: those of the list, then those left out.
-/

import Nvoy.Lib.JsMap
import Mathlib.Data.List.DropRight
import Mathlib.Data.List.Dedup
import Mathlib.Data.List.Sort

namespace Nvoy.Recent

variable {α : Type}

/-! ### The capped log -/

theorem rtake_eq_drop (log : List α) (cap : Nat) : log.rtake cap = log.drop (log.length - cap) := rfl

theorem rtake_of_le {log : List α} {cap : Nat} (short : log.length ≤ cap) :
    log.rtake cap = log := by
  rw [rtake_eq_drop, Nat.sub_eq_zero_of_le short, List.drop_zero]

theorem length_rtake (log : List α) (cap : Nat) : (log.rtake cap).length = min log.length cap := by
  rw [rtake_eq_drop, List.length_drop]
  omega

/-- Capping at every append keeps what capping once at the end keeps. -/
theorem rtake_rtake_append (log more : List α) (cap : Nat) :
    (log.rtake cap ++ more).rtake cap = (log ++ more).rtake cap := by
  simp only [rtake_eq_drop, List.length_append, List.length_drop, List.drop_append, List.drop_drop]
  congr 2 <;> omega

/-- Enough new records, and nothing older is left. -/
theorem rtake_append_of_le (log : List α) {more : List α} {cap : Nat} (full : cap ≤ more.length) :
    (log ++ more).rtake cap = more.rtake cap := by
  rw [rtake_eq_drop, rtake_eq_drop, List.length_append, List.drop_append,
    List.drop_eq_nil_of_le (by omega), List.nil_append]
  congr 1
  omega

/-! ### Distinct records -/

theorem rtake_of_length_le_succ {log : List α} {cap : Nat} (almost : log.length ≤ cap + 1) :
    log.rtake cap = if cap < log.length then log.tail else log := by
  split_ifs with past
  · have one : log.length - cap = 1 := by omega
    rw [rtake_eq_drop, one, List.drop_one]
  · exact rtake_of_le (by omega)

section Distinct

variable [DecidableEq α]

/-- A record is entered at the end of a bounded log that holds each once. -/
def enter (cap : Nat) (log : List α) (a : α) : List α :=
  let next := log.erase a ++ [a]
  if cap < next.length then next.tail else next

/-- A new record at the end takes the place of an older one. -/
theorem dedup_concat (log : List α) (a : α) : (log ++ [a]).dedup = log.dedup.erase a ++ [a] := by
  induction log with
  | nil => simp
  | cons b log ih =>
      rw [List.cons_append]
      by_cases inside : b ∈ log
      · rw [List.dedup_cons_of_mem (List.mem_append_left _ inside), List.dedup_cons_of_mem inside, ih]
      · by_cases same : b = a
        · subst same
          rw [List.dedup_cons_of_mem (List.mem_append_right _ List.mem_cons_self),
            List.dedup_cons_of_notMem inside, ih, List.erase_cons_head,
            List.erase_of_not_mem (mt List.mem_dedup.mp inside)]
        · have outside : b ∉ log ++ [a] := by
            rw [List.mem_append, List.mem_singleton]
            exact not_or.mpr ⟨inside, same⟩
          rw [List.dedup_cons_of_notMem outside, List.dedup_cons_of_notMem inside, ih,
            List.erase_cons_tail (by simpa using same), List.cons_append]

theorem enter_rtake {log : List α} (nodup : log.Nodup) (cap : Nat) (a : α) :
    enter cap (log.rtake cap) a = (log.erase a ++ [a]).rtake cap := by
  have few := length_rtake log cap
  have split : log.take (log.length - cap) ++ log.rtake cap = log := List.take_append_drop _ _
  have short : (log.take (log.length - cap)).length = log.length - cap := by simp
  generalize log.take (log.length - cap) = front at split short
  generalize log.rtake cap = kept at split few ⊢
  subst split
  rw [List.length_append] at few short
  have whole : front = [] ∨ kept.length = cap := by
    by_cases empty : front = []
    · exact .inl empty
    · have some := List.length_pos_of_ne_nil empty
      exact .inr (by omega)
  have almost : (kept.erase a ++ [a]).length ≤ cap + 1 := by
    have le := (List.erase_sublist (l := kept) (a := a)).length_le
    rw [List.length_append, List.length_singleton]
    omega
  rw [enter, ← rtake_of_length_le_succ almost]
  obtain rfl | full := whole
  · rw [List.nil_append]
  · by_cases inside : a ∈ kept
    · have outside : a ∉ front := fun early => (List.nodup_append.mp nodup).2.2 a early a inside rfl
      have same := List.length_erase_of_mem inside
      have some := List.length_pos_of_mem inside
      have room : cap ≤ (kept.erase a ++ [a]).length := by
        rw [List.length_append, List.length_singleton]
        omega
      rw [List.erase_append_right _ outside, List.append_assoc, rtake_append_of_le _ room]
    · have room : cap ≤ (kept ++ [a]).length := by
        rw [List.length_append, full]
        exact Nat.le_add_right cap _
      rw [List.erase_of_not_mem inside]
      by_cases early : a ∈ front
      · rw [List.erase_append_left _ early, List.append_assoc, rtake_append_of_le _ room]
      · have outside : a ∉ front ++ kept := by
          rw [List.mem_append]
          exact not_or.mpr ⟨early, inside⟩
        rw [List.erase_of_not_mem outside, List.append_assoc, rtake_append_of_le _ room]

/-- **What records entered one by one leave: the last of the distinct ones.** -/
theorem foldl_enter (log : List α) (cap : Nat) : log.foldl (enter cap) [] = log.dedup.rtake cap := by
  induction log using List.reverseRecOn with
  | nil => simp [rtake_eq_drop]
  | append_singleton log a ih =>
      rw [List.foldl_append, ih, List.foldl_cons, List.foldl_nil, enter_rtake (List.nodup_dedup log),
        dedup_concat]

end Distinct

/-! ### The latest record -/

/-- The last record that passes. -/
def latest (passes : α → Bool) (log : List α) : Option α := (log.filter passes).getLast?

variable {passes : α → Bool} {log more : List α}

@[simp]
theorem latest_nil : latest passes [] = none := rfl

theorem latest_append :
    latest passes (log ++ more) = (latest passes more).or (latest passes log) := by
  rw [latest, List.filter_append, List.getLast?_append]
  rfl

theorem latest_append_of_none (quiet : latest passes more = none) :
    latest passes (log ++ more) = latest passes log := by
  rw [latest_append, quiet, Option.none_or]

theorem latest_eq_none : latest passes log = none ↔ ∀ record ∈ log, passes record = false := by
  rw [latest, List.getLast?_eq_none_iff, List.filter_eq_nil_iff]
  simp only [Bool.not_eq_true]

theorem latest_isSome : (latest passes log).isSome ↔ ∃ record ∈ log, passes record = true := by
  rw [Option.isSome_iff_ne_none, Ne, latest_eq_none]
  simp only [not_forall, Bool.not_eq_false, exists_prop]

theorem mem_of_latest {record : α} (found : latest passes log = some record) :
    record ∈ log ∧ passes record = true :=
  List.mem_filter.mp (List.mem_of_getLast? found)

/-- A capped log that still has a passing record answers as the whole log does. -/
theorem latest_rtake {cap : Nat} (kept : (latest passes (log.rtake cap)).isSome) :
    latest passes (log.rtake cap) = latest passes log := by
  obtain ⟨record, found⟩ := Option.isSome_iff_exists.mp kept
  conv_rhs => rw [← List.take_append_drop (log.length - cap) log, latest_append]
  rw [rtake_eq_drop] at found ⊢
  rw [found, Option.some_or]

/-! ### Records filed under their own keys -/

section Filed

variable {κ : Type} [DecidableEq κ] (keyOf : α → κ)

/-- Each record under its key, the last one of a key in the place of the first. -/
def filed (records : List α) : JsMap κ α :=
  records.foldl (fun found record => found.set (keyOf record) record) .empty

theorem get_filed (records : List α) (key : κ) :
    (filed keyOf records).get key = latest (fun record => keyOf record = key) records := by
  unfold filed
  induction records using List.reverseRecOn with
  | nil => rfl
  | append_singleton front last ih =>
      rw [List.foldl_append, List.foldl_cons, List.foldl_nil, JsMap.get_set, latest_append, ih]
      by_cases here : key = keyOf last
      · simp [here, latest]
      · rw [if_neg here]
        have quiet : latest (fun record => decide (keyOf record = key)) [last] = none := by
          simpa [latest_eq_none] using Ne.symm here
        rw [quiet, Option.none_or]

theorem of_mem_filed {records : List α} {record : α}
    (mem : record ∈ (filed keyOf records).values) : record ∈ records := by
  obtain ⟨key, found⟩ := JsMap.mem_values.mp mem
  rw [get_filed] at found
  exact (mem_of_latest found).1

/-- Every key of a record has a record in the file. -/
theorem exists_mem_filed {records : List α} {record : α} (mem : record ∈ records) :
    ∃ kept ∈ (filed keyOf records).values, keyOf kept = keyOf record := by
  have there : (latest (fun other => keyOf other = keyOf record) records).isSome :=
    latest_isSome.mpr ⟨record, mem, by simp⟩
  obtain ⟨kept, found⟩ := Option.isSome_iff_exists.mp there
  refine ⟨kept, JsMap.mem_values.mpr ⟨keyOf record, ?_⟩, ?_⟩
  · rw [get_filed, found]
  · simpa using (mem_of_latest found).2

theorem mem_values_filed {records : List α} {record : α} :
    record ∈ (filed keyOf records).values ↔
      latest (fun other => keyOf other = keyOf record) records = some record := by
  rw [JsMap.mem_values]
  constructor
  · rintro ⟨key, found⟩
    rw [get_filed] at found
    have own : keyOf record = key := by simpa using (mem_of_latest found).2
    rwa [own]
  · intro found
    exact ⟨keyOf record, by rw [get_filed, found]⟩

end Filed

/-! ### The newest of a set -/

section Bounded

variable (age : α → Int) (limit : Nat)

/-- What is listed is of the set, no more than the bound; what is left out is left out of a full
list, and is no newer than anything listed. -/
structure Newest (all listed : List α) : Prop where
  nodup : listed.Nodup
  of_mem : ∀ record ∈ listed, record ∈ all
  length_le : listed.length ≤ limit
  rest : ∀ record ∈ all, record ∉ listed →
    listed.length = limit ∧ ∀ other ∈ listed, age record ≤ age other

variable {age limit} {all listed : List α}

/-- A set within the bound is listed whole. -/
theorem Newest.mem_of_length_le (newest : Newest age limit all listed) (fits : all.length ≤ limit)
    {record : α} (mem : record ∈ all) : record ∈ listed := by
  by_contra absent
  have full := (newest.rest record mem absent).1
  have room := (List.subperm_of_subset (List.nodup_cons.mpr ⟨absent, newest.nodup⟩)
    (List.cons_subset.mpr ⟨mem, newest.of_mem⟩)).length_le
  rw [List.length_cons] at room
  omega

/-- As many newer records as the bound, and the record is not listed. -/
theorem Newest.notMem_of_newer (newest : Newest age limit all listed) {record : α}
    {newer : List α} (nodup : newer.Nodup) (full : limit ≤ newer.length)
    (after : ∀ other ∈ newer, other ∈ all ∧ age record < age other) : record ∉ listed := by
  intro mem
  have inside : newer ⊆ listed := by
    intro other here
    by_contra absent
    have older := (newest.rest other (after other here).1 absent).2 record mem
    exact absurd (after other here).2 (by omega)
  have apart : record ∉ newer := fun here => absurd (after record here).2 (by omega)
  have room := (List.subperm_of_subset (List.nodup_cons.mpr ⟨apart, nodup⟩)
    (List.cons_subset.mpr ⟨mem, inside⟩)).length_le
  rw [List.length_cons] at room
  exact absurd newest.length_le (by omega)

theorem Newest.perm [DecidableEq α] (newest : Newest age limit all listed) (nodup : all.Nodup) :
    all.Perm (listed ++ all.filter (· ∉ listed)) := by
  refine (List.perm_ext_iff_of_nodup nodup ?_).mpr fun record => ?_
  · refine List.nodup_append.mpr ⟨newest.nodup, nodup.filter _, ?_⟩
    rintro record member other left rfl
    exact of_decide_eq_true (List.mem_filter.mp left).2 member
  · rw [List.mem_append, List.mem_filter, decide_eq_true_eq]
    by_cases inside : record ∈ listed
    · simp [inside, newest.of_mem record inside]
    · simp [inside]

/-- The ages, the newest first. -/
def ages (age : α → Int) (records : List α) : List Int := (records.map age).insertionSort (· ≥ ·)

theorem ages_perm (records : List α) : (ages age records).Perm (records.map age) :=
  List.perm_insertionSort _ _

theorem length_ages (records : List α) : (ages age records).length = records.length := by
  rw [(ages_perm records).length_eq, List.length_map]

theorem ages_sorted (records : List α) : (ages age records).Pairwise (· ≥ ·) :=
  List.pairwise_insertionSort _ _

theorem ages_eq_of_perm {records others : List α} (perm : records.Perm others) :
    ages age records = ages age others :=
  List.Perm.eq_of_pairwise' (ages_sorted records) (ages_sorted others)
    ((ages_perm records).trans ((perm.map age).trans (ages_perm others).symm))

theorem ages_append {front back : List α} (newer : ∀ a ∈ front, ∀ b ∈ back, age b ≤ age a) :
    ages age (front ++ back) = ages age front ++ ages age back := by
  refine List.Perm.eq_of_pairwise' (ages_sorted _) ?_ ?_
  · refine List.pairwise_append.mpr ⟨ages_sorted front, ages_sorted back, fun x first y second => ?_⟩
    obtain ⟨a, inFront, rfl⟩ := List.mem_map.mp ((ages_perm front).mem_iff.mp first)
    obtain ⟨b, inBack, rfl⟩ := List.mem_map.mp ((ages_perm back).mem_iff.mp second)
    exact newer a inFront b inBack
  · refine (ages_perm _).trans ?_
    rw [List.map_append]
    exact ((ages_perm front).append (ages_perm back)).symm

/-- What is listed comes first, and then what is left out. -/
theorem Newest.ages_eq [DecidableEq α] (newest : Newest age limit all listed) (nodup : all.Nodup) :
    ages age all = ages age listed ++ ages age (all.filter (· ∉ listed)) := by
  rw [ages_eq_of_perm (newest.perm nodup)]
  refine ages_append fun a member b left => ?_
  obtain ⟨inside, outside⟩ := List.mem_filter.mp left
  exact (newest.rest b inside (of_decide_eq_true outside)).2 a member

/-- A sorted start of the set. -/
def newestOf [DecidableEq α] (age : α → Int) (limit : Nat) (all : List α) : List α :=
  (all.dedup.insertionSort fun a b => age b ≤ age a).take limit

theorem newest_newestOf [DecidableEq α] (all : List α) :
    Newest age limit all (newestOf age limit all) := by
  have sorted : (all.dedup.insertionSort fun a b => age b ≤ age a).Pairwise
      fun a b => age b ≤ age a := by
    have : Std.Total fun a b : α => age b ≤ age a := ⟨fun a b => Int.le_total _ _⟩
    have : IsTrans α fun a b : α => age b ≤ age a := ⟨fun a b c ab bc => Int.le_trans bc ab⟩
    exact List.pairwise_insertionSort _ _
  have whole : ∀ record, record ∈ all.dedup.insertionSort (fun a b => age b ≤ age a) ↔
      record ∈ all := fun record => (List.mem_insertionSort _).trans List.mem_dedup
  refine ⟨?_, ?_, ?_, ?_⟩
  · exact ((List.perm_insertionSort _ _).nodup_iff.mpr all.nodup_dedup).sublist
      (List.take_sublist _ _)
  · exact fun record mem => (whole record).mp (List.mem_of_mem_take mem)
  · exact List.length_take_le _ _
  · intro record mem absent
    have later := (whole record).mpr mem
    rw [← List.take_append_drop limit (all.dedup.insertionSort _), List.mem_append] at later
    have dropped := later.resolve_left absent
    have long := List.length_pos_of_mem dropped
    rw [List.length_drop] at long
    refine ⟨?_, fun other here => ?_⟩
    · rw [newestOf, List.length_take]
      omega
    · rw [← List.take_append_drop limit (all.dedup.insertionSort _)] at sorted
      exact (List.pairwise_append.mp sorted).2.2 other here record dropped

end Bounded

end Nvoy.Recent
