/-
**The files of the watchers**: the ids a watcher is through with, in memory and in a log beside it,
and the markers it leaves for the broker.

* `Seen.mark` — one more id; past the bound the oldest go, from the log as well;
* `Seen.reload` — what a new process reads: the lines of the log that are whole;
* `Seen.All` — what holds of every id a process ever marks holds of every id it knows;
* `Spool.leave` — the marker of one envelope: what is left there, and whether it counts;
* `Spool.written_of_leave` — where no cut-off file is in the way, what counts as left is there.
-/

import Mathlib.Data.List.Dedup

namespace Nvoy.Watch

/-- What becomes of an append to the log and of rewriting it. -/
structure LogWrites where
  appended : Bool
  rewritten : Bool
  deriving DecidableEq

/-- The ids, oldest first, in memory and on disk. -/
structure Seen where
  ids : List String
  log : List String

namespace Seen

def has (seen : Seen) (id : String) : Bool := seen.ids.contains id

/-- The last `retain` ids of a set that has grown past `cap`. -/
def trim (cap retain : Nat) (writes : LogWrites) (seen : Seen) : Seen :=
  if cap < seen.ids.length then
    let keep := seen.ids.drop (seen.ids.length - retain)
    ⟨keep, if writes.rewritten then keep else seen.log⟩
  else seen

def mark (cap retain : Nat) (writes : LogWrites) (seen : Seen) (id : String) : Seen :=
  if seen.has id then seen
  else trim cap retain writes
    ⟨seen.ids ++ [id], if writes.appended then seen.log ++ [id] else seen.log⟩

/-- A line that was torn, or that another one was appended to, is passed over. -/
def reload (seen : Seen) (whole : String → Bool) : Seen :=
  ⟨(seen.log.filter whole).dedup, seen.log⟩

/-- Every id that is known has the property. -/
def All (P : String → Prop) (seen : Seen) : Prop := (∀ id ∈ seen.ids, P id) ∧ ∀ id ∈ seen.log, P id

variable {P : String → Prop} {seen : Seen} {cap retain : Nat} {writes : LogWrites} {id : String}

theorem All.imp {Q : String → Prop} (all : seen.All P) (weaker : ∀ id, P id → Q id) : seen.All Q :=
  ⟨fun id mem => weaker id (all.1 id mem), fun id mem => weaker id (all.2 id mem)⟩

theorem All.trim (all : seen.All P) : (seen.trim cap retain writes).All P := by
  unfold Seen.trim
  by_cases past : cap < seen.ids.length
  · rw [if_pos past]
    refine ⟨fun id mem => all.1 id (List.mem_of_mem_drop mem), ?_⟩
    cases writes.rewritten with
    | true => exact fun id mem => all.1 id (List.mem_of_mem_drop mem)
    | false => exact all.2
  · rw [if_neg past]
    exact all

theorem All.mark (all : seen.All P) (own : P id) : (seen.mark cap retain writes id).All P := by
  unfold Seen.mark
  by_cases known : seen.has id = true
  · rw [if_pos known]
    exact all
  · rw [if_neg known]
    have one : ∀ {list : List String}, (∀ other ∈ list, P other) →
        ∀ other ∈ list ++ [id], P other := by
      intro list each other mem
      rcases List.mem_append.mp mem with old | new
      · exact each other old
      · rw [List.mem_singleton.mp new]
        exact own
    refine All.trim ⟨one all.1, ?_⟩
    cases writes.appended with
    | true => exact one all.2
    | false => exact all.2

theorem All.markIf (all : seen.All P) {counts : Bool} (own : counts = true → P id) :
    (if counts then seen.mark cap retain writes id else seen).All P := by
  cases counts with
  | true => exact all.mark (own rfl)
  | false => exact all

theorem All.reload (all : seen.All P) (whole : String → Bool) : (seen.reload whole).All P :=
  ⟨fun id mem => all.2 id (List.mem_of_mem_filter (List.mem_dedup.mp mem)), all.2⟩

end Seen

/-! ### The marker directory -/

/-- How far one marker got: nothing, a file that was cut off, a whole file whose owner or mode could
not be set, or all of it. -/
inductive MarkerWrite where
  | refused
  | torn
  | late
  | kept
  deriving DecidableEq

structure MarkerFile where
  envelope : String
  whole : Bool
  deriving DecidableEq

/-- The marker directory, and the envelopes whose marker was ever written whole. -/
structure Spool where
  files : List MarkerFile
  written : List String

def Spool.exists (spool : Spool) (id : String) : Bool := spool.files.any (·.envelope = id)

def Spool.add (spool : Spool) (id : String) (whole : Bool) : Spool :=
  ⟨spool.files ++ [⟨id, whole⟩], if whole then id :: spool.written else spool.written⟩

/-- Leaving the marker of an envelope, and whether it counts as left. A file that is there already
(`EEXIST`) is taken for the marker. -/
def Spool.leave (spool : Spool) (id : String) : MarkerWrite → Spool × Bool
  | .refused => (spool, false)
  | outcome =>
    if spool.exists id then (spool, true)
    else match outcome with
      | .torn => (spool.add id false, false)
      | .late => (spool.add id true, false)
      | _ => (spool.add id true, true)

/-- Every file of an envelope that is not written is a cut-off one. -/
def Spool.Sound (spool : Spool) : Prop :=
  ∀ file ∈ spool.files, file.whole = true → file.envelope ∈ spool.written

/-- The spool holds no cut-off marker of an envelope that never got a whole one. -/
def Spool.Clean (spool : Spool) (id : String) : Prop :=
  id ∉ spool.written → ∀ file ∈ spool.files, file.envelope = id → file.whole = true

instance (spool : Spool) (id : String) : Decidable (spool.Clean id) :=
  inferInstanceAs (Decidable (id ∉ spool.written → _))

section Leave

variable {spool : Spool} {id : String} {outcome : MarkerWrite}

theorem Spool.written_add {whole : Bool} {other : String} (known : other ∈ spool.written) :
    other ∈ (spool.add id whole).written := by
  cases whole with
  | true => exact List.mem_cons_of_mem _ known
  | false => exact known

theorem Spool.Sound.add (sound : spool.Sound) (whole : Bool) : (spool.add id whole).Sound := by
  intro file mem isWhole
  rcases List.mem_append.mp mem with old | new
  · exact Spool.written_add (sound file old isWhole)
  · rw [List.mem_singleton] at new
    subst new
    rw [show whole = true from isWhole]
    exact List.mem_cons_self

/-- What `leave` can do: nothing, find a file, or add one that counts when all of it is kept. -/
theorem Spool.leave_cases (spool : Spool) (id : String) (outcome : MarkerWrite) :
    outcome = .refused ∧ spool.leave id outcome = (spool, false) ∨
      spool.exists id = true ∧ spool.leave id outcome = (spool, true) ∨
      spool.leave id outcome =
        (spool.add id (decide (outcome ≠ .torn)), decide (outcome = .kept)) := by
  by_cases there : spool.exists id = true
  · cases outcome with
    | refused => exact .inl ⟨rfl, rfl⟩
    | torn | late | kept => exact .inr (.inl ⟨there, if_pos there⟩)
  · cases outcome with
    | refused => exact .inl ⟨rfl, rfl⟩
    | torn | late | kept => exact .inr (.inr (if_neg there))

theorem Spool.Sound.leave (sound : spool.Sound) : (spool.leave id outcome).1.Sound := by
  rcases spool.leave_cases id outcome with ⟨-, same⟩ | ⟨-, same⟩ | more
  · rw [same]; exact sound
  · rw [same]; exact sound
  · rw [more]; exact sound.add _

theorem Spool.written_leave {other : String} (known : other ∈ spool.written) :
    other ∈ (spool.leave id outcome).1.written := by
  rcases spool.leave_cases id outcome with ⟨-, same⟩ | ⟨-, same⟩ | more
  · rw [same]; exact known
  · rw [same]; exact known
  · rw [more]; exact Spool.written_add known

theorem Spool.written_of_exists (sound : spool.Sound) (clean : spool.Clean id)
    (there : spool.exists id = true) : id ∈ spool.written := by
  by_cases written : id ∈ spool.written
  · exact written
  · obtain ⟨file, mem, own⟩ := List.any_eq_true.mp there
    have own : file.envelope = id := of_decide_eq_true own
    exact own ▸ sound file mem (clean written file mem own)

/-- **A marker that was not cut off is there**, also where an earlier one stands in its place. -/
theorem Spool.written_of_whole (sound : spool.Sound) (clean : spool.Clean id)
    (whole : outcome = .late ∨ outcome = .kept) : id ∈ (spool.leave id outcome).1.written := by
  rcases spool.leave_cases id outcome with ⟨refused, -⟩ | ⟨there, same⟩ | more
  · rcases whole with rfl | rfl <;> cases refused
  · rw [same]
    exact Spool.written_of_exists sound clean there
  · rw [more]
    rcases whole with rfl | rfl <;> exact List.mem_cons_self

/-- **An envelope whose marker counts as left has one**, unless the file found was a cut-off one. -/
theorem Spool.written_of_leave (sound : spool.Sound) (clean : spool.Clean id)
    (counts : (spool.leave id outcome).2 = true) : id ∈ (spool.leave id outcome).1.written := by
  rcases spool.leave_cases id outcome with ⟨-, same⟩ | ⟨there, same⟩ | more
  · rw [same] at counts
    cases counts
  · rw [same]
    exact Spool.written_of_exists sound clean there
  · rw [more] at counts
    exact Spool.written_of_whole sound clean (.inr (of_decide_eq_true counts))

/-- Where the writes of a marker work, it counts as left. -/
theorem Spool.leave_kept : (spool.leave id .kept).2 = true := by
  rcases spool.leave_cases id .kept with ⟨refused, -⟩ | ⟨-, same⟩ | more
  · cases refused
  · rw [same]
  · rw [more]
    rfl

end Leave

end Nvoy.Watch
