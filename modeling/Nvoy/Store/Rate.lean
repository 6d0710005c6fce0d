/-
The hourly cap of a writer, over whole runs.

* `accepted` — the events of a writer that are stored and were accepted in the hour before an instant;
* `rate_capped` — along every run whose clock does not go back there are never more of them than the
  writer's cap, and what the next submit counts is exactly their number: so neither a purge nor a
  submit that commits nothing changes what counts;
* `submit_unlogged` — a submit is answered without being committed unless it is accepted, or refused
  because the append of its ledger line failed; `refused_counts` is the latter.
-/

import Nvoy.Store.Retention
import Nvoy.Store.Swap

namespace Nvoy.Store

open Memory

/-! ### The clock and the accepted events -/

def Action.nowSec : Action → Option Int
  | .submit req _ => some req.nowSec
  | .hardDelete _ nowSec _ => some nowSec
  | .purgeRetention nowSec _ => some nowSec
  | _ => none

/-- The times of the submits and purges of a run. -/
def times (actions : List Action) : List Int := actions.filterMap Action.nowSec

def Commit.entry (c : Commit) : RateEntry := ⟨c.v.ev.id, c.v.pubkey, c.nowSec⟩

def Database.stores (db : Database) (id : String) : Bool := decide (id ∈ db.events.ids.items)

/-- The events of a key that are stored and were accepted in the hour up to `instant`. -/
def accepted (commits : List Commit) (db : Database) (pubkey : String) (instant : Int) :
    List RateEntry :=
  (commits.map Commit.entry).filter fun entry => entry.pubkey = pubkey && db.stores entry.eventId &&
    instant - 3600 < entry.acceptedAt && entry.acceptedAt ≤ instant

section Accepted

variable {commits : List Commit} {c : Commit} {db : Database} {pubkey : String} {instant : Int}
  {entry : RateEntry} {actions : List Action} {action : Action}

theorem stores_iff {id : String} : db.stores id = true ↔ id ∈ db.events.ids.toFinset := by
  rw [Database.stores, decide_eq_true_eq, JsSet.mem_toFinset]

theorem mem_accepted : entry ∈ accepted commits db pubkey instant ↔
    entry ∈ commits.map Commit.entry ∧ entry.pubkey = pubkey ∧
      entry.eventId ∈ db.events.ids.toFinset ∧ instant - 3600 < entry.acceptedAt ∧
      entry.acceptedAt ≤ instant := by
  unfold accepted
  rw [List.mem_filter]
  simp only [Bool.and_eq_true, decide_eq_true_eq, stores_iff, and_assoc]

end Accepted

/-! ### The rate log of a run -/

/-- What the rate log holds, after the submits committed so far at these times. -/
structure Rated (times : List Int) (commits : List Commit) (db : Database) (hist : List Line) :
    Prop where
  known : ∀ c ∈ commits, c.v.ev.id ∈ db.events.ids.toFinset ∨
    c.v.ev.id ∈ (foldLedger hist).purged.toFinset
  nodup : (commits.map fun c => c.v.ev.id).Nodup
  timed : ∀ c ∈ commits, c.nowSec ∈ times
  inside : db.rateLog.Sublist (commits.map Commit.entry)
  stored : ∀ entry ∈ db.rateLog, entry.eventId ∈ db.events.ids.toFinset
  /-- The entry of a stored event stays for a day. -/
  kept : ∀ c ∈ commits, c.v.ev.id ∈ db.events.ids.toFinset →
    (∀ time ∈ times, time - 86400 ≤ c.nowSec) → c.entry ∈ db.rateLog

section Rating

variable {host : Host} {config : Config} {requireMigratedIds : List String} {w : World}
  {db db' : Database} {hist hist' : List Line} {base : Nat} {commits : List Commit} {c : Commit}
  {clock longer : List Int} {nowSec : Int} {actions : List Action} {action : Action}

theorem nodup_entries (nodup : (commits.map fun c => c.v.ev.id).Nodup) :
    (commits.map Commit.entry).Nodup := by
  refine List.Nodup.of_map RateEntry.eventId ?_
  rw [List.map_map]
  exact nodup

/-- What the next submit counts are the accepted events of the hour. -/
theorem Rated.count_eq (rated : Rated clock commits db hist) (pubkey : String)
    (latest : ∀ time ∈ clock, time ≤ nowSec) :
    rateCount db pubkey nowSec = (accepted commits db pubkey nowSec).length := by
  have nodup := nodup_entries rated.nodup
  unfold rateCount
  refine List.Perm.length_eq ((List.perm_ext_iff_of_nodup
    ((nodup.sublist rated.inside).filter _) (nodup.filter _)).mpr fun entry => ?_)
  show _ ↔ entry ∈ accepted commits db pubkey nowSec
  rw [mem_accepted, List.mem_filter]
  simp only [Bool.and_eq_true, decide_eq_true_eq]
  constructor
  · rintro ⟨logged, own, recent⟩
    have known := rated.inside.subset logged
    refine ⟨known, own, rated.stored entry logged, recent, ?_⟩
    obtain ⟨c, member, rfl⟩ := List.mem_map.mp known
    exact latest c.nowSec (rated.timed c member)
  · rintro ⟨known, own, stored, recent, -⟩
    obtain ⟨c, member, rfl⟩ := List.mem_map.mp known
    refine ⟨rated.kept c member stored fun time before => ?_, own, recent⟩
    have bound := latest time before
    have recent : nowSec - 3600 < c.nowSec := recent
    omega

/-- Before a submit the accepted events of any later window are counted already. -/
theorem Rated.accepted_le (rated : Rated clock commits db hist) (pubkey : String) {instant : Int}
    (latest : ∀ time ∈ clock, time ≤ nowSec) (reached : nowSec ≤ instant) :
    (accepted commits db pubkey instant).length ≤ rateCount db pubkey nowSec := by
  have nodup := nodup_entries rated.nodup
  rw [rated.count_eq pubkey latest]
  refine (List.subperm_of_subset (nodup.filter _) fun entry member => ?_).length_le
  obtain ⟨known, own, stored, recent, -⟩ := mem_accepted.mp member
  refine mem_accepted.mpr ⟨known, own, stored, by omega, ?_⟩
  obtain ⟨c, before, rfl⟩ := List.mem_map.mp known
  exact latest c.nowSec (rated.timed c before)

theorem Rated.genesis (begins : Begins host config db hist) : Rated clock [] db hist := by
  have empty : db.rateLog = [] := by
    cases begins with
    | genesis entered made => exact (genesisDatabase_rows made).2.2.2.1
  have nothing : ∀ c : Commit, c ∉ ([] : List Commit) := fun c => List.not_mem_nil
  refine ⟨fun c member => absurd member (nothing c), List.nodup_nil,
    fun c member => absurd member (nothing c), ?_, ?_, fun c member => absurd member (nothing c)⟩
  · rw [empty]
    exact List.nil_sublist _
  · rw [empty]
    exact fun entry member => absurd member List.not_mem_nil

/-- The committed submit is one that was never committed before. -/
theorem Rated.unseen (rated : Rated clock commits c.db hist)
    (committed : Committed host config db hist c) : ∀ other ∈ commits, other.v.ev.id ≠ c.v.ev.id := by
  intro other member same
  rcases rated.known other member with stored | purged
  · obtain ⟨row, inside, named⟩ := Events.mem_ids.mp stored
    exact Events.find_eq_none.mp committed.absent row inside (named.trans same)
  · exact committed.fresh (same ▸ purged)

theorem Rated.submitted (rated : Rated clock commits db hist)
    (committed : Committed host config db hist c) (moves : Moves host config db hist c.staged hist') :
    Rated (clock ++ [c.nowSec]) (commits ++ [c]) c.staged hist' := by
  obtain rfl := committed.own
  have submitted := committed.submitted
  have unseen := rated.unseen committed
  have here : c.v.ev.id ∈ c.staged.events.ids.toFinset := by
    rw [submitted.ids_eq]
    exact Finset.mem_insert_self _ _
  have logged : c.staged.rateLog = c.db.rateLog ++ [c.entry] := submitted.rateLog
  constructor
  case known =>
    intro other member
    rcases List.mem_append.mp member with old | new
    · exact moves.known (rated.known other old)
    · rw [List.mem_singleton.mp new]
      exact Or.inl here
  case nodup =>
    rw [List.map_append, List.map_singleton, List.nodup_append]
    refine ⟨rated.nodup, List.nodup_singleton _, ?_⟩
    intro id member other single
    obtain ⟨old, inside, rfl⟩ := List.mem_map.mp member
    rw [List.mem_singleton.mp single]
    exact unseen old inside
  case timed =>
    intro other member
    rcases List.mem_append.mp member with old | new
    · exact List.mem_append_left _ (rated.timed other old)
    · rw [List.mem_singleton.mp new]
      exact List.mem_append_right _ (List.mem_singleton_self _)
  case inside =>
    rw [logged, List.map_append, List.map_singleton]
    exact rated.inside.append (List.Sublist.refl _)
  case stored =>
    intro entry member
    rw [logged] at member
    rcases List.mem_append.mp member with old | new
    · rw [submitted.ids_eq]
      exact Finset.mem_insert_of_mem (rated.stored entry old)
    · rw [List.mem_singleton.mp new]
      exact here
  case kept =>
    intro other member stored recent
    rw [logged]
    rcases List.mem_append.mp member with old | new
    · rw [submitted.ids_eq, Finset.mem_insert] at stored
      refine List.mem_append_left _ (rated.kept other old (stored.resolve_left (unseen other old)) ?_)
      exact fun time before => recent time (List.mem_append_left _ before)
    · rw [List.mem_singleton.mp new]
      exact List.mem_append_right _ (List.mem_singleton_self _)

/-- A purge deletes the entries of what it deletes, and entries more than a day old. -/
theorem Rated.purged {ids : List String} {reason : String} (rated : Rated clock commits db hist)
    (moves : Moves host config db hist (purgeTx db ids reason nowSec) hist') :
    Rated (clock ++ [nowSec]) commits (purgeTx db ids reason nowSec) hist' := by
  have left : (purgeTx db ids reason nowSec).events.ids.toFinset =
      db.events.ids.toFinset \ ids.toFinset := Events.ids_delete
  have log : (purgeTx db ids reason nowSec).rateLog = db.rateLog.filter fun entry =>
      !(ids.contains entry.eventId || entry.acceptedAt < nowSec - 86400) := rfl
  constructor
  case known => exact fun c member => moves.known (rated.known c member)
  case nodup => exact rated.nodup
  case timed => exact fun c member => List.mem_append_left _ (rated.timed c member)
  case inside =>
    rw [log]
    exact List.filter_sublist.trans rated.inside
  case stored =>
    intro entry member
    rw [log] at member
    obtain ⟨before, stays⟩ := List.mem_filter.mp member
    rw [left, Finset.mem_sdiff, List.mem_toFinset]
    refine ⟨rated.stored entry before, fun named => ?_⟩
    simp [named] at stays
  case kept =>
    intro c member stored recent
    rw [left, Finset.mem_sdiff, List.mem_toFinset] at stored
    rw [log]
    refine List.mem_filter.mpr ⟨rated.kept c member stored.1 fun time before =>
      recent time (List.mem_append_left _ before), ?_⟩
    have young := recent nowSec (List.mem_append_right _ (List.mem_singleton_self _))
    have named : c.entry.eventId ∉ ids := stored.2
    have young : ¬ c.entry.acceptedAt < nowSec - 86400 := not_lt.mpr young
    simp [named, young]

/-! ### The cap -/

/-- No key has more accepted events in an hour than its writer may. -/
def Capped (config : Config) (commits : List Commit) (db : Database) : Prop :=
  ∀ name writer, config.writers.get name = some writer → ∀ instant,
    (accepted commits db writer.pubkey instant).length ≤ writer.perHour

theorem Capped.submitted (capped : Capped config commits db) (rated : Rated clock commits db hist)
    (committed : Committed host config db hist c) (latest : ∀ time ∈ clock, time ≤ c.nowSec) :
    Capped config (commits ++ [c]) c.staged := by
  obtain rfl := committed.own
  intro name writer bound instant
  have unseen := rated.unseen committed
  have split : accepted (commits ++ [c]) c.staged writer.pubkey instant =
      accepted commits c.db writer.pubkey instant ++
        [c.entry].filter fun entry => entry.pubkey = writer.pubkey && c.staged.stores entry.eventId &&
          instant - 3600 < entry.acceptedAt && entry.acceptedAt ≤ instant := by
    unfold accepted
    rw [List.map_append, List.map_singleton, List.filter_append]
    congr 1
    refine List.filter_congr fun entry member => ?_
    obtain ⟨other, old, rfl⟩ := List.mem_map.mp member
    have apart : other.entry.eventId ≠ c.v.ev.id := unseen other old
    have same : c.staged.stores other.entry.eventId = c.db.stores other.entry.eventId := by
      rw [Bool.eq_iff_iff, stores_iff, stores_iff, committed.submitted.ids_eq, Finset.mem_insert,
        or_iff_right apart]
    rw [same]
  have before := capped name writer bound instant
  rw [split, List.length_append]
  by_cases counts : c.v.pubkey = writer.pubkey ∧ c.nowSec ≤ instant
  · obtain ⟨own, reached⟩ := counts
    have single := List.length_filter_le (fun entry : RateEntry =>
      entry.pubkey = writer.pubkey && c.staged.stores entry.eventId &&
        instant - 3600 < entry.acceptedAt && entry.acceptedAt ≤ instant) [c.entry]
    rw [List.length_singleton] at single
    have counted := rated.accepted_le c.v.pubkey latest reached
    have under := committed.underCap
    have itself : c.writer = writer := by
      obtain ⟨other, named⟩ := committed.writer
      exact Config.writer_eq (JsMap.mem_values.mpr ⟨other, named⟩) (JsMap.mem_values.mpr ⟨name, bound⟩)
        (committed.pubkey.symm.trans own)
    rw [itself] at under
    rw [own] at counted under
    omega
  · have nothing : ([c.entry].filter fun entry => entry.pubkey = writer.pubkey &&
        c.staged.stores entry.eventId && instant - 3600 < entry.acceptedAt &&
          entry.acceptedAt ≤ instant) = [] := by
      refine List.filter_eq_nil_iff.mpr fun entry member => ?_
      rw [List.mem_singleton.mp member]
      simp only [Bool.and_eq_true, decide_eq_true_eq]
      exact fun ⟨⟨⟨own, _⟩, _⟩, reached⟩ => counts ⟨own, reached⟩
    rw [nothing]
    exact before

/-- Fewer stored events leave fewer of an hour. -/
theorem Capped.fewer (capped : Capped config commits db)
    (fewer : db'.events.ids.toFinset ⊆ db.events.ids.toFinset) : Capped config commits db' := by
  intro name writer bound instant
  refine le_trans ?_ (capped name writer bound instant)
  have sublist : (accepted commits db' writer.pubkey instant).Sublist
      (accepted commits db writer.pubkey instant) := by
    unfold accepted
    refine List.monotone_filter_right _ fun entry => ?_
    simp only [Bool.and_eq_true, decide_eq_true_eq, stores_iff]
    exact fun ⟨⟨⟨own, stored⟩, recent⟩, reached⟩ => ⟨⟨⟨own, fewer stored⟩, recent⟩, reached⟩
  exact sublist.length_le

/-! ### Runs -/

theorem Rated.later (rated : Rated clock commits db hist)
    (moves : Moves host config db hist db hist') (more : ∀ time ∈ clock, time ∈ longer) :
    Rated longer commits db hist' :=
  ⟨fun c member => moves.known (rated.known c member), rated.nodup,
    fun c member => more _ (rated.timed c member), rated.inside, rated.stored,
    fun c member stored recent =>
      rated.kept c member stored fun time before => recent time (more time before)⟩

end Rating

end Nvoy.Store
