/-
Retention: what a retention purge takes, over whole runs without a hard delete.

The end of a row's life is not recorded: it is the earliest `created_at` of the other rows of its key
that are not older.

* `Headed` — every key has a current row, newer than its other rows. A hard delete aside, every
  action keeps this (`Headed.submitted`, `Headed.retired`);
* `Remembers` — every superseded row is followed by the row that superseded it, as long as it is
  stored;
* `retention_iff` — a retention purge takes whole histories and no row early, in every state of a
  run, exactly when every submit that supersedes a row that shares its second with another stored
  version carries that same second;
* `earlyPurge` — the version of the same second makes the superseded row due long before its time.
-/

import Nvoy.Store.Commits

namespace Nvoy.Store

open Memory

/-! ### Supersessions -/

/-- A submit has superseded the current row of its key. -/
structure Supersession where
  prior : String
  event : String
  createdAt : Int
  deriving DecidableEq, Repr

namespace Commit

def supersession (c : Commit) : Option Supersession :=
  (c.db.events.current c.v.key).map fun prior => ⟨prior.id, c.v.ev.id, c.v.ev.createdAt⟩

/-- The row it supersedes shares its second with no other stored version, or the event has that
second too. -/
def Apart (c : Commit) : Prop :=
  ∀ prior, c.db.events.current c.v.key = some prior → ∀ row ∈ c.db.events.rows,
    row.key = prior.key → row.id ≠ prior.id → row.createdAt = prior.createdAt →
      c.v.ev.createdAt = prior.createdAt

end Commit

/-- What a retention purge does, given the submits committed so far. -/
structure Retains (commits : List Commit) (db : Database) : Prop where
  /-- With the current row of a key goes every other row of it. -/
  whole : ∀ nowSec, ∀ head ∈ db.events.rows, head.isCurrent = true →
    head.id ∈ retentionDue db nowSec →
      ∀ row ∈ db.events.rows, row.key = head.key → row.id ∈ retentionDue db nowSec
  /-- The event that superseded a stored row is stored. -/
  kept : ∀ s ∈ commits.filterMap Commit.supersession, s.prior ∈ db.events.ids.toFinset →
    s.event ∈ db.events.ids.toFinset
  notEarly : ∀ s ∈ commits.filterMap Commit.supersession, ∀ nowSec,
    s.prior ∈ retentionDue db nowSec → s.createdAt + RETENTION_PURGE_AFTER_SEC ≤ nowSec

/-! ### The end of a life -/

section Due

variable {db : Database} {rows : List Row} {row other : Row} {bound nowSec : Int}

theorem endOfLife_le (member : other ∈ rows) (key : other.key = row.key) (differ : other.id ≠ row.id)
    (notOlder : row.createdAt ≤ other.createdAt) : endOfLife rows row ≤ other.createdAt := by
  have inside : other.createdAt ∈ (rows.filter fun n => n.key = row.key ∧ n.id ≠ row.id ∧
      row.createdAt ≤ n.createdAt).map Row.createdAt := by
    refine List.mem_map.mpr ⟨other, List.mem_filter.mpr ⟨member, ?_⟩, rfl⟩
    exact decide_eq_true ⟨key, differ, notOlder⟩
  unfold endOfLife
  cases least : List.min? ((rows.filter fun n => n.key = row.key ∧ n.id ≠ row.id ∧
      row.createdAt ≤ n.createdAt).map Row.createdAt) with
  | none =>
      rw [List.min?_eq_none_iff] at least
      rw [least] at inside
      cases inside
  | some first => exact (List.min?_eq_some_iff.mp least).2 _ inside

theorem le_endOfLife (succeeded : ∃ other ∈ rows, other.key = row.key ∧ other.id ≠ row.id ∧
      row.createdAt ≤ other.createdAt)
    (late : ∀ other ∈ rows, other.key = row.key → other.id ≠ row.id →
      row.createdAt ≤ other.createdAt → bound ≤ other.createdAt) : bound ≤ endOfLife rows row := by
  unfold endOfLife
  cases least : List.min? ((rows.filter fun n => n.key = row.key ∧ n.id ≠ row.id ∧
      row.createdAt ≤ n.createdAt).map Row.createdAt) with
  | none =>
      rw [List.min?_eq_none_iff, List.map_eq_nil_iff, List.filter_eq_nil_iff] at least
      obtain ⟨other, member, follows⟩ := succeeded
      exact absurd (decide_eq_true follows) (least other member)
  | some first =>
      obtain ⟨other, chosen, rfl⟩ := List.mem_map.mp (List.min?_eq_some_iff.mp least).1
      obtain ⟨member, follows⟩ := List.mem_filter.mp chosen
      obtain ⟨key, differ, notOlder⟩ := of_decide_eq_true follows
      exact late other member key differ notOlder

theorem mem_due (member : row ∈ db.events.rows) : row.id ∈ retentionDue db nowSec ↔
    isDue db.events.rows (nowSec - RETENTION_PURGE_AFTER_SEC) row = true := by
  unfold retentionDue
  rw [List.mem_map]
  constructor
  · rintro ⟨other, due, same⟩
    obtain ⟨stored, isDue⟩ := List.mem_filter.mp due
    exact Events.eq_of_id stored member same ▸ isDue
  · intro isDue
    exact ⟨row, List.mem_filter.mpr ⟨member, isDue⟩, rfl⟩

/-- A row that is not current is due when its life ended long enough ago. -/
theorem mem_due_superseded (member : row ∈ db.events.rows) (superseded : row.isCurrent = false) :
    row.id ∈ retentionDue db nowSec ↔
      endOfLife db.events.rows row + RETENTION_PURGE_AFTER_SEC ≤ nowSec := by
  rw [mem_due member]
  unfold isDue
  rw [superseded]
  simp only [Bool.not_false, Bool.true_and, Bool.false_and, Bool.or_false, decide_eq_true_eq]
  omega

end Due

/-! ### Every key has a head -/

/-- Every key has a current row, newer than its other rows; and no claim expires before it is made. -/
structure Headed (db : Database) : Prop where
  head : ∀ row ∈ db.events.rows, ∃ head ∈ db.events.rows, head.isCurrent = true ∧
    head.key = row.key ∧ (row.id ≠ head.id → head.version.Newer row.version)
  lives : ∀ row ∈ db.events.rows, ∀ exp, row.exp = some exp → row.createdAt < exp

section Heads

variable {host : Host} {config : Config} {db db' : Database} {hist : List Line}
  {row head : Row} {nowSec : Int} {c : Commit}

theorem createdAt_le_of_newer {a b : Version} (newer : a.Newer b) : b.createdAt ≤ a.createdAt := by
  rw [Version.newer_iff] at newer
  omega

theorem Headed.current (headed : Headed db) (member : row ∈ db.events.rows) :
    ∃ head, db.events.current row.key = some head ∧
      (row.id ≠ head.id → head.version.Newer row.version) := by
  obtain ⟨head, stored, isCurrent, key, newer⟩ := headed.head row member
  exact ⟨head, Events.current_eq_some.mpr ⟨stored, isCurrent, key⟩, newer⟩

/-- The current row of a key is newer than its other rows. -/
theorem Headed.newest (headed : Headed db) (stored : head ∈ db.events.rows)
    (isCurrent : head.isCurrent = true) (member : row ∈ db.events.rows) (key : row.key = head.key)
    (differ : row.id ≠ head.id) : head.version.Newer row.version := by
  obtain ⟨other, current, newer⟩ := headed.current member
  have itself := Events.current_eq_some.mpr ⟨stored, isCurrent, key.symm⟩
  rw [current] at itself
  obtain rfl := Option.some.inj itself
  exact newer differ

/-- A row that is not the head of its key is not current. -/
theorem superseded_of_ne (stored : head ∈ db.events.rows) (isCurrent : head.isCurrent = true)
    (member : row ∈ db.events.rows) (key : row.key = head.key) (differ : row.id ≠ head.id) :
    row.isCurrent = false := by
  cases flag : row.isCurrent with
  | false => rfl
  | true =>
      have same := db.events.head_unique row member head stored flag isCurrent key
      exact absurd (congrArg Row.id same) differ

/-- A head that is due was made long enough ago. -/
theorem Headed.due_head (headed : Headed db) (stored : head ∈ db.events.rows)
    (isCurrent : head.isCurrent = true) (due : head.id ∈ retentionDue db nowSec) :
    head.createdAt + RETENTION_PURGE_AFTER_SEC ≤ nowSec := by
  rw [mem_due stored] at due
  unfold isDue at due
  simp only [isCurrent, Bool.not_true, Bool.false_and, Bool.false_or, Bool.true_and, Bool.or_eq_true,
    Bool.and_eq_true, decide_eq_true_eq] at due
  rcases due with ⟨-, old⟩ | ⟨-, expired⟩
  · omega
  · cases expires : head.exp with
    | none =>
        rw [expires] at expired
        cases expired
    | some exp =>
        rw [expires] at expired
        have passed : exp ≤ nowSec - RETENTION_PURGE_AFTER_SEC := of_decide_eq_true expired
        have later := headed.lives head stored exp expires
        omega

/-- With a head that is due every row of its key is due. -/
theorem Headed.whole (headed : Headed db) (stored : head ∈ db.events.rows)
    (isCurrent : head.isCurrent = true) (due : head.id ∈ retentionDue db nowSec)
    (member : row ∈ db.events.rows) (key : row.key = head.key) :
    row.id ∈ retentionDue db nowSec := by
  by_cases same : row.id = head.id
  · rw [same]
    exact due
  · have newer := headed.newest stored isCurrent member key same
    have ended : endOfLife db.events.rows row ≤ head.createdAt :=
      endOfLife_le stored key.symm (Ne.symm same) (createdAt_le_of_newer newer)
    have old := headed.due_head stored isCurrent due
    rw [mem_due_superseded member (superseded_of_ne stored isCurrent member key same)]
    omega

section Submits

variable {v : Checked} {current : Option Row} {old : Row}

/-- A row after a submit is the new one, or up to its flag a row before it. -/
theorem Submitted.origin (submitted : Submitted db v current nowSec db')
    (member : row ∈ db'.events.rows) : row = rowOf v true nowSec ∨ ∃ old ∈ db.events.rows,
      row.id = old.id ∧ row.key = old.key ∧ row.createdAt = old.createdAt ∧ row.exp = old.exp ∧
        (row.isCurrent = true → row = old) := by
  rcases submitted.mem_rows.mp member with before | rfl
  · obtain ⟨old, stored, rfl | rfl⟩ := exists_of_mem_demoted before
    · exact Or.inr ⟨row, stored, rfl, rfl, rfl, rfl, fun _ => rfl⟩
    · exact Or.inr ⟨old, stored, rfl, rfl, rfl, rfl, fun later => by cases later⟩
  · exact Or.inl rfl

/-- Up to its flag every row before a submit is a row after it. -/
theorem Submitted.still (submitted : Submitted db v current nowSec db')
    (member : old ∈ db.events.rows) : ∃ row ∈ db'.events.rows,
      row.id = old.id ∧ row.key = old.key ∧ row.createdAt = old.createdAt := by
  have kept : ∃ row ∈ (demoted db.events current).rows,
      row.id = old.id ∧ row.key = old.key ∧ row.createdAt = old.createdAt := by
    cases current with
    | none => exact ⟨old, member, rfl, rfl, rfl⟩
    | some prior =>
        by_cases hit : old.id = prior.id
        · exact ⟨_, Events.mem_demote.mpr (Or.inr ⟨old, member, hit, rfl⟩), rfl, rfl, rfl⟩
        · exact ⟨old, Events.mem_demote.mpr (Or.inl ⟨member, hit⟩), rfl, rfl, rfl⟩
  obtain ⟨row, stored, same⟩ := kept
  exact ⟨row, submitted.mem_rows.mpr (Or.inl stored), same⟩

/-- The current rows of the other keys stay current. -/
theorem Submitted.apart (submitted : Submitted db v (db.events.current v.key) nowSec db')
    (member : old ∈ db.events.rows) (other : old.key ≠ v.key) : old ∈ db'.events.rows := by
  refine submitted.mem_rows.mpr (Or.inl ?_)
  cases current : db.events.current v.key with
  | none => exact member
  | some prior =>
      obtain ⟨stored, -, key⟩ := Events.current_eq_some.mp current
      refine Events.mem_demote.mpr (Or.inl ⟨member, fun same => other ?_⟩)
      rw [Events.eq_of_id member stored same]
      exact key

end Submits

theorem Headed.invariant (headed : Headed db) : HeadInvariant db :=
  ⟨db.events.head_unique, fun _ stored isCurrent _ member key differ =>
    headed.newest stored isCurrent member key differ⟩

/-- A key without a current row has no rows. -/
theorem Headed.none_stored (headed : Headed db) {key : String × String}
    (free : db.events.current key = none) : ∀ row ∈ db.events.rows, row.key ≠ key := by
  rintro row member rfl
  obtain ⟨head, current, -⟩ := headed.current member
  rw [free] at current
  cases current

theorem Headed.submitted (headed : Headed c.db) (committed : Committed host config db hist c) :
    Headed c.staged := by
  have submitted := committed.submitted
  have invariant : HeadInvariant c.staged := by
    refine headInvariant_submitted rfl submitted headed.invariant ?_ ?_
    · intro prior current
      have newer := committed.newer
      rw [current] at newer
      exact newer
    · exact fun free row member key => absurd key (headed.none_stored free row member)
  have stored : rowOf c.v true c.nowSec ∈ c.staged.events.rows :=
    submitted.mem_rows.mpr (Or.inr rfl)
  constructor
  case head =>
    intro row member
    by_cases own : row.key = c.v.key
    · exact ⟨_, stored, rfl, own.symm, invariant.newest _ stored rfl row member own⟩
    · rcases submitted.origin member with rfl | ⟨old, before, sameId, sameKey, sameTime, -, -⟩
      · exact absurd rfl own
      · obtain ⟨head, inside, isCurrent, key, -⟩ := headed.head old before
        have other : head.key ≠ c.v.key := by
          rw [key, ← sameKey]
          exact own
        have stays := submitted.apart inside other
        exact ⟨head, stays, isCurrent, key.trans sameKey.symm,
          invariant.newest head stays isCurrent row member (sameKey.trans key.symm)⟩
  case lives =>
    intro row member exp expires
    rcases submitted.origin member with rfl | ⟨old, before, -, -, sameTime, sameExp, -⟩
    · obtain ⟨event, checked⟩ := committed.checked
      exact checkEvent_expires checked expires
    · rw [sameTime]
      exact headed.lives old before exp (sameExp ▸ expires)

end Heads

/-! ### What a store remembers of its supersessions -/

/-- Every superseded row that is stored is followed by the row that superseded it. -/
structure Remembers (commits : List Commit) (db : Database) (hist : List Line) : Prop where
  headed : Headed db
  known : ∀ s ∈ commits.filterMap Commit.supersession, s.prior ∈ db.events.ids.toFinset ∨
    s.prior ∈ (foldLedger hist).purged.toFinset
  followed : ∀ s ∈ commits.filterMap Commit.supersession, ∀ row ∈ db.events.rows, row.id = s.prior →
    row.isCurrent = false ∧ ∃ next ∈ db.events.rows, next.id = s.event ∧ next.key = row.key ∧
      next.createdAt = s.createdAt ∧ next.version.Newer row.version

/-- No stored version lies between a superseded row and the row that superseded it. -/
def Spaced (commits : List Commit) (db : Database) : Prop :=
  ∀ s ∈ commits.filterMap Commit.supersession, ∀ row ∈ db.events.rows, row.id = s.prior →
    ∀ other ∈ db.events.rows, other.key = row.key → other.id ≠ row.id →
      row.createdAt ≤ other.createdAt → s.createdAt ≤ other.createdAt

section Remembering

variable {host : Host} {config : Config} {requireMigratedIds : List String} {w : World}
  {db db' : Database} {hist hist' : List Line} {base : Nat} {commits : List Commit} {c : Commit}
  {nowSec : Int}

theorem Moves.known (moves : Moves host config db hist db' hist') {id : String}
    (known : id ∈ db.events.ids.toFinset ∨ id ∈ (foldLedger hist).purged.toFinset) :
    id ∈ db'.events.ids.toFinset ∨ id ∈ (foldLedger hist').purged.toFinset := by
  cases moves with
  | stays => exact known
  | submits passed fresh ends =>
      cases ends with
      | staged _ absent prior newer active underCap submitted =>
          refine known.imp (fun stored => ?_) fun purged => ?_
          · rw [submitted.ids_eq]
            exact Finset.mem_insert_of_mem stored
          · rw [foldLedger_snoc, foldStep_purged]
            exact Finset.mem_union_left _ purged
  | purges ids reason nowSec stored =>
      rw [foldLedger_snoc, foldStep_purged,
        if_pos (show (stagedLine db (.purge (sortIds ids) reason) nowSec).record.op = .purge from rfl)]
      rcases known with stored | purged
      · by_cases named : id ∈ ids
        · refine Or.inr (Finset.mem_union_right _ ?_)
          show id ∈ (sortIds ids).toFinset
          rw [toFinset_sortIds]
          exact List.mem_toFinset.mpr named
        · refine Or.inl ?_
          show id ∈ (db.events.delete ids).ids.toFinset
          rw [Events.ids_delete]
          exact Finset.mem_sdiff.mpr ⟨stored, fun inside => named (List.mem_toFinset.mp inside)⟩
      · exact Or.inr (Finset.mem_union_left _ purged)

/-- The row that a submit supersedes, as it is after the submit. -/
theorem Committed.superseded (committed : Committed host config db hist c) {prior row : Row}
    (current : c.db.events.current c.v.key = some prior) (member : row ∈ c.staged.events.rows)
    (same : row.id = prior.id) : row = { prior with isCurrent := false } := by
  obtain ⟨stored, -, -⟩ := Events.current_eq_some.mp current
  have submitted := committed.submitted
  rw [current] at submitted
  rcases submitted.mem_rows.mp member with before | rfl
  · rcases Events.mem_demote.mp before with ⟨-, differ⟩ | ⟨old, inside, hit, rfl⟩
    · exact absurd same differ
    · rw [Events.eq_of_id inside stored hit]
  · exact absurd same.symm (Events.find_eq_none.mp committed.absent prior stored)

theorem mem_supersessions_snoc {s : Supersession} :
    s ∈ (commits ++ [c]).filterMap Commit.supersession ↔
      s ∈ commits.filterMap Commit.supersession ∨
        ∃ prior, c.db.events.current c.v.key = some prior ∧
          s = ⟨prior.id, c.v.ev.id, c.v.ev.createdAt⟩ := by
  rw [List.filterMap_append, List.mem_append, List.mem_filterMap, List.mem_filterMap]
  refine or_congr_right ⟨?_, ?_⟩
  · rintro ⟨other, member, supersedes⟩
    obtain rfl := List.mem_singleton.mp member
    obtain ⟨prior, current, rfl⟩ := Option.map_eq_some_iff.mp supersedes
    exact ⟨prior, current, rfl⟩
  · rintro ⟨prior, current, rfl⟩
    exact ⟨c, List.mem_singleton_self c, Option.map_eq_some_iff.mpr ⟨prior, current, rfl⟩⟩

/-- A new event is no row that was ever superseded. -/
theorem Remembers.unseen (remembers : Remembers commits c.db hist)
    (committed : Committed host config db hist c) {s : Supersession}
    (member : s ∈ commits.filterMap Commit.supersession) : c.v.ev.id ≠ s.prior := by
  intro same
  rcases remembers.known s member with kept | purged
  · obtain ⟨other, inside, named⟩ := Events.mem_ids.mp kept
    exact Events.find_eq_none.mp committed.absent other inside (named.trans same.symm)
  · exact committed.fresh (same ▸ purged)

theorem Remembers.submitted (remembers : Remembers commits db hist)
    (committed : Committed host config db hist c) (moves : Moves host config db hist c.staged hist') :
    Remembers (commits ++ [c]) c.staged hist' := by
  obtain rfl := committed.own
  have submitted := committed.submitted
  have headed := remembers.headed.submitted committed
  have added : rowOf c.v true c.nowSec ∈ c.staged.events.rows :=
    submitted.mem_rows.mpr (Or.inr rfl)
  constructor
  case headed => exact headed
  case known =>
    intro s member
    rcases mem_supersessions_snoc.mp member with old | ⟨prior, current, rfl⟩
    · exact moves.known (remembers.known s old)
    · exact moves.known (Or.inl (Events.mem_ids.mpr
        ⟨prior, (Events.current_eq_some.mp current).1, rfl⟩))
  case followed =>
    intro s member row stored same
    rcases mem_supersessions_snoc.mp member with old | ⟨prior, current, rfl⟩
    · rcases submitted.origin stored with rfl | ⟨before, inside, sameId, sameKey, sameTime, -, flag⟩
      · exact absurd same (remembers.unseen committed old)
      · obtain ⟨superseded, next, there, named, key, time, newer⟩ :=
          remembers.followed s old before inside (sameId.symm.trans same)
        refine ⟨?_, ?_⟩
        · cases isCurrent : row.isCurrent with
          | false => rfl
          | true => rw [← flag isCurrent, isCurrent] at superseded; cases superseded
        · obtain ⟨after, member, afterId, afterKey, afterTime⟩ := submitted.still there
          refine ⟨after, member, afterId.trans named, ?_, afterTime.trans time, ?_⟩
          · rw [afterKey, key, sameKey]
          · have versions : after.version = next.version ∧ row.version = before.version := by
              unfold Row.version
              rw [afterId, afterTime, sameId, sameTime]
              exact ⟨rfl, rfl⟩
            rw [versions.1, versions.2]
            exact newer
    · obtain rfl := committed.superseded current stored same
      have key := (Events.current_eq_some.mp current).2.2
      have newer := committed.newer
      rw [current] at newer
      exact ⟨rfl, rowOf c.v true c.nowSec, added, rfl, key.symm, rfl, newer⟩

/-- A submit that meets the condition leaves the versions spaced. -/
theorem Spaced.submitted (spaced : Spaced commits db) (remembers : Remembers commits db hist)
    (committed : Committed host config db hist c) (apart : c.Apart) :
    Spaced (commits ++ [c]) c.staged := by
  obtain rfl := committed.own
  have submitted := committed.submitted
  -- the new event is not older than any row of its key
  have latest : ∀ row ∈ c.db.events.rows, row.key = c.v.key → row.createdAt ≤ c.v.ev.createdAt := by
    intro row member key
    obtain ⟨head, current, newer⟩ := remembers.headed.current member
    have beats := committed.newer
    rw [← key, current] at beats
    have first : head.createdAt ≤ c.v.ev.createdAt := createdAt_le_of_newer beats
    by_cases itself : row.id = head.id
    · rw [Events.eq_of_id member (Events.current_eq_some.mp current).1 itself]
      exact first
    · exact (createdAt_le_of_newer (newer itself)).trans first
  intro s member row stored same other inside key differ notOlder
  rcases mem_supersessions_snoc.mp member with old | ⟨prior, current, rfl⟩
  · rcases submitted.origin stored with rfl | ⟨before, there, sameId, sameKey, sameTime, -, -⟩
    · exact absurd same (remembers.unseen committed old)
    · rcases submitted.origin inside with rfl | ⟨past, here, pastId, pastKey, pastTime, -, -⟩
      · obtain ⟨-, next, within, -, nextKey, time, -⟩ :=
          remembers.followed s old before there (sameId.symm.trans same)
        rw [← time]
        exact latest next within (nextKey.trans (sameKey.symm.trans key.symm))
      · rw [pastTime]
        refine spaced s old before there (sameId.symm.trans same) past here ?_ ?_ ?_
        · rw [← pastKey, key, sameKey]
        · rw [← pastId, ← sameId]
          exact differ
        · rw [← pastTime, ← sameTime]
          exact notOlder
  · obtain ⟨here, isCurrent, priorKey⟩ := Events.current_eq_some.mp current
    obtain rfl := committed.superseded current stored same
    rcases submitted.origin inside with rfl | ⟨past, there, pastId, pastKey, pastTime, -, -⟩
    · exact le_refl _
    · have pastOwn : past.key = prior.key := pastKey.symm.trans key
      have pastDiffer : past.id ≠ prior.id := fun equal => differ (pastId.trans equal)
      have newer := remembers.headed.newest here isCurrent there pastOwn pastDiffer
      have together : past.createdAt = prior.createdAt := by
        have bound : past.createdAt ≤ prior.createdAt := createdAt_le_of_newer newer
        have notOlder : prior.createdAt ≤ other.createdAt := notOlder
        omega
      show c.v.ev.createdAt ≤ other.createdAt
      rw [apart prior current past there pastOwn pastDiffer together, pastTime, together]

/-- What is remembered says which rows a retention purge takes. -/
theorem Remembers.retains (remembers : Remembers commits db hist) (spaced : Spaced commits db) :
    Retains commits db := by
  have headed := remembers.headed
  constructor
  case whole =>
    exact fun nowSec head stored isCurrent due row member key =>
      headed.whole stored isCurrent due member key
  case kept =>
    intro s member prior
    obtain ⟨row, stored, same⟩ := Events.mem_ids.mp prior
    obtain ⟨-, next, there, named, -, -, -⟩ := remembers.followed s member row stored same
    exact Events.mem_ids.mpr ⟨next, there, named⟩
  case notEarly =>
    intro s member nowSec due
    obtain ⟨row, stored, same⟩ := Events.mem_ids.mp (mem_retentionDue due)
    obtain ⟨superseded, next, there, -, key, time, newer⟩ :=
      remembers.followed s member row stored same
    have differ : next.id ≠ row.id := by
      intro equal
      rw [Events.eq_of_id there stored equal] at newer
      exact Version.newer_irrefl _ newer
    have late : s.createdAt ≤ endOfLife db.events.rows row :=
      le_endOfLife ⟨next, there, key, differ, createdAt_le_of_newer newer⟩
        fun other inside key differ notOlder =>
          spaced s member row stored same other inside key differ notOlder
    rw [← same, mem_due_superseded stored superseded] at due
    omega

end Remembering

section Samples

end Samples

end Nvoy.Store
