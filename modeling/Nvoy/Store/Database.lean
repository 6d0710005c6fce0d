/-
The database of the memory store: the tables, and the statements the store runs on them.

`Events` is the table of that name with its two constraints as fields: the primary key, and the
unique index on the current head of a key. A statement that would break one fails, as SQLite does.

* `Events.insert`, `Events.demote`, `Events.delete` — the three statements that change the table,
  and `mem_insert`, `mem_demote`, `mem_delete`, which rows each leaves;
* `insertEvent`, `deleteEvents`, `stage` — the same on the whole database;
* `retentionDue` — the rows whose end of life is past the retention window.
-/

import Nvoy.Store.Config
import Nvoy.Store.Ledger

namespace Nvoy.Store

open Memory

/-! ### The table of events -/

/-- The table `events`, in the order its rows were inserted. -/
structure Events where
  rows : List Row
  /-- `id TEXT PRIMARY KEY` -/
  nodup_id : (rows.map Row.id).Nodup
  /-- `UNIQUE INDEX idx_events_current_head ON events(pubkey, d) WHERE is_current = 1` -/
  head_unique : ∀ a ∈ rows, ∀ b ∈ rows, a.isCurrent = true → b.isCurrent = true → a.key = b.key →
    a = b

namespace Events

def empty : Events := ⟨[], List.nodup_nil, by simp⟩

/-- `dbEventIds` -/
def ids (t : Events) : JsSet String := ⟨t.rows.map Row.id, t.nodup_id⟩

def find (t : Events) (id : String) : Option Row := t.rows.find? fun row => row.id = id

/-- The row with `is_current = 1` of a fact key. -/
def current (t : Events) (key : String × String) : Option Row :=
  t.rows.find? fun row => row.isCurrent && row.key = key

/-- `INSERT INTO events`; `none` when a constraint refuses the row. -/
def insert (t : Events) (row : Row) : Option Events :=
  if absent : row.id ∉ t.rows.map Row.id then
    if free : row.isCurrent = true → ∀ other ∈ t.rows, other.isCurrent = true →
        other.key ≠ row.key then
      some {
        rows := t.rows ++ [row]
        nodup_id := by
          rw [List.map_append, List.nodup_append]
          refine ⟨t.nodup_id, List.nodup_singleton _, ?_⟩
          intro id member other single
          rw [List.map_singleton, List.mem_singleton] at single
          rintro rfl
          exact absent (single ▸ member)
        head_unique := by
          intro a memberA b memberB currentA currentB same
          rw [List.mem_append, List.mem_singleton] at memberA memberB
          rcases memberA with oldA | rfl
          · rcases memberB with oldB | rfl
            · exact t.head_unique a oldA b oldB currentA currentB same
            · exact absurd same (free currentB a oldA currentA)
          · rcases memberB with oldB | rfl
            · exact absurd same.symm (free currentA b oldB currentB)
            · rfl }
    else none
  else none

/-- `UPDATE events SET is_current = 0 WHERE id = ?` -/
def demote (t : Events) (id : String) : Events where
  rows := t.rows.map fun row => if row.id = id then { row with isCurrent := false } else row
  nodup_id := by
    have same : (t.rows.map fun row => if row.id = id then { row with isCurrent := false } else row).map
        Row.id = t.rows.map Row.id := by
      rw [List.map_map]
      refine List.map_congr_left fun row _ => ?_
      by_cases hit : row.id = id
      · simp [hit]
      · simp [hit]
    rw [same]
    exact t.nodup_id
  head_unique := by
    intro a memberA b memberB currentA currentB same
    have kept : ∀ row ∈ t.rows.map (fun row => if row.id = id then { row with isCurrent := false }
        else row), row.isCurrent = true → row ∈ t.rows := by
      intro row member isCurrent
      obtain ⟨old, inside, rfl⟩ := List.mem_map.mp member
      by_cases hit : old.id = id
      · rw [if_pos hit] at isCurrent
        nomatch isCurrent
      · rwa [if_neg hit]
    exact t.head_unique a (kept a memberA currentA) b (kept b memberB currentB) currentA currentB same

/-- `DELETE FROM events WHERE id IN (SELECT value FROM json_each(?))` -/
def delete (t : Events) (ids : List String) : Events where
  rows := t.rows.filter fun row => !ids.contains row.id
  nodup_id := t.nodup_id.sublist (List.filter_sublist.map Row.id)
  head_unique a memberA b memberB :=
    t.head_unique a (List.mem_of_mem_filter memberA) b (List.mem_of_mem_filter memberB)

/-! ### Which rows a statement leaves -/

variable {t t' : Events} {row : Row} {id : String} {ids : List String} {key : String × String}

theorem eq_of_id {a b : Row} (memberA : a ∈ t.rows) (memberB : b ∈ t.rows) (same : a.id = b.id) :
    a = b :=
  List.inj_on_of_nodup_map t.nodup_id memberA memberB same

@[simp] theorem mem_ids : id ∈ t.ids.toFinset ↔ ∃ row ∈ t.rows, row.id = id := by
  rw [JsSet.mem_toFinset, ids, List.mem_map]

theorem find_eq_some : t.find id = some row ↔ row ∈ t.rows ∧ row.id = id := by
  rw [find]
  constructor
  · intro found
    exact ⟨List.mem_of_find?_eq_some found, by simpa using List.find?_some found⟩
  · rintro ⟨member, rfl⟩
    cases found : t.rows.find? fun other => other.id = row.id with
    | none => exact absurd (List.find?_eq_none.mp found row member) (by simp)
    | some other =>
        rw [eq_of_id (List.mem_of_find?_eq_some found) member (by simpa using List.find?_some found)]

theorem find_eq_none : t.find id = none ↔ ∀ row ∈ t.rows, row.id ≠ id := by
  rw [find, List.find?_eq_none]
  simp

theorem current_eq_some :
    t.current key = some row ↔ row ∈ t.rows ∧ row.isCurrent = true ∧ row.key = key := by
  rw [current]
  constructor
  · intro found
    have hit := List.find?_some found
    rw [Bool.and_eq_true, decide_eq_true_eq] at hit
    exact ⟨List.mem_of_find?_eq_some found, hit⟩
  · rintro ⟨member, isCurrent, rfl⟩
    cases found : t.rows.find? fun other => other.isCurrent && decide (other.key = row.key) with
    | none => exact absurd (List.find?_eq_none.mp found row member) (by simp [isCurrent])
    | some other =>
        have hit := List.find?_some found
        rw [Bool.and_eq_true, decide_eq_true_eq] at hit
        rw [t.head_unique other (List.mem_of_find?_eq_some found) row member hit.1 isCurrent hit.2]

theorem current_eq_none :
    t.current key = none ↔ ∀ row ∈ t.rows, row.isCurrent = true → row.key ≠ key := by
  rw [current, List.find?_eq_none]
  simp

theorem insert_eq_some : t.insert row = some t' ↔ t'.rows = t.rows ++ [row] ∧
    (∀ other ∈ t.rows, other.id ≠ row.id) ∧
    (row.isCurrent = true → ∀ other ∈ t.rows, other.isCurrent = true → other.key ≠ row.key) := by
  have absentIff : row.id ∉ t.rows.map Row.id ↔ ∀ other ∈ t.rows, other.id ≠ row.id := by
    rw [List.mem_map]
    push Not
    rfl
  unfold insert
  by_cases absent : row.id ∉ t.rows.map Row.id
  · rw [dif_pos absent]
    by_cases free : row.isCurrent = true → ∀ other ∈ t.rows, other.isCurrent = true →
        other.key ≠ row.key
    · rw [dif_pos free, Option.some.injEq]
      constructor
      · rintro rfl
        exact ⟨rfl, absentIff.mp absent, free⟩
      · rintro ⟨rows, -, -⟩
        cases t'
        cases rows
        rfl
    · rw [dif_neg free]
      exact ⟨nofun, fun ⟨_, _, other⟩ => absurd other free⟩
  · rw [dif_neg absent]
    exact ⟨nofun, fun ⟨_, other, _⟩ => absurd (absentIff.mpr other) absent⟩

theorem mem_demote : row ∈ (t.demote id).rows ↔
    (row ∈ t.rows ∧ row.id ≠ id) ∨
      ∃ old ∈ t.rows, old.id = id ∧ row = { old with isCurrent := false } := by
  unfold demote
  rw [List.mem_map]
  constructor
  · rintro ⟨old, member, rfl⟩
    by_cases hit : old.id = id
    · rw [if_pos hit]
      exact Or.inr ⟨old, member, hit, rfl⟩
    · rw [if_neg hit]
      exact Or.inl ⟨member, hit⟩
  · rintro (⟨member, differ⟩ | ⟨old, member, hit, rfl⟩)
    · exact ⟨row, member, if_neg differ⟩
    · exact ⟨old, member, if_pos hit⟩

@[simp] theorem ids_demote : (t.demote id).ids.toFinset = t.ids.toFinset := by
  ext other
  rw [mem_ids, mem_ids]
  constructor
  · rintro ⟨row, member, rfl⟩
    rcases mem_demote.mp member with ⟨old, -⟩ | ⟨old, inside, -, rfl⟩
    · exact ⟨row, old, rfl⟩
    · exact ⟨old, inside, rfl⟩
  · rintro ⟨row, member, rfl⟩
    by_cases hit : row.id = id
    · exact ⟨_, mem_demote.mpr (Or.inr ⟨row, member, hit, rfl⟩), rfl⟩
    · exact ⟨row, mem_demote.mpr (Or.inl ⟨member, hit⟩), rfl⟩

@[simp] theorem mem_delete : row ∈ (t.delete ids).rows ↔ row ∈ t.rows ∧ row.id ∉ ids := by
  simp [delete]

@[simp] theorem ids_delete : (t.delete ids).ids.toFinset = t.ids.toFinset \ ids.toFinset := by
  ext id
  rw [mem_ids, Finset.mem_sdiff, mem_ids, List.mem_toFinset]
  constructor
  · rintro ⟨row, member, rfl⟩
    obtain ⟨inside, kept⟩ := mem_delete.mp member
    exact ⟨⟨row, inside, rfl⟩, kept⟩
  · rintro ⟨⟨row, member, rfl⟩, kept⟩
    exact ⟨row, mem_delete.mpr ⟨member, kept⟩, rfl⟩

theorem ids_insert (inserted : t.insert row = some t') :
    t'.ids.toFinset = Insert.insert row.id t.ids.toFinset := by
  obtain ⟨rows, -, -⟩ := insert_eq_some.mp inserted
  ext id
  rw [Finset.mem_insert, mem_ids, mem_ids, rows]
  constructor
  · rintro ⟨other, member, rfl⟩
    rcases List.mem_append.mp member with old | new
    · exact Or.inr ⟨other, old, rfl⟩
    · exact Or.inl (congrArg Row.id (List.mem_singleton.mp new))
  · rintro (rfl | ⟨other, member, rfl⟩)
    · exact ⟨row, by simp, rfl⟩
    · exact ⟨other, List.mem_append_left _ member, rfl⟩

end Events

/-! ### The other tables -/

/-- A row of the table `links`. -/
structure Link where
  fromId : String
  relation : String
  target : String
  deriving DecidableEq, Repr

/-- A row of the table `writer_rate_log`. -/
structure RateEntry where
  eventId : String
  pubkey : String
  acceptedAt : Int
  deriving DecidableEq, Repr

/-- The database: `store_meta`, `events`, `links` and `writer_rate_log`. -/
structure Database where
  storeId : String
  writeSeq : Nat
  pendingLedger : String
  lastPurgeSeq : Nat
  events : Events
  links : List Link
  rateLog : List RateEntry

/-! ### Statements -/

/-- The row of a checked event. Topics are stored normalized; the signed tag keeps what the writer
sent. -/
def rowOf (v : Checked) (isCurrent : Bool) (nowSec : Int) : Row where
  id := v.ev.id
  pubkey := v.pubkey
  kind := v.ev.kind
  createdAt := v.ev.createdAt
  d := v.d
  scope := v.scope
  scopeType := v.scopeType
  roomId := v.roomId
  topic := (normalizeMemoryTopic v.topic).getD v.topic
  status := v.status
  retention := v.retention
  asOfGit := v.asOfGit
  asOfEvt := v.asOfEvt
  exp := v.expiresAt
  raw := v.ev
  ingestedAt := nowSec
  isCurrent

def linksOf (v : Checked) : List Link :=
  let topic := (normalizeMemoryTopic v.topic).getD v.topic
  v.supersedes.map (fun target => ⟨v.ev.id, "supersedes", target.getD "undefined"⟩) ++
    (if topic ≠ "" then [⟨v.ev.id, "topic", topic⟩] else []) ++
    v.evidence.map (fun target => ⟨v.ev.id, "evidence", target⟩) ++
    v.asOfEvt.toList.map (fun target => ⟨v.ev.id, "as_of", target⟩) ++
    v.asOfGit.toList.map (fun target => ⟨v.ev.id, "as_of", target⟩)

/-- `INSERT OR IGNORE INTO links` -/
def insertLink (links : List Link) (link : Link) : List Link :=
  if link ∈ links then links else links ++ [link]

namespace Database

def insertEvent (db : Database) (v : Checked) (isCurrent : Bool) (nowSec : Int) : Option Database :=
  (db.events.insert (rowOf v isCurrent nowSec)).map fun events =>
    { db with events, links := (linksOf v).foldl insertLink db.links }

/-- `DELETE FROM events`; the links of a deleted row go with it. -/
def deleteEvents (db : Database) (ids : List String) : Database :=
  { db with
    events := db.events.delete ids
    links := db.links.filter fun link => !ids.contains link.fromId }

/-- `#stage`: numbers the write and stages its ledger line. -/
def stage (db : Database) (payload : Payload) (nowSec : Int) : Database :=
  { db with
    writeSeq := db.writeSeq + 1
    pendingLedger := ledgerLine (db.writeSeq + 1) db.storeId payload nowSec }

end Database

/-! ### Retention -/

def RETENTION_PURGE_AFTER_SEC : Int := 90 * 86400

/-- When a superseded row was superseded: the earliest other version of its key that is not older. -/
def endOfLife (rows : List Row) (e : Row) : Int :=
  (((rows.filter fun n => n.key = e.key ∧ n.id ≠ e.id ∧ e.createdAt ≤ n.createdAt).map
    Row.createdAt).min?).getD e.createdAt

def isDue (rows : List Row) (cutoff : Int) (e : Row) : Bool :=
  (!e.isCurrent && endOfLife rows e ≤ cutoff) ||
    (e.isCurrent && e.status = .withdrawn && e.createdAt ≤ cutoff) ||
    (e.isCurrent && e.status = .active && e.exp.any (· ≤ cutoff))

/-- Superseded, withdrawn and expired rows whose end of life is more than 90 days past. -/
def retentionDue (db : Database) (nowSec : Int) : List String :=
  (db.events.rows.filter (isDue db.events.rows (nowSec - RETENTION_PURGE_AFTER_SEC))).map Row.id

end Nvoy.Store
