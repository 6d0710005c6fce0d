/-
What each write of the store does, said once.

* `submitChecks_eq_ok` — what a submit that reaches its transaction has passed;
* `submitTx_cases` — how its transaction ends, and with which database;
* `Submitted` — the database of an accepted submit: the old head demoted, one row more;
* `checkEntries_eq_ok`, `genesisDatabase_rows` — the events of a migration, and their rows.
-/

import Nvoy.Store.Write

namespace Nvoy.Store

open Memory

/-! ### Valid rows -/

section Rows

variable (host : Host) (config : Config)

/-- Every stored row passes its check, under its own id. -/
def RowsValid (db : Database) : Prop :=
  ∀ row ∈ db.events.rows, row.raw.id = row.id ∧ ∃ v, checkEvent host row.raw config = .ok v

end Rows

/-! ### The effect of an accepted submit -/

section Statements

variable {host : Host} {config : Config}
  {db db' : Database} {v : Checked} {current : Option Row} {nowSec : Int}

/-- The table without the old head. -/
def demoted (events : Events) (current : Option Row) : Events :=
  match current with
  | some row => events.demote row.id
  | none => events

/-- What an accepted submit does to the database. -/
structure Submitted (db : Database) (v : Checked) (current : Option Row) (nowSec : Int)
    (db' : Database) : Prop where
  storeId : db'.storeId = db.storeId
  writeSeq : db'.writeSeq = db.writeSeq + 1
  lastPurge : db'.lastPurgeSeq = db.lastPurgeSeq
  staged : db'.pendingLedger = ledgerLine (db.writeSeq + 1) db.storeId
    (.submit v.ev.id v.pubkey v.d v.scope v.status) nowSec
  events : (demoted db.events current).insert (rowOf v true nowSec) = some db'.events
  rateLog : db'.rateLog = db.rateLog ++ [⟨v.ev.id, v.pubkey, nowSec⟩]

theorem submitted_of_accept (accepted : acceptSubmit db v current nowSec = some db') :
    Submitted db v current nowSec db' := by
  unfold acceptSubmit at accepted
  obtain ⟨inserted, insertion, rest⟩ := Option.bind_eq_some_iff.mp accepted
  rw [Option.ite_none_left_eq_some] at rest
  obtain ⟨events, added, rfl⟩ := Option.map_eq_some_iff.mp insertion
  obtain rfl := Option.some.inj rest.2
  cases current with
  | none => exact ⟨rfl, rfl, rfl, rfl, added, rfl⟩
  | some row => exact ⟨rfl, rfl, rfl, rfl, added, rfl⟩

/-- The rows after an accepted submit: the old head demoted, and the new row. -/
theorem Submitted.mem_rows (submitted : Submitted db v current nowSec db') {row : Row} :
    row ∈ db'.events.rows ↔ row ∈ (demoted db.events current).rows ∨ row = rowOf v true nowSec := by
  rw [(Events.insert_eq_some.mp submitted.events).1, List.mem_append, List.mem_singleton]

theorem ids_demoted (events : Events) (current : Option Row) :
    (demoted events current).ids.toFinset = events.ids.toFinset := by
  cases current with
  | none => rfl
  | some row => exact Events.ids_demote

/-- A row of the table without the old head, up to its flag a row of the table. -/
theorem exists_of_mem_demoted {events : Events} {current : Option Row} {row : Row}
    (member : row ∈ (demoted events current).rows) :
    ∃ old ∈ events.rows, row = old ∨ row = { old with isCurrent := false } := by
  cases current with
  | none => exact ⟨row, member, Or.inl rfl⟩
  | some head =>
      rcases Events.mem_demote.mp member with ⟨old, -⟩ | ⟨old, inside, -, rfl⟩
      · exact ⟨row, old, Or.inl rfl⟩
      · exact ⟨old, inside, Or.inr rfl⟩

theorem Submitted.ids_eq (submitted : Submitted db v current nowSec db') :
    db'.events.ids.toFinset = insert v.ev.id db.events.ids.toFinset := by
  rw [Events.ids_insert submitted.events, ids_demoted]
  rfl

theorem Submitted.rowsValid {event : Event} (submitted : Submitted db v current nowSec db')
    (checked : checkEvent host event config = .ok v) (valid : RowsValid host config db) :
    RowsValid host config db' := by
  intro row member
  rcases submitted.mem_rows.mp member with old | rfl
  · obtain ⟨kept, inside, same⟩ := exists_of_mem_demoted old
    have rowValid := valid kept inside
    rcases same with rfl | rfl
    · exact rowValid
    · exact rowValid
  · refine ⟨rfl, v, ?_⟩
    show checkEvent host v.ev config = .ok v
    rw [checkEvent_ev checked]
    exact checked

/-! ### The effect of a purge and of a genesis -/

@[simp] theorem toFinset_sortIds (ids : List String) : (sortIds ids).toFinset = ids.toFinset :=
  List.toFinset_eq_of_perm _ _ (List.perm_insertionSort _ ids)

theorem mem_sortIds {ids : List String} {id : String} : id ∈ sortIds ids ↔ id ∈ ids :=
  (List.perm_insertionSort _ ids).mem_iff

theorem RowsValid.delete (valid : RowsValid host config db) (ids : List String) :
    RowsValid host config (db.deleteEvents ids) :=
  fun row member => valid row (Events.mem_delete.mp member).1

/-- A stored id has the form of one. -/
theorem RowsValid.isHex64 (valid : RowsValid host config db) {row : Row}
    (member : row ∈ db.events.rows) : isHex64 row.id = true := by
  obtain ⟨same, v, checked⟩ := valid row member
  rw [← same]
  exact checkEvent_hex checked

/-- The database after a list of inserts. -/
theorem foldlM_insertEvent {events : List Checked} (isCurrent : Checked → Bool)
    (inserted : events.foldlM (fun db e => db.insertEvent e (isCurrent e) nowSec) db = some db') :
    db'.storeId = db.storeId ∧ db'.writeSeq = db.writeSeq ∧ db'.lastPurgeSeq = db.lastPurgeSeq ∧
      db'.rateLog = db.rateLog ∧
      db'.events.rows = db.events.rows ++ events.map fun e => rowOf e (isCurrent e) nowSec := by
  induction events generalizing db with
  | nil =>
      obtain rfl := Option.some.inj inserted
      simp
  | cons e events ih =>
      rw [List.foldlM_cons] at inserted
      obtain ⟨next, first, rest⟩ := Option.bind_eq_some_iff.mp inserted
      obtain ⟨table, added, rfl⟩ := Option.map_eq_some_iff.mp first
      obtain ⟨store, seq, purge, rate, rows⟩ := ih rest
      refine ⟨store, seq, purge, rate, ?_⟩
      rw [rows]
      show table.rows ++ _ = _
      rw [(Events.insert_eq_some.mp added).1, List.append_assoc, List.map_cons, List.singleton_append]

/-- The checks of a migration: every entry passes its own, and no event comes twice. -/
theorem checkEntries_eq_ok {i : Nat} {seen : List String} {entries : List Event}
    {events : List Checked} (checked : checkEntries host config i seen entries = .ok events) :
    (∀ v ∈ events, ∃ event ∈ entries, checkEvent host event config = .ok v) ∧
      (∀ v ∈ events, ∀ parsed, parseFactKey v.d = some parsed →
        writeRefusal config none v.pubkey parsed = none) ∧
      (events.map fun v => v.ev.id).Nodup ∧ ∀ v ∈ events, v.ev.id ∉ seen := by
  induction entries generalizing i seen events with
  | nil =>
      obtain rfl := Except.ok.inj checked
      simp
  | cons event entries ih =>
      rw [checkEntries] at checked
      cases passes : checkEvent host event config with
      | error invalid =>
          rw [passes] at checked
          nomatch checked
      | ok w =>
          rw [passes] at checked
          dsimp only at checked
          rw [ite_eq_iff] at checked
          obtain ⟨-, refused⟩ | ⟨fresh, checked⟩ := checked
          · nomatch refused
          cases denied : (parseFactKey w.d).bind (writeRefusal config none w.pubkey) with
          | some why =>
              rw [denied] at checked
              nomatch checked
          | none =>
              rw [denied] at checked
              obtain ⟨rest, later, built⟩ := bind_eq_ok.mp checked
              obtain rfl := Except.ok.inj built
              obtain ⟨valid, allowed, nodup, unseen⟩ := ih later
              have newId : w.ev.id ∉ seen := by simpa using fresh
              refine ⟨?_, ?_, ?_, ?_⟩
              · intro u member
                rcases List.mem_cons.mp member with rfl | member
                · exact ⟨event, List.mem_cons_self, passes⟩
                · obtain ⟨other, inside, passes⟩ := valid u member
                  exact ⟨other, List.mem_cons_of_mem _ inside, passes⟩
              · intro u member parsed parses
                rcases List.mem_cons.mp member with rfl | member
                · rw [parses, Option.bind_some] at denied
                  exact denied
                · exact allowed u member parsed parses
              · rw [List.map_cons, List.nodup_cons]
                refine ⟨?_, nodup⟩
                intro inside
                obtain ⟨u, member, same⟩ := List.mem_map.mp inside
                exact unseen u member (same ▸ List.mem_cons_self)
              · intro u member
                rcases List.mem_cons.mp member with rfl | member
                · exact newId
                · exact fun inside => unseen u member (List.mem_cons_of_mem _ inside)

/-- The database of a genesis holds exactly the rows of its events. -/
theorem genesisDatabase_rows {storeId : String} {events : List Checked}
    (created : genesisDatabase storeId events nowSec = some db) :
    db.storeId = storeId ∧ db.writeSeq = 0 ∧ db.lastPurgeSeq = 0 ∧ db.rateLog = [] ∧
      db.events.rows = events.map fun e => rowOf e
        (((headsOf events).get e.key).map (fun head => head.ev.id) = some e.ev.id) nowSec := by
  exact foldlM_insertEvent (fun e =>
    ((headsOf events).get e.key).map (fun head => head.ev.id) = some e.ev.id) created

end Statements

/-! ### A submit before and in its transaction -/

section Submitting

variable {host : Host} {disk : Disk} {store : HiveMemoryStore} {req : SubmitRequest}
  {admitted : Admitted} {db : Database} {writer : Writer} {v : Checked}
  {expectedPriorId : Option String} {nowSec : Int}

/-- What a submit that reaches its transaction has passed. -/
structure Passed (host : Host) (disk : Disk) (store : HiveMemoryStore) (req : SubmitRequest)
    (config : Config) (admitted : Admitted) : Prop where
  ready : store.state = .ready
  configured : store.config = some config
  database : disk.database = some admitted.db
  backed : purgeBackupIncomplete admitted.db.lastPurgeSeq disk.receipt = none
  fresh : backupFence config admitted.db disk.receipt req.nowSec = none
  writer : config.writers.get req.writer = some admitted.writer
  pubkey : req.event.pubkey = admitted.writer.pubkey
  authorized : ∃ parsed, (req.event.tagValue "d").bind parseFactKey = some parsed ∧
    writeRefusal config (some admitted.writer) admitted.writer.pubkey parsed = none
  checked : checkEvent host req.event config = .ok admitted.v
  policy : ∃ topic, memoryWritePolicy admitted.v.toValid = .ok topic
  prior : req.expectedPriorId.all isHex64 = true
  unpurged : admitted.v.ev.id ∉ store.purgedIds.toFinset

theorem submitChecks_eq_ok : submitChecks host disk store req = .ok admitted ↔
    ∃ config, Passed host disk store req config admitted := by
  unfold submitChecks
  simp only [bind_eq_ok, ensure_eq_ok, require_eq_ok, objection_eq_ok, mapError_eq_ok, exists_const,
    decide_eq_true_eq]
  constructor
  · rintro ⟨ready, config, configured, db, database, backed, fresh, writer, bound, parsed, key, allowed,
      v, checked, topic, policy, prior, unpurged, built⟩
    obtain rfl := Except.ok.inj built
    obtain ⟨found, same⟩ := Option.filter_eq_some_iff.mp bound
    exact ⟨config, ready, configured, database, backed, fresh, found, of_decide_eq_true same,
      ⟨parsed, key, allowed⟩, checked, ⟨topic, policy⟩, prior, by simpa [JsSet.has] using unpurged⟩
  · rintro ⟨config, passed⟩
    obtain ⟨parsed, key, allowed⟩ := passed.authorized
    obtain ⟨topic, policy⟩ := passed.policy
    exact ⟨passed.ready, config, passed.configured, admitted.db, passed.database, passed.backed,
      passed.fresh, admitted.writer,
      Option.filter_eq_some_iff.mpr ⟨passed.writer, decide_eq_true passed.pubkey⟩, parsed, key,
      allowed, admitted.v, passed.checked, topic, policy, passed.prior,
      by simpa [JsSet.has] using passed.unpurged, rfl⟩

/-- How the transaction of a submit ends. -/
inductive Ends (db : Database) (writer : Writer) (v : Checked) (expectedPriorId : Option String)
    (nowSec : Int) : SubmitTx → Prop where
  | replay (existing : Row) (stored : db.events.find v.ev.id = some existing) :
      Ends db writer v expectedPriorId nowSec (.replay existing.id existing.status)
  | refused (refusal : Refusal) : Ends db writer v expectedPriorId nowSec (.refused refusal)
  | failed : Ends db writer v expectedPriorId nowSec .failed
  | staged (db' : Database) (absent : db.events.find v.ev.id = none)
      (prior : (db.events.current v.key).map Row.id = expectedPriorId)
      (newer : nip01Newer v.version ((db.events.current v.key).map Row.version) = true)
      (active : v.status = .withdrawn →
        ∃ row, db.events.current v.key = some row ∧ row.status = .active)
      (underCap : rateCount db v.pubkey nowSec < writer.perHour)
      (submitted : Submitted db v (db.events.current v.key) nowSec db') :
      Ends db writer v expectedPriorId nowSec (.staged db')

theorem submitTx_ends : Ends db writer v expectedPriorId nowSec
    (submitTx db writer v expectedPriorId nowSec) := by
  unfold submitTx
  cases stored : db.events.find v.ev.id with
  | some existing => exact .replay existing stored
  | none =>
      dsimp only
      split_ifs with mismatch older withdrawn capped
      · exact .refused _
      · exact .refused _
      · exact .refused _
      · exact .refused _
      · cases accepted : acceptSubmit db v (db.events.current v.key) nowSec with
        | none => exact .failed
        | some db' =>
            refine .staged db' stored (not_not.mp mismatch) (by simpa using older) ?_
              (not_le.mp capped) (submitted_of_accept accepted)
            intro isWithdrawn
            cases head : db.events.current v.key with
            | none => simp [isWithdrawn, head] at withdrawn
            | some row =>
                refine ⟨row, rfl, ?_⟩
                cases status : row.status with
                | active => rfl
                | withdrawn => simp [isWithdrawn, head, status] at withdrawn

end Submitting

end Nvoy.Store
