/-
What a ready store does with working I/O.

* `genesisDatabase_isSome`, `serving_of_migration` — a migration of distinct events, and a start:
  the store is ready and holds them;
* `acceptSubmit_isSome`, `Serving.submit` — a submit that passes its checks and replaces the
  current event is stored;
* `Serving.hardDelete`, `Serving.backup` — a delete and a backup.
-/

import Nvoy.Store.Recovery

namespace Nvoy.Store

open Memory

/-! ### No constraint refuses a genesis or an accepted submit -/

/-- Inserting distinct rows succeeds when the ones that are current have different keys. -/
theorem foldlM_insertEvent_isSome {events : List Checked} {isCurrent : Checked → Bool} {nowSec : Int}
    {db : Database} (nodup : (events.map fun e => e.ev.id).Nodup)
    (fresh : ∀ e ∈ events, ∀ row ∈ db.events.rows, row.id ≠ e.ev.id)
    (heads : events.Pairwise fun a b => isCurrent a = true → isCurrent b = true → a.key ≠ b.key)
    (free : ∀ e ∈ events, isCurrent e = true → ∀ row ∈ db.events.rows, row.isCurrent = true →
      row.key ≠ e.key) :
    (events.foldlM (fun (db : Database) e => db.insertEvent e (isCurrent e) nowSec) db).isSome = true := by
  induction events generalizing db with
  | nil => rfl
  | cons e events ih =>
      rw [List.map_cons, List.nodup_cons] at nodup
      rw [List.pairwise_cons] at heads
      obtain ⟨table, inserted⟩ : ∃ table, db.events.insert (rowOf e (isCurrent e) nowSec) = some table := by
        unfold Events.insert
        rw [dif_pos, dif_pos]
        · exact ⟨_, rfl⟩
        · exact free e List.mem_cons_self
        · intro member
          obtain ⟨row, stored, same⟩ := List.mem_map.mp member
          exact fresh e List.mem_cons_self row stored same
      obtain ⟨rows, -, -⟩ := Events.insert_eq_some.mp inserted
      rw [List.foldlM_cons, Database.insertEvent, inserted]
      refine ih nodup.2 ?_ heads.2 ?_
      · intro other member row stored
        change row ∈ table.rows at stored
        rw [rows] at stored
        rcases List.mem_append.mp stored with old | new
        · exact fresh other (List.mem_cons_of_mem _ member) row old
        · obtain rfl := List.mem_singleton.mp new
          intro same
          exact nodup.1 (List.mem_map.mpr ⟨other, member, same.symm⟩)
      · intro other member current row stored isCurrent
        change row ∈ table.rows at stored
        rw [rows] at stored
        rcases List.mem_append.mp stored with old | new
        · exact free other (List.mem_cons_of_mem _ member) current row old isCurrent
        · obtain rfl := List.mem_singleton.mp new
          exact heads.1 other member isCurrent current

/-- A genesis of distinct events meets every constraint of the table. -/
theorem genesisDatabase_isSome {storeId : String} {events : List Checked} {nowSec : Int}
    (nodup : (events.map fun e => e.ev.id).Nodup) :
    (genesisDatabase storeId events nowSec).isSome = true := by
  apply foldlM_insertEvent_isSome nodup
  · exact fun _ _ row stored => absurd stored (List.not_mem_nil (a := row))
  · refine List.Pairwise.imp ?_ (List.pairwise_map.mp nodup)
    intro a b apart headA headB same
    have headA := of_decide_eq_true headA
    have headB := of_decide_eq_true headB
    rw [same, headB] at headA
    exact apart (Option.some.inj headA).symm
  · exact fun _ _ _ row stored => absurd stored (List.not_mem_nil (a := row))

/-- An event that is neither stored nor counted meets every constraint when it replaces the current
event of its key. -/
theorem acceptSubmit_isSome {db : Database} {v : Checked} {nowSec : Int}
    (absent : db.events.find v.ev.id = none)
    (uncounted : ∀ entry ∈ db.rateLog, entry.eventId ≠ v.ev.id) :
    (acceptSubmit db v (db.events.current v.key) nowSec).isSome = true := by
  have unstored := Events.find_eq_none.mp absent
  obtain ⟨table, inserted⟩ : ∃ table, (demoted db.events (db.events.current v.key)).insert
      (rowOf v true nowSec) = some table := by
    unfold Events.insert
    rw [dif_pos, dif_pos]
    · exact ⟨_, rfl⟩
    · intro _ other member isCurrent same
      cases current : db.events.current v.key with
      | none =>
          rw [current] at member
          exact Events.current_eq_none.mp current other member isCurrent same
      | some head =>
          rw [current] at member
          rcases Events.mem_demote.mp member with ⟨stored, differ⟩ | ⟨old, -, -, rfl⟩
          · have itself : db.events.current v.key = some other :=
              Events.current_eq_some.mpr ⟨stored, isCurrent, same⟩
            rw [itself] at current
            exact differ (congrArg Row.id (Option.some.inj current))
          · cases isCurrent
    · intro member
      obtain ⟨row, stored, same⟩ := List.mem_map.mp member
      obtain ⟨old, inside, kept⟩ := exists_of_mem_demoted stored
      refine unstored old inside ?_
      rcases kept with rfl | rfl
      · exact same
      · exact same
  unfold acceptSubmit
  cases current : db.events.current v.key with
  | none =>
      rw [current] at inserted
      change db.events.insert _ = _ at inserted
      simp only [Database.insertEvent, inserted, Option.map_some, Option.bind_eq_bind, Option.bind_some]
      simpa using uncounted
  | some head =>
      rw [current] at inserted
      change (db.events.demote head.id).insert _ = _ at inserted
      simp only [Database.insertEvent, inserted, Option.map_some, Option.bind_eq_bind, Option.bind_some]
      simpa using uncounted

/-- Distinct events that pass their checks are entries a migration takes. -/
theorem checkEntries_map {host : Host} {config : Config} {i : Nat} {seen : List String}
    {events : List Checked} (passes : ∀ v ∈ events, checkEvent host v.ev config = .ok v)
    (allowed : ∀ v ∈ events, (parseFactKey v.d).bind (writeRefusal config none v.pubkey) = none)
    (nodup : (events.map fun v => v.ev.id).Nodup) (unseen : ∀ v ∈ events, v.ev.id ∉ seen) :
    checkEntries host config i seen (events.map Checked.ev) = .ok events := by
  induction events generalizing i seen with
  | nil => rfl
  | cons v events ih =>
      rw [List.map_cons, List.nodup_cons] at nodup
      have later : checkEntries host config (i + 1) (v.ev.id :: seen) (events.map Checked.ev) =
          .ok events := by
        refine ih (fun u member => passes u (List.mem_cons_of_mem _ member))
          (fun u member => allowed u (List.mem_cons_of_mem _ member)) nodup.2 fun u member inside => ?_
        rcases List.mem_cons.mp inside with same | old
        · exact nodup.1 (List.mem_map.mpr ⟨u, member, same⟩)
        · exact unseen u (List.mem_cons_of_mem _ member) old
      rw [List.map_cons, checkEntries, passes v List.mem_cons_self]
      dsimp only
      rw [if_neg (by simpa using unseen v List.mem_cons_self), allowed v List.mem_cons_self]
      dsimp only
      rw [later]
      rfl

theorem backupFence_eq_none {config : Config} {db : Database} {receipt : Receipt} {nowSec : Int} :
    backupFence config db (some receipt) nowSec = none ↔ receipt.writeSeq ≤ db.writeSeq ∧
      receipt.recordedAt ≤ nowSec + RECEIPT_SKEW_SEC ∧
      nowSec - receipt.recordedAt ≤ config.maxUnbackedSec := by
  unfold backupFence
  dsimp only
  split_ifs with ahead future old
  · exact ⟨nofun, fun fresh => absurd fresh.1 (by omega)⟩
  · exact ⟨nofun, fun fresh => absurd fresh.2.1 (by omega)⟩
  · exact ⟨nofun, fun fresh => absurd fresh.2.2 (by omega)⟩
  · exact ⟨fun _ => ⟨by omega, by omega, by omega⟩, fun _ => rfl⟩

section Refusing

variable {host : Host} {disk : Disk} {store : HiveMemoryStore} {req : SubmitRequest}
  {config : Config} {db : Database} {writer : Writer} {v : Checked}
  {refusal : Refusal}

/-- Everything a submit checks before the event itself. -/
structure Admits (config : Config) (disk : Disk) (store : HiveMemoryStore) (req : SubmitRequest) (db : Database)
    (writer : Writer) : Prop where
  ready : store.state = .ready
  configured : store.config = some config
  database : disk.database = some db
  backed : purgeBackupIncomplete db.lastPurgeSeq disk.receipt = none
  fresh : backupFence config db disk.receipt req.nowSec = none
  bound : config.writers.get req.writer = some writer
  own : req.event.pubkey = writer.pubkey
  authorized : ∃ parsed, (req.event.tagValue "d").bind parseFactKey = some parsed ∧
    writeRefusal config (some writer) writer.pubkey parsed = none

/-- What is left of the checks of a submit that meets those. -/
theorem submitChecks_of_admits (admits : Admits config disk store req db writer) :
    submitChecks host disk store req = (do
      let v ← (checkEvent host req.event config).mapError fun invalid =>
        ⟨"HIVE_MEMORY_INVALID_EVENT", invalid.reason⟩
      let _ ← memoryWritePolicy v.toValid
      ensure (req.expectedPriorId.all isHex64)
        ⟨"HIVE_MEMORY_PRIOR_MISMATCH", "expected_prior_id must be a 64-hex event id or null"⟩
      ensure (!store.purgedIds.has v.ev.id)
        ⟨"HIVE_MEMORY_PURGED_EVENT", "this event was purged and is never stored again"⟩
      .ok ⟨db, writer, v⟩) := by
  obtain ⟨parsed, key, allowed⟩ := admits.authorized
  have bound : (config.writers.get req.writer).filter (req.event.pubkey = ·.pubkey) = some writer :=
    Option.filter_eq_some_iff.mpr ⟨admits.bound, decide_eq_true admits.own⟩
  unfold submitChecks
  rw [ensure_of (decide_eq_true admits.ready), ok_bind, require_eq_ok.mpr admits.configured, ok_bind,
    require_eq_ok.mpr admits.database, ok_bind, objection_of admits.backed, ok_bind,
    objection_of admits.fresh, ok_bind, require_eq_ok.mpr bound, ok_bind, require_eq_ok.mpr key, ok_bind,
    objection_of allowed, ok_bind]

/-- A submit that meets every check before the write policy is refused as the policy says. -/
theorem submitChecks_policy (admits : Admits config disk store req db writer)
    (checked : checkEvent host req.event config = .ok v)
    (policy : memoryWritePolicy v.toValid = .error refusal) :
    submitChecks host disk store req = .error refusal := by
  rw [submitChecks_of_admits admits, mapError_eq_ok.mpr checked, ok_bind, policy, error_bind]

/-- An event that fails its check is refused as invalid. -/
theorem submitChecks_invalid (admits : Admits config disk store req db writer) {invalid : Invalid}
    (failed : checkEvent host req.event config = .error invalid) :
    submitChecks host disk store req = .error ⟨"HIVE_MEMORY_INVALID_EVENT", invalid.reason⟩ := by
  rw [submitChecks_of_admits admits, failed, mapError_error, error_bind]

/-- An event that passes its check and the policy is refused only where it was purged. -/
theorem submitChecks_checked (admits : Admits config disk store req db writer) {topic : String}
    (checked : checkEvent host req.event config = .ok v) (policy : memoryWritePolicy v.toValid = .ok topic)
    (named : req.expectedPriorId.all isHex64 = true) :
    submitChecks host disk store req = .error
        ⟨"HIVE_MEMORY_PURGED_EVENT", "this event was purged and is never stored again"⟩ ∨
      submitChecks host disk store req = .ok ⟨db, writer, v⟩ := by
  rw [submitChecks_of_admits admits, mapError_eq_ok.mpr checked, ok_bind, policy, ok_bind, ensure_of named,
    ok_bind]
  cases purged : store.purgedIds.has v.ev.id with
  | true => exact .inl rfl
  | false => exact .inr rfl

end Refusing

/-! ### A ready process -/

section Serving

/-- The process is ready, and the disk holds that database. -/
structure Serving (config : Config) (w : World) (store : HiveMemoryStore) (db : Database) : Prop where
  process : w.process = some store
  ready : store.state = .ready
  config : store.config = some config
  database : w.disk.database = some db

variable {host : Host} {config : Config} {requireMigratedIds : List String} {w : World}
  {store : HiveMemoryStore} {db db' : Database}

/-- After a migration and a start the store is ready and holds the events of the migration. -/
theorem serving_of_migration {entries : List Event} {events : List Checked} {storeId : StoreId}
    {nowSec : Int} (checks : checkEntries host config 0 [] entries = .ok events)
    (required : ∀ id ∈ requireMigratedIds, id ∈ events.map fun e => e.ev.id) :
    ∃ store created, genesisDatabase storeId.1 events nowSec = some created ∧
      Serving config (run host config requireMigratedIds World.empty
        [.migrateStoreJson entries storeId nowSec .none, .start .none]) store
        (created.stage (genesisPayload (some events)) nowSec) ∧
      store.purgedIds.toFinset = ∅ := by
  obtain ⟨passed, allowed, nodup, -⟩ := checkEntries_eq_ok checks
  have entered : Entered host config events := by
    intro v member
    obtain ⟨event, -, passes⟩ := passed v member
    exact ⟨⟨event, passes⟩, allowed v member⟩
  obtain ⟨created, made⟩ : ∃ created, genesisDatabase storeId.1 events nowSec = some created :=
    Option.isSome_iff_exists.mp (genesisDatabase_isSome nodup)
  have noneAbsent : (requireMigratedIds.filter fun id =>
      !(events.map fun e => e.ev.id).contains id) = [] := by
    rw [List.filter_eq_nil_iff]
    intro id wanted
    simpa using required id wanted
  have migrated : (migrateStoreJson host World.empty.disk config requireMigratedIds entries storeId.1
      nowSec .none).disk = (genesis World.empty.disk storeId.1 (some events) nowSec .none).disk := by
    unfold migrateStoreJson
    rw [checks]
    dsimp only
    rw [noneAbsent, if_neg (not_not.mpr rfl)]
  have database : (genesis World.empty.disk storeId.1 (some events) nowSec .none).disk.database =
      some (created.stage (genesisPayload (some events)) nowSec) := by
    unfold genesis
    dsimp only
    rw [if_neg (by decide), if_neg (by decide), Option.getD_some, made]
    rfl
  have onDisk : (_ ∧ _) ∨ ∃ db hist, Begins host config db hist ∧
      OnDisk host config requireMigratedIds
        (genesis World.empty.disk storeId.1 (some events) nowSec .none).disk db hist 0 :=
    genesis_onDisk rfl rfl entered
      (fun list same id wanted => Option.some.inj same ▸ required id wanted) .none
  rcases onDisk with ⟨nothing, -⟩ | ⟨db, hist, begins, on⟩
  · rw [database] at nothing
    nomatch nothing
  · obtain rfl : _ = db := Option.some.inj (database.symm.trans on.database)
    have started := on.reconciled (.create (some config) requireMigratedIds) rfl rfl .none
    obtain ⟨store, served, ready⟩ := started.ready rfl
    have serves := started.serves store served
    obtain ⟨-, -, purged⟩ := serves.ready ready
    have opened : run host config requireMigratedIds World.empty
        [.migrateStoreJson entries storeId nowSec .none, .start .none] =
          ⟨(reconcile host (genesis World.empty.disk storeId.1 (some events) nowSec .none).disk
            (.create (some config) requireMigratedIds) .none).1,
          (reconcile host (genesis World.empty.disk storeId.1 (some events) nowSec .none).disk
            (.create (some config) requireMigratedIds) .none).2⟩ := by
      rw [← migrated]
      rfl
    refine ⟨store, created, made, ⟨?_, ready, serves.config, ?_⟩, purged.trans begins.purged_eq⟩
    · rw [opened]
      exact served
    · rw [opened]
      exact started.onDisk.database

theorem Serving.backup (serving : Serving config w store db) (receipt : Receipt) :
    Serving config (step host config requireMigratedIds w (.recordVerifiedBackup receipt)) store db ∧
      (step host config requireMigratedIds w (.recordVerifiedBackup receipt)).disk.receipt =
        some receipt :=
  ⟨⟨serving.process, serving.ready, serving.config, serving.database⟩, rfl⟩

/-- A submit that passes its checks, and whose transaction is staged, is stored and answered. -/
theorem Serving.submit (serving : Serving config w store db) {req : SubmitRequest} {writer : Writer}
    {v : Checked} (passed : Passed host w.disk store req config ⟨db, writer, v⟩)
    (staged : submitTx db writer v req.expectedPriorId req.nowSec = .staged db') :
    ∃ store', Serving config (step host config requireMigratedIds w (.submit req .none)) store' db' ∧
      store'.purgedIds = store.purgedIds ∧
      (Store.submit host w.disk store req .none).answer = some (.accepted v.ev.id v.status false) := by
  have submitted : Store.submit host w.disk store req .none =
      ⟨(appendLedgerLine (w.disk.commit db') db'.pendingLedger .none).1,
        some { store with ledgerMaxSeq := db'.writeSeq },
        some (.accepted v.ev.id v.status false)⟩ := by
    unfold Store.submit
    rw [submitChecks_eq_ok.mpr ⟨config, passed⟩]
    dsimp only
    rw [staged]
    rfl
  have stepped : step host config requireMigratedIds w (.submit req .none) =
      ⟨(appendLedgerLine (w.disk.commit db') db'.pendingLedger .none).1,
        some { store with ledgerMaxSeq := db'.writeSeq }⟩ := by
    show w.serve (fun disk store => Store.submit host disk store req .none) = _
    unfold World.serve
    rw [serving.process]
    dsimp only
    rw [submitted]
  refine ⟨{ store with ledgerMaxSeq := db'.writeSeq }, ?_, rfl, ?_⟩
  · rw [stepped]
    exact ⟨rfl, serving.ready, serving.config, rfl⟩
  · rw [submitted]

/-- A delete of stored events is carried out. -/
theorem Serving.hardDelete (serving : Serving config w store db) {target : DeleteTarget}
    {nowSec : Int} (hits : (target.ids db.events.rows).isEmpty = false) :
    ∃ store', Serving config (step host config requireMigratedIds w (.hardDelete target nowSec .none))
        store' (purgeTx db (target.ids db.events.rows) "hard-delete" nowSec) ∧
      store'.purgedIds = (target.ids db.events.rows).foldl .add store.purgedIds := by
  have purged : Store.hardDelete w.disk store target nowSec .none =
      purge w.disk store db (target.ids db.events.rows) "hard-delete" nowSec .none := by
    unfold Store.hardDelete
    rw [serving.ready, serving.database]
    dsimp only
    rw [hits, if_neg Bool.false_ne_true]
  have stepped : step host config requireMigratedIds w (.hardDelete target nowSec .none) =
      ⟨(purge w.disk store db (target.ids db.events.rows) "hard-delete" nowSec .none).disk,
        (purge w.disk store db (target.ids db.events.rows) "hard-delete" nowSec .none).store⟩ := by
    show w.serve (fun disk store => Store.hardDelete disk store target nowSec .none) = _
    unfold World.serve
    rw [serving.process]
    dsimp only
    rw [purged]
  unfold purge at stepped
  rw [hits, if_neg Bool.false_ne_true] at stepped
  refine ⟨{ store with
    ledgerMaxSeq := db.writeSeq + 1
    purgedIds := (target.ids db.events.rows).foldl .add store.purgedIds }, ⟨?_, serving.ready,
    serving.config, ?_⟩, rfl⟩
  · rw [stepped]
    rfl
  · rw [stepped]
    rfl

end Serving

/-! ### The sample deployment -/

section Samples

variable {requireMigratedIds : List String} {w : World} {store : HiveMemoryStore} {db : Database}

/-- A claim of the sample fact key, by the digit of its id. -/
def claimOf (digit : Char) (createdAt : Int) : Checked :=
  sampleClaim (sampleKey digit) "deploy" createdAt

theorem checkEvent_claimB : checkEvent Host.sample (claimOf 'b' 2000).ev sampleConfig =
    .ok (claimOf 'b' 2000) := by
  exact checkEvent_sampleEvent (by decide) (by decide) (by decide) (by decide) (by decide)

theorem checkEvent_claimC : checkEvent Host.sample (claimOf 'c' 3000).ev sampleConfig =
    .ok (claimOf 'c' 3000) := by
  exact checkEvent_sampleEvent (by decide) (by decide) (by decide) (by decide) (by decide)

theorem checkEvent_claimD : checkEvent Host.sample (claimOf 'd' 1500).ev sampleConfig =
    .ok (claimOf 'd' 1500) := by
  exact checkEvent_sampleEvent (by decide) (by decide) (by decide) (by decide) (by decide)

/-- A cutover with distinct claims of the sample fact key. -/
theorem serving_of_samples {claims : List Checked} {nowSec : Int}
    (passes : ∀ v ∈ claims, checkEvent Host.sample v.ev sampleConfig = .ok v)
    (own : ∀ v ∈ claims, v.pubkey = sampleKey 'a' ∧ v.d = "hive-memory:hive:ops:deploy")
    (nodup : (claims.map fun v => v.ev.id).Nodup) :
    ∃ store created, genesisDatabase sampleStoreId.1 claims nowSec = some created ∧
      Serving sampleConfig (run Host.sample sampleConfig [] World.empty
        [.migrateStoreJson (claims.map Checked.ev) sampleStoreId nowSec .none, .start .none]) store
        (created.stage (genesisPayload (some claims)) nowSec) ∧
      store.purgedIds.toFinset = ∅ := by
  have allowed : (parseFactKey "hive-memory:hive:ops:deploy").bind
      (writeRefusal sampleConfig none (sampleKey 'a')) = none := by decide
  have checks : checkEntries Host.sample sampleConfig 0 [] (claims.map Checked.ev) = .ok claims := by
    refine checkEntries_map passes (fun v member => ?_) nodup fun v _ => List.not_mem_nil
    obtain ⟨pubkey, d⟩ := own v member
    rw [pubkey, d]
    exact allowed
  exact serving_of_migration checks fun id wanted => absurd wanted List.not_mem_nil

/-- The owner submits a claim of the sample fact key, with the fences open. -/
theorem passed_of_sample (serving : Serving sampleConfig w store db) {digit : Char}
    {createdAt nowSec : Int} {prior : Option String} {receipt : Receipt}
    (checked : checkEvent Host.sample (claimOf digit createdAt).ev sampleConfig =
      .ok (claimOf digit createdAt))
    (recorded : w.disk.receipt = some receipt) (covers : db.lastPurgeSeq ≤ receipt.writeSeq)
    (known : receipt.writeSeq ≤ db.writeSeq) (past : receipt.recordedAt ≤ nowSec + RECEIPT_SKEW_SEC)
    (fresh : nowSec - receipt.recordedAt ≤ 3600) (named : prior.all isHex64 = true)
    (unpurged : sampleKey digit ∉ store.purgedIds.toFinset) :
    Passed Host.sample w.disk store ⟨"owner", (claimOf digit createdAt).ev, prior, nowSec⟩ sampleConfig
      ⟨db, sampleWriter, claimOf digit createdAt⟩ := by
  have key : parseFactKey "hive-memory:hive:ops:deploy" =
      some ⟨"hive:ops", "deploy", "hive-memory:hive:ops:deploy", none, none⟩ := by decide
  have allowed : writeRefusal sampleConfig (some sampleWriter) (sampleKey 'a')
      ⟨"hive:ops", "deploy", "hive-memory:hive:ops:deploy", none, none⟩ = none := by decide
  have policy : memoryWritePolicy (claimOf digit createdAt).toValid = .ok "deploy" := by
    have topic : normalizeMemoryTopic (claimOf digit createdAt).topic = some "deploy" :=
      show normalizeMemoryTopic "deploy" = _ by decide
    have durable : isWorkflowSlug (claimOf digit createdAt).slug = false :=
      show isWorkflowSlug "deploy" = _ by decide
    unfold memoryWritePolicy
    rw [topic, durable]
    exact ok_bind
  have backed : purgeBackupIncomplete db.lastPurgeSeq w.disk.receipt = none := by
    rw [recorded]
    unfold purgeBackupIncomplete
    rw [if_pos (by simp [covers])]
  have unfenced : backupFence sampleConfig db w.disk.receipt nowSec = none := by
    rw [recorded]
    exact backupFence_eq_none.mpr ⟨known, past, fresh⟩
  have bound : sampleConfig.writers.get "owner" = some sampleWriter := rfl
  exact ⟨serving.ready, serving.config, serving.database, backed, unfenced, bound, rfl,
    ⟨_, key, allowed⟩, checked, ⟨"deploy", policy⟩, named, unpurged⟩

end Samples

end Nvoy.Store
