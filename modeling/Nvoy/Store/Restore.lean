/-
Snapshots, and the restore that reconciles one with the ledger.

* `snapshotStore` — a copy of the database and the ledger cut at its write sequence number;
* `loadRestoreAuthority` — the ledger of the newest verified backup, and the purge records that must
  be prefixes of it;
* `restorePlan` — the checks of a restore in the order they are made, and the database it installs;
* `restoreSnapshot` — the plan carried out on the disk, interrupted anywhere.
-/

import Nvoy.Store.System

namespace Nvoy.Store

open Memory

/-! ### Snapshots -/

structure Snapshot where
  db : Database
  ledgerCut : List UInt8
  snapshotSeq : Nat
  snapshotAt : Int
  lastPurgeSeq : Nat

/-- `snapshotStore`: the copy of the database is made first, the ledger is read after it. -/
def snapshotStore (copied : Option Database) (ledger : Option (List UInt8)) (nowSec : Int) :
    Except HiveMemoryError Snapshot := do
  let db ← require copied ⟨"SQLITE_ERROR", ""⟩
  let read ← readLedger ledger
  ensure (db.writeSeq ≤ read.lines.length) ⟨"HIVE_MEMORY_BACKUP_REFUSED",
    "the ledger (" ++ toString read.lines.length ++ ") is behind the snapshot (" ++
      toString db.writeSeq ++ "); retry"⟩
  let cut := read.lines.take db.writeSeq
  .ok ⟨db, fileBytes cut, db.writeSeq, nowSec, (foldLedger cut).lastPurgeSeq⟩

/-! ### The restore authority -/

structure LedgerFile where
  path : String
  bytes : Option (List UInt8)

/-- An entry of the directory of purge records; `ledger` is the ledger inside it. -/
structure PurgeRecord where
  name : String
  isDirectory : Bool
  ledger : Option (List UInt8)

structure PurgeRecords where
  path : String
  /-- The entries, or why they cannot be listed. -/
  entries : Except String (List PurgeRecord)

/-- What a restore is given as its authority. -/
structure Authority where
  ledger : Option LedgerFile
  purgeRecords : Option PurgeRecords

/-- A complete ledger. -/
structure AuthorityHead where
  lines : List Line
  bytes : List UInt8

def authorityUnavailable (why : String) : HiveMemoryError :=
  ⟨"HIVE_MEMORY_RESTORE_AUTHORITY_UNAVAILABLE", why⟩

def readAuthorityLedger (file : LedgerFile) : Except HiveMemoryError AuthorityHead :=
  match file.bytes with
  | none => .error (authorityUnavailable (file.path ++ ": missing"))
  | some bytes =>
      match readLedger (some bytes) with
      | .error e => .error (authorityUnavailable (file.path ++ ": " ++ e.message))
      | .ok read =>
          if read.lines.isEmpty || read.truncated then
            .error (authorityUnavailable (file.path ++ " holds no complete ledger"))
          else .ok ⟨read.lines, bytes⟩

/-- Every purge record is a prefix of the head. -/
def checkPurgeRecords (path : String) (head : AuthorityHead) :
    List PurgeRecord → Except HiveMemoryError Unit
  | [] => .ok ()
  | entry :: entries => do
      ensure (entry.isDirectory && isHex64 entry.name)
        (authorityUnavailable ("unexpected entry " ++ entry.name ++ " in the purge records"))
      let record ← readAuthorityLedger
        ⟨path ++ "/" ++ entry.name ++ "/accepted-ledger.jsonl", entry.ledger⟩
      ensure ((record.lines.map Line.raw).isPrefixOf (head.lines.map Line.raw))
        ⟨"HIVE_MEMORY_RESTORE_AUTHORITY_MISMATCH", "the hive-memory-purge ledger of " ++
          idPrefix entry.name ++ " is not a prefix of the authority ledger"⟩
      checkPurgeRecords path head entries

def loadRestoreAuthority (authority : Authority) : Except HiveMemoryError AuthorityHead := do
  let ledger ← require authority.ledger
    (authorityUnavailable "no authority ledger from the newest verified hive-memory snapshot was given")
  let records ← require authority.purgeRecords
    (authorityUnavailable "no hive-memory-purge records directory was given")
  let head ← readAuthorityLedger ledger
  let entries ← records.entries.mapError fun e =>
    authorityUnavailable ("cannot list the purge records: " ++ e)
  checkPurgeRecords records.path head entries
  .ok head

/-- `installAuthorityLedger`: an existing ledger is never overwritten. -/
def installAuthorityLedger (disk : Disk) (head : AuthorityHead) : Except HiveMemoryError Disk :=
  match disk.ledger with
  | some bytes =>
      if bytes = head.bytes then .ok disk
      else .error ⟨"HIVE_MEMORY_RESTORE_LEDGER_EXISTS",
        "the local ledger exists and is never overwritten; restore without --with-ledger"⟩
  | none => .ok { disk with ledger := some head.bytes }

/-! ### The request -/

/-- The file given as a snapshot. -/
inductive Candidate where
  | absent
  /-- It fails `PRAGMA integrity_check`. -/
  | damaged
  | blank
  | store (db : Database)

structure RestoreRequest where
  snapshot : Candidate
  authority : Authority
  withLedger : Bool
  reapplyPurges : Bool
  acknowledgeGap : Option Int
  nowSec : Int

/-! ### The plan -/

/-- What a restore installs and appends. -/
structure Plan where
  db : Database
  staged : List String
  acked : List String
  due : List String

/-- Deletes the events of a purge and their rate entries. -/
def purgeRows (db : Database) (ids : List String) : Database :=
  let deleted := db.deleteEvents ids
  { deleted with rateLog := deleted.rateLog.filter fun entry => !ids.contains entry.eventId }

/-- The purges of the ledger, applied to a snapshot again. A snapshot that then holds every expected
event is brought to the head of the ledger. -/
def reapply (db : Database) (fold : Fold) (missing : JsSet String) : Database :=
  let purged := { purgeRows db fold.purged.items with lastPurgeSeq := fold.lastPurgeSeq }
  if missing.size = 0 then
    { purged with
      writeSeq := fold.maxSeq
      pendingLedger := fold.lastRaw.getD "" }
  else purged

/-- The snapshot as the rest of the restore sees it. -/
def broughtUp (reapplyPurges : Bool) (db : Database) (fold : Fold) : Database :=
  if reapplyPurges then reapply db fold (fold.expected.difference db.events.ids) else db

/-- The lines a restore stages after the head of the ledger: the acknowledged gap, and the rows past
retention. -/
def restoreLines (fold : Fold) (acked due : List String) (nowSec : Int) : List String :=
  let storeId := fold.storeId.getD ""
  let ack := if acked.isEmpty then [] else
    [ledgerLine (fold.maxSeq + 1) storeId (.restoreGapAck acked) nowSec]
  ack ++ if due.isEmpty then [] else
    [ledgerLine (fold.maxSeq + ack.length + 1) storeId (.purge due "retention") nowSec]

/-- The database with these lines staged. -/
def stageRestore (db : Database) (fold : Fold) (acked due : List String) (nowSec : Int) : Database :=
  let staged := restoreLines fold acked due nowSec
  if staged.isEmpty then db
  else
    { purgeRows db due with
      writeSeq := fold.maxSeq + staged.length
      pendingLedger := "\n".intercalate staged
      lastPurgeSeq := if due.isEmpty then fold.lastPurgeSeq else fold.maxSeq + staged.length }

/-- The submit lines of missing events, and the missing events that no submit line names. -/
def gapReport (lines : List Line) (missing : JsSet String) : Json :=
  let submits := lines.filter fun line => line.record.op = .submit && line.record.ids.all missing.has
  let report := submits.map fun line =>
    let rec' := (Json.parse line.raw.toList).getD .null
    Json.obj (["seq", "id", "pubkey", "d", "scope", "status", "at"].filterMap fun key =>
      (rec'.get key).map (key, ·))
  let reported := submits.flatMap fun line => line.record.ids
  .arr (report ++ (missing.items.filter fun id => !reported.contains id).map fun id =>
    .obj [("id", .str id)])

def idList (ids : List String) : String := "[" ++ ", ".intercalate (ids.map idPrefix) ++ "]"

section Restore

variable (host : Host)

def checkRows (config : Config) : List Row → Except HiveMemoryError Unit
  | [] => .ok ()
  | row :: rows =>
      match checkEvent host row.raw config with
      | .error invalid => .error ⟨"HIVE_MEMORY_RESTORE_INVALID_EVENT",
          "event " ++ idPrefix row.id ++ ": " ++ invalid.reason⟩
      | .ok v =>
          if v.ev.id = row.id then checkRows config rows
          else .error ⟨"HIVE_MEMORY_RESTORE_INVALID_EVENT",
            "event " ++ idPrefix row.id ++ ": stored under the wrong id"⟩

/-- The refusal of a snapshot that does not belong to the ledger. -/
def mismatch (withLedger : Bool) (code message : String) : HiveMemoryError :=
  ⟨if withLedger then "HIVE_MEMORY_RESTORE_AUTHORITY_MISMATCH" else code, message⟩

def prePurgeSnapshot (message : String) : HiveMemoryError :=
  ⟨"HIVE_MEMORY_RESTORE_PRE_PURGE_SNAPSHOT", message⟩

/-- The checks of a restore against the ledger, and what it installs. -/
def restorePlan (config : Config) (req : RestoreRequest) (head : AuthorityHead) (lines : List Line)
    (db : Database) : Except HiveMemoryError Plan := do
  ensure (!lines.isEmpty) ⟨"HIVE_MEMORY_RESTORE_LEDGER_MISSING", "the ledger is missing or empty"⟩
  ensure ((head.lines.map Line.raw).isPrefixOf (lines.map Line.raw))
    ⟨"HIVE_MEMORY_RESTORE_AUTHORITY_STALE", "the local ledger (" ++ toString lines.length ++
      ") is behind or diverges from the newest verified backup (" ++ toString head.lines.length ++ ")"⟩
  let fold := foldLedger lines
  ensure (some db.storeId = fold.storeId)
    (mismatch req.withLedger "HIVE_MEMORY_RESTORE_STORE_ID_MISMATCH"
      "snapshot store_id does not match the ledger")
  ensure (db.writeSeq ≤ fold.maxSeq)
    (mismatch req.withLedger "HIVE_MEMORY_RESTORE_SNAPSHOT_AHEAD" ("snapshot write_seq " ++
      toString db.writeSeq ++ " is ahead of the ledger (" ++ toString fold.maxSeq ++ ")"))
  checkRows host config db.events.rows
  let extra := db.events.ids.difference fold.expected
  let unknown := extra.items.filter fun id => !fold.purged.has id
  ensure unknown.isEmpty ⟨"HIVE_MEMORY_RESTORE_UNKNOWN_EVENT", "snapshot contains " ++
    toString unknown.length ++ " unrecorded events: " ++ idList unknown⟩
  let missing := fold.expected.difference db.events.ids
  ensure (extra.size = 0 || req.reapplyPurges) (prePurgeSnapshot ("snapshot contains " ++
    toString extra.size ++ " purged events: " ++ idList extra.items))
  ensure (!(extra.size = 0 && missing.size = 0 && decide (db.writeSeq < fold.maxSeq) &&
      !req.reapplyPurges)) (prePurgeSnapshot ("snapshot write_seq " ++ toString db.writeSeq ++
    " is behind the ledger (" ++ toString fold.maxSeq ++
      ") with no missing writes; rerun with --reapply-purges"))
  let db := broughtUp req.reapplyPurges db fold
  ensure (!req.reapplyPurges || (db.events.ids.difference fold.expected).size = 0)
    ⟨"HIVE_MEMORY_RESTORE_UNKNOWN_EVENT",
      "events beyond the ledger remain after reapplying purges"⟩
  let missing := fold.expected.difference db.events.ids
  ensure (missing.size = 0 || req.acknowledgeGap = some (Int.ofNat fold.maxSeq))
    ⟨"HIVE_MEMORY_RESTORE_GAP_DETECTED", "missing " ++ toString missing.size ++
      " accepted writes: " ++ Json.stringify (gapReport lines missing)⟩
  let acked := sortIds missing.items
  -- a purge whose backup never landed is in no ledger a restore can see; its rows are still due
  let due := sortIds (retentionDue db req.nowSec)
  ensure (due.isEmpty || req.reapplyPurges) (prePurgeSnapshot ("snapshot holds " ++
    toString due.length ++ " events past the 90-day retention window: " ++ idList due ++
      "; rerun with --reapply-purges"))
  let staged := restoreLines fold acked due req.nowSec
  let db := stageRestore db fold acked due req.nowSec
  ensure (db.writeSeq = fold.maxSeq + staged.length) ⟨"HIVE_MEMORY_RESTORE_GAP_DETECTED",
    "snapshot write_seq " ++ toString db.writeSeq ++ " does not match the ledger (" ++
      toString fold.maxSeq ++ ")"⟩
  .ok ⟨db, staged, acked, due⟩

/-! ### On the disk -/

/-- Where a restore is interrupted. The work copy is removed by the next attempt. -/
inductive RestoreFault where
  | none
  | beforeLedger
  /-- The plan is committed in the work copy. -/
  | beforeRemoval
  /-- The log of the live database is removed, its main file not yet replaced. -/
  | beforeRename
  | afterRename
  | inAppend (written : Nat)
  | appendFails (written : Nat)
  deriving DecidableEq, Repr

structure Restored where
  writeSeq : Nat
  reappliedPurges : Bool
  acknowledgedGap : List String
  retentionPurged : List String

/-- The disk a restore leaves, and its answer if it lived to give one. -/
structure AfterRestore where
  disk : Disk
  answer : Option (Except HiveMemoryError Restored)

/-- Replaces the live database, and appends the staged lines. -/
def install (disk : Disk) (req : RestoreRequest) (plan : Plan) (fault : RestoreFault) : AfterRestore :=
  let restored : Restored := ⟨plan.db.writeSeq, req.reapplyPurges, plan.acked, plan.due⟩
  let removed := { disk with wal := none }
  let renamed := { removed with main := .store plan.db }
  let append (fault : Fault) : AfterRestore :=
    if plan.staged.isEmpty then ⟨renamed, some (.ok restored)⟩
    else
      match appendLedgerLine renamed ("\n".intercalate plan.staged) fault with
      | (disk, .crashed) => ⟨disk, none⟩
      | (disk, .failed) => ⟨disk, some (.error ⟨"EIO", ""⟩)⟩
      | (disk, .written) => ⟨disk, some (.ok restored)⟩
  match fault with
  | .beforeLedger | .beforeRemoval => ⟨disk, none⟩
  | .beforeRename => ⟨removed, none⟩
  | .afterRename => ⟨renamed, none⟩
  | .inAppend written => append (.inAppend written)
  | .appendFails written => append (.appendFails written)
  | .none => append .none

/-- The restore from a candidate, once the ledger is in place. -/
def restoreFrom (disk : Disk) (config : Config) (req : RestoreRequest) (head : AuthorityHead)
    (fault : RestoreFault) : AfterRestore :=
  match req.snapshot with
  | .absent => ⟨disk, some (.error ⟨"ENOENT", ""⟩)⟩
  | .damaged => ⟨disk, some (.error
      ⟨"HIVE_MEMORY_RESTORE_INTEGRITY", "snapshot fails PRAGMA integrity_check"⟩)⟩
  | .blank => ⟨disk, some (.error ⟨"HIVE_MEMORY_RESTORE_INTEGRITY", "snapshot has no store_meta"⟩)⟩
  | .store db =>
      match readLedger disk.ledger with
      | .error e => ⟨disk, some (.error e)⟩
      | .ok read =>
          let disk := disk.repair read
          match restorePlan host config req head read.lines db with
          | .error e => ⟨disk, some (.error e)⟩
          | .ok plan => install disk req plan fault

def restoreSnapshot (disk : Disk) (config : Config) (req : RestoreRequest) (fault : RestoreFault) :
    AfterRestore :=
  match loadRestoreAuthority req.authority with
  | .error e => ⟨disk, some (.error e)⟩
  | .ok head =>
      if fault = .beforeLedger then ⟨disk, none⟩
      else
        match if req.withLedger then installAuthorityLedger disk head else .ok disk with
        | .error e => ⟨disk, some (.error e)⟩
        | .ok disk => restoreFrom host disk config req head fault

/-! ### What a plan has passed -/

theorem checkRows_eq_ok {config : Config} {rows : List Row} {answer : Unit} :
    checkRows host config rows = .ok answer ↔
      ∀ row ∈ rows, ∃ v, checkEvent host row.raw config = .ok v ∧ v.ev.id = row.id := by
  induction rows with
  | nil => simp [checkRows]
  | cons row rows ih =>
      rw [checkRows, List.forall_mem_cons]
      cases checked : checkEvent host row.raw config with
      | error invalid => exact ⟨nofun, fun ⟨⟨v, other, _⟩, _⟩ => nomatch other⟩
      | ok v =>
          dsimp only
          split_ifs with same
          · rw [ih]
            exact ⟨fun rest => ⟨⟨v, rfl, same⟩, rest⟩, fun both => both.2⟩
          · refine ⟨nofun, fun ⟨⟨v', same', own⟩, _⟩ => absurd own ?_⟩
            obtain rfl := Except.ok.inj same'
            exact same

/-- What a restore that installs its plan has passed, and the plan. -/
structure Planned (config : Config) (req : RestoreRequest) (head : AuthorityHead) (lines : List Line)
    (db : Database) (plan : Plan) : Prop where
  nonempty : lines ≠ []
  authority : head.lines.map Line.raw <+: lines.map Line.raw
  storeId : some db.storeId = (foldLedger lines).storeId
  behind : db.writeSeq ≤ (foldLedger lines).maxSeq
  rows : ∀ row ∈ db.events.rows, ∃ v, checkEvent host row.raw config = .ok v ∧ v.ev.id = row.id
  known : ∀ id ∈ db.events.ids.toFinset,
    id ∈ (foldLedger lines).expected.toFinset ∨ id ∈ (foldLedger lines).purged.toFinset
  /-- Without a second application of the purges the snapshot holds no purged event. -/
  unpurged : req.reapplyPurges = false →
    db.events.ids.toFinset ⊆ (foldLedger lines).expected.toFinset
  expected : (broughtUp req.reapplyPurges db (foldLedger lines)).events.ids.toFinset ⊆
    (foldLedger lines).expected.toFinset
  gap : plan.acked ≠ [] → req.acknowledgeGap = some (Int.ofNat (foldLedger lines).maxSeq)
  acked : plan.acked = sortIds ((foldLedger lines).expected.difference
    (broughtUp req.reapplyPurges db (foldLedger lines)).events.ids).items
  due : plan.due = sortIds (retentionDue (broughtUp req.reapplyPurges db (foldLedger lines)) req.nowSec)
  retained : req.reapplyPurges = false → plan.due = []
  staged : plan.staged = restoreLines (foldLedger lines) plan.acked plan.due req.nowSec
  installed : plan.db = stageRestore (broughtUp req.reapplyPurges db (foldLedger lines))
    (foldLedger lines) plan.acked plan.due req.nowSec
  writeSeq : plan.db.writeSeq = (foldLedger lines).maxSeq + plan.staged.length

theorem sortIds_eq_nil {ids : List String} : sortIds ids = [] ↔ ids = [] := by
  rw [← List.length_eq_zero_iff, ← List.length_eq_zero_iff, sortIds, List.length_insertionSort]

theorem planned_of_ok {config : Config} {req : RestoreRequest} {head : AuthorityHead}
    {lines : List Line} {db : Database} {plan : Plan}
    (ok : restorePlan host config req head lines db = .ok plan) :
    Planned host config req head lines db plan := by
  unfold restorePlan at ok
  simp only [bind_eq_ok, ensure_eq_ok, exists_const, checkRows_eq_ok] at ok
  obtain ⟨nonempty, authority, storeId, behind, rows, unknown, extra, -, expected, gap, retained,
    writeSeq, built⟩ := ok
  generalize brought : broughtUp req.reapplyPurges db (foldLedger lines) = base at *
  obtain rfl := Except.ok.inj built
  have none : ∀ {set : JsSet String}, set.size = 0 ↔ set.items = [] := List.length_eq_zero_iff
  have noExtra : req.reapplyPurges = false →
      db.events.ids.toFinset ⊆ (foldLedger lines).expected.toFinset := by
    intro plain
    rw [plain, Bool.or_false, decide_eq_true_eq, JsSet.size_eq_zero, JsSet.toFinset_difference] at extra
    exact Finset.sdiff_eq_empty_iff_subset.mp extra
  have onlyExpected : base.events.ids.toFinset ⊆ (foldLedger lines).expected.toFinset := by
    cases again : req.reapplyPurges with
    | false =>
        rw [again, broughtUp, if_neg Bool.false_ne_true] at brought
        rw [← brought]
        exact noExtra again
    | true =>
        rw [again, Bool.not_true, Bool.false_or, decide_eq_true_eq, JsSet.size_eq_zero,
          JsSet.toFinset_difference] at expected
        exact Finset.sdiff_eq_empty_iff_subset.mp expected
  refine ⟨by simpa using nonempty, List.isPrefixOf_iff_prefix.mp authority,
    of_decide_eq_true storeId, of_decide_eq_true behind, rows, ?_, noExtra, brought ▸ onlyExpected, ?_,
    by rw [brought], by rw [brought], ?_, rfl, by rw [brought], of_decide_eq_true writeSeq⟩
  · intro id stored
    by_cases wanted : id ∈ (foldLedger lines).expected.toFinset
    · exact Or.inl wanted
    · have member : id ∈ (db.events.ids.difference (foldLedger lines).expected).items := by
        rw [← JsSet.mem_toFinset, JsSet.toFinset_difference]
        exact Finset.mem_sdiff.mpr ⟨stored, wanted⟩
      rw [List.isEmpty_iff, List.filter_eq_nil_iff] at unknown
      have known := unknown id member
      rw [Bool.not_eq_true, Bool.not_eq_false', JsSet.has_iff] at known
      exact Or.inr known
  · intro acked
    rw [Bool.or_eq_true, decide_eq_true_eq, decide_eq_true_eq] at gap
    refine gap.resolve_left fun nothing => acked ?_
    exact sortIds_eq_nil.mpr (none.mp nothing)
  · intro plain
    rw [plain, Bool.or_false, List.isEmpty_iff] at retained
    exact retained

/-! ### Runs with snapshots and restores -/

/-- A store and the snapshots taken of it. -/
structure Site where
  world : World
  archive : List Snapshot

def Site.empty : Site := ⟨World.empty, []⟩

inductive Operation where
  | act (action : Action)
  | snapshotStore (nowSec : Int)
  /-- Restores the snapshot with that number, in a process of its own. -/
  | restoreSnapshot (number : Nat) (req : RestoreRequest) (fault : RestoreFault)

variable (config : Config) (requireMigratedIds : List String)

def Site.step (site : Site) : Operation → Site
  | .act action => ⟨Store.step host config requireMigratedIds site.world action, site.archive⟩
  | .snapshotStore nowSec =>
      match Store.snapshotStore site.world.disk.database site.world.disk.ledger nowSec with
      | .ok snapshot => ⟨site.world, site.archive ++ [snapshot]⟩
      | .error _ => site
  | .restoreSnapshot number req fault =>
      match site.world.process, site.archive[number]? with
      | none, some snapshot =>
          let after := Store.restoreSnapshot host site.world.disk config
            { req with snapshot := .store snapshot.db } fault
          ⟨⟨after.disk, none⟩, site.archive⟩
      | _, _ => site

def Site.run (site : Site) (operations : List Operation) : Site :=
  operations.foldl (Site.step host config requireMigratedIds) site

end Restore

end Nvoy.Store
