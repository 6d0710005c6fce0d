/-
The writes of the memory store: genesis, submit and purge.

Every write commits in three phases: the database first, with the exact ledger line staged in it,
then the append of that line to the ledger, then the answer (`publish`).

* `genesis`, `initEmptyStore`, `migrateStoreJson` — the write that creates a store;
* `submit` — the checks of a request (`submitChecks`), its transaction (`submitTx`), its phases;
* `purgeRetention`, `hardDelete` — both go through `purge`;
* `lookupPrior` — the read a writer makes before it submits.
-/

import Mathlib.Data.List.Sort
import Nvoy.Store.Reconcile

namespace Nvoy.Store

open Memory

/-- What an operation leaves: the disk, the store object (`none` when its process died) and the
answer (`none` when there was nobody to give it). -/
structure After (α : Type) where
  disk : Disk
  store : Option HiveMemoryStore
  answer : Option α

/-! ### Three phases -/

inductive Published where
  | done
  | failed
  deriving DecidableEq, Repr

/-- Commits a staged database and appends its line. -/
def publish (disk : Disk) (store : HiveMemoryStore) (db : Database) (fault : Fault) :
    After Published :=
  match fault with
  | .beforeCommit => ⟨disk, none, none⟩
  | .afterCommit => ⟨disk.commit db, none, none⟩
  | fault =>
      match appendLedgerLine (disk.commit db) db.pendingLedger fault with
      | (disk, .crashed) => ⟨disk, none, none⟩
      | (disk, .failed) => ⟨disk, some (store.fail .ledgerIoError (some "EIO")), some .failed⟩
      | (disk, .written) => ⟨disk, some { store with ledgerMaxSeq := db.writeSeq }, some .done⟩

/-! ### Genesis -/

section Genesis

variable (host : Host)

/-- The event that is the head of each key: one pass in the order of the list. -/
def headsOf (events : List Checked) : JsMap (String × String) Checked :=
  events.foldl (fun heads e =>
    if nip01Newer e.version ((heads.get e.key).map Checked.version) then heads.set e.key e
    else heads) .empty

/-- `[...ids].sort()` -/
def sortIds (ids : List String) : List String := ids.insertionSort (· ≤ ·)

/-- The database of a genesis, before its line is staged. -/
def genesisDatabase (storeId : String) (events : List Checked) (nowSec : Int) : Option Database :=
  let heads := headsOf events
  events.foldlM (fun db e =>
    db.insertEvent e (((heads.get e.key).map fun head => head.ev.id) = some e.ev.id) nowSec)
    ⟨storeId, 0, "", 0, .empty, [], []⟩

structure Genesis where
  storeId : String
  writeSeq : Nat
  eventIds : List String

def genesisPayload : Option (List Checked) → Payload
  | none => .init
  | some events => .cutover (sortIds (events.map fun e => e.ev.id))

/-- `genesis`: an empty store, or one that holds the given events. -/
def genesis (disk : Disk) (storeId : String) (events : Option (List Checked)) (nowSec : Int)
    (fault : Fault) : After (Except HiveMemoryError Genesis) :=
  let refused message : After (Except HiveMemoryError Genesis) :=
    ⟨disk, none, some (.error ⟨"HIVE_MEMORY_GENESIS_REFUSED", message⟩)⟩
  if disk.database.isSome then
    refused "the database already exists; genesis never overwrites a store"
  else if disk.ledger.any (!·.isEmpty) then
    refused "the ledger already has records; genesis never overwrites a ledger"
  else
    let payload := genesisPayload events
    match genesisDatabase storeId (events.getD []) nowSec with
    | none => ⟨{ disk with main := .blank }, none, some (.error ⟨"SQLITE_CONSTRAINT", ""⟩)⟩
    | some db =>
        let db := db.stage payload nowSec
        match fault with
        | .beforeCommit => ⟨{ disk with main := .blank }, none, none⟩
        | .afterCommit => ⟨({ disk with main := .blank } : Disk).commit db, none, none⟩
        | fault =>
            let disk := (({ disk with main := .blank } : Disk).commit db).checkpoint
            match appendLedgerLine disk db.pendingLedger fault with
            | (disk, .crashed) => ⟨disk, none, none⟩
            | (disk, .failed) => ⟨disk, none, some (.error ⟨"EIO", ""⟩)⟩
            | (disk, .written) => ⟨disk, none, some (.ok ⟨storeId, 1, payload.ids⟩)⟩

def initEmptyStore (disk : Disk) (storeId : String) (nowSec : Int) (fault : Fault) :
    After (Except HiveMemoryError Genesis) :=
  genesis disk storeId none nowSec fault

def migrationRefused (message : String) : HiveMemoryError :=
  ⟨"HIVE_MEMORY_MIGRATION_REFUSED", message⟩

/-- The checks on the entries of a `store.json`, one after the other. -/
def checkEntries (config : Config) : Nat → List String → List Event →
    Except HiveMemoryError (List Checked)
  | _, _, [] => .ok []
  | i, seen, event :: events =>
      match checkEvent host event config with
      | .error invalid =>
          .error (migrationRefused ("entry " ++ toString i ++ ": " ++ invalid.reason))
      | .ok v =>
          if seen.contains v.ev.id then
            .error (migrationRefused
              ("entry " ++ toString i ++ ": duplicate event " ++ idPrefix v.ev.id))
          else
            match (parseFactKey v.d).bind (writeRefusal config none v.pubkey) with
            | some denied => .error (migrationRefused
                ("entry " ++ toString i ++ " (" ++ idPrefix v.ev.id ++ "): " ++ denied))
            | none => do
                let rest ← checkEntries config (i + 1) (v.ev.id :: seen) events
                .ok (v :: rest)

/-- Imports the events of a pre-cutover `store.json`. -/
def migrateStoreJson (disk : Disk) (config : Config) (requireMigratedIds : List String)
    (entries : List Event) (storeId : String) (nowSec : Int) (fault : Fault) :
    After (Except HiveMemoryError Genesis) :=
  match checkEntries host config 0 [] entries with
  | .error e => ⟨disk, none, some (.error e)⟩
  | .ok events =>
      let absent := requireMigratedIds.filter fun id => !(events.map fun e => e.ev.id).contains id
      if absent ≠ [] then
        ⟨disk, none, some (.error (migrationRefused
          ("required event ids are absent from store.json: " ++
            ", ".intercalate (absent.map idPrefix))))⟩
      else genesis disk storeId (some events) nowSec fault

end Genesis

/-! ### Fences -/

def RECEIPT_SKEW_SEC : Int := 300

/-- Why writes stay fenced after a purge: no verified backup covers it. -/
def purgeBackupIncomplete (lastPurgeSeq : Nat) (receipt : Option Receipt) : Option String :=
  if lastPurgeSeq = 0 || receipt.any (lastPurgeSeq ≤ ·.writeSeq) then none
  else some ("local SQLite and ledger purged at write_seq " ++ toString lastPurgeSeq ++
    ", but off-host B2 backup failed; writers remain FENCED and full-host loss before a verified " ++
    "backup would lack the purge in B2")

/-- `backupFence`: the stale-backup admission gate. -/
def backupFence (config : Config) (db : Database) (receipt : Option Receipt) (nowSec : Int) :
    Option String :=
  match receipt with
  | none => some "no verified backup receipt"
  | some receipt =>
      if db.writeSeq < receipt.writeSeq then some "backup receipt is ahead of the store"
      else if nowSec + RECEIPT_SKEW_SEC < receipt.recordedAt then
        some "backup receipt is from the future"
      else if config.maxUnbackedSec < nowSec - receipt.recordedAt then
        some ("last verified backup is " ++ toString (nowSec - receipt.recordedAt) ++ "s old (max " ++
          toString config.maxUnbackedSec ++ "s)")
      else none

/-! ### Submit -/

structure SubmitRequest where
  writer : String
  event : Event
  expectedPriorId : Option String
  nowSec : Int

inductive SubmitAnswer where
  | accepted (id : String) (status : Status) (replay : Bool)
  | refused (refusal : Refusal)
  deriving DecidableEq, Repr

def notReady (store : HiveMemoryStore) : Refusal :=
  ⟨"HIVE_MEMORY_STORE_NOT_READY", "store not ready: " ++ store.state.text⟩

/-- What the transaction of a submit works on. -/
structure Admitted where
  db : Database
  writer : Writer
  v : Checked

section Submit

variable (host : Host)

/-- The checks of a submit before its transaction, in the order they are made. -/
def submitChecks (disk : Disk) (store : HiveMemoryStore) (req : SubmitRequest) :
    Except Refusal Admitted := do
  ensure (store.state = .ready) (notReady store)
  -- a ready store has a configuration and an open database
  let config ← require store.config (notReady store)
  let db ← require disk.database (notReady store)
  objection (purgeBackupIncomplete db.lastPurgeSeq disk.receipt) fun unbacked =>
    (⟨"HIVE_MEMORY_PURGE_BACKUP_INCOMPLETE", unbacked⟩ : Refusal)
  objection (backupFence config db disk.receipt req.nowSec) fun stale =>
    ⟨"HIVE_MEMORY_BACKUP_STALE_WRITES_FENCED", stale⟩
  let writer ← require ((config.writers.get req.writer).filter (req.event.pubkey = ·.pubkey))
    ⟨"HIVE_MEMORY_WRITER_MISMATCH", "event.pubkey is not the key bound to this writer socket"⟩
  let parsed ← require ((req.event.tagValue "d").bind parseFactKey)
    ⟨"HIVE_MEMORY_INVALID_EVENT", "missing or malformed d tag"⟩
  objection (writeRefusal config (some writer) writer.pubkey parsed) fun denied =>
    ⟨"HIVE_MEMORY_SCOPE_NOT_AUTHORIZED", denied⟩
  let v ← (checkEvent host req.event config).mapError fun invalid =>
    ⟨"HIVE_MEMORY_INVALID_EVENT", invalid.reason⟩
  let _ ← memoryWritePolicy v.toValid
  ensure (req.expectedPriorId.all isHex64)
    ⟨"HIVE_MEMORY_PRIOR_MISMATCH", "expected_prior_id must be a 64-hex event id or null"⟩
  ensure (!store.purgedIds.has v.ev.id)
    ⟨"HIVE_MEMORY_PURGED_EVENT", "this event was purged and is never stored again"⟩
  .ok ⟨db, writer, v⟩

/-- How the transaction of a submit ends. -/
inductive SubmitTx where
  | replay (id : String) (status : Status)
  | refused (refusal : Refusal)
  | failed
  | staged (db : Database)

/-- Accepted writes of a key in the last hour. -/
def rateCount (db : Database) (pubkey : String) (nowSec : Int) : Nat :=
  (db.rateLog.filter fun entry => entry.pubkey = pubkey && nowSec - 3600 < entry.acceptedAt).length

/-- The statements of an accepted submit: `none` when a constraint refuses one. -/
def acceptSubmit (db : Database) (v : Checked) (current : Option Row) (nowSec : Int) :
    Option Database := do
  let demoted : Database := match current with
    | some row => { db with events := db.events.demote row.id }
    | none => db
  let inserted ← demoted.insertEvent v true nowSec
  if inserted.rateLog.any (·.eventId = v.ev.id) then none
  else
    let logged : Database :=
      { inserted with rateLog := inserted.rateLog ++ [⟨v.ev.id, v.pubkey, nowSec⟩] }
    some (logged.stage (.submit v.ev.id v.pubkey v.d v.scope v.status) nowSec)

def submitTx (db : Database) (writer : Writer) (v : Checked) (expectedPriorId : Option String)
    (nowSec : Int) : SubmitTx :=
  match db.events.find v.ev.id with
  | some existing => .replay existing.id existing.status
  | none =>
      let current := db.events.current v.key
      if current.map Row.id ≠ expectedPriorId then
        .refused ⟨"HIVE_MEMORY_PRIOR_MISMATCH", "the current event at this fact key is " ++
          ((current.map fun row => idPrefix row.id).getD "none")⟩
      else if !nip01Newer v.version (current.map Row.version) then
        .refused ⟨"HIVE_MEMORY_NOT_NEWER",
          "the event is not newer than the current event at this fact key"⟩
      else if v.status = .withdrawn && current.all (·.status = .withdrawn) then
        .refused ⟨"HIVE_MEMORY_NOTHING_TO_WITHDRAW",
          "there is no active claim at this fact key to withdraw"⟩
      else if writer.perHour ≤ rateCount db v.pubkey nowSec then
        .refused ⟨"HIVE_MEMORY_RATE_LIMITED", "over the hourly cap (" ++
          toString (rateCount db v.pubkey nowSec) ++ "/" ++ toString writer.perHour ++ ")"⟩
      else
        match acceptSubmit db v current nowSec with
        | some staged => .staged staged
        | none => .failed

def ledgerIoRefusal : Refusal :=
  ⟨"HIVE_MEMORY_LEDGER_IO_ERROR", "the accepted-write ledger could not be appended"⟩

/-- `#flushPendingIfAhead` of a replay, and the answer after it. -/
def answerReplay (disk : Disk) (store : HiveMemoryStore) (db : Database) (id : String)
    (status : Status) (fault : Fault) : After SubmitAnswer :=
  if db.writeSeq = store.ledgerMaxSeq + 1 then
    match appendLedgerLine disk db.pendingLedger fault with
    | (disk, .crashed) => ⟨disk, none, none⟩
    | (disk, .failed) =>
        ⟨disk, some (store.fail .ledgerIoError (some "EIO")), some (.refused ledgerIoRefusal)⟩
    | (disk, .written) =>
        ⟨disk, some { store with ledgerMaxSeq := db.writeSeq }, some (.accepted id status true)⟩
  else if db.writeSeq = store.ledgerMaxSeq then
    ⟨disk, some store, some (.accepted id status true)⟩
  else ⟨disk, some store, some (.refused ledgerIoRefusal)⟩

def submit (disk : Disk) (store : HiveMemoryStore) (req : SubmitRequest) (fault : Fault) :
    After SubmitAnswer :=
  match submitChecks host disk store req with
  | .error refusal => ⟨disk, some store, some (.refused refusal)⟩
  | .ok ⟨db, writer, v⟩ =>
      match submitTx db writer v req.expectedPriorId req.nowSec with
      | .replay id status => answerReplay disk store db id status fault
      | .refused refusal => ⟨disk, some store, some (.refused refusal)⟩
      | .failed => ⟨disk, some store,
          some (.refused ⟨"HIVE_MEMORY_STORE_NOT_READY", "the SQLite transaction failed"⟩)⟩
      | .staged staged =>
          let after := publish disk store staged fault
          ⟨after.disk, after.store, after.answer.map fun
            | .done => .accepted v.ev.id v.status false
            | .failed => .refused ledgerIoRefusal⟩

end Submit

/-! ### Looking up the prior event -/

inductive LookupAnswer where
  | found (row : Row)
  | nothing
  | refused (refusal : Refusal)

def lookupPrior (disk : Disk) (store : HiveMemoryStore) (writerName d : String) : LookupAnswer :=
  match store.state, store.config, disk.database with
  | .ready, some config, some db =>
      match config.writers.get writerName with
      | none => .refused ⟨"HIVE_MEMORY_WRITER_MISMATCH",
          "this socket is not bound to a configured writer"⟩
      | some writer =>
          match parseFactKey d with
          | none => .refused ⟨"HIVE_MEMORY_INVALID_EVENT", "d is not a Hive memory fact key"⟩
          | some parsed =>
              match writeRefusal config (some writer) writer.pubkey parsed with
              | some denied => .refused ⟨"HIVE_MEMORY_SCOPE_NOT_AUTHORIZED", denied⟩
              | none =>
                  match db.events.current (writer.pubkey, parsed.d) with
                  | some row => .found row
                  | none => .nothing
  | _, _, _ => .refused (notReady store)

/-! ### Purge -/

structure Purged where
  purged : List String
  seq : Option Nat

/-- The statements of a purge. -/
def purgeTx (db : Database) (ids : List String) (reason : String) (nowSec : Int) : Database :=
  let deleted := db.deleteEvents ids
  let pruned := { deleted with
    rateLog := deleted.rateLog.filter fun entry =>
      !(ids.contains entry.eventId || entry.acceptedAt < nowSec - 86400) }
  let staged := pruned.stage (.purge (sortIds ids) reason) nowSec
  { staged with lastPurgeSeq := staged.writeSeq }

def notReadyError (store : HiveMemoryStore) : HiveMemoryError :=
  ⟨(notReady store).code, (notReady store).message⟩

/-- `#purge`: retention and hard deletes both go through here. -/
def purge (disk : Disk) (store : HiveMemoryStore) (db : Database) (ids : List String)
    (reason : String) (nowSec : Int) (fault : Fault) : After (Except HiveMemoryError Purged) :=
  if ids.isEmpty then ⟨disk, some store, some (.ok ⟨[], none⟩)⟩
  else
    let staged := purgeTx db ids reason nowSec
    match publish disk store staged fault with
    | ⟨disk, some store, some .done⟩ =>
        ⟨disk.checkpoint, some { store with purgedIds := ids.foldl .add store.purgedIds },
          some (.ok ⟨ids, some staged.writeSeq⟩)⟩
    | ⟨disk, store, some .failed⟩ =>
        ⟨disk, store, some (.error ⟨ledgerIoRefusal.code, ledgerIoRefusal.message⟩)⟩
    | ⟨disk, store, _⟩ => ⟨disk, store, none⟩

/-- What a hard delete names. -/
inductive DeleteTarget where
  | byKey (d : String)
  | byId (id : String)
  deriving DecidableEq, Repr

def DeleteTarget.ids (target : DeleteTarget) (rows : List Row) : List String :=
  match target with
  | byKey d => (rows.filter (·.d = d)).map Row.id
  | byId id => (rows.filter (·.id = id)).map Row.id

def purgeRetention (disk : Disk) (store : HiveMemoryStore) (nowSec : Int) (fault : Fault) :
    After (Except HiveMemoryError Purged) :=
  match store.state, disk.database with
  | .ready, some db => purge disk store db (retentionDue db nowSec) "retention" nowSec fault
  | _, _ => ⟨disk, some store, some (.error (notReadyError store))⟩

def hardDelete (disk : Disk) (store : HiveMemoryStore) (target : DeleteTarget) (nowSec : Int)
    (fault : Fault) : After (Except HiveMemoryError Purged) :=
  match store.state, disk.database with
  | .ready, some db =>
      let ids := target.ids db.events.rows
      if ids.isEmpty then
        ⟨disk, some store, some (.error ⟨"HIVE_MEMORY_PURGE_NO_MATCH", "no stored event matches"⟩)⟩
      else purge disk store db ids "hard-delete" nowSec fault
  | _, _ => ⟨disk, some store, some (.error (notReadyError store))⟩

end Nvoy.Store
