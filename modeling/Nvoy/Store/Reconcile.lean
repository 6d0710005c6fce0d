/-
The store on disk, the store object, and how the two are brought to agree at a start.

* `Disk` — the database file with its write-ahead log, the ledger and the backup receipt. What the
  database holds is what was last committed (`Disk.database`), whether or not the main file has it.
* `Fault` — where an operation is interrupted: a crash before or after the commit, a crash inside
  the append of the ledger line, or an append that fails, each after any number of bytes.
* `reconcile` — the check a start makes, with its two repairs: the torn tail of the ledger, and the
  staged lines the ledger does not have yet.
-/

import Nvoy.Store.Database

namespace Nvoy.Store

open Memory

/-! ### The disk -/

/-- The main database file: a file may exist and hold no table yet. -/
inductive DbFile where
  | absent
  | blank
  | store (db : Database)

def DbFile.database : DbFile → Option Database
  | store db => some db
  | _ => none

/-- A verified backup receipt; `readReceiptFile` answers with no other. -/
structure Receipt where
  recordedAt : Int
  writeSeq : Nat
  snapshotId : String
  recordedAt_pos : 0 < recordedAt
  writeSeq_pos : 1 ≤ writeSeq
  isHex64_snapshotId : isHex64 snapshotId = true

structure Disk where
  main : DbFile
  /-- What was committed since the main file was last brought up to date, when anything was. -/
  wal : Option Database
  ledger : Option (List UInt8)
  receipt : Option Receipt

namespace Disk

/-- What the database holds: the main file together with its log. -/
def database (disk : Disk) : Option Database := disk.wal <|> disk.main.database

/-- `COMMIT` -/
def commit (disk : Disk) (db : Database) : Disk := { disk with wal := some db }

/-- `PRAGMA wal_checkpoint(TRUNCATE)`, which closing the database does too. -/
def checkpoint (disk : Disk) : Disk :=
  match disk.wal with
  | some db => { disk with main := .store db, wal := none }
  | none => disk

/-- Cuts the torn tail off the ledger, if it has one. -/
def repair (disk : Disk) (read : LedgerRead) : Disk :=
  if read.truncated then { disk with ledger := some read.kept } else disk

end Disk

/-! ### Faults -/

/-- Where an operation is interrupted. The appends count the bytes that reach the file. -/
inductive Fault where
  | none
  | beforeCommit
  | afterCommit
  | inAppend (written : Nat)
  | appendFails (written : Nat)
  deriving DecidableEq, Repr

inductive Appended where
  | written
  | failed
  | crashed
  deriving DecidableEq, Repr

/-- `appendLedgerLine`: what it leaves of the file, and how it ends. -/
def appendLedgerLine (disk : Disk) (line : String) (fault : Fault) : Disk × Appended :=
  let grown (bytes : List UInt8) : Disk :=
    { disk with ledger := some (disk.ledger.getD [] ++ bytes) }
  match fault with
  | .inAppend written => (grown ((appendBytes line).take written), .crashed)
  | .appendFails written => (grown ((appendBytes line).take written), .failed)
  | _ => (grown (appendBytes line), .written)

/-! ### The store object -/

inductive State where
  | ready
  | dbMissingOrUninitialized
  | configInvalid
  | ledgerIoError
  | ledgerCorrupt
  | ledgerMissingForEstablishedStore
  | genesisReplayInvalid
  | storeIdMismatch
  | dbHasUnexpectedOrPurgedEvents
  | dbAheadOfLedger
  | dbBehindLedger
  | purgeSeqMismatch
  deriving DecidableEq, Repr

def State.text : State → String
  | .ready => "READY"
  | .dbMissingOrUninitialized => "DB_MISSING_OR_UNINITIALIZED"
  | .configInvalid => "CONFIG_INVALID"
  | .ledgerIoError => "LEDGER_IO_ERROR"
  | .ledgerCorrupt => "LEDGER_CORRUPT"
  | .ledgerMissingForEstablishedStore => "LEDGER_MISSING_FOR_ESTABLISHED_STORE"
  | .genesisReplayInvalid => "GENESIS_REPLAY_INVALID"
  | .storeIdMismatch => "STORE_ID_MISMATCH"
  | .dbHasUnexpectedOrPurgedEvents => "DB_HAS_UNEXPECTED_OR_PURGED_EVENTS"
  | .dbAheadOfLedger => "DB_AHEAD_OF_LEDGER"
  | .dbBehindLedger => "DB_BEHIND_LEDGER"
  | .purgeSeqMismatch => "PURGE_SEQ_MISMATCH"

structure HiveMemoryStore where
  config : Option Config
  configError : Option String
  requireMigratedIds : List String
  state : State
  detail : Option String
  ledgerMaxSeq : Nat
  purgedIds : JsSet String

namespace HiveMemoryStore

/-- `new HiveMemoryStore` -/
def create (config : Option Config) (requireMigratedIds : List String) : HiveMemoryStore :=
  ⟨config, none, requireMigratedIds, .dbMissingOrUninitialized, none, 0, .empty⟩

/-- `#fail` -/
def fail (store : HiveMemoryStore) (state : State) (detail : Option String) : HiveMemoryStore :=
  { store with state, detail }

end HiveMemoryStore

/-- The form an event id takes in a message. -/
def idPrefix (id : String) : String := String.ofList (id.toList.take 12) ++ "…"

/-! ### The checks of a start -/

section Reconcile

variable (host : Host)

/-- `#rowsValidError` -/
def rowsValidError (config : Config) (db : Database) (ids : List String) : Option String :=
  ids.findSome? fun id =>
    match db.events.find id with
    | none => some ("event " ++ idPrefix id ++ ": row is missing")
    | some row =>
        match checkEvent host row.raw config with
        | .error invalid => some ("event " ++ idPrefix id ++ ": " ++ invalid.reason)
        | .ok v =>
            if v.ev.id ≠ id then some ("event " ++ idPrefix id ++ " is stored under the wrong id")
            else none

/-- The record of a staged line that is the genesis of this store. -/
def genesisRecord (db : Database) (pending : Json) : Option Record :=
  match ledgerShape pending 0 none with
  | .ok record => if db.writeSeq = 1 ∧ record.storeId = db.storeId then some record else none
  | .error _ => none

/-- `#genesisReplayError`: the staged genesis record, or why it cannot be replayed. -/
def genesisReplay (store : HiveMemoryStore) (config : Config) (db : Database) : Except String Record := do
  let pending ← require (Json.parse db.pendingLedger.toList) "pending_ledger_json is not JSON"
  let record ← require (genesisRecord db pending)
    "pending_ledger_json is not this store's genesis record"
  ensure ((JsSet.ofList record.ids).equal db.events.ids) "genesis event ids do not match the database"
  ensure (record.op ≠ .init || db.events.ids.size = 0) "init genesis with events"
  ensure (record.op ≠ .cutover || store.requireMigratedIds.all db.events.ids.has)
    "a required migrated id is absent"
  match rowsValidError host config db db.events.ids.items with
  | some bad => .error bad
  | none => .ok record

/-- The records of staged lines that continue a ledger of `index` lines. -/
def readPending (index : Nat) (storeId : Option String) : List String → Except String (List Line)
  | [] => .ok []
  | raw :: raws => do
      let json ← require (Json.parse raw.toList) "pending_ledger_json is not JSON"
      match ledgerShape json index storeId with
      | .error _ => .error "pending_ledger_json does not continue the ledger"
      | .ok record => do
          let lines ← readPending (index + 1) (storeId <|> some record.storeId) raws
          .ok (⟨raw, record⟩ :: lines)

/-- `#pendingReplay`: the ledger lines the database is ahead by, or why they cannot be replayed. The
staged lines the ledger already ends with must match it; the rest must continue it. -/
def pendingReplay (config : Config) (db : Database) (fold : Fold) (lines : List Line) :
    Except String (List Line) := do
  let raws := split '\n' db.pendingLedger
  let ahead := db.writeSeq - fold.maxSeq
  ensure (ahead ≤ raws.length)
    ("write_seq " ++ toString db.writeSeq ++ ", ledger " ++ toString fold.maxSeq ++ ", " ++
      toString raws.length ++ " pending line(s)")
  let landed := raws.length - ahead
  ensure ((lines.drop (lines.length - landed)).map Line.raw = raws.take landed)
    "pending lines already in the ledger do not match it"
  let replay ← readPending fold.maxSeq fold.storeId (raws.drop landed)
  let next := (replay.map Line.record).foldl applyLedgerRecord fold
  ensure (next.expected.equal db.events.ids) "pending records do not reproduce the stored event ids"
  ensure (!db.events.ids.items.any next.purged.has) "pending records leave purged events stored"
  let submitted := (replay.filter fun line => line.record.op = .submit).flatMap (·.record.ids)
  match rowsValidError host config db submitted with
  | some bad => .error bad
  | none => .ok replay

/-- The last checks, once the ledger is as far as the database. -/
def compareWithLedger (store : HiveMemoryStore) (db : Database) (fold : Fold) : HiveMemoryStore :=
  let missing := fold.expected.difference db.events.ids
  let extra := db.events.ids.difference fold.expected
  if db.writeSeq < fold.maxSeq then
    store.fail .dbBehindLedger
      (some ("write_seq " ++ toString db.writeSeq ++ ", ledger " ++ toString fold.maxSeq))
  else if missing.size ≠ 0 then
    store.fail .dbBehindLedger (some (toString missing.size ++ " accepted event(s) missing"))
  else if extra.size ≠ 0 then
    store.fail .dbHasUnexpectedOrPurgedEvents
      (some (toString extra.size ++ " unrecorded event(s) present"))
  else if db.lastPurgeSeq ≠ fold.lastPurgeSeq then
    store.fail .purgeSeqMismatch
      (some ("last_purge_seq " ++ toString db.lastPurgeSeq ++ ", ledger " ++
        toString fold.lastPurgeSeq))
  else
    { store with
      ledgerMaxSeq := fold.maxSeq
      purgedIds := fold.purged
      state := .ready
      detail := none }

/-- The part of `reconcile` after the ledger is read and not empty. -/
def reconcileWith (disk : Disk) (store : HiveMemoryStore) (config : Config) (db : Database)
    (lines : List Line) (fault : Fault) : Disk × Option HiveMemoryStore :=
  let fold := foldLedger lines
  let resurrected := db.events.ids.filter fold.purged.has
  if some db.storeId ≠ fold.storeId then (disk, some (store.fail .storeIdMismatch none))
  else if resurrected.size ≠ 0 then
    (disk, some (store.fail .dbHasUnexpectedOrPurgedEvents
      (some (toString resurrected.size ++ " purged event(s) present"))))
  else if fold.maxSeq < db.writeSeq then
    match pendingReplay host config db fold lines with
    | .error why => (disk, some (store.fail .dbAheadOfLedger (some why)))
    | .ok replay =>
        match appendLedgerLine disk ("\n".intercalate (replay.map Line.raw)) fault with
        | (disk, .crashed) => (disk, none)
        | (disk, .failed) => (disk, some (store.fail .ledgerIoError (some "EIO")))
        | (disk, .written) =>
            let fold := (replay.map Line.record).foldl applyLedgerRecord fold
            (disk, some (compareWithLedger store db fold))
  else (disk, some (compareWithLedger store db fold))

/-- The part of `reconcile` for a ledger without a line: only a genesis can be replayed. -/
def reconcileGenesis (disk : Disk) (store : HiveMemoryStore) (config : Config) (db : Database)
    (fault : Fault) : Disk × Option HiveMemoryStore :=
  if 1 < db.writeSeq then
    (disk, some (store.fail .ledgerMissingForEstablishedStore
      (some ("write_seq " ++ toString db.writeSeq))))
  else
    match genesisReplay host store config db with
    | .error bad => (disk, some (store.fail .genesisReplayInvalid (some bad)))
    | .ok record =>
        match appendLedgerLine disk db.pendingLedger fault with
        | (disk, .crashed) => (disk, none)
        | (disk, .failed) => (disk, some (store.fail .ledgerIoError (some "EIO")))
        | (disk, .written) =>
            reconcileWith host disk store config db [⟨db.pendingLedger, record⟩] fault

/-- The store object after its check, `none` when the process died in it. -/
def reconcile (disk : Disk) (store : HiveMemoryStore) (fault : Fault) : Disk × Option HiveMemoryStore :=
  match store.config, disk.main, disk.database with
  | none, _, _ => (disk, some (store.fail .configInvalid store.configError))
  | some _, .absent, _ =>
      (disk, some (store.fail .dbMissingOrUninitialized (some "database is absent")))
  | some _, _, none =>
      (disk, some (store.fail .dbMissingOrUninitialized (some "store_meta is missing")))
  | some config, _, some db =>
      match readLedger disk.ledger with
      | .error e => (disk, some (store.fail .ledgerCorrupt (some e.message)))
      | .ok read =>
          if read.lines.isEmpty then
            reconcileGenesis host (disk.repair read) store config db fault
          else reconcileWith host (disk.repair read) store config db read.lines fault

/-- `setConfig` -/
def setConfig (disk : Disk) (store : HiveMemoryStore) (config : Option Config) (error : Option String)
    (fault : Fault) : Disk × Option HiveMemoryStore :=
  match config with
  | none =>
      (disk, some { store with
        config := none
        configError := error
        state := .configInvalid
        detail := error })
  | some _ =>
      let store := { store with config, configError := none }
      if store.state ≠ .ready then reconcile host disk store fault else (disk, some store)

end Reconcile

end Nvoy.Store
