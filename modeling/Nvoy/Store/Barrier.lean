/-
**The unbacked-purge barrier.**

A purge fences every write until a verified backup covers it. Backups run beside the store and take
no lock: the copy of the database is made at one time, its ledger is cut at a later one, and the
receipt is recorded later still.

* `vaultSound_step`, `vaultSound_run` — every finished snapshot holds a first part of the history of
  the store, whole up to its sequence number, and the receipt is that of the last one recorded;
* `unpurged_rebuild` — a host rebuilt with such a cut as its authority is never ready on an event
  that the cut has purged, whatever candidate it is rebuilt from and wherever it is interrupted;
* `purge_backed` — a write is accepted after a purge only when the cut of the last recorded backup
  holds the line of the purge.
-/

import Nvoy.Store.Heads

namespace Nvoy.Store

open Lines Memory

/-! ### Recording a backup -/

/-- `recordVerifiedBackup`: the receipt it writes. The file is replaced by a rename. -/
def recordVerifiedBackup (writeSeq : Nat) (snapshotId : String) (recordedAt nowSec : Int) :
    Except HiveMemoryError Receipt :=
  if whole : isSafeInteger writeSeq = true ∧ 1 ≤ writeSeq ∧ isSafeInteger recordedAt = true ∧
      0 < recordedAt then
    if hex : isHex64 snapshotId = true then
      if nowSec + RECEIPT_SKEW_SEC < recordedAt then
        .error ⟨"HIVE_MEMORY_BACKUP_REFUSED", "the snapshot time is in the future"⟩
      else .ok ⟨recordedAt, writeSeq, snapshotId, whole.2.2.2, whole.2.1, hex⟩
    else .error ⟨"HIVE_MEMORY_BACKUP_REFUSED", "snapshot_id must be the 64-hex restic snapshot id"⟩
  else .error ⟨"HIVE_MEMORY_BACKUP_REFUSED", "write_seq and at must be positive integers"⟩

theorem writeSeq_of_recorded {writeSeq : Nat} {snapshotId : String} {recordedAt nowSec : Int}
    {receipt : Receipt}
    (recorded : recordVerifiedBackup writeSeq snapshotId recordedAt nowSec = .ok receipt) :
    receipt.writeSeq = writeSeq := by
  unfold recordVerifiedBackup at recorded
  split_ifs at recorded
  rw [← Except.ok.inj recorded]

/-! ### A store and its backups -/

/-- A store, the copies of its database whose ledger is not cut yet, the finished snapshots, and the
snapshot whose backup was recorded last. -/
structure Vault where
  world : World
  copies : List Database
  snapshots : List Snapshot
  recorded : Option Snapshot

def Vault.empty : Vault := ⟨World.empty, [], [], none⟩

inductive Activity where
  /-- Anything the store does; receipts come from `record` alone. -/
  | act (action : Action) (other : ∀ receipt, action ≠ .recordVerifiedBackup receipt)
  /-- `snapshotStore` copies the database. -/
  | copy
  /-- `snapshotStore` reads the ledger for the copy with that number. -/
  | cut (number : Nat) (nowSec : Int)
  /-- `recordVerifiedBackup` for the snapshot with that number. -/
  | record (number : Nat) (snapshotId : String) (recordedAt nowSec : Int)

section Vaults

variable (host : Host) (config : Config) (requireMigratedIds : List String)

def Vault.step (vault : Vault) : Activity → Vault
  | .act action _ =>
      { vault with world := Store.step host config requireMigratedIds vault.world action }
  | .copy => { vault with copies := vault.copies ++ vault.world.disk.database.toList }
  | .cut number nowSec =>
      match snapshotStore vault.copies[number]? vault.world.disk.ledger nowSec with
      | .ok snapshot => { vault with snapshots := vault.snapshots ++ [snapshot] }
      | .error _ => vault
  | .record number snapshotId recordedAt nowSec =>
      match vault.snapshots[number]? with
      | none => vault
      | some snapshot =>
          match recordVerifiedBackup snapshot.snapshotSeq snapshotId recordedAt nowSec with
          | .error _ => vault
          | .ok receipt =>
              { vault with
                world := Store.step host config requireMigratedIds vault.world
                  (.recordVerifiedBackup receipt)
                recorded := some snapshot }

def Vault.run (vault : Vault) (activities : List Activity) : Vault :=
  activities.foldl (Vault.step host config requireMigratedIds) vault

theorem Vault.run_append (vault : Vault) (first second : List Activity) :
    vault.run host config requireMigratedIds (first ++ second) =
      (vault.run host config requireMigratedIds first).run host config requireMigratedIds second :=
  List.foldl_append

end Vaults

/-! ### A host rebuilt from a cut -/

/-- What is done on a host that lost its store, with a cut as the authority ledger. -/
inductive Rebuilding where
  /-- A restore with `withLedger`. -/
  | restoreSnapshot (snapshot : Candidate) (path : String) (records : Option PurgeRecords)
      (reapplyPurges : Bool) (acknowledgeGap : Option Int) (nowSec : Int) (fault : RestoreFault)
  | start (fault : Fault)
  | crash

section Rebuilds

variable (host : Host) (config : Config) (requireMigratedIds : List String) (cut : List UInt8)

def rebuildStep (w : World) : Rebuilding → World
  | .restoreSnapshot snapshot path records reapplyPurges acknowledgeGap nowSec fault =>
      if w.process.isSome then w
      else
        ⟨(restoreSnapshot host w.disk config
          ⟨snapshot, ⟨some ⟨path, some cut⟩, records⟩, true, reapplyPurges, acknowledgeGap, nowSec⟩
          fault).disk, none⟩
  | .start fault => step host config requireMigratedIds w (.start fault)
  | .crash => step host config requireMigratedIds w .crash

def rebuild (w : World) (steps : List Rebuilding) : World :=
  steps.foldl (rebuildStep host config requireMigratedIds cut) w

end Rebuilds

/-! ### The receipt stays unless a backup is recorded -/

section Receipts

variable {host : Host} {config : Config} {disk : Disk} {store : HiveMemoryStore} {fault : Fault}

theorem receipt_checkpoint : disk.checkpoint.receipt = disk.receipt := by
  unfold Disk.checkpoint
  cases disk.wal <;> rfl

theorem receipt_reconcile : (reconcile host disk store fault).1.receipt = disk.receipt :=
  LedgerOnly.reconcile.receipt

theorem receipt_publish {db : Database} :
    (publish disk store db fault).disk.receipt = disk.receipt := by
  cases fault <;> rfl

theorem receipt_genesis {storeId : String} {events : Option (List Checked)} {nowSec : Int} :
    (genesis disk storeId events nowSec fault).disk.receipt = disk.receipt := by
  unfold genesis
  dsimp only
  split_ifs
  · rfl
  · rfl
  · cases genesisDatabase storeId (events.getD []) nowSec with
    | none => rfl
    | some created => cases fault <;> rfl

theorem receipt_purge {db : Database} {ids : List String} {reason : String} {nowSec : Int} :
    (purge disk store db ids reason nowSec fault).disk.receipt = disk.receipt := by
  unfold purge
  split_ifs
  · rfl
  · have kept := @receipt_publish disk store fault (purgeTx db ids reason nowSec)
    dsimp only
    split
    · next eq => rw [eq] at kept; exact receipt_checkpoint.trans kept
    · next eq => rw [eq] at kept; exact kept
    · next eq => rw [eq] at kept; exact kept

theorem receipt_submit {req : SubmitRequest} :
    (submit host disk store req fault).disk.receipt = disk.receipt := by
  unfold submit
  cases submitChecks host disk store req with
  | error refusal => rfl
  | ok admitted =>
      obtain ⟨db, writer, v⟩ := admitted
      dsimp only
      cases submitTx db writer v req.expectedPriorId req.nowSec with
      | replay id status =>
          have kept := (@LedgerOnly.append disk fault db.pendingLedger).receipt
          dsimp only
          unfold answerReplay
          split_ifs
          · split <;> next eq => rw [eq] at kept; exact kept
          · rfl
          · rfl
      | refused refusal => rfl
      | failed => rfl
      | staged db' => exact receipt_publish

theorem receipt_serve {w : World} {α : Type} (operation : Disk → HiveMemoryStore → After α)
    (kept : ∀ store, (operation w.disk store).disk.receipt = w.disk.receipt) :
    (w.serve operation).disk.receipt = w.disk.receipt := by
  unfold World.serve
  cases w.process with
  | none => rfl
  | some store => exact kept store

/-- Every other action leaves the receipt. -/
theorem receipt_step {requireMigratedIds : List String} {w : World} (action : Action)
    (other : ∀ receipt, action ≠ .recordVerifiedBackup receipt) :
    (step host config requireMigratedIds w action).disk.receipt = w.disk.receipt := by
  cases action with
  | initEmptyStore storeId nowSec fault =>
      show (World.disk (if w.process.isSome then w else _)).receipt = _
      split_ifs
      · rfl
      · exact receipt_genesis
  | migrateStoreJson entries storeId nowSec fault =>
      show (World.disk (if w.process.isSome then w else _)).receipt = _
      split_ifs
      · rfl
      · show (migrateStoreJson host w.disk config requireMigratedIds entries storeId nowSec
          fault).disk.receipt = _
        unfold migrateStoreJson
        split
        · rfl
        · dsimp only
          split_ifs
          · rfl
          · exact receipt_genesis
  | start fault =>
      show (World.disk (if w.process.isSome then w else _)).receipt = _
      split_ifs
      · rfl
      · exact receipt_reconcile
  | setConfig fault =>
      unfold step
      dsimp only
      cases w.process with
      | none => rfl
      | some store =>
          show (setConfig host w.disk store (some config) none fault).1.receipt = _
          unfold setConfig
          dsimp only
          split_ifs
          · exact receipt_reconcile
          · rfl
  | lookupPrior writer d => rfl
  | submit req fault =>
      exact receipt_serve (fun disk store => Store.submit host disk store req fault)
        fun store => receipt_submit
  | hardDelete target nowSec fault =>
      refine receipt_serve (fun disk store => Store.hardDelete disk store target nowSec fault)
        fun store => ?_
      unfold Store.hardDelete
      split
      · dsimp only
        split_ifs
        · rfl
        · exact receipt_purge
      · rfl
  | purgeRetention nowSec fault =>
      refine receipt_serve (fun disk store => Store.purgeRetention disk store nowSec fault)
        fun store => ?_
      unfold Store.purgeRetention
      split
      · exact receipt_purge
      · rfl
  | recordVerifiedBackup receipt => exact absurd rfl (other receipt)
  | checkpoint => exact receipt_checkpoint
  | crash => rfl

end Receipts

/-! ### What the snapshots hold -/

section Snapshots

section Statements

variable (host : Host) (config : Config) (requireMigratedIds : List String)

/-- The cut of a snapshot is these lines, the first of the history. -/
structure CutOf (snapshot : Snapshot) (hist past : List Line) : Prop where
  grown : past <+: hist
  chain : Chain past
  bytes : snapshot.ledgerCut = fileBytes past
  seq : snapshot.snapshotSeq = past.length

/-- The copies and the snapshots are of earlier states of the store with that history, and the
receipt is the one of the recorded snapshot. -/
structure Kept (vault : Vault) (hist : List Line) : Prop where
  copies : ∀ db ∈ vault.copies, ∃ past base,
    Recorded host config requireMigratedIds db past base ∧ past <+: hist
  snapshots : ∀ snapshot ∈ vault.snapshots, ∃ past, CutOf snapshot hist past
  recorded : ∀ snapshot, vault.recorded = some snapshot → snapshot ∈ vault.snapshots
  receipt : vault.world.disk.receipt.map Receipt.writeSeq = vault.recorded.map Snapshot.snapshotSeq

def VaultSound (vault : Vault) : Prop :=
  (Unborn config requireMigratedIds vault.world ∧ Kept host config requireMigratedIds vault []) ∨
    ∃ db hist base, Alive host config requireMigratedIds vault.world db hist base ∧
      Kept host config requireMigratedIds vault hist

end Statements

variable {host : Host} {config : Config} {requireMigratedIds : List String} {vault : Vault}
  {db : Database} {hist hist' : List Line} {base : Nat}

theorem Kept.mono (kept : Kept host config requireMigratedIds vault hist) (grown : hist <+: hist') :
    Kept host config requireMigratedIds vault hist' where
  copies db member := by
    obtain ⟨past, base, recorded, first⟩ := kept.copies db member
    exact ⟨past, base, recorded, first.trans grown⟩
  snapshots snapshot member := by
    obtain ⟨past, cut⟩ := kept.snapshots snapshot member
    exact ⟨past, cut.grown.trans grown, cut.chain, cut.bytes, cut.seq⟩
  recorded := kept.recorded
  receipt := kept.receipt

theorem Kept.act (kept : Kept host config requireMigratedIds vault hist) (action : Action)
    (other : ∀ receipt, action ≠ .recordVerifiedBackup receipt) :
    Kept host config requireMigratedIds (vault.step host config requireMigratedIds (.act action other))
      hist :=
  ⟨kept.copies, kept.snapshots, kept.recorded,
    (congrArg (Option.map Receipt.writeSeq) (receipt_step action other)).trans kept.receipt⟩

theorem Kept.copy (kept : Kept host config requireMigratedIds vault hist)
    (current : ∀ db, vault.world.disk.database = some db → ∃ base,
      Recorded host config requireMigratedIds db hist base) :
    Kept host config requireMigratedIds (vault.step host config requireMigratedIds .copy) hist := by
  refine ⟨fun db member => ?_, kept.snapshots, kept.recorded, kept.receipt⟩
  rcases List.mem_append.mp member with earlier | now
  · exact kept.copies db earlier
  · obtain ⟨base, recorded⟩ := current db (Option.mem_toList.mp now)
    exact ⟨hist, base, recorded, List.prefix_rfl⟩

/-- The cut of a copy is the whole history of the copy: the ledger has only grown since. -/
theorem snapshot_of_copy {copy : Database} {past : List Line} {ledger : Option (List UInt8)}
    {nowSec : Int} {snapshot : Snapshot} {read : LedgerRead} {count : Nat}
    (recorded : Recorded host config requireMigratedIds copy past base) (first : past <+: hist)
    (opened : readLedger ledger = .ok read) (lines : read.lines = hist.take count)
    (finished : snapshotStore (some copy) ledger nowSec = .ok snapshot) :
    snapshot = ⟨copy, fileBytes past, past.length, nowSec, (foldLedger past).lastPurgeSeq⟩ := by
  unfold snapshotStore at finished
  simp only [bind_eq_ok, ensure_eq_ok, require_eq_ok, exists_const, opened, decide_eq_true_eq] at finished
  obtain ⟨db, same, found, fresh, behind, built⟩ := finished
  obtain rfl := Option.some.inj same
  obtain rfl := Except.ok.inj fresh
  have whole : read.lines.take copy.writeSeq = past := by
    rw [lines] at behind ⊢
    rw [recorded.writeSeq] at behind ⊢
    rw [List.take_take, min_eq_left (behind.trans (List.length_take_le _ _))]
    exact (List.prefix_iff_eq_take.mp first).symm
  rw [whole, recorded.writeSeq] at built
  exact (Except.ok.inj built).symm

theorem cutOf_snapshot {copy : Database} {past : List Line} {ledger : Option (List UInt8)}
    {nowSec : Int} {snapshot : Snapshot} {read : LedgerRead} {count : Nat}
    (recorded : Recorded host config requireMigratedIds copy past base) (first : past <+: hist)
    (opened : readLedger ledger = .ok read) (lines : read.lines = hist.take count)
    (finished : snapshotStore (some copy) ledger nowSec = .ok snapshot) :
    CutOf snapshot hist past := by
  rw [snapshot_of_copy recorded first opened lines finished]
  exact ⟨first, recorded.chain, rfl, rfl⟩

theorem Kept.cut (kept : Kept host config requireMigratedIds vault hist) (number : Nat) (nowSec : Int)
    (readable : ∀ db ∈ vault.copies, ∃ read count,
      readLedger vault.world.disk.ledger = .ok read ∧ read.lines = hist.take count) :
    Kept host config requireMigratedIds
      (vault.step host config requireMigratedIds (.cut number nowSec)) hist := by
  unfold Vault.step
  dsimp only
  cases finished : snapshotStore vault.copies[number]? vault.world.disk.ledger nowSec with
  | error e => exact kept
  | ok snapshot =>
      refine ⟨kept.copies, fun other member => ?_, fun other same => ?_, kept.receipt⟩
      · rcases List.mem_append.mp member with earlier | now
        · exact kept.snapshots other earlier
        · obtain rfl := List.mem_singleton.mp now
          cases copied : vault.copies[number]? with
          | none =>
              rw [copied] at finished
              nomatch finished
          | some copy =>
              rw [copied] at finished
              have member := List.mem_of_getElem? copied
              obtain ⟨past, base, recorded, first⟩ := kept.copies copy member
              obtain ⟨read, count, opened, lines⟩ := readable copy member
              exact ⟨past, cutOf_snapshot recorded first opened lines finished⟩
      · exact List.mem_append_left _ (kept.recorded other same)

theorem Kept.record (kept : Kept host config requireMigratedIds vault hist) (number : Nat)
    (snapshotId : String) (recordedAt nowSec : Int) :
    Kept host config requireMigratedIds
      (vault.step host config requireMigratedIds (.record number snapshotId recordedAt nowSec))
      hist := by
  unfold Vault.step
  dsimp only
  cases found : vault.snapshots[number]? with
  | none => exact kept
  | some snapshot =>
      dsimp only
      cases recorded : recordVerifiedBackup snapshot.snapshotSeq snapshotId recordedAt nowSec with
      | error e => exact kept
      | ok receipt =>
          refine ⟨kept.copies, kept.snapshots, fun other same => ?_, ?_⟩
          · rw [← Option.some.inj same]
            exact List.mem_of_getElem? found
          · show some receipt.writeSeq = some snapshot.snapshotSeq
            rw [writeSeq_of_recorded recorded]

/-- What a recording does to the store: it writes a receipt, or nothing. -/
theorem world_record (number : Nat) (snapshotId : String) (recordedAt nowSec : Int) :
    ∃ actions, (vault.step host config requireMigratedIds
        (.record number snapshotId recordedAt nowSec)).world =
      run host config requireMigratedIds vault.world actions := by
  unfold Vault.step
  dsimp only
  cases vault.snapshots[number]? with
  | none => exact ⟨[], rfl⟩
  | some snapshot =>
      dsimp only
      cases recordVerifiedBackup snapshot.snapshotSeq snapshotId recordedAt nowSec with
      | error e => exact ⟨[], rfl⟩
      | ok receipt => exact ⟨[.recordVerifiedBackup receipt], rfl⟩

/-- What a vault does to its store is a run of the store. -/
theorem world_step (activity : Activity) : ∃ actions,
    (vault.step host config requireMigratedIds activity).world =
      run host config requireMigratedIds vault.world actions := by
  cases activity with
  | act action other => exact ⟨[action], rfl⟩
  | copy => exact ⟨[], rfl⟩
  | cut number nowSec =>
      refine ⟨[], ?_⟩
      unfold Vault.step
      dsimp only
      cases snapshotStore vault.copies[number]? vault.world.disk.ledger nowSec <;> rfl
  | record number snapshotId recordedAt nowSec => exact world_record number snapshotId recordedAt nowSec

/-- One activity beside a store with that history. -/
theorem kept_step (alive : Alive host config requireMigratedIds vault.world db hist base)
    (kept : Kept host config requireMigratedIds vault hist) (activity : Activity) :
    Kept host config requireMigratedIds (vault.step host config requireMigratedIds activity) hist := by
  cases activity with
  | act action other => exact kept.act action other
  | copy =>
      refine kept.copy fun db' current => ⟨base, ?_⟩
      obtain rfl : db = db' := Option.some.inj (alive.onDisk.database.symm.trans current)
      exact alive.onDisk.recorded
  | cut number nowSec =>
      obtain ⟨count, read, -, -, opened, lines, -⟩ := alive.onDisk.read
      exact kept.cut number nowSec fun _ _ => ⟨read, count, opened, lines⟩
  | record number snapshotId recordedAt nowSec => exact kept.record number snapshotId recordedAt nowSec

theorem vaultSound_step (sound : VaultSound host config requireMigratedIds vault) (activity : Activity) :
    VaultSound host config requireMigratedIds (vault.step host config requireMigratedIds activity) := by
  obtain ⟨actions, moved⟩ := @world_step host config requireMigratedIds vault activity
  rcases sound with ⟨unborn, kept⟩ | ⟨db, hist, base, alive, kept⟩
  · have later : Kept host config requireMigratedIds
        (vault.step host config requireMigratedIds activity) [] := by
      have noCopies : ∀ db ∈ vault.copies, False := fun db member => by
        obtain ⟨past, base, recorded, first⟩ := kept.copies db member
        exact recorded.nonempty (List.prefix_nil.mp first)
      cases activity with
      | act action other => exact kept.act action other
      | copy =>
          refine kept.copy fun db current => ?_
          rw [unborn.database] at current
          nomatch current
      | cut number nowSec => exact kept.cut number nowSec fun db member => (noCopies db member).elim
      | record number snapshotId recordedAt nowSec =>
          exact kept.record number snapshotId recordedAt nowSec
    have sound := sound_run (Or.inl unborn : Sound host config requireMigratedIds vault.world) actions
    rw [← moved] at sound
    rcases sound with still | ⟨db, hist, base, alive⟩
    · exact Or.inl ⟨still, later⟩
    · exact Or.inr ⟨db, hist, base, alive, later.mono (List.nil_prefix)⟩
  · obtain ⟨db', hist', base', later, reaches⟩ := alive_run alive actions
    rw [← moved] at later
    exact Or.inr ⟨db', hist', base', later, (kept_step alive kept activity).mono reaches.grows⟩

/-- **What the snapshots hold**, after any run. -/
theorem vaultSound_run (sound : VaultSound host config requireMigratedIds vault)
    (activities : List Activity) :
    VaultSound host config requireMigratedIds (vault.run host config requireMigratedIds activities) := by
  induction activities generalizing vault with
  | nil => exact sound
  | cons activity activities ih => exact ih (vaultSound_step sound activity)

theorem vaultSound_empty : VaultSound host config requireMigratedIds Vault.empty :=
  Or.inl ⟨⟨rfl, rfl, nofun⟩, nofun, nofun, nofun, rfl⟩

/-- A store that lives goes on with a longer history. -/
theorem vault_run (alive : Alive host config requireMigratedIds vault.world db hist base)
    (kept : Kept host config requireMigratedIds vault hist) (activities : List Activity) :
    ∃ db' hist' base', Alive host config requireMigratedIds
        (vault.run host config requireMigratedIds activities).world db' hist' base' ∧
      Kept host config requireMigratedIds (vault.run host config requireMigratedIds activities) hist' ∧
      hist <+: hist' := by
  induction activities generalizing vault db hist base with
  | nil => exact ⟨db, hist, base, alive, kept, List.prefix_rfl⟩
  | cons activity activities ih =>
      obtain ⟨actions, moved⟩ := @world_step host config requireMigratedIds vault activity
      obtain ⟨db₁, hist₁, base₁, later, reaches⟩ := alive_run alive actions
      rw [← moved] at later
      obtain ⟨db₂, hist₂, base₂, last, kept₂, grown⟩ :=
        ih later ((kept_step alive kept activity).mono reaches.grows)
      exact ⟨db₂, hist₂, base₂, last, kept₂, reaches.grows.trans grown⟩

end Snapshots

/-! ### A ledger that begins with a cut -/

section Reading

variable {past lines : List Line} {index : Nat} {storeId : Option String}

theorem readLines_append {tail : Bool} {rest : List (List UInt8)} (chain : ChainFrom index storeId past)
    (read : readLines tail index storeId ((past.map fun line => utf8 line.raw) ++ rest) = .ok lines) :
    past <+: lines := by
  induction past generalizing index storeId lines with
  | nil => exact List.nil_prefix
  | cons line past ih =>
      obtain ⟨⟨-, json, parsed, shape⟩, later⟩ := chain
      rw [List.map_cons, List.cons_append, readLines, utf8Decode_utf8, parsed] at read
      dsimp only at read
      rw [shape] at read
      dsimp only at read
      obtain ⟨found, opened, built⟩ := bind_eq_ok.mp read
      rw [← Except.ok.inj built]
      exact List.cons_prefix_cons.mpr ⟨rfl, ih later opened⟩

/-- Whatever follows them in the file, the reader finds the lines of a chain first, and a repair
keeps them. -/
theorem readLedger_append {bytes : List UInt8} {read : LedgerRead} (chain : Chain past)
    (inside : fileBytes past <+: bytes) (opened : readLedger (some bytes) = .ok read) :
    past <+: read.lines ∧ fileBytes past <+: read.kept := by
  obtain ⟨more, rfl⟩ := inside
  rw [readLedger, fileBytes, segments_joinLines_append newline more chain.newline_notMem] at opened
  dsimp only at opened
  obtain ⟨lines, found, built⟩ := bind_eq_ok.mp opened
  have first := readLines_append chain found
  rw [← Except.ok.inj built]
  refine ⟨first, ?_⟩
  dsimp only
  have few : (past.map fun line => utf8 line.raw).length ≤ lines.length := by
    rw [List.length_map]
    exact first.length_le
  rw [List.take_append, List.take_of_length_le few, joinLines_append]
  exact List.prefix_append _ _

end Reading

/-! ### A host rebuilt from a cut -/

section Rebuilt

variable {host : Host} {config : Config} {requireMigratedIds : List String} {past : List Line}
  {disk : Disk} {store : HiveMemoryStore} {db : Database} {w : World}

/-- How the last part of a start ends: the ledger only grows, and a ready store holds no event that
the ledger has purged. -/
theorem reconcileWith_ends (lines : List Line) (fault : Fault) :
    ((reconcileWith host disk store config db lines fault).1 = disk ∨
      ∃ more, (reconcileWith host disk store config db lines fault).1 =
        { disk with ledger := some (disk.ledger.getD [] ++ more) }) ∧
    ∀ after, (reconcileWith host disk store config db lines fault).2 = some after →
      after.state = .ready → Disjoint db.events.ids.toFinset (foldLedger lines).purged.toFinset := by
  unfold reconcileWith
  dsimp only
  split_ifs with other resurrected ahead
  · exact ⟨.inl rfl, fun after same ready => by
      rw [← Option.some.inj same] at ready
      cases ready⟩
  · exact ⟨.inl rfl, fun after same ready => by
      rw [← Option.some.inj same] at ready
      cases ready⟩
  all_goals
    have apart : Disjoint db.events.ids.toFinset (foldLedger lines).purged.toFinset := by
      rw [not_not, JsSet.size_eq_zero] at resurrected
      rw [Finset.disjoint_left]
      intro id stored purged
      have member : id ∈ (db.events.ids.filter (foldLedger lines).purged.has).toFinset := by
        rw [JsSet.mem_toFinset] at stored ⊢
        exact List.mem_filter.mpr ⟨stored, JsSet.has_iff.mpr purged⟩
      rw [resurrected] at member
      exact absurd member (Finset.notMem_empty id)
  · split
    · exact ⟨.inl rfl, fun _ _ _ => apart⟩
    · next replay _ =>
        obtain ⟨count, grown, -⟩ :=
          appendLedgerLine_cases disk ("\n".intercalate (replay.map Line.raw)) fault
        split <;> next eq => exact ⟨.inr ⟨_, by rw [eq] at grown; exact grown⟩, fun _ _ _ => apart⟩
  · exact ⟨.inl rfl, fun _ _ _ => apart⟩

/-- A host that is being rebuilt from the cut of these lines. -/
structure Rebuilt (w : World) (past : List Line) : Prop where
  ledger : (w.disk.ledger = none ∧ w.disk.main = .absent) ∨
    ∃ bytes, w.disk.ledger = some bytes ∧ fileBytes past <+: bytes
  ready : ∀ store db, w.process = some store → store.state = .ready → w.disk.database = some db →
    Disjoint db.events.ids.toFinset (foldLedger past).purged.toFinset

theorem Rebuilt.stopped {w : World} {past : List Line}
    (ledger : (w.disk.ledger = none ∧ w.disk.main = .absent) ∨
      ∃ bytes, w.disk.ledger = some bytes ∧ fileBytes past <+: bytes)
    (down : w.process = none) : Rebuilt w past := by
  refine ⟨ledger, fun store db served _ _ => ?_⟩
  rw [down] at served
  exact absurd served.symm (Option.some_ne_none store)

/-- A start on that host. -/
theorem Rebuilt.start (chain : Chain past) (nonempty : past ≠ []) (rebuilt : Rebuilt w past)
    (fault : Fault) :
    Rebuilt (step host config requireMigratedIds w (.start fault)) past := by
  show Rebuilt (if w.process.isSome then w else _) past
  split_ifs with served
  · exact rebuilt
  -- a start that ends before the ledger is read leaves the disk and is not ready
  have idle : ∀ {disk : Disk} {store : HiveMemoryStore}, disk.ledger = w.disk.ledger →
      disk.main = w.disk.main → store.state ≠ .ready → Rebuilt ⟨disk, some store⟩ past :=
    fun ledger main failed => ⟨by rw [ledger, main]; exact rebuilt.ledger,
      fun _ _ same ready => absurd (Option.some.inj same ▸ ready) failed⟩
  unfold reconcile
  split
  · exact idle rfl rfl nofun
  · exact idle rfl rfl nofun
  · exact idle rfl rfl nofun
  next config' db configured stored present =>
  cases opened : readLedger w.disk.ledger with
  | error e => exact idle rfl rfl nofun
  | ok read =>
      rcases rebuilt.ledger with ⟨-, absent⟩ | ⟨bytes, ledger, inside⟩
      · exact absurd absent present
      have first := readLedger_append chain inside (ledger ▸ opened)
      have repaired : ∃ bytes, (w.disk.repair read).ledger = some bytes ∧ fileBytes past <+: bytes := by
        unfold Disk.repair
        split_ifs
        · exact ⟨read.kept, rfl, first.2⟩
        · exact ⟨bytes, ledger, inside⟩
      have same : (w.disk.repair read).database = some db := by
        unfold Disk.repair
        split_ifs <;> exact stored
      have some' : read.lines.isEmpty = false := by
        cases lines : read.lines with
        | nil => exact absurd (List.prefix_nil.mp (lines ▸ first.1)) nonempty
        | cons line lines => rfl
      dsimp only
      rw [some', if_neg Bool.false_ne_true]
      obtain ⟨left, ready⟩ := @reconcileWith_ends host config' (w.disk.repair read)
        (.create (some config) requireMigratedIds) db read.lines fault
      obtain ⟨bytes, ledger, inside⟩ := repaired
      generalize reconcileWith host (w.disk.repair read) (.create (some config) requireMigratedIds)
        config' db read.lines fault = after at left ready
      have database : after.1.database = some db := by
        rcases left with unchanged | ⟨more, grown⟩
        · rw [unchanged, same]
        · rw [grown]
          exact same
      refine ⟨.inr ?_, fun store db' served isReady current => ?_⟩
      · rcases left with unchanged | ⟨more, grown⟩
        · rw [unchanged]
          exact ⟨bytes, ledger, inside⟩
        · rw [grown, ledger]
          exact ⟨bytes ++ more, rfl, inside.trans (List.prefix_append _ _)⟩
      · obtain rfl : db = db' := Option.some.inj (database.symm.trans current)
        obtain ⟨more, grown⟩ := first.1
        refine (ready store served isReady).mono_right ?_
        rw [← grown]
        exact purged_mono

/-- The head of an authority is the file it was given. -/
theorem bytes_of_authority {bytes : List UInt8} {path : String} {records : Option PurgeRecords}
    {head : AuthorityHead}
    (loaded : loadRestoreAuthority ⟨some ⟨path, some bytes⟩, records⟩ = .ok head) :
    head.bytes = bytes := by
  unfold loadRestoreAuthority at loaded
  simp only [bind_eq_ok, require_eq_ok, mapError_eq_ok] at loaded
  obtain ⟨file, same, found, -, opened, read, -, -, -, -, built⟩ := loaded
  obtain rfl := Option.some.inj same
  obtain rfl := Except.ok.inj built
  unfold readAuthorityLedger at read
  dsimp only at read
  split at read
  · cases read
  · split_ifs at read
    rw [← Except.ok.inj read]

/-- An installation only adds to the ledger. -/
theorem install_ledger {bytes : List UInt8} (ledger : disk.ledger = some bytes) (req : RestoreRequest)
    (plan : Plan) (fault : RestoreFault) :
    ∃ more, (install disk req plan fault).disk.ledger = some (bytes ++ more) := by
  have itself : ∀ {left : Disk}, left.ledger = some bytes → ∃ more, left.ledger = some (bytes ++ more) :=
    fun same => ⟨[], same.trans (by rw [List.append_nil])⟩
  have appended : ∀ fault' : Fault, ∃ more, ((appendLedgerLine
      { { disk with wal := none } with main := .store plan.db } ("\n".intercalate plan.staged)
      fault').1).ledger = some (bytes ++ more) := by
    intro fault'
    obtain ⟨count, grown, -⟩ := appendLedgerLine_cases
      { { disk with wal := none } with main := .store plan.db } ("\n".intercalate plan.staged) fault'
    rw [grown]
    exact ⟨_, by rw [ledger]; rfl⟩
  unfold install
  dsimp only
  cases fault with
  | none =>
      dsimp only
      split_ifs
      · exact itself ledger
      · exact appended .none
  | beforeLedger => exact itself ledger
  | beforeRemoval => exact itself ledger
  | beforeRename => exact itself ledger
  | afterRename => exact itself ledger
  | inAppend written =>
      dsimp only
      split_ifs
      · exact itself ledger
      · exact appended (.inAppend written)
  | appendFails written =>
      dsimp only
      split_ifs
      · exact itself ledger
      · exact appended (.appendFails written)

theorem restoreFrom_ledger (chain : Chain past) (ledger : disk.ledger = some (fileBytes past))
    (req : RestoreRequest) (head : AuthorityHead) (fault : RestoreFault) :
    ∃ more, (restoreFrom host disk config req head fault).disk.ledger =
      some (fileBytes past ++ more) := by
  have itself : ∃ more, disk.ledger = some (fileBytes past ++ more) :=
    ⟨[], ledger.trans (by rw [List.append_nil])⟩
  unfold restoreFrom
  cases req.snapshot with
  | absent => exact itself
  | damaged => exact itself
  | blank => exact itself
  | store db =>
      have whole : disk.repair ⟨false, past, fileBytes past, false⟩ = disk := rfl
      dsimp only
      rw [ledger, readLedger_fileBytes chain]
      dsimp only
      rw [whole]
      cases restorePlan host config req head past db with
      | error e => exact itself
      | ok plan => exact install_ledger ledger req plan fault

/-- What a restore with the cut as its authority does to the disk of that host. -/
theorem restored_ledger (chain : Chain past)
    (ledger : (disk.ledger = none ∧ disk.main = .absent) ∨
      ∃ bytes, disk.ledger = some bytes ∧ fileBytes past <+: bytes)
    {req : RestoreRequest} {path : String} {records : Option PurgeRecords} {fault : RestoreFault}
    (authority : req.authority = ⟨some ⟨path, some (fileBytes past)⟩, records⟩)
    (withLedger : req.withLedger = true) :
    let after := restoreSnapshot host disk config req fault
    (after.disk.ledger = none ∧ after.disk.main = .absent) ∨
      ∃ bytes, after.disk.ledger = some bytes ∧ fileBytes past <+: bytes := by
  have installed : ∀ {left : Disk} {head : AuthorityHead}, left.ledger = some (fileBytes past) →
      ∃ bytes, (restoreFrom host left config req head fault).disk.ledger = some bytes ∧
        fileBytes past <+: bytes := by
    intro left head placed
    obtain ⟨more, grown⟩ := restoreFrom_ledger chain placed req head fault
    exact ⟨_, grown, List.prefix_append _ _⟩
  dsimp only
  unfold restoreSnapshot
  cases loaded : loadRestoreAuthority req.authority with
  | error e => exact ledger
  | ok head =>
      have bytes := bytes_of_authority (authority ▸ loaded)
      dsimp only
      rw [if_pos withLedger]
      split_ifs
      · exact ledger
      unfold installAuthorityLedger
      cases local' : disk.ledger with
      | none =>
          refine .inr (installed ?_)
          show some head.bytes = _
          rw [bytes]
      | some found =>
          dsimp only
          split_ifs with same
          · refine .inr (installed ?_)
            rw [local', same, bytes]
          · exact ledger

/-- One step of rebuilding the host. -/
theorem Rebuilt.step (chain : Chain past) (nonempty : past ≠ []) (rebuilt : Rebuilt w past)
    (rebuilding : Rebuilding) :
    Rebuilt (rebuildStep host config requireMigratedIds (fileBytes past) w rebuilding) past := by
  cases rebuilding with
  | restoreSnapshot snapshot path records reapplyPurges acknowledgeGap nowSec fault =>
      unfold rebuildStep
      dsimp only
      split_ifs
      · exact rebuilt
      · exact Rebuilt.stopped (restored_ledger chain rebuilt.ledger rfl rfl) rfl
  | start fault => exact rebuilt.start chain nonempty fault
  | crash => exact Rebuilt.stopped rebuilt.ledger rfl

/-- **A host rebuilt from a cut.** Whatever it is rebuilt from, it is never ready on an event that
the cut has purged. -/
theorem rebuilt_run (chain : Chain past) (nonempty : past ≠ []) (steps : List Rebuilding) :
    Rebuilt (rebuild host config requireMigratedIds (fileBytes past) World.empty steps) past := by
  have start : Rebuilt World.empty past := Rebuilt.stopped (.inl ⟨rfl, rfl⟩) rfl
  generalize World.empty = w at start
  unfold rebuild
  induction steps generalizing w with
  | nil => exact start
  | cons step steps ih => exact ih _ (start.step chain nonempty step)

end Rebuilt

/-! ### The barrier -/

section Barrier

variable {host : Host} {config : Config} {requireMigratedIds : List String} {vault : Vault}
  {db db' : Database} {hist : List Line} {base : Nat}

/-- The actions that purge. -/
inductive Purges : Action → Prop where
  | hardDelete (target : DeleteTarget) (nowSec : Int) (fault : Fault) :
      Purges (.hardDelete target nowSec fault)
  | purgeRetention (nowSec : Int) (fault : Fault) : Purges (.purgeRetention nowSec fault)

theorem Purges.other {action : Action} (purges : Purges action) :
    ∀ receipt, action ≠ .recordVerifiedBackup receipt := by
  cases purges <;> exact nofun

theorem database_purge {disk : Disk} {store : HiveMemoryStore} {ids : List String} {reason : String}
    {nowSec : Int} {fault : Fault} :
    (purge disk store db ids reason nowSec fault).disk.database = disk.database ∨
      (purge disk store db ids reason nowSec fault).disk.database =
        some (purgeTx db ids reason nowSec) := by
  unfold purge
  split_ifs
  · exact .inl rfl
  · cases fault with
    | beforeCommit => exact .inl rfl
    | afterCommit => exact .inr rfl
    | inAppend count => exact .inr rfl
    | appendFails count => exact .inr rfl
    | none => exact .inr rfl

theorem Purges.database {w : World} {action : Action} (purges : Purges action)
    (current : w.disk.database = some db) :
    (step host config requireMigratedIds w action).disk.database = some db ∨
      ∃ ids reason nowSec, (step host config requireMigratedIds w action).disk.database =
        some (purgeTx db ids reason nowSec) := by
  have either : ∀ {store : HiveMemoryStore} {ids : List String} {reason : String} {nowSec : Int}
      {fault : Fault}, (purge w.disk store db ids reason nowSec fault).disk.database = some db ∨
        ∃ ids' reason' nowSec', (purge w.disk store db ids reason nowSec fault).disk.database =
          some (purgeTx db ids' reason' nowSec') := fun {_ ids reason nowSec _} => by
    rcases @database_purge db w.disk _ ids reason nowSec _ with same | left
    · exact .inl (same.trans current)
    · exact .inr ⟨ids, reason, nowSec, left⟩
  cases purges with
  | hardDelete target nowSec fault =>
      show (w.serve fun disk store => Store.hardDelete disk store target nowSec fault).disk.database =
        _ ∨ ∃ _ _ _, (w.serve fun disk store =>
          Store.hardDelete disk store target nowSec fault).disk.database = _
      unfold World.serve
      cases w.process with
      | none => exact .inl current
      | some store =>
          dsimp only
          unfold Store.hardDelete
          rw [current]
          cases store.state with
          | ready =>
              dsimp only
              split_ifs
              · exact .inl current
              · exact either
          | _ => exact .inl current
  | purgeRetention nowSec fault =>
      show (w.serve fun disk store => Store.purgeRetention disk store nowSec fault).disk.database =
        _ ∨ ∃ _ _ _, (w.serve fun disk store =>
          Store.purgeRetention disk store nowSec fault).disk.database = _
      unfold World.serve
      cases w.process with
      | none => exact .inl current
      | some store =>
          dsimp only
          unfold Store.purgeRetention
          rw [current]
          cases store.state with
          | ready => exact either
          | _ => exact .inl current

/-- A purge that commits adds its line to the history, staged in the database it leaves. -/
theorem Purges.line {w : World} {action : Action} (purges : Purges action)
    (alive : Alive host config requireMigratedIds w db hist base)
    (purged : (step host config requireMigratedIds w action).disk.database = some db')
    (committed : db' ≠ db) :
    ∃ line base', Alive host config requireMigratedIds (step host config requireMigratedIds w action)
        db' (hist ++ [line]) base' ∧ line.raw = db'.pendingLedger ∧ line.record.op = .purge ∧
      ∀ id ∈ db.events.ids.toFinset, id ∉ db'.events.ids.toFinset → id ∈ line.record.ids := by
  obtain ⟨db₁, hist', base', later, moves⟩ := alive_step alive action
  obtain rfl : db₁ = db' := Option.some.inj (later.onDisk.database.symm.trans purged)
  have deletes : db₁ = db ∨ ∃ ids reason nowSec, db₁ = purgeTx db ids reason nowSec := by
    have current := alive.onDisk.database
    rcases purges.database current with same | ⟨ids, reason, nowSec, same⟩
    · exact .inl (Option.some.inj (purged.symm.trans same))
    · exact .inr ⟨ids, reason, nowSec, Option.some.inj (purged.symm.trans same)⟩
  cases moves with
  | stays => exact absurd rfl committed
  | @submits disk store req writer v _ passed fresh ends =>
      cases ends with
      | staged _ absent prior newer active underCap submitted =>
          obtain same | ⟨ids, reason, nowSec, same⟩ := deletes
          · exact absurd same committed
          · have stored : v.ev.id ∈ db₁.events.ids.toFinset := by
              rw [submitted.ids_eq]
              exact Finset.mem_insert_self _ _
            rw [same] at stored
            obtain ⟨row, member, named⟩ :=
              Events.mem_ids.mp (Finset.mem_sdiff.mp (Events.ids_delete ▸ stored)).1
            exact absurd named (Events.find_eq_none.mp absent row member)
  | purges ids reason nowSec stored =>
      refine ⟨_, base', later, rfl, rfl, fun id before gone => ?_⟩
      have left : (purgeTx db ids reason nowSec).events.ids.toFinset =
          db.events.ids.toFinset \ ids.toFinset := Events.ids_delete
      rw [left, Finset.mem_sdiff, not_and, not_not] at gone
      exact mem_sortIds.mpr (List.mem_toFinset.mp (gone before))

/-- The last purge of a history is no earlier than any of its purges. -/
theorem le_lastPurgeSeq {line : Line} {more : List Line} (chain : Chain (hist ++ line :: more))
    (op : line.record.op = .purge) :
    hist.length + 1 ≤ (foldLedger (hist ++ line :: more)).lastPurgeSeq := by
  induction more using List.reverseRecOn with
  | nil =>
      obtain ⟨-, accepted⟩ := chain_snoc.mp chain
      rw [foldLedger_snoc, foldStep_lastPurgeSeq, if_pos op, accepted.record_eq.1]
  | append_singleton more last ih =>
      rw [← List.cons_append, ← List.append_assoc] at chain ⊢
      obtain ⟨before, accepted⟩ := chain_snoc.mp chain
      have earlier := ih before
      rw [foldLedger_snoc, foldStep_lastPurgeSeq]
      split_ifs
      · rw [accepted.record_eq.1]
        exact earlier.trans ((before.lastPurgeSeq_le).trans (Nat.le_succ _))
      · exact earlier

/-- A write that is accepted past a purge: the fence has found the purge in the last backup. -/
theorem covered_of_accepted (alive : Alive host config requireMigratedIds vault.world db hist base)
    (kept : Kept host config requireMigratedIds vault hist) {before more : List Line} {line : Line}
    (purged : hist = before ++ line :: more) (op : line.record.op = .purge)
    {store : HiveMemoryStore} {req : SubmitRequest} {fault : Fault} {id : String} {status : Status}
    (accepted : (submit host vault.world.disk store req fault).answer =
      some (.accepted id status false)) :
    ∃ snapshot past, vault.recorded = some snapshot ∧ CutOf snapshot hist past ∧ line ∈ past := by
  obtain ⟨config', db', writer, v, passed⟩ : ∃ config' db' writer v,
      Passed host vault.world.disk store req config' ⟨db', writer, v⟩ := by
    unfold submit at accepted
    cases checks : submitChecks host vault.world.disk store req with
    | error refusal =>
        rw [checks] at accepted
        nomatch accepted
    | ok admitted =>
        obtain ⟨config', passed⟩ := submitChecks_eq_ok.mp checks
        exact ⟨config', _, _, _, passed⟩
  obtain rfl : db' = db := Option.some.inj (passed.database.symm.trans alive.onDisk.database)
  have recorded := alive.onDisk.recorded
  have late : before.length + 1 ≤ db'.lastPurgeSeq := by
    rw [recorded.lastPurge, purged]
    exact le_lastPurgeSeq (purged ▸ recorded.chain) op
  have backed := passed.backed
  unfold purgeBackupIncomplete at backed
  split_ifs at backed with covers
  rw [Bool.or_eq_true, decide_eq_true_eq] at covers
  have some' : db'.lastPurgeSeq ≠ 0 := by omega
  obtain ⟨receipt, received, level⟩ : ∃ receipt, vault.world.disk.receipt = some receipt ∧
      db'.lastPurgeSeq ≤ receipt.writeSeq := by
    have within := covers.resolve_left some'
    cases received : vault.world.disk.receipt with
    | none =>
        rw [received] at within
        nomatch within
    | some receipt =>
        rw [received] at within
        exact ⟨receipt, rfl, of_decide_eq_true within⟩
  have same := kept.receipt
  rw [received] at same
  obtain ⟨snapshot, held, seq⟩ := Option.map_eq_some_iff.mp same.symm
  obtain ⟨past, cut⟩ := kept.snapshots snapshot (kept.recorded snapshot held)
  refine ⟨snapshot, past, held, cut, ?_⟩
  -- the cut is at least as long as the history was when the purge was written
  have long : (before ++ [line]).length ≤ past.length := by
    rw [List.length_append, List.length_singleton, ← cut.seq, seq]
    exact late.trans level
  have first : before ++ [line] <+: hist := ⟨more, by rw [purged]; simp⟩
  exact (List.prefix_of_prefix_length_le first cut.grown long).subset (by simp)

/-- The ids of a purge line are purged by a ledger that holds it. -/
theorem mem_purged {lines : List Line} {line : Line} (member : line ∈ lines)
    (op : line.record.op = .purge) {id : String} (named : id ∈ line.record.ids) :
    id ∈ (foldLedger lines).purged.toFinset := by
  obtain ⟨before, after, rfl⟩ := List.append_of_mem member
  rw [List.append_cons]
  refine purged_mono ?_
  rw [foldLedger_snoc, foldStep_purged, if_pos op]
  exact Finset.mem_union_right _ (List.mem_toFinset.mpr named)

/-- **The unbacked-purge barrier.** Once a purge has committed, wherever it is interrupted, a submit
that is not a replay is accepted only when the cut of the last recorded backup holds its line; and a
lost host that is rebuilt with that cut as the authority, from any candidate, is never ready on an
event the purge named. -/
theorem purge_backed (before after : List Activity) {purge : Action} (purges : Purges purge)
    (stored : (Vault.empty.run host config requireMigratedIds before).world.disk.database = some db)
    (purged : (Vault.empty.run host config requireMigratedIds
      (before ++ [.act purge purges.other])).world.disk.database = some db')
    (committed : db' ≠ db) {store : HiveMemoryStore} {req : SubmitRequest} {fault : Fault}
    {id : String} {status : Status}
    (accepted : (submit host (Vault.empty.run host config requireMigratedIds
      (before ++ .act purge purges.other :: after)).world.disk store req fault).answer =
        some (.accepted id status false)) :
    ∃ snapshot read line,
      (Vault.empty.run host config requireMigratedIds
        (before ++ .act purge purges.other :: after)).recorded = some snapshot ∧
      readLedger (some snapshot.ledgerCut) = .ok read ∧ line ∈ read.lines ∧
      line.raw = db'.pendingLedger ∧ line.record.op = .purge ∧
      (∀ id ∈ db.events.ids.toFinset, id ∉ db'.events.ids.toFinset → id ∈ line.record.ids) ∧
      ∀ (config' : Config) (required : List String) (steps : List Rebuilding)
        (store' : HiveMemoryStore) (db'' : Database),
        (rebuild host config' required snapshot.ledgerCut World.empty steps).process = some store' →
        store'.state = .ready →
        (rebuild host config' required snapshot.ledgerCut World.empty steps).disk.database = some db'' →
        ∀ id ∈ line.record.ids, id ∉ db''.events.ids.toFinset := by
  have sound := vaultSound_run (@vaultSound_empty host config requireMigratedIds) before
  rw [Vault.run_append] at purged accepted ⊢
  generalize Vault.empty.run host config requireMigratedIds before = vault at *
  rcases sound with ⟨unborn, -⟩ | ⟨db₀, hist, base, alive, kept⟩
  · rw [unborn.database] at stored
    nomatch stored
  obtain rfl : db₀ = db := Option.some.inj (alive.onDisk.database.symm.trans stored)
  obtain ⟨line, base', later, raw, op, names⟩ := purges.line alive purged committed
  have kept' : Kept host config requireMigratedIds
      (vault.step host config requireMigratedIds (.act purge purges.other)) (hist ++ [line]) :=
    (kept.act purge purges.other).mono (List.prefix_append _ _)
  obtain ⟨db₂, hist₂, base₂, last, kept₂, more, rfl⟩ := @vault_run host config requireMigratedIds
    (vault.step host config requireMigratedIds (.act purge purges.other)) _ _ _ later kept' after
  obtain ⟨snapshot, past, held, cut, inside⟩ :=
    covered_of_accepted last kept₂ (List.append_cons hist line more).symm op accepted
  refine ⟨snapshot, _, line, held, by rw [cut.bytes]; exact readLedger_fileBytes cut.chain, inside, raw,
    op, names, fun config' required steps store' db'' served ready current id named => ?_⟩
  rw [cut.bytes] at served current
  have rebuilt := @rebuilt_run host config' required _ cut.chain (List.ne_nil_of_mem inside) steps
  exact Finset.disjoint_right.mp (rebuilt.ready store' db'' served ready current)
    (mem_purged inside op named)

end Barrier

/-! ### A write after a purge -/

/-- A snapshot of a store that is ready and does nothing meanwhile. -/
theorem Alive.snapshot {host : Host} {config : Config} {requireMigratedIds : List String} {w : World}
    {db : Database} {hist : List Line} {base : Nat} {store : HiveMemoryStore}
    (alive : Alive host config requireMigratedIds w db hist base)
    (served : w.process = some store) (ready : store.state = .ready) (nowSec : Int) :
    snapshotStore (some db) w.disk.ledger nowSec =
      .ok ⟨db, fileBytes (hist.take db.writeSeq), db.writeSeq, nowSec,
        (foldLedger (hist.take db.writeSeq)).lastPurgeSeq⟩ := by
  obtain ⟨whole, -, -⟩ := alive.ready served ready
  have recorded := alive.onDisk.recorded
  unfold snapshotStore
  simp only [bind_eq_ok, ensure_eq_ok, require_eq_ok, exists_const]
  refine ⟨db, rfl, _, whole ▸ readLedger_fileBytes recorded.chain, ?_, rfl⟩
  exact decide_eq_true (le_of_eq recorded.writeSeq)

/-- The first backup of a ready store covers all of it. -/
theorem Alive.backup {host : Host} {config : Config} {requireMigratedIds : List String} {vault : Vault}
    {db : Database} {hist : List Line} {base : Nat} {store : HiveMemoryStore}
    (alive : Alive host config requireMigratedIds vault.world db hist base)
    (served : vault.world.process = some store) (ready : store.state = .ready)
    (copies : vault.copies = []) (snapshots : vault.snapshots = []) {snapshotId : String}
    {recordedAt nowSec : Int} (safe : isSafeInteger db.writeSeq = true)
    (hex : isHex64 snapshotId = true) (safe' : isSafeInteger recordedAt = true)
    (positive : 0 < recordedAt) (past : recordedAt ≤ nowSec + RECEIPT_SKEW_SEC) :
    ∃ receipt, (vault.run host config requireMigratedIds
        [.copy, .cut 0 nowSec, .record 0 snapshotId recordedAt nowSec]).world =
          step host config requireMigratedIds vault.world (.recordVerifiedBackup receipt) ∧
      receipt.writeSeq = db.writeSeq ∧ receipt.recordedAt = recordedAt := by
  have recorded := alive.onDisk.recorded
  have some' : 1 ≤ db.writeSeq := by
    have := recorded.base_lt
    rw [recorded.writeSeq]
    omega
  have snapshot := @Alive.snapshot host config requireMigratedIds _ _ _ _ _ alive served ready nowSec
  have received : recordVerifiedBackup db.writeSeq snapshotId recordedAt nowSec =
      .ok ⟨recordedAt, db.writeSeq, snapshotId, positive, some', hex⟩ := by
    unfold recordVerifiedBackup
    rw [dif_pos ⟨safe, some', safe', positive⟩, dif_pos hex, if_neg (not_lt.mpr past)]
  refine ⟨⟨recordedAt, db.writeSeq, snapshotId, positive, some', hex⟩, ?_, rfl, rfl⟩
  unfold Vault.run Vault.step
  simp only [List.foldl_cons, List.foldl_nil, copies, snapshots, alive.onDisk.database,
    Option.toList_some, List.nil_append, List.getElem?_cons_zero, snapshot, received]

theorem Vault.run_acts {host : Host} {config : Config} {requireMigratedIds : List String}
    (vault : Vault) {first second : Action} (other : ∀ receipt, first ≠ .recordVerifiedBackup receipt)
    (other' : ∀ receipt, second ≠ .recordVerifiedBackup receipt) :
    (vault.run host config requireMigratedIds [.act first other, .act second other']).world =
      Store.run host config requireMigratedIds vault.world [first, second] := rfl

theorem Vault.run_act {host : Host} {config : Config} {requireMigratedIds : List String}
    (vault : Vault) (before : List Activity) {action : Action}
    (other : ∀ receipt, action ≠ .recordVerifiedBackup receipt) :
    (vault.run host config requireMigratedIds (before ++ [.act action other])).world =
      Store.step host config requireMigratedIds
        (vault.run host config requireMigratedIds before).world action := by
  rw [Vault.run_append]
  rfl

/-- A cutover with two versions of a key, and a start. -/
def twoVersionsServed : List Activity :=
  [.act (.migrateStoreJson [(claimOf 'b' 2000).ev, (claimOf 'c' 3000).ev] sampleStoreId 3000 .none) nofun,
    .act (.start .none) nofun]

theorem sampleDeletion : Purges (.hardDelete (.byId (sampleKey 'c')) 3000 .none) :=
  .hardDelete _ _ _

/-- The newer version is deleted, then backed up, then an event is submitted that is accepted. -/
theorem purge_backed_deletedHead : ∃ snapshot read line,
    (Vault.empty.run Host.sample sampleConfig [] (twoVersionsServed ++
      [.act _ sampleDeletion.other, .copy, .cut 0 3000,
        .record 0 (sampleKey 'e') 1000 3000])).recorded = some snapshot ∧
      readLedger (some snapshot.ledgerCut) = .ok read ∧ line ∈ read.lines ∧
      line.record.op = .purge := by
  obtain ⟨store, db, store', db', serving, seq, deleting, deleted⟩ := deletedHead_serving
  have before : (Vault.empty.run Host.sample sampleConfig [] twoVersionsServed).world =
      run Host.sample sampleConfig [] World.empty twoVersions := by
    unfold twoVersionsServed twoVersions
    rw [Vault.run_acts, Vault.empty]
  have now : (Vault.empty.run Host.sample sampleConfig [] (twoVersionsServed ++
      [.act _ sampleDeletion.other])).world =
      run Host.sample sampleConfig [] World.empty
        (twoVersions ++ [.hardDelete (.byId (sampleKey 'c')) 3000 .none]) := by
    rw [Vault.run_act, before, run_snoc]
  have sound := sound_run (@sound_empty Host.sample sampleConfig [])
    (twoVersions ++ [.hardDelete (.byId (sampleKey 'c')) 3000 .none])
  obtain ⟨db₀, hist, base, alive⟩ := alive_of_committed sound
    (by rw [deleting.database]; exact Option.some_ne_none _)
  obtain rfl : db₀ = db' := Option.some.inj (alive.onDisk.database.symm.trans deleting.database)
  rw [← now] at alive deleting
  have past : (1000 : Int) ≤ 3000 + RECEIPT_SKEW_SEC := by
    rw [RECEIPT_SKEW_SEC]
    omega
  obtain ⟨receipt, backed, level, time⟩ := @Alive.backup Host.sample sampleConfig [] _ _ _ _ _ alive
    deleting.process deleting.ready rfl rfl (sampleKey 'e') 1000 3000
    (by rw [deleted.writeSeq]; decide) (by decide) (by decide) (by decide) past
  obtain ⟨serving', received⟩ := @Serving.backup Host.sample sampleConfig [] _ _ _ deleting receipt
  rw [← backed] at serving' received
  obtain ⟨-, -, -, -, accepted⟩ := deleted.submit serving' received (level.trans deleted.writeSeq) time
  rw [← Vault.run_append, List.append_assoc, List.singleton_append] at accepted
  have moved : db₀ ≠ db := by
    intro same
    have twice := deleted.writeSeq
    rw [same, seq] at twice
    omega
  rw [← before] at serving
  obtain ⟨snapshot, read, line, held, opened, member, -, op, -⟩ :=
    @purge_backed Host.sample sampleConfig [] _ _ twoVersionsServed
      [.copy, .cut 0 3000, .record 0 (sampleKey 'e') 1000 3000] _
      sampleDeletion serving.database deleting.database moved _ _ _
      _ _ accepted
  exact ⟨snapshot, read, line, held, opened, member, op⟩

end Nvoy.Store
