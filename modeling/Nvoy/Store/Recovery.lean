/-
Crash safety of the three-phase write.

A disk is consistent with a history (`OnDisk`) when the history is that of its database and the
ledger holds a prefix of the file of the history, with at least the lines that are not staged. A
crash leaves such a disk whatever it interrupts, and a start brings the ledger up to the database.

* `OnDisk.reconciled` — a start from such a disk: where it may be interrupted the disk stays
  consistent, and with working I/O it ends ready;
* `OnDisk.publish` — the three phases of a write, interrupted anywhere;
* `sound_step`, `sound_run` — what every action keeps, and so every run;
* `ready_after_restart` — the store is ready after the next start.
-/

import Nvoy.Store.History
import Nvoy.Store.System

namespace Nvoy.Store

open Lines Memory

/-! ### The staged lines -/

section Staged

variable {lines : List Line} {index : Nat} {storeId : Option String}

/-- The bytes appended for staged lines are the file of these lines. -/
theorem appendBytes_intercalate (nonempty : lines ≠ []) :
    appendBytes ("\n".intercalate (lines.map Line.raw)) = fileBytes lines := by
  induction lines with
  | nil => exact absurd rfl nonempty
  | cons line lines ih =>
      cases lines with
      | nil => simp [appendBytes, fileBytes]
      | cons next lines =>
          have rest := ih (List.cons_ne_nil _ _)
          rw [List.map_cons, List.map_cons, String.intercalate_cons_cons, appendBytes, utf8_append,
            utf8_append, utf8_newline, List.append_assoc]
          rw [List.map_cons, appendBytes] at rest
          rw [rest, fileBytes, fileBytes, List.map_cons (a := line), joinLines_cons,
            List.append_assoc]
          rfl

theorem appendBytes_line (line : Line) : appendBytes line.raw = fileBytes [line] := by
  have joined := appendBytes_intercalate (List.cons_ne_nil line [])
  rwa [List.map_singleton, String.intercalate_singleton] at joined

theorem split_intercalate (nonempty : lines ≠ []) (clean : ∀ line ∈ lines, '\n' ∉ line.raw.toList) :
    split '\n' ("\n".intercalate (lines.map Line.raw)) = lines.map Line.raw := by
  have parts : ("\n".intercalate (lines.map Line.raw)).toList =
      ['\n'].intercalate (lines.map fun line => line.raw.toList) := by
    rw [String.toList_intercalate, List.map_map]
    rfl
  rw [split, parts, List.splitOn_intercalate, List.map_map]
  · exact List.map_congr_left fun line _ => String.ofList_toList
  · intro chars member
    obtain ⟨line, inside, rfl⟩ := List.mem_map.mp member
    exact clean line inside
  · simpa using nonempty

/-- Staged lines that continue the ledger are read back. -/
theorem readPending_chain (chain : ChainFrom index storeId lines) :
    readPending index storeId (lines.map Line.raw) = .ok lines := by
  induction lines generalizing index storeId with
  | nil => rfl
  | cons line lines ih =>
      obtain ⟨⟨-, json, parsed, shape⟩, rest⟩ := chain
      simp only [List.map_cons, readPending, parsed, require, ok_bind]
      rw [shape]
      dsimp only
      rw [ih rest]
      rfl

theorem foldl_foldStep_take (count : Nat) :
    (lines.drop count).foldl foldStep (foldLedger (lines.take count)) = foldLedger lines := by
  rw [foldLedger, ← List.foldl_append, List.take_append_drop]
  rfl

end Staged

/-! ### A start from a consistent disk -/

section Start

variable {host : Host} {config : Config} {requireMigratedIds : List String}
  {db : Database} {hist : List Line} {base : Nat} {store : HiveMemoryStore}

theorem rowsValidError_eq_none (valid : RowsValid host config db) {ids : List String}
    (stored : ∀ id ∈ ids, id ∈ db.events.ids.toFinset) : rowsValidError host config db ids = none := by
  rw [rowsValidError, List.findSome?_eq_none_iff]
  intro id member
  obtain ⟨row, inside, rfl⟩ := Events.mem_ids.mp (stored id member)
  obtain ⟨same, v, checked⟩ := valid row inside
  rw [Events.find_eq_some.mpr ⟨inside, rfl⟩]
  dsimp only
  rw [checked]
  dsimp only
  rw [if_neg]
  rw [checkEvent_ev checked]
  exact fun differ => differ same

/-- The store object that a whole ledger makes ready. -/
def readyWith (store : HiveMemoryStore) (hist : List Line) : HiveMemoryStore :=
  { store with
    ledgerMaxSeq := (foldLedger hist).maxSeq
    purgedIds := (foldLedger hist).purged
    state := .ready
    detail := none }

variable (recorded : Recorded host config requireMigratedIds db hist base)

include recorded

theorem Recorded.nonempty : hist ≠ [] :=
  List.ne_nil_of_length_pos (by have := recorded.base_lt; omega)

/-- With the whole history in the ledger every check passes. -/
theorem Recorded.compareWithLedger_eq :
    compareWithLedger store db (foldLedger hist) = readyWith store hist := by
  have seq : ¬ db.writeSeq < (foldLedger hist).maxSeq := by
    rw [recorded.chain.maxSeq, recorded.writeSeq]
    exact lt_irrefl _
  have missing : ((foldLedger hist).expected.difference db.events.ids).size = 0 := by
    rw [JsSet.size_eq_zero, JsSet.toFinset_difference, recorded.expected, Finset.sdiff_self]
  have extra : (db.events.ids.difference (foldLedger hist).expected).size = 0 := by
    rw [JsSet.size_eq_zero, JsSet.toFinset_difference, recorded.expected, Finset.sdiff_self]
  unfold compareWithLedger
  rw [if_neg seq, if_neg (not_not.mpr missing), if_neg (not_not.mpr extra),
    if_neg (not_not.mpr recorded.lastPurge)]
  rfl

theorem Recorded.pendingReplay_eq {count : Nat} (landed : base ≤ count) (short : count < hist.length) :
    pendingReplay host config db (foldLedger (hist.take count)) (hist.take count) =
      .ok (hist.drop count) := by
  have chain := recorded.chain
  have whole : hist.take count ++ hist.drop count = hist := List.take_append_drop count hist
  have size : (hist.take count).length = count := by
    rw [List.length_take, min_eq_left short.le]
  have raws : split '\n' db.pendingLedger = (hist.drop base).map Line.raw := by
    rw [recorded.staged]
    refine split_intercalate ?_ fun line member => chain.clean (List.mem_of_mem_drop member)
    exact List.ne_nil_of_length_pos (by rw [List.length_drop]; have := recorded.base_lt; omega)
  have continues : ChainFrom (foldLedger (hist.take count)).maxSeq
      (foldLedger (hist.take count)).storeId (hist.drop count) := by
    have parts : Chain (hist.take count ++ hist.drop count) := whole.symm ▸ chain
    rw [(chain.take count).maxSeq, (chain.take count).storeId]
    have second := (chainFrom_append.mp parts).2
    simpa using second
  have folded : ((hist.drop count).map Line.record).foldl applyLedgerRecord
      (foldLedger (hist.take count)) =
        { foldLedger hist with lastRaw := (foldLedger (hist.take count)).lastRaw } := by
    rw [foldl_applyLedgerRecord, foldl_foldStep_take]
  have pending : (hist.drop base).length = hist.length - base := List.length_drop
  have ahead : hist.length - base - (hist.length - count) = count - base := by omega
  have early : (hist.take count).drop (count - (count - base)) = (hist.drop base).take (count - base) := by
    rw [show count - (count - base) = base by omega, List.drop_take]
  unfold pendingReplay
  simp only [bind_eq_ok, ensure_eq_ok, exists_const, raws, List.length_map, pending,
    recorded.writeSeq, (chain.take count).maxSeq, size, ahead]
  refine ⟨?_, ?_, hist.drop count, ?_, ?_, ?_, ?_⟩
  · exact decide_eq_true (by omega)
  · rw [early, List.map_take]
    exact decide_eq_true rfl
  · rw [← List.map_drop, List.drop_drop, show base + (count - base) = count by omega]
    rw [(chain.take count).maxSeq, size] at continues
    exact readPending_chain continues
  · rw [folded, JsSet.equal_iff]
    exact recorded.expected.symm
  · rw [folded]
    simp only [Bool.not_eq_true', List.any_eq_false, JsSet.has_iff]
    exact fun id member => Finset.disjoint_left.mp recorded.unpurged (JsSet.mem_toFinset.mpr member)
  · have stored : rowsValidError host config db (((hist.drop count).filter fun line =>
        line.record.op = .submit).flatMap fun line => line.record.ids) = none := by
      refine rowsValidError_eq_none recorded.valid fun id member => ?_
      obtain ⟨line, inside, named⟩ := List.mem_flatMap.mp member
      obtain ⟨later, op⟩ := List.mem_filter.mp inside
      have tail : line ∈ hist.drop base := by
        rw [show count = base + (count - base) by omega, ← List.drop_drop] at later
        exact List.mem_of_mem_drop later
      exact recorded.submitted line tail (of_decide_eq_true op) id named
    rw [stored]

theorem Recorded.genesisReplay_eq (zero : base = 0)
    (required : store.requireMigratedIds = requireMigratedIds) :
    ∃ line, hist = [line] ∧ db.pendingLedger = line.raw ∧
      genesisReplay host store config db = .ok line.record := by
  obtain ⟨line, rfl⟩ := List.length_eq_one_iff.mp (recorded.genesis zero)
  have raw : db.pendingLedger = line.raw := by
    rw [recorded.staged, zero]
    exact String.intercalate_singleton
  have accepted : Accepted 0 none line := recorded.chain.1
  obtain ⟨json, parsed, shape⟩ := accepted.reads
  obtain ⟨-, -, begins, -, -⟩ := accepted.record_eq
  have writeSeq : db.writeSeq = 1 := recorded.writeSeq
  have storeId : line.record.storeId = db.storeId := Option.some.inj recorded.store
  have folded : (foldLedger [line]).expected.toFinset =
      (if line.record.op = .cutover then line.record.ids.toFinset else ∅) := by
    show (foldStep .start line).expected.toFinset = _
    rw [foldStep_expected]
    have genesis := begins.mp rfl
    cases op : line.record.op with
    | init => rfl
    | cutover => exact Finset.empty_union _
    | submit => simp [op, LedgerOp.isGenesis] at genesis
    | purge => simp [op, LedgerOp.isGenesis] at genesis
    | restoreGapAck => simp [op, LedgerOp.isGenesis] at genesis
  have noIds : line.record.op = .init → line.record.ids = [] := accepted.init_ids
  refine ⟨line, rfl, raw, ?_⟩
  unfold genesisReplay
  simp only [bind_eq_ok, ensure_eq_ok, require_eq_ok, exists_const]
  refine ⟨json, ?_, line.record, ?_, ?_, ?_, ?_, ?_⟩
  · rw [raw]
    exact parsed
  · rw [genesisRecord, shape]
    exact if_pos ⟨writeSeq, storeId⟩
  · rw [JsSet.equal_iff, JsSet.toFinset_ofList, recorded.expected, folded]
    by_cases op : line.record.op = .cutover
    · rw [if_pos op]
    · rw [if_neg op, noIds (line.record.op.eq_init (begins.mp rfl) op)]
      rfl
  · by_cases op : line.record.op = .init
    · have none : db.events.ids.size = 0 := by
        rw [JsSet.size_eq_zero, recorded.expected, folded, if_neg (by simp [op])]
      simp [none]
    · simp [op]
  · by_cases op : line.record.op = .cutover
    · have all : store.requireMigratedIds.all db.events.ids.has = true := by
        rw [List.all_eq_true, required]
        exact fun id wanted => JsSet.has_iff.mpr
          (recorded.migrated zero line List.mem_cons_self op id wanted)
      simp [all]
    · simp [op]
  · have stored : rowsValidError host config db db.events.ids.items = none :=
      rowsValidError_eq_none recorded.valid fun id member => JsSet.mem_toFinset.mpr member
    rw [stored]

end Start

/-! ### Consistent disks -/

theorem fileBytes_append (first second : List Line) :
    fileBytes (first ++ second) = fileBytes first ++ fileBytes second := by
  rw [fileBytes, List.map_append, joinLines_append]
  rfl

theorem prefix_fileBytes_take (lines : List Line) (count : Nat) :
    fileBytes (lines.take count) <+: fileBytes lines := by
  conv_rhs => rw [← List.take_append_drop count lines, fileBytes_append]
  exact List.prefix_append _ _

section Appending

variable (disk : Disk) (line : String) (fault : Fault)

/-- What an append leaves: some first bytes of the line, and all of them if it succeeds. -/
theorem appendLedgerLine_cases : ∃ count,
    (appendLedgerLine disk line fault).1 =
        { disk with ledger := some (disk.ledger.getD [] ++ (appendBytes line).take count) } ∧
      ((appendLedgerLine disk line fault).2 = .written → (appendBytes line).length ≤ count) ∧
      (fault = .none → (appendLedgerLine disk line fault).2 = .written) := by
  cases fault with
  | inAppend written => exact ⟨written, rfl, nofun, nofun⟩
  | appendFails written => exact ⟨written, rfl, nofun, nofun⟩
  | none =>
      refine ⟨(appendBytes line).length, ?_, fun _ => le_refl _, fun _ => rfl⟩
      rw [List.take_length]
      rfl
  | beforeCommit =>
      refine ⟨(appendBytes line).length, ?_, fun _ => le_refl _, nofun⟩
      rw [List.take_length]
      rfl
  | afterCommit =>
      refine ⟨(appendBytes line).length, ?_, fun _ => le_refl _, nofun⟩
      rw [List.take_length]
      rfl

end Appending

/-! ### A start changes the ledger only -/

/-- Nothing but the ledger of the disk has changed. -/
def LedgerOnly (disk disk' : Disk) : Prop := ∃ ledger, disk' = { disk with ledger }

namespace LedgerOnly

variable {disk disk' disk'' : Disk} {host : Host} {store : HiveMemoryStore} {config : Config}
  {db : Database} {fault : Fault}

theorem refl (disk : Disk) : LedgerOnly disk disk := ⟨disk.ledger, rfl⟩

theorem trans (first : LedgerOnly disk disk') (second : LedgerOnly disk' disk'') :
    LedgerOnly disk disk'' := by
  obtain ⟨ledger, rfl⟩ := first
  obtain ⟨ledger', rfl⟩ := second
  exact ⟨ledger', rfl⟩

theorem append (line : String) : LedgerOnly disk (appendLedgerLine disk line fault).1 := by
  obtain ⟨count, left, -⟩ := appendLedgerLine_cases disk line fault
  exact ⟨_, left⟩

theorem repair (read : LedgerRead) : LedgerOnly disk (disk.repair read) := by
  unfold Disk.repair
  split_ifs
  · exact ⟨_, rfl⟩
  · exact refl disk

theorem reconcileWith (lines : List Line) :
    LedgerOnly disk (reconcileWith host disk store config db lines fault).1 := by
  unfold Store.reconcileWith
  dsimp only
  split_ifs
  · exact refl disk
  · exact refl disk
  · split
    · exact refl disk
    · next replay _ =>
        have appended := @append disk fault ("\n".intercalate (replay.map Line.raw))
        split <;> next eq => rw [eq] at appended; exact appended
  · exact refl disk

theorem reconcileGenesis : LedgerOnly disk (reconcileGenesis host disk store config db fault).1 := by
  unfold Store.reconcileGenesis
  split_ifs
  · exact refl disk
  · split
    · exact refl disk
    · have appended := @append disk fault db.pendingLedger
      split
      · next eq => rw [eq] at appended; exact appended
      · next eq => rw [eq] at appended; exact appended
      · next eq => rw [eq] at appended; exact appended.trans (reconcileWith _)

theorem reconcile : LedgerOnly disk (reconcile host disk store fault).1 := by
  unfold Store.reconcile
  split
  · exact refl disk
  · exact refl disk
  · exact refl disk
  · split
    · exact refl disk
    · next read _ =>
        split_ifs
        · exact (repair read).trans reconcileGenesis
        · exact (repair read).trans (reconcileWith _)

theorem database (only : LedgerOnly disk disk') : disk'.database = disk.database := by
  obtain ⟨ledger, rfl⟩ := only
  rfl

theorem receipt (only : LedgerOnly disk disk') : disk'.receipt = disk.receipt := by
  obtain ⟨ledger, rfl⟩ := only
  rfl

end LedgerOnly

section Disks

variable (host : Host) (config : Config) (requireMigratedIds : List String)

/-- The disk of a store with that history, wherever its last append was cut. -/
structure OnDisk (disk : Disk) (db : Database) (hist : List Line) (base : Nat) : Prop where
  recorded : Recorded host config requireMigratedIds db hist base
  database : disk.database = some db
  present : disk.main ≠ .absent
  /-- Lines that are not staged are in the ledger. -/
  kept : fileBytes (hist.take base) <+: disk.ledger.getD []
  inside : disk.ledger.getD [] <+: fileBytes hist

/-- What a store object may say of its disk: if it is ready, the whole history is in the ledger. -/
structure Serves (disk : Disk) (hist : List Line) (store : HiveMemoryStore) : Prop where
  config : store.config = some config
  required : store.requireMigratedIds = requireMigratedIds
  ready : store.state = .ready → disk.ledger = some (fileBytes hist) ∧
    store.ledgerMaxSeq = hist.length ∧
    store.purgedIds.toFinset = (foldLedger hist).purged.toFinset

/-- What a start leaves of a consistent disk. -/
structure Started (after : Disk × Option HiveMemoryStore) (db : Database) (hist : List Line)
    (base : Nat) (fault : Fault) : Prop where
  onDisk : OnDisk host config requireMigratedIds after.1 db hist base
  serves : ∀ store, after.2 = some store → Serves config requireMigratedIds after.1 hist store
  ready : fault = .none → ∃ store, after.2 = some store ∧ store.state = .ready

/-- How the phases of a write end. -/
structure Phases (after : After Published) (store : HiveMemoryStore) (db' : Database)
    (hist : List Line) (line : Line) : Prop where
  onDisk : OnDisk host config requireMigratedIds after.disk db' (hist ++ [line]) hist.length
  ends : (after.store = none ∧ after.answer = none) ∨
    (after.store = some (store.fail .ledgerIoError (some "EIO")) ∧ after.answer = some .failed) ∨
    (after.store = some { store with ledgerMaxSeq := db'.writeSeq } ∧ after.answer = some .done ∧
      after.disk.ledger = some (fileBytes (hist ++ [line])))

end Disks

section Restarting

variable {host : Host} {config : Config} {requireMigratedIds : List String} {disk : Disk}
  {db : Database} {hist : List Line} {base : Nat} {store : HiveMemoryStore} {fault : Fault}

/-- The reader finds the first lines of the history, and a repair leaves exactly these. -/
theorem OnDisk.read (on : OnDisk host config requireMigratedIds disk db hist base) :
    ∃ count read, base ≤ count ∧ count ≤ hist.length ∧ readLedger disk.ledger = .ok read ∧
      read.lines = hist.take count ∧ (disk.repair read).ledger.getD [] = fileBytes (hist.take count) ∧
      (count ≠ 0 → (disk.repair read).ledger.isSome) := by
  cases ledger : disk.ledger with
  | none =>
      have kept := on.kept
      rw [ledger] at kept
      have zero : base = 0 := by
        have nothing := (joinLines_eq_nil newline).mp (List.prefix_nil.mp kept)
        rw [List.map_eq_nil_iff, List.take_eq_nil_iff] at nothing
        exact nothing.resolve_right on.recorded.nonempty
      refine ⟨0, _, zero.le, Nat.zero_le _, rfl, by simp, ?_, fun differ => absurd rfl differ⟩
      simp [Disk.repair, ledger, fileBytes]
  | some file =>
      have inside := on.inside
      have kept := on.kept
      rw [ledger] at inside kept
      obtain ⟨count, bounded, read, whole, landed⟩ := readLedger_prefix on.recorded.chain inside
      refine ⟨count, _, landed base on.recorded.base_lt.le kept, bounded, read, rfl, ?_, fun _ => ?_⟩
      · rw [Disk.repair]
        dsimp only
        split_ifs with torn
        · rfl
        · -- nothing was cut, so the file is what is kept
          rw [ledger, Option.getD_some]
          rw [decide_eq_true_iff, not_lt] at torn
          exact (whole.eq_of_length_le torn).symm
      · rw [Disk.repair]
        split_ifs
        · rfl
        · rw [ledger]
          rfl

theorem OnDisk.ledger (on : OnDisk host config requireMigratedIds disk db hist base)
    {ledger : Option (List UInt8)} (kept : fileBytes (hist.take base) <+: ledger.getD [])
    (inside : ledger.getD [] <+: fileBytes hist) :
    OnDisk host config requireMigratedIds { disk with ledger } db hist base :=
  ⟨on.recorded, on.database, on.present, kept, inside⟩

/-- Appending the lines the ledger lacks, interrupted or not. -/
theorem OnDisk.append (on : OnDisk host config requireMigratedIds disk db hist base) {count : Nat}
    (landed : base ≤ count) (ledger : disk.ledger.getD [] = fileBytes (hist.take count))
    {line : String} (bytes : appendBytes line = fileBytes (hist.drop count)) (fault : Fault) :
    OnDisk host config requireMigratedIds (appendLedgerLine disk line fault).1 db hist base ∧
      ((appendLedgerLine disk line fault).2 = .written →
        (appendLedgerLine disk line fault).1.ledger = some (fileBytes hist)) := by
  obtain ⟨written, left, whole, -⟩ := appendLedgerLine_cases disk line fault
  have split : fileBytes hist = fileBytes (hist.take count) ++ fileBytes (hist.drop count) := by
    rw [← fileBytes_append, List.take_append_drop]
  rw [left, ledger, bytes]
  constructor
  · refine on.ledger ?_ ?_
    · have shorter : hist.take base = (hist.take count).take base := by
        rw [List.take_take, min_eq_left landed]
      rw [shorter]
      exact (prefix_fileBytes_take _ _).trans (List.prefix_append _ _)
    · rw [split, Option.getD_some, List.prefix_append_right_inj]
      exact List.take_prefix _ _
  · intro done
    have all := whole done
    rw [bytes] at all
    show some _ = _
    rw [List.take_of_length_le all, split]

theorem OnDisk.started (on : OnDisk host config requireMigratedIds disk db hist base)
    (whole : disk.ledger = some (fileBytes hist)) (configured : store.config = some config)
    (required : store.requireMigratedIds = requireMigratedIds) :
    Started host config requireMigratedIds (disk, some (readyWith store hist)) db hist base fault := by
  refine ⟨on, ?_, fun _ => ⟨_, rfl, rfl⟩⟩
  intro other same
  obtain rfl := Option.some.inj same
  exact ⟨configured, required, fun _ => ⟨whole, on.recorded.chain.maxSeq, rfl⟩⟩

/-- The rest of a start, once the ledger holds the lines up to `count`. -/
theorem OnDisk.started_with (on : OnDisk host config requireMigratedIds disk db hist base)
    {count : Nat} (landed : base ≤ count) (some_lines : count ≠ 0) (bounded : count ≤ hist.length)
    (ledger : disk.ledger = some (fileBytes (hist.take count)))
    (configured : store.config = some config)
    (required : store.requireMigratedIds = requireMigratedIds) :
    Started host config requireMigratedIds
      (reconcileWith host disk store config db (hist.take count) fault) db hist base fault := by
  have chain := on.recorded.chain
  have size : (hist.take count).length = count := by
    rw [List.length_take, min_eq_left bounded]
  have sameStore : some db.storeId = (foldLedger (hist.take count)).storeId := by
    have nonempty : hist.take count ≠ [] :=
      List.ne_nil_of_length_pos (by rw [size]; exact Nat.pos_of_ne_zero some_lines)
    rw [(chain.take count).storeId, ← on.recorded.store]
    conv_lhs => rw [← List.take_append_drop count hist]
    exact storeOf_append nonempty
  have resurrected : (db.events.ids.filter (foldLedger (hist.take count)).purged.has).size = 0 := by
    rw [JsSet.size_eq_zero, JsSet.toFinset_filter, Finset.filter_eq_empty_iff]
    intro id stored dead
    exact Finset.disjoint_left.mp on.recorded.unpurged stored
      (purged_take count (JsSet.has_iff.mp dead))
  unfold reconcileWith
  dsimp only
  rw [if_neg (not_not.mpr sameStore), if_neg (not_not.mpr resurrected), (chain.take count).maxSeq,
    size, on.recorded.writeSeq]
  rcases bounded.lt_or_eq with short | full
  · rw [if_pos short, on.recorded.pendingReplay_eq landed short]
    have bytes : appendBytes ("\n".intercalate ((hist.drop count).map Line.raw)) =
        fileBytes (hist.drop count) :=
      appendBytes_intercalate (List.ne_nil_of_length_pos (by rw [List.length_drop]; omega))
    have appended := on.append landed (by rw [ledger]; rfl) bytes fault
    have quiet : fault = .none → (appendLedgerLine disk
        ("\n".intercalate ((hist.drop count).map Line.raw)) fault).2 = .written :=
      (appendLedgerLine_cases disk _ fault).choose_spec.2.2
    dsimp only
    split
    next after eq =>
      rw [eq] at appended quiet
      exact ⟨appended.1, nofun, fun none => nomatch quiet none⟩
    next after eq =>
      rw [eq] at appended quiet
      refine ⟨appended.1, ?_, fun none => nomatch quiet none⟩
      intro other same
      obtain rfl := Option.some.inj same
      exact ⟨configured, required, nofun⟩
    next after eq =>
      rw [eq] at appended
      rw [foldl_applyLedgerRecord, foldl_foldStep_take]
      have same : compareWithLedger store db { foldLedger hist with
          lastRaw := (foldLedger (hist.take count)).lastRaw } = readyWith store hist :=
        on.recorded.compareWithLedger_eq
      rw [same]
      exact appended.1.started (appended.2 rfl) configured required
  · have all : hist.take count = hist := by rw [full, List.take_length]
    rw [if_neg (by omega), all, on.recorded.compareWithLedger_eq]
    exact on.started (by rw [ledger, all]) configured required

/-- A start from a consistent disk, interrupted or not. -/
theorem OnDisk.reconciled (on : OnDisk host config requireMigratedIds disk db hist base)
    (store : HiveMemoryStore) (configured : store.config = some config)
    (required : store.requireMigratedIds = requireMigratedIds) (fault : Fault) :
    Started host config requireMigratedIds (reconcile host disk store fault) db hist base fault := by
  obtain ⟨count, read, landed, bounded, reads, lines, ledger, present⟩ := on.read
  have repaired : OnDisk host config requireMigratedIds (disk.repair read) db hist base := by
    have same : disk.repair read = { disk with ledger := (disk.repair read).ledger } := by
      unfold Disk.repair
      split_ifs <;> rfl
    rw [same]
    refine on.ledger ?_ ?_
    · rw [ledger, show hist.take base = (hist.take count).take base by
        rw [List.take_take, min_eq_left landed]]
      exact prefix_fileBytes_take _ _
    · rw [ledger]
      exact prefix_fileBytes_take _ _
  have opened : reconcile host disk store fault =
      if read.lines.isEmpty then reconcileGenesis host (disk.repair read) store config db fault
      else reconcileWith host (disk.repair read) store config db read.lines fault := by
    unfold reconcile
    rw [configured, on.database]
    cases main : disk.main with
    | absent => exact absurd main on.present
    | blank => rw [reads]
    | store db => rw [reads]
  rw [opened, lines]
  by_cases none : count = 0
  · -- the ledger has no line: the history is the genesis, still staged
    have zero : base = 0 := by omega
    obtain ⟨line, rfl, raw, replay⟩ := on.recorded.genesisReplay_eq zero required
    have writeSeq : db.writeSeq = 1 := on.recorded.writeSeq
    rw [none, List.take_zero, if_pos (show ([] : List Line).isEmpty = true from rfl)]
    have bytes : appendBytes db.pendingLedger = fileBytes ([line].drop 0) := by
      rw [raw]
      exact appendBytes_line line
    have appended := repaired.append zero.le (by rw [ledger, none]) bytes fault
    have quiet : fault = .none →
        (appendLedgerLine (disk.repair read) db.pendingLedger fault).2 = .written :=
      (appendLedgerLine_cases _ _ fault).choose_spec.2.2
    unfold reconcileGenesis
    rw [if_neg (by omega), replay]
    dsimp only
    split
    next after eq =>
      rw [eq] at appended quiet
      exact ⟨appended.1, nofun, fun none => nomatch quiet none⟩
    next after eq =>
      rw [eq] at appended quiet
      refine ⟨appended.1, ?_, fun none => nomatch quiet none⟩
      intro other same
      obtain rfl := Option.some.inj same
      exact ⟨configured, required, nofun⟩
    next after eq =>
      rw [eq] at appended
      have itself : (⟨db.pendingLedger, line.record⟩ : Line) = line := by rw [raw]
      rw [itself]
      exact appended.1.started_with (by omega) Nat.one_ne_zero le_rfl (appended.2 rfl) configured
        required
  · have nonempty : ¬ (hist.take count).isEmpty = true := by
      rw [List.isEmpty_iff, List.take_eq_nil_iff]
      exact fun empty => empty.elim none on.recorded.nonempty
    rw [if_neg nonempty]
    obtain ⟨bytes, stored⟩ := Option.isSome_iff_exists.mp (present none)
    refine repaired.started_with landed none bounded ?_ configured required
    rw [stored] at ledger ⊢
    rw [← ledger]
    rfl

end Restarting

/-! ### The three phases of a write -/

section Writing

variable {host : Host} {config : Config} {requireMigratedIds : List String} {disk : Disk}
  {db db' : Database} {hist : List Line} {base : Nat} {store : HiveMemoryStore} {line : Line}
  {nowSec : Int}

@[simp] theorem Disk.database_checkpoint : disk.checkpoint.database = disk.database := by
  unfold Disk.checkpoint
  cases wal : disk.wal with
  | none => rfl
  | some db => simp [Disk.database, wal, DbFile.database]

@[simp] theorem Disk.ledger_checkpoint : disk.checkpoint.ledger = disk.ledger := by
  unfold Disk.checkpoint
  cases disk.wal <;> rfl

theorem OnDisk.checkpoint (on : OnDisk host config requireMigratedIds disk db hist base) :
    OnDisk host config requireMigratedIds disk.checkpoint db hist base := by
  refine ⟨on.recorded, ?_, ?_, ?_, ?_⟩
  · rw [Disk.database_checkpoint, on.database]
  · unfold Disk.checkpoint
    cases disk.wal with
    | none => exact on.present
    | some db => exact nofun
  · rw [Disk.ledger_checkpoint]
    exact on.kept
  · rw [Disk.ledger_checkpoint]
    exact on.inside

/-- The phases of a write, interrupted anywhere: nothing was committed, or the disk is one of the
longer history. -/
theorem OnDisk.publish (on : OnDisk host config requireMigratedIds disk db hist base)
    (store : HiveMemoryStore)
    (whole : disk.ledger = some (fileBytes hist))
    (recorded : Recorded host config requireMigratedIds db' (hist ++ [line]) hist.length)
    (staged : db'.pendingLedger = line.raw) (fault : Fault) :
    publish disk store db' fault = ⟨disk, none, none⟩ ∨
      Phases host config requireMigratedIds (publish disk store db' fault) store db' hist line := by
  have committed : OnDisk host config requireMigratedIds (disk.commit db') db' (hist ++ [line])
      hist.length := by
    refine ⟨recorded, rfl, on.present, ?_, ?_⟩
    · rw [List.take_left]
      show _ <+: disk.ledger.getD []
      rw [whole]
      exact List.prefix_rfl
    · show disk.ledger.getD [] <+: _
      rw [whole, fileBytes_append]
      exact List.prefix_append _ _
  have bytes : appendBytes db'.pendingLedger = fileBytes ((hist ++ [line]).drop hist.length) := by
    rw [List.drop_left, staged]
    exact appendBytes_line line
  have ledger : (disk.commit db').ledger.getD [] =
      fileBytes ((hist ++ [line]).take hist.length) := by
    rw [List.take_left]
    show disk.ledger.getD [] = _
    rw [whole]
    rfl
  have appended := committed.append le_rfl ledger bytes fault
  unfold Store.publish
  cases fault with
  | beforeCommit => exact Or.inl rfl
  | afterCommit => exact Or.inr ⟨committed, Or.inl ⟨rfl, rfl⟩⟩
  | inAppend written => exact Or.inr ⟨appended.1, Or.inl ⟨rfl, rfl⟩⟩
  | appendFails written => exact Or.inr ⟨appended.1, Or.inr (Or.inl ⟨rfl, rfl⟩)⟩
  | none => exact Or.inr ⟨appended.1, Or.inr (Or.inr ⟨rfl, rfl, appended.2 rfl⟩)⟩

/-- A genesis on a disk that holds nothing: it did not commit, or the disk has its history. -/
theorem genesis_onDisk {storeId : StoreId} {events : Option (List Checked)}
    (empty : disk.database = none) (blank : disk.ledger.getD [] = [])
    (entered : Entered host config (events.getD []))
    (required : ∀ list, events = some list →
      ∀ id ∈ requireMigratedIds, id ∈ list.map fun v => v.ev.id) (fault : Fault) :
    ((genesis disk storeId.1 events nowSec fault).disk.database = none ∧
        (genesis disk storeId.1 events nowSec fault).disk.ledger.getD [] = []) ∨
      ∃ db hist, Begins host config db hist ∧ OnDisk host config requireMigratedIds
        (genesis disk storeId.1 events nowSec fault).disk db hist 0 := by
  have noWal : disk.wal = none := by
    cases wal : disk.wal with
    | none => rfl
    | some db => simp [Disk.database, wal] at empty
  have stillEmpty : ({ disk with main := .blank } : Disk).database = none := by
    simp [Disk.database, noWal, DbFile.database]
  have ledgerEmpty : ¬ disk.ledger.any (!·.isEmpty) = true := by
    cases ledger : disk.ledger with
    | none => exact nofun
    | some bytes => simpa [ledger] using blank
  unfold genesis
  dsimp only
  rw [empty, if_neg (by simp), if_neg ledgerEmpty]
  cases created : genesisDatabase storeId.1 (events.getD []) nowSec with
  | none => exact Or.inl ⟨stillEmpty, blank⟩
  | some db =>
      have named : storeId.1 ≠ "" := by
        intro none
        have uuid := storeId.2
        rw [none] at uuid
        exact absurd uuid (by decide)
      have recorded : Recorded host config requireMigratedIds _ _ 0 :=
        recorded_genesis named (fun v member => (entered v member).1) required created
      have begins : Begins host config _ _ := .genesis entered created
      have bytes : appendBytes (db.stage (genesisPayload events) nowSec).pendingLedger =
          fileBytes ([stagedLine db (genesisPayload events) nowSec].drop 0) := by
        rw [List.drop_zero, ← appendBytes_line]
        rfl
      have committed : OnDisk host config requireMigratedIds
          (({ disk with main := .blank } : Disk).commit (db.stage (genesisPayload events) nowSec))
          (db.stage (genesisPayload events) nowSec) [stagedLine db (genesisPayload events) nowSec]
          0 := by
        refine ⟨recorded, rfl, nofun, List.nil_prefix, ?_⟩
        show disk.ledger.getD [] <+: _
        rw [blank]
        exact List.nil_prefix
      have ledger : (({ disk with main := .blank } : Disk).commit
          (db.stage (genesisPayload events) nowSec)).checkpoint.ledger.getD [] =
            fileBytes ([stagedLine db (genesisPayload events) nowSec].take 0) := blank
      have appended := (committed.checkpoint.append le_rfl ledger bytes fault).1
      cases fault with
      | beforeCommit => exact Or.inl ⟨stillEmpty, blank⟩
      | afterCommit => exact Or.inr ⟨_, _, begins, committed⟩
      | inAppend written => exact Or.inr ⟨_, _, begins, appended⟩
      | appendFails written => exact Or.inr ⟨_, _, begins, appended⟩
      | none => exact Or.inr ⟨_, _, begins, appended⟩

end Writing

/-! ### Runs -/

section Runs

variable {host : Host} {config : Config} {requireMigratedIds : List String} {w : World}
  {db : Database} {hist : List Line} {base : Nat}

section Worlds

variable (host : Host) (config : Config) (requireMigratedIds : List String)

/-- No genesis has committed yet. -/
structure Unborn (w : World) : Prop where
  database : w.disk.database = none
  ledger : w.disk.ledger.getD [] = []
  process : ∀ store, w.process = some store → store.config = some config ∧
    store.requireMigratedIds = requireMigratedIds ∧ store.state ≠ .ready

/-- A store with that history, and the process that serves it. -/
structure Alive (w : World) (db : Database) (hist : List Line) (base : Nat) : Prop where
  past : Past host config db hist
  onDisk : OnDisk host config requireMigratedIds w.disk db hist base
  serves : ∀ store, w.process = some store → Serves config requireMigratedIds w.disk hist store

/-- A world one action after that store. -/
def Follows (w : World) (db : Database) (hist : List Line) : Prop :=
  ∃ db' hist' base', Alive host config requireMigratedIds w db' hist' base' ∧
    Moves host config db hist db' hist'

def Sound (w : World) : Prop :=
  Unborn config requireMigratedIds w ∨ ∃ db hist base, Alive host config requireMigratedIds w db hist base

end Worlds

/-- A ready process has the database and the whole history in its ledger. -/
theorem Alive.ready (alive : Alive host config requireMigratedIds w db hist base)
    {store : HiveMemoryStore} (served : w.process = some store) (ready : store.state = .ready) :
    w.disk.ledger = some (fileBytes hist) ∧ store.ledgerMaxSeq = hist.length ∧
      store.purgedIds.toFinset = (foldLedger hist).purged.toFinset :=
  (alive.serves store served).ready ready

theorem Alive.disk (alive : Alive host config requireMigratedIds w db hist base)
    {store : HiveMemoryStore} (served : w.process = some store) :
    Alive host config requireMigratedIds ⟨w.disk, some store⟩ db hist base :=
  ⟨alive.past, alive.onDisk, fun _ same => alive.serves _ (served.trans same)⟩

theorem Alive.stopped (alive : Alive host config requireMigratedIds w db hist base) :
    Alive host config requireMigratedIds ⟨w.disk, none⟩ db hist base := by
  refine ⟨alive.past, alive.onDisk, fun store served => ?_⟩
  cases served

theorem Alive.follows (alive : Alive host config requireMigratedIds w db hist base) :
    Follows host config requireMigratedIds w db hist :=
  ⟨db, hist, base, alive, .stays⟩

/-- The phases of a write of a ready process. The store object after a write that ended well may
know of more purged ids. -/
theorem Alive.phases (alive : Alive host config requireMigratedIds w db hist base)
    {store : HiveMemoryStore} (served : w.process = some store) {db' : Database} {line : Line}
    {after : After Published} (moves : Moves host config db hist db' (hist ++ [line]))
    (phases : Phases host config requireMigratedIds after store db' hist line) (more : JsSet String)
    (purged : more.toFinset = (foldLedger (hist ++ [line])).purged.toFinset) :
    Alive host config requireMigratedIds ⟨after.disk, match after.answer with
      | some .done => after.store.map fun store => { store with purgedIds := more }
      | _ => after.store⟩ db' (hist ++ [line]) hist.length := by
  have serves := alive.serves store served
  refine ⟨alive.past.moves moves, phases.onDisk, fun other same => ?_⟩
  rcases phases.ends with ⟨died, silent⟩ | ⟨failed, told⟩ | ⟨done, told, whole⟩
  · rw [died, silent] at same
    nomatch same
  · rw [failed, told] at same
    obtain rfl := Option.some.inj same
    exact ⟨serves.config, serves.required, nofun⟩
  · rw [done, told] at same
    obtain rfl := Option.some.inj same
    refine ⟨serves.config, serves.required, fun _ => ⟨whole, ?_, purged⟩⟩
    exact phases.onDisk.recorded.writeSeq

theorem Alive.submit (alive : Alive host config requireMigratedIds w db hist base)
    {store : HiveMemoryStore} (served : w.process = some store) (req : SubmitRequest) (fault : Fault) :
    Follows host config requireMigratedIds
      ⟨(submit host w.disk store req fault).disk, (submit host w.disk store req fault).store⟩ db
      hist := by
  have unchanged := (alive.disk served).follows
  unfold Store.submit
  cases checks : submitChecks host w.disk store req with
  | error refusal => exact unchanged
  | ok admitted =>
      obtain ⟨config', passed⟩ := submitChecks_eq_ok.mp checks
      obtain ⟨current, writer, v⟩ := admitted
      have sameDb : current = db :=
        Option.some.inj (passed.database.symm.trans alive.onDisk.database)
      have sameConfig : config' = config :=
        Option.some.inj (passed.configured.symm.trans (alive.serves store served).config)
      subst sameDb sameConfig
      obtain ⟨whole, maxSeq, purged⟩ := alive.ready served passed.ready
      have ends := @submitTx_ends current writer v req.expectedPriorId req.nowSec
      dsimp only
      generalize submitTx current writer v req.expectedPriorId req.nowSec = tx at ends
      cases ends with
      | replay existing stored =>
          have level : current.writeSeq = store.ledgerMaxSeq := by
            rw [alive.onDisk.recorded.writeSeq, maxSeq]
          have answered : answerReplay w.disk store current existing.id existing.status fault =
              ⟨w.disk, some store, some (.accepted existing.id existing.status true)⟩ := by
            unfold answerReplay
            rw [if_neg (by omega), if_pos level]
          dsimp only
          rw [answered]
          exact unchanged
      | refused refusal => exact unchanged
      | failed => exact unchanged
      | staged db' absent prior newer active underCap submitted =>
          have notPurged : v.ev.id ∉ (foldLedger hist).purged.toFinset := by
            rw [← purged]
            exact passed.unpurged
          have recorded := alive.onDisk.recorded.submit submitted passed.checked notPurged
          have moves := Moves.submits passed notPurged
            (.staged db' absent prior newer active underCap submitted)
          dsimp only
          rcases alive.onDisk.publish store whole recorded submitted.staged fault with
            died | phases
          · rw [died]
            exact alive.stopped.follows
          · have later := alive.phases served moves phases store.purgedIds (by
              rw [purged, foldLedger_snoc, foldStep_purged, if_neg nofun, Finset.union_empty])
            refine ⟨db', _, _, ⟨later.past, later.onDisk, fun other same => later.serves other ?_⟩, moves⟩
            rcases phases.ends with ⟨died, silent⟩ | ⟨failed, told⟩ | ⟨done, told, -⟩
            · rw [silent]
              exact same
            · rw [told]
              exact same
            · rw [told]
              rw [done] at same ⊢
              exact same

theorem Alive.purge (alive : Alive host config requireMigratedIds w db hist base)
    {store : HiveMemoryStore} (served : w.process = some store) (ready : store.state = .ready)
    {ids : List String} (stored : ∀ id ∈ ids, id ∈ db.events.ids.toFinset) (reason : String)
    (nowSec : Int) (fault : Fault) :
    Follows host config requireMigratedIds
      ⟨(purge w.disk store db ids reason nowSec fault).disk,
        (purge w.disk store db ids reason nowSec fault).store⟩ db hist := by
  obtain ⟨whole, -, purged⟩ := alive.ready served ready
  have recorded := alive.onDisk.recorded.purge stored reason nowSec
  have moves : Moves host config db hist _ _ := Moves.purges ids reason nowSec stored
  unfold Store.purge
  by_cases nothing : ids.isEmpty
  · rw [if_pos nothing]
    exact (alive.disk served).follows
  rw [if_neg nothing]
  dsimp only
  rcases alive.onDisk.publish store whole recorded rfl fault with died | phases
  · rw [died]
    exact alive.stopped.follows
  · have known : (ids.foldl JsSet.add store.purgedIds).toFinset = (foldLedger (hist ++
        [stagedLine db (.purge (sortIds ids) reason) nowSec])).purged.toFinset := by
      rw [JsSet.toFinset_foldl_add, purged, foldLedger_snoc, foldStep_purged,
        if_pos (show (stagedLine db _ nowSec).record.op = .purge from rfl)]
      show _ = _ ∪ (sortIds ids).toFinset
      rw [toFinset_sortIds]
    have later := alive.phases served moves phases _ known
    refine ⟨purgeTx db ids reason nowSec,
      hist ++ [stagedLine db (.purge (sortIds ids) reason) nowSec], hist.length, ?_, moves⟩
    generalize publish w.disk store (purgeTx db ids reason nowSec) fault = after at phases later ⊢
    obtain ⟨disk, after, answer⟩ := after
    rcases phases.ends with ⟨died, silent⟩ | ⟨failed, told⟩ | ⟨done, told, -⟩
    · obtain rfl : after = none := died
      obtain rfl : answer = none := silent
      exact later
    · obtain rfl := failed
      obtain rfl := told
      exact later
    · obtain rfl := done
      obtain rfl := told
      refine ⟨later.past, later.onDisk.checkpoint, fun other same => ?_⟩
      have serves := later.serves other same
      refine ⟨serves.config, serves.required, fun isReady => ?_⟩
      rw [Disk.ledger_checkpoint]
      exact serves.ready isReady

theorem Alive.serve (alive : Alive host config requireMigratedIds w db hist base) {α : Type}
    (operation : Disk → HiveMemoryStore → After α)
    (kept : ∀ store, w.process = some store → Follows host config requireMigratedIds
      ⟨(operation w.disk store).disk, (operation w.disk store).store⟩ db hist) :
    Follows host config requireMigratedIds (w.serve operation) db hist := by
  unfold World.serve
  cases served : w.process with
  | none => exact alive.follows
  | some store => exact kept store served

theorem DeleteTarget.mem_ids {target : DeleteTarget} {events : Events} {id : String}
    (named : id ∈ target.ids events.rows) : id ∈ events.ids.toFinset := by
  cases target with
  | byKey d =>
      obtain ⟨row, member, rfl⟩ := List.mem_map.mp named
      exact Events.mem_ids.mpr ⟨row, List.mem_of_mem_filter member, rfl⟩
  | byId other =>
      obtain ⟨row, member, rfl⟩ := List.mem_map.mp named
      exact Events.mem_ids.mpr ⟨row, List.mem_of_mem_filter member, rfl⟩

theorem mem_retentionDue {nowSec : Int} {id : String} (due : id ∈ retentionDue db nowSec) :
    id ∈ db.events.ids.toFinset := by
  obtain ⟨row, member, rfl⟩ := List.mem_map.mp due
  exact Events.mem_ids.mpr ⟨row, List.mem_of_mem_filter member, rfl⟩

/-- Every action keeps a store and its history together. -/
theorem alive_step (alive : Alive host config requireMigratedIds w db hist base) (action : Action) :
    Follows host config requireMigratedIds (step host config requireMigratedIds w action) db hist := by
  have itself := alive.follows
  cases action with
  | initEmptyStore storeId nowSec fault =>
      show Follows _ _ _ (if w.process.isSome then w else _) db hist
      split_ifs
      · exact itself
      · have refused : (initEmptyStore w.disk storeId nowSec fault).disk = w.disk := by
          unfold initEmptyStore genesis
          dsimp only
          rw [alive.onDisk.database, if_pos (by simp)]
        rw [refused]
        exact alive.stopped.follows
  | migrateStoreJson entries storeId nowSec fault =>
      show Follows _ _ _ (if w.process.isSome then w else _) db hist
      split_ifs
      · exact itself
      · have refused : (migrateStoreJson host w.disk config requireMigratedIds entries storeId nowSec
            fault).disk = w.disk := by
          unfold migrateStoreJson
          cases checkEntries host config 0 [] entries with
          | error e => rfl
          | ok events =>
              dsimp only
              split_ifs
              · rfl
              · unfold genesis
                dsimp only
                rw [alive.onDisk.database, if_pos (by simp)]
        rw [refused]
        exact alive.stopped.follows
  | start fault =>
      show Follows _ _ _ (if w.process.isSome then w else _) db hist
      split_ifs
      · exact itself
      · have started := alive.onDisk.reconciled (.create (some config) requireMigratedIds) rfl rfl
          fault
        exact ⟨db, hist, base, ⟨alive.past, started.onDisk, started.serves⟩, .stays⟩
  | setConfig fault =>
      unfold step
      dsimp only
      cases served : w.process with
      | none => exact itself
      | some store =>
          have serves := alive.serves store served
          dsimp only
          unfold Store.setConfig
          dsimp only
          split_ifs with failed
          · have started := alive.onDisk.reconciled
              { store with config := some config, configError := none } rfl serves.required fault
            exact ⟨db, hist, base, ⟨alive.past, started.onDisk, started.serves⟩, .stays⟩
          · refine ⟨db, hist, base, ⟨alive.past, alive.onDisk, fun other same => ?_⟩, .stays⟩
            obtain rfl := Option.some.inj same
            exact ⟨rfl, serves.required, serves.ready⟩
  | lookupPrior writer d => exact itself
  | submit req fault =>
      exact alive.serve (fun disk store => Store.submit host disk store req fault)
        fun store served => alive.submit served req fault
  | hardDelete target nowSec fault =>
      refine alive.serve (fun disk store => Store.hardDelete disk store target nowSec fault)
        fun store served => ?_
      unfold Store.hardDelete
      rw [alive.onDisk.database]
      cases ready : store.state with
      | ready =>
          dsimp only
          split_ifs
          · exact (alive.disk served).follows
          · exact alive.purge served ready (fun id named => DeleteTarget.mem_ids named) _ _ _
      | _ => exact (alive.disk served).follows
  | purgeRetention nowSec fault =>
      refine alive.serve (fun disk store => Store.purgeRetention disk store nowSec fault)
        fun store served => ?_
      unfold Store.purgeRetention
      rw [alive.onDisk.database]
      cases ready : store.state with
      | ready => exact alive.purge served ready (fun id due => mem_retentionDue due) _ _ _
      | _ => exact (alive.disk served).follows
  | recordVerifiedBackup receipt =>
      have on := alive.onDisk
      refine ⟨db, hist, base, ⟨alive.past, ⟨on.recorded, on.database, on.present, on.kept, on.inside⟩, ?_⟩,
        .stays⟩
      intro store served
      have serves := alive.serves store served
      exact ⟨serves.config, serves.required, serves.ready⟩
  | checkpoint =>
      refine ⟨db, hist, base, ⟨alive.past, alive.onDisk.checkpoint, fun store served => ?_⟩, .stays⟩
      have serves := alive.serves store served
      refine ⟨serves.config, serves.required, fun ready => ?_⟩
      show w.disk.checkpoint.ledger = _ ∧ _
      rw [Disk.ledger_checkpoint]
      exact serves.ready ready
  | crash => exact alive.stopped.follows

theorem Unborn.serve (unborn : Unborn config requireMigratedIds w) {α : Type}
    (operation : Disk → HiveMemoryStore → After α)
    (kept : ∀ store, store.state ≠ .ready →
      (operation w.disk store).disk = w.disk ∧ (operation w.disk store).store = some store) :
    Unborn config requireMigratedIds (w.serve operation) := by
  unfold World.serve
  cases served : w.process with
  | none => exact unborn
  | some store =>
      obtain ⟨configured, required, notReady⟩ := unborn.process store served
      obtain ⟨disk, same⟩ := kept store notReady
      refine ⟨?_, ?_, ?_⟩
      · show (operation w.disk store).disk.database = none
        rw [disk, unborn.database]
      · show (operation w.disk store).disk.ledger.getD [] = []
        rw [disk, unborn.ledger]
      · intro other after
        obtain rfl := Option.some.inj (same.symm.trans after)
        exact ⟨configured, required, notReady⟩

/-- A start finds no store before a genesis has committed. -/
theorem Unborn.reconciled (host : Host) (unborn : Unborn config requireMigratedIds w)
    (store : HiveMemoryStore)
    (configured : store.config = some config) (fault : Fault) :
    ∃ detail, reconcile host w.disk store fault =
      (w.disk, some (store.fail .dbMissingOrUninitialized detail)) := by
  unfold reconcile
  rw [configured, unborn.database]
  cases w.disk.main with
  | absent => exact ⟨_, rfl⟩
  | blank => exact ⟨_, rfl⟩
  | store db => exact ⟨_, rfl⟩

variable (host config requireMigratedIds) in
/-- No genesis has committed, or one has just begun a store. -/
def Opens (w : World) : Prop :=
  Unborn config requireMigratedIds w ∨ ∃ db hist base,
    Alive host config requireMigratedIds w db hist base ∧ Begins host config db hist

/-- A genesis in a world where none has committed. -/
theorem Unborn.genesis (unborn : Unborn config requireMigratedIds w) {storeId : StoreId}
    {events : Option (List Checked)} {nowSec : Int}
    (entered : Entered host config (events.getD []))
    (required : ∀ list, events = some list →
      ∀ id ∈ requireMigratedIds, id ∈ list.map fun v => v.ev.id) (fault : Fault) :
    Opens host config requireMigratedIds
      ⟨(genesis w.disk storeId.1 events nowSec fault).disk, none⟩ := by
  rcases genesis_onDisk unborn.database unborn.ledger entered required fault with
    ⟨database, ledger⟩ | ⟨db, hist, begins, on⟩
  · exact Or.inl ⟨database, ledger, nofun⟩
  · exact Or.inr ⟨db, hist, 0, ⟨⟨db, hist, begins, .refl⟩, on, nofun⟩, begins⟩

theorem Unborn.stopped (unborn : Unborn config requireMigratedIds w) :
    Unborn config requireMigratedIds ⟨w.disk, none⟩ := by
  refine ⟨unborn.database, unborn.ledger, fun store served => ?_⟩
  cases served

theorem unborn_opens (unborn : Unborn config requireMigratedIds w) (action : Action) :
    Opens host config requireMigratedIds (step host config requireMigratedIds w action) := by
  cases action with
  | initEmptyStore storeId nowSec fault =>
      show Opens _ _ _ (if w.process.isSome then w else _)
      split_ifs
      · exact Or.inl unborn
      · refine unborn.genesis ?_ ?_ fault
        · exact fun v member => absurd member List.not_mem_nil
        · intro list same
          cases same
  | migrateStoreJson entries storeId nowSec fault =>
      show Opens _ _ _ (if w.process.isSome then w else _)
      split_ifs
      · exact Or.inl unborn
      · unfold migrateStoreJson
        cases checks : checkEntries host config 0 [] entries with
        | error e => exact Or.inl unborn.stopped
        | ok events =>
            dsimp only
            split_ifs with absent
            · exact Or.inl unborn.stopped
            · refine unborn.genesis ?_ ?_ fault
              · intro v member
                obtain ⟨event, -, passes⟩ := (checkEntries_eq_ok checks).1 v member
                exact ⟨⟨event, passes⟩, (checkEntries_eq_ok checks).2.1 v member⟩
              · intro list same id wanted
                obtain rfl := Option.some.inj same
                simpa using List.filter_eq_nil_iff.mp (not_not.mp absent) id wanted
  | start fault =>
      show Opens _ _ _ (if w.process.isSome then w else _)
      split_ifs
      · exact Or.inl unborn
      · obtain ⟨detail, failed⟩ := unborn.reconciled host
          (.create (some config) requireMigratedIds) rfl fault
        rw [failed]
        refine Or.inl ⟨unborn.database, unborn.ledger, fun store same => ?_⟩
        obtain rfl := Option.some.inj same
        exact ⟨rfl, rfl, fun ready => by cases ready⟩
  | setConfig fault =>
      unfold step
      dsimp only
      cases served : w.process with
      | none => exact Or.inl unborn
      | some store =>
          obtain ⟨-, required, notReady⟩ := unborn.process store served
          obtain ⟨detail, failed⟩ := unborn.reconciled host
            { store with config := some config, configError := none } rfl fault
          unfold Store.setConfig
          dsimp only
          rw [if_pos notReady, failed]
          refine Or.inl ⟨unborn.database, unborn.ledger, fun other same => ?_⟩
          obtain rfl := Option.some.inj same
          exact ⟨rfl, required, fun ready => by cases ready⟩
  | lookupPrior writer d => exact Or.inl unborn
  | submit req fault =>
      refine Or.inl (unborn.serve (fun disk store => Store.submit host disk store req fault)
        fun store notReady => ?_)
      unfold Store.submit
      cases checks : submitChecks host w.disk store req with
      | error refusal => exact ⟨rfl, rfl⟩
      | ok admitted =>
          obtain ⟨config, passed⟩ := submitChecks_eq_ok.mp checks
          exact absurd passed.ready notReady
  | hardDelete target nowSec fault =>
      refine Or.inl (unborn.serve (fun disk store => Store.hardDelete disk store target nowSec fault)
        fun store notReady => ?_)
      unfold Store.hardDelete
      rw [unborn.database]
      cases store.state <;> exact ⟨rfl, rfl⟩
  | purgeRetention nowSec fault =>
      refine Or.inl (unborn.serve (fun disk store => Store.purgeRetention disk store nowSec fault)
        fun store notReady => ?_)
      unfold Store.purgeRetention
      rw [unborn.database]
      cases store.state <;> exact ⟨rfl, rfl⟩
  | recordVerifiedBackup receipt => exact Or.inl ⟨unborn.database, unborn.ledger, unborn.process⟩
  | checkpoint =>
      refine Or.inl ⟨?_, ?_, unborn.process⟩
      · show w.disk.checkpoint.database = none
        rw [Disk.database_checkpoint, unborn.database]
      · show w.disk.checkpoint.ledger.getD [] = []
        rw [Disk.ledger_checkpoint, unborn.ledger]
  | crash => exact Or.inl unborn.stopped

theorem unborn_step (unborn : Unborn config requireMigratedIds w) (action : Action) :
    Sound host config requireMigratedIds (step host config requireMigratedIds w action) :=
  (unborn_opens unborn action).imp_right fun ⟨db, hist, base, alive, _⟩ => ⟨db, hist, base, alive⟩

/-- What every action keeps. -/
theorem sound_step (sound : Sound host config requireMigratedIds w) (action : Action) :
    Sound host config requireMigratedIds (step host config requireMigratedIds w action) := by
  rcases sound with unborn | ⟨db, hist, base, alive⟩
  · exact unborn_step unborn action
  · obtain ⟨db', hist', base', later, -⟩ := alive_step alive action
    exact Or.inr ⟨db', hist', base', later⟩

/-- What every run keeps. -/
theorem sound_run (sound : Sound host config requireMigratedIds w) (actions : List Action) :
    Sound host config requireMigratedIds (run host config requireMigratedIds w actions) := by
  induction actions generalizing w with
  | nil => exact sound
  | cons action actions ih => exact ih (sound_step sound action)

/-- A run of a store moves its database and its history any number of times. -/
theorem alive_run (alive : Alive host config requireMigratedIds w db hist base) (actions : List Action) :
    ∃ db' hist' base', Alive host config requireMigratedIds
        (run host config requireMigratedIds w actions) db' hist' base' ∧
      Reaches host config (db, hist) (db', hist') := by
  induction actions generalizing w db hist base with
  | nil => exact ⟨db, hist, base, alive, .refl⟩
  | cons action actions ih =>
      obtain ⟨db', hist', base', later, moves⟩ := alive_step alive action
      obtain ⟨db'', hist'', base'', last, reaches⟩ := ih later
      exact ⟨db'', hist'', base'', last, reaches.head moves⟩

theorem sound_empty : Sound host config requireMigratedIds World.empty :=
  Or.inl ⟨rfl, rfl, nofun⟩

/-- A store whose genesis has committed has a history. -/
theorem alive_of_committed (sound : Sound host config requireMigratedIds w)
    (committed : w.disk.database ≠ none) :
    ∃ db hist base, Alive host config requireMigratedIds w db hist base :=
  sound.resolve_left fun unborn => committed unborn.database

end Runs

/-! ### Crash safety -/

section CrashSafety

variable (host : Host) (config : Config) (requireMigratedIds : List String)

/-- The database and the ledger say the same, and so does the store object that is ready on them. -/
structure Agrees (store : HiveMemoryStore) (db : Database) (lines : List Line) : Prop where
  ready : store.state = .ready
  ids : db.events.ids.toFinset = (foldLedger lines).expected.toFinset
  writeSeq : db.writeSeq = (foldLedger lines).maxSeq
  lastPurgeSeq : db.lastPurgeSeq = (foldLedger lines).lastPurgeSeq
  storeId : some db.storeId = (foldLedger lines).storeId
  ledgerMaxSeq : store.ledgerMaxSeq = (foldLedger lines).maxSeq
  purgedIds : store.purgedIds.toFinset = (foldLedger lines).purged.toFinset
  unpurged : Disjoint db.events.ids.toFinset (foldLedger lines).purged.toFinset

/-- **Crash safety.** Once a genesis has committed, after any run, with a crash or a failing append
at any point of any operation, the next start with working I/O is ready: what was committed is
still there, and the ledger is whole and says exactly that. -/
theorem ready_after_restart (actions : List Action)
    (committed : (run host config requireMigratedIds World.empty actions).disk.database ≠ none) :
    ∃ store db lines kept,
      (restart host config requireMigratedIds
        (run host config requireMigratedIds World.empty actions)).process = some store ∧
      (run host config requireMigratedIds World.empty actions).disk.database = some db ∧
      (restart host config requireMigratedIds
        (run host config requireMigratedIds World.empty actions)).disk.database = some db ∧
      readLedger (restart host config requireMigratedIds
        (run host config requireMigratedIds World.empty actions)).disk.ledger =
          .ok ⟨false, lines, kept, false⟩ ∧
      Agrees store db lines := by
  obtain ⟨db, hist, base, alive⟩ := alive_of_committed (sound_run sound_empty actions) committed
  generalize run host config requireMigratedIds World.empty actions = w at alive
  have started := alive.onDisk.reconciled (.create (some config) requireMigratedIds) rfl rfl .none
  obtain ⟨store, served, ready⟩ := started.ready rfl
  obtain ⟨whole, maxSeq, purged⟩ := (started.serves store served).ready ready
  have recorded := alive.onDisk.recorded
  have chain := recorded.chain
  have opened : restart host config requireMigratedIds w =
      ⟨(reconcile host w.disk (.create (some config) requireMigratedIds) .none).1,
        (reconcile host w.disk (.create (some config) requireMigratedIds) .none).2⟩ := rfl
  refine ⟨store, db, hist, fileBytes hist, ?_, alive.onDisk.database, ?_, ?_, ?_⟩
  · rw [opened]
    exact served
  · rw [opened]
    exact started.onDisk.database
  · rw [opened]
    show readLedger (reconcile host w.disk _ .none).1.ledger = _
    rw [whole]
    exact readLedger_fileBytes chain
  · refine ⟨ready, recorded.expected, ?_, recorded.lastPurge, ?_, ?_, purged, recorded.unpurged⟩
    · rw [chain.maxSeq, recorded.writeSeq]
    · rw [chain.storeId, recorded.store]
    · rw [maxSeq, chain.maxSeq]

end CrashSafety

/-- A genesis whose ledger line was cut after seven bytes. -/
theorem ready_after_torn_genesis : ∃ store db lines kept,
    (restart Host.sample sampleConfig [] (run Host.sample sampleConfig [] World.empty
      [.initEmptyStore sampleStoreId 1000 (.inAppend 7)])).process = some store ∧
    (run Host.sample sampleConfig [] World.empty
      [.initEmptyStore sampleStoreId 1000 (.inAppend 7)]).disk.database = some db ∧
    (restart Host.sample sampleConfig [] (run Host.sample sampleConfig [] World.empty
      [.initEmptyStore sampleStoreId 1000 (.inAppend 7)])).disk.database = some db ∧
    readLedger (restart Host.sample sampleConfig [] (run Host.sample sampleConfig [] World.empty
      [.initEmptyStore sampleStoreId 1000 (.inAppend 7)])).disk.ledger =
        .ok ⟨false, lines, kept, false⟩ ∧
    Agrees store db lines :=
  ready_after_restart Host.sample sampleConfig []
    [.initEmptyStore sampleStoreId 1000 (.inAppend 7)] nofun

end Nvoy.Store
