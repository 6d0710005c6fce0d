/-
What the ledger records of a database.

`Recorded db hist base` says that the lines `hist` are the whole history of the database: they form
a chain, what they leave expected is what is stored, and the lines from `base` on are the ones still
staged in the database.

* `foldLedger_snoc` and the lemmas beside it — one more line of a history;
* `Recorded.submit`, `Recorded.purge`, `recorded_genesis` — each write extends the history by the
  line it stages.
-/

import Nvoy.Store.Effects

namespace Nvoy.Store

open Memory

/-! ### Folding one more line -/

section Folding

variable {fold : Fold} {lines more : List Line} {line : Line}

@[simp] theorem foldLedger_nil : foldLedger [] = .start := rfl

theorem foldLedger_snoc : foldLedger (lines ++ [line]) = foldStep (foldLedger lines) line := by
  simp [foldLedger]

theorem foldStep_purged : (foldStep fold line).purged.toFinset =
    fold.purged.toFinset ∪ (if line.record.op = .purge then line.record.ids.toFinset else ∅) := by
  unfold foldStep applyLedgerRecord
  cases op : line.record.op <;> simp [JsSet.toFinset_foldl_add]

theorem foldStep_expected : (foldStep fold line).expected.toFinset =
    match line.record.op with
    | .init => fold.expected.toFinset
    | .cutover | .submit => fold.expected.toFinset ∪ line.record.ids.toFinset
    | .purge | .restoreGapAck => fold.expected.toFinset \ line.record.ids.toFinset := by
  unfold foldStep applyLedgerRecord
  cases op : line.record.op <;>
    simp [JsSet.toFinset_foldl_add, JsSet.toFinset_foldl_delete]

theorem foldStep_lastPurgeSeq : (foldStep fold line).lastPurgeSeq =
    if line.record.op = .purge then line.record.seq else fold.lastPurgeSeq := by
  unfold foldStep applyLedgerRecord
  cases op : line.record.op <;> simp

@[simp] theorem foldStep_maxSeq : (foldStep fold line).maxSeq = line.record.seq := by
  unfold foldStep applyLedgerRecord
  cases op : line.record.op <;> rfl

@[simp] theorem foldStep_storeId :
    (foldStep fold line).storeId = (fold.storeId <|> some line.record.storeId) := by
  unfold foldStep applyLedgerRecord
  cases op : line.record.op <;> rfl

@[simp] theorem foldStep_lastRaw : (foldStep fold line).lastRaw = some line.raw := rfl

theorem purged_mono_foldl (fold : Fold) : fold.purged.toFinset ⊆ (more.foldl foldStep fold).purged.toFinset := by
  induction more generalizing fold with
  | nil => exact Finset.Subset.refl _
  | cons line more ih =>
      refine Finset.Subset.trans ?_ (ih (foldStep fold line))
      rw [foldStep_purged]
      exact Finset.subset_union_left

/-- A purged id stays purged. -/
theorem purged_mono : (foldLedger lines).purged.toFinset ⊆
    (foldLedger (lines ++ more)).purged.toFinset := by
  rw [foldLedger, foldLedger, List.foldl_append]
  exact purged_mono_foldl _

theorem purged_take (count : Nat) : (foldLedger (lines.take count)).purged.toFinset ⊆
    (foldLedger lines).purged.toFinset := by
  conv_rhs => rw [← List.take_append_drop count lines]
  exact purged_mono

/-- Applying the records alone folds all but the last raw line. -/
theorem foldl_applyLedgerRecord :
    (lines.map Line.record).foldl applyLedgerRecord fold =
      { lines.foldl foldStep fold with lastRaw := fold.lastRaw } := by
  have forget : ∀ (fold : Fold) (raw : Option String) (record : Record),
      applyLedgerRecord { fold with lastRaw := raw } record =
        { applyLedgerRecord fold record with lastRaw := raw } := by
    intro fold raw record
    unfold applyLedgerRecord
    cases record.op <;> rfl
  induction lines generalizing fold with
  | nil => rfl
  | cons line lines ih =>
      rw [List.map_cons, List.foldl_cons, List.foldl_cons, ih]
      have step : applyLedgerRecord fold line.record =
          { foldStep fold line with lastRaw := fold.lastRaw } := by
        have same := forget fold fold.lastRaw line.record
        exact same
      have carried : ∀ (lines : List Line) (fold : Fold) (raw : Option String),
          { lines.foldl foldStep { fold with lastRaw := raw } with lastRaw := raw } =
            { lines.foldl foldStep fold with lastRaw := raw } := by
        intro lines
        cases lines with
        | nil => exact fun _ _ => rfl
        | cons line lines =>
            intro fold raw
            have same : foldStep { fold with lastRaw := raw } line = foldStep fold line := by
              unfold foldStep
              rw [forget]
            rw [List.foldl_cons, List.foldl_cons, same]
      have keeps : (applyLedgerRecord fold line.record).lastRaw = fold.lastRaw := by rw [step]
      rw [keeps, step]
      exact carried lines (foldStep fold line) fold.lastRaw

section Chained

variable (chain : Chain lines)

include chain

theorem Chain.maxSeq : (foldLedger lines).maxSeq = lines.length := by
  induction lines using List.reverseRecOn with
  | nil => rfl
  | append_singleton lines line _ =>
      rw [foldLedger_snoc, foldStep_maxSeq, (chain_snoc.mp chain).2.record_eq.1]
      simp

theorem Chain.storeId : (foldLedger lines).storeId = storeOf lines := by
  induction lines using List.reverseRecOn with
  | nil => rfl
  | append_singleton lines line ih =>
      rw [foldLedger_snoc, foldStep_storeId, ih (chain_snoc.mp chain).1]
      cases lines <;> rfl

theorem Chain.lastPurgeSeq_le : (foldLedger lines).lastPurgeSeq ≤ lines.length := by
  induction lines using List.reverseRecOn with
  | nil => exact Nat.le_refl _
  | append_singleton lines line ih =>
      obtain ⟨before, accepted⟩ := chain_snoc.mp chain
      rw [foldLedger_snoc, foldStep_lastPurgeSeq, accepted.record_eq.1, List.length_append,
        List.length_singleton]
      split_ifs
      · exact Nat.le_refl _
      · exact (ih before).trans (Nat.le_succ _)

end Chained

theorem storeOf_append (nonempty : lines ≠ []) : storeOf (lines ++ more) = storeOf lines := by
  cases lines with
  | nil => exact absurd rfl nonempty
  | cons line lines => rfl

end Folding

/-! ### The history of a database -/

section History

variable (host : Host) (config : Config) (requireMigratedIds : List String)

/-- The lines are the history of the database, and those from `base` on are staged in it. -/
structure Recorded (db : Database) (hist : List Line) (base : Nat) : Prop where
  chain : Chain hist
  store : storeOf hist = some db.storeId
  writeSeq : db.writeSeq = hist.length
  expected : db.events.ids.toFinset = (foldLedger hist).expected.toFinset
  unpurged : Disjoint db.events.ids.toFinset (foldLedger hist).purged.toFinset
  lastPurge : db.lastPurgeSeq = (foldLedger hist).lastPurgeSeq
  staged : db.pendingLedger = "\n".intercalate ((hist.drop base).map Line.raw)
  base_lt : base < hist.length
  /-- Only the genesis line itself may be missing from the ledger altogether. -/
  genesis : base = 0 → hist.length = 1
  migrated : base = 0 → ∀ line ∈ hist, line.record.op = .cutover →
    ∀ id ∈ requireMigratedIds, id ∈ db.events.ids.toFinset
  /-- A staged submit is still stored. -/
  submitted : ∀ line ∈ hist.drop base, line.record.op = .submit →
    ∀ id ∈ line.record.ids, id ∈ db.events.ids.toFinset
  valid : RowsValid host config db

end History

/-! ### Each write extends the history -/

section Extending

variable {host : Host} {config : Config} {requireMigratedIds : List String}
  {db db' : Database} {hist : List Line} {base : Nat} {nowSec : Int}

/-- One more line, staged in the database it describes. -/
theorem Recorded.snoc (recorded : Recorded host config requireMigratedIds db hist base) {line : Line}
    (accepted : Accepted hist.length (storeOf hist) line) (store : db'.storeId = db.storeId)
    (writeSeq : db'.writeSeq = db.writeSeq + 1) (staged : db'.pendingLedger = line.raw)
    (expected : db'.events.ids.toFinset = (foldStep (foldLedger hist) line).expected.toFinset)
    (unpurged : Disjoint db'.events.ids.toFinset (foldStep (foldLedger hist) line).purged.toFinset)
    (lastPurge : db'.lastPurgeSeq = (foldStep (foldLedger hist) line).lastPurgeSeq)
    (submitted : line.record.op = .submit →
      ∀ id ∈ line.record.ids, id ∈ db'.events.ids.toFinset)
    (valid : RowsValid host config db') :
    Recorded host config requireMigratedIds db' (hist ++ [line]) hist.length := by
  have nonempty : hist ≠ [] := List.ne_nil_of_length_pos (by have := recorded.base_lt; omega)
  refine ⟨chain_snoc.mpr ⟨recorded.chain, accepted⟩, ?_, ?_, ?_, ?_, ?_, ?_, by simp, ?_, ?_, ?_,
    valid⟩
  · rw [storeOf_append nonempty, recorded.store, store]
  · rw [writeSeq, recorded.writeSeq, List.length_append, List.length_singleton]
  · rw [foldLedger_snoc, expected]
  · rw [foldLedger_snoc]
    exact unpurged
  · rw [foldLedger_snoc, lastPurge]
  · rw [List.drop_left, List.map_singleton, String.intercalate_singleton, staged]
  · exact fun zero => absurd (List.length_eq_zero_iff.mp zero) nonempty
  · exact fun zero => absurd (List.length_eq_zero_iff.mp zero) nonempty
  · intro other member
    rw [List.drop_left, List.mem_singleton] at member
    rw [member]
    exact submitted

theorem Recorded.storeId_ne (recorded : Recorded host config requireMigratedIds db hist base) :
    db.storeId ≠ "" := by
  obtain ⟨line, lines, rfl⟩ := List.exists_cons_of_length_pos
    (show 0 < hist.length by have := recorded.base_lt; omega)
  have store := recorded.store
  have accepted : Accepted 0 none line := recorded.chain.1
  rw [← Option.some.inj store]
  exact accepted.record_eq.2.2.2.2

/-- The line a database stages next. -/
def stagedLine (db : Database) (payload : Payload) (nowSec : Int) : Line :=
  ⟨ledgerLine (db.writeSeq + 1) db.storeId payload nowSec,
    payload.record (db.writeSeq + 1) db.storeId⟩

theorem Recorded.accepted (recorded : Recorded host config requireMigratedIds db hist base)
    {payload : Payload} (hex : ∀ id ∈ payload.ids, isHex64 id = true)
    (later : payload.op.isGenesis = false) :
    Accepted hist.length (storeOf hist) (stagedLine db payload nowSec) := by
  have some : 0 < hist.length := by
    have := recorded.base_lt
    omega
  rw [stagedLine, recorded.writeSeq]
  refine accepted_ledgerLine recorded.storeId_ne hex (Or.inr recorded.store.symm) ?_
  rw [later]
  exact ⟨fun zero => absurd zero some.ne', nofun⟩

theorem Recorded.submit (recorded : Recorded host config requireMigratedIds db hist base)
    {v : Checked} {current : Option Row} {event : Event}
    (submitted : Submitted db v current nowSec db')
    (checked : checkEvent host event config = .ok v)
    (fresh : v.ev.id ∉ (foldLedger hist).purged.toFinset) :
    Recorded host config requireMigratedIds db' (hist ++ [stagedLine db
      (.submit v.ev.id v.pubkey v.d v.scope v.status) nowSec]) hist.length := by
  have hex : isHex64 v.ev.id = true := by
    rw [checkEvent_ev checked]
    exact checkEvent_hex checked
  refine recorded.snoc (recorded.accepted ?_ rfl) submitted.storeId submitted.writeSeq
    submitted.staged ?_ ?_ ?_ ?_ (submitted.rowsValid checked recorded.valid)
  · intro id member
    rwa [List.mem_singleton.mp member]
  · rw [foldStep_expected, submitted.ids_eq, recorded.expected]
    show insert _ _ = _ ∪ List.toFinset [v.ev.id]
    rw [Finset.union_comm]
    rfl
  · rw [foldStep_purged, submitted.ids_eq, if_neg (by simp [stagedLine, Payload.record, Payload.op]),
      Finset.union_empty, Finset.disjoint_insert_left]
    exact ⟨fresh, recorded.unpurged⟩
  · rw [foldStep_lastPurgeSeq, if_neg (by simp [stagedLine, Payload.record, Payload.op]),
      submitted.lastPurge, recorded.lastPurge]
  · intro _ id member
    rw [submitted.ids_eq, List.mem_singleton.mp member]
    exact Finset.mem_insert_self _ _

theorem Recorded.purge (recorded : Recorded host config requireMigratedIds db hist base)
    {ids : List String} (stored : ∀ id ∈ ids, id ∈ db.events.ids.toFinset) (reason : String)
    (nowSec : Int) : Recorded host config requireMigratedIds (purgeTx db ids reason nowSec)
      (hist ++ [stagedLine db (.purge (sortIds ids) reason) nowSec]) hist.length := by
  have left : (purgeTx db ids reason nowSec).events.ids.toFinset =
      db.events.ids.toFinset \ ids.toFinset := Events.ids_delete
  refine recorded.snoc (recorded.accepted ?_ rfl) rfl rfl rfl ?_ ?_ ?_ nofun
    (recorded.valid.delete ids)
  · intro id member
    obtain ⟨row, inside, rfl⟩ := Events.mem_ids.mp (stored id (mem_sortIds.mp member))
    exact recorded.valid.isHex64 inside
  · rw [left, recorded.expected, foldStep_expected]
    show _ = _ \ (sortIds ids).toFinset
    rw [toFinset_sortIds]
  · rw [left, foldStep_purged, if_pos (show (stagedLine db _ nowSec).record.op = .purge from rfl)]
    show Disjoint _ (_ ∪ (sortIds ids).toFinset)
    rw [toFinset_sortIds, Finset.disjoint_union_right]
    exact ⟨recorded.unpurged.mono_left Finset.sdiff_subset, Finset.sdiff_disjoint⟩
  · rw [foldStep_lastPurgeSeq, if_pos (show (stagedLine db _ nowSec).record.op = .purge from rfl)]
    rfl

/-! ### A genesis begins one -/

theorem recorded_genesis {storeId : String} {events : Option (List Checked)} (named : storeId ≠ "")
    (checked : ∀ v ∈ events.getD [], ∃ event, checkEvent host event config = .ok v)
    (required : ∀ list, events = some list →
      ∀ id ∈ requireMigratedIds, id ∈ list.map fun v => v.ev.id)
    (created : genesisDatabase storeId (events.getD []) nowSec = some db) :
    Recorded host config requireMigratedIds (db.stage (genesisPayload events) nowSec)
      [stagedLine db (genesisPayload events) nowSec] 0 := by
  obtain ⟨rfl, seq, purge, -, rows⟩ := genesisDatabase_rows created
  have stored : db.events.ids.toFinset = ((events.getD []).map fun v => v.ev.id).toFinset := by
    ext id
    rw [Events.mem_ids, rows, List.mem_toFinset, List.mem_map]
    constructor
    · rintro ⟨row, member, rfl⟩
      obtain ⟨v, inside, rfl⟩ := List.mem_map.mp member
      exact ⟨v, inside, rfl⟩
    · rintro ⟨v, inside, rfl⟩
      exact ⟨_, List.mem_map.mpr ⟨v, inside, rfl⟩, rfl⟩
  have hex : ∀ id ∈ (genesisPayload events).ids, isHex64 id = true := by
    intro id member
    cases events with
    | none => nomatch member
    | some list =>
        obtain ⟨v, inside, rfl⟩ := List.mem_map.mp (mem_sortIds.mp member)
        obtain ⟨event, passes⟩ := checked v inside
        rw [checkEvent_ev passes]
        exact checkEvent_hex passes
  have begins : (genesisPayload events).op.isGenesis = true := by cases events <;> rfl
  have accepted : Accepted 0 none (stagedLine db (genesisPayload events) nowSec) := by
    rw [stagedLine, seq]
    exact accepted_ledgerLine named hex (Or.inl rfl) (by simp [begins])
  have folded : (foldLedger [stagedLine db (genesisPayload events) nowSec]).expected.toFinset =
      db.events.ids.toFinset := by
    show (foldStep .start _).expected.toFinset = _
    rw [foldStep_expected, stored]
    cases events with
    | none => rfl
    | some list =>
        show ∅ ∪ (sortIds _).toFinset = _
        rw [toFinset_sortIds, Finset.empty_union]
        rfl
  have notPurge : (stagedLine db (genesisPayload events) nowSec).record.op ≠ .purge := by
    cases events <;> exact nofun
  refine ⟨⟨accepted, trivial⟩, rfl, ?_, folded.symm, ?_, ?_, ?_, Nat.one_pos, fun _ => rfl, ?_, ?_,
    ?_⟩
  · show db.writeSeq + 1 = 1
    rw [seq]
  · show Disjoint _ (foldStep .start _).purged.toFinset
    rw [foldStep_purged, if_neg notPurge]
    exact Finset.disjoint_empty_right _
  · show db.lastPurgeSeq = (foldStep .start _).lastPurgeSeq
    rw [foldStep_lastPurgeSeq, if_neg notPurge, purge]
    rfl
  · rw [List.drop_zero, List.map_singleton, String.intercalate_singleton]
    rfl
  · intro _ line member op id wanted
    rw [List.mem_singleton.mp member] at op
    cases events with
    | none => nomatch op
    | some list =>
        show id ∈ db.events.ids.toFinset
        rw [stored]
        exact List.mem_toFinset.mpr (required list rfl id wanted)
  · intro line member op
    rw [List.drop_zero, List.mem_singleton] at member
    rw [member] at op
    cases events <;> nomatch op
  · intro row member
    rw [show (db.stage (genesisPayload events) nowSec).events = db.events from rfl, rows] at member
    obtain ⟨v, inside, rfl⟩ := List.mem_map.mp member
    obtain ⟨event, passes⟩ := checked v inside
    refine ⟨rfl, v, ?_⟩
    show checkEvent host v.ev config = .ok v
    rw [checkEvent_ev passes]
    exact passes

end Extending

end Nvoy.Store
