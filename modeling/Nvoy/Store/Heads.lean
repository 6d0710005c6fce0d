/-
The current row of a key.

* `headsOf_get` — a migration makes the newest event of each key current, in whatever order the
  events come;
* `Wrote`, `holds_step` — every database an action leaves on the disk was there before it, or the
  action wrote it;
* `HeadInvariant` — the current row of a key is newer than every other stored row of it;
* `headInvariant_iff` — a run keeps the invariant exactly when every submit that is stored at a key
  without a current row is newer than the rows that key still has.
-/

import Nvoy.Store.Restore
import Nvoy.Store.Serving

namespace Nvoy.Store

open Memory

/-! ### The heads of a migration -/

/-- The newest event of a key. -/
structure HeadOf (events : List Checked) (factKey : String × String) (head : Checked) : Prop where
  mem : head ∈ events
  key : head.key = factKey
  newest : ∀ e ∈ events, e.key = factKey → e.ev.id ≠ head.ev.id → head.version.Newer e.version

theorem headsOf_snoc (events : List Checked) (e : Checked) : headsOf (events ++ [e]) =
    if nip01Newer e.version (((headsOf events).get e.key).map Checked.version) then
      (headsOf events).set e.key e
    else headsOf events := by
  rw [headsOf, List.foldl_append]
  rfl

theorem HeadOf.snoc_other {events : List Checked} {factKey : String × String} {head e : Checked}
    (headOf : HeadOf events factKey head)
    (older : e.key = factKey → e.ev.id ≠ head.ev.id → head.version.Newer e.version) :
    HeadOf (events ++ [e]) factKey head := by
  refine ⟨List.mem_append_left _ headOf.mem, headOf.key, fun other member otherKey differ => ?_⟩
  rcases List.mem_append.mp member with old | new
  · exact headOf.newest other old otherKey differ
  · obtain rfl := List.mem_singleton.mp new
    exact older otherKey differ

/-- One pass over a list of distinct events finds the newest of each key, in whatever order they
come. -/
theorem headsOf_get {events : List Checked} (nodup : (events.map fun e => e.ev.id).Nodup)
    (key : String × String) : match (headsOf events).get key with
      | some head => HeadOf events key head
      | none => ∀ e ∈ events, e.key ≠ key := by
  induction events using List.reverseRecOn with
  | nil => exact fun e member => absurd member List.not_mem_nil
  | append_singleton events e ih =>
      rw [List.map_append, List.nodup_append] at nodup
      obtain ⟨before, -, apart⟩ := nodup
      have differ : ∀ other ∈ events, other.ev.id ≠ e.ev.id := fun other member =>
        apart _ (List.mem_map_of_mem member) _ (List.mem_singleton.mpr rfl)
      specialize ih before
      rw [headsOf_snoc]
      by_cases own : key = e.key
      · subst own
        cases get : (headsOf events).get e.key with
        | none =>
            -- the first event of its key
            rw [get] at ih
            dsimp only at ih ⊢
            rw [Option.map_none, if_pos (show nip01Newer e.version none = true from rfl),
              JsMap.get_set, if_pos rfl]
            refine ⟨by simp, rfl, fun other member otherKey differ => ?_⟩
            rcases List.mem_append.mp member with old | new
            · exact absurd otherKey (ih other old)
            · exact absurd (congrArg (fun e => e.ev.id) (List.mem_singleton.mp new)) differ
        | some head =>
            rw [get] at ih
            dsimp only at ih ⊢
            rw [Option.map_some]
            by_cases newer : nip01Newer e.version (some head.version) = true
            · rw [if_pos newer, JsMap.get_set, if_pos rfl]
              refine ⟨by simp, rfl, fun other member otherKey differ' => ?_⟩
              rcases List.mem_append.mp member with old | new
              · by_cases same : other.ev.id = head.ev.id
                · obtain rfl : other = head := List.inj_on_of_nodup_map before old ih.mem same
                  exact newer
                · exact Version.Newer.trans newer (ih.newest other old otherKey same)
              · exact absurd (congrArg (fun e => e.ev.id) (List.mem_singleton.mp new)) differ'
            · rw [if_neg newer, get]
              refine ih.snoc_other fun _ apart => ?_
              exact (Version.newer_total apart).resolve_left newer
      · have same : (if nip01Newer e.version (((headsOf events).get e.key).map Checked.version) = true
            then (headsOf events).set e.key e else headsOf events).get key =
              (headsOf events).get key := by
          split_ifs
          · rw [JsMap.get_set, if_neg own]
          · rfl
        rw [same]
        cases get : (headsOf events).get key with
        | none =>
            rw [get] at ih
            intro other member
            rcases List.mem_append.mp member with old | new
            · exact ih other old
            · exact fun otherKey => own (List.mem_singleton.mp new ▸ otherKey).symm
        | some head =>
            rw [get] at ih
            exact HeadOf.snoc_other ih fun otherKey => absurd otherKey.symm own

/-! ### What an action writes -/

section Writing

/-- Every database file of the disk has the property. -/
structure Holds (P : Database → Prop) (disk : Disk) : Prop where
  main : ∀ db, disk.main.database = some db → P db
  wal : ∀ db, disk.wal = some db → P db

variable {P : Database → Prop} {disk disk' : Disk} {db : Database}

theorem Holds.database (holds : Holds P disk) (current : disk.database = some db) : P db := by
  unfold Disk.database at current
  cases wal : disk.wal with
  | some log =>
      rw [wal] at current
      obtain rfl := Option.some.inj current
      exact holds.wal _ wal
  | none =>
      rw [wal] at current
      exact holds.main db current

theorem Holds.same (holds : Holds P disk) (main : disk'.main = disk.main) (wal : disk'.wal = disk.wal) :
    Holds P disk' :=
  ⟨fun db same => holds.main db (main ▸ same), fun db same => holds.wal db (wal ▸ same)⟩

theorem Holds.commit (holds : Holds P disk) (property : P db) : Holds P (disk.commit db) :=
  ⟨holds.main, fun _ same => Option.some.inj same ▸ property⟩

theorem Holds.checkpoint (holds : Holds P disk) : Holds P disk.checkpoint := by
  unfold Disk.checkpoint
  cases wal : disk.wal with
  | none => exact holds
  | some log => exact ⟨fun db same => holds.wal db (wal.trans same), nofun⟩

theorem Holds.ledgerOnly (holds : Holds P disk) (only : LedgerOnly disk disk') : Holds P disk' := by
  obtain ⟨ledger, rfl⟩ := only
  exact holds.same rfl rfl

theorem Holds.append (holds : Holds P disk) (line : String) (fault : Fault) :
    Holds P (appendLedgerLine disk line fault).1 :=
  holds.ledgerOnly (.append line)

theorem Holds.repair (holds : Holds P disk) (read : LedgerRead) : Holds P (disk.repair read) :=
  holds.ledgerOnly (.repair read)

variable {host : Host} {store : HiveMemoryStore} {config : Config} {fault : Fault}

theorem Holds.reconcile (holds : Holds P disk) : Holds P (reconcile host disk store fault).1 :=
  holds.ledgerOnly .reconcile

variable (host config) in
/-- A database an action writes: the one of a genesis, of an accepted submit or of a purge. -/
inductive Wrote (w : World) : Action → Database → Prop where
  | init {storeId : StoreId} {nowSec : Int} {fault : Fault} {created : Database}
      (made : genesisDatabase storeId.1 [] nowSec = some created) :
      Wrote w (.initEmptyStore storeId nowSec fault) (created.stage .init nowSec)
  | migrate {entries : List Event} {events : List Checked} {storeId : StoreId} {nowSec : Int}
      {fault : Fault} {created : Database}
      (checked : checkEntries host config 0 [] entries = .ok events)
      (made : genesisDatabase storeId.1 events nowSec = some created) :
      Wrote w (.migrateStoreJson entries storeId nowSec fault)
        (created.stage (genesisPayload (some events)) nowSec)
  | submit {store : HiveMemoryStore} {req : SubmitRequest} {fault : Fault} {db db' : Database}
      {writer : Writer} {v : Checked} (served : w.process = some store)
      (checks : submitChecks host w.disk store req = .ok ⟨db, writer, v⟩)
      (staged : submitTx db writer v req.expectedPriorId req.nowSec = .staged db')
      (committed : fault ≠ .beforeCommit) : Wrote w (.submit req fault) db'
  | purge {action : Action} {db : Database} {ids : List String} {reason : String} {nowSec : Int}
      (current : w.disk.database = some db) : Wrote w action (purgeTx db ids reason nowSec)

theorem Holds.publish (holds : Holds P disk) {db' : Database}
    (written : fault ≠ .beforeCommit → P db') : Holds P (Store.publish disk store db' fault).disk := by
  unfold Store.publish
  have committed : fault ≠ .beforeCommit → Holds P (disk.commit db') :=
    fun live => holds.commit (written live)
  cases fault with
  | beforeCommit => exact holds
  | afterCommit => exact committed nofun
  | inAppend count => exact (committed nofun).append db'.pendingLedger (.inAppend count)
  | appendFails count => exact (committed nofun).append db'.pendingLedger (.appendFails count)
  | none => exact (committed nofun).append db'.pendingLedger .none

theorem Holds.genesis (holds : Holds P disk) {storeId : String} {events : Option (List Checked)}
    {nowSec : Int} (written : ∀ created, genesisDatabase storeId (events.getD []) nowSec = some created →
      P (created.stage (genesisPayload events) nowSec)) :
    Holds P (Store.genesis disk storeId events nowSec fault).disk := by
  unfold Store.genesis
  dsimp only
  split_ifs with exists' recorded
  · exact holds
  · exact holds
  have noWal : disk.wal = none := by
    cases wal : disk.wal with
    | none => rfl
    | some log => simp [Disk.database, wal] at exists'
  have blank : Holds P { disk with main := .blank } := by
    refine ⟨fun db main => ?_, holds.wal⟩
    cases main
  cases made : genesisDatabase storeId (events.getD []) nowSec with
  | none => exact blank
  | some created =>
      have committed := blank.commit (written created made)
      cases fault with
      | beforeCommit => exact blank
      | afterCommit => exact committed
      | inAppend count => exact committed.checkpoint.append _ (.inAppend count)
      | appendFails count => exact committed.checkpoint.append _ (.appendFails count)
      | none => exact committed.checkpoint.append _ .none

theorem Holds.purge (holds : Holds P disk) {ids : List String} {reason : String} {nowSec : Int}
    (written : P (purgeTx db ids reason nowSec)) :
    Holds P (Store.purge disk store db ids reason nowSec fault).disk := by
  unfold Store.purge
  split_ifs
  · exact holds
  · have published : Holds P (Store.publish disk store (purgeTx db ids reason nowSec) fault).disk :=
      holds.publish fun _ => written
    dsimp only
    generalize Store.publish disk store (purgeTx db ids reason nowSec) fault = after at published
    obtain ⟨disk, store, answer⟩ := after
    cases store with
    | none =>
        cases answer with
        | none => exact published
        | some answer => cases answer <;> exact published
    | some store =>
        cases answer with
        | none => exact published
        | some answer =>
            cases answer with
            | done => exact published.checkpoint
            | failed => exact published

variable {requireMigratedIds : List String} {w : World}

/-- Every database on the disk after an action was there before it, or the action wrote it. -/
theorem holds_step (holds : Holds P w.disk) (action : Action)
    (written : ∀ db', Wrote host config w action db' → P db') :
    Holds P (step host config requireMigratedIds w action).disk := by
  cases action with
  | initEmptyStore storeId nowSec fault =>
      show Holds P (World.disk (if w.process.isSome then w else _))
      split_ifs
      · exact holds
      · exact holds.genesis fun created made => written _ (.init made)
  | migrateStoreJson entries storeId nowSec fault =>
      show Holds P (World.disk (if w.process.isSome then w else _))
      split_ifs
      · exact holds
      · show Holds P (migrateStoreJson host w.disk config requireMigratedIds entries storeId nowSec
          fault).disk
        unfold migrateStoreJson
        cases checked : checkEntries host config 0 [] entries with
        | error code => exact holds
        | ok events =>
            dsimp only
            split_ifs
            · exact holds
            · exact holds.genesis fun created made => written _ (.migrate checked made)
  | start fault =>
      show Holds P (World.disk (if w.process.isSome then w else _))
      split_ifs
      · exact holds
      · exact holds.reconcile
  | setConfig fault =>
      unfold step
      dsimp only
      cases w.process with
      | none => exact holds
      | some store =>
          show Holds P (setConfig host w.disk store (some config) none fault).1
          unfold setConfig
          dsimp only
          split_ifs
          · exact holds.reconcile
          · exact holds
  | lookupPrior writer d => exact holds
  | submit req fault =>
      show Holds P (w.serve fun disk store => Store.submit host disk store req fault).disk
      unfold World.serve
      cases served : w.process with
      | none => exact holds
      | some store =>
          show Holds P (Store.submit host w.disk store req fault).disk
          unfold Store.submit
          cases checks : submitChecks host w.disk store req with
          | error refusal => exact holds
          | ok admitted =>
              obtain ⟨db, writer, v⟩ := admitted
              dsimp only
              cases staged : submitTx db writer v req.expectedPriorId req.nowSec with
              | replay id status =>
                  dsimp only
                  unfold answerReplay
                  split_ifs
                  · have appended := holds.append db.pendingLedger fault
                    split <;> next eq => rw [eq] at appended; exact appended
                  · exact holds
                  · exact holds
              | refused refusal => exact holds
              | failed => exact holds
              | staged db' =>
                  exact holds.publish fun live => written _ (.submit served checks staged live)
  | hardDelete target nowSec fault =>
      show Holds P (w.serve fun disk store => Store.hardDelete disk store target nowSec fault).disk
      unfold World.serve
      cases w.process with
      | none => exact holds
      | some store =>
          show Holds P (Store.hardDelete w.disk store target nowSec fault).disk
          unfold Store.hardDelete
          split
          · next db ready current =>
              dsimp only
              split_ifs
              · exact holds
              · exact holds.purge (written _ (.purge current))
          · exact holds
  | purgeRetention nowSec fault =>
      show Holds P (w.serve fun disk store => Store.purgeRetention disk store nowSec fault).disk
      unfold World.serve
      cases w.process with
      | none => exact holds
      | some store =>
          show Holds P (Store.purgeRetention w.disk store nowSec fault).disk
          unfold Store.purgeRetention
          split
          · next db ready current => exact holds.purge (written _ (.purge current))
          · exact holds
  | recordVerifiedBackup receipt => exact holds.same rfl rfl
  | checkpoint => exact holds.checkpoint
  | crash => exact holds

end Writing

/-! ### What a restore installs -/

section Restoring

variable {host : Host} {config : Config} {req : RestoreRequest} {head : AuthorityHead}
  {lines : List Line} {db : Database} {plan : Plan} {P : Database → Prop} {disk : Disk}
  {fault : RestoreFault}

theorem stageRestore_rows {fold : Fold} {acked due : List String} {nowSec : Int} {row : Row}
    (member : row ∈ (stageRestore db fold acked due nowSec).events.rows) : row ∈ db.events.rows := by
  unfold stageRestore at member
  dsimp only at member
  by_cases nothing : (restoreLines fold acked due nowSec).isEmpty = true
  · rw [if_pos nothing] at member
    exact member
  · rw [if_neg nothing] at member
    exact (Events.mem_delete.mp member).1

theorem reapply_rows {fold : Fold} {missing : JsSet String} {row : Row}
    (member : row ∈ (reapply db fold missing).events.rows) : row ∈ db.events.rows := by
  unfold reapply at member
  dsimp only at member
  split_ifs at member
  · exact (Events.mem_delete.mp member).1
  · exact (Events.mem_delete.mp member).1

/-- A restore installs rows of the snapshot only. -/
theorem restorePlan_rows (planned : restorePlan host config req head lines db = .ok plan) {row : Row}
    (member : row ∈ plan.db.events.rows) : row ∈ db.events.rows := by
  have installed := (planned_of_ok host planned).installed
  rw [installed] at member
  have kept := stageRestore_rows member
  unfold broughtUp at kept
  split_ifs at kept
  · exact reapply_rows kept
  · exact kept

theorem Holds.install (holds : Holds P disk) (installed : P plan.db) :
    Holds P (install disk req plan fault).disk := by
  have renamed : Holds P { disk with
      wal := none
      main := .store plan.db } :=
    ⟨fun db same => Option.some.inj same ▸ installed, nofun⟩
  have appended : ∀ inner : Fault, Holds P (appendLedgerLine { disk with
      wal := none
      main := .store plan.db } ("\n".intercalate plan.staged) inner).1 :=
    fun inner => renamed.append _ inner
  unfold Store.install
  cases fault with
  | beforeLedger => exact holds
  | beforeRemoval => exact holds
  | beforeRename => exact ⟨holds.main, nofun⟩
  | afterRename => exact renamed
  | none =>
      dsimp only
      split_ifs
      · exact renamed
      · have after := appended .none
        split <;> next eq => rw [eq] at after; exact after
  | inAppend written =>
      dsimp only
      split_ifs
      · exact renamed
      · have after := appended (.inAppend written)
        split <;> next eq => rw [eq] at after; exact after
  | appendFails written =>
      dsimp only
      split_ifs
      · exact renamed
      · have after := appended (.appendFails written)
        split <;> next eq => rw [eq] at after; exact after

theorem Holds.restore (holds : Holds P disk)
    (installed : ∀ db head lines plan, req.snapshot = .store db →
      restorePlan host config req head lines db = .ok plan → P plan.db) :
    Holds P (restoreSnapshot host disk config req fault).disk := by
  have from' : ∀ disk head, Holds P disk → Holds P (restoreFrom host disk config req head fault).disk := by
    intro disk head holds
    unfold restoreFrom
    cases snapshot : req.snapshot with
    | absent => exact holds
    | damaged => exact holds
    | blank => exact holds
    | store db =>
        dsimp only
        split
        · exact holds
        · next read _ =>
            cases planned : restorePlan host config req head read.lines db with
            | error e => exact holds.repair read
            | ok plan => exact (holds.repair read).install (installed db head _ plan snapshot planned)
  unfold Store.restoreSnapshot
  split
  · exact holds
  · next head _ =>
      split_ifs
      · exact holds
      · unfold installAuthorityLedger
        cases disk.ledger with
        | none => exact from' _ head (holds.same rfl rfl)
        | some bytes =>
            dsimp only
            split_ifs
            · exact from' _ head holds
            · exact holds
      · exact from' _ head holds

end Restoring

/-! ### What every database of a site keeps -/

/-- Every database of the site has the property: on its disk and in its archive. -/
structure Keeps (P : Database → Prop) (site : Site) : Prop where
  disk : Holds P site.world.disk
  archive : ∀ snapshot ∈ site.archive, P snapshot.db

section Sites

variable {host : Host} {config : Config} {requireMigratedIds : List String} {P : Database → Prop}
  {site : Site}

theorem keeps_empty : Keeps P Site.empty := ⟨⟨nofun, nofun⟩, nofun⟩

/-- A property of the rows, kept by every write, is kept by every operation: a snapshot copies a
database, and a restore installs rows of one. -/
theorem Keeps.step (keeps : Keeps P site) (operation : Operation)
    (fewer : ∀ db db', P db → (∀ row ∈ db'.events.rows, row ∈ db.events.rows) → P db')
    (written : ∀ action, operation = .act action → ∀ db', Wrote host config site.world action db' →
      P db') :
    Keeps P (site.step host config requireMigratedIds operation) := by
  cases operation with
  | act action => exact ⟨holds_step keeps.disk action (written action rfl), keeps.archive⟩
  | snapshotStore nowSec =>
      unfold Site.step
      dsimp only
      cases taken : snapshotStore site.world.disk.database site.world.disk.ledger nowSec with
      | error e => exact keeps
      | ok snapshot =>
          refine ⟨keeps.disk, fun other member => ?_⟩
          rcases List.mem_append.mp member with old | new
          · exact keeps.archive other old
          · obtain rfl := List.mem_singleton.mp new
            unfold snapshotStore at taken
            simp only [bind_eq_ok, require_eq_ok] at taken
            obtain ⟨copied, current, read, -, -, -, built⟩ := taken
            obtain rfl := Except.ok.inj built
            exact keeps.disk.database current
  | restoreSnapshot number req fault =>
      unfold Site.step
      dsimp only
      split
      · next snapshot _ found =>
          refine ⟨keeps.disk.restore ?_, keeps.archive⟩
          intro db head lines plan same planned
          obtain rfl : snapshot.db = db := Candidate.store.inj same
          exact fewer _ _ (keeps.archive snapshot (List.mem_of_getElem? found)) fun _ member =>
            restorePlan_rows planned member
      · exact keeps

end Sites

/-! ### The invariant of heads -/

section Invariant

/-- At most one row of a key is current, and it is newer than every other row of its key. -/
structure HeadInvariant (db : Database) : Prop where
  unique : ∀ a ∈ db.events.rows, ∀ b ∈ db.events.rows, a.isCurrent = true → b.isCurrent = true →
    a.key = b.key → a = b
  newest : ∀ head ∈ db.events.rows, head.isCurrent = true → ∀ row ∈ db.events.rows,
    row.key = head.key → row.id ≠ head.id → head.version.Newer row.version

variable {host : Host} {config : Config} {requireMigratedIds : List String}
  {db db' : Database} {v : Checked} {nowSec : Int}

theorem HeadInvariant.of_subset (invariant : HeadInvariant db)
    (subset : ∀ row ∈ db'.events.rows, row ∈ db.events.rows) : HeadInvariant db' where
  unique := db'.events.head_unique
  newest head member isCurrent row other :=
    invariant.newest head (subset head member) isCurrent row (subset row other)

theorem headInvariant_genesis {storeId : String} {events : List Checked} {created : Database}
    (made : genesisDatabase storeId events nowSec = some created) : HeadInvariant created := by
  obtain ⟨-, -, -, -, rows⟩ := genesisDatabase_rows made
  have nodup : (events.map fun e => e.ev.id).Nodup := by
    have unique := created.events.nodup_id
    rw [rows, List.map_map] at unique
    exact unique
  refine ⟨created.events.head_unique, ?_⟩
  rw [rows]
  intro head member isCurrent row other same differ
  obtain ⟨e, inside, rfl⟩ := List.mem_map.mp member
  obtain ⟨o, inside', rfl⟩ := List.mem_map.mp other
  have newest := headsOf_get nodup e.key
  have isHead := of_decide_eq_true isCurrent
  obtain ⟨top, get, topId⟩ := Option.map_eq_some_iff.mp isHead
  rw [get] at newest
  obtain rfl : top = e := List.inj_on_of_nodup_map nodup newest.mem inside topId
  exact newest.newest o inside' same differ

/-- The event of an accepted submit is newer than every row of its key when the current row is. -/
theorem headInvariant_submitted {current : Option Row} (head : db.events.current v.key = current)
    (submitted : Submitted db v current nowSec db') (invariant : HeadInvariant db)
    (newer : ∀ prior, current = some prior → v.version.Newer prior.version)
    (fits : current = none → ∀ row ∈ db.events.rows, row.key = v.key →
      v.version.Newer row.version) : HeadInvariant db' := by
  -- a row that stays is, up to its flag, a row of the table before
  have origin : ∀ row ∈ (demoted db.events current).rows, ∃ old ∈ db.events.rows, old.id = row.id ∧
      old.key = row.key ∧ old.version = row.version := by
    intro row member
    obtain ⟨old, inside, same⟩ := exists_of_mem_demoted member
    rcases same with rfl | rfl
    · exact ⟨row, inside, rfl, rfl, rfl⟩
    · exact ⟨old, inside, rfl, rfl, rfl⟩
  have beatsAll : ∀ row ∈ db.events.rows, row.key = v.key → v.version.Newer row.version := by
    intro row member same
    cases current with
    | none => exact fits rfl row member same
    | some prior =>
        obtain ⟨stored, isCurrent, key⟩ := Events.current_eq_some.mp head
        by_cases itself : row.id = prior.id
        · rw [Events.eq_of_id member stored itself]
          exact newer prior rfl
        · exact (newer prior rfl).trans
            (invariant.newest prior stored isCurrent row member (same.trans key.symm) itself)
  have stays : ∀ row ∈ (demoted db.events current).rows, row.isCurrent = true →
      row ∈ db.events.rows ∧ row.key ≠ v.key := by
    intro row member isCurrent
    cases current with
    | none => exact ⟨member, Events.current_eq_none.mp head row member isCurrent⟩
    | some prior =>
        rcases Events.mem_demote.mp member with ⟨stored, differ⟩ | ⟨old, -, -, rfl⟩
        · refine ⟨stored, fun same => differ ?_⟩
          have itself : db.events.current v.key = some row :=
            Events.current_eq_some.mpr ⟨stored, isCurrent, same⟩
          rw [head] at itself
          exact congrArg Row.id (Option.some.inj itself).symm
        · cases isCurrent
  refine ⟨db'.events.head_unique, ?_⟩
  intro top member isCurrent row other same differ
  rcases submitted.mem_rows.mp member with old | rfl
  · obtain ⟨stored, apart⟩ := stays top old isCurrent
    rcases submitted.mem_rows.mp other with kept | rfl
    · obtain ⟨before, inside, sameId, sameKey, sameVersion⟩ := origin row kept
      rw [← sameVersion]
      exact invariant.newest top stored isCurrent before inside (sameKey.trans same)
        (sameId ▸ differ)
    · exact absurd same.symm apart
  · rcases submitted.mem_rows.mp other with kept | rfl
    · obtain ⟨before, inside, -, sameKey, sameVersion⟩ := origin row kept
      rw [← sameVersion]
      exact beatsAll before inside (sameKey.trans same)
    · exact absurd rfl differ

/-! ### Runs -/

variable (host) in
/-- The submits that keep the invariant: one that is stored at a key without a current row is newer
than every row that key still has. -/
def Fits (w : World) (action : Action) : Prop :=
  ∀ store req fault db writer v db', w.process = some store → action = .submit req fault →
    submitChecks host w.disk store req = .ok ⟨db, writer, v⟩ →
    submitTx db writer v req.expectedPriorId req.nowSec = .staged db' → fault ≠ .beforeCommit →
    db.events.current v.key = none →
    ∀ row ∈ db.events.rows, row.key = v.key → v.version.Newer row.version

theorem headInvariant_wrote {w : World} {action : Action}
    (holds : Holds HeadInvariant w.disk) (fits : Fits host w action)
    (wrote : Wrote host config w action db') : HeadInvariant db' := by
  cases wrote with
  | init made => exact (headInvariant_genesis made).of_subset fun _ member => member
  | migrate checked made => exact (headInvariant_genesis made).of_subset fun _ member => member
  | @submit store req fault db db' writer v served checks staged committed =>
      obtain ⟨config, passed⟩ := submitChecks_eq_ok.mp checks
      have ends := @submitTx_ends db writer v req.expectedPriorId req.nowSec
      rw [staged] at ends
      cases ends with
      | staged db' absent prior newer active underCap submitted =>
          refine headInvariant_submitted rfl submitted (holds.database passed.database) ?_ ?_
          · intro old current
            rw [current] at newer
            exact newer
          · exact fits store req fault db writer v db' served rfl checks staged committed
  | purge current =>
      exact (holds.database current).of_subset fun _ member => (Events.mem_delete.mp member).1

section Sites

variable (host : Host) (config : Config) (requireMigratedIds : List String)

/-- Every submit of the run fits. -/
def Orderly (site : Site) : List Operation → Prop
  | [] => True
  | operation :: operations =>
      (∀ action, operation = .act action → Fits host site.world action) ∧
        Orderly (site.step host config requireMigratedIds operation) operations

end Sites

/-- The invariant of every database of a site: on its disk and in its archive. -/
structure SiteHolds (site : Site) : Prop where
  disk : Holds HeadInvariant site.world.disk
  archive : ∀ snapshot ∈ site.archive, HeadInvariant snapshot.db

theorem siteHolds_step {site : Site} (holds : SiteHolds site) (operation : Operation)
    (fits : ∀ action, operation = .act action → Fits host site.world action) :
    SiteHolds (site.step host config requireMigratedIds operation) := by
  have kept := @Keeps.step host config requireMigratedIds HeadInvariant site ⟨holds.disk, holds.archive⟩
    operation (fun _ _ invariant subset => invariant.of_subset subset)
    (fun action same _ wrote => headInvariant_wrote holds.disk (fits action same) wrote)
  exact ⟨kept.disk, kept.archive⟩

theorem siteHolds_run {site : Site} (holds : SiteHolds site) {operations : List Operation}
    (orderly : Orderly host config requireMigratedIds site operations) {before : List Operation}
    (earlier : before <+: operations) : SiteHolds (site.run host config requireMigratedIds before) := by
  induction before generalizing site operations with
  | nil => exact holds
  | cons operation before ih =>
      obtain ⟨rest, rfl⟩ := earlier
      exact ih (siteHolds_step holds operation orderly.1) orderly.2 (List.prefix_append _ _)

theorem database_publish {disk : Disk} {store : HiveMemoryStore} {fault : Fault}
    (live : fault ≠ .beforeCommit) : (publish disk store db fault).disk.database = some db := by
  cases fault with
  | beforeCommit => exact absurd rfl live
  | afterCommit => rfl
  | inAppend count => rfl
  | appendFails count => rfl
  | none => rfl

/-- A stored submit fits when the invariant holds after it. -/
theorem fits_of_headInvariant {w : World} {action : Action}
    (after : ∀ db, (step host config requireMigratedIds w action).disk.database = some db →
      HeadInvariant db) : Fits host w action := by
  rintro store req fault db writer v db' served rfl checks staged live free row stored same
  have ends := @submitTx_ends db writer v req.expectedPriorId req.nowSec
  rw [staged] at ends
  cases ends with
  | staged db' absent prior newer active underCap submitted =>
      have current : (step host config requireMigratedIds w (.submit req fault)).disk.database =
          some db' := by
        show (w.serve fun disk store => submit host disk store req fault).disk.database = _
        unfold World.serve submit
        rw [served]
        dsimp only
        rw [checks]
        dsimp only
        rw [staged]
        exact database_publish live
      have invariant := after db' current
      rw [free] at submitted
      refine invariant.newest (rowOf v true req.nowSec) (submitted.mem_rows.mpr (Or.inr rfl)) rfl row
        (submitted.mem_rows.mpr (Or.inl stored)) same ?_
      exact Events.find_eq_none.mp absent row stored

/-- **The invariant of heads.** In every state of a run the current row of a key is newer than its
other rows, exactly when every submit that is stored at a key without a current row is newer than
the rows that key still has. -/
theorem headInvariant_iff (host : Host) (config : Config) (requireMigratedIds : List String)
    (operations : List Operation) :
    (∀ before, before <+: operations → ∀ db,
        (Site.empty.run host config requireMigratedIds before).world.disk.database = some db →
        HeadInvariant db) ↔
      Orderly host config requireMigratedIds Site.empty operations := by
  constructor
  · generalize Site.empty = site
    intro invariant
    induction operations generalizing site with
    | nil => trivial
    | cons operation operations ih =>
        refine ⟨?_, ih _ fun before earlier => ?_⟩
        · rintro action rfl
          exact fits_of_headInvariant fun db current =>
            invariant [.act action] (List.prefix_append [.act action] operations) db current
        · exact invariant (operation :: before) (List.cons_prefix_cons.mpr ⟨rfl, earlier⟩)
  · intro orderly before earlier db current
    have empty : SiteHolds Site.empty := ⟨⟨nofun, nofun⟩, nofun⟩
    exact (siteHolds_run empty orderly earlier).disk.database current

end Invariant

/-! ### A run that breaks it -/

theorem run_append (host : Host) (config : Config) (requireMigratedIds : List String) (w : World)
    (first second : List Action) : run host config requireMigratedIds w (first ++ second) =
      run host config requireMigratedIds (run host config requireMigratedIds w first) second :=
  List.foldl_append

theorem run_snoc (host : Host) (config : Config) (requireMigratedIds : List String) (w : World)
    (actions : List Action) (last : Action) :
    run host config requireMigratedIds w (actions ++ [last]) =
      step host config requireMigratedIds (run host config requireMigratedIds w actions) last := by
  rw [run_append]
  rfl

theorem Site.run_act (host : Host) (config : Config) (requireMigratedIds : List String) (site : Site)
    (actions : List Action) : site.run host config requireMigratedIds (actions.map .act) =
      ⟨Store.run host config requireMigratedIds site.world actions, site.archive⟩ := by
  induction actions generalizing site with
  | nil => rfl
  | cons action actions ih => exact ih (site.step host config requireMigratedIds (.act action))

theorem Site.run_world (host : Host) (config : Config) (requireMigratedIds : List String) (site : Site)
    (actions : List Action) (first last : Action) :
    (site.run host config requireMigratedIds ((actions ++ [first, last]).map .act)).world =
      Store.step host config requireMigratedIds
        (Store.step host config requireMigratedIds
          (Store.run host config requireMigratedIds site.world actions) first) last := by
  rw [Site.run_act, run_append]
  simp only [Store.run, List.foldl_cons, List.foldl_nil]

/-- A cutover with two versions of a key. -/
def twoVersions : List Action :=
  [.migrateStoreJson [(claimOf 'b' 2000).ev, (claimOf 'c' 3000).ev] sampleStoreId 3000 .none,
    .start .none]

/-- The head of the key is deleted by its id, and an event is submitted that is older than the version
left. -/
def staleHead : List Operation :=
  (twoVersions ++ [Action.hardDelete (.byId (sampleKey 'c')) 3000 .none,
    Action.recordVerifiedBackup (sampleReceipt 2 (by decide)),
    Action.submit ⟨"owner", (claimOf 'd' 1500).ev, none, 1500⟩ .none]).map .act

/-- The head of the key is deleted: the older version is left, and no row is current. -/
structure HeadDeleted (store : HiveMemoryStore) (db : Database) : Prop where
  writeSeq : db.writeSeq = 2
  lastPurge : db.lastPurgeSeq = 2
  rate : db.rateLog = []
  rows : ∀ row, row ∈ db.events.rows ↔ row = rowOf (claimOf 'b' 2000) false 3000
  purged : store.purgedIds.toFinset = {sampleKey 'c'}

theorem deletedHead_serving : ∃ store db store' db',
    Serving sampleConfig (run Host.sample sampleConfig [] World.empty twoVersions) store db ∧
      db.writeSeq = 1 ∧
      Serving sampleConfig (run Host.sample sampleConfig [] World.empty
        (twoVersions ++ [.hardDelete (.byId (sampleKey 'c')) 3000 .none])) store' db' ∧
      HeadDeleted store' db' := by
  have passes : ∀ v ∈ [claimOf 'b' 2000, claimOf 'c' 3000],
      checkEvent Host.sample v.ev sampleConfig = .ok v := by
    intro v member
    rcases List.mem_cons.mp member with rfl | member
    · exact checkEvent_claimB
    · rw [List.mem_singleton.mp member]
      exact checkEvent_claimC
  have own : ∀ v ∈ [claimOf 'b' 2000, claimOf 'c' 3000],
      v.pubkey = sampleKey 'a' ∧ v.d = "hive-memory:hive:ops:deploy" := by
    intro v member
    rcases List.mem_cons.mp member with rfl | member
    · exact ⟨rfl, rfl⟩
    · rw [List.mem_singleton.mp member]
      exact ⟨rfl, rfl⟩
  have migrated : ∃ store created, genesisDatabase sampleStoreId.1 [claimOf 'b' 2000, claimOf 'c' 3000]
      3000 = some created ∧ Serving sampleConfig (run Host.sample sampleConfig [] World.empty
        [.migrateStoreJson [(claimOf 'b' 2000).ev, (claimOf 'c' 3000).ev] sampleStoreId 3000 .none,
          .start .none]) store
        (created.stage (genesisPayload (some [claimOf 'b' 2000, claimOf 'c' 3000])) 3000) ∧
      store.purgedIds.toFinset = ∅ := serving_of_samples passes own (by decide)
  obtain ⟨store, created, made, serving, nonePurged⟩ := migrated
  obtain ⟨-, seq, purge, rate, rows⟩ := genesisDatabase_rows made
  have stored : created.events.rows =
      [rowOf (claimOf 'b' 2000) false 3000, rowOf (claimOf 'c' 3000) true 3000] := by
    rw [rows]
    rfl
  change Serving sampleConfig (run Host.sample sampleConfig [] World.empty twoVersions) _ _ at serving
  have writeSeq : (created.stage (genesisPayload (some [claimOf 'b' 2000, claimOf 'c' 3000])) 3000).writeSeq
      = 1 := congrArg Nat.succ seq
  change created.events.rows = _ at stored
  rw [show created.events = (created.stage (genesisPayload (some
    [claimOf 'b' 2000, claimOf 'c' 3000])) 3000).events from rfl] at stored
  rw [show created.rateLog = (created.stage (genesisPayload (some
    [claimOf 'b' 2000, claimOf 'c' 3000])) 3000).rateLog from rfl] at rate
  generalize created.stage (genesisPayload (some [claimOf 'b' 2000, claimOf 'c' 3000])) 3000 = db at *
  have target : (DeleteTarget.byId (sampleKey 'c')).ids db.events.rows = [sampleKey 'c'] := by
    show (db.events.rows.filter fun row => row.id = sampleKey 'c').map Row.id = _
    rw [stored]
    decide
  obtain ⟨store', deleted, purged⟩ := @Serving.hardDelete Host.sample sampleConfig [] _ store db
    serving (.byId (sampleKey 'c')) 3000 (by rw [target]; rfl)
  rw [target] at deleted purged
  refine ⟨store, db, store', purgeTx db [sampleKey 'c'] "hard-delete" 3000, serving, writeSeq, ?_,
    congrArg Nat.succ writeSeq, congrArg Nat.succ writeSeq, ?_, fun row => ?_, ?_⟩
  · rw [run_snoc]
    exact deleted
  · show db.rateLog.filter _ = []
    rw [rate]
    rfl
  · show row ∈ (db.events.delete [sampleKey 'c']).rows ↔ _
    rw [Events.mem_delete, stored]
    constructor
    · rintro ⟨member, kept⟩
      rcases List.mem_cons.mp member with same | member
      · exact same
      · rw [List.mem_singleton.mp member] at kept
        exact absurd (List.mem_singleton.mpr rfl) kept
    · rintro rfl
      exact ⟨List.mem_cons_self, by rw [List.mem_singleton]; decide⟩
  · rw [purged, JsSet.toFinset_foldl_add, nonePurged]
    rfl

/-- With a backup of the delete, an event older than the version left is accepted. -/
theorem HeadDeleted.submit {w : World} {store : HiveMemoryStore} {db : Database} {receipt : Receipt}
    (deleted : HeadDeleted store db) (serving : Serving sampleConfig w store db)
    (recorded : w.disk.receipt = some receipt) (level : receipt.writeSeq = 2)
    (time : receipt.recordedAt = 1000) : ∃ store' db',
      Serving sampleConfig (step Host.sample sampleConfig [] w
        (.submit ⟨"owner", (claimOf 'd' 1500).ev, none, 1500⟩ .none)) store' db' ∧
      Submitted db (claimOf 'd' 1500) none 1500 db' ∧
      (Store.submit Host.sample w.disk store ⟨"owner", (claimOf 'd' 1500).ev, none, 1500⟩
        .none).answer = some (.accepted (claimOf 'd' 1500).ev.id (claimOf 'd' 1500).status false) := by
  have absent : db.events.find (sampleKey 'd') = none := by
    refine Events.find_eq_none.mpr fun row member => ?_
    rw [(deleted.rows row).mp member]
    decide
  have free : db.events.current (claimOf 'd' 1500).key = none := by
    refine Events.current_eq_none.mpr fun row member isCurrent => ?_
    rw [(deleted.rows row).mp member] at isCurrent
    nomatch isCurrent
  have passed : Passed Host.sample w.disk store ⟨"owner", (claimOf 'd' 1500).ev, none, 1500⟩
      sampleConfig ⟨db, sampleWriter, claimOf 'd' 1500⟩ := by
    refine passed_of_sample serving checkEvent_claimD recorded ?_ ?_ ?_ ?_ rfl ?_
    · rw [deleted.lastPurge, level]
    · rw [deleted.writeSeq, level]
    · rw [time, RECEIPT_SKEW_SEC]
      omega
    · rw [time]
      omega
    · rw [deleted.purged]
      decide
  have accepted : (acceptSubmit db (claimOf 'd' 1500)
      (db.events.current (claimOf 'd' 1500).key) 1500).isSome = true :=
    acceptSubmit_isSome absent (by rw [deleted.rate]; exact nofun)
  obtain ⟨db', accepted⟩ := Option.isSome_iff_exists.mp accepted
  have submitted := submitted_of_accept accepted
  have staged : submitTx db sampleWriter (claimOf 'd' 1500) none 1500 = .staged db' := by
    unfold submitTx rateCount
    rw [deleted.rate, show (claimOf 'd' 1500).ev.id = sampleKey 'd' from rfl, absent]
    dsimp only
    rw [accepted, free]
    rfl
  rw [free] at submitted
  obtain ⟨store', served, -, answered⟩ :=
    @Serving.submit Host.sample sampleConfig [] _ _ _ _ serving _ _ _ passed staged
  exact ⟨store', db', served, submitted, answered⟩

theorem staleHead_breaks : ∃ db,
    (Site.empty.run Host.sample sampleConfig [] staleHead).world.disk.database = some db ∧
      ¬ HeadInvariant db := by
  obtain ⟨-, -, store, db, -, -, serving, deleted⟩ := deletedHead_serving
  have split : staleHead = ((twoVersions ++ [Action.hardDelete (.byId (sampleKey 'c')) 3000 .none]) ++
      [Action.recordVerifiedBackup (sampleReceipt 2 (by decide)),
        Action.submit ⟨"owner", (claimOf 'd' 1500).ev, none, 1500⟩ .none]).map .act := by
    unfold staleHead
    rw [List.append_assoc, List.singleton_append]
  rw [split, Site.run_world, Site.empty]
  generalize run Host.sample sampleConfig [] World.empty (twoVersions ++
    [.hardDelete (.byId (sampleKey 'c')) 3000 .none]) = w at serving ⊢
  obtain ⟨backed, receipt⟩ := @Serving.backup Host.sample sampleConfig [] w store db serving
    (sampleReceipt 2 (by decide))
  obtain ⟨store', db', served, submitted, -⟩ := deleted.submit backed receipt rfl rfl
  refine ⟨db', served.database, fun invariant => ?_⟩
  have newer := invariant.newest (rowOf (claimOf 'd' 1500) true 1500)
    (submitted.mem_rows.mpr (Or.inr rfl)) rfl (rowOf (claimOf 'b' 2000) false 3000)
    (submitted.mem_rows.mpr (Or.inl ((deleted.rows _).mpr rfl))) rfl (by decide)
  rw [Version.newer_iff] at newer
  revert newer
  decide

end Nvoy.Store
