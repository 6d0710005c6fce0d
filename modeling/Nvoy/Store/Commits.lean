/-
What each action of a run commits.

* `commits` — the submit an action commits, if it commits one;
* `Committed` — what such a submit has passed, and what it does to the database;
* `Effect`, `Alive.effect` — the database after an action: the one before it, that of the submit it
  commits, or that of a purge, with the ids the purge has read;
* `Log`, `logged_step` — a run with the submits it has committed, and how a fact about them is proved
  of every state of the run.
-/

import Nvoy.Lib.Runs
import Nvoy.Store.Barrier

namespace Nvoy.Store

open Memory

/-! ### The submit of an action -/

/-- A submit that is committed: the database it is checked against, and the one it leaves. -/
structure Commit where
  db : Database
  writer : Writer
  v : Checked
  nowSec : Int
  staged : Database

section Commits

variable (host : Host)

def commits (w : World) : Action → Option Commit
  | .submit req fault =>
      match w.process with
      | none => none
      | some store =>
          match submitChecks host w.disk store req with
          | .error _ => none
          | .ok ⟨db, writer, v⟩ =>
              match submitTx db writer v req.expectedPriorId req.nowSec with
              | .staged staged =>
                  if fault = .beforeCommit then none else some ⟨db, writer, v, req.nowSec, staged⟩
              | _ => none
  | _ => none

/-- What a committed submit has passed, and what it does to the database. -/
structure Committed (config : Config) (db : Database) (hist : List Line) (c : Commit) : Prop where
  own : c.db = db
  checked : ∃ event, checkEvent host event config = .ok c.v
  writer : ∃ name, config.writers.get name = some c.writer
  pubkey : c.v.pubkey = c.writer.pubkey
  absent : c.db.events.find c.v.ev.id = none
  newer : nip01Newer c.v.version ((c.db.events.current c.v.key).map Row.version) = true
  underCap : rateCount c.db c.v.pubkey c.nowSec < c.writer.perHour
  submitted : Submitted c.db c.v (c.db.events.current c.v.key) c.nowSec c.staged
  fresh : c.v.ev.id ∉ (foldLedger hist).purged.toFinset

/-- The database an action leaves. -/
inductive Effect (w : World) (db : Database) : Action → Database → Prop where
  | stays {action : Action} (silent : commits host w action = none) : Effect w db action db
  | submits {action : Action} {c : Commit} (committed : commits host w action = some c) :
      Effect w db action c.staged
  | deletes {target : DeleteTarget} {nowSec : Int} {fault : Fault} :
      Effect w db (.hardDelete target nowSec fault)
        (purgeTx db (target.ids db.events.rows) "hard-delete" nowSec)
  | retires {nowSec : Int} {fault : Fault} :
      Effect w db (.purgeRetention nowSec fault)
        (purgeTx db (retentionDue db nowSec) "retention" nowSec)

end Commits

/-! ### The database after an action -/

section Effects

variable {host : Host} {config : Config} {requireMigratedIds : List String} {w : World}
  {disk : Disk} {db db' : Database} {hist : List Line} {base : Nat}

theorem database_replay {store : HiveMemoryStore} {id : String} {status : Status} {fault : Fault} :
    (answerReplay disk store db id status fault).disk.database = disk.database := by
  have appended := (@LedgerOnly.append disk fault db.pendingLedger).database
  unfold answerReplay
  split_ifs
  · split <;> next eq => rw [eq] at appended; exact appended
  · rfl
  · rfl

/-- A genesis never overwrites a store. -/
theorem genesis_of_stored (stored : disk.database = some db) {storeId : String}
    {events : Option (List Checked)} {nowSec : Int} {fault : Fault} :
    (genesis disk storeId events nowSec fault).disk = disk := by
  unfold genesis
  dsimp only
  rw [stored, if_pos (by simp)]

theorem migrate_of_stored (stored : disk.database = some db) {entries : List Event} {storeId : String}
    {nowSec : Int} {fault : Fault} :
    (migrateStoreJson host disk config requireMigratedIds entries storeId nowSec fault).disk =
      disk := by
  unfold migrateStoreJson
  cases checkEntries host config 0 [] entries with
  | error e => rfl
  | ok events =>
      dsimp only
      split_ifs
      · rfl
      · exact genesis_of_stored stored

theorem commits_submit {store : HiveMemoryStore} {req : SubmitRequest} {fault : Fault}
    (served : w.process = some store) :
    (Store.submit host w.disk store req fault).disk.database =
      (((commits host w (.submit req fault)).map Commit.staged).or w.disk.database) := by
  unfold Store.submit commits
  rw [served]
  dsimp only
  cases submitChecks host w.disk store req with
  | error refusal => rfl
  | ok admitted =>
      obtain ⟨current, writer, v⟩ := admitted
      dsimp only
      cases submitTx current writer v req.expectedPriorId req.nowSec with
      | replay id status => exact database_replay
      | refused refusal => rfl
      | failed => rfl
      | staged staged =>
          dsimp only
          by_cases dead : fault = .beforeCommit
          · rw [dead]
            rfl
          · rw [if_neg dead]
            exact database_publish dead

/-- The database after an action that is a submit. -/
theorem database_submit {req : SubmitRequest} {fault : Fault} :
    (step host config requireMigratedIds w (.submit req fault)).disk.database =
      ((commits host w (.submit req fault)).map Commit.staged).or w.disk.database := by
  show (w.serve fun disk store => Store.submit host disk store req fault).disk.database = _
  unfold World.serve
  cases served : w.process with
  | none =>
      unfold commits
      rw [served]
      rfl
  | some store => exact commits_submit served

theorem effect_submit {req : SubmitRequest} {fault : Fault} (current : w.disk.database = some db)
    (left : (step host config requireMigratedIds w (.submit req fault)).disk.database = some db') :
    Effect host w db (.submit req fault) db' := by
  rw [database_submit, current] at left
  cases committed : commits host w (.submit req fault) with
  | none =>
      rw [committed] at left
      obtain rfl := Option.some.inj left
      exact .stays committed
  | some c =>
      rw [committed] at left
      obtain rfl := Option.some.inj left
      exact .submits committed

/-- The database after a purge of these ids: as it was, or without them. -/
theorem effect_purge {store : HiveMemoryStore} {ids : List String} {reason : String} {nowSec : Int}
    {fault : Fault} (current : disk.database = some db)
    (left : (purge disk store db ids reason nowSec fault).disk.database = some db') :
    db' = db ∨ db' = purgeTx db ids reason nowSec := by
  rcases @database_purge db disk store ids reason nowSec fault with same | same
  · exact Or.inl (Option.some.inj (left.symm.trans (same.trans current)))
  · exact Or.inr (Option.some.inj (left.symm.trans same))

theorem effect_hardDelete {target : DeleteTarget} {nowSec : Int} {fault : Fault}
    (current : w.disk.database = some db)
    (left : (step host config requireMigratedIds w (.hardDelete target nowSec fault)).disk.database =
      some db') : Effect host w db (.hardDelete target nowSec fault) db' := by
  have unchanged : w.disk.database = some db' →
      Effect host w db (.hardDelete target nowSec fault) db' := by
    intro same
    obtain rfl := Option.some.inj (current.symm.trans same)
    exact .stays rfl
  change (w.serve fun disk store => Store.hardDelete disk store target nowSec fault).disk.database = _
    at left
  unfold World.serve at left
  cases served : w.process with
  | none =>
      rw [served] at left
      exact unchanged left
  | some store =>
      rw [served] at left
      dsimp only at left
      unfold Store.hardDelete at left
      rw [current] at left
      cases ready : store.state with
      | ready =>
          rw [ready] at left
          dsimp only at left
          split_ifs at left
          · exact unchanged left
          · rcases effect_purge current left with rfl | rfl
            · exact .stays rfl
            · exact .deletes
      | _ =>
          rw [ready] at left
          exact unchanged left

theorem effect_purgeRetention {nowSec : Int} {fault : Fault} (current : w.disk.database = some db)
    (left : (step host config requireMigratedIds w (.purgeRetention nowSec fault)).disk.database =
      some db') : Effect host w db (.purgeRetention nowSec fault) db' := by
  have unchanged : w.disk.database = some db' →
      Effect host w db (.purgeRetention nowSec fault) db' := by
    intro same
    obtain rfl := Option.some.inj (current.symm.trans same)
    exact .stays rfl
  change (w.serve fun disk store => Store.purgeRetention disk store nowSec fault).disk.database = _
    at left
  unfold World.serve at left
  cases served : w.process with
  | none =>
      rw [served] at left
      exact unchanged left
  | some store =>
      rw [served] at left
      dsimp only at left
      unfold Store.purgeRetention at left
      rw [current] at left
      cases ready : store.state with
      | ready =>
          rw [ready] at left
          rcases effect_purge current left with rfl | rfl
          · exact .stays rfl
          · exact .retires
      | _ =>
          rw [ready] at left
          exact unchanged left

/-- The other actions leave the database as it is. -/
theorem Alive.unchanged (alive : Alive host config requireMigratedIds w db hist base)
    {action : Action} (submit : ∀ req fault, action ≠ .submit req fault)
    (hardDelete : ∀ target nowSec fault, action ≠ .hardDelete target nowSec fault)
    (purgeRetention : ∀ nowSec fault, action ≠ .purgeRetention nowSec fault) :
    (step host config requireMigratedIds w action).disk.database = some db := by
  have current := alive.onDisk.database
  cases action with
  | initEmptyStore storeId nowSec fault =>
      show (World.disk (if w.process.isSome then w else _)).database = _
      split_ifs
      · exact current
      · show (genesis w.disk storeId.1 none nowSec fault).disk.database = _
        rw [genesis_of_stored current]
        exact current
  | migrateStoreJson entries storeId nowSec fault =>
      show (World.disk (if w.process.isSome then w else _)).database = _
      split_ifs
      · exact current
      · show (migrateStoreJson host w.disk config requireMigratedIds entries storeId.1 nowSec
          fault).disk.database = _
        rw [migrate_of_stored current]
        exact current
  | start fault =>
      show (World.disk (if w.process.isSome then w else _)).database = _
      split_ifs
      · exact current
      · exact (alive.onDisk.reconciled (.create (some config) requireMigratedIds) rfl rfl
          fault).onDisk.database
  | setConfig fault =>
      unfold step
      dsimp only
      cases served : w.process with
      | none => exact current
      | some store =>
          show (setConfig host w.disk store (some config) none fault).1.database = _
          unfold setConfig
          dsimp only
          split_ifs
          · exact (alive.onDisk.reconciled { store with config := some config, configError := none } rfl
              (alive.serves store served).required fault).onDisk.database
          · exact current
  | lookupPrior writer d => exact current
  | submit req fault => exact absurd rfl (submit req fault)
  | hardDelete target nowSec fault => exact absurd rfl (hardDelete target nowSec fault)
  | purgeRetention nowSec fault => exact absurd rfl (purgeRetention nowSec fault)
  | recordVerifiedBackup receipt => exact current
  | checkpoint => exact Disk.database_checkpoint.trans current
  | crash => exact current

/-- The database after an action, said exactly. -/
theorem Alive.effect_of_database (alive : Alive host config requireMigratedIds w db hist base)
    {action : Action}
    (left : (step host config requireMigratedIds w action).disk.database = some db') :
    Effect host w db action db' := by
  have current := alive.onDisk.database
  have unchanged : commits host w action = none →
      (step host config requireMigratedIds w action).disk.database = some db →
      Effect host w db action db' := by
    intro silent same
    obtain rfl := Option.some.inj (same.symm.trans left)
    exact .stays silent
  cases action with
  | submit req fault => exact effect_submit current left
  | hardDelete target nowSec fault => exact effect_hardDelete current left
  | purgeRetention nowSec fault => exact effect_purgeRetention current left
  | initEmptyStore => exact unchanged rfl (alive.unchanged nofun nofun nofun)
  | migrateStoreJson => exact unchanged rfl (alive.unchanged nofun nofun nofun)
  | start => exact unchanged rfl (alive.unchanged nofun nofun nofun)
  | setConfig => exact unchanged rfl (alive.unchanged nofun nofun nofun)
  | lookupPrior => exact unchanged rfl (alive.unchanged nofun nofun nofun)
  | recordVerifiedBackup => exact unchanged rfl (alive.unchanged nofun nofun nofun)
  | checkpoint => exact unchanged rfl (alive.unchanged nofun nofun nofun)
  | crash => exact unchanged rfl (alive.unchanged nofun nofun nofun)

/-- **One action of a store**: it keeps the store and its history together, and its database is one
of four. -/
theorem Alive.effect (alive : Alive host config requireMigratedIds w db hist base) (action : Action) :
    ∃ db' hist' base', Alive host config requireMigratedIds
        (step host config requireMigratedIds w action) db' hist' base' ∧
      Moves host config db hist db' hist' ∧ Effect host w db action db' := by
  obtain ⟨db', hist', base', later, moves⟩ := alive_step alive action
  exact ⟨db', hist', base', later, moves, alive.effect_of_database later.onDisk.database⟩

/-! ### What a committed submit has passed -/

theorem commits_eq_some {action : Action} {c : Commit} (committed : commits host w action = some c) :
    ∃ store req fault, action = .submit req fault ∧ w.process = some store ∧
      submitChecks host w.disk store req = .ok ⟨c.db, c.writer, c.v⟩ ∧ c.nowSec = req.nowSec ∧
      submitTx c.db c.writer c.v req.expectedPriorId req.nowSec = .staged c.staged := by
  cases action with
  | submit req fault =>
      unfold commits at committed
      cases served : w.process with
      | none =>
          rw [served] at committed
          cases committed
      | some store =>
          rw [served] at committed
          dsimp only at committed
          cases checks : submitChecks host w.disk store req with
          | error refusal =>
              rw [checks] at committed
              cases committed
          | ok admitted =>
              obtain ⟨db, writer, v⟩ := admitted
              rw [checks] at committed
              dsimp only at committed
              cases tx : submitTx db writer v req.expectedPriorId req.nowSec with
              | staged staged =>
                  rw [tx] at committed
                  rw [Option.ite_none_left_eq_some] at committed
                  obtain ⟨-, built⟩ := committed
                  obtain rfl := Option.some.inj built
                  exact ⟨store, req, fault, rfl, rfl, checks, rfl, tx⟩
              | _ =>
                  rw [tx] at committed
                  cases committed
  | _ => cases committed

theorem Alive.committed (alive : Alive host config requireMigratedIds w db hist base)
    {action : Action} {c : Commit} (committed : commits host w action = some c) :
    Committed host config db hist c := by
  obtain ⟨store, req, fault, -, served, checks, time, tx⟩ := commits_eq_some committed
  obtain ⟨config', passed⟩ := submitChecks_eq_ok.mp checks
  obtain rfl : config' = config :=
    Option.some.inj (passed.configured.symm.trans (alive.serves store served).config)
  have ends := @submitTx_ends c.db c.writer c.v req.expectedPriorId req.nowSec
  rw [tx, ← time] at ends
  cases ends with
  | staged db' absent prior newer active underCap submitted =>
      have purged := (alive.ready served passed.ready).2.2
      refine ⟨Option.some.inj (passed.database.symm.trans alive.onDisk.database),
        ⟨req.event, passed.checked⟩, ⟨req.writer, passed.writer⟩, ?_, absent, newer, underCap, submitted,
        purged ▸ passed.unpurged⟩
      -- a configured key is lower case already
      have reads := (checkEvent_eq_ok passed.checked).2.2
      have lower : c.v.pubkey = lowerAscii req.event.pubkey := reads.pubkey
      have own : req.event.pubkey = c.writer.pubkey := passed.pubkey
      rw [lower, own]
      exact lowerAscii_of_isHex64 c.writer.isHex64_pubkey

end Effects

/-! ### Runs with the submits they commit -/

/-- A world, and the submits committed on the way to it. -/
structure Log where
  world : World
  commits : List Commit

def Log.empty : Log := ⟨World.empty, []⟩

section Logs

variable (host : Host) (config : Config) (requireMigratedIds : List String)

def Log.step (log : Log) (action : Action) : Log :=
  ⟨Store.step host config requireMigratedIds log.world action,
    log.commits ++ (Store.commits host log.world action).toList⟩

def Log.run (log : Log) (actions : List Action) : Log :=
  Runs.run (Log.step host config requireMigratedIds) log actions

theorem Log.run_world (log : Log) (actions : List Action) :
    (log.run host config requireMigratedIds actions).world =
      Store.run host config requireMigratedIds log.world actions := by
  induction actions generalizing log with
  | nil => rfl
  | cons action actions ih => exact ih (log.step host config requireMigratedIds action)

theorem Log.run_snoc (log : Log) (actions : List Action) (last : Action) :
    log.run host config requireMigratedIds (actions ++ [last]) =
      (log.run host config requireMigratedIds actions).step host config requireMigratedIds last :=
  Runs.run_append log actions [last]

/-- Before the genesis nothing is committed; after it the fact holds of the commits, the database and
its history. -/
def Logged (fact : List Commit → Database → List Line → Prop) (log : Log) : Prop :=
  (Unborn config requireMigratedIds log.world ∧ log.commits = []) ∨ ∃ db hist base,
    Alive host config requireMigratedIds log.world db hist base ∧ fact log.commits db hist

end Logs

section Logging

variable {host : Host} {config : Config} {requireMigratedIds : List String} {log : Log}
  {fact later : List Commit → Database → List Line → Prop}

/-- A process that has not begun its store commits no submit. -/
theorem Unborn.silent (unborn : Unborn config requireMigratedIds log.world) (action : Action) :
    Store.commits host log.world action = none := by
  cases committed : Store.commits host log.world action with
  | none => rfl
  | some c =>
      obtain ⟨store, req, fault, -, served, checks, -, -⟩ := commits_eq_some committed
      obtain ⟨config', passed⟩ := submitChecks_eq_ok.mp checks
      exact absurd passed.ready (unborn.process store served).2.2

/-- What is logged holds of the database of the world. -/
theorem Logged.database {db : Database} (logged : Logged host config requireMigratedIds fact log)
    (current : log.world.disk.database = some db) :
    ∃ hist base, Alive host config requireMigratedIds log.world db hist base ∧
      fact log.commits db hist := by
  rcases logged with ⟨unborn, -⟩ | ⟨db', hist, base, alive, holds⟩
  · rw [unborn.database] at current
    cases current
  · obtain rfl : db' = db := Option.some.inj (alive.onDisk.database.symm.trans current)
    exact ⟨hist, base, alive, holds⟩

end Logging

end Nvoy.Store
