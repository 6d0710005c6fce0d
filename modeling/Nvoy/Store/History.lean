/-
How a database and its ledger come about, one write after the other.

* `Begins` — the genesis of a store;
* `Moves` — what one action does to the database and its history: nothing, an accepted submit or a
  purge, each with what the store has checked before it;
* `Past` — a genesis and any number of moves, and `Past.induct`, how a fact about it is proved.
-/

import Mathlib.Logic.Relation
import Nvoy.Store.Recorded

namespace Nvoy.Store

open Memory

section History

variable (host : Host) (config : Config)

/-- What the events of a genesis have passed: the checks of a migration. -/
def Entered (events : List Checked) : Prop :=
  ∀ v ∈ events, (∃ event, checkEvent host event config = .ok v) ∧
    ∀ parsed, parseFactKey v.d = some parsed → writeRefusal config none v.pubkey parsed = none

/-- A genesis. -/
inductive Begins : Database → List Line → Prop where
  | genesis {storeId : String} {events : Option (List Checked)} {nowSec : Int} {created : Database}
      (entered : Entered host config (events.getD []))
      (made : genesisDatabase storeId (events.getD []) nowSec = some created) :
      Begins (created.stage (genesisPayload events) nowSec)
        [stagedLine created (genesisPayload events) nowSec]

/-- What one action does to a database and its history. -/
inductive Moves (db : Database) (hist : List Line) : Database → List Line → Prop where
  | stays : Moves db hist db hist
  | submits {disk : Disk} {store : HiveMemoryStore} {req : SubmitRequest} {writer : Writer}
      {v : Checked} {db' : Database}
      (passed : Passed host disk store req config ⟨db, writer, v⟩)
      (fresh : v.ev.id ∉ (foldLedger hist).purged.toFinset)
      (ends : Ends db writer v req.expectedPriorId req.nowSec (.staged db')) :
      Moves db hist db' (hist ++
        [stagedLine db (.submit v.ev.id v.pubkey v.d v.scope v.status) req.nowSec])
  | purges (ids : List String) (reason : String) (nowSec : Int)
      (stored : ∀ id ∈ ids, id ∈ db.events.ids.toFinset) :
      Moves db hist (purgeTx db ids reason nowSec)
        (hist ++ [stagedLine db (.purge (sortIds ids) reason) nowSec])

/-- Any number of moves. -/
def Reaches : Database × List Line → Database × List Line → Prop :=
  Relation.ReflTransGen fun a b => Moves host config a.1 a.2 b.1 b.2

/-- A database and a history that come from a genesis. -/
def Past (db : Database) (hist : List Line) : Prop :=
  ∃ db₀ hist₀, Begins host config db₀ hist₀ ∧ Reaches host config (db₀, hist₀) (db, hist)

end History

section Rules

variable {host : Host} {config : Config} {db db' : Database} {hist hist' : List Line}

theorem Past.moves (past : Past host config db hist) (moves : Moves host config db hist db' hist') :
    Past host config db' hist' := by
  obtain ⟨db₀, hist₀, begins, reaches⟩ := past
  exact ⟨db₀, hist₀, begins, reaches.tail moves⟩

/-- What every move keeps holds after any number of moves. -/
theorem Reaches.induct {motive : Database → List Line → Prop}
    (moves : ∀ db hist db' hist', motive db hist → Moves host config db hist db' hist' →
      motive db' hist')
    (reaches : Reaches host config (db, hist) (db', hist')) (start : motive db hist) :
    motive db' hist' := by
  have kept : ∀ after, Relation.ReflTransGen (fun a b => Moves host config a.1 a.2 b.1 b.2) (db, hist)
      after → motive after.1 after.2 := by
    intro after reaches
    induction reaches with
    | refl => exact start
    | tail _ move ih => exact moves _ _ _ _ ih move
  exact kept _ reaches

/-- What a genesis establishes and every move keeps holds of every past. -/
theorem Past.induct {motive : Database → List Line → Prop}
    (begins : ∀ db hist, Begins host config db hist → motive db hist)
    (moves : ∀ db hist db' hist', motive db hist → Moves host config db hist db' hist' →
      motive db' hist')
    (past : Past host config db hist) : motive db hist := by
  obtain ⟨db₀, hist₀, first, reaches⟩ := past
  exact reaches.induct moves (begins db₀ hist₀ first)

/-- A genesis purges nothing. -/
theorem Begins.purged_eq (begins : Begins host config db hist) :
    (foldLedger hist).purged.toFinset = ∅ := by
  cases begins with
  | @genesis storeId events nowSec created entered made =>
      show (foldStep .start (stagedLine created (genesisPayload events) nowSec)).purged.toFinset = ∅
      rw [foldStep_purged, if_neg (by cases events <;> exact nofun)]
      rfl

/-- A history only grows. -/
theorem Moves.grows (moves : Moves host config db hist db' hist') : hist <+: hist' := by
  cases moves with
  | stays => exact List.prefix_rfl
  | submits => exact List.prefix_append _ _
  | purges => exact List.prefix_append _ _

theorem Reaches.grows (reaches : Reaches host config (db, hist) (db', hist')) : hist <+: hist' :=
  reaches.induct (motive := fun _ later => hist <+: later)
    (fun _ _ _ _ grown moves => grown.trans moves.grows) List.prefix_rfl

end Rules

end Nvoy.Store
