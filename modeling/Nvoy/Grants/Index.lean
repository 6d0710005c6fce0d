/-
**The Grant Index of an agent**, its kind-10440 document: what the runtime keeps in it and the
operations that its writers share.

* `IssuedEntry`, `DerivedChild`, `GrantIndex` — the document;
* `lineage` — the rows of `nvoy_derived_children` a reader believes;
* `saveLineage` — the document as it is saved with new rows: the last `LINEAGE_CAP` of them.
-/

import Nvoy.Nostr.Event

namespace Nvoy.Grants

/-- A 32-byte key. No two draws of `newScopeKey` agree, so a key is told by its draw. -/
structure ScopeKey where
  draw : Nat
deriving DecidableEq

/-- An entry of `issued`: `toIssuedEntry`. -/
structure IssuedEntry where
  scope : String
  scopeName : String
  v : Nat
  key : ScopeKey
  grantees : List String
deriving DecidableEq

/-- A generation as `Number` reads it off a `v` tag; `none` is `NaN`. -/
abbrev Generation := Option Nat

/-- `a <= b`, where a comparison with `NaN` is false. -/
def Generation.notAbove : Generation → Generation → Bool
  | some a, some b => a ≤ b
  | _, _ => false

/-- `a > b` -/
def Generation.above : Generation → Generation → Bool
  | some a, some b => b < a
  | _, _ => false

inductive ChildState where
  | active
  | revoked
deriving DecidableEq

structure Parent where
  publisher : String
  scope : String
  generation : Generation
deriving DecidableEq

structure Child where
  scope : String
  generation : Generation
  grantee : String
  scopeName : String
deriving DecidableEq

/-- A row of the parent-to-child ledger. -/
structure DerivedChild where
  parent : Parent
  child : Child
  state : ChildState
  issuedAt : Int
  revokedAt : Option Int
deriving DecidableEq

structure GrantIndex where
  issued : List IssuedEntry
  /-- Delegator and scope id, in the order the object keeps them. -/
  nvoyOutbox : List (String × String)
  nvoyDerivedChildren : List DerivedChild
deriving DecidableEq

/-- What `loadGrantIndex` gives when no relay has the document. -/
def GrantIndex.blank : GrantIndex := ⟨[], [], []⟩

/-! ### The lineage -/

/-- `/^[0-9a-f]{64}$/i` -/
def isHexKey (text : String) : Bool :=
  text.toList.length = 64 && text.toList.all fun c => isLowerHex c || ('A' ≤ c && c ≤ 'F')

/-- What `lineage` asks of a row; the state is one of the two by its type. -/
def DerivedChild.wellFormed (row : DerivedChild) : Bool :=
  isHexKey row.parent.publisher && row.parent.generation.isSome &&
    row.child.generation.isSome && isHexKey row.child.grantee

def lineage (index : GrantIndex) : List DerivedChild :=
  index.nvoyDerivedChildren.filter DerivedChild.wellFormed

/-- How many rows `saveLineage` keeps. -/
def LINEAGE_CAP : Nat := 500

/-- `rows.slice(-500)` -/
def lastRows (rows : List DerivedChild) : List DerivedChild :=
  rows.drop (rows.length - LINEAGE_CAP)

/-- The document `saveLineage` publishes. -/
def saveLineage (index : GrantIndex) (rows : List DerivedChild) : GrantIndex :=
  { index with nvoyDerivedChildren := lastRows rows }

@[simp]
theorem saveLineage_children (index : GrantIndex) (rows : List DerivedChild) :
    (saveLineage index rows).nvoyDerivedChildren = lastRows rows := by
  simp only [saveLineage]

theorem lastRows_of_le {rows : List DerivedChild} (short : rows.length ≤ LINEAGE_CAP) :
    lastRows rows = rows := by
  rw [lastRows, Nat.sub_eq_zero_of_le short, List.drop_zero]

theorem lastRows_sublist (rows : List DerivedChild) : (lastRows rows).Sublist rows :=
  List.drop_sublist _ _

theorem wellFormed_of_mem_lineage {index : GrantIndex} {row : DerivedChild}
    (mem : row ∈ lineage index) : row.wellFormed := (List.mem_filter.mp mem).2

theorem lineage_eq_self {index : GrantIndex}
    (formed : ∀ row ∈ index.nvoyDerivedChildren, row.wellFormed) :
    lineage index = index.nvoyDerivedChildren := List.filter_eq_self.mpr formed

end Nvoy.Grants
