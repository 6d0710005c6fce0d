/-
**The rules of re-delegation**: what `issueDerivedGrant` checks before it publishes anything, and
what it records afterwards.

* `HeldGrant`, `grantStatus`, `validate` — the parent grant and what it must permit;
* `boundOf`, `admitsAnother` — the bound a parent carries and whether one more child fits it;
* `withChild` — the index with the entry and the row of a new child.

An accepted parent has the estate's default bound: `validate` asks for `redelegate: true`, which is
the value that stands for the defaults (`bound_of_accepted`).
-/

import Nvoy.Grants.Index
import Nvoy.Lib.Checks
import Nvoy.Lib.JsNumber
import Nvoy.Lib.JsSet
import Nvoy.Memory.Claim

namespace Nvoy.Grants

/-! ### The parent grant -/

/-- The terms a parent grant carries, as far as re-delegation reads them. -/
structure NvoyTerms where
  expiresAt : Option JsNumber
  noPersist : Bool
  /-- The value as it stands in the terms: `boundOf` reads it as `unknown`. -/
  redelegate : Option Json

structure HeldGrant where
  publisher : String
  scopeId : String
  generation : Generation
  scopeKey : ScopeKey
  expiration : Option JsNumber
  terms : Option NvoyTerms
  revoked : Bool
  relinquished : Bool

/-- What the caller asks for the child. -/
structure DerivedTerms where
  purpose : String
  expiresAt : Option JsNumber

inductive GrantStatus where
  | active
  | expired
  | revokedDetected
  | relinquished
deriving DecidableEq

def grantStatus (g : HeldGrant) (nowSec : Int) : GrantStatus :=
  if g.revoked then .revokedDetected
  else if g.relinquished then .relinquished
  else match g.terms.bind (·.expiresAt) with
    | some expiresAt => if expiresAt.le (.finite nowSec) then .expired else .active
    | none =>
      match g.expiration with
      | some expiration => if expiration.le (.finite nowSec) then .expired else .active
      | none => .active

/-- `parent.terms?.expires_at ?? parent.expiration` -/
def HeldGrant.expiry (parent : HeldGrant) : Option JsNumber :=
  (parent.terms.bind (·.expiresAt)).or parent.expiration

/-- Without an expiry of the parent, any will do. -/
def DerivedTerms.endBy (terms : DerivedTerms) : Option JsNumber → Bool
  | some parentExpiry => terms.expiresAt.any fun expiresAt => !JsNumber.lt parentExpiry expiresAt
  | none => true

/-- The texts are those of `RedelegationForbidden`. -/
def validate (parent : HeldGrant) (terms : DerivedTerms) (nowSec : Int) : Except String Unit := do
  ensure (grantStatus parent nowSec = .active) "the parent grant is not active"
  ensure (match parent.terms.bind (·.redelegate) with | some (.bool true) => true | _ => false)
    "the parent grant does not permit re-delegation"
  ensure (!(parent.terms.any (·.noPersist)))
    "a no_persist parent grant cannot be re-delegated into a stored derived scope"
  ensure (Memory.trim terms.purpose ≠ "") "a derived grant needs a purpose"
  ensure (terms.endBy parent.expiry) "a derived grant must expire no later than its parent"

/-! ### The bound -/

structure RedelegateBound where
  maxChildren : Int
  maxGrantees : Int
  /-- The parent carried a bare boolean: these are the estate's defaults. -/
  defaulted : Bool
deriving DecidableEq

def REDELEGATE_DEFAULTS : RedelegateBound := ⟨8, 4, true⟩

/-- The count a bound object names, or the default; `none` is `NaN`. -/
def boundField (value : Option Json) (default : Int) : Option Int :=
  match value with
  | none => some default
  | some .null => some default
  | some value => value.integer.filter (0 < ·)

/-- `typeof` of a value that is not an object. -/
def jsonType : Json → String
  | .num _ _ => "number"
  | .str _ => "string"
  | .bool _ => "boolean"
  | _ => "object"

/-- The bound an object names. -/
def boundOfObject (value : Json) : Except String RedelegateBound :=
  match boundField (value.get "max_children") REDELEGATE_DEFAULTS.maxChildren,
      boundField (value.get "max_grantees") REDELEGATE_DEFAULTS.maxGrantees with
  | some maxChildren, some maxGrantees => do
    ensure (maxChildren ≤ REDELEGATE_DEFAULTS.maxChildren)
      s!"max_children may only be tightened: {maxChildren} exceeds the estate default of {REDELEGATE_DEFAULTS.maxChildren}"
    ensure (maxGrantees ≤ REDELEGATE_DEFAULTS.maxGrantees)
      s!"max_grantees may only be tightened: {maxGrantees} exceeds the estate default of {REDELEGATE_DEFAULTS.maxGrantees}"
    .ok ⟨maxChildren, maxGrantees, false⟩
  | _, _ => .error "max_children and max_grantees must be positive integers when present"

def boundOf (terms : Option NvoyTerms) : Except String RedelegateBound :=
  match terms.bind (·.redelegate) with
  | none | some .null | some (.bool false) => .error "this grant does not permit re-delegation"
  | some (.bool true) => .ok REDELEGATE_DEFAULTS
  | some (.num m e) =>
    .error s!"redelegate must be false, true, or a bound object; got {jsonType (.num m e)}"
  | some (.str text) =>
    .error s!"redelegate must be false, true, or a bound object; got {jsonType (.str text)}"
  | some value => boundOfObject value

/-- The distinct grantees of some rows. -/
def granteesOf (rows : List DerivedChild) : JsSet String :=
  JsSet.ofList ((rows.map (·.child.grantee)).filter (· ≠ ""))

/-- Whether one more child stays inside the bound. -/
def admitsAnother (bound : RedelegateBound) (rows : List DerivedChild) (recipient : String) :
    Except String Unit := do
  let estate := if bound.defaulted then
    " (the estate default, because the parent carried a bare `redelegate: true`)" else ""
  ensure (rows.length < bound.maxChildren)
    (s!"this grant's re-delegation budget is spent: {rows.length} of {bound.maxChildren} children " ++
      s!"already issued{estate}. Revoked children still count — the bound is on how far this data " ++
      "has been spread, not on how much is live.")
  let grantees := granteesOf rows
  let brief := if bound.defaulted then " (the estate default)" else ""
  ensure (grantees.has recipient || grantees.size < bound.maxGrantees)
    (s!"this grant may reach {bound.maxGrantees} distinct recipients and already reaches " ++
      s!"{grantees.size}{brief}. Re-granting to a " ++
      "key that already holds a child is still allowed — that party was already permitted.")

/-- The rows of one parent. -/
def rowsOf (index : GrantIndex) (publisher scope : String) : List DerivedChild :=
  (lineage index).filter fun row => row.parent.publisher = publisher && row.parent.scope = scope

/-- The budget check of `issueDerivedGrant` on the index it has loaded. -/
def checkBudget (bound : RedelegateBound) (index : GrantIndex) (parent : HeldGrant)
    (recipient : String) : Except String Unit :=
  admitsAnother bound (rowsOf index parent.publisher parent.scopeId) recipient

/-! ### The record -/

/-- The row of a new child. -/
def childRow (parent : HeldGrant) (scopeId scopeName recipient : String) (issuedAt : Int) :
    DerivedChild :=
  ⟨⟨parent.publisher, parent.scopeId, parent.generation⟩, ⟨scopeId, some 1, recipient, scopeName⟩,
    .active, issuedAt, none⟩

/-- The index `issueDerivedGrant` saves: the one it has loaded with the child's entry and row. -/
def withChild (index : GrantIndex) (parent : HeldGrant) (scopeId scopeName recipient : String)
    (scopeKey : ScopeKey) (issuedAt : Int) : GrantIndex :=
  saveLineage { index with issued := index.issued ++ [⟨scopeId, scopeName, 1, scopeKey, [recipient]⟩] }
    (lineage index ++ [childRow parent scopeId scopeName recipient issuedAt])

/-! ### What passing the checks means -/

theorem validate_redelegate {parent : HeldGrant} {terms : DerivedTerms} {nowSec : Int}
    (valid : validate parent terms nowSec = .ok ()) :
    parent.terms.bind (·.redelegate) = some (.bool true) := by
  simp only [validate, bind_eq_ok, ensure_eq_ok] at valid
  obtain ⟨_, -, _, permits, -⟩ := valid
  split at permits
  next found => exact found
  next => cases permits

/-- **The bound of an accepted parent** is the estate's default. -/
theorem bound_of_accepted {parent : HeldGrant} {terms : DerivedTerms} {nowSec : Int}
    {bound : RedelegateBound} (valid : validate parent terms nowSec = .ok ())
    (accepted : boundOf parent.terms = .ok bound) : bound = REDELEGATE_DEFAULTS := by
  rw [boundOf, validate_redelegate valid] at accepted
  exact (Except.ok.inj accepted).symm

theorem admitsAnother_eq_ok {bound : RedelegateBound} {rows : List DerivedChild}
    {recipient : String} : admitsAnother bound rows recipient = .ok () ↔
      (rows.length : Int) < bound.maxChildren ∧
        (recipient ∈ (granteesOf rows).toFinset ∨
          ((granteesOf rows).toFinset.card : Int) < bound.maxGrantees) := by
  simp only [admitsAnother, bind_eq_ok, ensure_eq_ok, decide_eq_true_iff, Bool.or_eq_true,
    JsSet.has_iff, JsSet.size_eq_card]
  simp

theorem mem_granteesOf {rows : List DerivedChild} {grantee : String} :
    grantee ∈ (granteesOf rows).toFinset ↔ grantee ≠ "" ∧ ∃ row ∈ rows, row.child.grantee = grantee := by
  simp only [granteesOf, JsSet.toFinset_ofList, List.mem_toFinset, List.mem_filter, List.mem_map,
    decide_eq_true_iff]
  exact and_comm

theorem mem_rowsOf {index : GrantIndex} {publisher scope : String} {row : DerivedChild} :
    row ∈ rowsOf index publisher scope ↔
      row ∈ lineage index ∧ row.parent.publisher = publisher ∧ row.parent.scope = scope := by
  simp [rowsOf]

/-- A row of the index that is saved was in the one loaded, or is the new child's. -/
theorem mem_lineage_withChild {index : GrantIndex} {parent : HeldGrant}
    {scopeId scopeName recipient : String} {scopeKey : ScopeKey} {issuedAt : Int} {row : DerivedChild}
    (mem : row ∈ lineage (withChild index parent scopeId scopeName recipient scopeKey issuedAt)) :
    row ∈ lineage index ∨ row = childRow parent scopeId scopeName recipient issuedAt := by
  obtain ⟨inSaved, formed⟩ := List.mem_filter.mp mem
  rw [withChild, saveLineage_children] at inSaved
  rcases List.mem_append.mp ((lastRows_sublist _).subset inSaved) with old | new
  · exact .inl old
  · exact .inr (List.mem_singleton.mp new)

end Nvoy.Grants
