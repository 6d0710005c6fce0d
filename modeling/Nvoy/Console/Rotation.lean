/-
**Rotations of the console**: revoke-now, hard expiry and the end of a relinquished delegation,
which all drop agents from a scope through `rotateDropping` and re-grant the others.

* `rotateDropping`, `rotateWithTerms`, `expiryRotationPlan`, `relinquishPlan` — the source's
  functions;
* `Desk`, `step` — the console at work on one Grant Index: grants, rotations, relinquish notices
  and loads, every publication of which can be the last one the relays take;
* `ok_of_rotateDropping` — what a rotation that goes through publishes and saves.
-/

import Nvoy.Console.Ledger
import Nvoy.Lib.JsSet
import Nvoy.Lib.Runs

namespace Nvoy.Console

open Grants (IssuedEntry ScopeKey)
open Recent (latest)
open Runs (run Meets)

/-! ### What is sent -/

/-- A 440 as it is sent. -/
structure Grant where
  scope : String
  agent : String
  v : Nat
  terms : Option Terms
  /-- Sent by a rotation to a survivor. -/
  again : Bool
deriving DecidableEq

/-- A relinquish notice, as `receiveNotices` reads it. -/
structure Relinquish where
  sender : String
  scope : String
  reason : Option String
  destroyedAt : Int
  atSec : Int
deriving DecidableEq

inductive Message where
  | scope (scope : String) (v : Nat)
  | grant (g : Grant)
  | relinquish (notice : Relinquish)
deriving DecidableEq

/-! ### Rotation -/

/-- `status` of what `fetchScope` answers on the delegator's own scope. -/
inductive ReadBack where
  | ok
  | stale
  | missing
deriving DecidableEq

def ReadBack.text : ReadBack → String
  | .ok => "ok"
  | .stale => "stale"
  | .missing => "missing"

structure Survivor where
  pub : String
  terms : Option Terms
deriving DecidableEq

/-- The publications, in order: the payload under the next generation, then a 440 for each
survivor. -/
def rotateWithTerms (scopeId : String) (generation : Nat) (survivors : List Survivor) :
    List Message :=
  .scope scopeId (generation + 1) ::
    survivors.map fun s => .grant ⟨scopeId, s.pub, generation + 1, s.terms, true⟩

structure Rotation where
  fromV : Nat
  toV : Nat
  survivors : List Survivor
  messages : List Message
  index : Index

/-- `dels.find(x => x.scope === scope && x.agent === pub)?.terms ?? null` -/
def termsOf (dels : List Delegation) (scope pub : String) : Option Terms :=
  (dels.find? fun x => x.scope = scope && x.agent = pub).bind (·.terms)

def survivorsOf (index : Index) (nowSec : Int) (entry : IssuedEntry) (drop : List String) :
    List Survivor :=
  (entry.grantees.filter fun p => !drop.contains p).map fun pub =>
    ⟨pub, termsOf (deriveDelegations index nowSec) entry.scope pub⟩

def rotateDropping (index : Index) (nowSec : Int) (scope : String) (drop : List String)
    (res : ReadBack) (scopeKey : ScopeKey)
    (makeEvents : Nat → Nat → Nat → List LedgerEvent) : Except String Rotation :=
  match index.issued.find? (·.scope = scope) with
  | none => .error "scope not in the index — cannot rotate"
  | some entry =>
    if res = .ok then
      let survivors := survivorsOf index nowSec entry drop
      let rotated : IssuedEntry :=
        ⟨entry.scope, entry.scopeName, entry.v + 1, scopeKey, survivors.map (·.pub)⟩
      .ok {
        fromV := entry.v
        toV := entry.v + 1
        survivors := survivors
        messages := rotateWithTerms entry.scope entry.v survivors
        index :=
          { issued := index.issued.map fun e => if e.scope ≠ scope then e else rotated
            nvoyLedger := appendAll index.nvoyLedger
              (makeEvents entry.v (entry.v + 1) survivors.length) } }
    else .error (s!"cannot read own scope back from relays ({res.text}) — " ++
      "not rotating, that would destroy the data")

/-- What a rotation that goes through publishes and saves. -/
theorem ok_of_rotateDropping {index : Index} {nowSec : Int} {scope : String} {drop : List String}
    {res : ReadBack} {key : ScopeKey} {makeEvents : Nat → Nat → Nat → List LedgerEvent}
    {rotation : Rotation}
    (done : rotateDropping index nowSec scope drop res key makeEvents = .ok rotation) :
    ∃ entry ∈ index.issued, entry.scope = scope ∧
      rotation.survivors = survivorsOf index nowSec entry drop ∧
      rotation.messages = rotateWithTerms entry.scope entry.v rotation.survivors ∧
      rotation.index.issued = (index.issued.map fun e => if e.scope ≠ scope then e else
        ⟨entry.scope, entry.scopeName, entry.v + 1, key, rotation.survivors.map (·.pub)⟩) ∧
      rotation.index.nvoyLedger = appendAll index.nvoyLedger
        (makeEvents entry.v (entry.v + 1) rotation.survivors.length) := by
  unfold rotateDropping at done
  split at done
  next => exact absurd done (by simp)
  next entry found =>
    split at done
    next =>
      cases done
      have named : entry.scope = scope := by simpa using List.find?_some found
      exact ⟨entry, List.mem_of_find?_eq_some found, named, rfl, rfl, rfl, rfl⟩
    next => exact absurd done (by simp)

/-! ### The plans -/

structure ExpiryItem where
  scope : String
  scopeName : String
  expired : List String
deriving DecidableEq

/-- One delegation of the sweep. -/
def noteExpired (issued : JsMap String IssuedEntry) (byScope : JsMap String ExpiryItem)
    (d : Delegation) : JsMap String ExpiryItem :=
  if d.status = .expired ∧ holds (issued.get d.scope) d.agent then
    let item := (byScope.get d.scope).getD ⟨d.scope, d.scopeName, []⟩
    byScope.set d.scope { item with expired := item.expired ++ [d.agent] }
  else byScope

def expiryRotationPlan (index : Index) (nowSec : Int) : List ExpiryItem :=
  ((deriveDelegations index nowSec).foldl (noteExpired (issuedByScope index.issued)) .empty).values

structure RelinquishItem where
  scope : String
  scopeName : String
  agent : String
  reason : Option String
  destroyedAt : Int
  v : Nat
  others : Nat
deriving DecidableEq

structure RelinquishPlan where
  seen : JsSet (String × String)
  auto : List RelinquishItem
  confirm : List RelinquishItem

/-- One notice of the plan. -/
def noteRelinquish (issued : JsMap String IssuedEntry) (plan : RelinquishPlan)
    (notice : Relinquish) : RelinquishPlan :=
  if plan.seen.has (notice.scope, notice.sender) then plan
  else
    let plan := { plan with seen := plan.seen.add (notice.scope, notice.sender) }
    match issued.get notice.scope with
    | none => plan
    | some entry =>
      if entry.grantees.contains notice.sender then
        let others := (entry.grantees.filter (· ≠ notice.sender)).length
        let item : RelinquishItem :=
          ⟨notice.scope, entry.scopeName, notice.sender, notice.reason, notice.destroyedAt,
            entry.v, others⟩
        if others = 0 then { plan with auto := plan.auto ++ [item] }
        else { plan with confirm := plan.confirm ++ [item] }
      else plan

def relinquishPlan (index : Index) (relinquishes : List Relinquish) : RelinquishPlan :=
  relinquishes.foldl (noteRelinquish (issuedByScope index.issued)) ⟨.empty, [], []⟩

/-- `relinquishes.sort((a, b) => b.at - a.at)` -/
def newestFirst (relinquishes : List Relinquish) : List Relinquish :=
  relinquishes.insertionSort fun a b => b.atSec ≤ a.atSec

/-! ### The console at work -/

/-- The Grant Index, everything sent so far (oldest first), and the items that loads have
planned. -/
structure Desk where
  index : Index
  messages : List Message
  expiring : List ExpiryItem
  auto : List RelinquishItem
  pendingRelinquish : List RelinquishItem

def Desk.blank : Desk := ⟨.blank, [], [], [], []⟩

/-- How far a call gets: the relays take all of it and the index is saved, or the call throws after
so many publications. The next load reads the index as it was last saved. -/
inductive Progress where
  | saved
  | stopped (published : Nat)
deriving DecidableEq

inductive Action where
  /-- `issue` of the composer: a new scope for one agent. -/
  | issue (nowSec : Int) (scope scopeName agent : String) (terms : Terms) (key : ScopeKey)
      (progress : Progress)
  /-- `addGrantee`: one more agent under the same key. -/
  | addGrantee (nowSec : Int) (scope agent : String) (terms : Terms) (progress : Progress)
  | revoke (nowSec : Int) (scope agent reason : String) (res : ReadBack) (key : ScopeKey)
      (progress : Progress)
  /-- The plan of `sweepExpiries`. -/
  | sweep (nowSec : Int)
  | runExpiryRotation (nowSec : Int) (item : ExpiryItem) (res : ReadBack) (key : ScopeKey)
      (progress : Progress)
  /-- An agent sends a relinquish notice. -/
  | notify (notice : Relinquish)
  /-- The plan a load makes of the notices the relays give it. -/
  | plan (inbox : List Relinquish)
  /-- An item of the load's own list, or one the user confirms. -/
  | runRelinquishRotation (nowSec : Int) (item : RelinquishItem) (res : ReadBack) (key : ScopeKey)
      (progress : Progress)

/-- The desk after a call that publishes these messages and saves this index. -/
def Desk.perform (desk : Desk) (messages : List Message) (index : Index) : Progress → Desk
  | .saved => { desk with messages := desk.messages ++ messages, index := index }
  | .stopped published => { desk with messages := desk.messages ++ messages.take published }

def revokeEvents (nowSec : Int) (scope agent reason : String) (fromV toV survivors : Nat) :
    List LedgerEvent :=
  [.revoked nowSec scope agent fromV (if reason = "" then none else some reason) (reason ≠ ""),
    .rotated nowSec scope fromV toV survivors]

def expiryEvents (nowSec : Int) (item : ExpiryItem) (fromV toV survivors : Nat) :
    List LedgerEvent :=
  [.expiredRotated nowSec item.scope fromV toV item.expired.length survivors]

def relinquishEvents (nowSec : Int) (item : RelinquishItem) (fromV toV survivors : Nat) :
    List LedgerEvent :=
  [.relinquished nowSec item.scope item.agent fromV item.reason item.destroyedAt,
    .rotated nowSec item.scope fromV toV survivors]

/-- A rotation that throws before it publishes leaves everything as it is. -/
def Desk.rotate (desk : Desk) (nowSec : Int) (scope : String) (drop : List String)
    (res : ReadBack) (key : ScopeKey) (makeEvents : Nat → Nat → Nat → List LedgerEvent)
    (progress : Progress) : Desk :=
  match rotateDropping desk.index nowSec scope drop res key makeEvents with
  | .error _ => desk
  | .ok rotation => desk.perform rotation.messages rotation.index progress

/-- The agent is not a grantee of the scope yet, or the scope is new. -/
def Desk.admits (desk : Desk) : Action → Bool
  | .issue nowSec scope _ _ terms _ _ =>
    !(desk.index.issued.any (·.scope = scope)) &&
      !(terms.expiresAt.any fun t => t ≠ 0 && t ≤ nowSec)
  | .addGrantee _ scope agent _ _ =>
    (desk.index.issued.find? (·.scope = scope)).any fun entry => !entry.grantees.contains agent
  | .runExpiryRotation _ item _ _ _ => desk.expiring.contains item
  | .runRelinquishRotation _ item _ _ _ =>
    desk.auto.contains item || desk.pendingRelinquish.contains item
  | .plan inbox => inbox.all fun notice => desk.messages.contains (.relinquish notice)
  | _ => true

def step (desk : Desk) (action : Action) : Desk :=
  if desk.admits action then
    match action with
    | .issue nowSec scope scopeName agent terms key progress =>
      desk.perform [.scope scope 1, .grant ⟨scope, agent, 1, some terms, false⟩]
        { issued := desk.index.issued ++ [⟨scope, scopeName, 1, key, [agent]⟩]
          nvoyLedger := appendLedger desk.index.nvoyLedger
            (.granted nowSec scope agent 1 (some terms) scopeName) } progress
    | .addGrantee nowSec scope agent terms progress =>
      match desk.index.issued.find? (·.scope = scope) with
      | none => desk
      | some entry =>
        desk.perform [.grant ⟨scope, agent, entry.v, some terms, false⟩]
          { issued := desk.index.issued.map fun e =>
              if e.scope ≠ scope then e else { e with grantees := e.grantees ++ [agent] }
            nvoyLedger := appendLedger desk.index.nvoyLedger
              (.granted nowSec scope agent entry.v (some terms) entry.scopeName) } progress
    | .revoke nowSec scope agent reason res key progress =>
      desk.rotate nowSec scope [agent] res key (revokeEvents nowSec scope agent reason) progress
    | .sweep nowSec => { desk with expiring := expiryRotationPlan desk.index nowSec }
    | .runExpiryRotation nowSec item res key progress =>
      desk.rotate nowSec item.scope item.expired res key (expiryEvents nowSec item) progress
    | .notify notice => { desk with messages := desk.messages ++ [.relinquish notice] }
    | .plan inbox =>
      let plan := relinquishPlan desk.index (newestFirst inbox)
      { desk with auto := plan.auto, pendingRelinquish := plan.confirm }
    | .runRelinquishRotation nowSec item res key progress =>
      desk.rotate nowSec item.scope [item.agent] res key (relinquishEvents nowSec item) progress
  else desk

end Nvoy.Console
