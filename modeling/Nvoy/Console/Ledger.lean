/-
**The console's ledger**: the log of events kept in the Grant Index and the delegations derived
from it.

* `appendLedger` — one event more, the oldest trimmed past `LEDGER_CAP`;
* `deriveDelegations` — one row for each agent ever granted a scope: who holds it comes from the
  issued entries, the terms from the `granted` events of the log;
* `terms_of_row` — a holder's row carries the terms of the latest `granted` event the log still has
  for it, and none where the log has lost it;
* `status_of_row` — a holder's row is expired once those terms are past, and active before.
-/

import Nvoy.Grants.Index
import Nvoy.Lib.JsMap
import Nvoy.Lib.Recent
import Mathlib.Data.List.Sort

namespace Nvoy.Console

open Grants (IssuedEntry ScopeKey)
open Recent (latest)

/-! ### The document -/

/-- The §4 object; `nvoy: 1` is constant. -/
structure Terms where
  purpose : Option String
  expiresAt : Option Int
  noPersist : Option Bool
  redelegate : Option Bool
  replyScopeRequested : Option Bool
  contact : Option String
  autoRelinquish : Option Bool
deriving DecidableEq

/-- An event of `nvoy_ledger`; the first field of each is its time `at`. -/
inductive LedgerEvent where
  | granted (atSec : Int) (scope agent : String) (v : Nat) (terms : Option Terms) (name : String)
  | rotated (atSec : Int) (scope : String) (fromV toV survivors : Nat)
  | revoked (atSec : Int) (scope agent : String) (v : Nat) (reason : Option String) (notice : Bool)
  | relinquished (atSec : Int) (scope agent : String) (v : Nat) (reason : Option String)
      (destroyedAt : Int)
  | expiredRotated (atSec : Int) (scope : String) (fromV toV expired survivors : Nat)
deriving DecidableEq

/-- The delegator's Grant Index, as far as the console's ledger reads and writes it. -/
structure Index where
  issued : List IssuedEntry
  nvoyLedger : List LedgerEvent
deriving DecidableEq

/-- What `loadGrantIndex` gives when no relay has the document. -/
def Index.blank : Index := ⟨[], []⟩

@[irreducible] def LEDGER_CAP : Nat := 500

theorem LEDGER_CAP_eq : LEDGER_CAP = 500 := by rw [LEDGER_CAP]

/-- Keep the last `LEDGER_CAP` events. -/
def appendLedger (log : List LedgerEvent) (event : LedgerEvent) : List LedgerEvent :=
  (log ++ [event]).rtake LEDGER_CAP

/-- The loop of a writer that appends several events. -/
def appendAll (log : List LedgerEvent) (events : List LedgerEvent) : List LedgerEvent :=
  events.foldl appendLedger log

/-- Is this the event of a grant of the scope to the agent? -/
def LedgerEvent.grants (scope agent : String) : LedgerEvent → Bool
  | .granted _ scope' agent' _ _ _ => scope' = scope && agent' = agent
  | _ => false

/-- The terms a `granted` event records. -/
def LedgerEvent.terms : LedgerEvent → Option Terms
  | .granted _ _ _ _ terms _ => terms
  | _ => none

/-! ### The delegations -/

/-- What the first pass of `deriveDelegations` gathers for a scope and an agent. -/
structure Pair where
  scope : String
  agent : String
  grantedAt : Option Int
  terms : Option Terms
  name : String
deriving DecidableEq

/-- One `granted` event more. The key text `scope:agent` tells the pair: an agent is a key of 64
digits. -/
def notePair (pairs : JsMap (String × String) Pair) : LedgerEvent → JsMap (String × String) Pair
  | .granted atSec scope agent _ terms name =>
    pairs.set (scope, agent)
      ⟨scope, agent, ((pairs.get (scope, agent)).bind (·.grantedAt)).or (some atSec), terms, name⟩
  | _ => pairs

/-- A grantee without a `granted` event still gets a row; its terms are unknown. -/
def noteGrantee (entry : IssuedEntry) (pairs : JsMap (String × String) Pair) (pub : String) :
    JsMap (String × String) Pair :=
  if pairs.has (entry.scope, pub) then pairs
  else pairs.set (entry.scope, pub) ⟨entry.scope, pub, none, none, entry.scopeName⟩

/-- `new Map(issued.map(e => [e.scope, e]))` -/
def issuedByScope (issued : List IssuedEntry) : JsMap String IssuedEntry :=
  issued.foldl (fun entries entry => entries.set entry.scope entry) .empty

def pairsOf (index : Index) : JsMap (String × String) Pair :=
  (issuedByScope index.issued).values.foldl
    (fun pairs entry => entry.grantees.foldl (noteGrantee entry) pairs)
    (index.nvoyLedger.foldl notePair .empty)

inductive Status where
  | active
  | expired
  | relinquished
  | revoked
deriving DecidableEq

def Status.rank : Status → Nat
  | .active => 0
  | .expired => 1
  | .relinquished => 2
  | .revoked => 3

/-- The end of the pair that this event records. -/
def LedgerEvent.ends (p : Pair) : LedgerEvent → Option Status
  | .relinquished _ scope agent _ _ _ =>
    if scope = p.scope ∧ agent = p.agent then some .relinquished else none
  | .revoked _ scope agent _ _ _ =>
    if scope = p.scope ∧ agent = p.agent then some .revoked else none
  | .expiredRotated atSec scope _ _ _ _ =>
    if scope = p.scope ∧ (p.terms.bind (·.expiresAt)).any (· ≤ atSec) then some .expired else none
  | _ => none

/-- The newest end in the log. -/
def droppedStatus (log : List LedgerEvent) (p : Pair) : Status :=
  (log.reverse.findSome? (·.ends p)).getD .revoked

/-- A row of the ledger. -/
structure Delegation where
  scope : String
  scopeName : String
  agent : String
  v : Option Nat
  status : Status
  terms : Option Terms
  purpose : Option String
  grantedAt : Option Int
  expiresAt : Option Int
deriving DecidableEq

/-- `!!e?.grantees?.includes(agent)` -/
def holds (entry : Option IssuedEntry) (agent : String) : Bool :=
  entry.any fun e => e.grantees.contains agent

def delegationOf (index : Index) (nowSec : Int) (p : Pair) : Delegation :=
  let entry := (issuedByScope index.issued).get p.scope
  let expiresAt := p.terms.bind (·.expiresAt)
  { scope := p.scope
    scopeName := (entry.map (·.scopeName)).getD p.name
    agent := p.agent
    v := entry.map (·.v)
    status :=
      if holds entry p.agent then
        (if expiresAt.any (· ≤ nowSec) then .expired else .active)
      else droppedStatus index.nvoyLedger p
    terms := p.terms
    purpose := p.terms.bind (·.purpose)
    grantedAt := p.grantedAt
    expiresAt := expiresAt }

/-- By rank; within a rank the newest grant first. -/
def Delegation.before (a b : Delegation) : Prop :=
  a.status.rank < b.status.rank ∨
    a.status.rank = b.status.rank ∧ b.grantedAt.getD 0 ≤ a.grantedAt.getD 0

instance : DecidableRel Delegation.before := fun a b => by
  unfold Delegation.before
  infer_instance

def deriveDelegations (index : Index) (nowSec : Int) : List Delegation :=
  ((pairsOf index).values.map (delegationOf index nowSec)).insertionSort Delegation.before

theorem mem_deriveDelegations {index : Index} {nowSec : Int} {row : Delegation} :
    row ∈ deriveDelegations index nowSec ↔
      ∃ p, p ∈ (pairsOf index).values ∧ delegationOf index nowSec p = row := by
  rw [deriveDelegations, List.mem_insertionSort, List.mem_map]

/-! ### Appending -/

theorem appendAll_eq {log : List LedgerEvent} (short : log.length ≤ LEDGER_CAP)
    (events : List LedgerEvent) : appendAll log events = (log ++ events).rtake LEDGER_CAP := by
  induction events generalizing log with
  | nil =>
      rw [List.append_nil, Recent.rtake_of_le short]
      simp only [appendAll, List.foldl_nil]
  | cons event rest ih =>
      have still : (appendLedger log event).length ≤ LEDGER_CAP := by
        rw [appendLedger, Recent.length_rtake]
        exact Nat.min_le_right _ _
      calc appendAll log (event :: rest)
        _ = appendAll (appendLedger log event) rest := by rw [appendAll, List.foldl_cons, appendAll]
        _ = (appendLedger log event ++ rest).rtake LEDGER_CAP := ih still
        _ = (log ++ event :: rest).rtake LEDGER_CAP := by
            rw [appendLedger, Recent.rtake_rtake_append, List.append_assoc, List.singleton_append]

theorem length_appendAll {log : List LedgerEvent} (short : log.length ≤ LEDGER_CAP)
    (events : List LedgerEvent) : (appendAll log events).length ≤ LEDGER_CAP := by
  rw [appendAll_eq short, Recent.length_rtake]
  exact Nat.min_le_right _ _

/-! ### The terms of a row -/

/-- The latest grant of the scope to the agent that the log still has. -/
def grantIn (log : List LedgerEvent) (scope agent : String) : Option LedgerEvent :=
  latest (·.grants scope agent) log

/-- Every pair stands at its own scope and agent. -/
def OwnKeys (pairs : JsMap (String × String) Pair) : Prop :=
  ∀ key p, pairs.get key = some p → (p.scope, p.agent) = key

theorem OwnKeys.set {pairs : JsMap (String × String) Pair} (own : OwnKeys pairs) (p : Pair) :
    OwnKeys (pairs.set (p.scope, p.agent) p) := by
  intro key q found
  rw [JsMap.get_set] at found
  split at found
  next here => rw [here, ← Option.some.inj found]
  next => exact own key q found

theorem ownKeys_notePair {pairs : JsMap (String × String) Pair} (own : OwnKeys pairs)
    (event : LedgerEvent) : OwnKeys (notePair pairs event) := by
  cases event with
  | granted atSec scope agent v terms name => exact own.set ⟨scope, agent, _, terms, name⟩
  | _ => exact own

theorem ownKeys_noteGrantee {pairs : JsMap (String × String) Pair} (own : OwnKeys pairs)
    (entry : IssuedEntry) (pub : String) : OwnKeys (noteGrantee entry pairs pub) := by
  unfold noteGrantee
  split
  next => exact own
  next => exact own.set ⟨entry.scope, pub, none, none, entry.scopeName⟩

/-- What one grantee keeps, the second pass keeps. -/
theorem keeps_second {motive : JsMap (String × String) Pair → Prop}
    (keep : ∀ entry pairs pub, motive pairs → motive (noteGrantee entry pairs pub))
    {pairs : JsMap (String × String) Pair} (first : motive pairs) (entries : List IssuedEntry) :
    motive (entries.foldl (fun pairs entry => entry.grantees.foldl (noteGrantee entry) pairs)
      pairs) := by
  refine List.foldlRecOn entries _ first fun pairs' inv entry _ => ?_
  exact List.foldlRecOn entry.grantees _ inv fun pairs'' inv' pub _ => keep entry pairs'' pub inv'

theorem ownKeys_pairsOf (index : Index) : OwnKeys (pairsOf index) := by
  have logged : OwnKeys (index.nvoyLedger.foldl notePair .empty) := by
    refine List.foldlRecOn index.nvoyLedger _ (fun key p found => ?_)
      fun pairs own event _ => ownKeys_notePair own event
    rw [JsMap.get_empty] at found
    exact absurd found (by simp)
  exact keeps_second (motive := OwnKeys)
    (fun entry pairs pub own => ownKeys_noteGrantee own entry pub) logged _

/-- The first pass: the pair has the terms of the latest grant. -/
theorem terms_logged (log : List LedgerEvent) (scope agent : String) :
    ((log.foldl notePair .empty).get (scope, agent)).bind (·.terms) =
      (grantIn log scope agent).bind LedgerEvent.terms := by
  induction log using List.reverseRecOn with
  | nil => rfl
  | append_singleton log event ih =>
      rw [List.foldl_append, List.foldl_cons, List.foldl_nil, grantIn, Recent.latest_append]
      rw [grantIn] at ih
      cases event with
      | granted atSec scope' agent' v terms name =>
          rw [notePair, JsMap.get_set]
          by_cases here : scope' = scope ∧ agent' = agent
          · obtain ⟨rfl, rfl⟩ := here
            simp [latest, LedgerEvent.grants, LedgerEvent.terms]
          · have other : (scope, agent) ≠ (scope', agent') := by
              rintro same
              exact here ⟨(Prod.mk.inj same).1.symm, (Prod.mk.inj same).2.symm⟩
            rw [if_neg other, ih]
            have quiet : latest (·.grants scope agent)
                [LedgerEvent.granted atSec scope' agent' v terms name] = none := by
              rw [Recent.latest_eq_none]
              simpa [LedgerEvent.grants] using here
            rw [quiet, Option.none_or]
      | _ => exact ih

/-- The second pass leaves a pair that is there, and adds one without terms. -/
theorem terms_noteGrantee (entry : IssuedEntry) (pairs : JsMap (String × String) Pair)
    (pub : String) (key : String × String) :
    ((noteGrantee entry pairs pub).get key).bind (·.terms) = (pairs.get key).bind (·.terms) := by
  unfold noteGrantee
  split
  next => rfl
  next absent =>
    rw [JsMap.get_set]
    split
    next here =>
      rw [JsMap.has_eq_isSome, Option.not_isSome_iff_eq_none] at absent
      rw [here, absent]
      rfl
    next => rfl

theorem terms_pairsOf (index : Index) (scope agent : String) :
    ((pairsOf index).get (scope, agent)).bind (·.terms) =
      (grantIn index.nvoyLedger scope agent).bind LedgerEvent.terms := by
  refine keeps_second (motive := fun pairs => (pairs.get (scope, agent)).bind (·.terms) = _)
    (fun entry pairs pub same => ?_) (terms_logged index.nvoyLedger scope agent) _
  exact (terms_noteGrantee entry pairs pub (scope, agent)).trans same

/-- **A row's terms** are those of the latest grant the log still has. -/
theorem terms_of_row {index : Index} {nowSec : Int} {row : Delegation}
    (mem : row ∈ deriveDelegations index nowSec) :
    row.terms = (grantIn index.nvoyLedger row.scope row.agent).bind LedgerEvent.terms := by
  obtain ⟨p, found, rfl⟩ := mem_deriveDelegations.mp mem
  obtain ⟨key, hit⟩ := JsMap.mem_values.mp found
  rw [← terms_pairsOf]
  show p.terms = ((pairsOf index).get (p.scope, p.agent)).bind (·.terms)
  rw [ownKeys_pairsOf index key p hit, hit]
  rfl

/-! ### The rows of the holders -/

theorem isSome_noteGrantee {key : String × String} (entry : IssuedEntry)
    (pairs : JsMap (String × String) Pair) (pub : String) (present : (pairs.get key).isSome) :
    ((noteGrantee entry pairs pub).get key).isSome := by
  unfold noteGrantee
  split
  next => exact present
  next =>
    rw [JsMap.get_set]
    split
    next => rfl
    next => exact present

theorem isSome_of_grantee {pairs : JsMap (String × String) Pair} {entry : IssuedEntry}
    {grantees : List String} {agent : String} (mem : agent ∈ grantees) :
    ((grantees.foldl (noteGrantee entry) pairs).get (entry.scope, agent)).isSome := by
  induction grantees generalizing pairs with
  | nil => exact absurd mem List.not_mem_nil
  | cons pub rest ih =>
      rcases List.mem_cons.mp mem with rfl | later
      · refine List.foldlRecOn
          (motive := fun pairs' : JsMap _ _ => (pairs'.get (entry.scope, agent)).isSome)
          rest _ ?_ fun pairs' present pub _ => isSome_noteGrantee entry pairs' pub present
        unfold noteGrantee
        split
        next there => rwa [← JsMap.has_eq_isSome]
        next => rw [JsMap.get_set, if_pos rfl]; rfl
      · exact ih later

/-- The entry of the scope, where no two entries name one scope. -/
theorem get_issuedByScope {issued : List IssuedEntry} (own : (issued.map (·.scope)).Nodup)
    {entry : IssuedEntry} (mem : entry ∈ issued) :
    (issuedByScope issued).get entry.scope = some entry := by
  unfold issuedByScope
  induction issued using List.reverseRecOn with
  | nil => exact absurd mem List.not_mem_nil
  | append_singleton front last ih =>
      rw [List.map_append, List.nodup_append] at own
      rw [List.foldl_append, List.foldl_cons, List.foldl_nil, JsMap.get_set]
      rcases List.mem_append.mp mem with earlier | here
      · have other : entry.scope ≠ last.scope :=
          own.2.2 _ (List.mem_map_of_mem earlier) _ (by simp)
        rw [if_neg other]
        exact ih own.1 earlier
      · rw [List.mem_singleton.mp here, if_pos rfl]

/-- Every holder has a row. -/
theorem exists_row {index : Index} (own : (index.issued.map (·.scope)).Nodup)
    {entry : IssuedEntry} (mem : entry ∈ index.issued) {agent : String}
    (holder : agent ∈ entry.grantees) (nowSec : Int) :
    ∃ row ∈ deriveDelegations index nowSec, row.scope = entry.scope ∧ row.agent = agent := by
  have listed : entry ∈ (issuedByScope index.issued).values :=
    JsMap.mem_values.mpr ⟨entry.scope, get_issuedByScope own mem⟩
  have present : ((pairsOf index).get (entry.scope, agent)).isSome := by
    obtain ⟨before, after, split⟩ := List.append_of_mem listed
    rw [pairsOf, split, List.foldl_append, List.foldl_cons]
    exact keeps_second isSome_noteGrantee (isSome_of_grantee holder) after
  obtain ⟨p, hit⟩ := Option.isSome_iff_exists.mp present
  have key := ownKeys_pairsOf index _ p hit
  refine ⟨delegationOf index nowSec p, ?_, (Prod.mk.inj key).1, (Prod.mk.inj key).2⟩
  exact mem_deriveDelegations.mpr ⟨p, JsMap.mem_values.mpr ⟨_, hit⟩, rfl⟩

/-- **A holder's row** is expired when its terms are past, and active otherwise. -/
theorem status_of_row {index : Index} (own : (index.issued.map (·.scope)).Nodup)
    {entry : IssuedEntry} (mem : entry ∈ index.issued) {nowSec : Int} {row : Delegation}
    (listed : row ∈ deriveDelegations index nowSec) (here : row.scope = entry.scope)
    (holder : row.agent ∈ entry.grantees) :
    row.status =
      if (row.terms.bind (·.expiresAt)).any (· ≤ nowSec) then .expired else .active := by
  obtain ⟨p, -, rfl⟩ := mem_deriveDelegations.mp listed
  have found : (issuedByScope index.issued).get p.scope = some entry := by
    rw [show p.scope = entry.scope from here]
    exact get_issuedByScope own mem
  have held : holds ((issuedByScope index.issued).get p.scope) p.agent = true := by
    rw [found]
    exact List.contains_iff_mem.mpr holder
  show (if holds ((issuedByScope index.issued).get p.scope) p.agent then _ else _) = _
  rw [if_pos held]
  rfl

end Nvoy.Console
