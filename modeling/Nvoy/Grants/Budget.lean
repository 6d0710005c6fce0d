/-
**The re-delegation budget over whole runs.** One identity makes any number of calls of
`issueDerivedGrant` and `cascadeDerivedRevocation`; they interleave at every `await`, any relay
operation may fail, and a call may be dropped anywhere.

* `step` — one stretch of one call between two awaits;
* `accounted` — a budget check that passes saw a row of every child published for the parent, and no
  other call for that parent stood between its check and its last message;
* `budget_holds` — under it no parent ever has more children or more recipients than its bound;
* `budget_exceeded` — five calls whose index save fails reach five recipients.
-/

import Mathlib.Data.Finset.Card
import Nvoy.Grants.Cascade
import Nvoy.Grants.Derive
import Nvoy.Lib.Runs

namespace Nvoy.Grants

open Nvoy.Runs

/-! ### The runtime -/

/-- A parent as the budget counts it: publisher and scope. -/
abbrev ParentId := String × String

def HeldGrant.id (parent : HeldGrant) : ParentId := (parent.publisher, parent.scopeId)

/-- A child scope that was published, and whom it is for. -/
structure Leaf where
  parent : ParentId
  child : String
  recipient : String
deriving DecidableEq

/-- How the relay answers a publish: `lost` is an event that was taken without the caller hearing of
it. -/
inductive Answer where
  | taken
  | lost
  | refused
deriving DecidableEq

/-- How the relay answers a load of the index: a query that no relay answers in time is empty. -/
inductive Loaded where
  | document
  | missing
  | fails
deriving DecidableEq

def Loaded.of (index : GrantIndex) : Loaded → Option GrantIndex
  | .document => some index
  | .missing => some .blank
  | .fails => none

/-- The arguments of `issueDerivedGrant`. -/
structure Issuance where
  parent : HeldGrant
  recipient : String
  scopeName : String
  terms : DerivedTerms

/-- The await at which an issuance stands. -/
inductive Stage where
  | checking
  | fetching
  | publishing
  | wrapping (scopeId : String) (scopeKey : ScopeKey)
  | recording (scopeId : String) (scopeKey : ScopeKey)
  | saving (document : GrantIndex)

inductive Call where
  | issue (args : Issuance) (bound : RedelegateBound) (stage : Stage)
  | cascadeLoading (revoked : Revoked)
  | cascading (document : GrantIndex) (revoked : Revoked)
  | ended

/-- The index on the relay, the calls, and what the relay has been sent so far: the children
published and the keys wrapped. -/
structure Runtime where
  index : GrantIndex
  calls : List Call
  published : List Leaf
  sent : List Leaf

namespace Runtime

variable (runtime : Runtime)

def goes (c : Nat) (call : Call) : Runtime := { runtime with calls := runtime.calls.set c call }

/-- The relay takes the index, or does not. -/
def saves (document : GrantIndex) : Answer → Runtime
  | .refused => runtime
  | _ => { runtime with index := document }

end Runtime

inductive Action where
  | start (args : Issuance) (nowSec : Int)
  | check (c : Nat) (loaded : Loaded)
  | fetch (c : Nat) (ok : Bool)
  | publish (c : Nat) (scopeId : String) (scopeKey : ScopeKey) (answer : Answer)
  | wrap (c : Nat) (answer : Answer)
  | record (c : Nat) (loaded : Loaded) (nowSec : Int)
  | save (c : Nat) (answer : Answer)
  | startCascade (revoked : Revoked)
  | loadCascade (c : Nat) (loaded : Loaded)
  | endCascade (c : Nat) (host : CascadeHost) (answer : Answer)
  | drop (c : Nat)

/-- What the call does up to its next await. A call that throws is over. -/
def step (runtime : Runtime) : Action → Runtime
  | .start args nowSec =>
    match validate args.parent args.terms nowSec, boundOf args.parent.terms with
    | .ok (), .ok bound =>
      { runtime with calls := runtime.calls ++ [.issue args bound .checking] }
    | _, _ => runtime
  | .check c loaded =>
    match runtime.calls[c]?, loaded.of runtime.index with
    | some (.issue args bound .checking), some index =>
      match checkBudget bound index args.parent args.recipient with
      | .ok () => runtime.goes c (.issue args bound .fetching)
      | .error _ => runtime.goes c .ended
    | some (.issue _ _ .checking), none => runtime.goes c .ended
    | _, _ => runtime
  | .fetch c ok =>
    match runtime.calls[c]? with
    | some (.issue args bound .fetching) =>
      if ok && "derived:".toList.isPrefixOf args.scopeName.toList then
        runtime.goes c (.issue args bound .publishing)
      else runtime.goes c .ended
    | _ => runtime
  | .publish c scopeId scopeKey answer =>
    match runtime.calls[c]? with
    | some (.issue args bound .publishing) =>
      let leaf : Leaf := ⟨args.parent.id, scopeId, args.recipient⟩
      match answer with
      | .taken =>
        { runtime.goes c (.issue args bound (.wrapping scopeId scopeKey)) with
          published := runtime.published ++ [leaf] }
      | .lost => { runtime.goes c .ended with published := runtime.published ++ [leaf] }
      | .refused => runtime.goes c .ended
    | _ => runtime
  | .wrap c answer =>
    match runtime.calls[c]? with
    | some (.issue args bound (.wrapping scopeId scopeKey)) =>
      let leaf : Leaf := ⟨args.parent.id, scopeId, args.recipient⟩
      match answer with
      | .taken =>
        { runtime.goes c (.issue args bound (.recording scopeId scopeKey)) with
          sent := runtime.sent ++ [leaf] }
      | .lost => { runtime.goes c .ended with sent := runtime.sent ++ [leaf] }
      | .refused => runtime.goes c .ended
    | _ => runtime
  | .record c loaded nowSec =>
    match runtime.calls[c]?, loaded.of runtime.index with
    | some (.issue args bound (.recording scopeId scopeKey)), some index =>
      runtime.goes c (.issue args bound (.saving
        (withChild index args.parent scopeId args.scopeName args.recipient scopeKey nowSec)))
    | some (.issue _ _ (.recording _ _)), none => runtime.goes c .ended
    | _, _ => runtime
  | .save c answer =>
    match runtime.calls[c]? with
    | some (.issue _ _ (.saving document)) => (runtime.goes c .ended).saves document answer
    | _ => runtime
  | .startCascade revoked =>
    { runtime with calls := runtime.calls ++ [.cascadeLoading revoked] }
  | .loadCascade c loaded =>
    match runtime.calls[c]?, loaded.of runtime.index with
    | some (.cascadeLoading revoked), some index => runtime.goes c (.cascading index revoked)
    | some (.cascadeLoading _), none => runtime.goes c .ended
    | _, _ => runtime
  -- the severances in between leave the index alone
  | .endCascade c host answer =>
    match runtime.calls[c]? with
    | some (.cascading document revoked) =>
      match cascadeDerivedRevocation host document revoked with
      | .ok (_, 0, _) => runtime.goes c .ended
      | .ok (saved, _, _) => (runtime.goes c .ended).saves saved answer
      | .error _ => runtime.goes c .ended
    | _ => runtime
  | .drop c => runtime.goes c .ended

/-! ### The condition -/

/-- The parent and the recipient of a call that has passed its budget check and may still publish
the child or send its key. -/
def Call.pending : Call → Option (ParentId × String)
  | .issue args _ .fetching => some (args.parent.id, args.recipient)
  | .issue args _ .publishing => some (args.parent.id, args.recipient)
  | .issue args _ (.wrapping _ _) => some (args.parent.id, args.recipient)
  | _ => none

def Call.pendsFor (call : Call) (parent : ParentId) : Bool := call.pending.any (·.1 = parent)

/-- The index has a row of the leaf. -/
def hasRowOf (index : GrantIndex) (leaf : Leaf) : Bool :=
  (rowsOf index leaf.parent.1 leaf.parent.2).any fun row =>
    row.child.scope = leaf.child && row.child.grantee = leaf.recipient

/-- A budget check that passes saw a row of every child published for the parent, and no other call
for the parent stands between its check and its last message. -/
def accounted (runtime : Runtime) : Action → Bool
  | .check c loaded =>
    match runtime.calls[c]?, loaded.of runtime.index with
    | some (.issue args bound .checking), some index =>
      match checkBudget bound index args.parent args.recipient with
      | .ok () =>
        (runtime.published.all fun leaf => leaf.parent ≠ args.parent.id || hasRowOf index leaf) &&
          runtime.calls.all fun call => !call.pendsFor args.parent.id
      | .error _ => true
    | _, _ => true
  | _ => true

/-- The child scopes published for a parent. -/
def childrenOf (published : List Leaf) (parent : ParentId) : Finset String :=
  ((published.filter fun leaf => leaf.parent = parent).map Leaf.child).toFinset

/-- Whom the key of a child of the parent was sent to. -/
def recipientsOf (sent : List Leaf) (parent : ParentId) : Finset String :=
  ((sent.filter fun leaf => leaf.parent = parent).map Leaf.recipient).toFinset

/-! ### The invariant -/

section Counts

variable {leaves : List Leaf} {leaf : Leaf} {parent : ParentId}

theorem mem_childrenOf {child : String} : child ∈ childrenOf leaves parent ↔
    ∃ leaf ∈ leaves, leaf.parent = parent ∧ leaf.child = child := by
  simp [childrenOf, and_assoc]

theorem mem_recipientsOf {recipient : String} : recipient ∈ recipientsOf leaves parent ↔
    ∃ leaf ∈ leaves, leaf.parent = parent ∧ leaf.recipient = recipient := by
  simp [recipientsOf, and_assoc]

theorem childrenOf_snoc : childrenOf (leaves ++ [leaf]) parent =
    if leaf.parent = parent then insert leaf.child (childrenOf leaves parent)
    else childrenOf leaves parent := by
  ext child
  split
  next same => simp [mem_childrenOf, same, or_comm, eq_comm]
  next differ => simp [mem_childrenOf, differ]

theorem recipientsOf_snoc : recipientsOf (leaves ++ [leaf]) parent =
    if leaf.parent = parent then insert leaf.recipient (recipientsOf leaves parent)
    else recipientsOf leaves parent := by
  ext recipient
  split
  next same => simp [mem_recipientsOf, same, or_comm, eq_comm]
  next differ => simp [mem_recipientsOf, differ]

end Counts

/-- Every row of the document is of a key that was sent. -/
def Backed (sent : List Leaf) (document : GrantIndex) : Prop :=
  ∀ row ∈ lineage document, ∃ leaf ∈ sent,
    leaf.parent = (row.parent.publisher, row.parent.scope) ∧ leaf.recipient = row.child.grantee

/-- What is known of a call at each of its awaits. -/
def CallFits (published sent : List Leaf) : Call → Prop
  | .issue args bound stage => bound = REDELEGATE_DEFAULTS ∧
    match stage with
    | .checking => True
    | .fetching | .publishing =>
      (childrenOf published args.parent.id).card < 8 ∧
        (insert args.recipient (recipientsOf sent args.parent.id)).card ≤ 4
    | .wrapping scopeId _ =>
      ⟨args.parent.id, scopeId, args.recipient⟩ ∈ published ∧
        (insert args.recipient (recipientsOf sent args.parent.id)).card ≤ 4
    | .recording scopeId _ => ⟨args.parent.id, scopeId, args.recipient⟩ ∈ sent
    | .saving document => Backed sent document
  | .cascadeLoading _ => True
  | .cascading document _ => Backed sent document
  | .ended => True

/-- Every parent is within the estate's bound, and every call keeps it there: at most one call for a
parent has passed its check and not yet sent its key. -/
structure Within (runtime : Runtime) : Prop where
  children : ∀ parent, (childrenOf runtime.published parent).card ≤ 8
  recipients : ∀ parent, (recipientsOf runtime.sent parent).card ≤ 4
  sent : runtime.sent ⊆ runtime.published
  backed : Backed runtime.sent runtime.index
  fits : ∀ (c : Nat) call, runtime.calls[c]? = some call → CallFits runtime.published runtime.sent call
  alone : ∀ (c c' : Nat) call call' parent, runtime.calls[c]? = some call → runtime.calls[c']? = some call' →
    call.pendsFor parent → call'.pendsFor parent → c = c'

theorem Backed.snoc {sent : List Leaf} {document : GrantIndex} (backed : Backed sent document)
    (leaf : Leaf) : Backed (sent ++ [leaf]) document := by
  intro row mem
  obtain ⟨other, found, same⟩ := backed row mem
  exact ⟨other, List.mem_append_left _ found, same⟩

theorem backed_blank (sent : List Leaf) : Backed sent .blank := by
  intro row mem
  exact absurd mem List.not_mem_nil

theorem Backed.of_loaded {sent : List Leaf} {index document : GrantIndex} {loaded : Loaded}
    (backed : Backed sent index) (answer : loaded.of index = some document) :
    Backed sent document := by
  cases loaded with
  | document =>
    cases answer
    exact backed
  | missing =>
    cases answer
    exact backed_blank sent
  | fails => cases answer

theorem Backed.withChild {sent : List Leaf} {document : GrantIndex} {parent : HeldGrant}
    {scopeId scopeName recipient : String} {scopeKey : ScopeKey} {issuedAt : Int}
    (backed : Backed sent document) (issued : ⟨parent.id, scopeId, recipient⟩ ∈ sent) :
    Backed sent (withChild document parent scopeId scopeName recipient scopeKey issuedAt) := by
  intro row mem
  rcases mem_lineage_withChild mem with old | rfl
  · exact backed row old
  · exact ⟨_, issued, rfl, rfl⟩

/-- A cascade makes no rows: those it saves are rows of the document, some turned into tombstones. -/
theorem Backed.cascade {sent : List Leaf} {document saved : GrantIndex} {host : CascadeHost}
    {revoked : Revoked} {n : Nat} {messages : List Severance} (backed : Backed sent document)
    (returned : cascadeDerivedRevocation host document revoked = .ok (saved, n, messages)) :
    Backed sent saved := by
  obtain ⟨items, state, swept, -, -, saves⟩ := cascade_swept returned
  rcases saves with ⟨-, rfl⟩ | ⟨-, rfl⟩
  · exact backed
  · intro row mem
    obtain ⟨inSaved, -⟩ := List.mem_filter.mp mem
    rw [saveLineage_children] at inSaved
    obtain ⟨j, found⟩ := List.mem_iff_getElem?.mp ((lastRows_sublist _).subset inSaved)
    obtain ⟨t, after⟩ := swept.row j
    rw [found] at after
    split at after
    · obtain ⟨before, atStart, rfl⟩ := Option.map_eq_some_iff.mp after.symm
      exact backed before (List.mem_of_getElem? atStart)
    · exact backed row (List.mem_of_getElem? after.symm)

/-! ### What a step keeps -/

theorem pendsFor_iff {call : Call} {parent : ParentId} :
    call.pendsFor parent ↔ ∃ recipient, call.pending = some (parent, recipient) := by
  simp [Call.pendsFor, Option.any_eq_true]

/-- A child published for another parent says nothing about the call. -/
theorem CallFits.publish {published sent : List Leaf} {call : Call} {leaf : Leaf}
    (fits : CallFits published sent call) (apart : ¬ call.pendsFor leaf.parent) :
    CallFits (published ++ [leaf]) sent call := by
  have differ : ∀ parent recipient, call.pending = some (parent, recipient) →
      leaf.parent ≠ parent := by
    rintro parent recipient pending rfl
    exact apart (pendsFor_iff.mpr ⟨recipient, pending⟩)
  cases call with
  | issue args bound stage =>
    cases stage with
    | checking => exact fits
    | fetching =>
      refine ⟨fits.1, ?_, fits.2.2⟩
      rw [childrenOf_snoc, if_neg (differ _ _ rfl)]
      exact fits.2.1
    | publishing =>
      refine ⟨fits.1, ?_, fits.2.2⟩
      rw [childrenOf_snoc, if_neg (differ _ _ rfl)]
      exact fits.2.1
    | wrapping scopeId scopeKey => exact ⟨fits.1, List.mem_append_left _ fits.2.1, fits.2.2⟩
    | recording scopeId scopeKey => exact fits
    | saving document => exact fits
  | cascadeLoading revoked => trivial
  | cascading document revoked => exact fits
  | ended => trivial

/-- A key sent for another parent says nothing about the call. -/
theorem CallFits.send {published sent : List Leaf} {call : Call} {leaf : Leaf}
    (fits : CallFits published sent call) (apart : ¬ call.pendsFor leaf.parent) :
    CallFits published (sent ++ [leaf]) call := by
  have differ : ∀ parent recipient, call.pending = some (parent, recipient) →
      leaf.parent ≠ parent := by
    rintro parent recipient pending rfl
    exact apart (pendsFor_iff.mpr ⟨recipient, pending⟩)
  cases call with
  | issue args bound stage =>
    cases stage with
    | checking => exact fits
    | fetching =>
      refine ⟨fits.1, fits.2.1, ?_⟩
      rw [recipientsOf_snoc, if_neg (differ _ _ rfl)]
      exact fits.2.2
    | publishing =>
      refine ⟨fits.1, fits.2.1, ?_⟩
      rw [recipientsOf_snoc, if_neg (differ _ _ rfl)]
      exact fits.2.2
    | wrapping scopeId scopeKey =>
      refine ⟨fits.1, fits.2.1, ?_⟩
      rw [recipientsOf_snoc, if_neg (differ _ _ rfl)]
      exact fits.2.2
    | recording scopeId scopeKey => exact ⟨fits.1, List.mem_append_left _ fits.2⟩
    | saving document => exact ⟨fits.1, fits.2.snoc leaf⟩
  | cascadeLoading revoked => trivial
  | cascading document revoked => exact Backed.snoc fits leaf
  | ended => trivial

section Steps

variable {runtime : Runtime} {c : Nat} {old new : Call}

/-- **The frame of a step.** One call moves on and the relay's side may grow; the other calls must
still fit, and none of them may be pending for the parent the moved call is pending for. -/
theorem Within.become {index : GrantIndex} {published sent : List Leaf} (within : Within runtime)
    (children : ∀ parent, (childrenOf published parent).card ≤ 8)
    (recipients : ∀ parent, (recipientsOf sent parent).card ≤ 4)
    (included : sent ⊆ published) (backed : Backed sent index)
    (fits : CallFits published sent new)
    (others : ∀ (c' : Nat) call, c' ≠ c → runtime.calls[c']? = some call →
      CallFits published sent call)
    (alone : ∀ parent, new.pendsFor parent → ∀ (c' : Nat) call, c' ≠ c →
      runtime.calls[c']? = some call → ¬ call.pendsFor parent) :
    Within ⟨index, runtime.calls.set c new, published, sent⟩ := by
  have place : ∀ (c' : Nat) call, (runtime.calls.set c new)[c']? = some call →
      c' = c ∧ call = new ∨ c' ≠ c ∧ runtime.calls[c']? = some call := by
    intro c' call found
    rw [List.getElem?_set] at found
    by_cases same : c = c'
    · rw [if_pos same] at found
      split at found
      · exact .inl ⟨same.symm, (Option.some.inj found).symm⟩
      · cases found
    · rw [if_neg same] at found
      exact .inr ⟨Ne.symm same, found⟩
  refine ⟨children, recipients, included, backed, ?_, ?_⟩
  · intro c' call found
    rcases place c' call found with ⟨-, rfl⟩ | ⟨differ, found⟩
    · exact fits
    · exact others c' call differ found
  · intro a b call call' parent foundA foundB pendsA pendsB
    rcases place a call foundA with ⟨atA, newA⟩ | ⟨differA, oldA⟩
    · rcases place b call' foundB with ⟨atB, -⟩ | ⟨differB, oldB⟩
      · rw [atA, atB]
      · exact absurd pendsB (alone parent (newA ▸ pendsA) b call' differB oldB)
    · rcases place b call' foundB with ⟨-, newB⟩ | ⟨differB, oldB⟩
      · exact absurd pendsA (alone parent (newB ▸ pendsB) a call differA oldA)
      · exact within.alone a b call call' parent oldA oldB pendsA pendsB

/-- A step that sends nothing, of a call that is pending for nothing new. -/
theorem Within.goes (within : Within runtime) (here : runtime.calls[c]? = some old)
    (fits : CallFits runtime.published runtime.sent new)
    (pends : ∀ parent, new.pendsFor parent → old.pendsFor parent) : Within (runtime.goes c new) := by
  apply within.become within.children within.recipients within.sent within.backed fits
  · intro c' call _ found
    exact within.fits c' call found
  · intro parent pending c' call differ found pending'
    exact differ (within.alone c' c call old parent found here pending' (pends parent pending))

theorem Within.ended (within : Within runtime) : Within (runtime.goes c .ended) := by
  have fits : CallFits runtime.published runtime.sent .ended := trivial
  apply within.become within.children within.recipients within.sent within.backed fits
  · intro c' call _ found
    exact within.fits c' call found
  · intro parent pending
    cases pending

theorem Within.saves {document : GrantIndex} {answer : Answer} (within : Within runtime)
    (backed : Backed runtime.sent document) : Within (runtime.saves document answer) := by
  cases answer with
  | taken => exact { within with backed := backed }
  | lost => exact { within with backed := backed }
  | refused => exact within

/-- A call that starts is pending for nothing. -/
theorem Within.starts (within : Within runtime)
    (fits : CallFits runtime.published runtime.sent new)
    (quiet : ∀ parent, ¬ new.pendsFor parent) :
    Within { runtime with calls := runtime.calls ++ [new] } := by
  have place : ∀ (c : Nat) call, (runtime.calls ++ [new])[c]? = some call →
      call = new ∨ runtime.calls[c]? = some call := by
    intro c call found
    rw [List.getElem?_append] at found
    split at found
    · exact .inr found
    · rw [List.getElem?_singleton] at found
      split at found
      · exact .inl (Option.some.inj found).symm
      · cases found
  refine ⟨within.children, within.recipients, within.sent, within.backed, ?_, ?_⟩
  · intro c call found
    rcases place c call found with rfl | found
    · exact fits
    · exact within.fits c call found
  · intro a b call call' parent foundA foundB pendsA pendsB
    rcases place a call foundA with rfl | foundA
    · exact absurd pendsA (quiet parent)
    · rcases place b call' foundB with rfl | foundB
      · exact absurd pendsB (quiet parent)
      · exact within.alone a b call call' parent foundA foundB pendsA pendsB

end Steps

section Operations

variable {runtime : Runtime} (within : Within runtime)

include within

/-- A check that passes leaves room: the rows it counts name every child published, and the
recipients they name were all sent a key. -/
theorem Within.room {index : GrantIndex} {bound : RedelegateBound} {parent : HeldGrant}
    {recipient : String} (default : bound = REDELEGATE_DEFAULTS)
    (backed : Backed runtime.sent index)
    (rows : ∀ leaf ∈ runtime.published, leaf.parent = parent.id → hasRowOf index leaf)
    (passes : checkBudget bound index parent recipient = .ok ()) :
    (childrenOf runtime.published parent.id).card < 8 ∧
      (insert recipient (recipientsOf runtime.sent parent.id)).card ≤ 4 := by
  obtain ⟨fewRows, fewGrantees⟩ := admitsAnother_eq_ok.mp passes
  rw [default] at fewRows fewGrantees
  have rowOf : ∀ leaf ∈ runtime.published, leaf.parent = parent.id →
      ∃ row ∈ rowsOf index parent.publisher parent.scopeId,
        row.child.scope = leaf.child ∧ row.child.grantee = leaf.recipient := by
    intro leaf mem ofParent
    have found := rows leaf mem ofParent
    rw [hasRowOf, ofParent] at found
    obtain ⟨row, inRows, same⟩ := List.any_eq_true.mp found
    simp only [Bool.and_eq_true, decide_eq_true_iff] at same
    exact ⟨row, inRows, same⟩
  constructor
  · have named : childrenOf runtime.published parent.id ⊆
        ((rowsOf index parent.publisher parent.scopeId).map (·.child.scope)).toFinset := by
      intro child mem
      obtain ⟨leaf, published, ofParent, rfl⟩ := mem_childrenOf.mp mem
      obtain ⟨row, inRows, scope, -⟩ := rowOf leaf published ofParent
      exact List.mem_toFinset.mpr (List.mem_map.mpr ⟨row, inRows, scope⟩)
    have few := (Finset.card_le_card named).trans (List.toFinset_card_le _)
    rw [List.length_map] at few
    have eight : REDELEGATE_DEFAULTS.maxChildren = 8 := rfl
    omega
  · rcases fewGrantees with known | few
    · -- a recipient the rows name was sent a key before
      obtain ⟨-, row, inRows, rfl⟩ := mem_granteesOf.mp known
      obtain ⟨inLineage, publisher, scope⟩ := mem_rowsOf.mp inRows
      obtain ⟨leaf, sent, ofParent, same⟩ := backed row inLineage
      rw [publisher, scope] at ofParent
      have already : row.child.grantee ∈ recipientsOf runtime.sent parent.id :=
        mem_recipientsOf.mpr ⟨leaf, sent, ofParent, same⟩
      rw [Finset.insert_eq_of_mem already]
      exact within.recipients parent.id
    · have named : recipientsOf runtime.sent parent.id ⊆
          (granteesOf (rowsOf index parent.publisher parent.scopeId)).toFinset := by
        intro grantee mem
        obtain ⟨leaf, sent, ofParent, rfl⟩ := mem_recipientsOf.mp mem
        obtain ⟨row, inRows, -, same⟩ := rowOf leaf (within.sent sent) ofParent
        refine mem_granteesOf.mpr ⟨?_, row, inRows, same⟩
        -- a grantee of the lineage is a key, not the empty text
        have formed := wellFormed_of_mem_lineage (mem_rowsOf.mp inRows).1
        simp only [DerivedChild.wellFormed, Bool.and_eq_true] at formed
        intro empty
        rw [same, empty] at formed
        exact absurd formed.2 (by decide)
      have counted := Finset.card_le_card named
      have inserted := Finset.card_insert_le recipient (recipientsOf runtime.sent parent.id)
      have four : REDELEGATE_DEFAULTS.maxGrantees = 4 := rfl
      omega

theorem Within.check {c : Nat} {loaded : Loaded} (meets : accounted runtime (.check c loaded)) :
    Within (step runtime (.check c loaded)) := by
  unfold step
  dsimp only
  split
  next args bound index here answer =>
    split
    next passes =>
      simp only [accounted, here, answer, passes, Bool.and_eq_true, List.all_eq_true,
        Bool.or_eq_true, decide_eq_true_iff] at meets
      have fits := within.fits c _ here
      have rows : ∀ leaf ∈ runtime.published, leaf.parent = args.parent.id → hasRowOf index leaf := by
        intro leaf mem ofParent
        exact (meets.1 leaf mem).resolve_left (fun differ => differ ofParent)
      have backed : Backed runtime.sent index := within.backed.of_loaded answer
      have room := within.room fits.1 backed rows passes
      have fits' : CallFits runtime.published runtime.sent (.issue args bound .fetching) :=
        ⟨fits.1, room⟩
      apply within.become within.children within.recipients within.sent within.backed fits'
      · intro c' call _ found
        exact within.fits c' call found
      · intro parent pending c' call _ found
        obtain ⟨recipient, same⟩ := pendsFor_iff.mp pending
        cases same
        have quiet := meets.2 call (List.mem_of_getElem? found)
        simpa using quiet
    next => exact within.ended
  next => exact within.ended
  next => exact within

theorem Within.fetch {c : Nat} {ok : Bool} : Within (step runtime (.fetch c ok)) := by
  unfold step
  dsimp only
  split
  next args bound here =>
    split
    next =>
      have fits := within.fits c _ here
      exact within.goes here ⟨fits.1, fits.2⟩ (fun _ pending => pending)
    next => exact within.ended
  next => exact within

theorem Within.publish {c : Nat} {scopeId : String} {scopeKey : ScopeKey} {answer : Answer} :
    Within (step runtime (.publish c scopeId scopeKey answer)) := by
  unfold step
  dsimp only
  split
  next args bound here =>
    have fits := within.fits c _ here
    have pends : Call.pendsFor (.issue args bound .publishing) args.parent.id :=
      pendsFor_iff.mpr ⟨args.recipient, rfl⟩
    have apart : ∀ (c' : Nat) call, c' ≠ c → runtime.calls[c']? = some call →
        ¬ call.pendsFor args.parent.id := by
      intro c' call differ found pends'
      exact differ (within.alone c' c _ _ _ found here pends' pends)
    -- the relay has the child now, whatever the call heard of it
    have grown : ∀ new, CallFits (runtime.published ++ [⟨args.parent.id, scopeId, args.recipient⟩])
        runtime.sent new → (∀ parent, new.pendsFor parent → parent = args.parent.id) →
        Within ⟨runtime.index, runtime.calls.set c new,
          runtime.published ++ [⟨args.parent.id, scopeId, args.recipient⟩], runtime.sent⟩ := by
      intro new fitsNew pendsNew
      apply within.become ?_ within.recipients ?_ within.backed fitsNew
      · intro c' call differ found
        exact (within.fits c' call found).publish (apart c' call differ found)
      · intro parent pending c' call differ found
        rw [pendsNew parent pending]
        exact apart c' call differ found
      · intro parent
        rw [childrenOf_snoc]
        split
        next same =>
          rw [← same]
          have inserted := Finset.card_insert_le scopeId (childrenOf runtime.published args.parent.id)
          have few := fits.2.1
          simp only at inserted ⊢
          omega
        next => exact within.children parent
      · intro leaf mem
        exact List.mem_append_left _ (within.sent mem)
    cases answer with
    | taken =>
      apply grown
      · exact ⟨fits.1, List.mem_append_right _ (List.mem_singleton_self _), fits.2.2⟩
      · intro parent pending
        obtain ⟨recipient, same⟩ := pendsFor_iff.mp pending
        cases same
        rfl
    | lost =>
      apply grown
      · trivial
      · intro parent pending
        cases pending
    | refused => exact within.ended
  next => exact within

theorem Within.wrap {c : Nat} {answer : Answer} : Within (step runtime (.wrap c answer)) := by
  unfold step
  dsimp only
  split
  next args bound scopeId scopeKey here =>
    have fits := within.fits c _ here
    have pends : Call.pendsFor (.issue args bound (.wrapping scopeId scopeKey)) args.parent.id :=
      pendsFor_iff.mpr ⟨args.recipient, rfl⟩
    have apart : ∀ (c' : Nat) call, c' ≠ c → runtime.calls[c']? = some call →
        ¬ call.pendsFor args.parent.id := by
      intro c' call differ found pends'
      exact differ (within.alone c' c _ _ _ found here pends' pends)
    have grown : ∀ new, CallFits runtime.published
        (runtime.sent ++ [⟨args.parent.id, scopeId, args.recipient⟩]) new →
        (∀ parent, ¬ new.pendsFor parent) →
        Within ⟨runtime.index, runtime.calls.set c new, runtime.published,
          runtime.sent ++ [⟨args.parent.id, scopeId, args.recipient⟩]⟩ := by
      intro new fitsNew quiet
      apply within.become within.children ?_ ?_ (within.backed.snoc _) fitsNew
      · intro c' call differ found
        exact (within.fits c' call found).send (apart c' call differ found)
      · intro parent pending
        exact absurd pending (quiet parent)
      · intro parent
        rw [recipientsOf_snoc]
        split
        next same =>
          rw [← same]
          exact fits.2.2
        next => exact within.recipients parent
      · intro leaf mem
        rcases List.mem_append.mp mem with old | new
        · exact within.sent old
        · rw [List.mem_singleton.mp new]
          exact fits.2.1
    cases answer with
    | taken =>
      apply grown
      · exact ⟨fits.1, List.mem_append_right _ (List.mem_singleton_self _)⟩
      · intro parent pending
        cases pending
    | lost =>
      apply grown
      · trivial
      · intro parent pending
        cases pending
    | refused => exact within.ended
  next => exact within

theorem Within.record {c : Nat} {loaded : Loaded} {nowSec : Int} :
    Within (step runtime (.record c loaded nowSec)) := by
  unfold step
  dsimp only
  split
  next args bound scopeId scopeKey index here answer =>
    have fits := within.fits c _ here
    have backed : Backed runtime.sent index := within.backed.of_loaded answer
    apply within.goes here
    · exact ⟨fits.1, backed.withChild fits.2⟩
    · intro parent pending
      cases pending
  next => exact within.ended
  next => exact within

theorem Within.endCascade {c : Nat} {host : CascadeHost} {answer : Answer} :
    Within (step runtime (.endCascade c host answer)) := by
  unfold step
  dsimp only
  split
  next document revoked here =>
    have fits : Backed runtime.sent document := within.fits c _ here
    split
    next => exact within.ended
    next saved n messages _ returned => exact within.ended.saves (fits.cascade returned)
    next => exact within.ended
  next => exact within

end Operations

/-- Every step under the condition keeps every parent within the estate's bound. -/
theorem within_step (runtime : Runtime) (action : Action) (within : Within runtime)
    (meets : accounted runtime action) : Within (step runtime action) := by
  cases action with
  | start args nowSec =>
    unfold step
    dsimp only
    split
    next bound valid accepted =>
      apply within.starts
      · exact ⟨bound_of_accepted valid accepted, trivial⟩
      · intro parent pending
        cases pending
    next => exact within
  | check c loaded => exact within.check meets
  | fetch c ok => exact within.fetch
  | publish c scopeId scopeKey answer => exact within.publish
  | wrap c answer => exact within.wrap
  | record c loaded nowSec => exact within.record
  | save c answer =>
    unfold step
    dsimp only
    split
    next args bound document here => exact within.ended.saves (within.fits c _ here).2
    next => exact within
  | startCascade revoked =>
    apply within.starts
    · trivial
    · intro parent pending
      cases pending
  | loadCascade c loaded =>
    unfold step
    dsimp only
    split
    next revoked index here answer =>
      apply within.goes here
      · exact within.backed.of_loaded answer
      · intro parent pending
        cases pending
    next => exact within.ended
    next => exact within
  | endCascade c host answer => exact within.endCascade
  | drop c => exact within.ended

/-- An identity that has derived nothing yet. -/
def Runtime.start (issued : List IssuedEntry) (nvoyOutbox : List (String × String)) : Runtime :=
  ⟨⟨issued, nvoyOutbox, []⟩, [], [], []⟩

theorem within_start (issued : List IssuedEntry) (nvoyOutbox : List (String × String)) :
    Within (Runtime.start issued nvoyOutbox) := by
  refine ⟨?_, ?_, ?_, ?_, ?_, ?_⟩
  · intro parent; exact Nat.zero_le _
  · intro parent; exact Nat.zero_le _
  · intro leaf mem; exact mem
  · intro row mem; exact absurd mem List.not_mem_nil
  · intro c call found; cases found
  · intro a b call call' parent found; cases found

/-! ### The budget -/

/-- The parent has had at most so many children published and keys sent. -/
def Runtime.KeepsBudget (runtime : Runtime) (parent : HeldGrant) (bound : RedelegateBound) : Prop :=
  (childrenOf runtime.published parent.id).card ≤ bound.maxChildren ∧
    (recipientsOf runtime.sent parent.id).card ≤ bound.maxGrantees

/-- **The re-delegation budget**: for every parent with an accepted bound, in every state of every
run whose passing budget checks see all of the parent's children and no other call for it. -/
theorem budget_holds (issued : List IssuedEntry) (nvoyOutbox : List (String × String))
    (actions : List Action)
    (meets : Meets step (fun runtime action => accounted runtime action)
      (Runtime.start issued nvoyOutbox) actions)
    (parent : HeldGrant) (terms : DerivedTerms) (nowSec : Int) (bound : RedelegateBound)
    (valid : validate parent terms nowSec = .ok ()) (accepted : boundOf parent.terms = .ok bound) :
    (run step (Runtime.start issued nvoyOutbox) actions).KeepsBudget parent bound := by
  have within : Within (run step (Runtime.start issued nvoyOutbox) actions) :=
    meets.keeps within_step (within_start issued nvoyOutbox)
  rw [bound_of_accepted valid accepted]
  constructor
  · have few := within.children parent.id
    have eight : REDELEGATE_DEFAULTS.maxChildren = 8 := rfl
    omega
  · have few := within.recipients parent.id
    have four : REDELEGATE_DEFAULTS.maxGrantees = 4 := rfl
    omega

/-! ### Calls whose save fails -/

/-- A parent grant that permits re-delegation. -/
def sampleParent : HeldGrant where
  publisher := sampleKey 'b'
  scopeId := "s"
  generation := some 1
  scopeKey := ⟨1⟩
  expiration := none
  terms := some ⟨none, false, some (.bool true)⟩
  revoked := false
  relinquished := false

def sampleTerms : DerivedTerms := ⟨"booking", none⟩

/-- One issuance, from its start to the save of the index. -/
def issues (c : Nat) (recipient scopeId : String) (answer : Answer) : List Action :=
  [.start ⟨sampleParent, recipient, "derived:leaf", sampleTerms⟩ 10, .check c .document,
    .fetch c true, .publish c scopeId ⟨c⟩ .taken, .wrap c .taken, .record c .document 10,
    .save c answer]

/-- Two issuances, one after the other. -/
theorem budget_holds_two :
    (run step (Runtime.start [] [])
      (issues 0 (sampleKey 'c') "c" .taken ++ issues 1 (sampleKey 'd') "d" .taken)).KeepsBudget
        sampleParent REDELEGATE_DEFAULTS :=
  budget_holds [] [] _ (by decide +kernel) sampleParent sampleTerms 10 REDELEGATE_DEFAULTS
    (by decide +kernel) rfl

/-- **Five recipients of four.** The save of the index fails in each of five calls, so that each
check counts no rows. -/
theorem budget_exceeded :
    ¬ (run step (Runtime.start [] [])
      (issues 0 (sampleKey 'c') "c" .refused ++ issues 1 (sampleKey 'd') "d" .refused ++
        issues 2 (sampleKey 'e') "e" .refused ++ issues 3 (sampleKey 'f') "f" .refused ++
        issues 4 (sampleKey '0') "g" .refused)).KeepsBudget sampleParent REDELEGATE_DEFAULTS := by
  unfold Runtime.KeepsBudget
  decide +kernel

end Nvoy.Grants
