/-
**How the ledger tells that a delegation ended.**

A row of an agent that no longer holds its scope gets its status from the log, read backwards: the
first event that ends the pair decides. Revocations and relinquishments name their agent; an
`expired-rotated` event names nobody, and is read as the end of everyone whose terms are past by then.

* `Traced` — the desk, and for every pair the kind of the operation that last removed its agent;
* `effect_step` — what a step does to the index and to its log;
* `Due`, `Undisputed` — an expiry rotation drops nobody early, and no rotation's events look like the
  end of an agent that an operation of another kind removed;
* `endings_told` — over runs whose log is not trimmed: every ended delegation is reported as it ended
  if every step meets both, and only if every step meets the second;
* `revoked_shown_expired` — an agent revoked before its terms were past is shown as expired once
  another one's delegation of the scope has lapsed.
-/

import Nvoy.Console.Terms

namespace Nvoy.Console

open Grants (IssuedEntry ScopeKey)
open Recent (latest)
open Runs (run Meets)

/-! ### What removed an agent -/

/-- Is the agent among the scope's grantees? -/
def Index.holder (index : Index) (scope agent : String) : Bool :=
  index.issued.any fun e => e.scope = scope && e.grantees.contains agent

/-- A rotation that drops agents, and the status a row of such an agent should have after it. -/
structure Ending where
  nowSec : Int
  scope : String
  drop : List String
  status : Status
deriving DecidableEq

def Action.ending : Action → Option Ending
  | .revoke nowSec scope agent _ _ _ _ => some ⟨nowSec, scope, [agent], .revoked⟩
  | .runExpiryRotation nowSec item _ _ _ => some ⟨nowSec, item.scope, item.expired, .expired⟩
  | .runRelinquishRotation nowSec item _ _ _ =>
    some ⟨nowSec, item.scope, [item.agent], .relinquished⟩
  | _ => none

/-- The rotation the step carries out, if it gets as far as the index. -/
def Desk.ending (desk : Desk) (action : Action) : Option Ending :=
  if desk.appends action = 0 then none else action.ending

/-- The desk, and what last removed each agent from each scope. -/
structure Traced where
  desk : Desk
  ended : JsMap (String × String) Status

def Traced.blank : Traced := ⟨.blank, .empty⟩

/-- The rotation removed those it drops that held the scope. -/
def Traced.remove (t : Traced) (e : Ending) : JsMap (String × String) Status :=
  e.drop.foldl (fun ended agent =>
    if t.desk.index.holder e.scope agent = true then ended.set (e.scope, agent) e.status
    else ended) t.ended

def Traced.step (t : Traced) (action : Action) : Traced where
  desk := Console.step t.desk action
  ended := ((t.desk.ending action).map t.remove).getD t.ended

/-! ### The report -/

/-- Every ended delegation has its row, and the row says what ended it. -/
def Told (t : Traced) : Prop :=
  ∀ scope agent status, t.desk.index.holder scope agent = false →
    t.ended.get (scope, agent) = some status → ∀ nowSec,
      (∃ row ∈ deriveDelegations t.desk.index nowSec, row.scope = scope ∧ row.agent = agent) ∧
      ∀ row ∈ deriveDelegations t.desk.index nowSec, row.scope = scope → row.agent = agent →
        row.status = status

/-- The log has room for the events of the step. -/
def Untrimmed (t : Traced) (action : Action) : Prop :=
  t.desk.index.nvoyLedger.length + t.desk.appends action ≤ LEDGER_CAP

instance (t : Traced) (action : Action) : Decidable (Untrimmed t action) := by
  unfold Untrimmed
  infer_instance

/-- The terms of the agent's latest grant are past. -/
def Index.past (index : Index) (scope agent : String) (nowSec : Int) : Bool :=
  (((grantIn index.nvoyLedger scope agent).bind LedgerEvent.terms).bind (·.expiresAt)).any
    (· ≤ nowSec)

/-- Do the rotation's events look like an end of the agent's delegation of that scope? -/
def Ending.touches (e : Ending) (index : Index) (agent : String) : Bool :=
  match e.status with
  | .expired => index.past e.scope agent e.nowSec
  | _ => e.drop.contains agent

/-- An expiry rotation drops nobody before its terms are past. -/
def Due (t : Traced) (action : Action) : Prop :=
  ∀ e ∈ t.desk.ending action, e.status = .expired → ∀ agent ∈ e.drop,
    t.desk.index.holder e.scope agent = true → t.desk.index.past e.scope agent e.nowSec = true

/-- Whoever is gone and looks ended by this rotation was ended by one of its kind. -/
def Undisputed (t : Traced) (action : Action) : Prop :=
  ∀ e ∈ t.desk.ending action, ∀ gone ∈ t.ended.entries, gone.1.1 = e.scope →
    t.desk.index.holder e.scope gone.1.2 = false → e.touches t.desk.index gone.1.2 = true →
      gone.2 = e.status

def Tells (t : Traced) (action : Action) : Prop := Due t action ∧ Undisputed t action

instance (t : Traced) (action : Action) : Decidable (Due t action) := by
  unfold Due
  infer_instance

instance (t : Traced) (action : Action) : Decidable (Undisputed t action) := by
  unfold Undisputed
  infer_instance

instance (t : Traced) (action : Action) : Decidable (Tells t action) := by
  unfold Tells
  infer_instance

/-! ### What a step does to the index -/

theorem holder_iff {index : Index} {scope agent : String} :
    index.holder scope agent = true ↔
      ∃ entry ∈ index.issued, entry.scope = scope ∧ agent ∈ entry.grantees := by
  simp [Index.holder]

/-- What the rotation's events are read as, for a pair. -/
def Ending.reads (e : Ending) (p : Pair) : Option Status :=
  match e.status with
  | .expired =>
    if e.scope = p.scope ∧ (p.terms.bind (·.expiresAt)).any (· ≤ e.nowSec) then some .expired
    else none
  | status => if e.scope = p.scope ∧ p.agent ∈ e.drop then some status else none

/-- The events of a rotation, as it logs them. -/
def Logs (makeEvents : Nat → Nat → Nat → List LedgerEvent) (e : Ending) : Prop :=
  ∀ fromV toV survivors, ∀ p : Pair,
    (makeEvents fromV toV survivors).reverse.findSome? (·.ends p) = e.reads p

theorem logs_revokeEvents (nowSec : Int) (scope agent reason : String) :
    Logs (revokeEvents nowSec scope agent reason) ⟨nowSec, scope, [agent], .revoked⟩ := by
  intro fromV toV survivors p
  by_cases here : scope = p.scope ∧ agent = p.agent
  · simp [revokeEvents, LedgerEvent.ends, Ending.reads, here.1, here.2]
  · simp [revokeEvents, LedgerEvent.ends, Ending.reads, eq_comm (a := p.agent), here]

theorem logs_expiryEvents (nowSec : Int) (item : ExpiryItem) :
    Logs (expiryEvents nowSec item) ⟨nowSec, item.scope, item.expired, .expired⟩ := by
  intro fromV toV survivors p
  simp [expiryEvents, LedgerEvent.ends, Ending.reads]

theorem logs_relinquishEvents (nowSec : Int) (item : RelinquishItem) :
    Logs (relinquishEvents nowSec item) ⟨nowSec, item.scope, [item.agent], .relinquished⟩ := by
  intro fromV toV survivors p
  by_cases here : item.scope = p.scope ∧ item.agent = p.agent
  · simp [relinquishEvents, LedgerEvent.ends, Ending.reads, here.1, here.2]
  · simp [relinquishEvents, LedgerEvent.ends, Ending.reads, eq_comm (a := p.agent), here]

/-- A step leaves the index, adds one grantee, or drops the agents of a rotation. -/
inductive Effect (index : Index) : Option Ending → Index → Prop where
  | rest : Effect index none index
  | grant {index' : Index} (scope agent : String) (event : LedgerEvent)
      (ledger : index'.nvoyLedger = index.nvoyLedger ++ [event])
      (grants : ∀ scope' agent', event.grants scope' agent' = true ↔
        scope = scope' ∧ agent = agent')
      (holder : ∀ scope' agent', index'.holder scope' agent' = true ↔
        index.holder scope' agent' = true ∨ scope = scope' ∧ agent = agent') :
      Effect index none index'
  | rotate {index' : Index} (e : Ending) (events : List LedgerEvent)
      (ledger : index'.nvoyLedger = index.nvoyLedger ++ events)
      (quiet : ∀ event ∈ events, ∀ scope agent, event.grants scope agent = false)
      (reads : ∀ p : Pair, events.reverse.findSome? (·.ends p) = e.reads p)
      (holder : ∀ scope agent, index'.holder scope agent = true ↔
        index.holder scope agent = true ∧ ¬(e.scope = scope ∧ agent ∈ e.drop)) :
      Effect index (some e) index'

variable {desk : Desk}

/-- A rotation gets as far as the index, or appends nothing. -/
theorem rotate_cases (desk : Desk) (nowSec : Int) (scope : String) (drop : List String)
    (res : ReadBack) (key : ScopeKey) (makeEvents : Nat → Nat → Nat → List LedgerEvent)
    (progress : Progress) (made : Nat) :
    ((desk.rotate nowSec scope drop res key makeEvents progress).index = desk.index ∧
      desk.rotationAppends scope res progress made = 0) ∨
    ∃ rotation, rotateDropping desk.index nowSec scope drop res key makeEvents = .ok rotation ∧
      (desk.rotate nowSec scope drop res key makeEvents progress).index = rotation.index ∧
      desk.rotationAppends scope res progress made = made := by
  unfold Desk.rotate
  cases done : rotateDropping desk.index nowSec scope drop res key makeEvents with
  | error text =>
      refine .inl ⟨rfl, ?_⟩
      rw [Desk.rotationAppends, if_neg]
      intro through
      simp only [Bool.and_eq_true, decide_eq_true_eq, List.any_eq_true] at through
      obtain ⟨⟨⟨entry, mem, named⟩, rfl⟩, -⟩ := through
      obtain ⟨found, hit⟩ := Option.isSome_iff_exists.mp
        (List.find?_isSome (p := fun e : IssuedEntry => e.scope = scope)
          |>.mpr ⟨entry, mem, by simpa using named⟩)
      rw [rotateDropping, hit] at done
      exact absurd done (by simp)
  | ok rotation =>
      cases progress with
      | stopped published =>
          exact .inl ⟨rfl, by rw [Desk.rotationAppends, if_neg (by simp)]⟩
      | saved => exact .inr ⟨rotation, rfl, rfl, rotationAppends_of_ok done made⟩

theorem mem_survivors {index : Index} {nowSec : Int} {entry : IssuedEntry} {drop : List String}
    {agent : String} : agent ∈ (survivorsOf index nowSec entry drop).map (·.pub) ↔
      agent ∈ entry.grantees ∧ agent ∉ drop := by
  simp [survivorsOf]

theorem effect_rotate (own : (desk.index.issued.map (·.scope)).Nodup) {nowSec : Int}
    {scope : String} {drop : List String} {res : ReadBack} {key : ScopeKey}
    {makeEvents : Nat → Nat → Nat → List LedgerEvent} {progress : Progress} {made : Nat}
    (quiet : Quiet makeEvents made) (some_made : made ≠ 0)
    {e : Ending} (logs : Logs makeEvents e) (here : e.scope = scope) (dropped : e.drop = drop)
    (short : desk.index.nvoyLedger.length + desk.rotationAppends scope res progress made
      ≤ LEDGER_CAP) :
    Effect desk.index
      (if desk.rotationAppends scope res progress made = 0 then none else some e)
      (desk.rotate nowSec scope drop res key makeEvents progress).index := by
  rcases rotate_cases desk nowSec scope drop res key makeEvents progress made with
    ⟨same, none⟩ | ⟨rotation, done, saved, all⟩
  · rw [same, if_pos none]
    exact .rest
  · obtain ⟨entry, mem, named, survivors, -, issued, ledger⟩ := ok_of_rotateDropping done
    obtain ⟨count, silent⟩ := quiet entry.v (entry.v + 1) rotation.survivors.length
    rw [saved, all, if_neg some_made]
    rw [all] at short
    refine .rotate e _ ?_ silent (logs entry.v (entry.v + 1) rotation.survivors.length) ?_
    · rw [ledger, appendAll_eq (by omega), Recent.rtake_of_le]
      rw [List.length_append, count]
      omega
    · intro scope' agent
      rw [holder_iff, holder_iff, here, dropped, issued, survivors]
      constructor
      · rintro ⟨changed, mem', there, holder⟩
        obtain ⟨e', old, rfl⟩ := List.mem_map.mp mem'
        by_cases ours : e'.scope = scope
        · rw [if_neg (not_not.mpr ours)] at there holder
          obtain ⟨held, kept⟩ := mem_survivors.mp holder
          exact ⟨⟨entry, mem, there, held⟩, fun gone => kept gone.2⟩
        · rw [if_pos ours] at there holder
          exact ⟨⟨e', old, there, holder⟩, fun gone => ours (there.trans gone.1.symm)⟩
      · rintro ⟨⟨e', old, there, holder⟩, kept⟩
        refine ⟨_, List.mem_map_of_mem old, ?_⟩
        by_cases ours : e'.scope = scope
        · obtain rfl := List.inj_on_of_nodup_map own old mem (ours.trans named.symm)
          rw [if_neg (not_not.mpr ours)]
          exact ⟨there, mem_survivors.mpr ⟨holder, fun gone => kept ⟨ours.symm.trans there, gone⟩⟩⟩
        · rw [if_pos ours]
          exact ⟨there, holder⟩

theorem appendLedger_eq_append {log : List LedgerEvent} {event : LedgerEvent}
    (room : log.length + 1 ≤ LEDGER_CAP) : appendLedger log event = log ++ [event] := by
  rw [appendLedger, Recent.rtake_of_le]
  rwa [List.length_append, List.length_singleton]

/-- One more grantee of a scope that the index has. -/
theorem holder_addGrantee {index : Index} {entry : IssuedEntry} {scope agent : String}
    {log : List LedgerEvent} (mem : entry ∈ index.issued) (named : entry.scope = scope)
    {scope' agent' : String} :
    (Index.mk (index.issued.map fun e =>
      if e.scope ≠ scope then e else { e with grantees := e.grantees ++ [agent] })
      log).holder scope' agent' = true ↔
      index.holder scope' agent' = true ∨ scope = scope' ∧ agent = agent' := by
  rw [holder_iff, holder_iff]
  constructor
  · rintro ⟨changed, mem', there, holder⟩
    obtain ⟨e, old, rfl⟩ := List.mem_map.mp mem'
    by_cases ours : e.scope = scope
    · rw [if_neg (not_not.mpr ours)] at there holder
      rcases List.mem_append.mp holder with held | new
      · exact .inl ⟨e, old, there, held⟩
      · exact .inr ⟨ours.symm.trans there, (List.mem_singleton.mp new).symm⟩
    · rw [if_pos ours] at there holder
      exact .inl ⟨e, old, there, holder⟩
  · rintro (⟨e, old, there, held⟩ | ⟨rfl, rfl⟩)
    · refine ⟨_, List.mem_map_of_mem old, ?_⟩
      by_cases ours : e.scope = scope
      · rw [if_neg (not_not.mpr ours)]
        exact ⟨there, List.mem_append_left _ held⟩
      · rw [if_pos ours]
        exact ⟨there, held⟩
    · refine ⟨_, List.mem_map_of_mem mem, ?_⟩
      rw [if_neg (not_not.mpr named)]
      exact ⟨named, List.mem_append_right _ (List.mem_singleton_self agent)⟩

/-- A rotation action that is admitted. -/
theorem effect_of_appends {action : Action} {index' : Index} {made : Nat} {e : Ending}
    (appends : desk.appends action = made) (ending : action.ending = some e)
    (effect : Effect desk.index (if made = 0 then none else some e) index') :
    Effect desk.index (desk.ending action) index' := by
  rwa [Desk.ending, appends, ending]

theorem effect_none {action : Action} {index' : Index} (ending : action.ending = none)
    (effect : Effect desk.index none index') : Effect desk.index (desk.ending action) index' := by
  have : desk.ending action = none := by rw [Desk.ending, ending, ite_self]
  rwa [this]

theorem effect_step (sound : Sound desk) {action : Action}
    (room : desk.index.nvoyLedger.length + desk.appends action ≤ LEDGER_CAP) :
    Effect desk.index (desk.ending action) (step desk action).index := by
  unfold step
  split
  next admitted =>
    cases action with
    | issue nowSec scope scopeName agent terms key progress =>
        refine effect_none rfl ?_
        cases progress with
        | stopped published => exact .rest
        | saved =>
            have appends : desk.appends (.issue nowSec scope scopeName agent terms key .saved) = 1 := by
              rw [Desk.appends, if_pos admitted]
            refine .grant scope agent _ (appendLedger_eq_append (appends ▸ room))
              (fun scope' agent' => by simp [LedgerEvent.grants]) fun scope' agent' => ?_
            rw [holder_iff, holder_iff]
            simp only [Desk.perform, List.mem_append, List.mem_singleton, or_and_right, exists_or,
              exists_eq_left, eq_comm (a := agent')]
    | addGrantee nowSec scope agent terms progress =>
        refine effect_none rfl ?_
        have admits := admitted
        simp only [Desk.admits, Option.any_eq_true_iff_get] at admits
        obtain ⟨known, -⟩ := admits
        obtain ⟨entry, found⟩ := Option.isSome_iff_exists.mp known
        simp only [found]
        cases progress with
        | stopped published => exact .rest
        | saved =>
            have appends : desk.appends (.addGrantee nowSec scope agent terms .saved) = 1 := by
              rw [Desk.appends, if_pos admitted]
            exact .grant scope agent _ (appendLedger_eq_append (appends ▸ room))
              (fun scope' agent' => by simp [LedgerEvent.grants])
              fun scope' agent' => holder_addGrantee (List.mem_of_find?_eq_some found)
                (by simpa using List.find?_some found)
    | revoke nowSec scope agent reason res key progress =>
        have appends : desk.appends (.revoke nowSec scope agent reason res key progress) =
            desk.rotationAppends scope res progress 2 := by rw [Desk.appends, if_pos admitted]
        refine effect_of_appends appends rfl (effect_rotate sound.own
          (quiet_revokeEvents nowSec scope agent reason) two_ne_zero
          (logs_revokeEvents nowSec scope agent reason) rfl rfl ?_)
        exact appends ▸ room
    | sweep nowSec => exact effect_none rfl .rest
    | runExpiryRotation nowSec item res key progress =>
        have appends : desk.appends (.runExpiryRotation nowSec item res key progress) =
            desk.rotationAppends item.scope res progress 1 := by rw [Desk.appends, if_pos admitted]
        refine effect_of_appends appends rfl (effect_rotate sound.own
          (quiet_expiryEvents nowSec item) one_ne_zero (logs_expiryEvents nowSec item) rfl rfl ?_)
        exact appends ▸ room
    | notify notice => exact effect_none rfl .rest
    | plan inbox => exact effect_none rfl .rest
    | runRelinquishRotation nowSec item res key progress =>
        have appends : desk.appends (.runRelinquishRotation nowSec item res key progress) =
            desk.rotationAppends item.scope res progress 2 := by rw [Desk.appends, if_pos admitted]
        refine effect_of_appends appends rfl (effect_rotate sound.own
          (quiet_relinquishEvents nowSec item) two_ne_zero (logs_relinquishEvents nowSec item)
          rfl rfl ?_)
        exact appends ▸ room
  next refused =>
    have none : desk.appends action = 0 := by
      unfold Desk.appends
      rw [if_neg refused]
    rw [Desk.ending, none, if_pos rfl]
    exact .rest

/-! ### The row of an agent that is gone -/

/-- What the log says ended a delegation. -/
def Index.endOf (index : Index) (scope agent : String) : Status :=
  droppedStatus index.nvoyLedger
    ⟨scope, agent, none, (grantIn index.nvoyLedger scope agent).bind LedgerEvent.terms, ""⟩

/-- The end of a pair is read off its scope, its agent and its terms. -/
theorem ends_congr {p q : Pair} (scope : p.scope = q.scope) (agent : p.agent = q.agent)
    (terms : p.terms = q.terms) (event : LedgerEvent) : event.ends p = event.ends q := by
  cases event <;> simp only [LedgerEvent.ends, scope, agent, terms]

theorem droppedStatus_congr {log : List LedgerEvent} {p q : Pair} (scope : p.scope = q.scope)
    (agent : p.agent = q.agent) (terms : p.terms = q.terms) :
    droppedStatus log p = droppedStatus log q := by
  have : (fun event : LedgerEvent => event.ends p) = fun event => event.ends q := by
    funext event
    exact ends_congr scope agent terms event
  rw [droppedStatus, this, droppedStatus]

theorem mem_of_get_issuedByScope {issued : List IssuedEntry} {scope : String} {entry : IssuedEntry}
    (found : (issuedByScope issued).get scope = some entry) :
    entry ∈ issued ∧ entry.scope = scope := by
  unfold issuedByScope at found
  induction issued using List.reverseRecOn with
  | nil => exact absurd found (by simp)
  | append_singleton front last ih =>
      rw [List.foldl_append, List.foldl_cons, List.foldl_nil, JsMap.get_set] at found
      split at found
      next here =>
        rw [← Option.some.inj found]
        exact ⟨List.mem_append_right _ (List.mem_singleton_self _), here.symm⟩
      next =>
        obtain ⟨mem, named⟩ := ih found
        exact ⟨List.mem_append_left _ mem, named⟩

theorem holder_of_holds {index : Index} {scope agent : String}
    (holds : holds ((issuedByScope index.issued).get scope) agent = true) :
    index.holder scope agent = true := by
  rw [Console.holds, Option.any_eq_true] at holds
  obtain ⟨entry, found, holder⟩ := holds
  obtain ⟨mem, named⟩ := mem_of_get_issuedByScope found
  exact holder_iff.mpr ⟨entry, mem, named, List.contains_iff_mem.mp holder⟩

/-- **The row of an agent that is gone** says what the log says. -/
theorem status_of_gone {index : Index} {nowSec : Int} {row : Delegation}
    (listed : row ∈ deriveDelegations index nowSec)
    (gone : index.holder row.scope row.agent = false) :
    row.status = index.endOf row.scope row.agent := by
  have terms := terms_of_row listed
  obtain ⟨p, -, rfl⟩ := mem_deriveDelegations.mp listed
  have dropped : ¬holds ((issuedByScope index.issued).get p.scope) p.agent = true := by
    intro held
    exact absurd (holder_of_holds held) (Bool.eq_false_iff.mp gone)
  show (if holds ((issuedByScope index.issued).get p.scope) p.agent then _ else _) = _
  rw [if_neg dropped]
  exact droppedStatus_congr rfl rfl terms

/-- A pair that was granted has a row. -/
theorem exists_row_of_logged {index : Index} {scope agent : String}
    (logged : (grantIn index.nvoyLedger scope agent).isSome) (nowSec : Int) :
    ∃ row ∈ deriveDelegations index nowSec, row.scope = scope ∧ row.agent = agent := by
  have first : ((index.nvoyLedger.foldl notePair .empty).get (scope, agent)).isSome := by
    obtain ⟨event, mem, grants⟩ := Recent.latest_isSome.mp logged
    obtain ⟨before, after, split⟩ := List.append_of_mem mem
    rw [split, List.foldl_append, List.foldl_cons]
    refine List.foldlRecOn
      (motive := fun pairs : JsMap _ _ => (pairs.get (scope, agent)).isSome) after _ ?_ ?_
    · cases event with
      | granted =>
          simp only [LedgerEvent.grants, Bool.and_eq_true, decide_eq_true_eq] at grants
          rw [notePair, grants.1, grants.2, JsMap.get_set_self]
          rfl
      | _ => exact absurd grants (by simp [LedgerEvent.grants])
    · intro pairs present event _
      cases event with
      | granted =>
          rw [notePair, JsMap.get_set]
          split
          · rfl
          · exact present
      | _ => exact present
  have present : ((pairsOf index).get (scope, agent)).isSome :=
    keeps_second isSome_noteGrantee first _
  obtain ⟨p, hit⟩ := Option.isSome_iff_exists.mp present
  have key := ownKeys_pairsOf index _ p hit
  refine ⟨delegationOf index nowSec p, ?_, (Prod.mk.inj key).1, (Prod.mk.inj key).2⟩
  exact mem_deriveDelegations.mpr ⟨p, JsMap.mem_values.mpr ⟨_, hit⟩, rfl⟩

/-! ### One step -/

structure Kept (t : Traced) : Prop where
  sound : Sound t.desk
  logged : ∀ key status, t.ended.get key = some status →
    (grantIn t.desk.index.nvoyLedger key.1 key.2).isSome

/-- The log says of everyone who is gone what ended it. -/
def Ends (t : Traced) : Prop :=
  ∀ scope agent status, t.desk.index.holder scope agent = false →
    t.ended.get (scope, agent) = some status → t.desk.index.endOf scope agent = status

theorem Kept.told_iff {t : Traced} (kept : Kept t) : Told t ↔ Ends t := by
  constructor
  · intro told scope agent status gone ended
    obtain ⟨⟨row, listed, rfl, rfl⟩, all⟩ := told scope agent status gone ended 0
    rw [← status_of_gone listed gone]
    exact all row listed rfl rfl
  · intro ends scope agent status gone ended nowSec
    refine ⟨exists_row_of_logged (kept.logged (scope, agent) status ended) nowSec, ?_⟩
    rintro row listed rfl rfl
    rw [status_of_gone listed gone]
    exact ends _ _ status gone ended

/-- A rotation's events are read as the end of those it touches. -/
theorem reads_eq (e : Ending) (index : Index) (scope agent : String) :
    e.reads ⟨scope, agent, none, (grantIn index.nvoyLedger scope agent).bind LedgerEvent.terms, ""⟩ =
      if e.scope = scope ∧ e.touches index agent = true then some e.status else none := by
  obtain ⟨nowSec, here, drop, status⟩ := e
  by_cases same : here = scope
  · subst same
    cases status <;> simp [Ending.reads, Ending.touches, Index.past]
  · cases status <;> simp [Ending.reads, same]

theorem endOf_rotate {index index' : Index} {e : Ending} {events : List LedgerEvent}
    (ledger : index'.nvoyLedger = index.nvoyLedger ++ events)
    (quiet : ∀ event ∈ events, ∀ scope agent, event.grants scope agent = false)
    (reads : ∀ p : Pair, events.reverse.findSome? (·.ends p) = e.reads p) (scope agent : String) :
    index'.endOf scope agent =
      if e.scope = scope ∧ e.touches index agent = true then e.status
      else index.endOf scope agent := by
  have granted : grantIn index'.nvoyLedger scope agent = grantIn index.nvoyLedger scope agent := by
    rw [grantIn, ledger]
    exact Recent.latest_append_of_none
      (Recent.latest_eq_none.mpr fun event mem => quiet event mem scope agent)
  rw [Index.endOf, granted, droppedStatus, ledger, List.reverse_append, List.findSome?_append,
    reads, reads_eq]
  split
  · rfl
  · rw [Option.none_or]
    rfl

theorem endOf_grant {index index' : Index} {event : LedgerEvent} {scope agent : String}
    (ledger : index'.nvoyLedger = index.nvoyLedger ++ [event])
    (grants : ∀ scope' agent', event.grants scope' agent' = true ↔
      scope = scope' ∧ agent = agent')
    {scope' agent' : String} (other : ¬(scope = scope' ∧ agent = agent')) :
    index'.endOf scope' agent' = index.endOf scope' agent' := by
  have silent : event.grants scope' agent' = false :=
    Bool.eq_false_iff.mpr fun grant => other ((grants scope' agent').mp grant)
  have granted : grantIn index'.nvoyLedger scope' agent' = grantIn index.nvoyLedger scope' agent' := by
    rw [grantIn, ledger]
    refine Recent.latest_append_of_none (Recent.latest_eq_none.mpr fun event' mem => ?_)
    rwa [List.mem_singleton.mp mem]
  have endless : ∀ p : Pair, event.ends p = none := by
    intro p
    have ours := (grants scope agent).mpr ⟨rfl, rfl⟩
    cases event with
    | granted => rfl
    | _ => exact absurd ours (by simp [LedgerEvent.grants])
  rw [Index.endOf, granted, droppedStatus, ledger, List.reverse_append, List.findSome?_append,
    List.reverse_singleton, List.findSome?_singleton, endless, Option.none_or]
  rfl

theorem grantIn_of_append {log log' events : List LedgerEvent} {scope agent : String}
    (ledger : log' = log ++ events) (logged : (grantIn log scope agent).isSome) :
    (grantIn log' scope agent).isSome := by
  obtain ⟨event, mem, grants⟩ := Recent.latest_isSome.mp logged
  rw [ledger]
  exact Recent.latest_isSome.mpr ⟨event, List.mem_append_left _ mem, grants⟩

theorem get_remove (t : Traced) (e : Ending) (scope agent : String) :
    (t.remove e).get (scope, agent) =
      if e.scope = scope ∧ agent ∈ e.drop ∧ t.desk.index.holder scope agent = true
      then some e.status else t.ended.get (scope, agent) := by
  rw [Traced.remove, JsMap.get_foldl_set e.drop (fun agent => (e.scope, agent))
    (fun agent => t.desk.index.holder e.scope agent = true)]
  refine if_congr ?_ rfl rfl
  constructor
  · rintro ⟨agent', mem, same, held⟩
    obtain ⟨rfl, rfl⟩ := Prod.mk.inj same
    exact ⟨rfl, mem, held⟩
  · rintro ⟨rfl, mem, held⟩
    exact ⟨agent, mem, rfl, held⟩

/-- No append of an untrimmed log pushes anything out. -/
theorem keeps_of_untrimmed (sound : Sound desk) {action : Action}
    (room : desk.index.nvoyLedger.length + desk.appends action ≤ LEDGER_CAP) :
    Keeps desk action := by
  intro entry mem agent holder _
  obtain ⟨event, g, logged, -⟩ := sound.abreast entry mem agent holder
  obtain ⟨mem', grants⟩ := Recent.mem_of_latest logged
  refine ⟨event, ?_, grants⟩
  rwa [staying, Nat.sub_eq_zero_of_le room, List.drop_zero]

theorem Kept.logged_effect {t : Traced} (kept : Kept t) {ending : Option Ending} {index' : Index}
    (effect : Effect t.desk.index ending index') {scope agent : String} {status : Status}
    (ended : ((ending.map t.remove).getD t.ended).get (scope, agent) = some status) :
    (grantIn index'.nvoyLedger scope agent).isSome := by
  cases effect with
  | rest => exact kept.logged _ status ended
  | grant _ _ event ledger => exact grantIn_of_append ledger (kept.logged _ status ended)
  | rotate e events ledger =>
      refine grantIn_of_append ledger ?_
      rw [Option.map_some, Option.getD_some, get_remove] at ended
      split at ended
      next removed =>
        obtain ⟨entry, mem, named, holder⟩ := holder_iff.mp removed.2.2
        obtain ⟨event, g, logged, -⟩ := kept.sound.abreast entry mem agent holder
        rw [← named, logged]
        rfl
      next => exact kept.logged _ status ended

theorem Kept.step {t : Traced} (kept : Kept t) {action : Action} (untrimmed : Untrimmed t action) :
    Kept (t.step action) where
  sound := kept.sound.step (keeps_of_untrimmed kept.sound untrimmed)
  logged _ _ ended := kept.logged_effect (effect_step kept.sound untrimmed) ended

/-- **One step.** Where everyone gone is told, and nobody is dropped early, the step keeps it so
exactly when it tells. -/
theorem ends_effect {t : Traced} (ends : Ends t) {ending : Option Ending} {index' : Index}
    (effect : Effect t.desk.index ending index')
    (due : ∀ e ∈ ending, e.status = .expired → ∀ agent ∈ e.drop,
      t.desk.index.holder e.scope agent = true → t.desk.index.past e.scope agent e.nowSec = true) :
    (∀ scope agent status, index'.holder scope agent = false →
      ((ending.map t.remove).getD t.ended).get (scope, agent) = some status →
        index'.endOf scope agent = status) ↔
    ∀ e ∈ ending, ∀ gone ∈ t.ended.entries, gone.1.1 = e.scope →
      t.desk.index.holder e.scope gone.1.2 = false → e.touches t.desk.index gone.1.2 = true →
        gone.2 = e.status := by
  cases effect with
  | rest => exact ⟨fun _ e none => absurd none (by simp), fun _ => ends⟩
  | grant scope agent event ledger grants holder =>
      refine ⟨fun _ e none => absurd none (by simp), fun _ scope' agent' status gone ended => ?_⟩
      have before : ¬(t.desk.index.holder scope' agent' = true ∨ scope = scope' ∧ agent = agent') :=
        fun held => absurd ((holder scope' agent').mpr held) (Bool.eq_false_iff.mp gone)
      rw [not_or] at before
      rw [endOf_grant ledger grants before.2]
      exact ends scope' agent' status (Bool.eq_false_iff.mpr before.1) ended
  | rotate e events ledger quiet reads holder =>
      simp only [Option.map_some, Option.getD_some, Option.mem_def, Option.some.injEq,
        forall_eq'] at due ⊢
      constructor
      · rintro told ⟨⟨scope, agent⟩, status⟩ mem rfl gone touches
        have still : index'.holder e.scope agent = false :=
          Bool.eq_false_iff.mpr fun held =>
            absurd ((holder e.scope agent).mp held).1 (Bool.eq_false_iff.mp gone)
        have ended : (t.remove e).get (e.scope, agent) = some status := by
          rw [get_remove, if_neg fun removed => absurd removed.2.2 (Bool.eq_false_iff.mp gone)]
          exact JsMap.mem_entries.mp mem
        have said := told e.scope agent status still ended
        rw [endOf_rotate ledger quiet reads, if_pos ⟨rfl, touches⟩] at said
        exact said.symm
      · intro distinct scope agent status gone ended
        rw [endOf_rotate ledger quiet reads]
        rw [get_remove] at ended
        by_cases removed : e.scope = scope ∧ agent ∈ e.drop ∧
            t.desk.index.holder scope agent = true
        · -- The agents this rotation drops: its events are read as their end.
          rw [if_pos removed] at ended
          obtain ⟨rfl, mem, held⟩ := removed
          have touches : e.touches t.desk.index agent = true := by
            unfold Ending.touches
            split
            next expired => exact due expired agent mem held
            next => exact List.contains_iff_mem.mpr mem
          rw [if_pos ⟨rfl, touches⟩]
          exact Option.some.inj ended
        · -- Those that were gone before.
          rw [if_neg removed] at ended
          have before : t.desk.index.holder scope agent = false := by
            refine Bool.eq_false_iff.mpr fun held => ?_
            refine absurd ((holder scope agent).mpr ⟨held, fun dropped => ?_⟩)
              (Bool.eq_false_iff.mp gone)
            exact removed ⟨dropped.1, dropped.2, held⟩
          split
          next touched =>
            obtain ⟨rfl, touches⟩ := touched
            exact (distinct ((e.scope, agent), status) (JsMap.mem_entries.mpr ended) rfl before
              touches).symm
          next => exact ends scope agent status before ended

theorem Kept.ends_step {t : Traced} (kept : Kept t) (ends : Ends t) {action : Action}
    (untrimmed : Untrimmed t action) (due : Due t action) :
    Ends (t.step action) ↔ Undisputed t action :=
  ends_effect ends (effect_step kept.sound untrimmed) due

/-! ### Runs -/

theorem kept_blank : Kept .blank where
  sound := sound_blank
  logged _ _ ended := absurd ended (by simp [Traced.blank])

theorem told_blank : Told .blank := by
  intro scope agent status _ ended
  exact absurd ended (by simp [Traced.blank])

theorem Kept.told_step {t : Traced} (kept : Kept t) (told : Told t) {action : Action}
    (untrimmed : Untrimmed t action) (due : Due t action) :
    Told (t.step action) ↔ Undisputed t action :=
  (kept.step untrimmed).told_iff.trans (kept.ends_step (kept.told_iff.mp told) untrimmed due)

/-- **How the ledger tells.** In a run that trims nothing, every state reports every ended
delegation as it ended if every step tells; and where no expiry rotation drops anyone early, only
then. -/
theorem endings_told (actions : List Action)
    (untrimmed : Meets Traced.step Untrimmed .blank actions) :
    (Meets Traced.step Tells .blank actions →
      ∀ front, front <+: actions → Told (run Traced.step .blank front)) ∧
    (Meets Traced.step Due .blank actions →
      (∀ front, front <+: actions → Told (run Traced.step .blank front)) →
        Meets Traced.step Tells .blank actions) := by
  constructor
  · rintro tells front ⟨back, rfl⟩
    have meets := Runs.meets_and.mpr ⟨untrimmed.of_append, tells.of_append⟩
    have keep : ∀ (t : Traced) (action : Action), Kept t ∧ Told t →
        Untrimmed t action ∧ Tells t action → Kept (t.step action) ∧ Told (t.step action) := by
      rintro t action ⟨kept, told⟩ ⟨room, due, undisputed⟩
      exact ⟨kept.step room, (kept.told_step told room due).mpr undisputed⟩
    exact (meets.keeps keep ⟨kept_blank, told_blank⟩).2
  · intro due told
    have kept : ∀ front, front <+: actions → Kept (run Traced.step .blank front) := by
      rintro front ⟨back, rfl⟩
      exact untrimmed.of_append.keeps (fun t action kept room => kept.step room) kept_blank
    have only : ∀ (t : Traced) (action : Action), Kept t ∧ Told t →
        Kept (t.step action) ∧ Told (t.step action) →
        Untrimmed t action ∧ Due t action → Tells t action :=
      fun t action before after room =>
        ⟨room.2, (before.1.told_step before.2 room.1 room.2).mp after.2⟩
    exact (Runs.meets_of_prefixes only fun front before =>
      ⟨kept front before, told front before⟩).mp (Runs.meets_and.mpr ⟨untrimmed, due⟩)

/-! ### Two ends -/

/-- Ann has the scope until second 100, Bob until second 120. -/
def twoHolders : List Action :=
  [.issue 10 "travel" "Travel" "ann" lapsingTerms ⟨0⟩ .saved,
    .addGrantee 12 "travel" "bob" { lapsingTerms with expiresAt := some 120 } .saved]

def bobLapses : List Action :=
  [.sweep 130, .runExpiryRotation 130 ⟨"travel", "Travel", ["bob"]⟩ .ok ⟨2⟩ .saved]

/-- Ann is revoked at second 50. -/
def revokedThenLapsed : List Action :=
  twoHolders ++ .revoke 50 "travel" "ann" "" .ok ⟨1⟩ .saved :: bobLapses

/-- Ann is rotated out with Bob. -/
def lapsedTogether : List Action :=
  twoHolders ++
    [.sweep 130, .runExpiryRotation 130 ⟨"travel", "Travel", ["bob", "ann"]⟩ .ok ⟨2⟩ .saved]

theorem endings_told_together : Told (run Traced.step .blank lapsedTogether) ∧
    (run Traced.step .blank lapsedTogether).ended.get ("travel", "ann") = some .expired :=
  ⟨(endings_told lapsedTogether (by decide +kernel)).1 (by decide +kernel) lapsedTogether
    List.prefix_rfl, by decide +kernel⟩

/-- Ann, revoked at second 50, is shown as expired once Bob's delegation has lapsed. -/
theorem revoked_shown_expired :
    Meets Traced.step Untrimmed .blank revokedThenLapsed ∧
      (run Traced.step .blank revokedThenLapsed).desk.index.holder "travel" "ann" = false ∧
      (run Traced.step .blank revokedThenLapsed).ended.get ("travel", "ann") = some .revoked ∧
      (∃ row ∈ deriveDelegations (run Traced.step .blank revokedThenLapsed).desk.index 200,
        row.scope = "travel" ∧ row.agent = "ann" ∧ row.status = .expired) ∧
      ¬Told (run Traced.step .blank revokedThenLapsed) := by
  have gone : (run Traced.step .blank revokedThenLapsed).desk.index.holder "travel" "ann" =
      false := by decide +kernel
  have ended : (run Traced.step .blank revokedThenLapsed).ended.get ("travel", "ann") =
      some .revoked := by decide +kernel
  have shown : ∃ row ∈ deriveDelegations (run Traced.step .blank revokedThenLapsed).desk.index 200,
      row.scope = "travel" ∧ row.agent = "ann" ∧ row.status = .expired := by decide +kernel
  refine ⟨by decide +kernel, gone, ended, shown, fun told => ?_⟩
  obtain ⟨row, listed, here, whom, expired⟩ := shown
  have revoked := (told "travel" "ann" .revoked gone ended 200).2 row listed here whom
  rw [expired] at revoked
  cases revoked

end Nvoy.Console
