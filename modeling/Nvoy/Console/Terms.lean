/-
**A rotation never renegotiates terms**, as long as the log remembers them.

The terms of a delegation stand only in the `granted` events of a log that keeps its last 500
events, while its holder stands in an issued entry for as long as nobody drops it:

* `Keeps` — no append pushes the last `granted` event of a remaining holder out of the log;
* `Sound.step` — then the latest grant in the log and the latest 440 sent agree on every holder;
* `terms_kept` — so every rotation re-grants every survivor under the terms of its latest 440, and
  a holder whose terms are past is in the plan of the sweep and not shown as active;
* `terms_lost` — 501 events later a holder's terms are gone: it is shown as active after they are
  past.
-/

import Nvoy.Console.Rotation

namespace Nvoy.Console

open Grants (IssuedEntry ScopeKey)
open Recent (latest)
open Runs (run Meets)

/-! ### The latest 440 -/

def Message.sentGrant : Message → Option Grant
  | .grant g => some g
  | _ => none

def grantsIn (messages : List Message) : List Grant := messages.filterMap Message.sentGrant

def Grant.isFor (scope agent : String) (g : Grant) : Bool := g.scope = scope && g.agent = agent

/-- The most recent grant of the scope to the agent. -/
def latestGrant (messages : List Message) (scope agent : String) : Option Grant :=
  latest (Grant.isFor scope agent) (grantsIn messages)

theorem mem_grantsIn {messages : List Message} {g : Grant} :
    g ∈ grantsIn messages ↔ .grant g ∈ messages := by
  rw [grantsIn, List.mem_filterMap]
  constructor
  · rintro ⟨message, mem, sent⟩
    cases message with
    | grant g' => rwa [← Option.some.inj sent]
    | scope => exact absurd sent (by simp [Message.sentGrant])
    | relinquish => exact absurd sent (by simp [Message.sentGrant])
  · intro mem
    exact ⟨.grant g, mem, rfl⟩

theorem latestGrant_append (messages more : List Message) (scope agent : String) :
    latestGrant (messages ++ more) scope agent =
      (latestGrant more scope agent).or (latestGrant messages scope agent) := by
  rw [latestGrant, grantsIn, List.filterMap_append, Recent.latest_append]
  rfl

/-! ### The condition -/

/-- The agents the action drops from the scope. -/
def Action.drops (scope : String) : Action → List String
  | .revoke _ scope' agent _ _ _ _ => if scope' = scope then [agent] else []
  | .runExpiryRotation _ item _ _ _ => if item.scope = scope then item.expired else []
  | .runRelinquishRotation _ item _ _ _ => if item.scope = scope then [item.agent] else []
  | _ => []

/-- How many events a rotation appends of the so many it makes. -/
def Desk.rotationAppends (desk : Desk) (scope : String) (res : ReadBack) (progress : Progress)
    (made : Nat) : Nat :=
  if desk.index.issued.any (·.scope = scope) && res = .ok && progress = .saved then made else 0

/-- How many events the action appends to the log. -/
def Desk.appends (desk : Desk) (action : Action) : Nat :=
  if desk.admits action then
    match action with
    | .issue _ _ _ _ _ _ .saved => 1
    | .addGrantee _ _ _ _ .saved => 1
    | .revoke _ scope _ _ res _ progress => desk.rotationAppends scope res progress 2
    | .runExpiryRotation _ item res _ progress => desk.rotationAppends item.scope res progress 1
    | .runRelinquishRotation _ item res _ progress =>
      desk.rotationAppends item.scope res progress 2
    | _ => 0
  else 0

/-- The events that stay when so many more are appended. -/
def staying (log : List LedgerEvent) (appended : Nat) : List LedgerEvent :=
  log.drop (log.length + appended - LEDGER_CAP)

/-- The append leaves a `granted` event of every holder that the action does not drop. -/
def Keeps (desk : Desk) (action : Action) : Prop :=
  ∀ entry ∈ desk.index.issued, ∀ agent ∈ entry.grantees, agent ∉ action.drops entry.scope →
    ∃ event ∈ staying desk.index.nvoyLedger (desk.appends action),
      event.grants entry.scope agent = true

instance (desk : Desk) (action : Action) : Decidable (Keeps desk action) := by
  unfold Keeps
  infer_instance

/-- Appending events that are no grants of the pair leaves its latest grant, if any stays. -/
theorem grantIn_appendAll {log events : List LedgerEvent} {scope agent : String}
    (short : log.length ≤ LEDGER_CAP)
    (quiet : ∀ event ∈ events, event.grants scope agent = false)
    (stays : ∃ event ∈ staying log events.length, event.grants scope agent = true) :
    grantIn (appendAll log events) scope agent = grantIn log scope agent := by
  obtain ⟨event, mem, grants⟩ := stays
  have kept : event ∈ (log ++ events).rtake LEDGER_CAP := by
    rw [Recent.rtake_eq_drop, List.drop_append, List.length_append]
    exact List.mem_append_left _ mem
  rw [grantIn, appendAll_eq short, Recent.latest_rtake (Recent.latest_isSome.mpr ⟨event, kept,
    grants⟩), Recent.latest_append_of_none (Recent.latest_eq_none.mpr quiet)]
  rfl

theorem appendLedger_eq_appendAll (log : List LedgerEvent) (event : LedgerEvent) :
    appendLedger log event = appendAll log [event] := by
  rw [appendAll, List.foldl_cons, List.foldl_nil]

/-- The event just appended is in the log. -/
theorem grantIn_appendLedger {log : List LedgerEvent} {event : LedgerEvent} {scope agent : String}
    (grants : event.grants scope agent = true) :
    grantIn (appendLedger log event) scope agent = some event := by
  have last : event ∈ (log ++ [event]).rtake LEDGER_CAP := by
    have room : log.length + 1 - LEDGER_CAP ≤ log.length := by
      have := LEDGER_CAP_eq
      omega
    rw [Recent.rtake_eq_drop, List.length_append, List.length_singleton,
      List.drop_append_of_le_length room]
    exact List.mem_append_right _ (List.mem_singleton_self event)
  rw [grantIn, appendLedger, Recent.latest_rtake (Recent.latest_isSome.mpr ⟨event, last, grants⟩),
    Recent.latest_append]
  simp [latest, grants]

/-! ### The log and what was sent -/

/-- The log's latest grant and the latest 440 carry the same terms. -/
def Abreast (log : List LedgerEvent) (messages : List Message) (scope agent : String) : Prop :=
  ∃ event g, grantIn log scope agent = some event ∧ latestGrant messages scope agent = some g ∧
    event.terms = g.terms

theorem Abreast.send {log : List LedgerEvent} {messages more : List Message}
    {scope agent : String} (abreast : Abreast log messages scope agent)
    (same : ∀ g, .grant g ∈ more → g.isFor scope agent = true →
      (grantIn log scope agent).bind LedgerEvent.terms = g.terms) :
    Abreast log (messages ++ more) scope agent := by
  obtain ⟨event, g, logged, sent, terms⟩ := abreast
  rw [Abreast]
  simp only [latestGrant_append]
  cases last : latestGrant more scope agent with
  | none => exact ⟨event, g, logged, sent, terms⟩
  | some g' =>
      obtain ⟨mem, to'⟩ := Recent.mem_of_latest last
      refine ⟨event, g', logged, rfl, ?_⟩
      rw [← same g' (mem_grantsIn.mp mem) to', logged]
      rfl

theorem Abreast.of_log {log log' : List LedgerEvent} {messages : List Message}
    {scope agent : String} (abreast : Abreast log messages scope agent)
    (same : grantIn log' scope agent = grantIn log scope agent) :
    Abreast log' messages scope agent := by
  obtain ⟨event, g, logged, rest⟩ := abreast
  exact ⟨event, g, same.trans logged, rest⟩

structure Sound (desk : Desk) : Prop where
  own : (desk.index.issued.map (·.scope)).Nodup
  short : desk.index.nvoyLedger.length ≤ LEDGER_CAP
  abreast : ∀ entry ∈ desk.index.issued, ∀ agent ∈ entry.grantees,
    Abreast desk.index.nvoyLedger desk.messages entry.scope agent

theorem sound_blank : Sound .blank where
  own := List.nodup_nil
  short := Nat.zero_le _
  abreast _ mem := absurd mem List.not_mem_nil

/-- `deriveDelegations` gives a holder the terms of the log's latest grant. -/
theorem termsOf_eq {index : Index} (own : (index.issued.map (·.scope)).Nodup)
    {entry : IssuedEntry} (mem : entry ∈ index.issued) {agent : String}
    (holder : agent ∈ entry.grantees) (nowSec : Int) :
    termsOf (deriveDelegations index nowSec) entry.scope agent =
      (grantIn index.nvoyLedger entry.scope agent).bind LedgerEvent.terms := by
  obtain ⟨row, listed, here, whom⟩ := exists_row own mem holder nowSec
  obtain ⟨found, hit⟩ := Option.isSome_iff_exists.mp
    (List.find?_isSome (p := fun x : Delegation => x.scope = entry.scope && x.agent = agent)
      |>.mpr ⟨row, listed, by simp [here, whom]⟩)
  have passes := List.find?_some hit
  simp only [Bool.and_eq_true, decide_eq_true_eq] at passes
  rw [termsOf, hit, Option.bind_some, terms_of_row (List.mem_of_find?_eq_some hit), passes.1,
    passes.2]

/-- A 440 of a rotation carries the terms the log has for its survivor. -/
theorem terms_of_regrant {index : Index} (own : (index.issued.map (·.scope)).Nodup)
    {entry : IssuedEntry} (mem : entry ∈ index.issued) {nowSec : Int} {drop : List String}
    {g : Grant}
    (sent : .grant g ∈ rotateWithTerms entry.scope entry.v (survivorsOf index nowSec entry drop)) :
    g.scope = entry.scope ∧ g.agent ∈ entry.grantees ∧ g.agent ∉ drop ∧
      g.terms = (grantIn index.nvoyLedger entry.scope g.agent).bind LedgerEvent.terms := by
  simp only [rotateWithTerms, survivorsOf, List.map_map, List.mem_cons, reduceCtorEq, false_or,
    List.mem_map, List.mem_filter, Function.comp_apply, Message.grant.injEq] at sent
  obtain ⟨pub, ⟨holder, kept⟩, rfl⟩ := sent
  refine ⟨rfl, holder, by simpa using kept, ?_⟩
  exact termsOf_eq own mem holder nowSec

/-! ### One step -/

variable {desk : Desk}

/-- More messages, none of which tells a holder other terms. -/
theorem Sound.send (sound : Sound desk) {more : List Message}
    (same : ∀ entry ∈ desk.index.issued, ∀ g, .grant g ∈ more → g.scope = entry.scope →
      g.agent ∈ entry.grantees →
      (grantIn desk.index.nvoyLedger entry.scope g.agent).bind LedgerEvent.terms = g.terms) :
    Sound { desk with messages := desk.messages ++ more } where
  own := sound.own
  short := sound.short
  abreast entry mem agent holder := by
    refine (sound.abreast entry mem agent holder).send fun g sent whom => ?_
    simp only [Grant.isFor, Bool.and_eq_true, decide_eq_true_eq] at whom
    rw [← whom.2] at holder ⊢
    exact same entry mem g sent whom.1 holder

/-- What the queues hold does not matter. -/
theorem Sound.queues (sound : Sound desk) (expiring : List ExpiryItem)
    (auto pendingRelinquish : List RelinquishItem) :
    Sound { desk with
      expiring := expiring, auto := auto, pendingRelinquish := pendingRelinquish } :=
  ⟨sound.own, sound.short, sound.abreast⟩

/-- Two entries of one scope are one entry. -/
theorem Sound.entry_eq (sound : Sound desk) {first second : IssuedEntry}
    (mem : first ∈ desk.index.issued) (mem' : second ∈ desk.index.issued)
    (same : first.scope = second.scope) : first = second :=
  List.inj_on_of_nodup_map sound.own mem mem' same

/-- So many events, none of them a grant. -/
def Quiet (makeEvents : Nat → Nat → Nat → List LedgerEvent) (made : Nat) : Prop :=
  ∀ fromV toV survivors, (makeEvents fromV toV survivors).length = made ∧
    ∀ event ∈ makeEvents fromV toV survivors, ∀ scope agent, event.grants scope agent = false

theorem quiet_revokeEvents (nowSec : Int) (scope agent reason : String) :
    Quiet (revokeEvents nowSec scope agent reason) 2 := fun fromV toV survivors =>
  ⟨rfl, by simp [revokeEvents, LedgerEvent.grants]⟩

theorem quiet_expiryEvents (nowSec : Int) (item : ExpiryItem) :
    Quiet (expiryEvents nowSec item) 1 := fun fromV toV survivors =>
  ⟨rfl, by simp [expiryEvents, LedgerEvent.grants]⟩

theorem quiet_relinquishEvents (nowSec : Int) (item : RelinquishItem) :
    Quiet (relinquishEvents nowSec item) 2 := fun fromV toV survivors =>
  ⟨rfl, by simp [relinquishEvents, LedgerEvent.grants]⟩

/-- A rotation that goes through appends all it makes. -/
theorem rotationAppends_of_ok {nowSec : Int} {scope : String} {drop : List String}
    {res : ReadBack} {key : ScopeKey} {makeEvents : Nat → Nat → Nat → List LedgerEvent}
    {rotation : Rotation}
    (done : rotateDropping desk.index nowSec scope drop res key makeEvents = .ok rotation)
    (made : Nat) : desk.rotationAppends scope res .saved made = made := by
  obtain ⟨entry, mem, named, -⟩ := ok_of_rotateDropping done
  have readable : res = .ok := by
    by_contra unread
    unfold rotateDropping at done
    split at done
    next => exact absurd done (by simp)
    next => rw [if_neg unread] at done; exact absurd done (by simp)
  have known : desk.index.issued.any (·.scope = scope) = true :=
    List.any_eq_true.mpr ⟨entry, mem, by simpa using named⟩
  rw [Desk.rotationAppends, known, readable]
  rfl

theorem Sound.rotate (sound : Sound desk) {nowSec : Int} {scope : String} {drop : List String}
    {res : ReadBack} {key : ScopeKey} {makeEvents : Nat → Nat → Nat → List LedgerEvent}
    {progress : Progress} {made : Nat}
    (quiet : Quiet makeEvents made)
    (keeps : ∀ entry ∈ desk.index.issued, ∀ agent ∈ entry.grantees,
      (entry.scope = scope → agent ∉ drop) →
      ∃ event ∈ staying desk.index.nvoyLedger (desk.rotationAppends scope res progress made),
        event.grants entry.scope agent = true) :
    Sound (desk.rotate nowSec scope drop res key makeEvents progress) := by
  unfold Desk.rotate
  cases done : rotateDropping desk.index nowSec scope drop res key makeEvents with
  | error text => exact sound
  | ok rotation =>
      obtain ⟨entry, mem, named, survivors, messages, issued, ledger⟩ := ok_of_rotateDropping done
      have same : ∀ entry' ∈ desk.index.issued, ∀ g, .grant g ∈ rotation.messages →
          g.scope = entry'.scope → g.agent ∈ entry'.grantees →
          (grantIn desk.index.nvoyLedger entry'.scope g.agent).bind LedgerEvent.terms =
            g.terms := by
        intro entry' mem' g sent here holder
        rw [messages, survivors] at sent
        obtain ⟨there, -, -, terms⟩ := terms_of_regrant sound.own mem sent
        rw [terms, ← there, here]
      cases progress with
      | stopped published =>
          refine sound.send fun entry' mem' g sent => same entry' mem' g (List.mem_of_mem_take sent)
      | saved =>
          have sent := sound.send same
          rw [rotationAppends_of_ok done] at keeps
          obtain ⟨count, silent⟩ := quiet entry.v (entry.v + 1) rotation.survivors.length
          refine ⟨?_, ?_, ?_⟩
          · show (rotation.index.issued.map (·.scope)).Nodup
            rw [issued, List.map_map]
            have : ((fun e : IssuedEntry => e.scope) ∘ fun e => if e.scope ≠ scope then e else
                ⟨entry.scope, entry.scopeName, entry.v + 1, key,
                  rotation.survivors.map (·.pub)⟩) = fun e => e.scope := by
              funext e
              by_cases here : e.scope = scope
              · simp [here, named]
              · simp [here]
            rw [this]
            exact sound.own
          · show rotation.index.nvoyLedger.length ≤ LEDGER_CAP
            rw [ledger]
            exact length_appendAll sound.short _
          · intro entry' mem' agent holder
            change entry' ∈ rotation.index.issued at mem'
            show Abreast rotation.index.nvoyLedger _ _ _
            -- The holders of the new index are holders of the old one, but the dropped ones.
            have old : ∃ before ∈ desk.index.issued, before.scope = entry'.scope ∧
                agent ∈ before.grantees ∧ (before.scope = scope → agent ∉ drop) := by
              rw [issued, List.mem_map] at mem'
              obtain ⟨e, memE, shape⟩ := mem'
              by_cases here : e.scope = scope
              · rw [if_neg (not_not.mpr here)] at shape
                rw [← shape] at holder ⊢
                rw [survivors] at holder
                simp only [survivorsOf, List.map_map, List.mem_map, List.mem_filter,
                  Function.comp_apply] at holder
                obtain ⟨pub, ⟨holder, kept⟩, rfl⟩ := holder
                exact ⟨entry, mem, rfl, holder, fun _ => by simpa using kept⟩
              · rw [if_pos here] at shape
                rw [← shape] at holder ⊢
                exact ⟨e, memE, rfl, holder, fun there => absurd there here⟩
            obtain ⟨before, memBefore, there, held, kept⟩ := old
            rw [← there]
            refine (sent.abreast before memBefore agent held).of_log ?_
            rw [ledger]
            refine grantIn_appendAll sound.short (fun event listed => silent event listed _ _) ?_
            rw [count]
            exact keeps before memBefore agent held kept

/-- One `granted` event more, and its 440: the pair's own terms are the new ones, and every other
pair whose event stays keeps its own. -/
theorem abreast_grant {log : List LedgerEvent} {messages more : List Message} {nowSec : Int}
    {scope agent name : String} {v : Nat} {terms : Terms} (short : log.length ≤ LEDGER_CAP)
    (sent : grantsIn more = [⟨scope, agent, v, some terms, false⟩]) {scope' agent' : String}
    (before : (scope', agent') ≠ (scope, agent) → Abreast log messages scope' agent' ∧
      ∃ event ∈ staying log 1, event.grants scope' agent' = true) :
    Abreast (appendLedger log (.granted nowSec scope agent v (some terms) name))
      (messages ++ more) scope' agent' := by
  by_cases here : (scope', agent') = (scope, agent)
  · obtain ⟨rfl, rfl⟩ := Prod.mk.inj here
    have grants : (LedgerEvent.granted nowSec scope' agent' v (some terms) name).grants
        scope' agent' = true := by
      simp [LedgerEvent.grants]
    refine ⟨_, ⟨scope', agent', v, some terms, false⟩, grantIn_appendLedger grants, ?_, rfl⟩
    rw [latestGrant_append, latestGrant, sent]
    simp [latest, Grant.isFor]
  · obtain ⟨abreast, stays⟩ := before here
    have other : ¬(scope = scope' ∧ agent = agent') := by
      rintro ⟨rfl, rfl⟩
      exact here rfl
    have silent : ∀ event ∈ [LedgerEvent.granted nowSec scope agent v (some terms) name],
        event.grants scope' agent' = false := by
      simpa [LedgerEvent.grants] using other
    rw [appendLedger_eq_appendAll]
    refine (abreast.send fun g mem whom => ?_).of_log (grantIn_appendAll short silent stays)
    rw [← mem_grantsIn, sent, List.mem_singleton] at mem
    rw [mem] at whom
    exact absurd (by simpa [Grant.isFor] using whom) other

/-- What the condition says of a rotation of one scope. -/
theorem Keeps.rotation {action : Action} {scope : String} {drop : List String} {res : ReadBack}
    {progress : Progress} {made : Nat} (keeps : Keeps desk action)
    (drops : ∀ scope', action.drops scope' = if scope = scope' then drop else [])
    (appends : desk.appends action = desk.rotationAppends scope res progress made) :
    ∀ entry ∈ desk.index.issued, ∀ agent ∈ entry.grantees,
      (entry.scope = scope → agent ∉ drop) →
      ∃ event ∈ staying desk.index.nvoyLedger (desk.rotationAppends scope res progress made),
        event.grants entry.scope agent = true := by
  intro entry mem agent holder kept
  rw [← appends]
  refine keeps entry mem agent holder ?_
  rw [drops]
  split
  next here => exact kept here.symm
  next => exact List.not_mem_nil

theorem Sound.issue (sound : Sound desk) {nowSec : Int} {scope scopeName agent : String}
    {terms : Terms} {key : ScopeKey} {progress : Progress}
    (keeps : Keeps desk (.issue nowSec scope scopeName agent terms key progress)) :
    Sound (Console.step desk (.issue nowSec scope scopeName agent terms key progress)) := by
  unfold Console.step
  split
  next admitted =>
    have fresh : ∀ entry ∈ desk.index.issued, entry.scope ≠ scope := by
      simp only [Desk.admits, Bool.and_eq_true, Bool.not_eq_true', List.any_eq_false,
        decide_eq_true_eq] at admitted
      exact admitted.1
    cases progress with
    | stopped published =>
        refine sound.send fun entry mem g sent here => ?_
        have mine := List.mem_of_mem_take sent
        simp only [List.mem_cons, reduceCtorEq, false_or, List.not_mem_nil, or_false,
          Message.grant.injEq] at mine
        rw [mine] at here
        exact absurd here.symm (fresh entry mem)
    | saved =>
        have appends : desk.appends (.issue nowSec scope scopeName agent terms key .saved) = 1 := by
          rw [Desk.appends, if_pos admitted]
        refine ⟨?_, ?_, ?_⟩
        · show ((desk.index.issued ++ [_]).map fun e : IssuedEntry => e.scope).Nodup
          rw [List.map_append, List.nodup_append]
          refine ⟨sound.own, List.nodup_singleton _, ?_⟩
          intro old mem new here
          obtain ⟨entry, listed, rfl⟩ := List.mem_map.mp mem
          rw [List.mem_singleton.mp here]
          exact fresh entry listed
        · show (appendLedger desk.index.nvoyLedger _).length ≤ LEDGER_CAP
          rw [appendLedger_eq_appendAll]
          exact length_appendAll sound.short _
        · intro entry mem whom holder
          refine abreast_grant sound.short rfl fun other => ?_
          rcases List.mem_append.mp mem with old | new
          · refine ⟨sound.abreast entry old whom holder, ?_⟩
            rw [← appends]
            exact keeps entry old whom holder List.not_mem_nil
          · rw [List.mem_singleton.mp new] at holder other
            exact absurd (by rw [List.mem_singleton.mp holder]) other
  next => exact sound

theorem Sound.addGrantee (sound : Sound desk) {nowSec : Int} {scope agent : String}
    {terms : Terms} {progress : Progress}
    (keeps : Keeps desk (.addGrantee nowSec scope agent terms progress)) :
    Sound (Console.step desk (.addGrantee nowSec scope agent terms progress)) := by
  unfold Console.step
  split
  next admitted =>
    have admits := admitted
    simp only [Desk.admits, Option.any_eq_true_iff_get] at admits
    obtain ⟨known, newcomer⟩ := admits
    obtain ⟨entry, found⟩ := Option.isSome_iff_exists.mp known
    simp only [found, Option.get_some, Bool.not_eq_true', List.contains_eq_mem,
      decide_eq_false_iff_not] at newcomer ⊢
    have named : entry.scope = scope := by simpa using List.find?_some found
    have mem := List.mem_of_find?_eq_some found
    cases progress with
    | stopped published =>
        refine sound.send fun entry' mem' g sent here holder => ?_
        have mine := List.mem_of_mem_take sent
        rw [List.mem_singleton, Message.grant.injEq] at mine
        rw [mine] at here holder
        rw [← sound.entry_eq mem mem' (named.trans here)] at holder
        exact absurd holder newcomer
    | saved =>
        have appends : desk.appends (.addGrantee nowSec scope agent terms .saved) = 1 := by
          rw [Desk.appends, if_pos admitted]
        refine ⟨?_, ?_, ?_⟩
        · show ((desk.index.issued.map _).map fun e : IssuedEntry => e.scope).Nodup
          rw [List.map_map]
          have : ((fun e : IssuedEntry => e.scope) ∘ fun e => if e.scope ≠ scope then e else
              { e with grantees := e.grantees ++ [agent] }) = fun e => e.scope := by
            funext e
            by_cases here : e.scope = scope
            · simp [here]
            · simp [here]
          rw [this]
          exact sound.own
        · show (appendLedger desk.index.nvoyLedger _).length ≤ LEDGER_CAP
          rw [appendLedger_eq_appendAll]
          exact length_appendAll sound.short _
        · intro entry' mem' whom holder
          refine abreast_grant sound.short rfl fun other => ?_
          obtain ⟨e, memE, shape⟩ := List.mem_map.mp mem'
          have old : e.scope = entry'.scope ∧ whom ∈ e.grantees := by
            by_cases here : e.scope = scope
            · rw [if_neg (not_not.mpr here)] at shape
              rw [← shape] at holder other ⊢
              refine ⟨rfl, ?_⟩
              rcases List.mem_append.mp holder with before | new
              · exact before
              · exact absurd (by rw [List.mem_singleton.mp new, here]) other
            · rw [if_pos here] at shape
              rw [← shape] at holder ⊢
              exact ⟨rfl, holder⟩
          rw [← old.1]
          refine ⟨sound.abreast e memE whom old.2, ?_⟩
          rw [← appends]
          exact keeps e memE whom old.2 List.not_mem_nil
  next => exact sound

theorem Sound.step {action : Action} (sound : Sound desk) (keeps : Keeps desk action) :
    Sound (step desk action) := by
  cases action with
  | issue => exact sound.issue keeps
  | addGrantee => exact sound.addGrantee keeps
  | revoke nowSec scope agent reason res key progress =>
      refine sound.rotate (quiet_revokeEvents nowSec scope agent reason)
        (keeps.rotation (fun scope' => rfl) ?_)
      have admitted : desk.admits (.revoke nowSec scope agent reason res key progress) = true := rfl
      rw [Desk.appends, if_pos admitted]
  | runExpiryRotation nowSec item res key progress =>
      unfold Console.step
      split
      next admitted =>
        refine sound.rotate (quiet_expiryEvents nowSec item)
          (keeps.rotation (fun scope' => rfl) ?_)
        rw [Desk.appends, if_pos admitted]
      next => exact sound
  | runRelinquishRotation nowSec item res key progress =>
      unfold Console.step
      split
      next admitted =>
        refine sound.rotate (quiet_relinquishEvents nowSec item)
          (keeps.rotation (fun scope' => rfl) ?_)
        rw [Desk.appends, if_pos admitted]
      next => exact sound
  | sweep nowSec => exact sound.queues _ _ _
  | notify notice =>
      refine sound.send fun entry mem g sent => ?_
      exact absurd (List.mem_singleton.mp sent) (by simp)
  | plan inbox =>
      unfold Console.step
      split
      next => exact sound.queues _ _ _
      next => exact sound

theorem sound_run {actions : List Action} (meets : Meets step Keeps .blank actions) :
    Sound (run step .blank actions) :=
  meets.keeps (fun _ _ sound keeps => sound.step keeps) sound_blank

/-! ### The plan of the sweep -/

theorem stays_noteExpired (issued : JsMap String IssuedEntry) {byScope : JsMap String ExpiryItem}
    (d : Delegation) {scope agent : String}
    (listed : ∃ item, byScope.get scope = some item ∧ agent ∈ item.expired) :
    ∃ item, (noteExpired issued byScope d).get scope = some item ∧ agent ∈ item.expired := by
  obtain ⟨item, found, mem⟩ := listed
  unfold noteExpired
  split
  next =>
    simp only [JsMap.get_set]
    by_cases here : scope = d.scope
    · rw [if_pos here, ← here, found]
      exact ⟨_, rfl, List.mem_append_left _ mem⟩
    · rw [if_neg here]
      exact ⟨item, found, mem⟩
  next => exact ⟨item, found, mem⟩

/-- Every item of the plan stands at its own scope. -/
theorem scope_of_item (issued : JsMap String IssuedEntry) (rows : List Delegation) {scope : String}
    {item : ExpiryItem} (found : (rows.foldl (noteExpired issued) .empty).get scope = some item) :
    item.scope = scope := by
  induction rows using List.reverseRecOn generalizing item with
  | nil => exact absurd found (by simp)
  | append_singleton rows d ih =>
      rw [List.foldl_append, List.foldl_cons, List.foldl_nil, noteExpired] at found
      split at found
      next =>
        rw [JsMap.get_set] at found
        split at found
        next here =>
          rw [here, ← Option.some.inj found]
          cases held : (rows.foldl (noteExpired issued) .empty).get d.scope with
          | none => rfl
          | some item' => exact (@ih item' (by rw [here, held])).trans here
        next => exact ih found
      next => exact ih found

/-- A holder whose row is expired is in the plan. -/
theorem mem_expiryRotationPlan {index : Index} {nowSec : Int} {row : Delegation}
    (listed : row ∈ deriveDelegations index nowSec) (late : row.status = .expired)
    (holder : holds ((issuedByScope index.issued).get row.scope) row.agent = true) :
    ∃ item ∈ expiryRotationPlan index nowSec, item.scope = row.scope ∧
      row.agent ∈ item.expired := by
  obtain ⟨before, after, split⟩ := List.append_of_mem listed
  have noted : ∃ item, ((deriveDelegations index nowSec).foldl
      (noteExpired (issuedByScope index.issued)) .empty).get row.scope = some item ∧
        row.agent ∈ item.expired := by
    rw [split, List.foldl_append, List.foldl_cons]
    refine List.foldlRecOn
      (motive := fun byScope : JsMap String ExpiryItem => ∃ item, byScope.get row.scope = some item ∧
        row.agent ∈ item.expired) after _ ?_ fun _ there d _ => stays_noteExpired _ d there
    rw [noteExpired, if_pos ⟨late, holder⟩, JsMap.get_set, if_pos rfl]
    exact ⟨_, rfl, List.mem_append_right _ (List.mem_singleton_self _)⟩
  obtain ⟨item, found, mem⟩ := noted
  exact ⟨item, JsMap.mem_values.mpr ⟨_, found⟩, scope_of_item _ _ found, mem⟩

/-! ### The claim over runs -/

/-- What holds of a desk that has never renegotiated terms. -/
structure TermsKept (desk : Desk) : Prop where
  /-- A rotation re-grants every survivor, under the terms of its latest grant. -/
  regrants : ∀ nowSec scope drop res key makeEvents rotation,
    rotateDropping desk.index nowSec scope drop res key makeEvents = .ok rotation →
    ∀ entry ∈ desk.index.issued, entry.scope = scope → ∀ agent ∈ entry.grantees, agent ∉ drop →
      ∃ g, latestGrant desk.messages scope agent = some g ∧
        ∀ sent : Grant, .grant sent ∈ rotation.messages → sent.agent = agent →
          sent.scope = scope ∧ sent.terms = g.terms
  /-- Every 440 of a rotation is for a survivor. -/
  survivors : ∀ nowSec scope drop res key makeEvents rotation,
    rotateDropping desk.index nowSec scope drop res key makeEvents = .ok rotation →
    ∀ entry ∈ desk.index.issued, entry.scope = scope →
      ∀ agent, (∃ sent : Grant, .grant sent ∈ rotation.messages ∧ sent.agent = agent) ↔
        agent ∈ entry.grantees ∧ agent ∉ drop
  /-- The rows of a holder report the terms of its latest grant. -/
  reports : ∀ entry ∈ desk.index.issued, ∀ agent ∈ entry.grantees,
    ∃ g, latestGrant desk.messages entry.scope agent = some g ∧
      ∀ nowSec, ∀ row ∈ deriveDelegations desk.index nowSec, row.scope = entry.scope →
        row.agent = agent → row.terms = g.terms
  /-- A holder whose latest terms are past is in the plan and not shown as active. -/
  expires : ∀ entry ∈ desk.index.issued, ∀ agent ∈ entry.grantees, ∀ g expiresAt nowSec,
    latestGrant desk.messages entry.scope agent = some g →
    g.terms.bind (·.expiresAt) = some expiresAt → expiresAt ≤ nowSec →
    (∃ item ∈ expiryRotationPlan desk.index nowSec, item.scope = entry.scope ∧
      agent ∈ item.expired) ∧
    ∀ row ∈ deriveDelegations desk.index nowSec, row.scope = entry.scope → row.agent = agent →
      row.status ≠ .active

theorem Sound.terms_of_row (sound : Sound desk) {entry : IssuedEntry}
    (mem : entry ∈ desk.index.issued) {agent : String} (holder : agent ∈ entry.grantees)
    {g : Grant} (sent : latestGrant desk.messages entry.scope agent = some g) {nowSec : Int}
    {row : Delegation} (listed : row ∈ deriveDelegations desk.index nowSec)
    (here : row.scope = entry.scope) (whom : row.agent = agent) : row.terms = g.terms := by
  obtain ⟨event, g', logged, sent', terms⟩ := sound.abreast entry mem agent holder
  rw [sent, Option.some.injEq] at sent'
  rw [Console.terms_of_row listed, here, whom, logged, Option.bind_some, terms, sent']

theorem Sound.termsKept (sound : Sound desk) : TermsKept desk where
  regrants nowSec scope drop res key makeEvents rotation done entry mem named agent holder kept :=
    by
    obtain ⟨entry', mem', named', survivors, messages, -, -⟩ := ok_of_rotateDropping done
    obtain rfl := sound.entry_eq mem mem' (named.trans named'.symm)
    obtain ⟨event, g, logged, sent, terms⟩ := sound.abreast entry mem agent holder
    rw [← named]
    refine ⟨g, sent, fun regrant listed whom => ?_⟩
    rw [messages, survivors] at listed
    obtain ⟨here, -, -, same⟩ := terms_of_regrant sound.own mem listed
    refine ⟨here, ?_⟩
    rw [same, whom, logged, Option.bind_some, terms]
  survivors nowSec scope drop res key makeEvents rotation done entry mem named agent := by
    obtain ⟨entry', mem', named', survivors, messages, -, -⟩ := ok_of_rotateDropping done
    obtain rfl := sound.entry_eq mem mem' (named.trans named'.symm)
    rw [messages, survivors]
    constructor
    · rintro ⟨sent, listed, rfl⟩
      obtain ⟨-, holder, kept, -⟩ := terms_of_regrant sound.own mem listed
      exact ⟨holder, kept⟩
    · rintro ⟨holder, kept⟩
      refine ⟨⟨entry.scope, agent, entry.v + 1,
        termsOf (deriveDelegations desk.index nowSec) entry.scope agent, true⟩, ?_, rfl⟩
      refine List.mem_cons_of_mem _ (List.mem_map.mpr ⟨⟨agent, _⟩, ?_, rfl⟩)
      exact List.mem_map.mpr ⟨agent, List.mem_filter.mpr ⟨holder, by simpa using kept⟩, rfl⟩
  reports entry mem agent holder := by
    obtain ⟨event, g, logged, sent, terms⟩ := sound.abreast entry mem agent holder
    exact ⟨g, sent, fun nowSec row listed here whom =>
      sound.terms_of_row mem holder sent listed here whom⟩
  expires entry mem agent holder g expiresAt nowSec sent due past := by
    have late : ∀ row ∈ deriveDelegations desk.index nowSec, row.scope = entry.scope →
        row.agent = agent → row.status = .expired := by
      intro row listed here whom
      rw [status_of_row sound.own mem listed here (whom ▸ holder),
        sound.terms_of_row mem holder sent listed here whom, due]
      exact if_pos (by simpa using past)
    refine ⟨?_, fun row listed here whom active => ?_⟩
    · obtain ⟨row, listed, here, whom⟩ := exists_row sound.own mem holder nowSec
      have held : holds ((issuedByScope desk.index.issued).get row.scope) row.agent = true := by
        rw [here, get_issuedByScope sound.own mem, whom]
        exact List.contains_iff_mem.mpr holder
      obtain ⟨item, planned, there, expired⟩ :=
        mem_expiryRotationPlan listed (late row listed here whom) held
      exact ⟨item, planned, there.trans here, whom ▸ expired⟩
    · rw [late row listed here whom] at active
      cases active

/-- **Terms are kept.** In every run in which no append pushes the last `granted` event of a
remaining holder out of the log. -/
theorem terms_kept (actions : List Action) (meets : Meets step Keeps .blank actions) :
    TermsKept (run step .blank actions) := (sound_run meets).termsKept

/-! ### A log that has lost a grant -/

def lapsingTerms : Terms := ⟨some "Plan travel", some 100, none, none, none, none, none⟩

def openTerms : Terms := ⟨some "Take notes", none, none, none, none, none, none⟩

/-- One scope for Ann until second 100, another for Bob. -/
def twoGrants : List Action :=
  [.issue 10 "travel" "Travel" "ann" lapsingTerms ⟨0⟩ .saved,
    .issue 10 "notes" "Notes" "bob" openTerms ⟨1⟩ .saved]

/-- Bob joins Ann's scope and she is dropped from it: he is re-granted under his own terms. -/
def sharedScope : List Action :=
  twoGrants ++ [.addGrantee 12 "travel" "bob" openTerms .saved,
    .revoke 20 "travel" "ann" "trip over" .ok ⟨2⟩ .saved]

theorem terms_kept_shared : TermsKept (run step .blank sharedScope) ∧
    (latestGrant (run step .blank sharedScope).messages "travel" "bob") =
      some ⟨"travel", "bob", 2, some openTerms, true⟩ :=
  ⟨terms_kept sharedScope (by decide +kernel), by decide +kernel⟩

/-- Bob is dropped and granted his scope again. -/
def round (n : Nat) : List Action :=
  [.revoke 20 "notes" "bob" "" .ok ⟨n + 2⟩ .saved, .addGrantee 20 "notes" "bob" openTerms .saved]

def rounds (n : Nat) : List Action := (List.range n).flatMap round

/-- The state after some rounds: Ann's entry and her 440 as they were, and three events a round
behind older ones. -/
structure Rounded (n : Nat) (desk : Desk) : Prop where
  issued : ∃ v key, desk.index.issued =
    [⟨"travel", "Travel", 1, ⟨0⟩, ["ann"]⟩, ⟨"notes", "Notes", v, key, ["bob"]⟩]
  ledger : ∃ old events : List LedgerEvent,
    desk.index.nvoyLedger = (old ++ events).rtake LEDGER_CAP ∧
    events.length = 3 * n ∧ ∀ event ∈ events, event.grants "travel" "ann" = false
  sent : latestGrant desk.messages "travel" "ann" =
    some ⟨"travel", "ann", 1, some lapsingTerms, false⟩

theorem step_revoke_bob {v : Nat} {key : ScopeKey}
    (issued : desk.index.issued =
      [⟨"travel", "Travel", 1, ⟨0⟩, ["ann"]⟩, ⟨"notes", "Notes", v, key, ["bob"]⟩])
    (key' : ScopeKey) :
    step desk (.revoke 20 "notes" "bob" "" .ok key' .saved) =
      { desk with
        messages := desk.messages ++ [.scope "notes" (v + 1)]
        index :=
          { issued := [⟨"travel", "Travel", 1, ⟨0⟩, ["ann"]⟩, ⟨"notes", "Notes", v + 1, key', []⟩]
            nvoyLedger := appendAll desk.index.nvoyLedger
              (revokeEvents 20 "notes" "bob" "" v (v + 1) 0) } } := by
  simp [step, Desk.admits, Desk.rotate, rotateDropping, issued, survivorsOf, Desk.perform,
    rotateWithTerms]

theorem step_grant_bob {v : Nat} {key : ScopeKey}
    (issued : desk.index.issued =
      [⟨"travel", "Travel", 1, ⟨0⟩, ["ann"]⟩, ⟨"notes", "Notes", v, key, []⟩]) :
    step desk (.addGrantee 20 "notes" "bob" openTerms .saved) =
      { desk with
        messages := desk.messages ++ [.grant ⟨"notes", "bob", v, some openTerms, false⟩]
        index :=
          { issued :=
              [⟨"travel", "Travel", 1, ⟨0⟩, ["ann"]⟩, ⟨"notes", "Notes", v, key, ["bob"]⟩]
            nvoyLedger := appendLedger desk.index.nvoyLedger
              (.granted 20 "notes" "bob" v (some openTerms) "Notes") } } := by
  simp [step, Desk.admits, issued, Desk.perform]

theorem Rounded.round {n : Nat} (rounded : Rounded n desk) (m : Nat) :
    Rounded (n + 1) (run step desk (round m)) := by
  obtain ⟨v, key, issued⟩ := rounded.issued
  obtain ⟨old, events, ledger, count, quiet⟩ := rounded.ledger
  rw [Console.round, Runs.run_cons, Runs.run_cons, Runs.run_nil, step_revoke_bob issued,
    step_grant_bob rfl]
  have short : desk.index.nvoyLedger.length ≤ LEDGER_CAP := by
    rw [ledger, Recent.length_rtake]
    exact Nat.min_le_right _ _
  refine ⟨⟨v + 1, ⟨m + 2⟩, rfl⟩, ⟨old, events ++ (revokeEvents 20 "notes" "bob" "" v (v + 1) 0 ++
    [.granted 20 "notes" "bob" (v + 1) (some openTerms) "Notes"]), ?_, ?_, ?_⟩, ?_⟩
  · show appendLedger (appendAll desk.index.nvoyLedger _) _ = _
    rw [appendLedger, appendAll_eq short, Recent.rtake_rtake_append, ledger, List.append_assoc,
      Recent.rtake_rtake_append, List.append_assoc]
  · simp [count, revokeEvents]
    omega
  · intro event mem
    rcases List.mem_append.mp mem with before | new
    · exact quiet event before
    · simp only [revokeEvents, List.cons_append, List.nil_append, List.mem_cons,
        List.not_mem_nil, or_false] at new
      rcases new with rfl | rfl | rfl
      · rfl
      · rfl
      · simp [LedgerEvent.grants]
  · show latestGrant (desk.messages ++ _ ++ _) _ _ = _
    rw [latestGrant_append, latestGrant_append, rounded.sent]
    rfl

theorem rounded_rounds (rounded : Rounded 0 desk) (n : Nat) :
    Rounded n (run step desk (rounds n)) := by
  induction n with
  | zero => exact rounded
  | succ n ih =>
      rw [rounds, List.range_succ, List.flatMap_append, List.flatMap_singleton, Runs.run_append]
      exact ih.round n

theorem rounded_twoGrants : Rounded 0 (run step .blank twoGrants) where
  issued := ⟨1, ⟨1⟩, rfl⟩
  ledger := by
    refine ⟨(run step .blank twoGrants).index.nvoyLedger, [], ?_, rfl, by simp⟩
    rw [List.append_nil, Recent.rtake_of_le]
    rw [LEDGER_CAP_eq]
    decide +kernel
  sent := rfl

/-- 167 rounds later Ann's grant is no longer in the log: she is shown as active at second 200,
whatever her latest 440 says. -/
theorem terms_lost : ¬TermsKept (run step .blank (twoGrants ++ rounds 167)) := by
  intro kept
  rw [Runs.run_append] at kept
  obtain ⟨⟨v, key, issued⟩, ⟨old, events, ledger, count, quiet⟩, sent⟩ :=
    rounded_rounds rounded_twoGrants 167
  generalize run step (run step .blank twoGrants) (rounds 167) = desk at *
  have ann : (⟨"travel", "Travel", 1, ⟨0⟩, ["ann"]⟩ : IssuedEntry) ∈ desk.index.issued := by
    rw [issued]
    exact List.mem_cons_self
  have own : (desk.index.issued.map fun e : IssuedEntry => e.scope).Nodup := by
    rw [issued]
    simp
  have holder : "ann" ∈ ["ann"] := List.mem_singleton_self _
  obtain ⟨row, listed, here, whom⟩ := exists_row own ann holder 200
  have forgotten : grantIn desk.index.nvoyLedger "travel" "ann" = none := by
    have full : LEDGER_CAP ≤ events.length := by rw [LEDGER_CAP_eq, count]; decide
    rw [grantIn, Recent.latest_eq_none, ledger, Recent.rtake_append_of_le old full]
    exact fun event mem => quiet event (List.mem_of_mem_drop mem)
  have active : row.status = .active := by
    rw [status_of_row own ann listed here (whom ▸ holder), terms_of_row listed, here, whom,
      forgotten]
    rfl
  exact (kept.expires _ ann "ann" holder _ 100 200 sent rfl (by decide)).2 row listed here whom
    active

end Nvoy.Console
