/-
**A held scope, read again and again.** The runtime of an agent holds a grant of one publisher's
scope and dereferences it through relays that may answer with anything that was ever sent.

* `GrantStore`, `ScopeCache`, `fetchScope`, `detectRevocation` — the runtime's state and functions,
  at this one address;
* `scopeRead`, `resourceRead`, `relinquishGrant` — `nvoy_scope_read`, the `nvoy://` resource and
  the end of a grant by its holder;
* `Faithful` — no read is answered with an event older than the held generation, nor with nothing
  but notices older than the grant;
* `no_false_revocation` — then a grant is marked revoked only after its publisher has moved past
  its generation or sent a notice since it granted it;
* `old_event_revokes` — one answer with the event before the rotation destroys the new grant.
-/

import Nvoy.Grants.Derive
import Nvoy.Lib.Runs

namespace Nvoy.Grants.Held

open Runs (run Meets)

/-! ### What the publisher sends -/

structure Terms where
  expiresAt : Option Int
  noPersist : Bool
deriving DecidableEq

/-- A 440 to the holder, as `receiveGrants` reads it. -/
structure Granted where
  generation : Nat
  scopeKey : ScopeKey
  issuedAt : Int
  expiration : Option Int
  terms : Option Terms
deriving DecidableEq

/-- A 30440 of the scope. -/
structure ScopeEvent where
  generation : Nat
  /-- The key its content is encrypted under. -/
  underKey : ScopeKey
  payload : String
deriving DecidableEq

/-- A 441 for the scope to the holder. -/
structure Notice where
  content : String
  createdAt : Int
deriving DecidableEq

/-- What the publisher does. -/
inductive Deed where
  | publish (event : ScopeEvent)
  | grant (granted : Granted)
  | notice (notice : Notice)
deriving DecidableEq

def Deed.event : Deed → Option ScopeEvent
  | .publish event => some event
  | _ => none

/-- The publisher keeps one key for a generation and never goes back a generation; it grants the
generation it has published. -/
def Deed.allowed (timeline : List Deed) : Deed → Bool
  | .publish event => (timeline.filterMap Deed.event).all fun old =>
      if old.underKey = event.underKey then old.generation = event.generation
      else old.generation < event.generation
  | .grant granted =>
      (timeline.filterMap Deed.event).getLast?.any fun event =>
        event.generation = granted.generation && event.underKey = granted.scopeKey
  | .notice _ => true

/-! ### The grant store -/

structure RevocationRecord where
  generation : Nat
  notice : Option String
  detectedAt : Int
deriving DecidableEq

structure RelinquishRecord where
  generation : Nat
  destroyedAt : Int
  reason : Option String
deriving DecidableEq

structure HeldGrant where
  generation : Nat
  /-- `none` once it is overwritten with zeros. -/
  scopeKey : Option ScopeKey
  issuedAt : Int
  expiration : Option Int
  terms : Option Terms
  revoked : Option RevocationRecord
  relinquished : Option RelinquishRecord
deriving DecidableEq

def HeldGrant.ofGranted (granted : Granted) : HeldGrant :=
  ⟨granted.generation, some granted.scopeKey, granted.issuedAt, granted.expiration, granted.terms,
    none, none⟩

def grantStatus (g : HeldGrant) (nowSec : Int) : GrantStatus :=
  if g.revoked.isSome then .revokedDetected
  else if g.relinquished.isSome then .relinquished
  else match g.terms.bind (·.expiresAt) with
    | some expiresAt => if expiresAt ≤ nowSec then .expired else .active
    | none => if g.expiration.any (· ≤ nowSec) then .expired else .active

/-- `latestGrants` at this address: the first of the highest generation. -/
def latestGrants (wraps : List Granted) : Option Granted :=
  wraps.foldl (fun best g =>
    match best with
    | none => some g
    | some held => if held.generation < g.generation then some g else some held) none

structure GrantStore where
  cache : Option (Option HeldGrant)
  fetchedAt : Int
  revocations : Option RevocationRecord
  relinquishments : Option RelinquishRecord

/-- `ttlMs` -/
def TTL_MS : Int := 60000

/-- A revocation at the grant's generation or above ends it. -/
def HeldGrant.revokedBy (g : HeldGrant) : Option RevocationRecord → HeldGrant
  | some mark =>
    if g.generation ≤ mark.generation then { g with revoked := some mark, scopeKey := none } else g
  | none => g

def HeldGrant.relinquishedBy (g : HeldGrant) : Option RelinquishRecord → HeldGrant
  | some mark =>
    if g.generation ≤ mark.generation then { g with relinquished := some mark, scopeKey := none }
    else g
  | none => g

def GrantStore.applyRevocation (store : GrantStore) (g : HeldGrant) : HeldGrant :=
  (g.revokedBy store.revocations).relinquishedBy store.relinquishments

/-- `list`, where a query is answered with these wraps. -/
def GrantStore.list (store : GrantStore) (nowMs maxAgeMs : Int) (wraps : List Granted) :
    GrantStore :=
  if store.cache = none ∨ nowMs - store.fetchedAt > maxAgeMs then
    { store with
      cache := some ((latestGrants wraps).map fun g =>
        store.applyRevocation (.ofGranted g))
      fetchedAt := nowMs }
  else store

def GrantStore.held (store : GrantStore) : Option HeldGrant := store.cache.join

def GrantStore.markRevoked (store : GrantStore) (generation : Nat) (notice : Option String)
    (nowSec : Int) : GrantStore :=
  let mark : RevocationRecord := match store.revocations with
    | some prev => if generation ≤ prev.generation then prev else ⟨generation, notice, nowSec⟩
    | none => ⟨generation, notice, nowSec⟩
  let store := { store with revocations := some mark }
  { store with cache := store.cache.map (Option.map store.applyRevocation) }

def GrantStore.markRelinquished (store : GrantStore) (generation : Nat) (destroyedAt : Int)
    (reason : Option String) : GrantStore :=
  let mark : RelinquishRecord := match store.relinquishments with
    | some prev => if generation ≤ prev.generation then prev else ⟨generation, destroyedAt, reason⟩
    | none => ⟨generation, destroyedAt, reason⟩
  let store := { store with relinquishments := some mark }
  { store with cache := store.cache.map (Option.map store.applyRevocation) }

/-! ### Dereferencing -/

inductive ScopeFetchResult where
  | missing
  | stale (generation : Nat)
  | ok (generation : Nat) (data : String)
deriving DecidableEq

def fetchScope (event : Option ScopeEvent) (g : HeldGrant) : ScopeFetchResult :=
  match event with
  | none => .missing
  | some event =>
    if g.generation < event.generation then .stale event.generation
    else if g.scopeKey = some event.underKey then .ok event.generation event.payload
    -- MAC failure: a wrong key
    else .stale event.generation

/-- Only readable results are kept. -/
structure CacheEntry where
  atMs : Int
  generation : Nat
  data : String

/-- The entry of the scope. -/
abbrev ScopeCache := Option CacheEntry

def ScopeCache.read (cache : ScopeCache) (g : HeldGrant) (maxAgeSec : Option Int) (nowMs : Int)
    (event : Option ScopeEvent) : ScopeCache × ScopeFetchResult :=
  let maxAgeMs := (maxAgeSec.map (· * 1000)).getD TTL_MS
  match cache.filter fun hit =>
    decide (0 < maxAgeMs) && decide (nowMs - hit.atMs < min maxAgeMs TTL_MS) with
  | some hit => (cache, .ok hit.generation hit.data)
  | none =>
    match fetchScope event g with
    | .ok generation data => (some ⟨nowMs, generation, data⟩, .ok generation data)
    | result => (none, result)

/-! ### The runtime -/

structure Runtime where
  store : GrantStore
  scopeCache : ScopeCache
  /-- The generations `detectRevocation` was called with, each followed by the cascade over what was
  derived from that grant. -/
  detected : List Nat

def Runtime.fresh : Runtime := ⟨⟨none, 0, none, none⟩, none, []⟩

/-- What the relays answer during one call, and the clock at its first query and after it. -/
structure Answers where
  nowMs : Int
  laterMs : Int
  wraps : List Granted
  wrapsAgain : List Granted
  event : Option ScopeEvent
  notices : List Notice
  noticesAgain : List Notice

def Answers.nowSec (answers : Answers) : Int := answers.laterMs / 1000

/-- `find`: on a miss, one forced refresh. -/
def Runtime.find (rt : Runtime) (answers : Answers) : Runtime × Option HeldGrant :=
  let store := rt.store.list answers.nowMs TTL_MS answers.wraps
  match store.held with
  | some g => ({ rt with store := store }, some g)
  | none =>
    let store := store.list answers.laterMs 0 answers.wrapsAgain
    ({ rt with store := store }, store.held)

/-- `findRevocationNotice`: the newest. -/
def findRevocationNotice (notices : List Notice) : Option Notice :=
  notices.foldl (fun best n =>
    match best with
    | none => some n
    | some held => if held.createdAt < n.createdAt then some n else some held) none

def Runtime.detectRevocation (rt : Runtime) (g : HeldGrant) (notices : List Notice)
    (nowSec : Int) : Runtime :=
  { store := rt.store.markRevoked g.generation ((findRevocationNotice notices).map (·.content)) nowSec
    scopeCache := none
    detected := rt.detected ++ [g.generation] }

/-- The code a read ends with. -/
inductive Verdict where
  | noGrant
  | revoked (notice : Option String)
  | relinquished (destroyedAt : Option Int)
  | expired (expiresAt : Option Int)
  | unavailable
  | data (data : String) (v : Nat) (noPersist : Bool)
deriving DecidableEq

/-- `revokedError(grant, record.notice)` -/
def Runtime.revokedError (rt : Runtime) : Verdict :=
  .revoked (rt.store.revocations.bind (·.notice))

/-- `nvoy_scope_read` -/
def scopeRead (rt : Runtime) (answers : Answers) (maxAge : Option Int) : Runtime × Verdict :=
  let (rt, found) := rt.find answers
  match found with
  | none => (rt, .noGrant)
  | some grant =>
    match grantStatus grant answers.nowSec with
    | .revokedDetected => (rt, .revoked (grant.revoked.bind (·.notice)))
    | .relinquished =>
      if answers.event.any fun event => grant.generation < event.generation then
        let rt := rt.detectRevocation grant answers.noticesAgain answers.nowSec
        (rt, rt.revokedError)
      else (rt, .relinquished (grant.relinquished.map (·.destroyedAt)))
    | .expired => (rt, .expired ((grant.terms.bind (·.expiresAt)).or grant.expiration))
    | .active =>
      let (cache, result) := rt.scopeCache.read grant maxAge answers.laterMs answers.event
      let rt := { rt with scopeCache := cache }
      match result with
      | .stale _ =>
        let rt := rt.detectRevocation grant answers.noticesAgain answers.nowSec
        (rt, rt.revokedError)
      | .missing =>
        if (findRevocationNotice answers.notices).isSome then
          let rt := rt.detectRevocation grant answers.noticesAgain answers.nowSec
          (rt, rt.revokedError)
        else (rt, .unavailable)
      | .ok generation data => (rt, .data data generation (grant.terms.any (·.noPersist)))

/-- The `nvoy://` resource. -/
def resourceRead (rt : Runtime) (answers : Answers) : Runtime × Verdict :=
  let (rt, found) := rt.find answers
  match found with
  | none => (rt, .noGrant)
  | some grant =>
    match grantStatus grant answers.nowSec with
    | .revokedDetected => (rt, .revoked none)
    | .relinquished => (rt, .relinquished none)
    | .expired => (rt, .expired none)
    | .active =>
      let (cache, result) := rt.scopeCache.read grant none answers.laterMs answers.event
      let rt := { rt with scopeCache := cache }
      match result with
      | .stale _ =>
        (rt.detectRevocation grant answers.noticesAgain answers.nowSec, .revoked none)
      | .missing => (rt, .unavailable)
      | .ok generation data => (rt, .data data generation (grant.terms.any (·.noPersist)))

/-- `nvoy_grant_relinquish` and the sweep of `auto_relinquish`. -/
def relinquishGrant (rt : Runtime) (answers : Answers) (reason : Option String) : Runtime :=
  let (rt, found) := rt.find answers
  match found with
  | none => rt
  | some grant =>
    if grant.revoked.isSome || grant.relinquished.isSome then rt
    else
      { rt with
        store := rt.store.markRelinquished grant.generation answers.nowSec reason
        scopeCache := none }

/-! ### Publisher and holder together -/

structure System where
  timeline : List Deed
  runtime : Runtime

def System.start : System := ⟨[], .fresh⟩

inductive Action where
  | publisher (deed : Deed)
  | scopeRead (answers : Answers) (maxAge : Option Int)
  | resourceRead (answers : Answers)
  | relinquish (answers : Answers) (reason : Option String)
  /-- `nvoy_grants_list` -/
  | grantsList (answers : Answers)
  /-- The subscription has seen a new event. -/
  | invalidate
  | restart

/-- The relays answer with what was sent, or with less. -/
def Answers.sent (timeline : List Deed) (answers : Answers) : Bool :=
  answers.wraps.all (fun g => timeline.contains (.grant g)) &&
    answers.wrapsAgain.all (fun g => timeline.contains (.grant g)) &&
    answers.event.all (fun event => timeline.contains (.publish event)) &&
    answers.notices.all (fun n => timeline.contains (.notice n)) &&
    answers.noticesAgain.all (fun n => timeline.contains (.notice n))

def step (sys : System) : Action → System
  | .publisher deed =>
    if deed.allowed sys.timeline then { sys with timeline := sys.timeline ++ [deed] } else sys
  | .scopeRead answers maxAge =>
    if answers.sent sys.timeline then
      { sys with runtime := (Held.scopeRead sys.runtime answers maxAge).1 } else sys
  | .resourceRead answers =>
    if answers.sent sys.timeline then
      { sys with runtime := (Held.resourceRead sys.runtime answers).1 } else sys
  | .relinquish answers reason =>
    if answers.sent sys.timeline then
      { sys with runtime := relinquishGrant sys.runtime answers reason } else sys
  | .grantsList answers =>
    if answers.sent sys.timeline then
      { sys with
        runtime := { sys.runtime with
          store := sys.runtime.store.list answers.nowMs TTL_MS answers.wraps } } else sys
  | .invalidate => { sys with runtime := { sys.runtime with scopeCache := none } }
  | .restart => { sys with runtime := { Runtime.fresh with detected := sys.runtime.detected } }

/-! ### The end of a grant -/

/-- The publisher has published a later generation, or has sent the holder a notice since it granted
this one. -/
def Ended (timeline : List Deed) (generation : Nat) : Prop :=
  (∃ event, .publish event ∈ timeline ∧ generation < event.generation) ∨
    ∃ before granted after notice, timeline = before ++ .grant granted :: after ∧
      granted.generation = generation ∧ .notice notice ∈ after

theorem Ended.append {timeline : List Deed} {generation : Nat} (ended : Ended timeline generation)
    (more : List Deed) : Ended (timeline ++ more) generation := by
  rcases ended with ⟨event, mem, later⟩ | ⟨before, granted, after, notice, split, same, mem⟩
  · exact .inl ⟨event, List.mem_append_left _ mem, later⟩
  · refine .inr ⟨before, granted, after ++ more, notice, ?_, same, List.mem_append_left _ mem⟩
    rw [split, List.append_assoc, List.cons_append]

/-- What was sent keeps one key for a generation, and only published generations are granted. -/
structure Published (timeline : List Deed) : Prop where
  oneKey : ∀ event event', .publish event ∈ timeline → .publish event' ∈ timeline →
    event.generation = event'.generation → event.underKey = event'.underKey
  granted : ∀ granted, .grant granted ∈ timeline → ∃ event, .publish event ∈ timeline ∧
    event.generation = granted.generation ∧ event.underKey = granted.scopeKey

theorem mem_events {timeline : List Deed} {event : ScopeEvent} :
    event ∈ timeline.filterMap Deed.event ↔ .publish event ∈ timeline := by
  rw [List.mem_filterMap]
  constructor
  · rintro ⟨deed, mem, same⟩
    cases deed with
    | publish event' => rwa [← Option.some.inj same]
    | grant => exact absurd same (by simp [Deed.event])
    | notice => exact absurd same (by simp [Deed.event])
  · exact fun mem => ⟨.publish event, mem, rfl⟩

theorem Published.append {timeline : List Deed} (published : Published timeline) {deed : Deed}
    (allowed : deed.allowed timeline = true) : Published (timeline ++ [deed]) := by
  have carry : ∀ granted, .grant granted ∈ timeline → ∃ event,
      .publish event ∈ timeline ++ [deed] ∧ event.generation = granted.generation ∧
        event.underKey = granted.scopeKey := by
    intro granted mem
    obtain ⟨event, listed, same⟩ := published.granted granted mem
    exact ⟨event, List.mem_append_left _ listed, same⟩
  cases deed with
  | publish new =>
      have differs : ∀ old, Deed.publish old ∈ timeline → old.generation = new.generation →
          old.underKey = new.underKey := by
        intro old mem same
        have rule := List.all_eq_true.mp allowed old (mem_events.mpr mem)
        by_contra other
        rw [if_neg other, decide_eq_true_eq] at rule
        omega
      constructor
      · intro event event' mem mem' same
        simp only [List.mem_append, List.mem_singleton, Deed.publish.injEq] at mem mem'
        rcases mem with mem | rfl
        · rcases mem' with mem' | rfl
          · exact published.oneKey event event' mem mem' same
          · exact differs event mem same
        · rcases mem' with mem' | rfl
          · exact (differs event' mem' same.symm).symm
          · rfl
      · intro granted mem
        refine carry granted ?_
        simpa using mem
  | grant new =>
      constructor
      · intro event event' mem mem'
        exact published.oneKey event event' (by simpa using mem) (by simpa using mem')
      · intro granted mem
        rcases List.mem_append.mp mem with old | last
        · exact carry granted old
        · cases List.mem_singleton.mp last
          simp only [Deed.allowed, Option.any_eq_true_iff_get] at allowed
          obtain ⟨some, same⟩ := allowed
          simp only [Bool.and_eq_true, decide_eq_true_eq] at same
          refine ⟨_, List.mem_append_left _ (mem_events.mp ?_), same⟩
          exact List.mem_of_getLast? (Option.some_get some).symm
  | notice =>
      constructor
      · intro event event' mem mem'
        exact published.oneKey event event' (by simpa using mem) (by simpa using mem')
      · intro granted mem
        exact carry granted (by simpa using mem)

/-- A generation below an ended one has ended too. -/
theorem Ended.below {timeline : List Deed} (published : Published timeline) {low high : Nat}
    (ended : Ended timeline high) (below : low ≤ high) : Ended timeline low := by
  rcases ended with ⟨event, listed, later⟩ | ⟨before, top, after, notice, split, same, sent⟩
  · exact .inl ⟨event, listed, by omega⟩
  · rcases Nat.eq_or_lt_of_le below with here | lower
    · exact .inr ⟨before, top, after, notice, split, same.trans here.symm, sent⟩
    · obtain ⟨event, listed, generation, -⟩ :=
        published.granted top (by rw [split]; exact List.mem_append_right _ List.mem_cons_self)
      exact .inl ⟨event, listed, by omega⟩

/-! ### What the store keeps -/

/-- The held grant was sent, its key is the one sent unless the grant is marked, and what it is
marked with has ended. -/
structure StoreKept (timeline : List Deed) (store : GrantStore) : Prop where
  held : ∀ g, store.held = some g → ∃ granted, .grant granted ∈ timeline ∧
    granted.generation = g.generation ∧
    (g.revoked = none → g.relinquished = none → g.scopeKey = some granted.scopeKey)
  revoked : ∀ g, store.held = some g → ∀ mark, g.revoked = some mark →
    g.generation ≤ mark.generation ∧ Ended timeline mark.generation
  record : ∀ mark, store.revocations = some mark → Ended timeline mark.generation

theorem StoreKept.append {timeline : List Deed} {store : GrantStore}
    (kept : StoreKept timeline store) (more : List Deed) : StoreKept (timeline ++ more) store where
  held g found := by
    obtain ⟨granted, mem, rest⟩ := kept.held g found
    exact ⟨granted, List.mem_append_left _ mem, rest⟩
  revoked g found mark marked := (kept.revoked g found mark marked).imp_right (·.append more)
  record mark marked := (kept.record mark marked).append more

theorem revokedBy_cases (g : HeldGrant) (marks : Option RevocationRecord) :
    g.revokedBy marks = g ∨ ∃ mark, marks = some mark ∧ g.generation ≤ mark.generation ∧
      g.revokedBy marks = { g with revoked := some mark, scopeKey := none } := by
  cases marks with
  | none => exact .inl rfl
  | some mark =>
      by_cases covered : g.generation ≤ mark.generation
      · exact .inr ⟨mark, rfl, covered, if_pos covered⟩
      · exact .inl (if_neg covered)

theorem relinquishedBy_cases (g : HeldGrant) (marks : Option RelinquishRecord) :
    g.relinquishedBy marks = g ∨ ∃ mark, marks = some mark ∧
      g.relinquishedBy marks = { g with relinquished := some mark, scopeKey := none } := by
  cases marks with
  | none => exact .inl rfl
  | some mark =>
      by_cases covered : g.generation ≤ mark.generation
      · exact .inr ⟨mark, rfl, if_pos covered⟩
      · exact .inl (if_neg covered)

/-- What `applyRevocation` leaves: the generation, the key of a grant it does not mark, and no mark
that is not a record of the store. -/
theorem applyRevocation_spec (store : GrantStore) (g : HeldGrant) :
    (store.applyRevocation g).generation = g.generation ∧
    ((store.applyRevocation g).revoked = none → (store.applyRevocation g).relinquished = none →
      store.applyRevocation g = g) ∧
    ∀ mark, (store.applyRevocation g).revoked = some mark →
      g.revoked = some mark ∨ store.revocations = some mark ∧ g.generation ≤ mark.generation := by
  unfold GrantStore.applyRevocation
  rcases revokedBy_cases g store.revocations with same | ⟨mark, record, covered, same⟩
  · rw [same]
    rcases relinquishedBy_cases g store.relinquishments with same' | ⟨mark', -, same'⟩
    · rw [same']
      exact ⟨rfl, fun _ _ => rfl, fun mark marked => .inl marked⟩
    · rw [same']
      exact ⟨rfl, fun _ unmarked => absurd unmarked (by simp), fun mark marked => .inl marked⟩
  · have marks : ∀ mark', some mark = some mark' →
        g.revoked = some mark' ∨ store.revocations = some mark' ∧
          g.generation ≤ mark'.generation := by
      intro mark' here
      rw [← Option.some.inj here]
      exact .inr ⟨record, covered⟩
    rw [same]
    rcases relinquishedBy_cases { g with revoked := some mark, scopeKey := none }
      store.relinquishments with same' | ⟨mark', -, same'⟩
    · rw [same']
      exact ⟨rfl, fun unmarked => absurd unmarked (by simp), marks⟩
    · rw [same']
      exact ⟨rfl, fun unmarked => absurd unmarked (by simp), marks⟩

/-- The store after its records or its cache have changed: the held grant is what `applyRevocation`
makes of one that was sent, or of the one held before. -/
theorem StoreKept.apply {timeline : List Deed} {store store' : GrantStore}
    (kept : StoreKept timeline store)
    (record : ∀ mark, store'.revocations = some mark → Ended timeline mark.generation)
    (held : ∀ g, store'.held = some g → ∃ g₀, store'.applyRevocation g₀ = g ∧
      (store.held = some g₀ ∨ ∃ granted, .grant granted ∈ timeline ∧ g₀ = .ofGranted granted)) :
    StoreKept timeline store' where
  held g found := by
    obtain ⟨g₀, rfl, source⟩ := held g found
    obtain ⟨generation, unmarked, -⟩ := applyRevocation_spec store' g₀
    rw [generation]
    rcases source with before | ⟨granted, mem, rfl⟩
    · obtain ⟨granted, mem, same, key⟩ := kept.held g₀ before
      refine ⟨granted, mem, same, fun live intact => ?_⟩
      have untouched := unmarked live intact
      rw [untouched] at live intact ⊢
      exact key live intact
    · refine ⟨granted, mem, rfl, fun live intact => ?_⟩
      rw [unmarked live intact]
      rfl
  revoked g found mark marked := by
    obtain ⟨g₀, rfl, source⟩ := held g found
    obtain ⟨generation, -, marks⟩ := applyRevocation_spec store' g₀
    rw [generation]
    rcases marks mark marked with old | ⟨here, covered⟩
    · rcases source with before | ⟨granted, mem, rfl⟩
      · exact kept.revoked g₀ before mark old
      · exact absurd old (by simp [HeldGrant.ofGranted])
    · exact ⟨covered, record mark here⟩
  record := record

theorem mem_of_latestGrants {wraps : List Granted} {g : Granted}
    (found : latestGrants wraps = some g) : g ∈ wraps := by
  induction wraps using List.reverseRecOn generalizing g with
  | nil => exact absurd found (by simp [latestGrants])
  | append_singleton front last ih =>
      rw [latestGrants, List.foldl_append, List.foldl_cons, List.foldl_nil] at found
      split at found
      next => exact List.mem_append_right _ (List.mem_singleton.mpr (Option.some.inj found).symm)
      next held before =>
        split at found
        next => exact List.mem_append_right _ (List.mem_singleton.mpr (Option.some.inj found).symm)
        next =>
          rw [← Option.some.inj found]
          exact List.mem_append_left _ (ih before)

theorem StoreKept.list {timeline : List Deed} {store : GrantStore}
    (kept : StoreKept timeline store) (nowMs maxAgeMs : Int) {wraps : List Granted}
    (sent : ∀ g ∈ wraps, .grant g ∈ timeline) :
    StoreKept timeline (store.list nowMs maxAgeMs wraps) := by
  unfold GrantStore.list
  split
  next =>
    refine kept.apply kept.record fun g found => ?_
    obtain ⟨granted, latest, rfl⟩ := Option.map_eq_some_iff.mp found
    exact ⟨.ofGranted granted, rfl, .inr ⟨granted, sent granted (mem_of_latestGrants latest), rfl⟩⟩
  next => exact kept

theorem held_map (store : GrantStore) (f : HeldGrant → HeldGrant) :
    (store.cache.map (Option.map f)).join = store.held.map f := by
  unfold GrantStore.held
  cases store.cache with
  | none => rfl
  | some held => rfl

theorem StoreKept.markRevoked {timeline : List Deed} {store : GrantStore}
    (kept : StoreKept timeline store) {generation : Nat} (ended : Ended timeline generation)
    (notice : Option String) (nowSec : Int) :
    StoreKept timeline (store.markRevoked generation notice nowSec) := by
  refine kept.apply (fun mark found => ?_) fun g found => ?_
  · unfold GrantStore.markRevoked at found
    rw [← Option.some.inj found]
    cases before : store.revocations with
    | none => exact ended
    | some prev =>
        simp only
        split
        next => exact kept.record prev before
        next => exact ended
  · change (store.cache.map _).join = some g at found
    rw [held_map] at found
    obtain ⟨g₀, before, rfl⟩ := Option.map_eq_some_iff.mp found
    exact ⟨g₀, rfl, .inl before⟩

theorem StoreKept.markRelinquished {timeline : List Deed} {store : GrantStore}
    (kept : StoreKept timeline store) (generation : Nat) (destroyedAt : Int)
    (reason : Option String) :
    StoreKept timeline (store.markRelinquished generation destroyedAt reason) := by
  refine kept.apply kept.record fun g found => ?_
  change (store.cache.map _).join = some g at found
  rw [held_map] at found
  obtain ⟨g₀, before, rfl⟩ := Option.map_eq_some_iff.mp found
  exact ⟨g₀, rfl, .inl before⟩

/-! ### The reads -/

/-- The notices sent after the first grant of the generation. -/
def noticesAfter (generation : Nat) (timeline : List Deed) : List Deed :=
  (timeline.dropWhile fun
    | .grant granted => granted.generation ≠ generation
    | _ => true).drop 1

/-- What a read needs of the answers: no event older than the held generation, and with no event no
notice from before the grant. -/
def Answers.upToDate (answers : Answers) (timeline : List Deed) (generation : Nat) : Bool :=
  match answers.event with
  | some event => generation ≤ event.generation
  | none => answers.notices.all fun n => (noticesAfter generation timeline).contains (.notice n)

/-- A read of a grant the runtime takes for active is answered up to date. -/
def Faithful (sys : System) (action : Action) : Prop :=
  match action with
  | .scopeRead answers _ | .resourceRead answers =>
    ∀ grant ∈ (sys.runtime.find answers).2, grantStatus grant answers.nowSec = .active →
      answers.upToDate sys.timeline grant.generation
  | _ => True

instance (sys : System) (action : Action) : Decidable (Faithful sys action) := by
  unfold Faithful
  cases action <;> infer_instance

theorem ended_of_noticesAfter {timeline : List Deed} {generation : Nat} {notice : Notice}
    (mem : .notice notice ∈ noticesAfter generation timeline) : Ended timeline generation := by
  let other : Deed → Bool := fun
    | .grant granted => granted.generation ≠ generation
    | _ => true
  have cut : timeline.takeWhile other ++ timeline.dropWhile other = timeline :=
    List.takeWhile_append_dropWhile
  change .notice notice ∈ (timeline.dropWhile other).drop 1 at mem
  cases rest : timeline.dropWhile other with
  | nil => exact absurd mem (by simp [rest])
  | cons deed after =>
      rw [rest] at mem cut
      have found : other deed = false := by
        have := List.head_dropWhile_not other (l := timeline) (by rw [rest]; simp)
        simpa [rest] using this
      cases deed with
      | grant granted =>
          refine .inr ⟨_, granted, after, notice, cut.symm, ?_, mem⟩
          simpa [other] using found
      | publish => exact absurd found (by simp [other])
      | notice => exact absurd found (by simp [other])

structure Kept (sys : System) : Prop where
  published : Published sys.timeline
  store : StoreKept sys.timeline sys.runtime.store
  detected : ∀ generation ∈ sys.runtime.detected, Ended sys.timeline generation

variable {timeline : List Deed} {rt : Runtime} {answers : Answers}

/-- What holds of the runtime between two steps. -/
structure RuntimeKept (timeline : List Deed) (rt : Runtime) : Prop where
  store : StoreKept timeline rt.store
  detected : ∀ generation ∈ rt.detected, Ended timeline generation

theorem sent_wraps (sent : answers.sent timeline = true) :
    (∀ g ∈ answers.wraps, .grant g ∈ timeline) ∧
      (∀ g ∈ answers.wrapsAgain, .grant g ∈ timeline) ∧
      (∀ event, answers.event = some event → .publish event ∈ timeline) := by
  simp only [Answers.sent, Bool.and_eq_true, List.all_eq_true, List.contains_iff_mem,
    Option.all_eq_true] at sent
  obtain ⟨⟨⟨⟨wraps, again⟩, event⟩, -⟩, -⟩ := sent
  exact ⟨wraps, again, event⟩

theorem RuntimeKept.find (kept : RuntimeKept timeline rt) (sent : answers.sent timeline = true) :
    RuntimeKept timeline (rt.find answers).1 ∧
      (rt.find answers).2 = (rt.find answers).1.store.held ∧
      (rt.find answers).1.scopeCache = rt.scopeCache := by
  obtain ⟨wraps, again, -⟩ := sent_wraps sent
  have first := kept.store.list answers.nowMs TTL_MS wraps
  unfold Runtime.find
  simp only
  split
  next g found => exact ⟨⟨first, kept.detected⟩, found.symm, rfl⟩
  next => exact ⟨⟨first.list answers.laterMs 0 again, kept.detected⟩, rfl, rfl⟩

theorem RuntimeKept.detectRevocation (kept : RuntimeKept timeline rt) {g : HeldGrant}
    (ended : Ended timeline g.generation) (notices : List Notice) (nowSec : Int) :
    RuntimeKept timeline (rt.detectRevocation g notices nowSec) where
  store := kept.store.markRevoked ended _ nowSec
  detected generation mem := by
    rcases List.mem_append.mp mem with old | new
    · exact kept.detected generation old
    · rw [List.mem_singleton.mp new]
      exact ended

theorem RuntimeKept.cached (kept : RuntimeKept timeline rt) (cache : ScopeCache) :
    RuntimeKept timeline { rt with scopeCache := cache } := ⟨kept.store, kept.detected⟩

/-- A grant the runtime takes for active is unmarked. -/
theorem unmarked_of_active {g : HeldGrant} {nowSec : Int} (active : grantStatus g nowSec = .active) :
    g.revoked = none ∧ g.relinquished = none := by
  unfold grantStatus at active
  split at active
  next => cases active
  next live =>
    split at active
    next => cases active
    next intact =>
      exact ⟨Option.not_isSome_iff_eq_none.mp live, Option.not_isSome_iff_eq_none.mp intact⟩

/-- What a cache read brings: the kept result, or that of the fetch. -/
theorem read_result (cache : ScopeCache) (g : HeldGrant) (maxAgeSec : Option Int) (nowMs : Int)
    (event : Option ScopeEvent) :
    (∃ generation data, (cache.read g maxAgeSec nowMs event).2 = .ok generation data) ∨
      (cache.read g maxAgeSec nowMs event).2 = fetchScope event g := by
  unfold ScopeCache.read
  simp only
  split
  next hit found => exact .inl ⟨_, _, rfl⟩
  next =>
    split
    next result fetched => exact .inr fetched.symm
    next => exact .inr rfl

/-- **The one place a read decides.** Answered up to date, a fetch that cannot decrypt, or finds
nothing but a notice, is of an ended grant. -/
theorem ended_of_fetch (published : Published timeline) (store : StoreKept timeline rt.store)
    (sent : answers.sent timeline = true) {g : HeldGrant} (held : rt.store.held = some g)
    (active : grantStatus g answers.nowSec = .active)
    (upToDate : answers.upToDate timeline g.generation = true) :
    (∀ generation, fetchScope answers.event g = .stale generation → Ended timeline g.generation) ∧
      (fetchScope answers.event g = .missing →
        (findRevocationNotice answers.notices).isSome = true → Ended timeline g.generation) := by
  obtain ⟨-, -, real⟩ := sent_wraps sent
  unfold Answers.upToDate at upToDate
  unfold fetchScope
  cases answered : answers.event with
  | none =>
      rw [answered] at upToDate
      refine ⟨fun generation stale => absurd stale (by simp), fun _ found => ?_⟩
      have some : answers.notices ≠ [] := by
        rintro nothing
        rw [nothing] at found
        exact absurd found (by simp [findRevocationNotice])
      obtain ⟨n, mem⟩ := List.exists_mem_of_ne_nil _ some
      exact ended_of_noticesAfter (List.contains_iff_mem.mp (List.all_eq_true.mp upToDate n mem))
  | some event =>
      rw [answered] at upToDate
      have listed := real event answered
      refine ⟨fun generation stale => ?_, fun missing => ?_⟩
      · rcases Nat.eq_or_lt_of_le (of_decide_eq_true upToDate) with here | later
        · obtain ⟨granted, mem, same, key⟩ := store.held g held
          obtain ⟨live, intact⟩ := unmarked_of_active active
          obtain ⟨event', listed', generation', key'⟩ := published.granted granted mem
          have oneKey := published.oneKey event event' listed listed' (by omega)
          have readable : g.scopeKey = some event.underKey := by
            rw [key live intact, oneKey, key']
          simp only [if_neg (show ¬g.generation < event.generation by omega), if_pos readable]
            at stale
          cases stale
        · exact .inl ⟨event, listed, later⟩
      · simp only at missing
        split at missing
        next => cases missing
        next =>
          split at missing
          next => cases missing
          next => cases missing

theorem RuntimeKept.scopeRead (published : Published timeline) (kept : RuntimeKept timeline rt)
    (sent : answers.sent timeline = true) {maxAge : Option Int}
    (faithful : ∀ grant ∈ (rt.find answers).2, grantStatus grant answers.nowSec = .active →
      answers.upToDate timeline grant.generation = true) :
    RuntimeKept timeline (Held.scopeRead rt answers maxAge).1 := by
  obtain ⟨found, held, -⟩ := kept.find sent
  unfold Held.scopeRead
  generalize rt.find answers = result at found held faithful
  obtain ⟨rt', grant⟩ := result
  simp only at found held faithful ⊢
  cases grant with
  | none => exact found
  | some grant =>
      simp only
      cases status : grantStatus grant answers.nowSec with
      | revokedDetected => exact found
      | expired => exact found
      | relinquished =>
          simp only
          split
          next newer =>
            obtain ⟨-, -, real⟩ := sent_wraps sent
            obtain ⟨event, answered, later⟩ : ∃ event, answers.event = some event ∧
                grant.generation < event.generation := by
              cases answered : answers.event with
              | none => exact absurd newer (by simp [answered])
              | some event => exact ⟨event, rfl, by simpa [answered] using newer⟩
            exact found.detectRevocation (.inl ⟨event, real event answered, later⟩) _ _
          next => exact found
      | active =>
          obtain ⟨stale, missing⟩ := ended_of_fetch published found.store sent held.symm status
            (faithful grant rfl status)
          have brought := read_result rt'.scopeCache grant maxAge answers.laterMs answers.event
          simp only
          generalize rt'.scopeCache.read grant maxAge answers.laterMs answers.event = read
            at brought
          obtain ⟨cache, result⟩ := read
          simp only at brought ⊢
          cases result with
          | ok generation data => exact found.cached cache
          | stale generation =>
              rcases brought with ⟨_, _, ok⟩ | fetched
              · cases ok
              · exact (found.cached cache).detectRevocation (stale generation fetched.symm) _ _
          | missing =>
              simp only
              split
              next noticed =>
                rcases brought with ⟨_, _, ok⟩ | fetched
                · cases ok
                · exact (found.cached cache).detectRevocation (missing fetched.symm noticed) _ _
              next => exact found.cached cache

theorem RuntimeKept.resourceRead (published : Published timeline) (kept : RuntimeKept timeline rt)
    (sent : answers.sent timeline = true)
    (faithful : ∀ grant ∈ (rt.find answers).2, grantStatus grant answers.nowSec = .active →
      answers.upToDate timeline grant.generation = true) :
    RuntimeKept timeline (Held.resourceRead rt answers).1 := by
  obtain ⟨found, held, -⟩ := kept.find sent
  unfold Held.resourceRead
  generalize rt.find answers = result at found held faithful
  obtain ⟨rt', grant⟩ := result
  simp only at found held faithful ⊢
  cases grant with
  | none => exact found
  | some grant =>
      simp only
      cases status : grantStatus grant answers.nowSec with
      | revokedDetected => exact found
      | expired => exact found
      | relinquished => exact found
      | active =>
          obtain ⟨stale, -⟩ := ended_of_fetch published found.store sent held.symm status
            (faithful grant rfl status)
          have brought := read_result rt'.scopeCache grant none answers.laterMs answers.event
          simp only
          generalize rt'.scopeCache.read grant none answers.laterMs answers.event = read
            at brought
          obtain ⟨cache, result⟩ := read
          simp only at brought ⊢
          cases result with
          | ok generation data => exact found.cached cache
          | missing => exact found.cached cache
          | stale generation =>
              rcases brought with ⟨_, _, ok⟩ | fetched
              · cases ok
              · exact (found.cached cache).detectRevocation (stale generation fetched.symm) _ _

theorem RuntimeKept.relinquish (kept : RuntimeKept timeline rt)
    (sent : answers.sent timeline = true) (reason : Option String) :
    RuntimeKept timeline (relinquishGrant rt answers reason) := by
  obtain ⟨found, -, -⟩ := kept.find sent
  unfold relinquishGrant
  generalize rt.find answers = result at found
  obtain ⟨rt', grant⟩ := result
  simp only at found ⊢
  cases grant with
  | none => exact found
  | some grant =>
      simp only
      split
      next => exact found
      next => exact ⟨found.store.markRelinquished _ _ _, found.detected⟩

/-! ### The claim over runs -/

/-- No revocation but of an ended grant: every call of `detectRevocation`, and every mark a held
grant carries. -/
structure NoFalseRevocation (sys : System) : Prop where
  detected : ∀ generation ∈ sys.runtime.detected, Ended sys.timeline generation
  marked : ∀ g, sys.runtime.store.held = some g → g.revoked.isSome →
    Ended sys.timeline g.generation

theorem Kept.step {sys : System} {action : Action} (kept : Kept sys)
    (faithful : Faithful sys action) : Kept (step sys action) := by
  have runtime : RuntimeKept sys.timeline sys.runtime := ⟨kept.store, kept.detected⟩
  cases action with
  | publisher deed =>
      unfold Held.step
      simp only
      split
      next allowed =>
        exact ⟨kept.published.append allowed, kept.store.append [deed],
          fun generation mem => (kept.detected generation mem).append [deed]⟩
      next => exact kept
  | scopeRead answers maxAge =>
      unfold Held.step
      simp only
      split
      next sent =>
        have after : RuntimeKept sys.timeline (Held.scopeRead sys.runtime answers maxAge).1 :=
          runtime.scopeRead kept.published sent faithful
        exact ⟨kept.published, after.store, after.detected⟩
      next => exact kept
  | resourceRead answers =>
      unfold Held.step
      simp only
      split
      next sent =>
        have after := runtime.resourceRead kept.published sent faithful
        exact ⟨kept.published, after.store, after.detected⟩
      next => exact kept
  | relinquish answers reason =>
      unfold Held.step
      simp only
      split
      next sent =>
        have after := runtime.relinquish sent reason
        exact ⟨kept.published, after.store, after.detected⟩
      next => exact kept
  | grantsList answers =>
      unfold Held.step
      simp only
      split
      next sent =>
        exact ⟨kept.published, kept.store.list answers.nowMs TTL_MS (sent_wraps sent).1,
          kept.detected⟩
      next => exact kept
  | invalidate => exact ⟨kept.published, kept.store, kept.detected⟩
  | restart =>
      refine ⟨kept.published, ⟨fun g found => ?_, fun g found => ?_, fun mark found => ?_⟩,
        kept.detected⟩
      all_goals exact absurd found (by simp [Held.step, Runtime.fresh, GrantStore.held])

theorem kept_start : Kept .start where
  published := by
    constructor
    · intro event event' mem
      exact absurd mem List.not_mem_nil
    · intro granted mem
      exact absurd mem List.not_mem_nil
  store := by
    refine ⟨fun g found => ?_, fun g found => ?_, fun mark found => ?_⟩
    all_goals exact absurd found (by simp [System.start, Runtime.fresh, GrantStore.held])
  detected _ mem := absurd mem List.not_mem_nil

/-- **No false revocation**, in every run whose reads of an active grant are answered up to date. -/
theorem no_false_revocation (actions : List Action)
    (meets : Meets step Faithful .start actions) :
    NoFalseRevocation (run step .start actions) := by
  have kept : Kept (run step .start actions) :=
    meets.keeps (fun _ _ kept faithful => kept.step faithful) kept_start
  refine ⟨kept.detected, fun g held marked => ?_⟩
  obtain ⟨mark, found⟩ := Option.isSome_iff_exists.mp marked
  obtain ⟨covered, ended⟩ := kept.store.revoked g held mark found
  exact ended.below kept.published covered

/-! ### Two generations -/

def firstEvent : ScopeEvent := ⟨1, ⟨0⟩, "seat: aisle"⟩

def secondEvent : ScopeEvent := ⟨2, ⟨1⟩, "seat: aisle"⟩

def firstGrant : Granted := ⟨1, ⟨0⟩, 10, none, none⟩

def secondGrant : Granted := ⟨2, ⟨1⟩, 20, none, none⟩

/-- The answers of one read: these wraps, this event, no notice. -/
def answering (nowMs : Int) (wraps : List Granted) (event : ScopeEvent) : Answers :=
  ⟨nowMs, nowMs, wraps, wraps, some event, [], []⟩

/-- The holder reads the first generation, and again after the rotation that leaves it out. -/
def leftOut : List Action :=
  [.publisher (.publish firstEvent), .publisher (.grant firstGrant),
    .scopeRead (answering 100000 [firstGrant] firstEvent) none,
    .publisher (.publish secondEvent),
    .scopeRead (answering 200000 [firstGrant] secondEvent) none]

theorem no_false_revocation_leftOut : NoFalseRevocation (run step .start leftOut) ∧
    (run step .start leftOut).runtime.detected = [1] :=
  ⟨no_false_revocation leftOut (by decide +kernel), by decide +kernel⟩

/-- The rotation grants the holder the second generation; a relay answers its read with the event
of the first. -/
def oldEvent : List Action :=
  [.publisher (.publish firstEvent), .publisher (.grant firstGrant),
    .publisher (.publish secondEvent), .publisher (.grant secondGrant),
    .scopeRead (answering 100000 [firstGrant, secondGrant] firstEvent) none]

/-- The read destroys the grant of the second generation, which its publisher has never left. -/
theorem old_event_revokes : ¬NoFalseRevocation (run step .start oldEvent) := by
  intro none
  have timeline : (run step .start oldEvent).timeline =
      [.publish firstEvent, .grant firstGrant, .publish secondEvent, .grant secondGrant] := by
    decide +kernel
  have detected : 2 ∈ (run step .start oldEvent).runtime.detected := by decide +kernel
  have ended := none.detected 2 detected
  rw [timeline] at ended
  rcases ended with ⟨event, mem, later⟩ | ⟨before, granted, after, notice, split, -, mem⟩
  · have newest : event.generation ≤ 2 := by
      simp only [List.mem_cons, Deed.publish.injEq, reduceCtorEq, List.not_mem_nil, or_false,
        false_or] at mem
      rcases mem with rfl | rfl
      · decide
      · decide
    omega
  · have sent : .notice notice ∈ before ++ .grant granted :: after :=
      List.mem_append_right _ (List.mem_cons_of_mem _ mem)
    rw [← split] at sent
    simp at sent

end Nvoy.Grants.Held
