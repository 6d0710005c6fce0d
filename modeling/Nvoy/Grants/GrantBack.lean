/-
**What a write of the outbox leaves behind** (`outbox.ts`).

The first write to a delegator draws a scope, publishes it, grants it back and saves the Grant
Index, in this order; each of the four relay operations may fail. The record of the scope is in
memory before the first of them.

* `write` — one call, with the relays' answers; what it returns, if it does;
* `Readable` — the delegator has the grant of the scope, and the saved index leads a restarted agent
  to it;
* `finishes` — a write that finds a record finds one whose own first write got its grant and its
  save to the relays, and drawn scopes are new;
* `write_readable` — under it every write that returns is readable, in every run with restarts;
* `write_unreadable` — a first write fails at the publish, and the next one reports success.
-/

import Nvoy.Grants.Writers

namespace Nvoy.Grants.GrantBack

open Nvoy.Runs Writers

/-! ### The code -/

/-- An agent and the relays: the saved index, the grants published for each delegator, and the
outbox of the running process. `through` are the records whose first write got its grant and, for a
persistent identity, its save to the relays. -/
structure Agent where
  persist : Bool
  relay : GrantIndex
  granted : List (String × OutboxRecord)
  outbox : Outbox
  through : List (String × OutboxRecord)

/-- An agent before its first write; the index may hold the entries of other writers. -/
def Agent.start (persist : Bool) (index : GrantIndex) : Agent :=
  ⟨persist, { index with nvoyOutbox := [] }, [], .fresh, []⟩

/-- `ensureLoaded`, for either kind of identity. -/
def ensureLoaded (persist : Bool) (outbox : Outbox) (answer : Option GrantIndex) : Outbox × Bool :=
  if persist || outbox.loaded then outbox.ensureLoaded answer
  else ({ outbox with loaded := true, index := none }, true)

namespace Agent

variable (agent : Agent)

/-- The agent after `ensureLoaded`, and whether it returns. -/
def loads (load : Loaded) : Agent × Bool :=
  let loaded := ensureLoaded agent.persist agent.outbox (load.of agent.relay)
  ({ agent with outbox := loaded.1 }, loaded.2)

/-- `save`, and whether it returns. -/
def saves (answer : Answer) : Agent × Bool :=
  if agent.persist then
    let document := agent.outbox.document
    let kept : Agent := { agent with outbox := { agent.outbox with index := some document } }
    match answer with
    | .refused => (kept, false)
    | .lost => ({ kept with relay := document }, false)
    | .taken => ({ kept with relay := document }, true)
  else (agent, true)

def grants (delegator : String) (record : OutboxRecord) : Agent :=
  { agent with granted := agent.granted ++ [(delegator, record)] }

def passes (delegator : String) (record : OutboxRecord) : Agent :=
  { agent with through := agent.through ++ [(delegator, record)] }

def draws (delegator : String) (record : OutboxRecord) : Agent :=
  { agent with
    outbox := { agent.outbox with records := agent.outbox.records.set delegator record } }

/-- `grantBack` and `save` of a first write. -/
def givesBack (record : OutboxRecord) (call : Write) : Agent × Option OutboxRecord :=
  let granted := agent.grants call.delegator record
  match call.grantBack with
  | .refused => (agent, none)
  | .lost => (if agent.persist then granted else granted.passes call.delegator record, none)
  | .taken =>
      let saved := granted.saves call.save
      (if agent.persist && call.save = .refused then saved.1
        else saved.1.passes call.delegator record,
        if saved.2 then some record else none)

/-- `Outbox.write`: the agent after it, and the record it returns. -/
def write (call : Write) : Agent × Option OutboxRecord :=
  let loaded := agent.loads call.load
  if !loaded.2 then (loaded.1, none)
  else match loaded.1.outbox.records.get call.delegator with
    | some record => (loaded.1, if call.publish = .taken then some record else none)
    | none =>
        let record := ⟨call.scopeId, 1, call.scopeKey⟩
        let drawn := loaded.1.draws call.delegator record
        if call.publish = .taken then drawn.givesBack record call else (drawn, none)

end Agent

inductive Action where
  | write (call : Write)
  /-- The process ends and another one starts. -/
  | restart

def step (agent : Agent) : Action → Agent
  | .write call => (agent.write call).1
  | .restart => { agent with outbox := .fresh }

/-! ### What a write promises -/

/-- The delegator has been granted the scope with its generation and key, and the saved index of a
persistent identity maps the delegator to it. -/
structure Readable (agent : Agent) (delegator : String) (record : OutboxRecord) : Prop where
  granted : (delegator, record) ∈ agent.granted
  mapped : agent.persist → (recordsOf agent.relay).get delegator = some record

/-- A write that finds a record finds one whose first write went through; a drawn scope id is not one
that the outbox has used. -/
def finishes (agent : Agent) : Action → Bool
  | .write call =>
    let loaded := agent.loads call.load
    match loaded.2, loaded.1.outbox.records.get call.delegator with
    | true, some record => agent.through.contains (call.delegator, record)
    | true, none => !loaded.1.outbox.scopes.contains call.scopeId &&
        agent.through.all fun entry => entry.2.scopeId ≠ call.scopeId
    | false, _ => true
  | .restart => true

/-! ### The invariant -/

/-- No two records have one scope. -/
def Distinct (records : JsMap String OutboxRecord) : Prop :=
  ∀ delegator record delegator' record', records.get delegator = some record →
    records.get delegator' = some record' → record.scopeId = record'.scopeId →
    delegator = delegator'

/-- What the agent keeps: a record in memory whose first write went through is in the saved index. -/
structure Kept (agent : Agent) : Prop where
  unread : agent.outbox.loaded = false → agent.outbox.records = .empty
  distinct : Distinct agent.outbox.records
  stored : Distinct (recordsOf agent.relay)
  granted : agent.through ⊆ agent.granted
  mapped : agent.persist → ∀ delegator record, agent.outbox.records.get delegator = some record →
    (delegator, record) ∈ agent.through → (recordsOf agent.relay).get delegator = some record

/-- **The saved index leads back to the records**: what is read off it is what was in memory. -/
theorem recordsOf_document {outbox : Outbox} (distinct : Distinct outbox.records)
    (delegator : String) :
    (recordsOf outbox.document).get delegator = outbox.records.get delegator := by
  have names : (outbox.document.nvoyOutbox.map Prod.fst) = outbox.records.entries.map Prod.fst := by
    simp [Outbox.document, Function.comp_def]
  have fold : (recordsOf outbox.document).get delegator =
      ((outbox.document.nvoyOutbox.find? fun entry => entry.1 = delegator).map fun entry =>
        (loadRecord outbox.document.issued .empty entry).get delegator).getD
          (JsMap.empty.get delegator) :=
    get_loadRecords outbox.document.nvoyOutbox .empty (names ▸ outbox.records.nodup) delegator
  rw [fold]
  cases search : outbox.document.nvoyOutbox.find? fun entry => entry.1 = delegator with
  | none =>
    rw [Option.map_none, Option.getD_none, JsMap.get_empty]
    cases found : outbox.records.get delegator with
    | none => rfl
    | some record =>
      have mem : (delegator, record.scopeId) ∈ outbox.document.nvoyOutbox :=
        mem_document_outbox.mpr ⟨record, found, rfl⟩
      exact absurd (decide_eq_true rfl) (List.find?_eq_none.mp search _ mem)
  | some entry =>
    obtain ⟨owner, scopeId⟩ := entry
    obtain rfl : owner = delegator := by simpa using List.find?_some search
    obtain ⟨record, found, same⟩ := mem_document_outbox.mp (List.mem_of_find?_eq_some search)
    dsimp only at found same
    have first : outbox.document.issued.find? (fun e => e.scope = scopeId) =
        some (entryOf owner record) := by
      rw [← List.head?_filter, ← same]
      change (entriesOf outbox.document.issued record.scopeId).head? = _
      rw [entriesOf_saved distinct found]
      rfl
    rw [Option.map_some, Option.getD_some, get_loadRecord, if_pos rfl, first, found]
    rfl

/-! ### The steps -/

section Steps

variable {agent : Agent}

theorem kept_start (persist : Bool) (index : GrantIndex) : Kept (.start persist index) where
  unread := fun _ => rfl
  distinct := by
    intro delegator record delegator' record' found
    rw [Agent.start, Outbox.fresh, JsMap.get_empty] at found
    cases found
  stored := by
    intro delegator record delegator' record' found
    change JsMap.empty.get delegator = some record at found
    rw [JsMap.get_empty] at found
    cases found
  granted := List.Subset.refl _
  mapped := by
    intro _ delegator record found
    rw [Agent.start, Outbox.fresh, JsMap.get_empty] at found
    cases found

theorem kept_restart (kept : Kept agent) : Kept (step agent .restart) where
  unread := fun _ => rfl
  distinct := by
    intro delegator record delegator' record' found
    rw [step, Outbox.fresh, JsMap.get_empty] at found
    cases found
  stored := kept.stored
  granted := kept.granted
  mapped := by
    intro _ delegator record found
    rw [step, Outbox.fresh, JsMap.get_empty] at found
    cases found

/-- A load leaves the records, or takes them from the saved index, or finds none. -/
theorem ensureLoaded_cases (persist : Bool) (outbox : Outbox) (relay : GrantIndex) (load : Loaded) :
    (ensureLoaded persist outbox (load.of relay)).1 = outbox ∧ outbox.loaded = true ∨
      outbox.loaded = false ∧ (ensureLoaded persist outbox (load.of relay)).1.loaded = true ∧
        ((ensureLoaded persist outbox (load.of relay)).1.records = outbox.records ∨
          (ensureLoaded persist outbox (load.of relay)).1.records = .empty ∨
          (ensureLoaded persist outbox (load.of relay)).1.records = recordsOf relay) := by
  unfold ensureLoaded Outbox.ensureLoaded
  cases loaded : outbox.loaded with
  | true =>
    left
    rw [Bool.or_true, if_pos rfl, if_pos rfl]
    exact ⟨rfl, rfl⟩
  | false =>
    right
    rw [Bool.or_false]
    refine ⟨rfl, ?_⟩
    cases persist with
    | false => exact ⟨rfl, .inl rfl⟩
    | true =>
      cases load with
      | document => exact ⟨rfl, .inr (.inr rfl)⟩
      | missing => exact ⟨rfl, .inr (.inl rfl)⟩
      | fails => exact ⟨rfl, .inl rfl⟩

theorem kept_loads (kept : Kept agent) (load : Loaded) : Kept (agent.loads load).1 := by
  show Kept { agent with
    outbox := (ensureLoaded agent.persist agent.outbox (load.of agent.relay)).1 }
  rcases ensureLoaded_cases agent.persist agent.outbox agent.relay load with
    ⟨same, -⟩ | ⟨unread, loaded, records⟩
  · rw [same]
    exact kept
  have empty := kept.unread unread
  generalize (ensureLoaded agent.persist agent.outbox (load.of agent.relay)).1 = outbox at *
  have read : outbox.records = .empty ∨ outbox.records = recordsOf agent.relay := by
    rcases records with same | none | stored
    · exact .inl (same.trans empty)
    · exact .inl none
    · exact .inr stored
  refine ⟨fun unread => ?_, ?_, kept.stored, kept.granted, ?_⟩
  · change outbox.loaded = false at unread
    rw [loaded] at unread
    cases unread
  · show Distinct outbox.records
    rcases read with none | stored
    · rw [none]
      intro delegator record delegator' record' found
      rw [JsMap.get_empty] at found
      cases found
    · rw [stored]
      exact kept.stored
  · intro _ delegator record found _
    change outbox.records.get delegator = some record at found
    rcases read with none | stored
    · rw [none, JsMap.get_empty] at found
      cases found
    · rw [stored] at found
      exact found

/-- The record a first write draws. -/
theorem kept_draws (kept : Kept agent) {delegator : String} {record : OutboxRecord}
    (loaded : agent.outbox.loaded = true)
    (unused : ∀ other record', agent.outbox.records.get other = some record' →
      record'.scopeId ≠ record.scopeId)
    (fresh : ∀ entry ∈ agent.through, entry.2.scopeId ≠ record.scopeId) :
    Kept (agent.draws delegator record) := by
  have place : ∀ other record', (agent.outbox.records.set delegator record).get other = some record' →
      other = delegator ∧ record' = record ∨ agent.outbox.records.get other = some record' := by
    intro other record' found
    rw [JsMap.get_set] at found
    split at found
    next same => exact .inl ⟨same, (Option.some.inj found).symm⟩
    next => exact .inr found
  refine ⟨fun unread => ?_, ?_, kept.stored, kept.granted, ?_⟩
  · change agent.outbox.loaded = false at unread
    rw [loaded] at unread
    cases unread
  · intro other record' other' record'' found found' same
    rcases place other record' found with ⟨rfl, rfl⟩ | old
    · rcases place other' record'' found' with ⟨rfl, -⟩ | old'
      · rfl
      · exact absurd same.symm (unused other' record'' old')
    · rcases place other' record'' found' with ⟨rfl, rfl⟩ | old'
      · exact absurd same (unused other record' old)
      · exact kept.distinct other record' other' record'' old old' same
  · intro persist other record' found member
    rcases place other record' found with ⟨rfl, rfl⟩ | old
    · exact absurd rfl (fresh _ member)
    · exact kept.mapped persist other record' old member

theorem kept_grants (kept : Kept agent) (delegator : String) (record : OutboxRecord) :
    Kept (agent.grants delegator record) :=
  ⟨kept.unread, kept.distinct, kept.stored, fun _ member =>
    List.mem_append_left _ (kept.granted member), kept.mapped⟩

/-- A record whose first write got through: it is granted, and saved. -/
theorem kept_passes (kept : Kept agent) {delegator : String} {record : OutboxRecord}
    (granted : (delegator, record) ∈ agent.granted)
    (mapped : agent.persist → (recordsOf agent.relay).get delegator = some record) :
    Kept (agent.passes delegator record) := by
  refine ⟨kept.unread, kept.distinct, kept.stored, fun entry member => ?_,
    fun persist other record' found member => ?_⟩
  · rcases List.mem_append.mp member with old | new
    · exact kept.granted old
    · rw [List.mem_singleton.mp new]
      exact granted
  · rcases List.mem_append.mp member with old | new
    · exact kept.mapped persist other record' found old
    · obtain ⟨rfl, rfl⟩ := Prod.mk.inj (List.mem_singleton.mp new)
      exact mapped persist

/-- A save, and what it does for each record in memory. -/
theorem kept_saves (kept : Kept agent) (answer : Answer) :
    Kept (agent.saves answer).1 ∧ (agent.saves answer).1.granted = agent.granted ∧
      (agent.saves answer).1.persist = agent.persist ∧
      (agent.persist → answer ≠ .refused → ∀ delegator record,
        agent.outbox.records.get delegator = some record →
          (recordsOf (agent.saves answer).1.relay).get delegator = some record) := by
  unfold Agent.saves
  by_cases persist : agent.persist = true
  · have read := recordsOf_document kept.distinct
    have saved : Kept { agent with
        relay := agent.outbox.document
        outbox := { agent.outbox with index := some agent.outbox.document } } := by
      refine ⟨kept.unread, kept.distinct, ?_, kept.granted, fun _ delegator record found _ => ?_⟩
      · intro delegator record delegator' record' found found'
        dsimp only at found found'
        rw [read] at found found'
        exact kept.distinct _ _ _ _ found found'
      · dsimp only at found ⊢
        rw [read]
        exact found
    rw [if_pos persist]
    cases answer with
    | taken => exact ⟨saved, rfl, rfl, fun _ _ delegator record found => (read delegator).trans found⟩
    | lost => exact ⟨saved, rfl, rfl, fun _ _ delegator record found => (read delegator).trans found⟩
    | refused =>
      exact ⟨⟨kept.unread, kept.distinct, kept.stored, kept.granted, kept.mapped⟩, rfl, rfl,
        fun _ refused => absurd rfl refused⟩
  · rw [if_neg persist]
    exact ⟨kept, rfl, rfl, fun persists => absurd persists persist⟩

/-- **A grant-back and a save** keep the invariant; when both return, the record is readable. -/
theorem kept_givesBack (kept : Kept agent) {record : OutboxRecord} {call : Write}
    (found : agent.outbox.records.get call.delegator = some record) :
    Kept (agent.givesBack record call).1 ∧ ∀ record', (agent.givesBack record call).2 = some record' →
      Readable (agent.givesBack record call).1 call.delegator record' := by
  have grants := kept_grants kept call.delegator record
  have granted : (call.delegator, record) ∈ (agent.grants call.delegator record).granted :=
    List.mem_append_right _ (List.mem_singleton.mpr rfl)
  unfold Agent.givesBack
  cases call.grantBack with
  | refused =>
    refine ⟨kept, fun record' returned => ?_⟩
    cases returned
  | lost =>
    refine ⟨?_, fun record' returned => ?_⟩
    · dsimp only
      by_cases persist : agent.persist = true
      · rw [if_pos persist]
        exact grants
      · rw [if_neg persist]
        exact kept_passes grants granted fun persists => absurd persists persist
    · cases returned
  | taken =>
    obtain ⟨saves, same, persists, stored⟩ := kept_saves grants call.save
    dsimp only
    by_cases failed : (agent.persist && decide (call.save = .refused)) = true
    · obtain ⟨persist, refused⟩ := (Bool.and_eq_true _ _).mp failed
      have ends : ((agent.grants call.delegator record).saves call.save).2 = false := by
        rw [of_decide_eq_true refused]
        unfold Agent.saves
        rw [if_pos (show (agent.grants call.delegator record).persist = true from persist)]
      rw [if_pos failed, ends]
      refine ⟨saves, fun record' returned => ?_⟩
      cases returned
    · rw [if_neg failed]
      have mapped : agent.persist = true →
          (recordsOf ((agent.grants call.delegator record).saves call.save).1.relay).get
            call.delegator = some record := by
        intro persist
        refine stored persist (fun refused => failed ?_) _ _ found
        rw [persist, refused]
        rfl
      have passes := kept_passes saves (same ▸ granted) fun persist => mapped (persists ▸ persist)
      refine ⟨passes, fun record' returned => ?_⟩
      split_ifs at returned
      obtain rfl := Option.some.inj returned
      exact ⟨same ▸ granted, fun persist => mapped (persists ▸ persist)⟩

/-- **One write** under the condition. -/
theorem kept_write (kept : Kept agent) {call : Write} (meets : finishes agent (.write call)) :
    Kept (agent.write call).1 ∧ ∀ record, (agent.write call).2 = some record →
      Readable (agent.write call).1 call.delegator record := by
  have loads := kept_loads kept call.load
  unfold finishes at meets
  unfold Agent.write
  dsimp only at meets ⊢
  have read : (agent.loads call.load).1.outbox.loaded = true := by
    rcases ensureLoaded_cases agent.persist agent.outbox agent.relay call.load with
      ⟨same, loaded⟩ | ⟨-, loaded, -⟩
    · exact (congrArg Outbox.loaded same).trans loaded
    · exact loaded
  rw [show agent.through = (agent.loads call.load).1.through from rfl] at meets
  generalize agent.loads call.load = loaded at *
  cases returns : loaded.2 with
  | false =>
    refine ⟨loads, fun record returned => ?_⟩
    cases returned
  | true =>
    rw [returns] at meets
    rw [if_neg (by decide)]
    cases first : loaded.1.outbox.records.get call.delegator with
    | some record =>
      rw [first] at meets
      refine ⟨loads, fun record' returned => ?_⟩
      dsimp only at returned meets ⊢
      split_ifs at returned
      obtain rfl := Option.some.inj returned
      have through := List.contains_iff_mem.mp meets
      exact ⟨loads.granted through, fun persist => loads.mapped persist _ _ first through⟩
    | none =>
      rw [first] at meets
      dsimp only at meets ⊢
      rw [Bool.and_eq_true, List.all_eq_true, Bool.not_eq_true', List.contains_eq_mem,
        decide_eq_false_iff_not] at meets
      have drawn := @kept_draws _ loads call.delegator ⟨call.scopeId, 1, call.scopeKey⟩ read
        (fun other record' found same => meets.1 (mem_scopes.mpr ⟨other, record', found, same⟩))
        (fun entry member => of_decide_eq_true (meets.2 entry member))
      split_ifs
      · refine kept_givesBack drawn ?_
        show (loaded.1.outbox.records.set _ _).get _ = _
        rw [JsMap.get_set, if_pos rfl]
      · refine ⟨drawn, fun record returned => ?_⟩
        cases returned

theorem kept_step (agent : Agent) (action : Action) (kept : Kept agent)
    (meets : finishes agent action) : Kept (step agent action) := by
  cases action with
  | write call => exact (kept_write kept meets).1
  | restart => exact kept_restart kept

/-- **A write that returns is readable**, after every run in which each write that finds a record
finds one whose first write went through. -/
theorem write_readable (persist : Bool) (index : GrantIndex) (actions : List Action) (call : Write)
    (meets : Meets step (fun agent action => finishes agent action) (.start persist index)
      (actions ++ [.write call])) {record : OutboxRecord}
    (returned : ((run step (.start persist index) actions).write call).2 = some record) :
    Readable ((run step (.start persist index) actions).write call).1 call.delegator record := by
  obtain ⟨before, last, -⟩ := meets_append.mp meets
  have kept := before.keeps kept_step (kept_start persist index)
  exact (kept_write kept last).2 record returned

end Steps

/-! ### A first write that fails -/

/-- A write to Dana, with the relays' answers to its publish, its grant-back and its save. -/
def sampleWrite (draw : Nat) (publish grantBack save : Answer) : Write :=
  ⟨"dana", "scope" ++ String.ofList [Nat.digitChar draw], ⟨draw⟩, .document, publish, grantBack, save⟩

/-- Two writes with a restart between them. -/
theorem write_readable_restarted : Readable
    ((run step (.start true .blank) [.write (sampleWrite 1 .taken .taken .taken), .restart]).write
      (sampleWrite 2 .taken .taken .taken)).1 "dana" ⟨"scope1", 1, ⟨1⟩⟩ :=
  write_readable true .blank _ (sampleWrite 2 .taken .taken .taken) (by decide) (by decide)

/-- The first write fails at its publish. The second reports success: no grant was ever published,
and the saved index does not name the delegator. -/
theorem write_unreadable : ∃ record,
    ((run step (.start true .blank) [.write (sampleWrite 1 .refused .taken .taken)]).write
      (sampleWrite 2 .taken .taken .taken)).2 = some record ∧
    ¬ Readable ((run step (.start true .blank) [.write (sampleWrite 1 .refused .taken .taken)]).write
      (sampleWrite 2 .taken .taken .taken)).1 "dana" record := by
  refine ⟨⟨"scope1", 1, ⟨1⟩⟩, by decide, fun readable => ?_⟩
  have granted := readable.granted
  revert granted
  decide

end Nvoy.Grants.GrantBack
