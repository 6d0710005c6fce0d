/-
**Three writers of one Grant Index.** `Outbox.write`, `issueDerivedGrant` and
`cascadeDerivedRevocation` of one identity save the same replaceable document, each call completing
before the next starts; the outbox keeps the copy it has loaded for the life of the process.

* `Outbox` — its records, its copy of the index and what it saves;
* `step` — one call, with the relay's answers to each of its operations;
* `Retains` — what one state of the stored index keeps of an earlier one;
* `undisturbed` — the calls that lose nothing: a save is made from a copy that is not behind the
  stored index, the ledger has room for a new row, and drawn scope ids are new;
* `index_retains` — under it nothing that was saved is lost;
* `outbox_overwrites` — a first write after an issuance takes the child's entry and row away.
-/

import Nvoy.Grants.Budget
import Nvoy.Lib.JsMap

namespace Nvoy.Grants.Writers

open Nvoy.Runs

/-! ### The code -/

structure OutboxRecord where
  scopeId : String
  generation : Nat
  scopeKey : ScopeKey
deriving DecidableEq

/-- `fromIssuedEntry`, as far as a record keeps it. -/
def fromIssuedEntry (entry : IssuedEntry) : OutboxRecord := ⟨entry.scope, entry.v, entry.key⟩

/-- The entry `save` pushes for a record. -/
def entryOf (delegator : String) (record : OutboxRecord) : IssuedEntry :=
  ⟨record.scopeId, "agent output", record.generation, record.scopeKey, [delegator]⟩

/-- The outbox of one process of a persistent identity. -/
structure Outbox where
  records : JsMap String OutboxRecord
  index : Option GrantIndex
  loaded : Bool

def Outbox.fresh : Outbox := ⟨.empty, none, false⟩

/-- The records that an index names, in the order of its map. -/
def recordsOf (index : GrantIndex) : JsMap String OutboxRecord :=
  index.nvoyOutbox.foldl
    (fun records entry =>
      match index.issued.find? fun e => e.scope = entry.2 with
      | some found => records.set entry.1 (fromIssuedEntry found)
      | none => records)
    .empty

/-- `ensureLoaded` with the relay's answer, and whether it returns: `loaded` is set before the index
is read. -/
def Outbox.ensureLoaded (outbox : Outbox) (answer : Option GrantIndex) : Outbox × Bool :=
  if outbox.loaded then (outbox, true)
  else match answer with
    | some index => (⟨recordsOf index, some index, true⟩, true)
    | none => ({ outbox with loaded := true }, false)

/-- The scope ids of the records. -/
def Outbox.scopes (outbox : Outbox) : List String := outbox.records.values.map (·.scopeId)

/-- The index that `save` publishes and keeps. -/
def Outbox.document (outbox : Outbox) : GrantIndex :=
  let index := outbox.index.getD .blank
  { index with
    issued := (index.issued.filter fun e => !outbox.scopes.contains e.scope) ++
      outbox.records.entries.map fun entry => entryOf entry.1 entry.2
    nvoyOutbox := outbox.records.entries.map fun entry => (entry.1, entry.2.scopeId) }

/-- The stored index, the outbox of the running process, and whether its copy may be behind: another
writer has saved since the outbox last read or saved the index, or its one read did not get it. -/
structure Agent where
  relay : GrantIndex
  outbox : Outbox
  behind : Bool

/-- The arguments of a write, what it draws and the relay's answers. -/
structure Write where
  delegator : String
  scopeId : String
  scopeKey : ScopeKey
  load : Loaded
  publish : Answer
  grantBack : Answer
  save : Answer

/-- The arguments of an issuance, what it draws and the relay's answers. -/
structure Derivation where
  args : Issuance
  nowSec : Int
  check : Loaded
  fetches : Bool
  scopeId : String
  scopeKey : ScopeKey
  publish : Answer
  wrap : Answer
  record : Loaded
  save : Answer

structure Severing where
  revoked : Revoked
  host : CascadeHost
  load : Loaded
  save : Answer

inductive Action where
  | write (call : Write)
  | issue (call : Derivation)
  | cascade (call : Severing)
  /-- The process ends and another one starts. -/
  | restart

namespace Agent

variable (agent : Agent)

/-- The agent after `ensureLoaded`, and whether it returns. -/
def loads (load : Loaded) : Agent × Bool :=
  let (outbox, ok) := agent.outbox.ensureLoaded (load.of agent.relay)
  ({ agent with
      outbox
      behind := if agent.outbox.loaded then agent.behind
        else load ≠ .document && agent.relay ≠ .blank }, ok)

/-- Another writer saves the index. -/
def saves (document : GrantIndex) : Answer → Agent
  | .refused => agent
  | _ => { agent with relay := document, behind := agent.behind || agent.outbox.loaded }

/-- `save` of the outbox: its copy is the new document whether or not the relay takes it. -/
def savesOutbox (answer : Answer) : Agent :=
  let document := agent.outbox.document
  let kept : Agent := { agent with outbox := { agent.outbox with index := some document } }
  match answer with
  | .refused => kept
  | _ => { kept with relay := document, behind := false }

/-- The agent with the record a first write draws. -/
def draws (call : Write) : Agent :=
  { agent with outbox :=
      { agent.outbox with
        records := agent.outbox.records.set call.delegator ⟨call.scopeId, 1, call.scopeKey⟩ } }

/-- `Outbox.write` -/
def write (call : Write) : Agent :=
  let (agent, ok) := agent.loads call.load
  if !ok then agent
  else match agent.outbox.records.get call.delegator with
    | some _ => agent
    | none =>
      let agent := agent.draws call
      if call.publish = .taken && call.grantBack = .taken then agent.savesOutbox call.save
      else agent

/-- The index an issuance comes to save, if it does. -/
def derived (call : Derivation) : Option GrantIndex :=
  match validate call.args.parent call.args.terms call.nowSec, boundOf call.args.parent.terms,
      call.check.of agent.relay with
  | .ok (), .ok bound, some index =>
    match checkBudget bound index call.args.parent call.args.recipient with
    | .ok () =>
      if call.fetches && "derived:".toList.isPrefixOf call.args.scopeName.toList &&
          call.publish = .taken && call.wrap = .taken then
        (call.record.of agent.relay).map fun index =>
          withChild index call.args.parent call.scopeId call.args.scopeName call.args.recipient
            call.scopeKey call.nowSec
      else none
    | .error _ => none
  | _, _, _ => none

/-- `issueDerivedGrant` -/
def issue (call : Derivation) : Agent :=
  match agent.derived call with
  | some document => agent.saves document call.save
  | none => agent

/-- The index a cascade comes to save, if it does. -/
def severed (call : Severing) : Option GrantIndex :=
  match call.load.of agent.relay with
  | some index =>
    match cascadeDerivedRevocation call.host index call.revoked with
    | .ok (_, 0, _) => none
    | .ok (saved, _, _) => some saved
    | .error _ => none
  | none => none

/-- `cascadeDerivedRevocation` -/
def cascade (call : Severing) : Agent :=
  match agent.severed call with
  | some document => agent.saves document call.save
  | none => agent

end Agent

def step (agent : Agent) : Action → Agent
  | .write call => agent.write call
  | .issue call => agent.issue call
  | .cascade call => agent.cascade call
  | .restart => { agent with outbox := .fresh, behind := false }

/-! ### What the index keeps -/

/-- What a later index keeps of an earlier one: every entry but those of severed children, every
mapping, and every row, as it was or as a tombstone. -/
structure Retains (before after : GrantIndex) : Prop where
  issued : ∀ entry ∈ before.issued, entry ∈ after.issued ∨
    ∃ row ∈ after.nvoyDerivedChildren, row.state = .revoked ∧ row.child.scope = entry.scope
  outbox : before.nvoyOutbox ⊆ after.nvoyOutbox
  rows : ∀ row ∈ before.nvoyDerivedChildren, row ∈ after.nvoyDerivedChildren ∨
    ∃ revokedAt, row.tombstone revokedAt ∈ after.nvoyDerivedChildren

theorem Retains.refl (index : GrantIndex) : Retains index index where
  issued _ mem := .inl mem
  outbox := List.Subset.refl _
  rows _ mem := .inl mem

theorem Retains.trans {first second third : GrantIndex} (early : Retains first second)
    (late : Retains second third) : Retains first third where
  issued entry mem := by
    rcases early.issued entry mem with kept | ⟨row, inSecond, revoked, scope⟩
    · exact late.issued entry kept
    · right
      rcases late.rows row inSecond with kept | ⟨t, tombstone⟩
      · exact ⟨row, kept, revoked, scope⟩
      · exact ⟨_, tombstone, rfl, scope⟩
  outbox := List.Subset.trans early.outbox late.outbox
  rows row mem := by
    rcases early.rows row mem with kept | ⟨t, tombstone⟩
    · exact late.rows row kept
    · rcases late.rows _ tombstone with kept | ⟨t', tombstone'⟩
      · exact .inr ⟨t, kept⟩
      · exact .inr ⟨t', tombstone'⟩

/-! ### The condition -/

/-- A drawn scope id that the index does not name. -/
def isNew (index : GrantIndex) (scopeId : String) : Bool :=
  index.issued.all (fun entry => entry.scope ≠ scopeId) &&
    index.nvoyOutbox.all (fun entry => entry.2 ≠ scopeId) &&
    index.nvoyDerivedChildren.all fun row => row.child.scope ≠ scopeId

/-- The load reads the stored index. -/
def reads (index : GrantIndex) (load : Loaded) : Bool := load = .document || index = .blank

/-- A call that loses nothing. What an outbox draws is new; it saves from a copy that is not behind.
The other two save from the index they have just read, and a new row is well formed and finds
room. -/
def undisturbed (agent : Agent) : Action → Bool
  | .write call =>
    let (agent, ok) := agent.loads call.load
    if ok && !agent.outbox.records.has call.delegator then
      isNew agent.relay call.scopeId && !agent.outbox.scopes.contains call.scopeId &&
        (call.publish ≠ .taken || call.grantBack ≠ .taken || call.save = .refused || !agent.behind)
    else true
  | .issue call =>
    if (agent.derived call).isSome && call.save ≠ .refused then
      reads agent.relay call.record && isNew agent.relay call.scopeId &&
        (childRow call.args.parent call.scopeId call.args.scopeName call.args.recipient
          call.nowSec).wellFormed &&
        agent.relay.nvoyDerivedChildren.length < LINEAGE_CAP
    else true
  | .cascade call =>
    if (agent.severed call).isSome && call.save ≠ .refused then reads agent.relay call.load
    else true
  | .restart => true

/-! ### The invariant -/

/-- A stored index of these writers: each mapping has the one entry of its scope. -/
structure Sound (index : GrantIndex) : Prop where
  formed : ∀ row ∈ index.nvoyDerivedChildren, row.wellFormed
  short : index.nvoyDerivedChildren.length ≤ LINEAGE_CAP
  mapped : ∀ entry ∈ index.nvoyOutbox, ∃ record : OutboxRecord, record.scopeId = entry.2 ∧
    entriesOf index.issued entry.2 = [entryOf entry.1 record]
  delegators : (index.nvoyOutbox.map Prod.fst).Nodup
  scopes : (index.nvoyOutbox.map Prod.snd).Nodup
  apart : ∀ row ∈ index.nvoyDerivedChildren, ∀ entry ∈ index.nvoyOutbox, row.child.scope ≠ entry.2

/-- An outbox with this copy of the index and these records has everything the stored index has. -/
structure Abreast (relay copy : GrantIndex) (records : JsMap String OutboxRecord) : Prop where
  issued : relay.issued ⊆ copy.issued
  rows : copy.nvoyDerivedChildren = relay.nvoyDerivedChildren
  mapped : ∀ entry ∈ relay.nvoyOutbox, ∃ record, records.get entry.1 = some record ∧
    record.scopeId = entry.2
  entries : ∀ delegator record, records.get delegator = some record →
    ∀ entry ∈ relay.issued, entry.scope = record.scopeId → entry = entryOf delegator record
  distinct : ∀ delegator record delegator' record', records.get delegator = some record →
    records.get delegator' = some record' → record.scopeId = record'.scopeId →
    delegator = delegator'
  apart : ∀ delegator record, records.get delegator = some record →
    ∀ row ∈ relay.nvoyDerivedChildren, row.child.scope ≠ record.scopeId

/-- The copy an outbox saves from. -/
def Outbox.copy (outbox : Outbox) : GrantIndex := outbox.index.getD .blank

structure Orderly (agent : Agent) : Prop where
  sound : Sound agent.relay
  unread : agent.outbox.loaded = false → agent.outbox.records = .empty
  untouched : agent.outbox.loaded = false → agent.outbox.index = none
  abreast : agent.outbox.loaded → agent.behind = false →
    Abreast agent.relay agent.outbox.copy agent.outbox.records

/-! ### Loading -/

section Load

variable {index : GrantIndex}

/-- The fold behind `recordsOf`. -/
def loadRecord (issued : List IssuedEntry) (records : JsMap String OutboxRecord)
    (entry : String × String) : JsMap String OutboxRecord :=
  match issued.find? fun e => e.scope = entry.2 with
  | some found => records.set entry.1 (fromIssuedEntry found)
  | none => records

theorem get_loadRecord (issued : List IssuedEntry) (records : JsMap String OutboxRecord)
    (entry : String × String) (delegator : String) :
    (loadRecord issued records entry).get delegator =
      if delegator = entry.1 then
        ((issued.find? fun e => e.scope = entry.2).map fromIssuedEntry).or (records.get delegator)
      else records.get delegator := by
  unfold loadRecord
  cases issued.find? fun e => e.scope = entry.2 with
  | some found => rw [JsMap.get_set, Option.map_some, Option.some_or]
  | none => rw [Option.map_none, Option.none_or, ite_self]

theorem get_loadRecords {issued : List IssuedEntry} (list : List (String × String))
    (records : JsMap String OutboxRecord) (nodup : (list.map Prod.fst).Nodup) (delegator : String) :
    (list.foldl (loadRecord issued) records).get delegator =
      ((list.find? fun entry => entry.1 = delegator).map fun entry =>
        (loadRecord issued records entry).get delegator).getD (records.get delegator) := by
  induction list generalizing records with
  | nil => rfl
  | cons first rest ih =>
    simp only [List.map_cons, List.nodup_cons] at nodup
    rw [List.foldl_cons, ih _ nodup.2]
    by_cases here : first.1 = delegator
    · have absent : rest.find? (fun entry => entry.1 = delegator) = none := by
        apply List.find?_eq_none.mpr
        intro entry mem same
        rw [decide_eq_true_iff] at same
        exact nodup.1 (List.mem_map.mpr ⟨entry, mem, same.trans here.symm⟩)
      simp only [absent, List.find?_cons, here, decide_true, Option.map_none, Option.map_some,
        Option.getD_none, Option.getD_some]
    · have frame : ∀ entry : String × String, entry.1 = delegator →
          (loadRecord issued (loadRecord issued records first) entry).get delegator =
            (loadRecord issued records entry).get delegator := by
        intro entry same
        rw [get_loadRecord, get_loadRecord, get_loadRecord, if_neg (Ne.symm here)]
      simp only [List.find?_cons, here, decide_false]
      cases search : rest.find? fun entry => entry.1 = delegator with
      | none =>
        simp only [Option.map_none, Option.getD_none]
        rw [get_loadRecord, if_neg (Ne.symm here)]
      | some entry =>
        simp only [Option.map_some, Option.getD_some]
        apply frame
        simpa using List.find?_some search

/-- The record of a mapping is the one its entry was pushed for. -/
theorem get_recordsOf (sound : Sound index) {delegator : String} {record : OutboxRecord} :
    (recordsOf index).get delegator = some record ↔
      (delegator, record.scopeId) ∈ index.nvoyOutbox ∧
        entriesOf index.issued record.scopeId = [entryOf delegator record] := by
  have read : ∀ scopeId, (delegator, scopeId) ∈ index.nvoyOutbox →
      ∃ found : OutboxRecord, found.scopeId = scopeId ∧
        entriesOf index.issued scopeId = [entryOf delegator found] ∧
        (loadRecord index.issued .empty (delegator, scopeId)).get delegator = some found := by
    intro scopeId mem
    obtain ⟨found, scope, single⟩ := sound.mapped _ mem
    refine ⟨found, scope, single, ?_⟩
    have first : index.issued.find? (fun e => e.scope = scopeId) = some (entryOf delegator found) := by
      rw [← List.head?_filter]
      change (entriesOf index.issued scopeId).head? = _
      rw [single]
      rfl
    rw [get_loadRecord, if_pos rfl, first]
    rfl
  have fold : (recordsOf index).get delegator =
      ((index.nvoyOutbox.find? fun entry => entry.1 = delegator).map fun entry =>
        (loadRecord index.issued .empty entry).get delegator).getD (JsMap.empty.get delegator) :=
    get_loadRecords index.nvoyOutbox .empty sound.delegators delegator
  have only : ∀ scopeId scopeId', (delegator, scopeId) ∈ index.nvoyOutbox →
      (delegator, scopeId') ∈ index.nvoyOutbox → scopeId = scopeId' := by
    intro scopeId scopeId' mem mem'
    have same := List.inj_on_of_nodup_map sound.delegators mem mem' rfl
    exact (Prod.mk.inj same).2
  rw [fold]
  cases search : index.nvoyOutbox.find? fun entry => entry.1 = delegator with
  | none =>
    simp only [Option.map_none, Option.getD_none, JsMap.get_empty, reduceCtorEq, false_iff, not_and]
    intro mem
    exact absurd (decide_eq_true rfl) (List.find?_eq_none.mp search _ mem)
  | some entry =>
    obtain ⟨owner, scopeId⟩ := entry
    have same : owner = delegator := by simpa using List.find?_some search
    subst same
    have mem := List.mem_of_find?_eq_some search
    obtain ⟨found, scope, single, got⟩ := read scopeId mem
    simp only [Option.map_some, Option.getD_some, got, Option.some.injEq]
    constructor
    · rintro rfl
      rw [scope]
      exact ⟨mem, single⟩
    · rintro ⟨mem', single'⟩
      have sameScope := only _ _ mem mem'
      rw [← sameScope, single, List.cons.injEq] at single'
      have fields := single'.1
      simp only [entryOf, IssuedEntry.mk.injEq] at fields
      obtain ⟨-, -, generation, key, -⟩ := fields
      cases found
      cases record
      simp_all

theorem abreast_recordsOf (sound : Sound index) : Abreast index index (recordsOf index) where
  issued := List.Subset.refl _
  rows := rfl
  mapped entry mem := by
    obtain ⟨record, scope, single⟩ := sound.mapped entry mem
    refine ⟨record, (get_recordsOf sound).mpr ⟨?_, ?_⟩, scope⟩
    · rw [scope]; exact mem
    · rw [scope]; exact single
  entries delegator record found entry mem scope := by
    obtain ⟨-, single⟩ := (get_recordsOf sound).mp found
    have held : entry ∈ entriesOf index.issued record.scopeId :=
      List.mem_filter.mpr ⟨mem, decide_eq_true scope⟩
    rw [single, List.mem_singleton] at held
    exact held
  distinct delegator record delegator' record' found found' same := by
    have mem := ((get_recordsOf sound).mp found).1
    have mem' := ((get_recordsOf sound).mp found').1
    have pair := List.inj_on_of_nodup_map sound.scopes mem mem' same
    exact (Prod.mk.inj pair).1
  apart delegator record found row mem :=
    sound.apart row mem _ ((get_recordsOf sound).mp found).1

end Load

/-! ### The document an outbox saves -/

section Document

variable {relay : GrantIndex} {outbox : Outbox}
  (abreast : Abreast relay outbox.copy outbox.records)

theorem mem_scopes {scopeId : String} : scopeId ∈ outbox.scopes ↔
    ∃ delegator record, outbox.records.get delegator = some record ∧ record.scopeId = scopeId := by
  simp only [Outbox.scopes, List.mem_map, JsMap.mem_values]
  constructor
  · rintro ⟨record, ⟨delegator, found⟩, rfl⟩
    exact ⟨delegator, record, found, rfl⟩
  · rintro ⟨delegator, record, found, rfl⟩
    exact ⟨record, ⟨delegator, found⟩, rfl⟩

theorem mem_document_outbox {entry : String × String} : entry ∈ outbox.document.nvoyOutbox ↔
    ∃ record, outbox.records.get entry.1 = some record ∧ record.scopeId = entry.2 := by
  simp only [Outbox.document, List.mem_map]
  constructor
  · rintro ⟨⟨delegator, record⟩, mem, rfl⟩
    exact ⟨record, JsMap.mem_entries.mp mem, rfl⟩
  · rintro ⟨record, found, same⟩
    exact ⟨(entry.1, record), JsMap.mem_entries.mpr found, by rw [same]⟩

/-- The one entry of a record's scope, when no two records have one scope. -/
theorem entriesOf_saved {delegator : String} {record : OutboxRecord}
    (distinct : ∀ delegator record delegator' record', outbox.records.get delegator = some record →
      outbox.records.get delegator' = some record' → record.scopeId = record'.scopeId →
      delegator = delegator')
    (found : outbox.records.get delegator = some record) :
    entriesOf outbox.document.issued record.scopeId = [entryOf delegator record] := by
  have others : (outbox.copy.issued.filter fun e => !outbox.scopes.contains e.scope).filter
      (fun e => e.scope = record.scopeId) = [] := by
    apply List.filter_eq_nil_iff.mpr
    intro entry mem same
    rw [decide_eq_true_iff] at same
    have outside := (List.mem_filter.mp mem).2
    simp only [Bool.not_eq_true', List.contains_eq_mem, decide_eq_false_iff_not] at outside
    exact outside (mem_scopes.mpr ⟨delegator, record, found, same.symm⟩)
  have own : outbox.records.entries.filter
      (fun entry => (entryOf entry.1 entry.2).scope = record.scopeId) = [(delegator, record)] := by
    have mem : (delegator, record) ∈ outbox.records.entries := JsMap.mem_entries.mpr found
    have alone : ∀ entry ∈ outbox.records.entries,
        decide ((entryOf entry.1 entry.2).scope = record.scopeId) =
          decide (entry = (delegator, record)) := by
      rintro ⟨other, record'⟩ mem'
      have found' := JsMap.mem_entries.mp mem'
      apply decide_eq_decide.mpr
      constructor
      · intro same
        have sameOwner := distinct _ _ _ _ found' found same
        subst sameOwner
        rw [found, Option.some.injEq] at found'
        rw [found']
      · rintro same
        rw [same]
        rfl
    rw [List.filter_congr alone, List.filter_eq,
      List.count_eq_one_of_mem outbox.records.nodup.of_map mem]
    rfl
  change ((outbox.copy.issued.filter fun e => !outbox.scopes.contains e.scope) ++
    outbox.records.entries.map fun entry => entryOf entry.1 entry.2).filter _ = _
  rw [List.filter_append, others, List.nil_append, List.filter_map]
  change (outbox.records.entries.filter
    fun entry => (entryOf entry.1 entry.2).scope = record.scopeId).map _ = _
  rw [own]
  rfl

include abreast

theorem entriesOf_document {delegator : String} {record : OutboxRecord}
    (found : outbox.records.get delegator = some record) :
    entriesOf outbox.document.issued record.scopeId = [entryOf delegator record] :=
  entriesOf_saved abreast.distinct found

/-- Every entry of the stored index is in the document. -/
theorem issued_document : relay.issued ⊆ outbox.document.issued := by
  intro entry mem
  by_cases named : entry.scope ∈ outbox.scopes
  · obtain ⟨delegator, record, found, same⟩ := mem_scopes.mp named
    have own := abreast.entries delegator record found entry mem same.symm
    rw [own]
    apply List.mem_append_right
    exact List.mem_map.mpr ⟨(delegator, record), JsMap.mem_entries.mpr found, rfl⟩
  · apply List.mem_append_left
    refine List.mem_filter.mpr ⟨abreast.issued mem, ?_⟩
    simpa using named

theorem document_children :
    outbox.document.nvoyDerivedChildren = relay.nvoyDerivedChildren := abreast.rows

/-- **The outbox's own save loses nothing** of an index that its copy is abreast of. -/
theorem retains_document : Retains relay outbox.document where
  issued _ mem := .inl (issued_document abreast mem)
  outbox _ mem := mem_document_outbox.mpr (abreast.mapped _ mem)
  rows row mem := .inl (by rw [document_children abreast]; exact mem)

theorem sound_document (sound : Sound relay) : Sound outbox.document where
  formed := by
    rw [document_children abreast]
    exact sound.formed
  short := by
    rw [document_children abreast]
    exact sound.short
  mapped := by
    rintro ⟨delegator, scopeId⟩ mem
    obtain ⟨record, found, same⟩ := mem_document_outbox.mp mem
    refine ⟨record, same, ?_⟩
    rw [← same]
    exact entriesOf_document abreast found
  delegators := by
    have names : outbox.document.nvoyOutbox.map Prod.fst = outbox.records.entries.map Prod.fst := by
      simp [Outbox.document, Function.comp_def]
    rw [names]
    exact outbox.records.nodup
  scopes := by
    have names : outbox.document.nvoyOutbox.map Prod.snd =
        outbox.records.entries.map fun entry => entry.2.scopeId := by
      simp [Outbox.document, Function.comp_def]
    rw [names]
    apply List.Nodup.map_on ?_ outbox.records.nodup.of_map
    rintro ⟨delegator, record⟩ mem ⟨delegator', record'⟩ mem' same
    have found := JsMap.mem_entries.mp mem
    have found' := JsMap.mem_entries.mp mem'
    have owner := abreast.distinct _ _ _ _ found found' same
    subst owner
    rw [found, Option.some.injEq] at found'
    rw [found']
  apart := by
    rintro row mem ⟨delegator, scopeId⟩ entry
    rw [document_children abreast] at mem
    obtain ⟨record, found, same⟩ := mem_document_outbox.mp entry
    rw [← same]
    exact abreast.apart delegator record found row mem

/-- The document is abreast of the stored index, and of itself once it is stored. -/
theorem abreast_document : Abreast relay outbox.document outbox.records where
  issued := issued_document abreast
  rows := document_children abreast
  mapped := abreast.mapped
  entries := abreast.entries
  distinct := abreast.distinct
  apart := abreast.apart

theorem abreast_stored : Abreast outbox.document outbox.document outbox.records where
  issued := List.Subset.refl _
  rows := rfl
  mapped _ mem := mem_document_outbox.mp mem
  entries delegator record found entry mem scope := by
    have held : entry ∈ entriesOf outbox.document.issued record.scopeId :=
      List.mem_filter.mpr ⟨mem, decide_eq_true scope⟩
    rw [entriesOf_document abreast found, List.mem_singleton] at held
    exact held
  distinct := abreast.distinct
  apart := by
    rw [document_children abreast]
    exact abreast.apart

end Document

/-! ### The steps -/

section Steps

variable {agent : Agent}

/-- Nothing is stored yet: then no record is behind anything. -/
theorem abreast_blank : Abreast .blank .blank .empty := by
  constructor <;> simp [GrantIndex.blank]

theorem sound_blank : Sound .blank := by
  constructor <;> simp [GrantIndex.blank]

theorem loads_loaded (agent : Agent) (load : Loaded) :
    (agent.loads load).1.outbox.loaded = true := by
  unfold Agent.loads Outbox.ensureLoaded
  by_cases loaded : agent.outbox.loaded
  · simp only [loaded, if_pos]
  · simp only [loaded, Bool.false_eq_true, if_false]
    cases load <;> rfl

theorem Orderly.loads (orderly : Orderly agent) (load : Loaded) :
    Orderly (agent.loads load).1 := by
  have read := loads_loaded agent load
  refine ⟨orderly.sound, fun unread => ?_, fun unread => ?_, fun _ level => ?_⟩
  · rw [read] at unread
    cases unread
  · rw [read] at unread
    cases unread
  · unfold Agent.loads Outbox.ensureLoaded at level ⊢
    by_cases loaded : agent.outbox.loaded
    · simp only [loaded, if_pos] at level ⊢
      exact orderly.abreast loaded level
    · have empty := orderly.unread (by simpa using loaded)
      have unindexed := orderly.untouched (by simpa using loaded)
      simp only [loaded, Bool.false_eq_true, if_false] at level ⊢
      -- a load that does not get the document says so unless nothing is stored
      cases load with
      | document => exact abreast_recordsOf orderly.sound
      | missing =>
        have blank : agent.relay = .blank := by simpa using level
        change Abreast agent.relay .blank (recordsOf .blank)
        rw [blank]
        exact abreast_blank
      | fails =>
        have blank : agent.relay = .blank := by simpa using level
        change Abreast agent.relay agent.outbox.copy agent.outbox.records
        rw [blank, empty, Outbox.copy, unindexed]
        exact abreast_blank

theorem isNew_iff {index : GrantIndex} {scopeId : String} : isNew index scopeId ↔
    (∀ entry ∈ index.issued, entry.scope ≠ scopeId) ∧
      (∀ entry ∈ index.nvoyOutbox, entry.2 ≠ scopeId) ∧
      ∀ row ∈ index.nvoyDerivedChildren, row.child.scope ≠ scopeId := by
  simp [isNew, List.all_eq_true, and_assoc]

/-- A record that a first write draws, with a new scope id. -/
theorem Abreast.draw {relay copy : GrantIndex} {records : JsMap String OutboxRecord}
    {delegator scopeId : String} {scopeKey : ScopeKey} (abreast : Abreast relay copy records)
    (first : records.get delegator = none) (fresh : isNew relay scopeId)
    (unused : ∀ other record, records.get other = some record → record.scopeId ≠ scopeId) :
    Abreast relay copy (records.set delegator ⟨scopeId, 1, scopeKey⟩) := by
  obtain ⟨noEntry, -, noRow⟩ := isNew_iff.mp fresh
  have place : ∀ other record,
      (records.set delegator ⟨scopeId, 1, scopeKey⟩).get other = some record →
        other = delegator ∧ record = ⟨scopeId, 1, scopeKey⟩ ∨ records.get other = some record := by
    intro other record found
    rw [JsMap.get_set] at found
    split at found
    next same => exact .inl ⟨same, (Option.some.inj found).symm⟩
    next => exact .inr found
  refine ⟨abreast.issued, abreast.rows, ?_, ?_, ?_, ?_⟩
  · intro entry mem
    obtain ⟨record, found, same⟩ := abreast.mapped entry mem
    refine ⟨record, ?_, same⟩
    rw [JsMap.get_set, if_neg]
    · exact found
    · intro owner
      rw [owner, first] at found
      cases found
  · intro other record found entry mem scope
    rcases place other record found with ⟨rfl, rfl⟩ | old
    · exact absurd scope (noEntry entry mem)
    · exact abreast.entries other record old entry mem scope
  · intro other record other' record' found found' same
    rcases place other record found with ⟨rfl, rfl⟩ | old
    · rcases place other' record' found' with ⟨rfl, -⟩ | old'
      · rfl
      · exact absurd same.symm (unused other' record' old')
    · rcases place other' record' found' with ⟨rfl, rfl⟩ | old'
      · exact absurd same (unused other record old)
      · exact abreast.distinct other record other' record' old old' same
  · intro other record found row mem
    rcases place other record found with ⟨rfl, rfl⟩ | old
    · exact noRow row mem
    · exact abreast.apart other record old row mem

/-- **A write** of the outbox, under the condition. -/
theorem Orderly.write (orderly : Orderly agent) (call : Write)
    (meets : undisturbed agent (.write call)) :
    Orderly (agent.write call) ∧ Retains agent.relay (agent.write call).relay := by
  have read := loads_loaded agent call.load
  have loads := orderly.loads call.load
  have relay : (agent.loads call.load).1.relay = agent.relay := rfl
  simp only [undisturbed] at meets
  unfold Agent.write
  rcases loaded : agent.loads call.load with ⟨agent', ok⟩
  rw [loaded] at read loads relay meets
  simp only at read loads relay meets ⊢
  have still : Orderly agent' ∧ Retains agent.relay agent'.relay := by
    rw [relay]
    exact ⟨loads, .refl _⟩
  cases ok with
  | false => exact still
  | true =>
    simp only [Bool.not_true, Bool.false_eq_true, if_false]
    cases first : agent'.outbox.records.get call.delegator with
    | some record => exact still
    | none =>
      have hasNot : agent'.outbox.records.has call.delegator = false := by
        rw [JsMap.has_eq_isSome, first]
        rfl
      simp only [hasNot, Bool.not_false, Bool.and_self, if_true, Bool.and_eq_true] at meets
      obtain ⟨⟨fresh, unused⟩, saving⟩ := meets
      have distinct : ∀ other record, agent'.outbox.records.get other = some record →
          record.scopeId ≠ call.scopeId := by
        intro other record found same
        simp only [Bool.not_eq_true', List.contains_eq_mem, decide_eq_false_iff_not] at unused
        exact unused (mem_scopes.mpr ⟨other, record, found, same⟩)
      have drawn : agent'.behind = false → Abreast agent'.relay (agent'.draws call).outbox.copy
          (agent'.draws call).outbox.records := by
        intro level
        exact (loads.abreast read level).draw first (relay ▸ fresh) distinct
      have draws : Orderly (agent'.draws call) := by
        refine ⟨loads.sound, fun unread => ?_, fun unread => ?_, fun _ level => drawn level⟩
        · change agent'.outbox.loaded = false at unread
          rw [read] at unread
          cases unread
        · change agent'.outbox.loaded = false at unread
          rw [read] at unread
          cases unread
      by_cases sends : (call.publish = .taken && call.grantBack = .taken) = true
      · rw [if_pos sends]
        simp only [Bool.and_eq_true, decide_eq_true_iff] at sends
        have saved : ∀ level : agent'.behind = false,
            Orderly ((agent'.draws call).savesOutbox .taken) ∧
              Retains agent.relay ((agent'.draws call).savesOutbox .taken).relay := by
          intro level
          have abreast := drawn level
          refine ⟨⟨sound_document abreast loads.sound, fun unread => ?_, fun unread => ?_,
            fun _ _ => abreast_stored abreast⟩, ?_⟩
          · change agent'.outbox.loaded = false at unread
            rw [read] at unread
            cases unread
          · change agent'.outbox.loaded = false at unread
            rw [read] at unread
            cases unread
          · rw [← relay]
            exact retains_document abreast
        simp only [sends, ne_eq, not_true_eq_false, decide_false, Bool.false_or, Bool.or_eq_true,
          decide_eq_true_iff, Bool.not_eq_true'] at saving
        cases save : call.save with
        | taken =>
          exact saved (saving.resolve_left (by rw [save]; exact fun same => by cases same))
        | lost =>
          exact saved (saving.resolve_left (by rw [save]; exact fun same => by cases same))
        | refused =>
          refine ⟨⟨loads.sound, fun unread => ?_, fun unread => ?_,
            fun _ level => abreast_document (drawn level)⟩, ?_⟩
          · change agent'.outbox.loaded = false at unread
            rw [read] at unread
            cases unread
          · change agent'.outbox.loaded = false at unread
            rw [read] at unread
            cases unread
          · change Retains agent.relay agent'.relay
            rw [relay]
            exact .refl _
      · rw [if_neg sends]
        refine ⟨draws, ?_⟩
        change Retains agent.relay agent'.relay
        rw [relay]
        exact .refl _

/-- A save by another writer leaves the outbox's copy behind. -/
theorem Orderly.saves (orderly : Orderly agent) {document : GrantIndex} {answer : Answer}
    (sound : Sound document) (retains : Retains agent.relay document) :
    Orderly (agent.saves document answer) ∧ Retains agent.relay (agent.saves document answer).relay := by
  have saved : Orderly { agent with
      relay := document, behind := agent.behind || agent.outbox.loaded } := by
    refine ⟨sound, orderly.unread, orderly.untouched, ?_⟩
    intro loaded level
    change agent.outbox.loaded = true at loaded
    rw [loaded, Bool.or_true] at level
    cases level
  cases answer with
  | taken => exact ⟨saved, retains⟩
  | lost => exact ⟨saved, retains⟩
  | refused => exact ⟨orderly, .refl _⟩

/-- The index a call reads is the stored one. -/
theorem of_reads {index document : GrantIndex} {load : Loaded} (meets : reads index load)
    (loaded : load.of index = some document) : document = index := by
  cases load with
  | document => exact (Option.some.inj loaded).symm
  | missing =>
    have blank : index = .blank := by simpa [reads] using meets
    rw [blank]
    exact (Option.some.inj loaded).symm
  | fails => cases loaded

/-- What an issuance comes to save. -/
theorem derived_eq_some {call : Derivation} {document : GrantIndex}
    (derived : agent.derived call = some document) :
    ∃ index, call.record.of agent.relay = some index ∧
      document = withChild index call.args.parent call.scopeId call.args.scopeName
        call.args.recipient call.scopeKey call.nowSec := by
  unfold Agent.derived at derived
  split at derived
  next =>
    split at derived
    next =>
      split at derived
      next =>
        obtain ⟨index, loaded, rfl⟩ := Option.map_eq_some_iff.mp derived
        exact ⟨index, loaded, rfl⟩
      next => cases derived
    next => cases derived
  next => cases derived

/-- What a cascade comes to save. -/
theorem severed_eq_some {call : Severing} {saved : GrantIndex}
    (severed : agent.severed call = some saved) :
    ∃ index n messages, call.load.of agent.relay = some index ∧
      cascadeDerivedRevocation call.host index call.revoked = .ok (saved, n, messages) := by
  unfold Agent.severed at severed
  split at severed
  next index loaded =>
    split at severed
    next => cases severed
    next saved' n messages _ returned =>
      cases severed
      exact ⟨index, n, messages, loaded, returned⟩
    next => cases severed
  next => cases severed

section Issue

variable {index : GrantIndex} {parent : HeldGrant} {scopeId scopeName recipient : String}
  {scopeKey : ScopeKey} {issuedAt : Int}

/-- The rows an issuance saves, when the ledger has room. -/
theorem withChild_children (sound : Sound index)
    (room : index.nvoyDerivedChildren.length < LINEAGE_CAP) :
    (withChild index parent scopeId scopeName recipient scopeKey issuedAt).nvoyDerivedChildren =
      index.nvoyDerivedChildren ++ [childRow parent scopeId scopeName recipient issuedAt] := by
  rw [withChild, saveLineage_children, lineage_eq_self sound.formed]
  apply lastRows_of_le
  rw [List.length_append, List.length_singleton]
  exact room

theorem retains_withChild (sound : Sound index)
    (room : index.nvoyDerivedChildren.length < LINEAGE_CAP) :
    Retains index (withChild index parent scopeId scopeName recipient scopeKey issuedAt) where
  issued _ mem := .inl (List.mem_append_left _ mem)
  outbox := List.Subset.refl _
  rows row mem := by
    rw [withChild_children sound room]
    exact .inl (List.mem_append_left _ mem)

theorem sound_withChild (sound : Sound index) (fresh : isNew index scopeId)
    (formed : (childRow parent scopeId scopeName recipient issuedAt).wellFormed)
    (room : index.nvoyDerivedChildren.length < LINEAGE_CAP) :
    Sound (withChild index parent scopeId scopeName recipient scopeKey issuedAt) := by
  obtain ⟨-, unmapped, -⟩ := isNew_iff.mp fresh
  refine ⟨?_, ?_, ?_, sound.delegators, sound.scopes, ?_⟩
  · rw [withChild_children sound room]
    intro row mem
    rcases List.mem_append.mp mem with old | new
    · exact sound.formed row old
    · rw [List.mem_singleton.mp new]
      exact formed
  · rw [withChild_children sound room, List.length_append, List.length_singleton]
    exact room
  · intro entry mem
    obtain ⟨record, same, single⟩ := sound.mapped entry mem
    refine ⟨record, same, ?_⟩
    change (index.issued ++ [_]).filter _ = _
    rw [List.filter_append]
    change entriesOf index.issued entry.2 ++ _ = _
    have differ : ¬ scopeId = entry.2 := fun same => unmapped entry mem same.symm
    rw [single, List.filter_cons_of_neg (by rw [decide_eq_true_iff]; exact differ),
      List.filter_nil, List.append_nil]
  · rw [withChild_children sound room]
    intro row mem entry mapped
    rcases List.mem_append.mp mem with old | new
    · exact sound.apart row old entry mapped
    · rw [List.mem_singleton.mp new]
      exact (unmapped entry mapped).symm

end Issue

section Cascade

variable {index saved : GrantIndex} {host : CascadeHost} {revoked : Revoked} {n : Nat}
  {messages : List Severance}

/-- A cascade of a sound index, row by row. -/
theorem cascade_kept (sound : Sound index)
    (returned : cascadeDerivedRevocation host index revoked = .ok (saved, n, messages)) :
    List.Forall₂ (Kept host (lineage index) revoked) index.nvoyDerivedChildren
      saved.nvoyDerivedChildren := by
  obtain ⟨items, state, swept, -, exact', saves⟩ := cascade_swept returned
  rcases saves with ⟨none, rfl⟩ | ⟨-, rfl⟩
  · apply List.forall₂_same.mpr
    intro row mem
    refine .inl ⟨fun cascades => ?_, rfl⟩
    obtain ⟨j, found⟩ := List.mem_iff_getElem?.mp cascades.mem
    rw [none] at exact'
    exact List.not_mem_nil ((exact' j).mpr ⟨row, found, cascades⟩)
  · have kept := swept.kept exact'
    rw [saveLineage_children, rows_of_fits swept sound.formed sound.short]
    rw [lineage_eq_self sound.formed] at kept ⊢
    exact kept

/-- A cascade removes entries of the children it severs and no others. -/
theorem cascade_entries
    (returned : cascadeDerivedRevocation host index revoked = .ok (saved, n, messages))
    (scope : String)
    (spared : ∀ row, Cascades host (lineage index) revoked row → row.child.scope ≠ scope) :
    entriesOf saved.issued scope = entriesOf index.issued scope := by
  obtain ⟨items, state, swept, -, exact', saves⟩ := cascade_swept returned
  rcases saves with ⟨-, rfl⟩ | ⟨-, rfl⟩
  · rfl
  · apply swept.others scope
    intro j mem row found
    obtain ⟨other, foundOther, cascades⟩ := (exact' j).mp mem
    have same : row = other := by
      simpa only [CascadeState.first, foundOther, Option.some.injEq, eq_comm] using found
    rw [same]
    exact spared other cascades

theorem cascade_outbox
    (returned : cascadeDerivedRevocation host index revoked = .ok (saved, n, messages)) :
    saved.nvoyOutbox = index.nvoyOutbox := by
  obtain ⟨items, state, -, -, -, saves⟩ := cascade_swept returned
  rcases saves with ⟨-, rfl⟩ | ⟨-, rfl⟩
  · rfl
  · rfl

/-- The rows of a cascade's index: as they were, or tombstones of rows that were severed. -/
theorem mem_cascade (sound : Sound index)
    (returned : cascadeDerivedRevocation host index revoked = .ok (saved, n, messages))
    {row : DerivedChild} (mem : row ∈ saved.nvoyDerivedChildren) :
    ∃ before ∈ index.nvoyDerivedChildren, before.parent = row.parent ∧ before.child = row.child := by
  have kept := cascade_kept sound returned
  obtain ⟨k, inside, at_⟩ := List.mem_iff_getElem.mp mem
  have long := kept.length_eq
  have inside' : k < index.nvoyDerivedChildren.length := by omega
  have here := (List.forall₂_iff_get.mp kept).2 k inside' inside
  simp only [List.get_eq_getElem, at_] at here
  refine ⟨index.nvoyDerivedChildren[k], List.getElem_mem inside', ?_⟩
  rcases here with ⟨-, same⟩ | ⟨-, t, same⟩
  · rw [same]
    exact ⟨rfl, rfl⟩
  · rw [same]
    exact ⟨rfl, rfl⟩

/-- A row after a cascade: severed rows are tombstones in their places. -/
theorem cascade_mem (sound : Sound index)
    (returned : cascadeDerivedRevocation host index revoked = .ok (saved, n, messages))
    {row : DerivedChild} (mem : row ∈ index.nvoyDerivedChildren) :
    ¬ Cascades host (lineage index) revoked row ∧ row ∈ saved.nvoyDerivedChildren ∨
      ∃ revokedAt, row.tombstone revokedAt ∈ saved.nvoyDerivedChildren := by
  have kept := cascade_kept sound returned
  obtain ⟨k, inside, at_⟩ := List.mem_iff_getElem.mp mem
  have long := kept.length_eq
  have here := (List.forall₂_iff_get.mp kept).2 k inside (by omega)
  simp only [List.get_eq_getElem, at_] at here
  rcases here with ⟨untouched, same⟩ | ⟨-, t, same⟩
  · refine .inl ⟨untouched, ?_⟩
    rw [← same]
    exact List.getElem_mem _
  · refine .inr ⟨t, ?_⟩
    rw [← same]
    exact List.getElem_mem _

theorem retains_cascade (sound : Sound index)
    (returned : cascadeDerivedRevocation host index revoked = .ok (saved, n, messages)) :
    Retains index saved where
  issued entry mem := by
    by_cases spared : ∀ row, Cascades host (lineage index) revoked row →
        row.child.scope ≠ entry.scope
    · left
      have held : entry ∈ entriesOf index.issued entry.scope :=
        List.mem_filter.mpr ⟨mem, decide_eq_true rfl⟩
      rw [← cascade_entries returned entry.scope spared] at held
      exact (List.mem_filter.mp held).1
    · right
      push Not at spared
      obtain ⟨row, cascades, scope⟩ := spared
      have inIndex : row ∈ index.nvoyDerivedChildren := (List.mem_filter.mp cascades.mem).1
      rcases cascade_mem sound returned inIndex with ⟨untouched, -⟩ | ⟨t, tombstone⟩
      · exact absurd cascades untouched
      · exact ⟨_, tombstone, rfl, scope⟩
  outbox := by
    rw [cascade_outbox returned]
    exact List.Subset.refl _
  rows row mem := by
    rcases cascade_mem sound returned mem with ⟨-, kept⟩ | tombstone
    · exact .inl kept
    · exact .inr tombstone

theorem sound_cascade (sound : Sound index)
    (returned : cascadeDerivedRevocation host index revoked = .ok (saved, n, messages)) :
    Sound saved := by
  have outbox := cascade_outbox returned
  refine ⟨?_, ?_, ?_, ?_, ?_, ?_⟩
  · intro row mem
    obtain ⟨before, inIndex, parent, child⟩ := mem_cascade sound returned mem
    have formed := sound.formed before inIndex
    unfold DerivedChild.wellFormed at formed ⊢
    rw [← parent, ← child]
    exact formed
  · rw [← (cascade_kept sound returned).length_eq]
    exact sound.short
  · rw [outbox]
    intro entry mem
    obtain ⟨record, same, single⟩ := sound.mapped entry mem
    refine ⟨record, same, ?_⟩
    rw [cascade_entries returned entry.2, single]
    intro row cascades
    exact sound.apart row (List.mem_filter.mp cascades.mem).1 entry mem
  · rw [outbox]
    exact sound.delegators
  · rw [outbox]
    exact sound.scopes
  · rw [outbox]
    intro row mem entry mapped
    obtain ⟨before, inIndex, -, child⟩ := mem_cascade sound returned mem
    rw [← child]
    exact sound.apart before inIndex entry mapped

end Cascade

/-- **Every call under the condition** keeps what is stored and leaves an orderly agent. -/
theorem orderly_step (agent : Agent) (action : Action) (orderly : Orderly agent)
    (meets : undisturbed agent action) :
    Orderly (step agent action) ∧ Retains agent.relay (step agent action).relay := by
  cases action with
  | write call => exact orderly.write call meets
  | issue call =>
    change Orderly (agent.issue call) ∧ Retains agent.relay (agent.issue call).relay
    unfold Agent.issue
    cases derived : agent.derived call with
    | none => exact ⟨orderly, .refl _⟩
    | some document =>
      by_cases refused : call.save = .refused
      · simp only [refused]
        exact ⟨orderly, .refl _⟩
      · simp only [undisturbed, derived, Option.isSome_some, refused, ne_eq, not_false_eq_true,
          decide_true, Bool.and_self, if_true, Bool.and_eq_true, decide_eq_true_iff] at meets
        obtain ⟨⟨⟨reads, fresh⟩, formed⟩, room⟩ := meets
        obtain ⟨index, loaded, rfl⟩ := derived_eq_some derived
        rw [of_reads reads loaded]
        exact orderly.saves (sound_withChild orderly.sound fresh formed room)
          (retains_withChild orderly.sound room)
  | cascade call =>
    change Orderly (agent.cascade call) ∧ Retains agent.relay (agent.cascade call).relay
    unfold Agent.cascade
    cases severed : agent.severed call with
    | none => exact ⟨orderly, .refl _⟩
    | some saved =>
      by_cases refused : call.save = .refused
      · simp only [refused]
        exact ⟨orderly, .refl _⟩
      · simp only [undisturbed, severed, Option.isSome_some, refused, ne_eq, not_false_eq_true,
          decide_true, Bool.and_self, if_true] at meets
        obtain ⟨index, n, messages, loaded, returned⟩ := severed_eq_some severed
        rw [of_reads meets loaded] at returned
        exact orderly.saves (sound_cascade orderly.sound returned)
          (retains_cascade orderly.sound returned)
  | restart =>
    refine ⟨⟨orderly.sound, fun _ => rfl, fun _ => rfl, fun loaded => ?_⟩, .refl _⟩
    cases loaded

end Steps

/-! ### No lost update -/

/-- An identity whose index these writers have not written yet: entries of other clients only. -/
def Agent.start (issued : List IssuedEntry) : Agent := ⟨⟨issued, [], []⟩, .fresh, false⟩

theorem orderly_start (issued : List IssuedEntry) : Orderly (Agent.start issued) := by
  refine ⟨?_, fun _ => rfl, fun _ => rfl, fun loaded => by cases loaded⟩
  constructor <;> simp [Agent.start]

/-- **No lost update.** In every run whose calls meet the condition, every later state of the index
keeps what any earlier state held. -/
theorem index_retains (issued : List IssuedEntry) (front back : List Action)
    (meets : Meets step (fun agent action => undisturbed agent action) (Agent.start issued)
      (front ++ back)) :
    Retains (run step (Agent.start issued) front).relay
      (run step (Agent.start issued) (front ++ back)).relay := by
  obtain ⟨early, late⟩ := meets_append.mp meets
  have orderly : Orderly (run step (Agent.start issued) front) :=
    early.keeps (fun agent action orderly meets => (orderly_step agent action orderly meets).1)
      (orderly_start issued)
  rw [run_append]
  generalize run step (Agent.start issued) front = middle at late orderly ⊢
  have keep : ∀ agent action, Orderly agent ∧ Retains middle.relay agent.relay →
      undisturbed agent action →
      Orderly (step agent action) ∧ Retains middle.relay (step agent action).relay := by
    intro agent action held meets
    obtain ⟨next, retains⟩ := orderly_step agent action held.1 meets
    exact ⟨next, held.2.trans retains⟩
  exact (late.keeps keep ⟨orderly, .refl _⟩).2

/-! ### Calls in sequence -/

/-- A first write for a delegator; every relay operation succeeds. -/
def writes (delegator scopeId : String) (draw : Nat) : Action :=
  .write ⟨delegator, scopeId, ⟨draw⟩, .document, .taken, .taken, .taken⟩

/-- An issuance of a child of the sample parent. -/
def derives (scopeId : String) (draw : Nat) : Action :=
  .issue ⟨⟨sampleParent, sampleKey 'c', "derived:leaf", sampleTerms⟩, 10, .document, true, scopeId,
    ⟨draw⟩, .taken, .taken, .document, .taken⟩

/-- An issuance, a restart, and writes for two delegators. -/
theorem index_retains_restart :
    Meets step (fun agent action => undisturbed agent action) (Agent.start [])
        ([derives "c" 1] ++ [.restart, writes (sampleKey 'd') "x" 2, writes (sampleKey 'e') "y" 3]) ∧
      Retains (run step (Agent.start []) [derives "c" 1]).relay
        (run step (Agent.start []) ([derives "c" 1] ++
          [.restart, writes (sampleKey 'd') "x" 2, writes (sampleKey 'e') "y" 3])).relay := by
  have meets : Meets step (fun agent action => undisturbed agent action) (Agent.start [])
      ([derives "c" 1] ++ [.restart, writes (sampleKey 'd') "x" 2, writes (sampleKey 'e') "y" 3]) := by
    decide +kernel
  exact ⟨meets, index_retains [] _ _ meets⟩

/-- **Overwritten.** The outbox loads the index at its first write; a child is issued then; the
outbox's next first write saves the copy without the child's entry and row. -/
theorem outbox_overwrites :
    ¬ Retains (run step (Agent.start []) [writes (sampleKey 'd') "x" 1, derives "c" 2]).relay
      (run step (Agent.start []) ([writes (sampleKey 'd') "x" 1, derives "c" 2] ++
        [writes (sampleKey 'e') "y" 3])).relay := by
  intro retains
  have lost := retains.issued ⟨"c", "derived:leaf", 1, ⟨2⟩, [sampleKey 'c']⟩ (by decide +kernel)
  revert lost
  decide +kernel

end Nvoy.Grants.Writers
