/-
**What a rotation leaves behind** (`rotateDropping`).

A rotation reads the scope back, draws a new key, publishes the scope under it, grants it to every
survivor, and only then writes the key into the Grant Index and saves that. The relays may fail at
the query and at every publication.

* `fetchScope`, `rotateWithTerms`, `rotateDropping` — the source's functions, over a console and its
  relays;
* `Outcome` — the ways a call that has read its scope ends;
* `AllOrNothing` — nothing changes when the scope cannot be read back, a call that returns has saved
  the rotated entry, and one that throws after the scope was republished keeps the new key;
* `allOrNothing_iff` — it is so unless a publication fails between the scope's and the index, or the
  log has no room for the events of a rotation that is saved;
* `key_lost` — a survivor's grant that no relay takes leaves a scope nobody can read;
* `rotate_desk` — a call is a rotation of the desk that stops where the call does.
-/

import Nvoy.Console.Terms
import Nvoy.Grants.Budget
import Nvoy.Lib.Json

namespace Nvoy.Console.Republish

open Grants (Answer IssuedEntry ScopeKey Generation)

/-! ### The relays -/

abbrev Payload := JsMap String Json

/-- NIP-44 under a scope key. Encryption throws on a plaintext of a size it has no padding for, and
decryption where the MAC does not fit. -/
structure Cipher where
  symEncrypt : Payload → ScopeKey → Option String
  symDecrypt : String → ScopeKey → Option Payload
  opens : ∀ data key content, symEncrypt data key = some content → symDecrypt content key = some data

/-- A kind-30440 event of the delegator. -/
structure DataSet where
  scope : String
  v : Generation
  content : String
deriving DecidableEq

/-- What `grantWithTerms` wraps. -/
structure Sent where
  agent : String
  scope : String
  v : Nat
  key : ScopeKey
  scopeName : String
  terms : Option Terms
deriving DecidableEq

inductive Published where
  | dataSet (set : DataSet)
  | grant (sent : Sent)
  | index (index : Index)
deriving DecidableEq

/-- The console's Grant Index in memory, and what the relays have taken, oldest first. -/
structure World where
  index : Index
  relays : List Published
deriving DecidableEq

/-- How the relays answer the calls of one rotation: `query` is `none` where it throws, and `grant`
answers the survivors in their order. A signer that throws publishes nothing. -/
structure Answers where
  query : Option (List DataSet)
  scope : Answer
  grant : Nat → Answer
  save : Answer

/-- What a call throws. -/
inductive Thrown where
  | unknownScope
  | unread (status : ReadBack)
  | relays
  | cipher
deriving DecidableEq

/-- A publication: the relays' list after it, and whether the call returns. -/
def publish (relays : List Published) (event : Published) : Answer → List Published × Bool
  | .taken => (relays ++ [event], true)
  | .lost => (relays ++ [event], false)
  | .refused => (relays, false)

/-! ### The code -/

inductive Fetched where
  | ok (data : Payload)
  | stale
  | missing

def Fetched.status : Fetched → ReadBack
  | .ok _ => .ok
  | .stale => .stale
  | .missing => .missing

/-- `fetchScope` on the events of a query, newest first. -/
def fetchScope (c : Cipher) (events : List DataSet) (generation : Nat) (scopeKey : ScopeKey) :
    Fetched :=
  match events with
  | [] => .missing
  | event :: _ =>
    if event.v.above (some generation) then .stale
    else match c.symDecrypt event.content scopeKey with
      | some data => .ok data
      | none => .stale

/-- `{ ...payload, updated_at: ts }` -/
def stamped (payload : Payload) (ts : Int) : Payload := payload.set "updated_at" (.num ts 0)

/-- The grants of `rotateWithTerms`, from a position on. -/
def sendGrants (grant : Nat → Answer) (sents : List Sent) (position : Nat)
    (relays : List Published) : List Published × Bool :=
  match sents with
  | [] => (relays, true)
  | sent :: rest =>
    match publish relays (.grant sent) (grant position) with
    | (relays, true) => sendGrants grant rest (position + 1) relays
    | (relays, false) => (relays, false)

/-- What each survivor is sent. -/
def sentsOf (scope : String) (v : Nat) (key : ScopeKey) (scopeName : String)
    (survivors : List Survivor) : List Sent :=
  survivors.map fun s => ⟨s.pub, scope, v, key, scopeName, s.terms⟩

/-- `rotateWithTerms` under a key that was just drawn; `publishScope` stamps the payload. -/
def rotateWithTerms (c : Cipher) (answers : Answers) (entry : IssuedEntry) (payload : Payload)
    (ts : Int) (key : ScopeKey) (survivors : List Survivor) (relays : List Published) :
    List Published × Option Thrown :=
  match c.symEncrypt (stamped payload ts) key with
  | none => (relays, some .cipher)
  | some content =>
    match publish relays (.dataSet ⟨entry.scope, some (entry.v + 1), content⟩) answers.scope with
    | (relays, false) => (relays, some .relays)
    | (relays, true) =>
      match sendGrants answers.grant
          (sentsOf entry.scope (entry.v + 1) key entry.scopeName survivors) 0 relays with
      | (relays, false) => (relays, some .relays)
      | (relays, true) => (relays, none)

/-- What a call returns. -/
structure Summary where
  fromV : Nat
  toV : Nat
  survivors : List String
deriving DecidableEq

/-- The index after the rotation of a scope: every entry of it is the rotated one. -/
def rotated (index : Index) (entry : IssuedEntry) (key : ScopeKey) (survivors : List Survivor)
    (makeEvents : Nat → Nat → Nat → List LedgerEvent) : Index where
  issued := index.issued.map fun e => if e.scope ≠ entry.scope then e else
    ⟨entry.scope, entry.scopeName, entry.v + 1, key, survivors.map (·.pub)⟩
  nvoyLedger := appendAll index.nvoyLedger (makeEvents entry.v (entry.v + 1) survivors.length)

/-- A call, at a time; `ts` is the time of its data set. -/
structure Call where
  nowSec : Int
  ts : Int
  scope : String
  drop : List String
  key : ScopeKey
  makeEvents : Nat → Nat → Nat → List LedgerEvent

def rotateDropping (c : Cipher) (world : World) (call : Call) (answers : Answers) :
    World × Except Thrown Summary :=
  match world.index.issued.find? (·.scope = call.scope) with
  | none => (world, .error .unknownScope)
  | some entry =>
    match answers.query with
    | none => (world, .error .relays)
    | some events =>
      match fetchScope c events entry.v entry.key with
      | .ok data =>
        let survivors := survivorsOf world.index call.nowSec entry call.drop
        match rotateWithTerms c answers entry data call.ts call.key survivors world.relays with
        | (relays, some thrown) => (⟨world.index, relays⟩, .error thrown)
        | (relays, none) =>
          let index := rotated world.index entry call.key survivors call.makeEvents
          match publish relays (.index index) answers.save with
          | (relays, true) =>
            (⟨index, relays⟩, .ok ⟨entry.v, entry.v + 1, survivors.map (·.pub)⟩)
          | (relays, false) => (⟨index, relays⟩, .error .relays)
      | other => (world, .error (.unread other.status))

/-! ### What a call should leave -/

/-- The entry of the scope and its payload, where the delegator can read its own scope. -/
def readBack (c : Cipher) (world : World) (call : Call) (answers : Answers) :
    Option (IssuedEntry × Payload) := do
  let entry ← world.index.issued.find? (·.scope = call.scope)
  let events ← answers.query
  match fetchScope c events entry.v entry.key with
  | .ok data => some (entry, data)
  | _ => none

/-- What the relays have taken since. -/
def World.since (world before : World) : List Published := world.relays.drop before.relays.length

/-- The agents that stay. -/
def Call.keeps (call : Call) (entry : IssuedEntry) : List String :=
  entry.grantees.filter fun p => !call.drop.contains p

/-- The events a call makes for the log. -/
def Call.events (call : Call) (entry : IssuedEntry) : List LedgerEvent :=
  call.makeEvents entry.v (entry.v + 1) (call.keeps entry).length

/-- The rotation of the entry is complete. -/
structure Saved (call : Call) (entry : IssuedEntry) (before after : World) : Prop where
  saved : after.relays.getLast? = some (.index after.index)
  rotated : after.index.issued.find? (·.scope = call.scope) =
    some ⟨call.scope, entry.scopeName, entry.v + 1, call.key, call.keeps entry⟩
  sent : ∀ pub ∈ call.keeps entry, ∃ sent, .grant sent ∈ after.since before ∧ sent.agent = pub ∧
    sent.scope = call.scope ∧ sent.v = entry.v + 1 ∧ sent.key = call.key
  others : after.index.issued.filter (·.scope ≠ call.scope) =
    before.index.issued.filter (·.scope ≠ call.scope)
  ledger : after.index.nvoyLedger = before.index.nvoyLedger ++ call.events entry

def Published.dataSetOf (scope : String) : Published → Option DataSet
  | .dataSet set => if set.scope = scope then some set else none
  | _ => none

/-- The data set of a scope that the relays hold: the one they took last. -/
def held (relays : List Published) (scope : String) : Option DataSet :=
  (relays.filterMap (Published.dataSetOf scope)).getLast?

/-- The index in memory has the key of the scope, and reads the scope with it. -/
def Recoverable (c : Cipher) (call : Call) (after : World) : Prop :=
  ∃ entry, after.index.issued.find? (·.scope = call.scope) = some entry ∧ entry.key = call.key ∧
    ∃ data, fetchScope c (held after.relays call.scope).toList entry.v entry.key = .ok data

/-- What a call promises of its result. -/
structure AllOrNothing (c : Cipher) (world : World) (call : Call) (answers : Answers)
    (result : World × Except Thrown Summary) : Prop where
  unread : readBack c world call answers = none →
    result.1 = world ∧ ∃ thrown, result.2 = .error thrown
  returned : ∀ summary, result.2 = .ok summary →
    ∃ entry, world.index.issued.find? (·.scope = call.scope) = some entry ∧
      Saved call entry world result.1
  recoverable : ∀ thrown, result.2 = .error thrown →
    (∃ set, .dataSet set ∈ result.1.since world) → Recoverable c call result.1

/-- No publication fails between the scope's and the index, and the log has room for a rotation that
is saved. -/
def Unbroken (c : Cipher) (world : World) (call : Call) (answers : Answers) : Prop :=
  ∀ entry data, readBack c world call answers = some (entry, data) →
    c.symEncrypt (stamped data call.ts) call.key ≠ none → answers.scope ≠ .refused →
      answers.scope = .taken ∧
      (∀ position, position < (call.keeps entry).length → answers.grant position = .taken) ∧
      (answers.save = .taken → call.events entry = [] ∨
        world.index.nvoyLedger.length + (call.events entry).length ≤ LEDGER_CAP)

/-! ### What a call does -/

variable {c : Cipher} {world : World} {call : Call} {answers : Answers}

theorem publish_fst (relays : List Published) (event : Published) (answer : Answer) :
    (publish relays event answer).1 = if answer = .refused then relays else relays ++ [event] := by
  cases answer <;> rfl

theorem sendGrants_taken {grant : Nat → Answer} (sents : List Sent) {position : Nat}
    (relays : List Published)
    (taken : ∀ i, i < sents.length → grant (position + i) = .taken) :
    sendGrants grant sents position relays = (relays ++ sents.map .grant, true) := by
  induction sents generalizing position relays with
  | nil => simp [sendGrants]
  | cons sent rest ih =>
      have first : grant position = .taken := taken 0 (by simp)
      have later : ∀ i, i < rest.length → grant (position + 1 + i) = .taken := by
        intro i inside
        rw [Nat.add_assoc, Nat.add_comm 1 i]
        exact taken (i + 1) (by simpa using inside)
      rw [sendGrants, first, publish]
      simp only
      rw [ih _ later]
      simp

/-- A grant that is not acknowledged stops the rest. -/
theorem sendGrants_failed {grant : Nat → Answer} (sents : List Sent) {position : Nat}
    (relays : List Published)
    (failed : ¬∀ i, i < sents.length → grant (position + i) = .taken) :
    ∃ count, sendGrants grant sents position relays =
      (relays ++ (sents.take count).map .grant, false) := by
  induction sents generalizing position relays with
  | nil => exact absurd (fun i inside => absurd inside (Nat.not_lt_zero i)) failed
  | cons sent rest ih =>
      rw [sendGrants]
      cases first : grant position with
      | taken =>
          have later : ¬∀ i, i < rest.length → grant (position + 1 + i) = .taken := by
            intro all
            refine failed fun i inside => ?_
            cases i with
            | zero => exact first
            | succ i =>
                rw [← Nat.add_assoc, Nat.add_right_comm]
                exact all i (by simpa using inside)
          obtain ⟨count, stopped⟩ := ih (relays ++ [.grant sent]) later
          refine ⟨count + 1, ?_⟩
          simp only [publish]
          rw [stopped]
          simp
      | lost => exact ⟨1, by simp [publish]⟩
      | refused => exact ⟨0, by simp [publish]⟩

theorem pubs_survivorsOf (index : Index) (nowSec : Int) (entry : IssuedEntry) :
    (survivorsOf index nowSec entry call.drop).map (·.pub) = call.keeps entry := by
  simp [survivorsOf, Call.keeps, Function.comp_def]

theorem unread_eq (none : readBack c world call answers = none) :
    ∃ thrown, rotateDropping c world call answers = (world, .error thrown) := by
  unfold rotateDropping
  unfold readBack at none
  cases found : world.index.issued.find? (·.scope = call.scope) with
  | none => exact ⟨_, rfl⟩
  | some entry =>
      cases query : answers.query with
      | none => exact ⟨_, rfl⟩
      | some events =>
          cases fetched : fetchScope c events entry.v entry.key with
          | ok data => simp [found, query, fetched] at none
          | stale => exact ⟨.unread .stale, by simp only [fetched]; rfl⟩
          | missing => exact ⟨.unread .missing, by simp only [fetched]; rfl⟩

theorem readBack_eq_some {entry : IssuedEntry} {data : Payload}
    (read : readBack c world call answers = some (entry, data)) :
    world.index.issued.find? (·.scope = call.scope) = some entry ∧
      ∃ events, answers.query = some events ∧
        fetchScope c events entry.v entry.key = .ok data := by
  unfold readBack at read
  cases found : world.index.issued.find? (·.scope = call.scope) with
  | none => simp [found] at read
  | some entry' =>
      cases query : answers.query with
      | none => simp [found, query] at read
      | some events =>
          simp only [found, query, Option.bind_eq_bind, Option.bind_some] at read
          split at read
          next data' fetched =>
            obtain ⟨rfl, rfl⟩ := Prod.mk.inj (Option.some.inj read)
            exact ⟨rfl, events, rfl, fetched⟩
          next => cases read

/-- The data set a call publishes. -/
def Call.dataSet (call : Call) (entry : IssuedEntry) (content : String) : DataSet :=
  ⟨call.scope, some (entry.v + 1), content⟩

/-- The 440s a call sends if it gets through. -/
def Call.sents (call : Call) (index : Index) (entry : IssuedEntry) : List Sent :=
  sentsOf call.scope (entry.v + 1) call.key entry.scopeName
    (survivorsOf index call.nowSec entry call.drop)

/-- The index a call saves. -/
def Call.after (call : Call) (index : Index) (entry : IssuedEntry) : Index :=
  rotated index entry call.key (survivorsOf index call.nowSec entry call.drop) call.makeEvents

/-- What a call that has read its scope does, by the answers. -/
inductive Outcome (c : Cipher) (world : World) (call : Call) (answers : Answers)
    (entry : IssuedEntry) (data : Payload) : World × Except Thrown Summary → Prop where
  /-- Nothing was published. -/
  | unpublished (thrown : Thrown)
      (quiet : c.symEncrypt (stamped data call.ts) call.key = none ∨ answers.scope = .refused) :
      Outcome c world call answers entry data (world, .error thrown)
  /-- The scope is republished, and the key is gone with the call. -/
  | broken (content : String) (count : Nat)
      (sealed : c.symEncrypt (stamped data call.ts) call.key = some content)
      (published : answers.scope ≠ .refused)
      (failed : ¬(answers.scope = .taken ∧
        ∀ position, position < (call.keeps entry).length → answers.grant position = .taken)) :
      Outcome c world call answers entry data
        (⟨world.index, world.relays ++ .dataSet (call.dataSet entry content) ::
          ((call.sents world.index entry).take count).map .grant⟩, .error .relays)
  /-- The key is in the index. -/
  | rotated (content : String)
      (sealed : c.symEncrypt (stamped data call.ts) call.key = some content)
      (published : answers.scope = .taken)
      (sent : ∀ position, position < (call.keeps entry).length → answers.grant position = .taken) :
      Outcome c world call answers entry data
        (⟨call.after world.index entry, world.relays ++ .dataSet (call.dataSet entry content) ::
            (call.sents world.index entry).map .grant ++
            (if answers.save = .refused then [] else [.index (call.after world.index entry)])⟩,
          if answers.save = .taken then .ok ⟨entry.v, entry.v + 1, call.keeps entry⟩
          else .error .relays)

theorem outcome {entry : IssuedEntry} {data : Payload}
    (read : readBack c world call answers = some (entry, data)) :
    Outcome c world call answers entry data (rotateDropping c world call answers) := by
  obtain ⟨found, events, query, fetched⟩ := readBack_eq_some read
  have named : entry.scope = call.scope := by simpa using List.find?_some found
  have length : (call.sents world.index entry).length = (call.keeps entry).length := by
    rw [Call.sents, sentsOf, List.length_map, ← pubs_survivorsOf, List.length_map]
  unfold rotateDropping
  simp only [found, query, fetched]
  rw [rotateWithTerms]
  cases sealed : c.symEncrypt (stamped data call.ts) call.key with
  | none => exact .unpublished .cipher (.inl sealed)
  | some content =>
      simp only [named]
      have broken (count : Nat) (published : answers.scope ≠ .refused)
          (failed : ¬(answers.scope = .taken ∧
            ∀ position, position < (call.keeps entry).length → answers.grant position = .taken)) :
          Outcome c world call answers entry data _ :=
        .broken content count sealed published failed
      cases scope : answers.scope with
      | refused => exact .unpublished .relays (.inr scope)
      | lost => exact broken 0 (by simp [scope]) fun taken => by simp [scope] at taken
      | taken =>
          by_cases sent : ∀ position, position < (call.keeps entry).length →
              answers.grant position = .taken
          · have all : sendGrants answers.grant (call.sents world.index entry) 0
                (world.relays ++ [.dataSet (call.dataSet entry content)]) = (_, true) :=
              sendGrants_taken _ _ fun position inside => by
                rw [Nat.zero_add]
                exact sent position (length ▸ inside)
            have done : Outcome c world call answers entry data _ :=
              .rotated content sealed scope sent
            rw [Call.sents, Call.dataSet] at all
            simp only [publish, all, pubs_survivorsOf]
            cases save : answers.save with
            | taken => simpa [save, Call.after, Call.sents, Call.dataSet] using done
            | lost => simpa [save, Call.after, Call.sents, Call.dataSet] using done
            | refused => simpa [save, Call.after, Call.sents, Call.dataSet] using done
          · obtain ⟨count, stopped⟩ := sendGrants_failed (call.sents world.index entry)
              (world.relays ++ [.dataSet (call.dataSet entry content)])
              (fun all => sent fun position inside => by
                have := all position (length ▸ inside)
                rwa [Nat.zero_add] at this)
            have stays := broken count (by simp [scope]) fun taken => sent taken.2
            rw [Call.sents, Call.dataSet] at stopped
            simp only [publish, stopped]
            simpa [Call.sents, Call.dataSet] using stays

/-! ### All or nothing -/

theorem dataSetOf_grants (scope : String) (sents : List Sent) :
    (sents.map Published.grant).filterMap (Published.dataSetOf scope) = [] := by
  simp [Published.dataSetOf]

/-- What the relays hold of the scope after a rotation has got so far. -/
theorem held_republished (relays : List Published) (set : DataSet) (sents : List Sent)
    (rest : List Published) (quiet : rest.filterMap (Published.dataSetOf set.scope) = []) :
    held (relays ++ .dataSet set :: sents.map .grant ++ rest) set.scope = some set := by
  rw [held, List.filterMap_append, List.filterMap_append, quiet, List.append_nil,
    List.filterMap_cons, dataSetOf_grants]
  simp [Published.dataSetOf]

theorem appendAll_eq_append_iff {log events : List LedgerEvent} :
    appendAll log events = log ++ events ↔
      events = [] ∨ log.length + events.length ≤ LEDGER_CAP := by
  cases events with
  | nil => simp [appendAll]
  | cons event rest =>
      have short : (appendLedger log event).length ≤ LEDGER_CAP := by
        rw [appendLedger, Recent.length_rtake]
        exact Nat.min_le_right _ _
      have whole : appendAll log (event :: rest) = (log ++ event :: rest).rtake LEDGER_CAP := by
        calc appendAll log (event :: rest)
          _ = appendAll (appendLedger log event) rest := by
              rw [appendAll, List.foldl_cons, appendAll]
          _ = (appendLedger log event ++ rest).rtake LEDGER_CAP := appendAll_eq short rest
          _ = _ := by
              rw [appendLedger, Recent.rtake_rtake_append, List.append_assoc, List.singleton_append]
      rw [whole]
      constructor
      · intro same
        have lengths := congrArg List.length same
        rw [Recent.length_rtake, List.length_append] at lengths
        exact .inr (by omega)
      · rintro (none | room)
        · cases none
        · exact Recent.rtake_of_le (by rwa [List.length_append])

theorem find?_rotated {index : Index} {entry : IssuedEntry} {scope : String}
    (found : index.issued.find? (·.scope = scope) = some entry) (changed : IssuedEntry)
    (named : changed.scope = scope) :
    (index.issued.map fun e => if e.scope ≠ scope then e else changed).find? (·.scope = scope) =
      some changed := by
  have mem := List.mem_of_find?_eq_some found
  have here : entry.scope = scope := by simpa using List.find?_some found
  generalize index.issued = issued at mem
  induction issued with
  | nil => exact absurd mem List.not_mem_nil
  | cons e rest ih =>
      rw [List.map_cons]
      by_cases ours : e.scope = scope
      · rw [if_neg (not_not.mpr ours), List.find?_cons_of_pos (by simpa using named)]
      · rw [if_pos ours, List.find?_cons_of_neg (by simpa using ours)]
        refine ih ((List.mem_cons.mp mem).resolve_left ?_)
        rintro rfl
        exact ours here

theorem filter_rotated (issued : List IssuedEntry) {scope : String} {changed : IssuedEntry}
    (named : changed.scope = scope) :
    (issued.map fun e => if e.scope ≠ scope then e else changed).filter (·.scope ≠ scope) =
      issued.filter (·.scope ≠ scope) := by
  induction issued with
  | nil => rfl
  | cons e rest ih =>
      rw [List.map_cons]
      by_cases ours : e.scope = scope
      · simpa [ours, named] using ih
      · simpa [ours] using ih

theorem since_append (world : World) (index : Index) (more : List Published) :
    World.since ⟨index, world.relays ++ more⟩ world = more := List.drop_left

theorem since_self (world : World) : world.since world = [] := List.drop_length

section Rotated

variable {entry : IssuedEntry} {data : Payload} {content : String}

theorem find?_after (found : world.index.issued.find? (·.scope = call.scope) = some entry) :
    (call.after world.index entry).issued.find? (·.scope = call.scope) =
      some ⟨call.scope, entry.scopeName, entry.v + 1, call.key, call.keeps entry⟩ := by
  have named : entry.scope = call.scope := by simpa using List.find?_some found
  rw [Call.after, rotated, named, pubs_survivorsOf]
  exact find?_rotated found ⟨call.scope, entry.scopeName, entry.v + 1, call.key, call.keeps entry⟩ rfl

/-- A rotation that has written its key into the index can be read. -/
theorem recoverable_rotated
    (found : world.index.issued.find? (·.scope = call.scope) = some entry)
    (sealed : c.symEncrypt (stamped data call.ts) call.key = some content) (saved : List Published)
    (quiet : saved.filterMap (Published.dataSetOf call.scope) = []) :
    Recoverable c call ⟨call.after world.index entry,
      world.relays ++ .dataSet (call.dataSet entry content) ::
        (call.sents world.index entry).map .grant ++ saved⟩ := by
  refine ⟨_, find?_after found, rfl, stamped data call.ts, ?_⟩
  have held := held_republished world.relays (call.dataSet entry content)
    (call.sents world.index entry) saved quiet
  rw [Call.dataSet] at held
  simp only [Call.dataSet, held, Option.toList_some, fetchScope,
    c.opens (stamped data call.ts) call.key content sealed]
  simp [Generation.above]

theorem saved_iff (found : world.index.issued.find? (·.scope = call.scope) = some entry) :
    Saved call entry world ⟨call.after world.index entry,
      world.relays ++ .dataSet (call.dataSet entry content) ::
        (call.sents world.index entry).map .grant ++ [.index (call.after world.index entry)]⟩ ↔
      call.events entry = [] ∨
        world.index.nvoyLedger.length + (call.events entry).length ≤ LEDGER_CAP := by
  have named : entry.scope = call.scope := by simpa using List.find?_some found
  have ledger : (call.after world.index entry).nvoyLedger =
      appendAll world.index.nvoyLedger (call.events entry) := by
    have count : (survivorsOf world.index call.nowSec entry call.drop).length =
        (call.keeps entry).length := by rw [← pubs_survivorsOf, List.length_map]
    rw [Call.after, rotated, count, Call.events]
  rw [← appendAll_eq_append_iff, ← ledger]
  refine ⟨fun saved => saved.ledger, fun same => ⟨?_, find?_after found, ?_, ?_, same⟩⟩
  · rw [List.getLast?_append_of_ne_nil _ (by simp), List.getLast?_singleton]
  · intro pub stays
    rw [List.append_assoc, since_append]
    rw [← pubs_survivorsOf world.index call.nowSec] at stays
    obtain ⟨s, mem, rfl⟩ := List.mem_map.mp stays
    refine ⟨⟨s.pub, call.scope, entry.v + 1, call.key, entry.scopeName, s.terms⟩, ?_, rfl, rfl, rfl,
      rfl⟩
    refine List.mem_cons_of_mem _ (List.mem_append_left _ (List.mem_map_of_mem ?_))
    exact List.mem_map.mpr ⟨s, mem, rfl⟩
  · rw [Call.after, rotated, named]
    exact filter_rotated world.index.issued rfl

end Rotated

/-- **Everything or nothing**, exactly where no publication fails between the scope's and the
index. -/
theorem allOrNothing_iff (fresh : ∀ e ∈ world.index.issued, e.key ≠ call.key) :
    AllOrNothing c world call answers (rotateDropping c world call answers) ↔
      Unbroken c world call answers := by
  rcases Option.eq_none_or_eq_some (readBack c world call answers) with none | ⟨⟨entry, data⟩, read⟩
  · obtain ⟨thrown, result⟩ := unread_eq none
    rw [result]
    constructor
    · intro _ entry data read
      rw [none] at read
      cases read
    · intro _
      refine ⟨fun _ => ⟨rfl, thrown, rfl⟩, fun summary ok => (by cases ok), ?_⟩
      rintro _ _ ⟨set, mem⟩
      rw [since_self] at mem
      cases mem
  · have found := (readBack_eq_some read).1
    have unread : ∀ {p : Prop}, readBack c world call answers = none → p := fun none => by
      rw [read] at none
      cases none
    have unbroken : Unbroken c world call answers ↔
        (c.symEncrypt (stamped data call.ts) call.key ≠ .none → answers.scope ≠ .refused →
          answers.scope = .taken ∧
          (∀ position, position < (call.keeps entry).length → answers.grant position = .taken) ∧
          (answers.save = .taken → call.events entry = [] ∨
            world.index.nvoyLedger.length + (call.events entry).length ≤ LEDGER_CAP)) := by
      refine ⟨fun unbroken => unbroken entry data read, fun unbroken entry' data' read' => ?_⟩
      obtain ⟨rfl, rfl⟩ := Prod.mk.inj (Option.some.inj (read.symm.trans read'))
      exact unbroken
    rw [unbroken]
    have outcome := outcome read
    generalize rotateDropping c world call answers = result at outcome ⊢
    cases outcome with
    | unpublished thrown quiet =>
        constructor
        · intro _ sealed published
          exact absurd quiet (not_or.mpr ⟨sealed, published⟩)
        · intro _
          refine ⟨unread, fun summary ok => (by cases ok), ?_⟩
          rintro _ _ ⟨set, mem⟩
          rw [since_self] at mem
          cases mem
    | broken content count sealed published failed =>
        constructor
        · -- The key was only in the call.
          intro whole
          obtain ⟨entry', found', key, -⟩ := whole.recoverable .relays rfl
            ⟨call.dataSet entry content, by rw [since_append]; exact List.mem_cons_self⟩
          exact absurd key (fresh entry' (List.mem_of_find?_eq_some found'))
        · intro through
          obtain ⟨taken, sent, -⟩ := through (by simp [sealed]) published
          exact absurd ⟨taken, sent⟩ failed
    | rotated content sealed published sent =>
        have through : (c.symEncrypt (stamped data call.ts) call.key ≠ .none →
            answers.scope ≠ .refused → answers.scope = .taken ∧
            (∀ position, position < (call.keeps entry).length → answers.grant position = .taken) ∧
            (answers.save = .taken → call.events entry = [] ∨
              world.index.nvoyLedger.length + (call.events entry).length ≤ LEDGER_CAP)) ↔
            (answers.save = .taken → call.events entry = [] ∨
              world.index.nvoyLedger.length + (call.events entry).length ≤ LEDGER_CAP) := by
          refine ⟨fun all => (all (by simp [sealed]) (by simp [published])).2.2, fun room _ _ => ?_⟩
          exact ⟨published, sent, room⟩
        rw [through]
        by_cases save : answers.save = .taken
        · have kept : ¬answers.save = .refused := by simp [save]
          rw [if_pos save, if_neg kept]
          constructor
          · rintro whole -
            obtain ⟨entry', found', saved⟩ := whole.returned _ rfl
            obtain rfl := Option.some.inj (found.symm.trans found')
            exact (saved_iff found).mp saved
          · intro room
            refine ⟨unread, fun _ _ => ⟨entry, found, (saved_iff found).mpr (room save)⟩, ?_⟩
            intro thrown error
            cases error
        · rw [if_neg save]
          refine ⟨fun _ taken => absurd taken save, fun _ => ⟨unread, fun _ ok => (by cases ok), ?_⟩⟩
          intro thrown _ _
          refine recoverable_rotated found sealed _ ?_
          split
          · rfl
          · rfl

/-! ### A survivor that no relay takes -/

def samplePayload : Payload := stamped .empty 50

def sealOf (key : ScopeKey) : String := s!"sealed under {key.draw}"

/-- A cipher that seals one payload. -/
def sampleCipher : Cipher where
  symEncrypt data key :=
    match data.entries with
    | [("updated_at", .num 50 0)] => some (sealOf key)
    | _ => none
  symDecrypt content key := if content = sealOf key then some samplePayload else none
  opens data key content sealed := by
    obtain ⟨entries, nodup⟩ := data
    simp only at sealed
    split at sealed
    next =>
      rw [if_pos (Option.some.inj sealed).symm]
      rfl
    next => cases sealed

def sampleWorld : World :=
  ⟨⟨[⟨"travel", "Travel", 1, ⟨0⟩, ["ann", "bob"]⟩], []⟩,
    [.dataSet ⟨"travel", some 1, sealOf ⟨0⟩⟩]⟩

/-- Ann is revoked. -/
def sampleCall : Call :=
  ⟨60, 50, "travel", ["ann"], ⟨1⟩, revokeEvents 60 "travel" "ann" ""⟩

def sampleAnswers (grant : Answer) : Answers :=
  ⟨some [⟨"travel", some 1, sealOf ⟨0⟩⟩], .taken, fun _ => grant, .taken⟩

theorem rotated_sample :
    (rotateDropping sampleCipher sampleWorld sampleCall (sampleAnswers .taken)).2 =
      .ok ⟨1, 2, ["bob"]⟩ ∧
    AllOrNothing sampleCipher sampleWorld sampleCall (sampleAnswers .taken)
      (rotateDropping sampleCipher sampleWorld sampleCall (sampleAnswers .taken)) := by
  refine ⟨by rfl, (allOrNothing_iff ?_).mpr ?_⟩
  · decide
  · intro entry data read _ _
    obtain rfl : ⟨"travel", "Travel", 1, ⟨0⟩, ["ann", "bob"]⟩ = entry :=
      Option.some.inj (readBack_eq_some read).1
    refine ⟨rfl, fun _ _ => rfl, fun _ => .inr ?_⟩
    rw [LEDGER_CAP_eq]
    decide

/-- No relay takes Bob's grant: the scope is sealed under a key that is nowhere, and reads as stale
for good. -/
theorem key_lost :
    rotateDropping sampleCipher sampleWorld sampleCall (sampleAnswers .refused) =
      (⟨sampleWorld.index, sampleWorld.relays ++ [.dataSet ⟨"travel", some 2, sealOf ⟨1⟩⟩]⟩,
        .error .relays) ∧
    ¬AllOrNothing sampleCipher sampleWorld sampleCall (sampleAnswers .refused)
      (rotateDropping sampleCipher sampleWorld sampleCall (sampleAnswers .refused)) := by
  have result : rotateDropping sampleCipher sampleWorld sampleCall (sampleAnswers .refused) =
      (⟨sampleWorld.index, sampleWorld.relays ++ [.dataSet ⟨"travel", some 2, sealOf ⟨1⟩⟩]⟩,
        .error .relays) := by rfl
  refine ⟨result, fun whole => ?_⟩
  rw [result] at whole
  obtain ⟨entry, found, key, -⟩ := whole.recoverable .relays rfl
    ⟨_, by rw [since_append]; exact List.mem_singleton_self _⟩
  obtain rfl : ⟨"travel", "Travel", 1, ⟨0⟩, ["ann", "bob"]⟩ = entry := Option.some.inj found
  exact absurd key (by decide)

/-! ### The desk -/

def Sent.message (sent : Sent) : Message :=
  .grant ⟨sent.scope, sent.agent, sent.v, sent.terms, true⟩

def Published.message : Published → Option Message
  | .dataSet set => set.v.map (.scope set.scope)
  | .grant sent => some sent.message
  | .index _ => none

/-- The publications of a call, as far as it gets, are those of the rotation. -/
theorem messages_published (call : Call) (index : Index) (entry : IssuedEntry) (content : String) (count : Nat) :
    (.dataSet (call.dataSet entry content) ::
      ((call.sents index entry).take count).map .grant).filterMap Published.message =
      (Console.rotateWithTerms call.scope entry.v
        (survivorsOf index call.nowSec entry call.drop)).take (count + 1) := by
  have sents : (call.sents index entry).map Sent.message =
      (survivorsOf index call.nowSec entry call.drop).map fun s =>
        .grant ⟨call.scope, s.pub, entry.v + 1, s.terms, true⟩ := by
    simp [Call.sents, sentsOf, Sent.message]
  have grants : (((call.sents index entry).take count).map Published.grant).filterMap
      Published.message = ((call.sents index entry).map Sent.message).take count := by
    rw [List.filterMap_map, ← List.map_take, ← List.filterMap_eq_map]
    rfl
  rw [List.filterMap_cons, grants, sents]
  rfl

theorem index_notMem (index : Index) (set : DataSet) (sents : List Sent) :
    Published.index index ∉ Published.dataSet set :: sents.map .grant := by
  simp

/-- **A call is a rotation of the desk** that stops where the call does; the desk has the index as
the relays have it. -/
theorem rotate_desk {entry : IssuedEntry} {data : Payload}
    (read : readBack c world call answers = some (entry, data)) (desk : Desk)
    (same : desk.index = world.index) :
    ∃ progress desk', desk' =
        desk.rotate call.nowSec call.scope call.drop .ok call.key call.makeEvents progress ∧
      desk'.messages = desk.messages ++
        ((rotateDropping c world call answers).1.since world).filterMap Published.message ∧
      desk'.index = if .index (call.after world.index entry) ∈
          (rotateDropping c world call answers).1.since world
        then call.after world.index entry else world.index := by
  have found := (readBack_eq_some read).1
  have named : entry.scope = call.scope := by simpa using List.find?_some found
  have rotates : ∀ progress,
      desk.rotate call.nowSec call.scope call.drop .ok call.key call.makeEvents progress =
        desk.perform (Console.rotateWithTerms call.scope entry.v
          (survivorsOf world.index call.nowSec entry call.drop))
          (call.after world.index entry) progress := by
    intro progress
    rw [Desk.rotate, Console.rotateDropping, same, found]
    simp only [if_true, named, Call.after, rotated]
  have all : ∀ content, (.dataSet (call.dataSet entry content) ::
      (call.sents world.index entry).map .grant).filterMap Published.message =
      Console.rotateWithTerms call.scope entry.v
        (survivorsOf world.index call.nowSec entry call.drop) := by
    intro content
    have whole := messages_published call world.index entry content
      (call.sents world.index entry).length
    rwa [List.take_length, List.take_of_length_le (by
      simp [Console.rotateWithTerms, Call.sents, sentsOf])] at whole
  have outcome := outcome read
  generalize rotateDropping c world call answers = result at outcome ⊢
  cases outcome with
  | unpublished thrown quiet =>
      refine ⟨.stopped 0, _, rfl, ?_⟩
      rw [rotates, since_self]
      exact ⟨by simp [Desk.perform], by simp [Desk.perform, same]⟩
  | broken content count sealed published failed =>
      refine ⟨.stopped (count + 1), _, rfl, ?_⟩
      rw [rotates, since_append, if_neg (index_notMem _ _ _), messages_published]
      exact ⟨rfl, same⟩
  | rotated content sealed published sent =>
      rw [List.append_assoc, since_append]
      by_cases save : answers.save = .refused
      · refine ⟨.stopped (Console.rotateWithTerms call.scope entry.v
          (survivorsOf world.index call.nowSec entry call.drop)).length, _, rfl, ?_⟩
        rw [rotates, if_pos save, List.append_nil, if_neg (index_notMem _ _ _), all]
        exact ⟨by rw [Desk.perform, List.take_length], same⟩
      · refine ⟨.saved, _, rfl, ?_⟩
        rw [rotates, if_neg save, if_pos (by simp), List.filterMap_append, all]
        exact ⟨by simp [Desk.perform, Published.message], rfl⟩

theorem rotate_desk_sample : ∃ progress, ({ Desk.blank with index := sampleWorld.index }.rotate 60 "travel"
    ["ann"] .ok ⟨1⟩ sampleCall.makeEvents progress).messages =
      ((rotateDropping sampleCipher sampleWorld sampleCall (sampleAnswers .taken)).1.since
        sampleWorld).filterMap Published.message := by
  have read : readBack sampleCipher sampleWorld sampleCall (sampleAnswers .taken) =
      some (⟨"travel", "Travel", 1, ⟨0⟩, ["ann", "bob"]⟩, samplePayload) := rfl
  obtain ⟨progress, _, rfl, messages, -⟩ := rotate_desk read { Desk.blank with index := sampleWorld.index } rfl
  exact ⟨progress, messages⟩

end Nvoy.Console.Republish
