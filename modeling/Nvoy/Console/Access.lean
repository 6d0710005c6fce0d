/-
**Who can read a scope** that the console issues, hands over and rotates.

The console works on one Grant Index, over relays that refuse a publication or take it without an
acknowledgement, and it loads the index again at any time.

* `issue`, `addGrantee`, `redeliver` — the source's functions, beside `rotateDropping`;
* `Fits` — a grant beside the data set of its scope: it opens it, or it is behind in its generation
  and in its key;
* `Sound` — every grant and every entry of an index fits, and who is listed was sent the entry's key;
* `step_sound` — every act keeps it;
* `grantees_read` — where the delegator reads its scope, every grantee does;
* `dropped_stays_out` — who a rotation dropped reads the scope no more until it is granted again.
-/

import Nvoy.Console.Republish

namespace Nvoy.Console.Access

open Grants (Answer IssuedEntry ScopeKey Generation)
open Republish
open Runs (run Meets)

/-! ### The code -/

/-- What the form issues, under an id and a key that were just drawn. -/
structure Issue where
  scopeId : String
  scopeKey : ScopeKey
  scopeName : String
  agent : String
  payload : Payload
  ts : Int
  terms : Terms
  granted : LedgerEvent
  scope : Answer
  grant : Answer
  save : Answer

/-- `$('dg-issue').onclick` -/
def issue (c : Cipher) (world : World) (i : Issue) : World :=
  match c.symEncrypt (stamped i.payload i.ts) i.scopeKey with
  | none => world
  | some content =>
    match publish world.relays (.dataSet ⟨i.scopeId, some 1, content⟩) i.scope with
    | (relays, false) => ⟨world.index, relays⟩
    | (relays, true) =>
      match publish relays (.grant ⟨i.agent, i.scopeId, 1, i.scopeKey, i.scopeName, some i.terms⟩) i.grant with
      | (relays, false) => ⟨world.index, relays⟩
      | (relays, true) =>
        let index : Index := {
          issued := world.index.issued ++ [⟨i.scopeId, i.scopeName, 1, i.scopeKey, [i.agent]⟩]
          nvoyLedger := appendLedger world.index.nvoyLedger i.granted }
        ⟨index, (publish relays (.index index) i.save).1⟩

/-- `entry.grantees = [...entry.grantees, newPub]`, in the entry that was found. -/
def addTo (scope newPub : String) : List IssuedEntry → List IssuedEntry
  | [] => []
  | entry :: rest =>
    if entry.scope = scope then { entry with grantees := entry.grantees ++ [newPub] } :: rest
    else entry :: addTo scope newPub rest

structure Handover where
  scope : String
  newPub : String
  terms : Terms
  granted : LedgerEvent
  grant : Answer
  save : Answer

def addGrantee (world : World) (h : Handover) : World :=
  match world.index.issued.find? (·.scope = h.scope) with
  | none => world
  | some entry =>
    if entry.grantees.contains h.newPub then world
    else
      match publish world.relays
          (.grant ⟨h.newPub, h.scope, entry.v, entry.key, entry.scopeName, some h.terms⟩) h.grant with
      | (relays, false) => ⟨world.index, relays⟩
      | (relays, true) =>
        let index : Index := {
          issued := addTo h.scope h.newPub world.index.issued
          nvoyLedger := appendLedger world.index.nvoyLedger h.granted }
        ⟨index, (publish relays (.index index) h.save).1⟩

/-- The two queries, for the event and for its value, and the publications. -/
structure Redelivery where
  scope : String
  agent : String
  terms : Option Terms
  query : Option (List DataSet)
  again : Option (List DataSet)
  rebroadcast : Answer
  grant : Answer

def redeliver (c : Cipher) (world : World) (r : Redelivery) : World :=
  match world.index.issued.find? (·.scope = r.scope), r.query, r.again, r.terms with
  | some entry, some (event :: _), some events, some terms =>
    match fetchScope c events entry.v entry.key with
    | .ok _ =>
      match publish world.relays (.dataSet event) r.rebroadcast with
      | (relays, false) => ⟨world.index, relays⟩
      | (relays, true) =>
        ⟨world.index, (publish relays
          (.grant ⟨r.agent, r.scope, entry.v, entry.key, entry.scopeName, some terms⟩) r.grant).1⟩
    | _ => world
  | _, _, _, _ => world

inductive Act
  | issue (i : Issue)
  | rotate (call : Call) (answers : Answers)
  | addGrantee (h : Handover)
  | redeliver (r : Redelivery)
  /-- `load()`; nothing is found where no relay answers in time. -/
  | load (found : Option Index)

def step (c : Cipher) (world : World) : Act → World
  | .issue i => issue c world i
  | .rotate call answers => (Republish.rotateDropping c world call answers).1
  | .addGrantee h => addGrantee world h
  | .redeliver r => redeliver c world r
  | .load found => { world with index := found.getD .blank }

/-! ### What is relied on -/

/-- No other key opens what was sealed: the MAC does not fit. -/
def Sealed (c : Cipher) : Prop :=
  ∀ data key content other, c.symEncrypt data key = some content → other ≠ key →
    c.symDecrypt content other = none

/-- An index the console has, or has saved. -/
def World.Has (world : World) (index : Index) : Prop := index = world.index ∨ .index index ∈ world.relays

/-- A key that was just drawn. -/
structure Unused (world : World) (key : ScopeKey) : Prop where
  sent : ∀ sent, .grant sent ∈ world.relays → sent.key ≠ key
  listed : ∀ index, World.Has world index → ∀ entry ∈ index.issued, entry.key ≠ key

/-- The relays answer a query with the data set they hold, with nothing, or not at all. -/
def Answered (world : World) (scope : String) (query : Option (List DataSet)) : Prop :=
  ∀ events, query = some events → events = [] ∨ events = (held world.relays scope).toList

/-- The index that was saved last. -/
def savedIndex (relays : List Published) : Option Index :=
  (relays.filterMap fun
    | .index index => some index
    | _ => none).getLast?

/-- Ids and keys are drawn fresh, and the relays make nothing up. -/
def Honest (world : World) : Act → Prop
  | .issue i => held world.relays i.scopeId = none ∧ Unused world i.scopeKey
  | .rotate call answers => Answered world call.scope answers.query ∧ Unused world call.key
  | .addGrantee _ => True
  | .redeliver r => Answered world r.scope r.query ∧ Answered world r.scope r.again
  | .load found => found = none ∨ found = savedIndex world.relays

/-! ### The invariant -/

/-- A generation and a key beside the data set of the scope. -/
inductive Fits (c : Cipher) (set : DataSet) (v : Nat) (key : ScopeKey) : Prop
  | opens (data : Payload) (current : set.v = some v) (opened : c.symDecrypt set.content key = some data)
  | behind (now : Nat) (newer : set.v = some now) (older : v < now) (shut : c.symDecrypt set.content key = none)

/-- The grant was taken by a relay. -/
def Sends (relays : List Published) (agent scope : String) (v : Nat) (key : ScopeKey) : Prop :=
  ∃ sent, .grant sent ∈ relays ∧ sent.agent = agent ∧ sent.scope = scope ∧ sent.v = v ∧ sent.key = key

structure Backed (c : Cipher) (relays : List Published) (entry : IssuedEntry) : Prop where
  fits : ∃ set, held relays entry.scope = some set ∧ Fits c set entry.v entry.key
  sends : ∀ agent ∈ entry.grantees, Sends relays agent entry.scope entry.v entry.key

structure Sound (c : Cipher) (world : World) : Prop where
  sents : ∀ sent, .grant sent ∈ world.relays →
    ∃ set, held world.relays sent.scope = some set ∧ Fits c set sent.v sent.key
  entries : ∀ index, World.Has world index → ∀ entry ∈ index.issued, Backed c world.relays entry
  seals : ∀ scope set, held world.relays scope = some set →
    ∃ data key, c.symEncrypt data key = some set.content

section Fitting

variable {c : Cipher} {set : DataSet} {v : Nat} {key : ScopeKey} {data : Payload}

theorem Fits.fetch_eq_ok (fits : Fits c set v key) :
    fetchScope c [set] v key = .ok data ↔ set.v = some v ∧ c.symDecrypt set.content key = some data := by
  cases fits with
  | opens data' current opened => simp [fetchScope, current, opened, Generation.above]
  | behind now newer older shut => simp [fetchScope, newer, older, shut, Generation.above]

theorem Fits.stale {now : Nat} (fits : Fits c set v key) (newer : set.v = some now) (older : v < now) :
    fetchScope c [set] v key = .stale ∧ c.symDecrypt set.content key = none := by
  cases fits with
  | opens data current opened =>
      rw [newer] at current
      exact absurd (Option.some_inj.mp current) older.ne'
  | behind _ _ _ shut => exact ⟨by simp [fetchScope, newer, older, Generation.above], shut⟩

theorem Fits.le {now : Nat} (fits : Fits c set v key) (there : set.v = some now) : v ≤ now := by
  cases fits with
  | opens data current opened => exact (Option.some_inj.mp (current.symm.trans there)).le
  | behind later newer older shut =>
      obtain rfl := Option.some_inj.mp (newer.symm.trans there)
      exact older.le

end Fitting

/-! ### What a publication changes -/

section Publications

variable {c : Cipher} {world : World} {scope : String}

theorem held_dataSet (relays : List Published) (set : DataSet) :
    held (relays ++ [.dataSet set]) scope = if set.scope = scope then some set else held relays scope := by
  unfold held
  rw [List.filterMap_append]
  split_ifs with here
  · simp [Published.dataSetOf, here]
  · simp [Published.dataSetOf, here]

theorem held_quiet (relays : List Published) {event : Published} (quiet : event.dataSetOf scope = none) :
    held (relays ++ [event]) scope = held relays scope := by
  simp [held, quiet]

theorem Sends.append {relays : List Published} {agent : String} {v : Nat} {key : ScopeKey}
    (sends : Sends relays agent scope v key) (more : List Published) :
    Sends (relays ++ more) agent scope v key :=
  have ⟨sent, taken, same⟩ := sends
  ⟨sent, List.mem_append_left more taken, same⟩

theorem Backed.quiet {relays : List Published} {entry : IssuedEntry} (backed : Backed c relays entry)
    {event : Published} (quiet : ∀ scope, event.dataSetOf scope = none) :
    Backed c (relays ++ [event]) entry where
  fits := by
    rw [held_quiet relays (quiet entry.scope)]
    exact backed.fits
  sends agent listed := (backed.sends agent listed).append [event]

/-- A grant that fits. -/
theorem Sound.grant (sound : Sound c world) (sent : Sent)
    (fits : ∃ set, held world.relays sent.scope = some set ∧ Fits c set sent.v sent.key) :
    Sound c ⟨world.index, world.relays ++ [.grant sent]⟩ where
  sents other taken := by
    rw [held_quiet world.relays rfl]
    obtain old | new := List.mem_append.mp taken
    · exact sound.sents other old
    · cases List.mem_singleton.mp new
      exact fits
  entries index has entry member := by
    refine (sound.entries index ?_ entry member).quiet fun _ => rfl
    refine has.imp_right fun taken => (List.mem_append.mp taken).resolve_right ?_
    simp
  seals scope set there := by
    rw [held_quiet world.relays rfl] at there
    exact sound.seals scope set there

/-- An index whose entries are backed, in memory. -/
theorem Sound.indexed (sound : Sound c world) {index : Index}
    (backed : ∀ entry ∈ index.issued, Backed c world.relays entry) : Sound c ⟨index, world.relays⟩ where
  sents := sound.sents
  seals := sound.seals
  entries other has entry member := by
    obtain rfl | saved := has
    · exact backed entry member
    · exact sound.entries other (.inr saved) entry member

/-- The index is saved. -/
theorem Sound.saved (sound : Sound c world) : Sound c ⟨world.index, world.relays ++ [.index world.index]⟩ where
  sents sent taken := by
    rw [held_quiet world.relays rfl]
    refine sound.sents sent ((List.mem_append.mp taken).resolve_right ?_)
    simp
  entries index has entry member := by
    refine (sound.entries index ?_ entry member).quiet fun _ => rfl
    obtain rfl | taken := has
    · exact .inl rfl
    · obtain old | new := List.mem_append.mp taken
      · exact .inr old
      · cases List.mem_singleton.mp new
        exact .inl rfl
  seals scope set there := by
    rw [held_quiet world.relays rfl] at there
    exact sound.seals scope set there

/-- A data set that is ahead of all that was sent and listed. -/
theorem Sound.dataSet (sound : Sound c world) {set : DataSet} {data : Payload} {key : ScopeKey}
    (sealed : c.symEncrypt data key = some set.content)
    (sents : ∀ sent, .grant sent ∈ world.relays → sent.scope = set.scope → Fits c set sent.v sent.key)
    (entries : ∀ index, World.Has world index → ∀ entry ∈ index.issued, entry.scope = set.scope →
      Fits c set entry.v entry.key) :
    Sound c ⟨world.index, world.relays ++ [.dataSet set]⟩ where
  sents sent taken := by
    have old : .grant sent ∈ world.relays := (List.mem_append.mp taken).resolve_right (by simp)
    rw [held_dataSet]
    split_ifs with here
    · exact ⟨set, rfl, sents sent old here.symm⟩
    · exact sound.sents sent old
  entries index has entry member := by
    have has : World.Has world index := has.imp_right fun taken =>
      (List.mem_append.mp taken).resolve_right (by simp)
    have backed := sound.entries index has entry member
    refine ⟨?_, fun agent listed => (backed.sends agent listed).append _⟩
    rw [held_dataSet]
    split_ifs with here
    · exact ⟨set, rfl, entries index has entry member here.symm⟩
    · exact backed.fits
  seals scope set' there := by
    rw [held_dataSet] at there
    split_ifs at there with here
    · obtain rfl := Option.some_inj.mp there
      exact ⟨data, key, sealed⟩
    · exact sound.seals scope set' there

/-- The relays take a data set again that they hold. -/
theorem Sound.rebroadcast (sound : Sound c world) (set : DataSet) (there : held world.relays set.scope = some set) :
    Sound c ⟨world.index, world.relays ++ [.dataSet set]⟩ := by
  have same : ∀ scope, held (world.relays ++ [.dataSet set]) scope = held world.relays scope := by
    intro scope
    rw [held_dataSet]
    split_ifs with here
    · exact (here ▸ there).symm
    · rfl
  constructor
  case sents =>
    intro sent taken
    rw [same]
    exact sound.sents sent ((List.mem_append.mp taken).resolve_right (by simp))
  case entries =>
    intro index has entry member
    have has : World.Has world index := has.imp_right fun taken =>
      (List.mem_append.mp taken).resolve_right (by simp)
    have backed := sound.entries index has entry member
    exact ⟨same entry.scope ▸ backed.fits, fun agent listed => (backed.sends agent listed).append _⟩
  case seals =>
    intro scope set' held
    exact sound.seals scope set' (same scope ▸ held)

theorem Sound.grants (sound : Sound c world) {sents : List Sent}
    (fits : ∀ sent ∈ sents, ∃ set, held world.relays sent.scope = some set ∧ Fits c set sent.v sent.key) :
    Sound c ⟨world.index, world.relays ++ sents.map .grant⟩ := by
  induction sents using List.reverseRecOn with
  | nil => simpa using sound
  | append_singleton front last ih =>
      have before := ih fun sent member => fits sent (List.mem_append_left _ member)
      rw [List.map_append, List.map_singleton, ← List.append_assoc]
      refine before.grant last ?_
      show ∃ set, held (world.relays ++ front.map .grant) last.scope = some set ∧ _
      have quiet : held (world.relays ++ front.map .grant) last.scope = held world.relays last.scope := by
        rw [held, held, List.filterMap_append, dataSetOf_grants, List.append_nil]
      rw [quiet]
      exact fits last (List.mem_append_right _ (List.mem_singleton_self last))

theorem Sound.publish_index (sound : Sound c world) (answer : Answer) :
    Sound c ⟨world.index, (publish world.relays (.index world.index) answer).1⟩ := by
  cases answer with
  | taken => exact sound.saved
  | lost => exact sound.saved
  | refused => exact sound

end Publications

/-! ### What an act changes -/

section Acts

variable {c : Cipher} {world : World}

/-- What is behind a data set that is sealed under a fresh key. -/
theorem behind_fresh (sealed : Sealed c) {data : Payload} {key other : ScopeKey} {content scope : String}
    {v now : Nat} (encrypted : c.symEncrypt data key = some content) (fresh : other ≠ key) (older : v < now) :
    Fits c ⟨scope, some now, content⟩ v other :=
  .behind now rfl older (sealed data key content other encrypted fresh)

theorem issue_sound (sound : Sound c world) {i : Issue}
    (unheld : held world.relays i.scopeId = none) : Sound c (issue c world i) := by
  unfold issue
  split
  next => exact sound
  next content encrypted =>
    -- the id is new: nothing was sent or listed under it
    have nothing : ∀ {scope set}, held world.relays scope = some set → scope = i.scopeId → False := by
      rintro _ set there rfl
      rw [unheld] at there
      cases there
    have published : Sound c ⟨world.index, world.relays ++ [.dataSet ⟨i.scopeId, some 1, content⟩]⟩ := by
      refine sound.dataSet encrypted (fun sent taken here => ?_) fun index has entry member here => ?_
      · obtain ⟨set, there, -⟩ := sound.sents sent taken
        exact (nothing there here).elim
      · obtain ⟨set, there, -⟩ := (sound.entries index has entry member).fits
        exact (nothing there here).elim
    have fits : ∃ set, held (world.relays ++ [.dataSet ⟨i.scopeId, some 1, content⟩]) i.scopeId = some set ∧
        Fits c set 1 i.scopeKey :=
      ⟨_, by rw [held_dataSet, if_pos rfl], .opens _ rfl (c.opens _ _ _ encrypted)⟩
    cases i.scope with
    | refused => exact sound
    | lost => exact published
    | taken =>
        have sent := published.grant ⟨i.agent, i.scopeId, 1, i.scopeKey, i.scopeName, some i.terms⟩ fits
        cases i.grant with
        | refused => exact published
        | lost => exact sent
        | taken =>
            refine Sound.publish_index (sent.indexed fun entry member => ?_) i.save
            obtain old | new := List.mem_append.mp member
            · exact sent.entries world.index (.inl rfl) entry old
            · obtain rfl := List.mem_singleton.mp new
              refine ⟨?_, fun agent listed => ?_⟩
              · obtain ⟨set, there, fits⟩ := fits
                exact ⟨set, by rw [held_quiet _ rfl]; exact there, fits⟩
              · obtain rfl := List.mem_singleton.mp listed
                exact ⟨_, List.mem_append_right _ (List.mem_singleton_self _), rfl, rfl, rfl, rfl⟩

/-- The entry that was found has one grantee more. -/
theorem mem_addTo {scope newPub : String} {issued : List IssuedEntry} {entry changed : IssuedEntry}
    (found : issued.find? (·.scope = scope) = some entry) (member : changed ∈ addTo scope newPub issued) :
    changed ∈ issued ∨ changed = { entry with grantees := entry.grantees ++ [newPub] } := by
  induction issued with
  | nil => cases found
  | cons first rest ih =>
      unfold addTo at member
      split_ifs at member with here
      · rw [List.find?_cons_of_pos (by simpa using here)] at found
        obtain rfl := Option.some_inj.mp found
        exact (List.mem_cons.mp member).symm.imp_left (List.mem_cons_of_mem first)
      · rw [List.find?_cons_of_neg (by simpa using here)] at found
        obtain rfl | later := List.mem_cons.mp member
        · exact .inl List.mem_cons_self
        · exact (ih found later).imp_left (List.mem_cons_of_mem first)

theorem addGrantee_sound (sound : Sound c world) (h : Handover) : Sound c (addGrantee world h) := by
  unfold addGrantee
  split
  next => exact sound
  next entry found =>
    split_ifs
    · exact sound
    · have listed := List.mem_of_find?_eq_some found
      have named : entry.scope = h.scope := by simpa using List.find?_some found
      have fits := (sound.entries world.index (.inl rfl) entry listed).fits
      have sent := sound.grant ⟨h.newPub, h.scope, entry.v, entry.key, entry.scopeName, some h.terms⟩
        (named ▸ fits)
      cases h.grant with
      | refused => exact sound
      | lost => exact sent
      | taken =>
          refine Sound.publish_index (sent.indexed fun changed member => ?_) h.save
          obtain old | rfl := mem_addTo found member
          · exact sent.entries world.index (.inl rfl) changed old
          · have backed := sent.entries world.index (.inl rfl) entry listed
            refine ⟨backed.fits, fun agent member => ?_⟩
            obtain old | new := List.mem_append.mp member
            · exact backed.sends agent old
            · obtain rfl := List.mem_singleton.mp new
              exact ⟨_, List.mem_append_right _ (List.mem_singleton_self _), rfl, named.symm, rfl, rfl⟩

/-- What an honest answer holds, where it is not empty. -/
theorem Answered.held_eq {scope : String} {query : Option (List DataSet)} (answered : Answered world scope query)
    {event : DataSet} {events : List DataSet} (given : query = some (event :: events)) :
    held world.relays scope = some event ∧ events = [] := by
  obtain nothing | all := answered _ given
  · cases nothing
  · cases there : held world.relays scope with
    | none =>
        rw [there] at all
        cases all
    | some set =>
        rw [there] at all
        obtain ⟨rfl, rfl⟩ := List.cons_eq_cons.mp all
        exact ⟨rfl, rfl⟩

theorem scope_of_held {relays : List Published} {scope : String} {set : DataSet}
    (there : held relays scope = some set) : set.scope = scope := by
  obtain ⟨event, -, same⟩ := List.mem_filterMap.mp (List.mem_of_getLast? there)
  cases event with
  | dataSet other =>
      rw [Published.dataSetOf] at same
      split_ifs at same with here
      exact Option.some_inj.mp same ▸ here
  | grant sent => cases same
  | index index => cases same

theorem redeliver_sound (sound : Sound c world) {r : Redelivery}
    (query : Answered world r.scope r.query) : Sound c (redeliver c world r) := by
  unfold redeliver
  split
  next entry event rest events terms found asked again kept =>
    split
    next =>
      have listed := List.mem_of_find?_eq_some found
      have named : entry.scope = r.scope := by simpa using List.find?_some found
      obtain ⟨there, -⟩ := query.held_eq asked
      have sent := sound.rebroadcast event ((scope_of_held there).symm ▸ there)
      cases r.rebroadcast with
      | refused => exact sound
      | lost => exact sent
      | taken =>
          have fits := (sent.entries world.index (.inl rfl) entry listed).fits
          have granted := sent.grant ⟨r.agent, r.scope, entry.v, entry.key, entry.scopeName, some terms⟩
            (named ▸ fits)
          show Sound c ⟨world.index, (publish _ _ r.grant).1⟩
          cases r.grant with
          | refused => exact sent
          | lost => exact granted
          | taken => exact granted
    next => exact sound
  next => exact sound

/-- What a call that reads its scope has read: the data set that is held, under the entry's own generation. -/
theorem read_held {call : Call} {answers : Answers} {entry : IssuedEntry} {data : Payload}
    (sound : Sound c world) (query : Answered world call.scope answers.query)
    (read : readBack c world call answers = some (entry, data)) :
    entry ∈ world.index.issued ∧ entry.scope = call.scope ∧ ∃ set, held world.relays call.scope = some set ∧
      set.v = some entry.v := by
  obtain ⟨found, events, given, fetched⟩ := readBack_eq_some read
  have listed := List.mem_of_find?_eq_some found
  have named : entry.scope = call.scope := by simpa using List.find?_some found
  refine ⟨listed, named, ?_⟩
  cases events with
  | nil => simp [fetchScope] at fetched
  | cons event rest =>
      obtain ⟨there, rfl⟩ := query.held_eq given
      obtain ⟨set, same, fits⟩ := (sound.entries world.index (.inl rfl) entry listed).fits
      rw [named, there] at same
      obtain rfl := Option.some_inj.mp same
      exact ⟨event, there, (fits.fetch_eq_ok.mp fetched).1⟩

/-- A rotation has published its data set and some of its grants. -/
theorem republished_sound (sealed : Sealed c) (sound : Sound c world) {call : Call} {entry : IssuedEntry}
    {data : Payload} {content : String} {set : DataSet}
    (there : held world.relays call.scope = some set) (current : set.v = some entry.v)
    (unused : Unused world call.key) (encrypted : c.symEncrypt (stamped data call.ts) call.key = some content)
    (count : Nat) : Sound c ⟨world.index, world.relays ++ .dataSet (call.dataSet entry content) ::
      ((call.sents world.index entry).take count).map .grant⟩ := by
  have published : Sound c ⟨world.index, world.relays ++ [.dataSet (call.dataSet entry content)]⟩ := by
    refine sound.dataSet encrypted (fun sent taken here => ?_) fun index has listed member here => ?_
    · obtain ⟨before, same, fits⟩ := sound.sents sent taken
      rw [here] at same
      obtain rfl := Option.some_inj.mp (there.symm.trans same)
      exact behind_fresh sealed encrypted (unused.sent sent taken) (Nat.lt_succ_of_le (fits.le current))
    · obtain ⟨before, same, fits⟩ := (sound.entries index has listed member).fits
      rw [here] at same
      obtain rfl := Option.some_inj.mp (there.symm.trans same)
      exact behind_fresh sealed encrypted (unused.listed index has listed member)
        (Nat.lt_succ_of_le (fits.le current))
  rw [List.append_cons]
  refine published.grants fun sent member => ?_
  obtain ⟨survivor, -, rfl⟩ := List.mem_map.mp (List.mem_of_mem_take member)
  refine ⟨call.dataSet entry content, ?_, .opens _ rfl (c.opens _ _ _ encrypted)⟩
  rw [held_dataSet]
  exact if_pos rfl

theorem rotate_sound (sealed : Sealed c) (sound : Sound c world) {call : Call} {answers : Answers}
    (query : Answered world call.scope answers.query) (unused : Unused world call.key) :
    Sound c (Republish.rotateDropping c world call answers).1 := by
  rcases Option.eq_none_or_eq_some (readBack c world call answers) with none | ⟨⟨entry, data⟩, read⟩
  · obtain ⟨thrown, result⟩ := unread_eq none
    rw [result]
    exact sound
  · obtain ⟨listed, named, set, there, current⟩ := read_held sound query read
    have outcome := outcome read
    generalize Republish.rotateDropping c world call answers = result at outcome
    cases outcome with
    | unpublished thrown quiet => exact sound
    | broken content count encrypted published failed =>
        exact republished_sound sealed sound there current unused encrypted count
    | rotated content encrypted published sent =>
        have done := republished_sound sealed sound there current unused encrypted
          (call.sents world.index entry).length
        rw [List.take_length] at done
        have rotated : Sound c ⟨call.after world.index entry, world.relays ++
            .dataSet (call.dataSet entry content) :: (call.sents world.index entry).map .grant⟩ := by
          refine done.indexed fun changed member => ?_
          obtain ⟨before, inside, rfl⟩ := List.mem_map.mp member
          split_ifs with here
          · exact done.entries world.index (.inl rfl) before inside
          · refine ⟨⟨call.dataSet entry content, ?_, .opens _ rfl (c.opens _ _ _ encrypted)⟩, ?_⟩
            · rw [named]
              have held := held_republished world.relays (call.dataSet entry content)
                (call.sents world.index entry) [] rfl
              rwa [List.append_nil] at held
            · intro agent stays
              obtain ⟨survivor, among, rfl⟩ := List.mem_map.mp stays
              refine ⟨⟨survivor.pub, call.scope, entry.v + 1, call.key, entry.scopeName, survivor.terms⟩, ?_, rfl,
                named.symm, rfl, rfl⟩
              refine List.mem_append_right _ (List.mem_cons_of_mem _ (List.mem_map_of_mem ?_))
              exact List.mem_map.mpr ⟨survivor, among, rfl⟩
        show Sound c ⟨_, _ ++ if answers.save = .refused then [] else [.index (call.after world.index entry)]⟩
        split_ifs with save
        · rw [List.append_nil]
          exact rotated
        · exact rotated.saved

/-- What was saved last was saved. -/
theorem mem_of_savedIndex {relays : List Published} {index : Index} (saved : savedIndex relays = some index) :
    .index index ∈ relays := by
  obtain ⟨event, member, same⟩ := List.mem_filterMap.mp (List.mem_of_getLast? saved)
  cases event with
  | index other =>
      obtain rfl := Option.some_inj.mp same
      exact member
  | dataSet set => cases same
  | grant sent => cases same

/-- **Every act keeps the invariant.** -/
theorem step_sound (sealed : Sealed c) (sound : Sound c world) {act : Act} (honest : Honest world act) :
    Sound c (step c world act) := by
  cases act with
  | issue i => exact issue_sound sound honest.1
  | rotate call answers => exact rotate_sound sealed sound honest.1 honest.2
  | addGrantee h => exact addGrantee_sound sound h
  | redeliver r => exact redeliver_sound sound honest.1
  | load found =>
      refine sound.indexed fun entry member => ?_
      obtain rfl | saved := honest
      · exact absurd member List.not_mem_nil
      · cases found with
        | none => exact absurd member List.not_mem_nil
        | some index => exact sound.entries index (.inr (mem_of_savedIndex saved.symm)) entry member

end Acts

/-! ### Who reads -/

/-- The grants of a scope that an agent was sent. -/
def grantsTo (relays : List Published) (agent scope : String) : List Sent :=
  relays.filterMap fun
    | .grant sent => if sent.agent = agent ∧ sent.scope = scope then some sent else none
    | _ => none

section Readers

variable {c : Cipher} {world : World} {acts : List Act}

theorem mem_grantsTo {relays : List Published} {agent scope : String} {sent : Sent} :
    sent ∈ grantsTo relays agent scope ↔ .grant sent ∈ relays ∧ sent.agent = agent ∧ sent.scope = scope := by
  unfold grantsTo
  rw [List.mem_filterMap]
  constructor
  · rintro ⟨event, member, same⟩
    cases event with
    | grant other =>
        dsimp only at same
        split_ifs at same with here
        obtain rfl := Option.some_inj.mp same
        exact ⟨member, here⟩
    | dataSet set => cases same
    | index index => cases same
  · rintro ⟨member, here⟩
    exact ⟨.grant sent, member, if_pos here⟩

/-- Before the first scope. -/
theorem sound_blank : Sound c ⟨.blank, []⟩ where
  sents sent taken := absurd taken List.not_mem_nil
  seals scope set there := by cases there
  entries index has entry member := by
    obtain rfl | saved := has
    · exact absurd member List.not_mem_nil
    · exact absurd saved List.not_mem_nil

theorem run_sound (sealed : Sealed c) (sound : Sound c world) (honest : Meets (step c) Honest world acts) :
    Sound c (run (step c) world acts) :=
  @Meets.keeps _ _ _ _ (Sound c) (fun _ _ sound honest => step_sound sealed sound honest) world acts sound honest

/-- **Where the delegator reads its scope, every grantee does.** Over every run of the console, what it reads
with an entry of its index each grantee of the entry reads with the newest grant it was sent. -/
theorem grantees_read (sealed : Sealed c) (honest : Meets (step c) Honest ⟨.blank, []⟩ acts)
    {final : World} (reached : final = run (step c) ⟨.blank, []⟩ acts) {entry : IssuedEntry} {data : Payload}
    (listed : entry ∈ final.index.issued)
    (own : fetchScope c (held final.relays entry.scope).toList entry.v entry.key = .ok data)
    {agent : String} (grantee : agent ∈ entry.grantees) :
    grantsTo final.relays agent entry.scope ≠ [] ∧
      ∀ sent ∈ grantsTo final.relays agent entry.scope,
        (∀ other ∈ grantsTo final.relays agent entry.scope, other.v ≤ sent.v) →
          fetchScope c (held final.relays entry.scope).toList sent.v sent.key = .ok data := by
  have sound : Sound c final := reached ▸ run_sound sealed sound_blank honest
  have backed := sound.entries final.index (.inl rfl) entry listed
  obtain ⟨set, there, fits⟩ := backed.fits
  rw [there] at own ⊢
  obtain ⟨current, opened⟩ := fits.fetch_eq_ok.mp own
  obtain ⟨first, taken, agent, scope, v, key⟩ := backed.sends agent grantee
  have sentFirst := mem_grantsTo.mpr ⟨taken, agent, scope⟩
  refine ⟨List.ne_nil_of_mem sentFirst, fun sent member newest => ?_⟩
  obtain ⟨taken, -, here⟩ := mem_grantsTo.mp member
  obtain ⟨set', there', fits⟩ := sound.sents sent taken
  rw [here, there] at there'
  obtain rfl := Option.some_inj.mp there'
  -- no grant is ahead of the data set, so the newest is of its generation
  have same : sent.v = entry.v := le_antisymm (fits.le current) (v ▸ newest first sentFirst)
  refine fits.fetch_eq_ok.mpr ⟨same ▸ current, ?_⟩
  obtain ⟨plain, under, encrypted⟩ := sound.seals entry.scope set there
  have only : ∀ {key data}, c.symDecrypt set.content key = some data → key = under := by
    intro key data opens
    by_contra other
    rw [sealed plain under set.content key encrypted other] at opens
    cases opens
  cases fits with
  | opens data' _ opened' => rw [only opened', ← only opened, opened]
  | behind now newer older =>
      rw [current] at newer
      obtain rfl := Option.some_inj.mp newer
      exact absurd same older.ne

end Readers

/-! ### Who was dropped -/

/-- All that the agent was sent for the scope is behind, and no index that the console has or loads lists it. -/
structure Out (agent scope : String) (world : World) : Prop where
  ahead : ∃ set now, held world.relays scope = some set ∧ set.v = some now ∧
    ∀ sent ∈ grantsTo world.relays agent scope, sent.v < now
  unlisted : ∀ entry ∈ world.index.issued, entry.scope = scope → agent ∉ entry.grantees
  unsaved : ∀ index, savedIndex world.relays = some index →
    ∀ entry ∈ index.issued, entry.scope = scope → agent ∉ entry.grantees

/-- The console sends the agent a grant of the scope, and not as a survivor of a rotation. -/
def Act.grants (agent scope : String) : Act → Prop
  | .addGrantee h => h.newPub = agent ∧ h.scope = scope
  | .redeliver r => r.agent = agent ∧ r.scope = scope
  | _ => False

section Dropped

variable {c : Cipher} {world : World} {agent scope : String} {acts : List Act}

theorem savedIndex_index (relays : List Published) (index : Index) :
    savedIndex (relays ++ [.index index]) = some index := by
  simp [savedIndex]

theorem savedIndex_quiet (relays : List Published) {more : List Published} (quiet : ∀ index, .index index ∉ more) :
    savedIndex (relays ++ more) = savedIndex relays := by
  have nothing : (more.filterMap fun
      | .index index => some index
      | _ => none) = [] := by
    refine List.filterMap_eq_nil_iff.mpr fun event member => ?_
    cases event with
    | index index => exact absurd member (quiet index)
    | dataSet set => rfl
    | grant sent => rfl
  unfold savedIndex
  rw [List.filterMap_append, nothing, List.append_nil]

theorem grantsTo_append (relays more : List Published) :
    grantsTo (relays ++ more) agent scope = grantsTo relays agent scope ++ grantsTo more agent scope :=
  List.filterMap_append

/-- A grant to another agent, or of another scope. -/
theorem Out.grant (out : Out agent scope world) (sent : Sent) (other : ¬(sent.agent = agent ∧ sent.scope = scope)) :
    Out agent scope ⟨world.index, world.relays ++ [.grant sent]⟩ where
  ahead := by
    have ⟨set, now, there, current, behind⟩ := out.ahead
    refine ⟨set, now, by rw [held_quiet world.relays rfl, there], current, ?_⟩
    have nothing : grantsTo [.grant sent] agent scope = [] := by simp [grantsTo, other]
    rw [grantsTo_append, nothing, List.append_nil]
    exact behind
  unlisted := out.unlisted
  unsaved index saved := by
    rw [savedIndex_quiet world.relays (by simp)] at saved
    exact out.unsaved index saved

/-- A data set of another scope, or one that is not older. -/
theorem Out.dataSet (out : Out agent scope world) (set : DataSet)
    (later : set.scope = scope → ∃ held' before now, held world.relays scope = some held' ∧
      held'.v = some before ∧ set.v = some now ∧ before ≤ now) :
    Out agent scope ⟨world.index, world.relays ++ [.dataSet set]⟩ where
  ahead := by
    have ⟨old, now, there, current, behind⟩ := out.ahead
    have same : grantsTo (world.relays ++ [.dataSet set]) agent scope = grantsTo world.relays agent scope := by
      rw [grantsTo_append]
      exact List.append_nil _
    rw [held_dataSet, same]
    split_ifs with here
    · obtain ⟨held', before, after, there', now', current', le⟩ := later here
      obtain rfl := Option.some_inj.mp (there.symm.trans there')
      obtain rfl := Option.some_inj.mp (current.symm.trans now')
      exact ⟨set, after, rfl, current', fun sent member => lt_of_lt_of_le (behind sent member) le⟩
    · exact ⟨old, now, there, current, behind⟩
  unlisted := out.unlisted
  unsaved index saved := by
    rw [savedIndex_quiet world.relays (by simp)] at saved
    exact out.unsaved index saved

theorem Out.grants (out : Out agent scope world) {sents : List Sent}
    (others : ∀ sent ∈ sents, ¬(sent.agent = agent ∧ sent.scope = scope)) :
    Out agent scope ⟨world.index, world.relays ++ sents.map .grant⟩ := by
  induction sents using List.reverseRecOn with
  | nil => simpa using out
  | append_singleton front last ih =>
      have before := ih fun sent member => others sent (List.mem_append_left _ member)
      rw [List.map_append, List.map_singleton, ← List.append_assoc]
      exact before.grant last (others last (List.mem_append_right _ (List.mem_singleton_self last)))

/-- The index changes, and may be saved. -/
theorem Out.indexed (out : Out agent scope world) {index : Index}
    (unlisted : ∀ entry ∈ index.issued, entry.scope = scope → agent ∉ entry.grantees) (answer : Answer) :
    Out agent scope ⟨index, (publish world.relays (.index index) answer).1⟩ := by
  have saved : Out agent scope ⟨index, world.relays ++ [.index index]⟩ := by
    have ⟨set, now, there, current, behind⟩ := out.ahead
    refine ⟨⟨set, now, by rw [held_quiet world.relays rfl, there], current, ?_⟩, unlisted, fun other same => ?_⟩
    · rw [grantsTo_append]
      exact (List.append_nil _).symm ▸ behind
    · rw [savedIndex_index] at same
      exact Option.some_inj.mp same ▸ unlisted
  cases answer with
  | taken => exact saved
  | lost => exact saved
  | refused => exact ⟨out.ahead, unlisted, out.unsaved⟩

theorem issue_out (out : Out agent scope world) {i : Issue} (unheld : held world.relays i.scopeId = none) :
    Out agent scope (issue c world i) := by
  have apart : i.scopeId ≠ scope := by
    rintro rfl
    obtain ⟨set, now, there, -⟩ := out.ahead
    rw [unheld] at there
    cases there
  unfold issue
  split
  next => exact out
  next content encrypted =>
    have published := out.dataSet ⟨i.scopeId, some 1, content⟩ fun here => absurd here apart
    cases i.scope with
    | refused => exact out
    | lost => exact published
    | taken =>
        have sent := published.grant ⟨i.agent, i.scopeId, 1, i.scopeKey, i.scopeName, some i.terms⟩
          fun same => apart same.2
        cases i.grant with
        | refused => exact published
        | lost => exact sent
        | taken =>
            refine sent.indexed (fun entry member here => ?_) i.save
            obtain old | new := List.mem_append.mp member
            · exact out.unlisted entry old here
            · obtain rfl := List.mem_singleton.mp new
              exact absurd here apart

theorem addGrantee_out (out : Out agent scope world) {h : Handover} (other : ¬(h.newPub = agent ∧ h.scope = scope)) :
    Out agent scope (addGrantee world h) := by
  unfold addGrantee
  split
  next => exact out
  next entry found =>
    split_ifs
    · exact out
    · have named : entry.scope = h.scope := by simpa using List.find?_some found
      have sent := out.grant ⟨h.newPub, h.scope, entry.v, entry.key, entry.scopeName, some h.terms⟩ other
      cases h.grant with
      | refused => exact out
      | lost => exact sent
      | taken =>
          refine sent.indexed (fun changed member here => ?_) h.save
          obtain old | rfl := mem_addTo found member
          · exact out.unlisted changed old here
          · intro listed
            obtain old | new := List.mem_append.mp listed
            · exact out.unlisted entry (List.mem_of_find?_eq_some found) here old
            · exact other ⟨(List.mem_singleton.mp new).symm, named.symm.trans here⟩

theorem redeliver_out (out : Out agent scope world) {r : Redelivery} (query : Answered world r.scope r.query)
    (other : ¬(r.agent = agent ∧ r.scope = scope)) : Out agent scope (redeliver c world r) := by
  unfold redeliver
  split
  next entry event rest events terms found asked again kept =>
    split
    next =>
      obtain ⟨there, -⟩ := query.held_eq asked
      have sent := out.dataSet event fun here => by
        obtain rfl : r.scope = scope := (scope_of_held there).symm.trans here
        obtain ⟨set, now, held', current, -⟩ := out.ahead
        obtain rfl := Option.some_inj.mp (there.symm.trans held')
        exact ⟨event, now, now, there, current, current, le_rfl⟩
      cases r.rebroadcast with
      | refused => exact out
      | lost => exact sent
      | taken =>
          have granted := sent.grant ⟨r.agent, r.scope, entry.v, entry.key, entry.scopeName, some terms⟩ other
          show Out agent scope ⟨world.index, (publish _ _ r.grant).1⟩
          cases r.grant with
          | refused => exact sent
          | lost => exact granted
          | taken => exact granted
    next => exact out
  next => exact out

/-- A rotation has published its data set and some of its grants, none of them to the agent. -/
theorem republished_out (out : Out agent scope world) {call : Call} {entry : IssuedEntry} {content : String}
    {set : DataSet} (there : held world.relays call.scope = some set) (current : set.v = some entry.v)
    (stays : call.scope = scope → agent ∉ call.keeps entry) (count : Nat) :
    Out agent scope ⟨world.index, world.relays ++ .dataSet (call.dataSet entry content) ::
      ((call.sents world.index entry).take count).map .grant⟩ := by
  rw [List.append_cons]
  have published := out.dataSet (call.dataSet entry content) fun here =>
    ⟨set, entry.v, entry.v + 1, here ▸ there, current, rfl, Nat.le_succ _⟩
  refine published.grants fun sent member => ?_
  rintro ⟨rfl, here⟩
  obtain ⟨survivor, among, rfl⟩ := List.mem_map.mp (List.mem_of_mem_take member)
  refine stays here ?_
  rw [← pubs_survivorsOf world.index call.nowSec]
  exact List.mem_map_of_mem among

/-- An entry of the index after a rotation. -/
theorem mem_after {call : Call} {entry changed : IssuedEntry} (named : entry.scope = call.scope)
    (member : changed ∈ (call.after world.index entry).issued) :
    changed ∈ world.index.issued ∧ changed.scope ≠ call.scope ∨
      changed.scope = call.scope ∧ changed.grantees = call.keeps entry := by
  obtain ⟨before, inside, rfl⟩ := List.mem_map.mp member
  split_ifs with here
  · exact .inl ⟨inside, named ▸ here⟩
  · exact .inr ⟨named, pubs_survivorsOf _ _ _⟩

theorem rotate_out (sound : Sound c world) (out : Out agent scope world) {call : Call} {answers : Answers}
    (query : Answered world call.scope answers.query) :
    Out agent scope (Republish.rotateDropping c world call answers).1 := by
  rcases Option.eq_none_or_eq_some (readBack c world call answers) with none | ⟨⟨entry, data⟩, read⟩
  · obtain ⟨thrown, result⟩ := unread_eq none
    rw [result]
    exact out
  · obtain ⟨listed, named, set, there, current⟩ := read_held sound query read
    have outcome := outcome read
    have stays : call.scope = scope → agent ∉ call.keeps entry := fun here kept =>
      out.unlisted entry listed (named.trans here) (List.mem_of_mem_filter kept)
    generalize Republish.rotateDropping c world call answers = result at outcome
    cases outcome with
    | unpublished thrown quiet => exact out
    | broken content count encrypted published failed => exact republished_out out there current stays count
    | rotated content encrypted published sent =>
        have done := @republished_out world agent scope out call entry content set there current stays
          (call.sents world.index entry).length
        rw [List.take_length] at done
        have unlisted : ∀ changed ∈ (call.after world.index entry).issued, changed.scope = scope →
            agent ∉ changed.grantees := by
          intro changed member here
          obtain ⟨old, -⟩ | ⟨own, grantees⟩ := mem_after named member
          · exact out.unlisted changed old here
          · rw [grantees]
            exact stays (own.symm.trans here)
        show Out agent scope ⟨_, _ ++ if answers.save = .refused then [] else [.index (call.after world.index entry)]⟩
        have saved := done.indexed unlisted answers.save
        rw [publish_fst] at saved
        split_ifs at saved ⊢
        · rwa [List.append_nil]
        · exact saved

/-- **Every act keeps an agent out** that it does not grant the scope. -/
theorem step_out (sound : Sound c world) (out : Out agent scope world) {act : Act} (honest : Honest world act)
    (other : ¬act.grants agent scope) : Out agent scope (step c world act) := by
  cases act with
  | issue i => exact issue_out out honest.1
  | rotate call answers => exact rotate_out sound out honest.1
  | addGrantee h => exact addGrantee_out out other
  | redeliver r => exact redeliver_out out honest.1 other
  | load found =>
      refine ⟨out.ahead, ?_, out.unsaved⟩
      obtain rfl | saved := honest
      · exact fun entry member => absurd member List.not_mem_nil
      · cases found with
        | none => exact fun entry member => absurd member List.not_mem_nil
        | some index => exact out.unsaved index saved.symm

theorem run_out (sealed : Sealed c) (sound : Sound c world) (out : Out agent scope world)
    (honest : Meets (step c) Honest world acts) (ungranted : ∀ act ∈ acts, ¬act.grants agent scope) :
    Sound c (run (step c) world acts) ∧ Out agent scope (run (step c) world acts) := by
  induction acts generalizing world with
  | nil => exact ⟨sound, out⟩
  | cons act rest ih =>
      exact ih (step_sound sealed sound honest.1)
        (step_out sound out honest.1 (ungranted act List.mem_cons_self)) honest.2
        fun later member => ungranted later (List.mem_cons_of_mem act member)

/-- A rotation that returns has put out whom it drops. -/
theorem dropped_out (sound : Sound c world) {call : Call} {answers : Answers} {summary : Summary}
    (query : Answered world call.scope answers.query)
    (returned : (Republish.rotateDropping c world call answers).2 = .ok summary) (dropped : agent ∈ call.drop) :
    Out agent call.scope (Republish.rotateDropping c world call answers).1 := by
  rcases Option.eq_none_or_eq_some (readBack c world call answers) with none | ⟨⟨entry, data⟩, read⟩
  · obtain ⟨thrown, result⟩ := unread_eq none
    rw [result] at returned
    cases returned
  · obtain ⟨listed, named, set, there, current⟩ := read_held sound query read
    have outcome := outcome read
    have gone : agent ∉ call.keeps entry := by
      intro kept
      have stays := (List.mem_filter.mp kept).2
      simp [dropped] at stays
    generalize Republish.rotateDropping c world call answers = result at outcome returned
    cases outcome with
    | unpublished thrown quiet => cases returned
    | broken content count encrypted published failed => cases returned
    | rotated content encrypted published sent =>
        have save : answers.save = .taken := by
          by_contra other
          simp [other] at returned
        have unlisted : ∀ changed ∈ (call.after world.index entry).issued, changed.scope = call.scope →
            agent ∉ changed.grantees := by
          intro changed member here
          obtain ⟨-, other⟩ | ⟨-, grantees⟩ := mem_after named member
          · exact absurd here other
          · exact grantees ▸ gone
        rw [save, if_neg (by simp)]
        refine ⟨⟨call.dataSet entry content, entry.v + 1, ?_, rfl, fun sent member => ?_⟩, unlisted, fun index saved => ?_⟩
        · exact held_republished world.relays (call.dataSet entry content) (call.sents world.index entry) _ rfl
        · obtain ⟨taken, own, here⟩ := mem_grantsTo.mp member
          obtain old | new := List.mem_append.mp ((List.mem_append.mp taken).resolve_right (by simp))
          · obtain ⟨before, same, fits⟩ := sound.sents sent old
            rw [here, there] at same
            obtain rfl := Option.some_inj.mp same
            exact Nat.lt_succ_of_le (fits.le current)
          · obtain ⟨other, inside, same⟩ := List.mem_map.mp ((List.mem_cons.mp new).resolve_left (by simp))
            cases same
            obtain ⟨survivor, among, rfl⟩ := List.mem_map.mp inside
            refine absurd ?_ gone
            rw [← pubs_survivorsOf world.index call.nowSec, ← own]
            exact List.mem_map_of_mem among
        · rw [savedIndex_index] at saved
          exact Option.some_inj.mp saved ▸ unlisted

/-- **Who a rotation dropped stays out.** After a rotation that returned, in every later run in which the
console does not grant the scope to the agent again, no grant the agent was ever sent reads the scope: each
is behind the data set that the relays hold, and its key does not open it. -/
theorem dropped_stays_out (sealed : Sealed c) {before after : List Act} {call : Call} {answers : Answers}
    (honest : Meets (step c) Honest ⟨.blank, []⟩ (before ++ .rotate call answers :: after))
    {summary : Summary} (dropped : agent ∈ call.drop)
    (returned : (Republish.rotateDropping c (run (step c) ⟨.blank, []⟩ before) call answers).2 = .ok summary)
    (ungranted : ∀ act ∈ after, ¬act.grants agent call.scope) {final : World}
    (reached : final = run (step c) ⟨.blank, []⟩ (before ++ .rotate call answers :: after)) :
    ∃ set, held final.relays call.scope = some set ∧ ∀ sent ∈ grantsTo final.relays agent call.scope,
      fetchScope c [set] sent.v sent.key = .stale ∧ c.symDecrypt set.content sent.key = none := by
  obtain ⟨early, rotates, late⟩ := Runs.meets_append.mp honest
  have sound := run_sound sealed sound_blank early
  rw [Runs.run_append, Runs.run_cons] at reached
  obtain ⟨sound, out⟩ := run_out sealed (step_sound sealed sound rotates)
    (dropped_out sound rotates.1 returned dropped) late ungranted
  rw [← reached] at sound out
  obtain ⟨set, now, there, current, behind⟩ := out.ahead
  refine ⟨set, there, fun sent member => ?_⟩
  obtain ⟨taken, -, here⟩ := mem_grantsTo.mp member
  obtain ⟨set', there', fits⟩ := sound.sents sent taken
  rw [here, there] at there'
  obtain rfl := Option.some_inj.mp there'
  exact fits.stale current (behind sent member)

end Dropped

/-! ### Ann is revoked, and Bob stays -/

def tally (key : ScopeKey) : String := String.ofList (List.replicate key.draw 'k')

/-- A cipher that seals one payload, by as many letters as the key's draw. -/
def tallyCipher : Cipher where
  symEncrypt data key :=
    match data.entries with
    | [("updated_at", .num 50 0)] => some (tally key)
    | _ => none
  symDecrypt content key := if content = tally key then some samplePayload else none
  opens data key content sealed := by
    obtain ⟨entries, nodup⟩ := data
    simp only at sealed
    split at sealed
    next =>
      rw [if_pos (Option.some.inj sealed).symm]
      rfl
    next => cases sealed

theorem sealed_tally : Sealed tallyCipher := by
  intro data key content other encrypted apart
  have same : content = tally key := by
    simp only [tallyCipher] at encrypted
    split at encrypted
    · exact (Option.some_inj.mp encrypted).symm
    · cases encrypted
  refine if_neg fun opens => apart ?_
  have letters := congrArg String.toList (same.symm.trans opens)
  rw [tally, tally, String.toList_ofList, String.toList_ofList] at letters
  have draws := congrArg List.length letters
  rw [List.length_replicate, List.length_replicate] at draws
  obtain ⟨draw⟩ := other
  obtain ⟨draw'⟩ := key
  exact congrArg ScopeKey.mk draws.symm

def travelTerms : Terms := ⟨some "Plan travel", none, none, none, none, none, none⟩

/-- A scope for Ann, which Bob is handed as well. -/
def annAndBob : List Act :=
  [.issue ⟨"travel", ⟨0⟩, "Travel", "ann", .empty, 50, travelTerms,
      .granted 50 "travel" "ann" 1 (some travelTerms) "Travel", .taken, .taken, .taken⟩,
    .addGrantee ⟨"travel", "bob", travelTerms, .granted 51 "travel" "bob" 1 (some travelTerms) "Travel",
      .taken, .taken⟩]

theorem honest_annAndBob : Meets (step tallyCipher) Honest ⟨.blank, []⟩ annAndBob := by
  refine ⟨⟨rfl, ?_, ?_⟩, trivial, trivial⟩
  · exact fun sent taken => absurd taken List.not_mem_nil
  · intro index has entry member
    obtain rfl | saved := has
    · exact absurd member List.not_mem_nil
    · exact absurd saved List.not_mem_nil

theorem bob_reads : grantsTo (run (step tallyCipher) ⟨.blank, []⟩ annAndBob).relays "bob" "travel" ≠ [] ∧
    ∀ sent ∈ grantsTo (run (step tallyCipher) ⟨.blank, []⟩ annAndBob).relays "bob" "travel",
      (∀ other ∈ grantsTo (run (step tallyCipher) ⟨.blank, []⟩ annAndBob).relays "bob" "travel",
        other.v ≤ sent.v) →
      fetchScope tallyCipher (held (run (step tallyCipher) ⟨.blank, []⟩ annAndBob).relays "travel").toList
        sent.v sent.key = .ok samplePayload := by
  have listed : (⟨"travel", "Travel", 1, ⟨0⟩, ["ann", "bob"]⟩ : IssuedEntry) ∈
      (run (step tallyCipher) ⟨.blank, []⟩ annAndBob).index.issued := List.mem_cons_self
  exact grantees_read sealed_tally honest_annAndBob rfl listed rfl (List.mem_cons_of_mem _ List.mem_cons_self)

def annAnswers : Answers := ⟨some [⟨"travel", some 1, tally ⟨0⟩⟩], .taken, fun _ => .taken, .taken⟩

/-- The keys that a publication carries. -/
def keysIn : Published → List ScopeKey
  | .dataSet _ => []
  | .grant sent => [sent.key]
  | .index index => index.issued.map (·.key)

theorem unused_of {world : World} {key : ScopeKey} (published : ∀ event ∈ world.relays, key ∉ keysIn event)
    (listed : key ∉ world.index.issued.map (·.key)) : Unused world key where
  sent sent taken same := published _ taken (List.mem_singleton.mpr same.symm)
  listed index has entry member same := by
    have among : key ∈ index.issued.map (·.key) := same ▸ List.mem_map_of_mem member
    obtain rfl | saved := has
    · exact listed among
    · exact published _ saved among

theorem honest_annRevoked : Meets (step tallyCipher) Honest ⟨.blank, []⟩
    (annAndBob ++ .rotate sampleCall annAnswers :: [.load none]) := by
  refine Runs.meets_append.mpr ⟨honest_annAndBob, ⟨?_, unused_of (by decide) (by decide)⟩, .inl rfl, trivial⟩
  exact fun events given => .inr (Option.some_inj.mp given).symm

theorem ann_stays_out : ∃ set, held (run (step tallyCipher) ⟨.blank, []⟩
      (annAndBob ++ .rotate sampleCall annAnswers :: [.load none])).relays "travel" = some set ∧
    ∀ sent ∈ grantsTo (run (step tallyCipher) ⟨.blank, []⟩
        (annAndBob ++ .rotate sampleCall annAnswers :: [.load none])).relays "ann" "travel",
      fetchScope tallyCipher [set] sent.v sent.key = .stale ∧ tallyCipher.symDecrypt set.content sent.key = none := by
  have dropped : "ann" ∈ sampleCall.drop := List.mem_cons_self
  have returned : (Republish.rotateDropping tallyCipher (run (step tallyCipher) ⟨.blank, []⟩ annAndBob) sampleCall
      annAnswers).2 = .ok ⟨1, 2, ["bob"]⟩ := by rfl
  refine dropped_stays_out sealed_tally honest_annRevoked dropped returned ?_ rfl
  exact fun act member grants => by cases List.mem_singleton.mp member; exact grants

end Nvoy.Console.Access
