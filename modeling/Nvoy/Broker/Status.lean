/-
**Native status reactions**: the keeper of `buzz_status.mjs`, over every call that may fail and every
moment its process may die.

* `react`, `clear`, `handleFact`, `work`, `sweep`, `step` — the keeper, one operation after another;
* `Note` — what was handed to the relay, with the saved state of that moment, and what was cleared;
* `Apt` — what may be handed over after what was: a reaction once, saved first and not after its
  envelope was cleared; a deletion of a saved reaction, and no other for it;
* `Keeps` — what holds of the notes and of the states, in memory and saved;
* `Good`, `Holding`, `Saved`, `Durable` — what carries it from one operation to the next, and what each
  change of one entry does to it.
-/

import Mathlib.Algebra.Order.Field.Rat
import Nvoy.Broker.BuzzNative
import Nvoy.Lib.Dying
import Nvoy.Lib.JsMap
import Nvoy.Memory.Claim
import Nvoy.Nostr.Event

namespace Nvoy.Broker.Status

open Dying
open Memory (lowerAscii)

/-! ### Reactions and their removal -/

inductive Which where
  | seen
  | working
  deriving DecidableEq, Repr

/-- `STATUS` -/
def STATUS : Which → String
  | .seen => String.singleton (Char.ofNat 0x1f440)
  | .working => String.singleton (Char.ofNat 0x1f4ac)

def STATUS_STALE_MS : Int := 20 * 60 * 1000
def KEEP_MS : Int := 24 * 60 * 60 * 1000
def WORKING_GRACE_MS : Int := 60 * 1000
def CLEAR_ATTEMPTS : Nat := 3

def statusReactionTemplate (target : String) (which : Which) (now : Int) : Except String Template :=
  if isHex64 target then .ok ⟨7, now, STATUS which, [["e", target]]⟩
  else .error "a status reaction needs the target event id"

def statusDeletionTemplate (reaction : String) (now : Int) : Except String Template :=
  if isHex64 reaction then .ok ⟨5, now, "", [["e", reaction]]⟩
  else .error "a deletion needs the reaction event id"

/-! ### Failures -/

def holdsText (part text : String) : Bool := decide (part.toList <:+: text.toList)

/-- `\w` -/
def isWord (c : Char) : Bool := c.isAlphanum || c = '_'

/-- `/^nip46 \w+ timed out/` -/
def timesOut (text : List Char) : Bool :=
  let rest := text.drop "nip46 ".toList.length
  "nip46 ".toList.isPrefixOf text && !(rest.takeWhile isWord).isEmpty &&
    " timed out".toList.isPrefixOf (rest.dropWhile isWord)

def classifyFailure (message : String) : String :=
  if "bunker: ".toList.isPrefixOf message.toList then "bunker-refused"
  else if message.toList.tails.any timesOut then "signer-timeout"
  else if holdsText "nip46" (lowerAscii message) || holdsText "signer" (lowerAscii message) then "signer-unavailable"
  else if holdsText "AUTH refused" message then "auth-refused"
  else if holdsText "timed out" message then "relay-timeout"
  else "relay-unavailable"

/-! ### The state -/

structure Slot where
  setAt : Int
  event : Option Event := none
  failed : Option String := none
  published : Bool := false
  deriving DecidableEq, Repr

structure Deletion where
  which : Which
  target : String
  attempts : Nat := 0
  event : Option Event := none
  failed : Option String := none
  done : Bool := false
  deriving DecidableEq, Repr

inductive Reason where
  | replied
  | stale
  deriving DecidableEq, Repr

structure Entry where
  target : String
  channel : String
  admittedAt : ℚ
  seen : Option Slot := none
  working : Option Slot := none
  clearedAt : Option Int := none
  clearedBy : Option Reason := none
  deletions : List Deletion := []
  deriving DecidableEq

abbrev State := JsMap String Entry

/-- `entry[which]` -/
def Entry.slot (entry : Entry) : Which → Option Slot
  | .seen => entry.seen
  | .working => entry.working

def Entry.setSlot (entry : Entry) (which : Which) (slot : Slot) : Entry :=
  match which with
  | .seen => { entry with seen := some slot }
  | .working => { entry with working := some slot }

/-- Whether `entry.cleared_at` counts as true. -/
def Entry.cleared (entry : Entry) : Bool := entry.clearedAt.any (· ≠ 0)

/-- The deletion of one reaction, changed in place. -/
def Entry.setDeletion (entry : Entry) (d : Deletion) : Entry :=
  { entry with deletions := entry.deletions.map fun old => if old.which = d.which then d else old }

def Deletion.open_ (d : Deletion) : Bool :=
  !d.done && decide (d.attempts < CLEAR_ATTEMPTS) && decide (d.failed ≠ some "bunker-refused")

def unfinished (entry : Entry) : Bool := entry.deletions.any Deletion.open_

/-- A reaction the relay refused outright is not there to remove. -/
def deletionOf (entry : Entry) (which : Which) : Option Deletion :=
  (entry.slot which).bind fun slot =>
    if slot.failed = some "relay-refused" then none else slot.event.map fun ev => { which := which, target := ev.id }

def Entry.clear (entry : Entry) (t : Int) (reason : Reason) : Entry :=
  { entry with
    clearedAt := some t
    clearedBy := some reason
    deletions := [Which.seen, .working].filterMap (deletionOf entry) }

/-! ### The keeper and what is around it -/

/-- What was handed to `publish`, and what was cleared. The relay's answer is `ok false` where it refused. -/
inductive Note where
  | reaction (envelope : String) (which : Which) (event : Event) (answer : Except String Bool) (saved : State)
  | cleared (envelope : String)
  | deletion (envelope : String) (which : Which) (event : Event) (saved : State)

structure Keeper where
  mem : State := .empty
  /-- `state.json` -/
  disk : State := .empty
  pendingWorking : JsMap String Int := .empty
  log : List Note := []
  /-- The envelopes that were deleted from the state. -/
  pruned : List String := []
  /-- The envelopes that had an entry made for them after that. -/
  revived : List String := []

structure World where
  keeper : Keeper := {}
  clock : Int
  /-- How many operations were done. -/
  calls : Nat := 0

structure Env where
  /-- `manifest.pubkey` -/
  me : String
  verifyEvent : Event → Bool
  /-- How far the clock goes on before it is read. -/
  waits : Nat → Nat
  /-- The signer; its exception's message. -/
  signEvent : Nat → Template → Except String Event
  /-- Opening a session where there is none, and `publishSigned`: whether the relay accepted. -/
  publish : Nat → Event → Except String Bool
  /-- The process dies after that operation. -/
  dies : Nat → Bool

abbrev Op := Prog World

section Keeper

variable (env : Env)

/-- An operation, with what it does to the keeper. -/
def operation {α : Type} (f : World → α × Keeper) : Op α :=
  act (fun w => env.dies w.calls) fun w =>
    ((f w).1, { w with keeper := (f w).2, calls := w.calls + 1 })

def now : Op Int :=
  act (fun w => env.dies w.calls) fun w =>
    (w.clock + env.waits w.calls, { w with clock := w.clock + env.waits w.calls, calls := w.calls + 1 })

/-- `save`, with what it makes known. -/
def save (notes : List Note) : Op Unit :=
  operation env fun w => ((), { w.keeper with disk := w.keeper.mem, log := w.keeper.log ++ notes })

def sign (template : Except String Template) : Op (Except String Event) :=
  operation env fun w =>
    (template.bind fun t => (env.signEvent w.calls t).bind fun ev =>
      if ev.pubkey ≠ env.me ∨ ev.kind ≠ t.kind ∨ ev.content ≠ t.content ∨ ev.tags ≠ t.tags ∨ env.verifyEvent ev = false then
        .error "signer returned a different event"
      else .ok ev, w.keeper)

def publish (ev : Event) (note : Except String Bool → State → Note) : Op (Except String Bool) :=
  operation env fun w =>
    (env.publish w.calls ev, { w.keeper with log := w.keeper.log ++ [note (env.publish w.calls ev) w.keeper.disk] })

/-- Changes of the state in memory. -/
def setEntry (envelope : String) (entry : Entry) : Op Unit :=
  modify fun w => { w with keeper := { w.keeper with mem := w.keeper.mem.set envelope entry } }

def entryOf (envelope : String) : Op (Option Entry) := do
  return (← get).keeper.mem.get envelope

/-- What the relay's answer makes of a reaction. -/
def Slot.answered (slot : Slot) : Except String Bool → Slot
  | .ok accepted => { slot with published := accepted, failed := if accepted then none else some "relay-refused" }
  | .error e => { slot with failed := some (classifyFailure e) }

def publishReaction (envelope : String) (entry : Entry) (which : Which) (slot : Slot) (ev : Event) : Op Unit := do
  let answer ← publish env ev (.reaction envelope which ev)
  setEntry envelope (entry.setSlot which (slot.answered answer))
  save env []

def react (envelope : String) (entry : Entry) (which : Which) : Op Unit := do
  if (entry.slot which).isSome || entry.cleared then return ()
  else
    let slot : Slot := { setAt := ← now env }
    setEntry envelope (entry.setSlot which slot)
    save env []
    match ← sign env (statusReactionTemplate entry.target which ((← now env) / 1000)) with
    | .error e =>
        setEntry envelope (entry.setSlot which { slot with failed := some (classifyFailure e) })
        save env []
    | .ok ev =>
        setEntry envelope (entry.setSlot which { slot with event := some ev })
        save env []
        publishReaction env envelope entry which { slot with event := some ev } ev

/-- The event of a deletion, signed where it has none. -/
def signDeletion (envelope : String) (entry : Entry) (d : Deletion) : Op (Option Event) := do
  match d.event with
  | some ev => return some ev
  | none =>
      match ← sign env (statusDeletionTemplate d.target ((← now env) / 1000)) with
      | .error e =>
          setEntry envelope (entry.setDeletion { d with failed := some (classifyFailure e) })
          save env []
          return none
      | .ok ev =>
          setEntry envelope (entry.setDeletion { d with event := some ev })
          save env []
          return some ev

/-- What the relay's answer makes of a deletion. -/
def Deletion.answered (d : Deletion) : Except String Bool → Deletion
  | .ok true => { d with done := true, failed := none }
  | .ok false => { d with failed := some "relay-refused" }
  | .error e => { d with failed := some (classifyFailure e) }

def publishDeletion (envelope : String) (entry : Entry) (d : Deletion) (ev : Event) : Op Unit := do
  let answer ← publish env ev (fun _ saved => .deletion envelope d.which ev saved)
  setEntry envelope (entry.setDeletion (d.answered answer))
  save env []

/-- One turn of the loop over `entry.deletions`. -/
def clearOne (envelope : String) (which : Which) : Op Unit := do
  match ← entryOf envelope with
  | none => return ()
  | some entry =>
      match entry.deletions.find? (·.which = which) with
      | none => return ()
      | some d =>
          if d.open_ then
            let d := { d with attempts := d.attempts + 1 }
            setEntry envelope (entry.setDeletion d)
            match ← signDeletion env envelope entry d with
            | none => return ()
            | some ev => publishDeletion env envelope entry { d with event := some ev } ev
          else return ()

/-- The reactions of an entry are listed for removal, where they were not. -/
def startClear (envelope : String) (entry : Entry) (reason : Reason) : Op Entry := do
  if entry.cleared then return entry
  else
    let entry := entry.clear (← now env) reason
    setEntry envelope entry
    save env [.cleared envelope]
    return entry

def clear (envelope : String) (entry : Entry) (reason : Reason) : Op Unit := do
  let entry ← startClear env envelope entry reason
  (entry.deletions.map (·.which)).forM (clearOne env envelope)

inductive Fact where
  | admitted (envelope target channel : String) (saidAt : ℚ)
  | replied (envelope : String)

/-- `state.envelopes[f.envelope] = {…}`; of an envelope that was pruned the entry is a new one. -/
def create (envelope : String) (entry : Entry) : Op Unit :=
  modify fun w => { w with keeper := { w.keeper with
    mem := w.keeper.mem.set envelope entry
    revived := if envelope ∈ w.keeper.pruned then w.keeper.revived ++ [envelope] else w.keeper.revived } }

def handleFact (f : Fact) : Op Unit := do
  match f with
  | .admitted envelope target channel saidAt =>
      match ← entryOf envelope with
      | some _ => return ()
      | none =>
          -- a fact replayed after a restart, or one older than a live turn, is history
          if (STATUS_STALE_MS : ℚ) < (← now env) - saidAt then return ()
          else
            let created : Entry := { target := target, channel := channel, admittedAt := saidAt }
            create envelope created
            save env []
            react env envelope created .seen
  | .replied envelope =>
      match ← entryOf envelope with
      | none => return ()
      | some entry => if entry.cleared then return () else clear env envelope entry .replied

/-- A request is remembered with the time it came at. -/
def addRequest (envelope : String) : Op Unit := do
  if (← get).keeper.pendingWorking.has envelope then return ()
  else
    let t ← now env
    modify fun w => { w with keeper := { w.keeper with pendingWorking := w.keeper.pendingWorking.set envelope t } }

def forget (envelope : String) : Op Unit :=
  modify fun w => { w with keeper := { w.keeper with pendingWorking := w.keeper.pendingWorking.delete envelope } }

def work (pending : String × Int) : Op Unit := do
  match ← entryOf pending.1 with
  | some entry =>
      forget pending.1
      react env pending.1 entry .working
  | none => if WORKING_GRACE_MS < (← now env) - pending.2 then forget pending.1 else return ()

def prune (envelope : String) : Op Unit :=
  modify fun w => { w with keeper := { w.keeper with
    mem := w.keeper.mem.delete envelope
    pruned := w.keeper.pruned ++ [envelope] } }

/-- What is still up after too long is cleared, and what was not taken down is tried again. -/
def takeDown (envelope : String) (entry : Entry) : Op Unit := do
  if entry.cleared then
    if unfinished entry then clear env envelope entry (entry.clearedBy.getD .stale) else return ()
  else if (STATUS_STALE_MS : ℚ) < (← now env) - entry.admittedAt then clear env envelope entry .stale
  else return ()

/-- What is long done is dropped: then the answer is true. -/
def dropDone (envelope : String) (entry : Entry) : Op Bool := do
  if entry.cleared && !unfinished entry then
    if KEEP_MS < (← now env) - entry.clearedAt.getD 0 then
      prune envelope
      return true
    else return false
  else return false

def sweepOne (envelope : String) : Op Bool := do
  match ← entryOf envelope with
  | none => return false
  | some entry =>
      takeDown env envelope entry
      match ← entryOf envelope with
      | none => return false
      | some entry => dropDone env envelope entry

def sweep : Op Unit := do
  let pruned ← (← get).keeper.mem.keys.foldlM (fun pruned envelope => return (← sweepOne env envelope) || pruned) false
  if pruned then save env [] else return ()

def step (facts : List Fact) (requests : List String) : Op Unit := do
  facts.forM (handleFact env)
  requests.forM (addRequest env)
  (← get).keeper.pendingWorking.entries.forM (work env)
  sweep env

/-! ### Runs -/

inductive Action where
  | step (facts : List Fact) (requests : List String)
  | restart

/-- A new process: it has what was saved. -/
def reload (w : World) : World := { w with keeper := { w.keeper with mem := w.keeper.disk, pendingWorking := .empty } }

def next (w : World) : Action → World
  | .step facts requests =>
      match step env facts requests w with
      | (some _, w') => w'
      | (none, w') => reload w'
  | .restart => reload w

def run (start : World) (actions : List Action) : World := actions.foldl (next env) start

end Keeper

/-! ### What the keeper is for -/

/-- The reaction of a status that a state holds. -/
def reactionIn (state : State) (envelope : String) (which : Which) : Option Event :=
  ((state.get envelope).bind (·.slot which)).bind (·.event)

/-- What may be handed over after what was. -/
def Apt (before : List Note) : Note → Prop
  | .reaction envelope which ev _ saved =>
      (∀ other answer then_, .reaction envelope which other answer then_ ∉ before) ∧ .cleared envelope ∉ before ∧
        reactionIn saved envelope which = some ev
  | .cleared _ => True
  | .deletion envelope which ev saved =>
      (∀ other then_, .deletion envelope which other then_ ∈ before → other = ev) ∧
        ∃ reaction, reactionIn saved envelope which = some reaction ∧ ev.kind = 5 ∧ ev.tags = [["e", reaction.id]]

/-- Every note was apt when it was made. -/
def Fine (log : List Note) : Prop := ∀ front note back, log = front ++ note :: back → Apt front note

/-- The deletions of a cleared envelope hold every reaction that was handed over and not refused outright. -/
def Listed (log : List Note) (envelope : String) (entry : Entry) : Prop :=
  entry.cleared = true → ∀ which ev answer saved, .reaction envelope which ev answer saved ∈ log → answer ≠ .ok false →
    ∃ d ∈ entry.deletions, d.which = which ∧ d.target = ev.id

/-- **What the keeper keeps**, of the notes and of both states. -/
structure Keeps (k : Keeper) : Prop where
  fine : Fine k.log
  mem : ∀ envelope entry, k.mem.get envelope = some entry → Listed k.log envelope entry
  disk : ∀ envelope entry, k.disk.get envelope = some entry → Listed k.log envelope entry

def Note.envelope : Note → String
  | .reaction envelope _ _ _ _ => envelope
  | .cleared envelope => envelope
  | .deletion envelope _ _ _ => envelope

section Invariant

variable {k k' : Keeper} {log : List Note} {envelope other : String} {entry : Entry} {which : Which} {note : Note}

/-- What the notes say of an entry. -/
structure EntryOk (envelope : String) (entry : Entry) (log : List Note) : Prop where
  reacted : ∀ which ev answer saved, .reaction envelope which ev answer saved ∈ log →
    ∃ slot, entry.slot which = some slot ∧ slot.event = some ev
  refused : ∀ which slot, entry.slot which = some slot → slot.failed = some "relay-refused" →
    ∀ ev answer saved, .reaction envelope which ev answer saved ∈ log → answer = .ok false
  known : .cleared envelope ∈ log → entry.cleared = true
  nothing : entry.cleared = false → entry.deletions = []
  listed : Listed log envelope entry
  names : ∀ d ∈ entry.deletions, ∃ slot ev, entry.slot d.which = some slot ∧ slot.event = some ev ∧ d.target = ev.id
  once : (entry.deletions.map (·.which)).Nodup
  signed : ∀ d ∈ entry.deletions, ∀ ev, d.event = some ev → ev.kind = 5 ∧ ev.tags = [["e", d.target]]
  erased : ∀ which ev saved, .deletion envelope which ev saved ∈ log →
    ∃ d ∈ entry.deletions, d.which = which ∧ d.event = some ev

/-- What the notes say of an envelope in a state. -/
def StateOk (state : State) (pruned : List String) (log : List Note) (envelope : String) : Prop :=
  match state.get envelope with
  | some entry => EntryOk envelope entry log
  | none => envelope ∈ pruned ∨ ∀ note ∈ log, note.envelope ≠ envelope

/-- Memory has what was saved, but for what was pruned since. -/
def SyncedAt (k : Keeper) (envelope : String) : Prop :=
  k.mem.get envelope = k.disk.get envelope ∨ k.mem.get envelope = none ∧ envelope ∈ k.pruned

/-- What outlives the process. -/
structure Durable (k : Keeper) : Prop where
  fine : Fine k.log
  states : ∀ envelope, StateOk k.disk k.pruned k.log envelope

structure Good (k : Keeper) : Prop extends Durable k where
  synced : ∀ envelope, SyncedAt k envelope

/-- One entry is changed in memory. -/
structure Holding (envelope : String) (entry : Entry) (k : Keeper) : Prop extends Durable k where
  held : k.mem.get envelope = some entry
  ok : EntryOk envelope entry k.log
  others : ∀ other, other ≠ envelope → SyncedAt k other

/-- And saved. -/
structure Saved (envelope : String) (entry : Entry) (k : Keeper) : Prop extends Holding envelope entry k where
  saved : k.disk.get envelope = some entry

theorem EntryOk.append (ok : EntryOk envelope entry log) (apart : note.envelope ≠ envelope) :
    EntryOk envelope entry (log ++ [note]) := by
  have kept : ∀ {n : Note}, n.envelope = envelope → n ∈ log ++ [note] → n ∈ log := by
    intro n same member
    rcases List.mem_append.mp member with before | last
    · exact before
    · obtain rfl := List.mem_singleton.mp last
      exact absurd same apart
  exact {
    reacted := fun which ev answer saved member => ok.reacted which ev answer saved (kept rfl member)
    refused := fun which slot there failed ev answer saved member =>
      ok.refused which slot there failed ev answer saved (kept rfl member)
    known := fun member => ok.known (kept rfl member)
    nothing := ok.nothing
    listed := fun cleared which ev answer saved member => ok.listed cleared which ev answer saved (kept rfl member)
    names := ok.names
    once := ok.once
    signed := ok.signed
    erased := fun which ev saved member => ok.erased which ev saved (kept rfl member) }

theorem Saved.good (saved : Saved envelope entry k) : Good k where
  toDurable := saved.toDurable
  synced other := by
    by_cases same : other = envelope
    · subst same
      exact .inl (saved.held.trans saved.saved.symm)
    · exact saved.others other same

/-- An entry of a good keeper is saved. -/
theorem Good.saved (good : Good k) (held : k.mem.get envelope = some entry) : Saved envelope entry k := by
  have disk : k.disk.get envelope = some entry := by
    rcases good.synced envelope with same | ⟨none, -⟩
    · exact same.symm.trans held
    · rw [none] at held
      cases held
  have ok := good.states envelope
  unfold StateOk at ok
  rw [disk] at ok
  exact { good.toDurable with held := held, ok := ok, others := fun other _ => good.synced other, saved := disk }

theorem Good.keeps (good : Good k) : Keeps k where
  fine := good.fine
  mem envelope entry held := (good.saved held).ok.listed
  disk envelope entry there := by
    have ok := good.states envelope
    unfold StateOk at ok
    rw [there] at ok
    exact ok.listed

/-! ### Changes of one entry -/

theorem EntryOk.unsent (ok : EntryOk envelope entry log) (free : entry.slot which = none) (ev : Event)
    (answer : Except String Bool) (saved : State) : .reaction envelope which ev answer saved ∉ log := by
  intro member
  obtain ⟨slot, there, -⟩ := ok.reacted which ev answer saved member
  rw [free] at there
  cases there

theorem slot_setSlot (entry : Entry) (which : Which) (slot : Slot) (other : Which) :
    (entry.setSlot which slot).slot other = if other = which then some slot else entry.slot other := by
  cases which <;> cases other <;> rfl

theorem setSlot_setSlot (entry : Entry) (which : Which) (first second : Slot) :
    (entry.setSlot which first).setSlot which second = entry.setSlot which second := by
  cases which <;> rfl

theorem setSlot_eq (entry : Entry) (which : Which) (slot : Slot) :
    (entry.setSlot which slot).cleared = entry.cleared ∧ (entry.setSlot which slot).deletions = entry.deletions := by
  cases which <;> exact ⟨rfl, rfl⟩

/-- **A slot is set**: it has the event that was handed over, and is marked refused only where the relay refused. -/
theorem EntryOk.setSlot (ok : EntryOk envelope entry log) (up : entry.cleared = false) {slot : Slot}
    (event : ∀ ev answer saved, .reaction envelope which ev answer saved ∈ log → slot.event = some ev)
    (refused : slot.failed = some "relay-refused" → ∀ ev answer saved,
      .reaction envelope which ev answer saved ∈ log → answer = .ok false) :
    EntryOk envelope (entry.setSlot which slot) log := by
  obtain ⟨cleared, deletions⟩ := setSlot_eq entry which slot
  have none := ok.nothing up
  constructor
  case reacted =>
    intro other ev answer saved member
    rw [slot_setSlot]
    split
    next same => exact ⟨slot, rfl, event ev answer saved (same ▸ member)⟩
    next => exact ok.reacted other ev answer saved member
  case refused =>
    intro other there found failed ev answer saved member
    rw [slot_setSlot] at found
    split at found
    next same =>
      obtain rfl := Option.some_inj.mp found
      exact refused failed ev answer saved (same ▸ member)
    next => exact ok.refused other there found failed ev answer saved member
  case known => exact fun member => cleared.trans (ok.known member)
  case nothing => exact fun _ => deletions.trans none
  case listed =>
    intro is
    rw [cleared, up] at is
    cases is
  case names => exact fun d member => absurd member (by rw [deletions, none]; exact List.not_mem_nil)
  case once =>
    rw [deletions, none]
    exact List.nodup_nil
  case signed => exact fun d member => absurd member (by rw [deletions, none]; exact List.not_mem_nil)
  case erased =>
    intro other ev saved member
    obtain ⟨d, listed, -⟩ := ok.erased other ev saved member
    rw [none] at listed
    exact absurd listed List.not_mem_nil

theorem mem_deletions {d : Deletion} : d ∈ [Which.seen, .working].filterMap (deletionOf entry) ↔
    ∃ slot ev, entry.slot d.which = some slot ∧ slot.failed ≠ some "relay-refused" ∧ slot.event = some ev ∧
      d = { which := d.which, target := ev.id } := by
  have one : ∀ w, deletionOf entry w = some d ↔ ∃ slot ev, entry.slot w = some slot ∧
      slot.failed ≠ some "relay-refused" ∧ slot.event = some ev ∧ d = { which := w, target := ev.id } := by
    intro w
    unfold deletionOf
    cases entry.slot w with
    | none => simp
    | some slot =>
      rw [Option.bind_some]
      split
      next failed => simp [failed]
      next failed =>
        simp only [Option.map_eq_some_iff, Option.some.injEq]
        constructor
        · rintro ⟨ev, event, rfl⟩
          exact ⟨slot, ev, rfl, failed, event, rfl⟩
        · rintro ⟨_, ev, rfl, -, event, rfl⟩
          exact ⟨ev, event, rfl⟩
  rw [List.mem_filterMap]
  constructor
  · rintro ⟨w, -, made⟩
    obtain ⟨slot, ev, there, failed, event, rfl⟩ := (one w).mp made
    exact ⟨slot, ev, there, failed, event, rfl⟩
  · rintro ⟨slot, ev, there, failed, event, same⟩
    refine ⟨d.which, ?_, (one d.which).mpr ⟨slot, ev, there, failed, event, same⟩⟩
    cases d.which <;> simp

theorem nodup_deletions (entry : Entry) : (([Which.seen, .working].filterMap (deletionOf entry)).map (·.which)).Nodup := by
  have which : ∀ w d, deletionOf entry w = some d → d.which = w := by
    intro w d made
    unfold deletionOf at made
    obtain ⟨slot, -, made⟩ := Option.bind_eq_some_iff.mp made
    split at made
    · cases made
    · obtain ⟨ev, -, rfl⟩ := Option.map_eq_some_iff.mp made
      rfl
  cases seen : deletionOf entry .seen with
  | none =>
    cases working : deletionOf entry .working with
    | none => simp [seen, working]
    | some d => simp [seen, working]
  | some first =>
    cases working : deletionOf entry .working with
    | none => simp [seen, working]
    | some second => simp [seen, working, which _ _ seen, which _ _ working]

theorem slot_clear (entry : Entry) (t : Int) (reason : Reason) (which : Which) :
    (entry.clear t reason).slot which = entry.slot which := by
  cases which <;> rfl

theorem slot_setDeletion (entry : Entry) (d : Deletion) (which : Which) :
    (entry.setDeletion d).slot which = entry.slot which := by
  cases which <;> rfl

/-- **An entry is cleared**: every reaction that was handed over and not refused outright is listed. -/
theorem EntryOk.clear (ok : EntryOk envelope entry log) (up : entry.cleared = false) {t : Int} (later : 0 < t)
    (reason : Reason) : (entry.clear t reason).cleared = true ∧ EntryOk envelope (entry.clear t reason) log := by
  have cleared : (entry.clear t reason).cleared = true := by
    simp only [Entry.cleared, Entry.clear, Option.any_some, decide_eq_true_eq]
    omega
  refine ⟨cleared, ?_⟩
  constructor
  case reacted =>
    intro w ev answer saved member
    rw [slot_clear]
    exact ok.reacted w ev answer saved member
  case refused =>
    intro w slot there
    rw [slot_clear] at there
    exact ok.refused w slot there
  case known => exact fun _ => cleared
  case nothing => exact fun up => absurd (cleared.symm.trans up) nofun
  case listed =>
    intro _ w ev answer saved member went
    obtain ⟨slot, there, event⟩ := ok.reacted w ev answer saved member
    refine ⟨{ which := w, target := ev.id }, mem_deletions.mpr ⟨slot, ev, there, fun failed => ?_, event, rfl⟩, rfl, rfl⟩
    exact went (ok.refused w slot there failed ev answer saved member)
  case names =>
    intro d member
    obtain ⟨slot, ev, there, -, event, same⟩ := mem_deletions.mp member
    refine ⟨slot, ev, (slot_clear entry t reason _).trans there, event, ?_⟩
    rw [same]
  case once => exact nodup_deletions entry
  case signed =>
    intro d member ev event
    obtain ⟨slot, _, -, -, -, same⟩ := mem_deletions.mp member
    rw [same] at event
    cases event
  case erased =>
    intro w ev saved member
    obtain ⟨d, listed, -⟩ := ok.erased w ev saved member
    rw [ok.nothing up] at listed
    exact absurd listed List.not_mem_nil

theorem setDeletion_setDeletion (entry : Entry) {d d' : Deletion} (same : d'.which = d.which) :
    (entry.setDeletion d).setDeletion d' = entry.setDeletion d' := by
  unfold Entry.setDeletion
  simp only [List.map_map]
  congr 1
  apply List.map_congr_left
  intro old _
  simp only [Function.comp]
  by_cases own : old.which = d.which
  · rw [if_pos own, if_pos same.symm, if_pos (own.trans same.symm)]
  · rw [if_neg own]

/-- **A deletion is changed in place**: its target stays, and so does an event it has. -/
theorem EntryOk.setDeletion (ok : EntryOk envelope entry log) {d d' : Deletion} (member : d ∈ entry.deletions)
    (which : d'.which = d.which) (target : d'.target = d.target)
    (event : ∀ ev, d.event = some ev → d'.event = some ev)
    (signed : ∀ ev, d'.event = some ev → ev.kind = 5 ∧ ev.tags = [["e", d'.target]]) :
    EntryOk envelope (entry.setDeletion d') log := by
  have own : ∀ old ∈ entry.deletions, old.which = d'.which → old = d := by
    intro old listed same
    exact List.inj_on_of_nodup_map ok.once listed member (same.trans which)
  have whiches : (entry.setDeletion d').deletions.map (·.which) = entry.deletions.map (·.which) := by
    unfold Entry.setDeletion
    rw [List.map_map]
    apply List.map_congr_left
    intro old _
    simp only [Function.comp]
    split
    next same => exact same.symm
    next => rfl
  have moved : ∀ old ∈ entry.deletions, ∃ new ∈ (entry.setDeletion d').deletions, new.which = old.which ∧
      new.target = old.target ∧ ∀ ev, old.event = some ev → new.event = some ev := by
    intro old listed
    refine ⟨_, List.mem_map_of_mem listed, ?_⟩
    split
    next same =>
      obtain rfl := own old listed same
      exact ⟨which, target, event⟩
    next => exact ⟨rfl, rfl, fun _ there => there⟩
  have came : ∀ new ∈ (entry.setDeletion d').deletions, new = d' ∨ new ∈ entry.deletions := by
    intro new listed
    obtain ⟨old, there, rfl⟩ := List.mem_map.mp listed
    split
    · exact .inl rfl
    · exact .inr there
  constructor
  case reacted =>
    intro w ev answer saved note
    rw [slot_setDeletion]
    exact ok.reacted w ev answer saved note
  case refused =>
    intro w slot there
    rw [slot_setDeletion] at there
    exact ok.refused w slot there
  case known => exact ok.known
  case nothing =>
    intro up
    have none := ok.nothing up
    rw [none] at member
    exact absurd member List.not_mem_nil
  case listed =>
    intro cleared w ev answer saved note went
    obtain ⟨old, listed, same, names⟩ := ok.listed cleared w ev answer saved note went
    obtain ⟨new, there, which', target', -⟩ := moved old listed
    exact ⟨new, there, which'.trans same, target'.trans names⟩
  case names =>
    intro new listed
    rcases came new listed with rfl | there
    · obtain ⟨slot, ev, found, had, names⟩ := ok.names d member
      exact ⟨slot, ev, by rw [slot_setDeletion, which, found], had, target.trans names⟩
    · obtain ⟨slot, ev, found, had, names⟩ := ok.names new there
      exact ⟨slot, ev, (slot_setDeletion entry d' _).trans found, had, names⟩
  case once =>
    rw [whiches]
    exact ok.once
  case signed =>
    intro new listed
    rcases came new listed with rfl | there
    · exact signed
    · exact ok.signed new there
  case erased =>
    intro w ev saved note
    obtain ⟨old, listed, same, had⟩ := ok.erased w ev saved note
    obtain ⟨new, there, which', -, event'⟩ := moved old listed
    exact ⟨new, there, which'.trans same, event' ev had⟩

/-! ### Changes of the keeper -/

theorem Fine.append (fine : Fine log) (apt : Apt log note) : Fine (log ++ [note]) := by
  intro front last back split
  rcases List.eq_nil_or_concat back with rfl | ⟨inner, final, rfl⟩
  · obtain ⟨rfl, same⟩ := List.append_inj' split rfl
    obtain rfl := (List.singleton_inj.mp same)
    exact apt
  · rw [List.concat_eq_append, ← List.cons_append, ← List.append_assoc] at split
    obtain ⟨inside, -⟩ := List.append_inj' split rfl
    exact fine front last inner inside

theorem StateOk.append {state : State} {pruned : List String} (ok : StateOk state pruned log other)
    (apart : note.envelope ≠ other) : StateOk state pruned (log ++ [note]) other := by
  unfold StateOk at ok ⊢
  cases found : state.get other with
  | some entry =>
    rw [found] at ok
    exact EntryOk.append ok apart
  | none =>
    rw [found] at ok
    refine ok.imp_right fun away n member => ?_
    rcases List.mem_append.mp member with before | last
    · exact away n before
    · rw [List.mem_singleton.mp last]
      exact apart

theorem stateOk_of_get {state : State} {pruned : List String} (there : state.get envelope = some entry)
    (ok : EntryOk envelope entry log) : StateOk state pruned log envelope := by
  unfold StateOk
  rw [there]
  exact ok

theorem Holding.set (holding : Holding envelope entry k) {entry' : Entry} (ok : EntryOk envelope entry' k.log) :
    Holding envelope entry' { k with mem := k.mem.set envelope entry' } where
  fine := holding.fine
  states := holding.states
  held := by
    rw [JsMap.get_set, if_pos rfl]
  ok := ok
  others other apart := by
    unfold SyncedAt
    rw [show ({ k with mem := k.mem.set envelope entry' } : Keeper).mem = k.mem.set envelope entry' from rfl,
      JsMap.get_set, if_neg (by exact apart)]
    exact holding.others other apart

/-- What memory says of the other envelopes is what the disk says. -/
theorem Holding.stateOk (holding : Holding envelope entry k) (apart : other ≠ envelope) :
    StateOk k.mem k.pruned k.log other := by
  rcases holding.others other apart with same | ⟨none, pruned⟩
  · have ok := holding.states other
    unfold StateOk at ok ⊢
    rw [same]
    exact ok
  · unfold StateOk
    rw [none]
    exact .inl pruned

theorem Holding.save (holding : Holding envelope entry k) :
    Saved envelope entry { k with disk := k.mem, log := k.log ++ [] } := by
  rw [List.append_nil]
  constructor
  case saved => exact holding.held
  constructor
  case held => exact holding.held
  case ok => exact holding.ok
  case others => exact fun other _ => .inl rfl
  constructor
  case fine => exact holding.fine
  case states =>
    intro other
    by_cases same : other = envelope
    · subst same
      exact stateOk_of_get holding.held holding.ok
    · exact holding.stateOk same

/-- A cleared entry is saved, and with it that it is cleared. -/
theorem Holding.saveCleared (holding : Holding envelope entry k) (cleared : entry.cleared = true) :
    Saved envelope entry { k with disk := k.mem, log := k.log ++ [.cleared envelope] } := by
  have ok : EntryOk envelope entry (k.log ++ [.cleared envelope]) := by
    have kept : ∀ {n : Note}, (∀ e, n ≠ .cleared e) → n ∈ k.log ++ [.cleared envelope] → n ∈ k.log := by
      intro n different member
      rcases List.mem_append.mp member with before | last
      · exact before
      · exact absurd (List.mem_singleton.mp last) (different envelope)
    exact {
      reacted := fun w ev answer saved member => holding.ok.reacted w ev answer saved (kept nofun member)
      refused := fun w slot there failed ev answer saved member =>
        holding.ok.refused w slot there failed ev answer saved (kept nofun member)
      known := fun _ => cleared
      nothing := holding.ok.nothing
      listed := fun is w ev answer saved member => holding.ok.listed is w ev answer saved (kept nofun member)
      names := holding.ok.names
      once := holding.ok.once
      signed := holding.ok.signed
      erased := fun w ev saved member => holding.ok.erased w ev saved (kept nofun member) }
  constructor
  case saved => exact holding.held
  constructor
  case held => exact holding.held
  case ok => exact ok
  case others => exact fun other _ => .inl rfl
  constructor
  case fine => exact holding.fine.append trivial
  case states =>
    intro other
    by_cases same : other = envelope
    · subst same
      exact stateOk_of_get holding.held ok
    · exact (holding.stateOk same).append (Ne.symm same)

/-- **A reaction is handed over.** -/
theorem Saved.reaction (saved : Saved envelope entry k) (up : entry.cleared = false) {slot : Slot}
    (there : entry.slot which = some slot) (unmarked : slot.failed ≠ some "relay-refused") {ev : Event}
    (event : slot.event = some ev) (unsent : ∀ ev answer saved, .reaction envelope which ev answer saved ∉ k.log)
    (answer : Except String Bool) :
    Saved envelope entry { k with log := k.log ++ [.reaction envelope which ev answer k.disk] } := by
  have old : ∀ {n : Note}, n ∈ k.log ++ [.reaction envelope which ev answer k.disk] →
      n ∈ k.log ∨ n = .reaction envelope which ev answer k.disk := fun member => by simpa using member
  have ok : EntryOk envelope entry (k.log ++ [.reaction envelope which ev answer k.disk]) := by
    constructor
    case reacted =>
      intro w other answer' saved' member
      rcases old member with before | same
      · exact saved.ok.reacted w other answer' saved' before
      · cases same
        exact ⟨slot, there, event⟩
    case refused =>
      intro w slot' there' failed other answer' saved' member
      rcases old member with before | same
      · exact saved.ok.refused w slot' there' failed other answer' saved' before
      · cases same
        rw [there] at there'
        obtain rfl := Option.some_inj.mp there'
        exact absurd failed unmarked
    case known =>
      intro member
      rcases old member with before | same
      · exact saved.ok.known before
      · cases same
    case nothing => exact saved.ok.nothing
    case listed =>
      intro is
      rw [up] at is
      cases is
    case names => exact saved.ok.names
    case once => exact saved.ok.once
    case signed => exact saved.ok.signed
    case erased =>
      intro w other saved' member
      rcases old member with before | same
      · exact saved.ok.erased w other saved' before
      · cases same
  have apt : Apt k.log (.reaction envelope which ev answer k.disk) := by
    refine ⟨unsent, fun cleared => ?_, ?_⟩
    · rw [saved.ok.known cleared] at up
      cases up
    · unfold reactionIn
      rw [saved.saved, Option.bind_some, there, Option.bind_some, event]
  exact {
    fine := saved.fine.append apt
    states := fun other => by
      by_cases same : other = envelope
      · subst same
        exact stateOk_of_get saved.saved ok
      · exact (saved.states other).append (Ne.symm same)
    held := saved.held
    ok := ok
    others := saved.others
    saved := saved.saved }

theorem EntryOk.deletion (ok : EntryOk envelope entry log) {d : Deletion} (member : d ∈ entry.deletions) {ev : Event}
    (event : d.event = some ev) (saved : State) : EntryOk envelope entry (log ++ [.deletion envelope d.which ev saved]) := by
  have old : ∀ {n : Note}, n ∈ log ++ [.deletion envelope d.which ev saved] →
      n ∈ log ∨ n = .deletion envelope d.which ev saved := fun member => by simpa using member
  constructor
  case reacted =>
    intro w other answer' saved' member
    rcases old member with before | same
    · exact ok.reacted w other answer' saved' before
    · cases same
  case refused =>
    intro w slot' there' failed other answer' saved' member
    rcases old member with before | same
    · exact ok.refused w slot' there' failed other answer' saved' before
    · cases same
  case known =>
    intro member
    rcases old member with before | same
    · exact ok.known before
    · cases same
  case nothing => exact ok.nothing
  case listed =>
    intro is w other answer' saved' member
    rcases old member with before | same
    · exact ok.listed is w other answer' saved' before
    · cases same
  case names => exact ok.names
  case once => exact ok.once
  case signed => exact ok.signed
  case erased =>
    intro w other saved' noted
    rcases old noted with before | same
    · exact ok.erased w other saved' before
    · cases same
      exact ⟨d, member, rfl, event⟩

/-- **A deletion is handed over**, with what was saved of it. -/
theorem Holding.deletion (holding : Holding envelope entry k) {d : Deletion} (member : d ∈ entry.deletions) {ev : Event}
    (event : d.event = some ev) {stored : Entry} (saved : k.disk.get envelope = some stored)
    (known : ∃ d' ∈ stored.deletions, d'.which = d.which ∧ d'.event = some ev) :
    Holding envelope entry { k with log := k.log ++ [.deletion envelope d.which ev k.disk] } := by
  obtain ⟨d', listed, same, event'⟩ := known
  have ok : EntryOk envelope stored k.log := by
    have ok := holding.states envelope
    unfold StateOk at ok
    rw [saved] at ok
    exact ok
  have apt : Apt k.log (.deletion envelope d.which ev k.disk) := by
    refine ⟨fun other then_ before => ?_, ?_⟩
    · obtain ⟨d'', there, same', event''⟩ := ok.erased _ _ _ before
      obtain rfl := List.inj_on_of_nodup_map ok.once there listed (same'.trans same.symm)
      exact Option.some_inj.mp (event''.symm.trans event')
    · obtain ⟨slot, reaction, there, had, target⟩ := ok.names d' listed
      obtain ⟨kind, tags⟩ := ok.signed d' listed ev event'
      refine ⟨reaction, ?_, kind, target ▸ tags⟩
      unfold reactionIn
      rw [saved, Option.bind_some, ← same, there, Option.bind_some, had]
  exact {
    fine := holding.fine.append apt
    states := fun other => by
      by_cases own : other = envelope
      · subst own
        exact stateOk_of_get saved (same ▸ ok.deletion listed event' k.disk)
      · exact (holding.states other).append (Ne.symm own)
    held := holding.held
    ok := holding.ok.deletion member event k.disk
    others := holding.others }

/-- **An entry is made** for an envelope that was not pruned. -/
theorem Good.create (good : Good k) (free : k.mem.get envelope = none) (fresh : envelope ∉ k.pruned) {target channel : String}
    {saidAt : ℚ} {revived : List String} :
    Holding envelope ⟨target, channel, saidAt, none, none, none, none, []⟩ { k with
      mem := k.mem.set envelope ⟨target, channel, saidAt, none, none, none, none, []⟩
      revived := revived } := by
  have disk : k.disk.get envelope = none := by
    rcases good.synced envelope with same | ⟨-, pruned⟩
    · exact same ▸ free
    · exact absurd pruned fresh
  have silent : ∀ note ∈ k.log, note.envelope ≠ envelope := by
    have ok := good.states envelope
    unfold StateOk at ok
    rw [disk] at ok
    exact ok.resolve_left fresh
  have none : ∀ {n : Note}, n.envelope = envelope → n ∉ k.log := fun same member => silent _ member same
  refine {
    fine := good.fine
    states := good.states
    held := by rw [JsMap.get_set, if_pos rfl]
    ok := ?_
    others := fun other apart => by
      unfold SyncedAt
      dsimp only
      rw [JsMap.get_set, if_neg (by exact apart)]
      exact good.synced other }
  exact {
    reacted := fun w ev answer saved member => absurd member (none rfl)
    refused := fun w slot _ _ ev answer saved member => absurd member (none rfl)
    known := fun member => absurd member (none rfl)
    nothing := fun _ => rfl
    listed := fun _ w ev answer saved member => absurd member (none rfl)
    names := fun _ member => absurd member List.not_mem_nil
    once := List.nodup_nil
    signed := fun _ member => absurd member List.not_mem_nil
    erased := fun w ev saved member => absurd member (none rfl) }

/-- An entry is dropped from memory. -/
theorem Good.prune (good : Good k) (envelope : String) :
    Good { k with mem := k.mem.delete envelope, pruned := k.pruned ++ [envelope] } := by
  have grows : ∀ {o}, o ∈ k.pruned → o ∈ k.pruned ++ [envelope] := fun member => List.mem_append_left _ member
  constructor
  case synced =>
    intro other
    unfold SyncedAt
    dsimp only
    rw [JsMap.get_delete]
    by_cases same : envelope = other
    · subst same
      exact .inr ⟨by simp, List.mem_append_right _ (List.mem_singleton_self _)⟩
    · rcases good.synced other with there | ⟨none, pruned⟩
      · exact .inl (by simpa [same, eq_comm] using there)
      · exact .inr ⟨by simp [none], grows pruned⟩
  constructor
  case fine => exact good.fine
  case states =>
    intro other
    have ok := good.states other
    unfold StateOk at ok ⊢
    dsimp only
    cases found : k.disk.get other with
    | some entry =>
      rw [found] at ok
      exact ok
    | none =>
      rw [found] at ok
      exact ok.imp_left grows

/-- Memory is saved as it is. -/
theorem Good.save (good : Good k) : Good { k with disk := k.mem, log := k.log ++ [] } := by
  rw [List.append_nil]
  constructor
  case synced => exact fun other => .inl rfl
  constructor
  case fine => exact good.fine
  case states =>
    intro other
    rcases good.synced other with same | ⟨none, pruned⟩
    · have ok := good.states other
      unfold StateOk at ok ⊢
      rw [← same] at ok
      exact ok
    · unfold StateOk
      rw [none]
      exact .inl pruned

theorem Durable.reload (durable : Durable k) (pending : JsMap String Int) :
    Good { k with mem := k.disk, pendingWorking := pending } where
  fine := durable.fine
  states := durable.states
  synced _ := .inl rfl

end Invariant

end Nvoy.Broker.Status
