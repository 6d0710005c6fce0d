/-
**The Buzz watcher and its watermark.**

The watcher remembers the last second at which it was caught up, and every subscription asks for the
mentions from ten minutes before it. The watermark moves when a subscription has been answered and
once a minute after that, whatever became of the events heard so far.

* `heard` — a message of a configured channel, or an owner's in a DM, that names the identity;
* `step` — the relay, the session, its subscriptions, timers and files, in any order;
* `Kept` — every mention is marked, still to be delivered, or newer than the watermark's overlap;
* `watermark_keeps` — `Kept` holds while nothing unmarked is left behind: no marker write fails, no
  notice comes late and no subscription ends for a mention that the overlap no longer covers;
* `watermark_passes` — one failed marker write, eleven minutes, and the mention is behind.
-/

import Nvoy.Watch.Files
import Nvoy.Broker.BuzzNative
import Nvoy.Lib.Runs

namespace Nvoy.Watch.Buzz

open Nvoy.Broker

/-- What the watcher is started with. -/
structure Watcher where
  host : Host
  me : String
  channels : List String
  owners : List String

/-- `OVERLAP_S` -/
def overlap : Nat := 600

def seenCap : Nat := 100000

def seenRetain : Nat := 90000

/-- The mention that `record` makes of an event while it follows `dms`. -/
def heard (watcher : Watcher) (dms : List String) (now : Int) (ev : Event) : Option Mention := do
  let mention ← nativeMention watcher.host watcher.me (watcher.channels ++ dms) now ev
  guard (watcher.channels.contains mention.channel ∨ watcher.owners.contains mention.author)
  return mention

/-! ### The state -/

/-- A message subscription: what it asks for, and the ids it has brought. -/
structure Subscription where
  since : Nat
  channels : List String
  delivered : List String

/-- The filter `kinds: [9]`, `#h`, `#p`, `since`. -/
def Subscription.Asks (me : String) (sub : Subscription) (ev : Event) : Prop :=
  ev.kind = 9 ∧ (∃ channel ∈ sub.channels, some channel ∈ ev.tagValues "h") ∧
    some me ∈ ev.tagValues "p" ∧ (sub.since : Int) ≤ ev.createdAt

instance (me : String) (sub : Subscription) (ev : Event) : Decidable (sub.Asks me ev) :=
  inferInstanceAs (Decidable (_ ∧ _))

/-- A subscription to membership notices: what it has brought, and whether its EOSE has come. -/
structure Notices where
  notices : List Event
  replayed : Bool

structure Session where
  message : Option Subscription
  dm : Option Notices
  heartbeat : Bool

/-- What becomes of writing the watermark: nothing, or a file that lacks the last `lost` digits. -/
inductive SinceWrite where
  | refused
  | written (lost : Nat)

/-- The relay and the watcher. A watermark file that is absent or without a digit reads as 0. -/
structure State where
  clock : Nat
  stored : List Event
  /-- The stored kind 9 events that were stamped within ten minutes of their acceptance. -/
  owed : List Event
  notices : List Event
  since : Nat
  sinceFile : Nat
  seen : Seen
  spool : Spool
  dms : List String
  session : Option Session

def State.now (state : State) : Nat := state.clock / 1000

def State.message (state : State) : Option Subscription := state.session.bind (·.message)

/-! ### The watcher's functions -/

section Functions

variable (watcher : Watcher)

def caughtUp (state : State) (write : SinceWrite) : State :=
  { state with
    since := state.now
    sinceFile := match write with
      | .refused => state.sinceFile
      | .written lost => state.now / 10 ^ lost }

def record (state : State) (ev : Event) (marker : MarkerWrite) (log : LogWrites) : State :=
  if state.seen.has ev.id then state
  else if (heard watcher state.dms state.now ev).isSome then
    let result := state.spool.leave ev.id marker
    { state with
      spool := result.1
      seen := if result.2 then state.seen.mark seenCap seenRetain log ev.id else state.seen }
  else state

/-- A new message subscription in place of the old one. -/
def subscribe (state : State) : State :=
  let sub : Subscription := ⟨state.since - overlap, watcher.channels ++ state.dms, []⟩
  { state with session := state.session.map fun session => { session with message := some sub } }

def subscribeDms (state : State) : State :=
  { state with session := state.session.map fun session => { session with dm := some ⟨[], false⟩ } }

/-- The notices were replayed and name the DM channels that are followed. -/
def Settled (dms : List String) (heard : Notices) : Prop :=
  heard.replayed = true ∧
    ",".intercalate (dmChannels watcher.host watcher.me heard.notices) = ",".intercalate dms

instance (dms : List String) (heard : Notices) : Decidable (Settled watcher dms heard) :=
  inferInstanceAs (Decidable (_ ∧ _))

def follow (state : State) (heard : Notices) : State :=
  if Settled watcher state.dms heard then state
  else subscribe watcher { state with
    dms := dmChannels watcher.host watcher.me heard.notices
    session := state.session.map fun session =>
      { session with dm := some { heard with replayed := true } } }

def start (state : State) : State :=
  if watcher.owners = [] then subscribe watcher state else subscribeDms state

/-- A new process: the seen log, and the watermark file or else "now". -/
def boot (state : State) (torn : List String) (write : SinceWrite) : State :=
  let state := { state with
    session := none, dms := [], seen := state.seen.reload (fun id => decide (id ∉ torn)) }
  if 0 < state.sinceFile then { state with since := state.sinceFile } else caughtUp state write

end Functions

/-! ### The machine -/

inductive Action where
  | tick (ms : Nat)
  | accept (ev : Event)
  | notice (ev : Event)
  | login
  | dmEvent (ev : Event)
  | dmEose
  | event (ev : Event) (marker : MarkerWrite) (log : LogWrites)
  | eose (write : SinceWrite)
  | heartbeat (write : SinceWrite)
  | refresh
  | drop
  | restart (torn : List String) (write : SinceWrite)
  | consume (id : String)

def step (watcher : Watcher) (state : State) : Action → State
  | .tick ms => { state with clock := state.clock + ms }
  | .accept ev =>
    if ev.id ∈ state.stored.map (·.id) then state
    else { state with
      stored := ev :: state.stored
      owed :=
        if ev.kind = 9 ∧ 0 ≤ ev.createdAt ∧ ev.createdAt ≤ state.now + 600 ∧
            (state.now : Int) ≤ ev.createdAt + 600 then
          ev :: state.owed
        else state.owed }
  | .notice ev => { state with notices := ev :: state.notices }
  | .login =>
    match state.session with
    | some _ => state
    | none => start watcher { state with session := some ⟨none, none, false⟩ }
  | .dmEvent ev =>
    match state.session with
    | some ⟨message, some notices, heartbeat⟩ =>
      let heard : Notices := { notices with notices := notices.notices ++ [ev] }
      let state := { state with session := some ⟨message, some heard, heartbeat⟩ }
      if notices.replayed then follow watcher state heard else state
    | _ => state
  | .dmEose =>
    match state.session with
    | some ⟨_, some notices, _⟩ => follow watcher state notices
    | _ => state
  | .event ev marker log =>
    match state.session with
    | some ⟨some sub, dm, heartbeat⟩ =>
      if ev ∈ state.stored ∧ sub.Asks watcher.me ev then
        { record watcher state ev marker log with
          session := some ⟨some { sub with delivered := ev.id :: sub.delivered }, dm, heartbeat⟩ }
      else state
    | _ => state
  | .eose write =>
    match state.session with
    | some ⟨some sub, dm, _⟩ =>
      caughtUp { state with session := some ⟨some sub, dm, true⟩ } write
    | _ => state
  | .heartbeat write =>
    match state.session with
    | some ⟨_, _, true⟩ => caughtUp state write
    | _ => state
  | .refresh => start watcher state
  | .drop => { state with session := none }
  | .restart torn write => boot state torn write
  | .consume id =>
    { state with spool := { state.spool with files := state.spool.files.filter (·.envelope ≠ id) } }

/-- The first start, before which nothing was promised. -/
def first (clock : Nat) (notices : List Event) (write : SinceWrite) : State :=
  caughtUp ⟨clock, [], [], notices, 0, 0, ⟨[], []⟩, ⟨[], []⟩, [], none⟩ write

/-! ### What is kept -/

section Kept

variable (watcher : Watcher) (state : State)

/-- A mention in a configured channel, or an owner's in a DM the identity is in by the relay's
notices, that has no marker yet. -/
def Open (ev : Event) : Prop :=
  ev ∈ state.owed ∧ ev.id ∉ state.spool.written ∧
    (heard watcher (dmChannels watcher.host watcher.me state.notices) state.now ev).isSome = true

instance (ev : Event) : Decidable (Open watcher state ev) :=
  inferInstanceAs (Decidable (_ ∧ _))

/-- The subscription asks for the event and has not brought it yet. -/
def Pending (ev : Event) : Prop :=
  ∃ sub, state.message = some sub ∧ sub.Asks watcher.me ev ∧ ev.id ∉ sub.delivered

/-- Every open mention is still to be delivered or newer than the overlap. -/
def Kept : Prop :=
  ∀ ev, Open watcher state ev → Pending watcher state ev ∨ (state.since : Int) - 600 ≤ ev.createdAt

/-- The subscription covers the event but for its age, and no delivery of it has failed. -/
def InHand (ev : Event) : Prop :=
  ∃ sub, state.message = some sub ∧ ev.id ∉ sub.delivered ∧ some watcher.me ∈ ev.tagValues "p" ∧
    ∃ channel ∈ sub.channels, some channel ∈ ev.tagValues "h"

/-- No open mention that is still to be delivered is older than the overlap. -/
def Ends : Prop :=
  ∀ ev, Open watcher state ev → Pending watcher state ev → (state.since : Int) - 600 ≤ ev.createdAt

/-- What each action needs so that the watermark passes no mention. -/
def Keeps : Action → Prop
  | .event ev marker _ =>
    state.spool.Clean ev.id ∧ (Open watcher state ev → marker = .refused ∨ marker = .torn →
      (state.since : Int) - 600 ≤ ev.createdAt)
  | .eose _ | .heartbeat _ =>
    ∀ ev, Open watcher state ev → InHand watcher state ev ∨ (state.now : Int) - 600 ≤ ev.createdAt
  | .dmEvent ev =>
    ∀ message notices heartbeat, state.session = some ⟨message, some notices, heartbeat⟩ →
      notices.replayed = true →
      ¬ Settled watcher state.dms { notices with notices := notices.notices ++ [ev] } →
      Ends watcher state
  | .dmEose =>
    ∀ message notices heartbeat, state.session = some ⟨message, some notices, heartbeat⟩ →
      ¬ Settled watcher state.dms notices → Ends watcher state
  | .refresh => watcher.owners = [] → Ends watcher state
  | .drop => Ends watcher state
  | .restart _ _ =>
    if 0 < state.sinceFile then
      ∀ ev, Open watcher state ev → Pending watcher state ev →
        (state.sinceFile : Int) - 600 ≤ ev.createdAt
    else ∀ ev, Open watcher state ev → (state.now : Int) - 600 ≤ ev.createdAt
  | .notice ev =>
    ∀ other, Open watcher { state with notices := ev :: state.notices } other →
      Open watcher state other ∨ (state.since : Int) - 600 ≤ other.createdAt
  | _ => True

end Kept

/-! ### Mentions -/

section Heard

variable {watcher : Watcher} {dms other : List String} {now later : Int} {ev : Event}

theorem heard_isSome :
    (heard watcher dms now ev).isSome = true ↔ ∃ mention,
      nativeMention watcher.host watcher.me (watcher.channels ++ dms) now ev = some mention ∧
        (mention.channel ∈ watcher.channels ∨ mention.author ∈ watcher.owners) := by
  unfold heard
  simp only [Option.isSome_iff_exists, Admission.bind_eq_some_iff, Option.guard_eq_some',
    exists_const, Option.pure_def, Option.some.injEq, List.contains_iff_mem]
  exact ⟨fun ⟨_, mention, made, own, _⟩ => ⟨mention, made, own⟩,
    fun ⟨mention, made, own⟩ => ⟨mention, mention, made, own, rfl⟩⟩

/-- A mention stays one later on, and for whoever follows its channel. -/
theorem heard_of_follows (mention : (heard watcher dms now ev).isSome = true)
    (follows : ∃ channel ∈ watcher.channels ++ other, some channel ∈ ev.tagValues "h")
    (early : ev.createdAt ≤ later + 900) : (heard watcher other later ev).isSome = true := by
  obtain ⟨mention, made, own⟩ := heard_isSome.mp mention
  obtain ⟨kind, hex, another, safe, -, sole, -, named, signed, author, id, time⟩ :=
    nativeMention_eq_some.mp made
  obtain ⟨channel, listed, tagged⟩ := follows
  have same : channel = mention.channel := by
    unfold soleChannel at sole
    split at sole
    next only =>
      rw [only, List.mem_singleton] at tagged
      rw [← tagged] at sole
      exact Option.some.inj sole
    next => cases sole
  refine heard_isSome.mpr ⟨mention, nativeMention_eq_some.mpr ?_, own⟩
  exact ⟨kind, hex, another, safe, early, sole, same ▸ listed, named, signed, author, id, time⟩

/-- A mention that the relay's notices make one carries its channel in its only `h` tag. -/
theorem heard_early (mention : (heard watcher dms now ev).isSome = true)
    (early : ev.createdAt ≤ later + 900) : (heard watcher dms later ev).isSome = true := by
  obtain ⟨mention, made, own⟩ := heard_isSome.mp mention
  obtain ⟨kind, hex, another, safe, -, rest⟩ := nativeMention_eq_some.mp made
  exact heard_isSome.mpr
    ⟨mention, nativeMention_eq_some.mpr ⟨kind, hex, another, safe, early, rest⟩, own⟩

end Heard

/-! ### The invariant -/

/-- What holds in every state of a run whose steps keep every mention. -/
structure Inv (watcher : Watcher) (state : State) : Prop where
  unique : ∀ ev ∈ state.stored, ∀ other ∈ state.stored, ev.id = other.id → ev = other
  owed : ∀ ev ∈ state.owed,
    ev ∈ state.stored ∧ ev.kind = 9 ∧ 0 ≤ ev.createdAt ∧ ev.createdAt ≤ state.now + 600
  sound : state.spool.Sound
  seen : state.seen.All (· ∈ state.spool.written)
  caught : state.since ≤ state.now
  file : state.sinceFile ≤ state.since
  asks : ∀ sub, state.message = some sub →
    sub.channels = watcher.channels ++ state.dms ∧ sub.since ≤ state.since - overlap ∧
      ∀ ev, Open watcher state ev → (sub.since : Int) ≤ ev.createdAt
  kept : Kept watcher state

section Step

variable {watcher : Watcher} {state : State}

theorem now_mono (state : State) (ms : Nat) :
    state.now ≤ ({ state with clock := state.clock + ms } : State).now :=
  Nat.div_le_div_right (Nat.le_add_right _ _)

theorem Inv.first (clock : Nat) (notices : List Event) (write : SinceWrite) :
    Inv watcher (first clock notices write) where
  unique := by simp [Buzz.first, caughtUp]
  owed := by simp [Buzz.first, caughtUp]
  sound := by simp [Spool.Sound, Buzz.first, caughtUp]
  seen := by simp [Seen.All, Buzz.first, caughtUp]
  caught := le_refl _
  file := by
    cases write with
    | refused => exact Nat.zero_le _
    | written lost => exact Nat.div_le_self _ _
  asks := by simp [State.message, Buzz.first, caughtUp]
  kept := by simp [Kept, Open, Buzz.first, caughtUp]

theorem Inv.tick (inv : Inv watcher state) (ms : Nat) :
    Inv watcher { state with clock := state.clock + ms } := by
  have later := now_mono state ms
  have back : ∀ ev, Open watcher { state with clock := state.clock + ms } ev →
      Open watcher state ev := by
    intro ev ⟨owed, unmarked, mention⟩
    have early := (inv.owed ev owed).2.2.2
    exact ⟨owed, unmarked, heard_early mention (by omega)⟩
  constructor
  case unique => exact inv.unique
  case owed =>
    intro ev mem
    obtain ⟨stored, kind, positive, early⟩ := inv.owed ev mem
    exact ⟨stored, kind, positive, by omega⟩
  case sound => exact inv.sound
  case seen => exact inv.seen
  case caught => exact inv.caught.trans later
  case file => exact inv.file
  case asks =>
    intro sub holds
    obtain ⟨channels, since, covers⟩ := inv.asks sub holds
    exact ⟨channels, since, fun ev isOpen => covers ev (back ev isOpen)⟩
  case kept => exact fun ev isOpen => inv.kept ev (back ev isOpen)

/-- An event inside the overlap is one that the next subscription asks for. -/
theorem since_le {since : Nat} {ev : Event} (positive : 0 ≤ ev.createdAt)
    (recent : (since : Int) - 600 ≤ ev.createdAt) :
    ((since - overlap : Nat) : Int) ≤ ev.createdAt := by
  unfold overlap
  omega

theorem Inv.accept (inv : Inv watcher state) (ev : Event) :
    Inv watcher (step watcher state (.accept ev)) := by
  unfold step
  dsimp only
  split
  next => exact inv
  next fresh =>
    have isNew : ∀ other ∈ state.stored, ev.id ≠ other.id := fun other mem same =>
      fresh (List.mem_map.mpr ⟨other, mem, same.symm⟩)
    -- An open mention that was not owed is the accepted one, and that one is recent.
    have owed : ∀ other ∈ (if ev.kind = 9 ∧ 0 ≤ ev.createdAt ∧ ev.createdAt ≤ state.now + 600 ∧
        (state.now : Int) ≤ ev.createdAt + 600 then ev :: state.owed else state.owed),
        other ∈ state.owed ∨ other = ev ∧ ev.kind = 9 ∧ 0 ≤ ev.createdAt ∧
          ev.createdAt ≤ state.now + 600 ∧ (state.now : Int) ≤ ev.createdAt + 600 := by
      intro other mem
      split at mem
      next stamped =>
        rcases List.mem_cons.mp mem with rfl | old
        · exact .inr ⟨rfl, stamped⟩
        · exact .inl old
      next => exact .inl mem
    have caught := inv.caught
    constructor
    case unique =>
      intro one isOne other isOther same
      rcases List.mem_cons.mp isOne with rfl | old <;>
        rcases List.mem_cons.mp isOther with rfl | old'
      · rfl
      · exact absurd same (isNew other old')
      · exact absurd same.symm (isNew one old)
      · exact inv.unique one old other old' same
    case owed =>
      intro other mem
      rcases owed other mem with old | ⟨rfl, kind, positive, early, -⟩
      · obtain ⟨stored, rest⟩ := inv.owed other old
        exact ⟨List.mem_cons_of_mem _ stored, rest⟩
      · exact ⟨List.mem_cons_self, kind, positive, early⟩
    case sound => exact inv.sound
    case seen => exact inv.seen
    case caught => exact inv.caught
    case file => exact inv.file
    case asks =>
      intro sub holds
      obtain ⟨channels, since, covers⟩ := inv.asks sub holds
      refine ⟨channels, since, fun other isOpen => ?_⟩
      rcases owed other isOpen.1 with old | ⟨rfl, -, positive, -, recent⟩
      · exact covers other ⟨old, isOpen.2⟩
      · have asked : ((state.since - overlap : Nat) : Int) ≤ other.createdAt :=
          since_le positive (by omega)
        omega
    case kept =>
      intro other isOpen
      rcases owed other isOpen.1 with old | ⟨rfl, -, -, -, recent⟩
      · exact inv.kept other ⟨old, isOpen.2⟩
      · exact .inr (by dsimp only; omega)

theorem Inv.notice (inv : Inv watcher state) {ev : Event}
    (keeps : Keeps watcher state (.notice ev)) :
    Inv watcher { state with notices := ev :: state.notices } where
  unique := inv.unique
  owed := inv.owed
  sound := inv.sound
  seen := inv.seen
  caught := inv.caught
  file := inv.file
  asks sub holds := by
    obtain ⟨channels, since, covers⟩ := inv.asks sub holds
    refine ⟨channels, since, fun other isOpen => ?_⟩
    rcases keeps other isOpen with before | recent
    · exact covers other before
    · have := since_le (inv.owed other isOpen.1).2.2.1 recent
      omega
  kept other isOpen := by
    rcases keeps other isOpen with before | recent
    · exact inv.kept other before
    · exact .inr recent

/-- The session changes, its message subscription does not. -/
theorem Inv.session (inv : Inv watcher state) {session : Option Session}
    (same : session.bind (·.message) = state.message) :
    Inv watcher { state with session := session } where
  unique := inv.unique
  owed := inv.owed
  sound := inv.sound
  seen := inv.seen
  caught := inv.caught
  file := inv.file
  asks sub holds := inv.asks sub (same ▸ holds)
  kept ev isOpen :=
    (inv.kept ev isOpen).imp_left fun ⟨sub, holds, rest⟩ => ⟨sub, same.trans holds, rest⟩

/-- What is open once no subscription is left to bring it. -/
theorem Inv.recent (inv : Inv watcher state) (ends : Ends watcher state) {ev : Event}
    (isOpen : Open watcher state ev) : (state.since : Int) - 600 ≤ ev.createdAt :=
  (inv.kept ev isOpen).elim (ends ev isOpen) id

/-- The session ends, or begins without a message subscription. -/
theorem Inv.without (inv : Inv watcher state) (ends : Ends watcher state)
    {session : Option Session} (gone : session.bind (·.message) = none) :
    Inv watcher { state with session := session } where
  unique := inv.unique
  owed := inv.owed
  sound := inv.sound
  seen := inv.seen
  caught := inv.caught
  file := inv.file
  asks sub holds := by
    rw [State.message, gone] at holds
    cases holds
  kept _ isOpen := .inr (inv.recent ends isOpen)

/-- **A new subscription asks again for what its predecessor had not brought.** -/
theorem Inv.subscribe (inv : Inv watcher state) (ends : Ends watcher state) (dms : List String)
    (session : Option Session) :
    Inv watcher (subscribe watcher { state with dms := dms, session := session }) where
  unique := inv.unique
  owed := inv.owed
  sound := inv.sound
  seen := inv.seen
  caught := inv.caught
  file := inv.file
  asks sub holds := by
    cases session with
    | none => cases holds
    | some session =>
        obtain rfl := Option.some.inj holds
        refine ⟨rfl, le_refl _, fun ev isOpen => ?_⟩
        exact since_le (inv.owed ev isOpen.1).2.2.1 (inv.recent ends isOpen)
  kept _ isOpen := .inr (inv.recent ends isOpen)

theorem Inv.follow (inv : Inv watcher state) {heard : Notices}
    (ends : ¬ Settled watcher state.dms heard → Ends watcher state) :
    Inv watcher (follow watcher state heard) := by
  unfold Buzz.follow
  split
  next => exact inv
  next unsettled => exact inv.subscribe (ends unsettled) _ _

theorem Inv.start (inv : Inv watcher state) (ends : watcher.owners = [] → Ends watcher state) :
    Inv watcher (start watcher state) := by
  unfold Buzz.start
  split
  next none => exact inv.subscribe (ends none) state.dms state.session
  next =>
    refine inv.session ?_
    cases held : state.session with
    | none => simp [State.message, held]
    | some session => simp [State.message, held]

/-- **The watermark moves** to now, past nothing that is open and not in hand. -/
theorem Inv.caughtUp (inv : Inv watcher state) {write : SinceWrite}
    (keeps : ∀ ev, Open watcher state ev →
      InHand watcher state ev ∨ (state.now : Int) - 600 ≤ ev.createdAt) :
    Inv watcher (caughtUp state write) where
  unique := inv.unique
  owed := inv.owed
  sound := inv.sound
  seen := inv.seen
  caught := le_refl _
  file := by
    cases write with
    | refused => exact inv.file.trans inv.caught
    | written lost => exact Nat.div_le_self _ _
  asks sub holds := by
    obtain ⟨channels, since, covers⟩ := inv.asks sub holds
    exact ⟨channels, since.trans (Nat.sub_le_sub_right inv.caught _), covers⟩
  kept ev isOpen := by
    rcases keeps ev isOpen with ⟨sub, holds, awaited, named, follows⟩ | recent
    · have covers := (inv.asks sub holds).2.2 ev isOpen
      exact .inl ⟨sub, holds, ⟨(inv.owed ev isOpen.1).2.1, follows, named, covers⟩, awaited⟩
    · exact .inr recent

theorem Inv.restart (inv : Inv watcher state) {torn : List String} {write : SinceWrite}
    (keeps : Keeps watcher state (.restart torn write)) : Inv watcher (boot state torn write) := by
  have base : ∀ since, since ≤ state.now → state.sinceFile ≤ since →
      (∀ ev, Open watcher state ev → (since : Int) - 600 ≤ ev.createdAt) →
      Inv watcher { state with
        session := none, dms := [], seen := state.seen.reload (fun id => decide (id ∉ torn)),
        since := since } := by
    intro since caught file recent
    exact {
      unique := inv.unique
      owed := inv.owed
      sound := inv.sound
      seen := inv.seen.reload _
      caught := caught
      file := file
      asks := fun sub holds => by cases holds
      kept := fun ev isOpen => .inr (recent ev isOpen) }
  unfold boot
  dsimp only
  unfold Keeps at keeps
  split
  next readable =>
    rw [if_pos readable] at keeps
    refine base state.sinceFile (inv.file.trans inv.caught) (le_refl _) fun ev isOpen => ?_
    rcases inv.kept ev isOpen with pending | recent
    · exact keeps ev isOpen pending
    · have := inv.file
      omega
  next unreadable =>
    rw [if_neg unreadable] at keeps
    have blank := base state.now (le_refl _) (inv.file.trans inv.caught) keeps
    exact blank.caughtUp fun ev isOpen => .inr (keeps ev isOpen)

/-! ### One event -/

section Record

variable {ev : Event} {marker : MarkerWrite} {log : LogWrites}

theorem written_record {id : String} (known : id ∈ state.spool.written) :
    id ∈ (record watcher state ev marker log).spool.written := by
  unfold record
  split
  · exact known
  · split
    · exact Spool.written_leave known
    · exact known

theorem sound_record (sound : state.spool.Sound) :
    (record watcher state ev marker log).spool.Sound := by
  unfold record
  split
  · exact sound
  · split
    · exact sound.leave
    · exact sound

theorem seen_record (inv : Inv watcher state) (clean : state.spool.Clean ev.id) :
    (record watcher state ev marker log).seen.All
      (· ∈ (record watcher state ev marker log).spool.written) := by
  unfold record
  split
  · exact inv.seen
  · split
    · have grown : state.seen.All (· ∈ (state.spool.leave ev.id marker).1.written) :=
        inv.seen.imp fun _ known => Spool.written_leave known
      exact grown.markIf (Spool.written_of_leave inv.sound clean)
    · exact inv.seen

/-- **A mention that is brought is marked**, unless its marker fails. -/
theorem written_of_record (inv : Inv watcher state) (clean : state.spool.Clean ev.id)
    (mention : (heard watcher state.dms state.now ev).isSome = true)
    (whole : marker = .late ∨ marker = .kept) :
    ev.id ∈ (record watcher state ev marker log).spool.written := by
  by_cases known : state.seen.has ev.id = true
  · exact written_record (inv.seen.1 ev.id (List.contains_iff_mem.mp known))
  · rw [record, if_neg known, if_pos mention]
    exact Spool.written_of_whole inv.sound clean whole

/-- What `record` leaves as it was. -/
theorem record_rest : ∃ seen spool,
    record watcher state ev marker log = { state with seen := seen, spool := spool } := by
  unfold record
  split
  · exact ⟨_, _, rfl⟩
  · split <;> exact ⟨_, _, rfl⟩

theorem Inv.event (inv : Inv watcher state) {sub : Subscription} {dm : Option Notices}
    {heartbeat : Bool} (holds : state.session = some ⟨some sub, dm, heartbeat⟩)
    (stored : ev ∈ state.stored) (asked : sub.Asks watcher.me ev)
    (keeps : Keeps watcher state (.event ev marker log)) :
    Inv watcher { record watcher state ev marker log with
      session := some ⟨some { sub with delivered := ev.id :: sub.delivered }, dm, heartbeat⟩ } := by
  have current : state.message = some sub := by
    rw [State.message, holds]
    rfl
  obtain ⟨channels, since, covers⟩ := inv.asks sub current
  have grown : ∀ id ∈ state.spool.written,
      id ∈ (record watcher state ev marker log).spool.written := fun _ known => written_record known
  -- What is open afterwards and was brought now had its marker fail, so it is recent.
  have brought : Open watcher state ev →
      ev.id ∉ (record watcher state ev marker log).spool.written →
      (state.since : Int) - 600 ≤ ev.createdAt := by
    intro isOpen unmarked
    refine keeps.2 isOpen ?_
    have early := (inv.owed ev isOpen.1).2.2.2
    have mention : (heard watcher state.dms state.now ev).isSome = true :=
      heard_of_follows isOpen.2.2 (channels ▸ asked.2.1) (by omega)
    cases marker with
    | refused => exact .inl rfl
    | torn => exact .inr rfl
    | late => exact absurd (written_of_record inv keeps.1 mention (.inl rfl)) unmarked
    | kept => exact absurd (written_of_record inv keeps.1 mention (.inr rfl)) unmarked
  have sound : (record watcher state ev marker log).spool.Sound := sound_record inv.sound
  have seen : (record watcher state ev marker log).seen.All
      (· ∈ (record watcher state ev marker log).spool.written) := seen_record inv keeps.1
  obtain ⟨seenAfter, spoolAfter, after⟩ : ∃ seen spool,
      record watcher state ev marker log = { state with seen := seen, spool := spool } :=
    record_rest
  rw [after] at grown brought sound seen ⊢
  have back : ∀ other, Open watcher
      { state with seen := seenAfter, spool := spoolAfter } other → Open watcher state other :=
    fun other isOpen => ⟨isOpen.1, fun known => isOpen.2.1 (grown _ known), isOpen.2.2⟩
  constructor
  case unique => exact inv.unique
  case owed => exact inv.owed
  case sound => exact sound
  case seen => exact seen
  case caught => exact inv.caught
  case file => exact inv.file
  case asks =>
    intro sub' holds'
    obtain rfl := Option.some.inj holds'
    exact ⟨channels, since, fun other isOpen => covers other (back other isOpen)⟩
  case kept =>
    intro other isOpen
    rcases inv.kept other (back other isOpen) with ⟨sub', holds', asks, awaited⟩ | recent
    · obtain rfl : sub = sub' := Option.some.inj (current.symm.trans holds')
      by_cases same : other.id = ev.id
      · obtain rfl := inv.unique other (inv.owed other isOpen.1).1 ev stored same
        exact .inr (brought (back other isOpen) isOpen.2.1)
      · refine .inl ⟨_, rfl, asks, fun mem => ?_⟩
        rcases List.mem_cons.mp mem with now | before
        · exact same now
        · exact awaited before
    · exact .inr recent

end Record

/-! ### The run -/

theorem Inv.step (inv : Inv watcher state) {action : Action} (keeps : Keeps watcher state action) :
    Inv watcher (step watcher state action) := by
  cases action with
  | tick ms => exact inv.tick ms
  | accept ev => exact inv.accept ev
  | notice ev => exact inv.notice keeps
  | login =>
      unfold Buzz.step
      dsimp only
      split
      next => exact inv
      next out =>
        have silent : state.message = none := by
          rw [State.message, out]
          rfl
        have ends : Ends watcher state := fun ev _ ⟨_, holds, _⟩ => by
          rw [silent] at holds
          cases holds
        have fresh : Inv watcher { state with session := some ⟨none, none, false⟩ } :=
          inv.without ends rfl
        exact fresh.start fun _ ev _ ⟨_, holds, _⟩ => by cases holds
  | dmEvent ev =>
      unfold Buzz.step
      dsimp only
      split
      next message notices heartbeat holds =>
        have same : (Option.bind (some (⟨message, some { notices with
            notices := notices.notices ++ [ev] }, heartbeat⟩ : Session)) (·.message)) =
            state.message := by
          rw [State.message, holds]
          rfl
        have heard := inv.session same
        split
        next replayed =>
          refine heard.follow fun unsettled other isOpen ⟨sub, brings, rest⟩ => ?_
          exact keeps message notices heartbeat holds replayed unsettled other isOpen
            ⟨sub, same.symm.trans brings, rest⟩
        next => exact heard
      next => exact inv
  | dmEose =>
      unfold Buzz.step
      dsimp only
      split
      next message notices heartbeat holds =>
        exact inv.follow (keeps message notices heartbeat holds)
      next => exact inv
  | event ev marker log =>
      unfold Buzz.step
      dsimp only
      split
      next sub dm heartbeat holds =>
        split
        next asked => exact inv.event holds asked.1 asked.2 keeps
        next => exact inv
      next => exact inv
  | eose write =>
      unfold Buzz.step
      dsimp only
      split
      next sub dm heartbeat holds =>
        have same : (Option.bind (some (⟨some sub, dm, true⟩ : Session)) (·.message)) =
            state.message := by
          rw [State.message, holds]
          rfl
        refine (inv.session same).caughtUp fun ev isOpen => ?_
        exact (keeps ev isOpen).imp_left fun ⟨sub, brings, rest⟩ => ⟨sub, same.trans brings, rest⟩
      next => exact inv
  | heartbeat write =>
      unfold Buzz.step
      dsimp only
      split
      next => exact inv.caughtUp keeps
      next => exact inv
  | refresh => exact inv.start keeps
  | drop => exact inv.without keeps rfl
  | restart torn write => exact inv.restart keeps
  | consume id =>
      exact ⟨inv.unique, inv.owed, fun file mem => inv.sound file (List.mem_of_mem_filter mem),
        inv.seen, inv.caught, inv.file, inv.asks, inv.kept⟩

end Step

end Nvoy.Watch.Buzz
