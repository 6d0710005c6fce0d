/-
**The wake feed of a portable Codex harness**: `codex-channel-feed.mjs` on the fleet, and the supervisor of
`codex_portable_harness.mjs` that injects what it announces into one Codex thread.

* `Harness`, `step` — the queue, the two files of the supervisor, its memory, the feed it is connected to
  and the injection at work, with kills, reconnects and torn writes anywhere;
* `Whole` — the condition under which every envelope is injected;
* `Inv` — the invariant: what stands before a cursor is injected, and what stands before a pending
  envelope is injected or pending before it;
* `caught_up` — from every state the feed may reconnect and announce, and the supervisor inject, all that
  is left;
* `injects_each` — every envelope after the baseline is injected, once but for kills, and none before it.
-/

import Nvoy.Broker.AdmittedQueue
import Nvoy.Lib.Cursor
import Nvoy.Lib.Runs
import Nvoy.Nostr.Event

namespace Nvoy.Codex.Portable

open Broker (rowLine rowsFile utf8Decode_rowLine utf8Decode_rowsFile splitOn_rowsFile)
open Cursor (Stands Upto afterLast afterLast_eq_drop idxOf_of_getElem? mem_drop_of_getElem? position
  position_le stands_getLast? stands_some upto_self)
open Runs (Meets)

/-! ### The files of the supervisor -/

/-- What `saveCursor` writes. -/
def cursorJson (id : String) (cursor : Option String) : Json :=
  .obj [("version", .num 1 0), ("instance", .str id), ("cursor", cursor.elim .null .str)]

/-- The cursor that a start reads: none is `undefined`, never baselined; `some none` is an empty queue's. -/
def savedCursor (id : String) (file : List UInt8) : Option (Option String) := do
  let saved ← Json.parse (utf8Decode file).toList
  if (saved.get "instance").bind Json.string = some id then
    match saved.get "cursor" with
    | some .null => some none
    | some (.str cursor) => if isHex64 cursor then some (some cursor) else none
    | _ => none
  else none

/-- What `markDelivered` appends. -/
def deliveredJson (envelope : String) (queued : Bool) (answer : String) (now : Int) : Json :=
  .obj [("envelope", .str envelope), (if queued then "queued" else "turn", .str answer), ("at", .num now 0)]

/-- The envelope of a line of the log. -/
def lineEnvelope (line : List Char) : String :=
  (((Json.parse line).bind (·.get "envelope")).bind Json.string).getD ""

/-- The envelopes that a start takes for delivered. -/
def deliveredIn (file : List UInt8) : List String :=
  (((utf8Decode file).toList.splitOn '\n').filter (· ≠ [])).map lineEnvelope

/-! ### The feed and the supervisor -/

/-- The cursor that a feed is given: from now, from the start, or after an envelope. -/
inductive Since
  | now
  | start
  | after (envelope : String)

/-- A line of the feed; heartbeats change nothing. -/
inductive Line
  | hello (sinceFound : Option Bool) (cursor : Option String)
  | admitted (envelope : String)

structure Feed where
  since : Since
  /-- The rows of the queue when the feed started; none before. -/
  rows : Option Nat := none
  /-- The rows that it has passed on. -/
  read : Nat := 0
  /-- The lines on their way. -/
  sent : List Line := []
  healthy : Bool := false

/-- The injection at work: of the first pending envelope, by `turn/start` or by `thread/queue/add`. -/
inductive Phase
  | idle
  | asked (envelope : String) (queueing : Bool)
  /-- The app-server has accepted it. -/
  | taken (envelope : String) (queueing : Bool)
  | recorded (envelope : String)

structure Supervisor where
  cursor : Option (Option String)
  delivered : List String
  pending : List String := []
  announced : List String := []
  feed : Option Feed := none
  phase : Phase := .idle

structure Harness where
  /-- The envelopes of the admitted queue, in the order of its rows. -/
  queue : List String := []
  cursorFile : List UInt8 := []
  deliveredFile : List UInt8 := []
  supervisor : Option Supervisor := none
  /-- The rows that the queue had at the first baseline. -/
  baseline : Option Nat := none
  /-- What the app-server has accepted. -/
  injected : List String := []
  /-- Requests of an app-server that a kill left alone, which it may still accept. -/
  flight : List String := []
  /-- The requests that a kill cut off from their delivered record. -/
  cuts : List String := []

inductive Action
  | enqueue (envelope : String)
  | boot
  | connect
  | feedStart
  | feedPoll
  | feedExit
  /-- The supervisor takes a line; a write it makes may be cut by a kill. -/
  | receive (cut : Option Nat)
  | ask (busy : Bool)
  | accept
  | acceptLate (envelope : String)
  | refuse
  /-- The app-server has accepted the request, and answers with an error, with no id or too late. -/
  | misanswer
  | record (answer : String) (now : Int) (cut : Option Nat)
  | save (cut : Option Nat)
  /-- The app-server, or the connection to it, goes down. -/
  | crash
  | kill

def sinceOf : Option (Option String) → Since
  | none => .now
  | some none => .start
  | some (some cursor) => .after cursor

/-- The rows that a feed opens with, and whether it found its cursor. -/
def backlog (rows : List String) : Since → List String × Option Bool
  | .now => ([], none)
  | .start => (rows, some true)
  | .after cursor =>
      if cursor ∈ rows then (afterLast cursor rows, some true) else ([], some false)

/-- `start` of the feed. -/
def Feed.start (feed : Feed) (queue : List String) : Feed :=
  { feed with
    rows := some queue.length
    read := queue.length
    sent := .hello (backlog queue feed.since).2 queue.getLast? ::
      (backlog queue feed.since).1.map .admitted }

/-- The poll of the feed. -/
def Feed.poll (feed : Feed) (queue : List String) : Feed :=
  { feed with
    read := queue.length
    sent := feed.sent ++ (queue.drop feed.read).map .admitted }

/-- `offer` -/
def Supervisor.offer (sup : Supervisor) (envelope : String) : Supervisor :=
  if envelope ∈ sup.announced then sup
  else
    { sup with
      announced := sup.announced ++ [envelope]
      pending := sup.pending ++ [envelope] }

/-- The request that a kill leaves with the app-server. -/
def Phase.flight : Phase → List String
  | .asked envelope _ => [envelope]
  | _ => []

/-- The request that a kill cuts off from its record. -/
def Phase.cut : Phase → List String
  | .asked envelope _ => [envelope]
  | .taken envelope _ => [envelope]
  | _ => []

namespace Harness

variable (id : String) (s : Harness)

/-- A write in place, that a kill may cut. -/
def saveCursor (sup : Supervisor) (cursor : Option String) : Option Nat → Harness
  | none =>
      { s with
        cursorFile := rowLine (cursorJson id cursor)
        supervisor := some { sup with cursor := some cursor } }
  | some bytes =>
      { s with
        cursorFile := (rowLine (cursorJson id cursor)).take bytes
        supervisor := none }

def onHello (sup : Supervisor) (feed : Feed) (sinceFound : Option Bool) (placed : Option String)
    (cut : Option Nat) : Harness :=
  if sup.cursor = none then
    let s := if s.baseline = none then { s with baseline := feed.rows } else s
    s.saveCursor id sup placed cut
  else if sinceFound = some false then s.saveCursor id sup placed cut
  else { s with supervisor := some sup }

def onReceive (cut : Option Nat) : Harness :=
  match s.supervisor with
  | none => s
  | some sup =>
      match sup.feed with
      | none => s
      | some feed =>
          match feed.sent with
          | [] => s
          | .hello sinceFound placed :: rest =>
              let feed := { feed with
                sent := rest
                healthy := true }
              s.onHello id { sup with feed := some feed } feed sinceFound placed cut
          | .admitted envelope :: rest =>
              let sup := { sup with feed := some { feed with sent := rest } }
              { s with supervisor := some (if feed.healthy then sup.offer envelope else sup) }

/-- The feed of the supervisor goes on. -/
def withFeed (f : Feed → Feed) : Harness :=
  match s.supervisor with
  | none => s
  | some sup => { s with supervisor := some { sup with feed := sup.feed.map f } }

/-- The supervisor goes on. -/
def withSupervisor (f : Supervisor → Supervisor) : Harness :=
  match s.supervisor with
  | none => s
  | some sup => { s with supervisor := some (f sup) }

/-- The next envelope is injected, or passed over if it was delivered. -/
def onAsk (busy : Bool) (sup : Supervisor) : Supervisor :=
  match sup.phase, sup.pending with
  | .idle, envelope :: _ =>
      if envelope ∈ sup.delivered then { sup with phase := .recorded envelope }
      else { sup with phase := .asked envelope busy }
  | _, _ => sup

def onAccept : Harness :=
  match s.supervisor with
  | some sup =>
      match sup.phase with
      | .asked envelope queueing =>
          { s with
            injected := s.injected ++ [envelope]
            supervisor := some { sup with phase := .taken envelope queueing } }
      | _ => s
  | none => s

/-- An error to `turn/start` makes it queue; one to `thread/queue/add` starts the app-server again. -/
def onRefuse (sup : Supervisor) : Supervisor :=
  match sup.phase with
  | .asked envelope false => { sup with phase := .asked envelope true }
  | .asked _ true => { sup with phase := .idle }
  | _ => sup

def onMisanswer (sup : Supervisor) : Supervisor :=
  match sup.phase with
  | .taken envelope false => { sup with phase := .asked envelope true }
  | .taken _ true => { sup with phase := .idle }
  | _ => sup

/-- `markDelivered` -/
def onRecord (answer : String) (now : Int) (cut : Option Nat) : Harness :=
  match s.supervisor with
  | none => s
  | some sup =>
      match sup.phase with
      | .taken envelope queueing =>
          let line := rowLine (deliveredJson envelope queueing answer now)
          match cut with
          | none =>
              { s with
                deliveredFile := s.deliveredFile ++ line
                supervisor := some { sup with
                  delivered := sup.delivered ++ [envelope]
                  phase := .recorded envelope } }
          | some bytes =>
              { s with
                deliveredFile := s.deliveredFile ++ line.take bytes
                supervisor := none
                cuts := s.cuts ++ [envelope] }
      | _ => s

/-- The envelope is done with. -/
def onSave (cut : Option Nat) : Harness :=
  match s.supervisor with
  | none => s
  | some sup =>
      match sup.phase with
      | .recorded envelope =>
          s.saveCursor id { sup with
            pending := sup.pending.tail
            announced := sup.announced.erase envelope
            phase := .idle } (some envelope) cut
      | _ => s

/-- The loop of the app-server starts again; what was accepted and not recorded is cut off. -/
def onCrash : Harness :=
  match s.supervisor with
  | none => s
  | some sup =>
      match sup.phase with
      | .recorded _ => s
      | phase =>
          { s with
            supervisor := some { sup with phase := .idle }
            flight := s.flight ++ phase.flight
            cuts := s.cuts ++ phase.cut }

def onKill : Harness :=
  match s.supervisor with
  | none => s
  | some sup =>
      { s with
        supervisor := none
        flight := s.flight ++ sup.phase.flight
        cuts := s.cuts ++ sup.phase.cut }

def onAcceptLate (envelope : String) : Harness :=
  if envelope ∈ s.flight then
    { s with
      flight := s.flight.erase envelope
      injected := s.injected ++ [envelope] }
  else s

def step : Action → Harness
  | .enqueue envelope => { s with queue := s.queue ++ [envelope] }
  | .boot =>
      if s.supervisor.isSome then s
      else
        { s with supervisor := some {
            cursor := savedCursor id s.cursorFile
            delivered := deliveredIn s.deliveredFile } }
  | .connect => s.withSupervisor fun sup =>
      if sup.feed.isSome then sup else { sup with feed := some { since := sinceOf sup.cursor } }
  | .feedStart => s.withFeed fun feed => if feed.rows.isSome then feed else feed.start s.queue
  | .feedPoll => s.withFeed fun feed => if feed.rows.isSome then feed.poll s.queue else feed
  | .feedExit => s.withSupervisor fun sup => { sup with feed := none }
  | .receive cut => s.onReceive id cut
  | .ask busy => s.withSupervisor (onAsk busy)
  | .accept => s.onAccept
  | .acceptLate envelope => s.onAcceptLate envelope
  | .refuse => s.withSupervisor onRefuse
  | .misanswer => s.withSupervisor onMisanswer
  | .record answer now cut => s.onRecord answer now cut
  | .save cut => s.onSave id cut
  | .crash => s.onCrash
  | .kill => s.onKill

end Harness

def runs (id : String) (s : Harness) (actions : List Action) : Harness :=
  Runs.run (Harness.step id) s actions

/-! ### The condition, and what is claimed -/

/-- The queue holds each envelope once, no write is cut, and the app-server tells what it has accepted. -/
def Whole (s : Harness) : Action → Prop
  | .enqueue envelope => isHex64 envelope = true ∧ envelope ∉ s.queue
  | .receive cut => cut = none
  | .record _ _ cut => cut = none
  | .save cut => cut = none
  | .misanswer => False
  | _ => True

/-- **A cursor that was written whole is read back.** -/
theorem savedCursor_written {id : String} {cursor : Option String}
    (hex : ∀ envelope, cursor = some envelope → isHex64 envelope = true) :
    savedCursor id (rowLine (cursorJson id cursor)) = some cursor := by
  rw [savedCursor, utf8Decode_rowLine, Json.parse_line]
  cases cursor with
  | none => simp [cursorJson, Json.get, Json.string]
  | some envelope => simp [cursorJson, Json.get, Json.string, hex envelope rfl]

theorem deliveredIn_rowsFile (rows : List Json) :
    deliveredIn (rowsFile rows) = rows.map fun row => lineEnvelope (Json.render row) := by
  have solid : (rows.map Json.render ++ [[]]).filter (· ≠ []) = rows.map Json.render := by
    rw [List.filter_append, List.filter_eq_self.mpr]
    · simp
    · intro line member
      obtain ⟨row, _, rfl⟩ := List.mem_map.mp member
      obtain ⟨c, text, same, _⟩ := Json.render_cons row
      simp [same]
  rw [deliveredIn, splitOn_rowsFile, solid, List.map_map]
  rfl

theorem lineEnvelope_deliveredJson (envelope : String) (queued : Bool) (answer : String) (now : Int) :
    lineEnvelope (Json.render (deliveredJson envelope queued answer now)) = envelope := by
  rw [lineEnvelope, Json.parse_render]
  cases queued <;> simp [deliveredJson, Json.get, Json.string]

/-! ### Places in the queue -/

/-- The lines that announce the rows from one place to another. -/
def announce (queue : List String) (k read : Nat) : List Line :=
  ((queue.take read).drop k).map .admitted

section Places

variable {queue : List String} {k read : Nat}

theorem announce_self : announce queue k k = [] := by
  rw [announce, List.drop_eq_nil_of_le (by simp)]
  rfl

theorem announce_enqueue (inside : read ≤ queue.length) (envelope : String) :
    announce (queue ++ [envelope]) k read = announce queue k read := by
  rw [announce, announce, List.take_append_of_le_length inside]

/-- What a poll adds. -/
theorem announce_poll (le : k ≤ read) (inside : read ≤ queue.length) :
    announce queue k read ++ (queue.drop read).map .admitted = announce queue k queue.length := by
  rw [announce, announce, ← List.map_append, List.take_length]
  congr 1
  conv_rhs => rw [← List.take_append_drop read queue]
  rw [List.drop_append_of_le_length (by simp [inside, le])]

/-- The first line on its way announces the row at the place. -/
theorem announce_cons {envelope : String} {rest : List Line}
    (first : announce queue k read = .admitted envelope :: rest) :
    queue[k]? = some envelope ∧ k < read ∧ rest = announce queue (k + 1) read := by
  unfold announce at first ⊢
  obtain ⟨row, rows, split, same, rfl⟩ := List.map_eq_cons_iff.mp first
  cases same
  have here : (queue.take read)[k]? = some envelope := by
    rw [← List.head?_drop, split]
    rfl
  have left : (queue.take read).drop (k + 1) = rows := by
    rw [← List.tail_drop, split]
    rfl
  rw [List.getElem?_take] at here
  split at here
  · rename_i before
    exact ⟨here, before, by rw [left]⟩
  · nomatch here

theorem backlog_after (nodup : queue.Nodup) {cursor : String} (member : cursor ∈ queue) :
    backlog queue (.after cursor) = (queue.drop (position queue (some cursor)), some true) := by
  rw [backlog, if_pos member, afterLast_eq_drop nodup member]

end Places

/-! ### The invariant -/

/-- A cursor with everything injected from the baseline up to its place. -/
abbrev CursorAt (queue : List String) (b : Nat) (injected : List String) : Option String → Prop :=
  Stands queue b (· ∈ injected)

/-- The feed of a supervisor that has its baseline: it waits to start from a cursor, it has greeted, or it
is heard; up to the line that is heard next everything is injected, or pending. -/
inductive FeedLive (queue : List String) (b : Nat) (injected pending : List String) : Feed → Prop
  | waiting {feed : Feed} (cursor : Option String) (from_ : CursorAt queue b injected cursor)
      (since : feed.since = sinceOf (some cursor)) (rows : feed.rows = none) (sent : feed.sent = [])
      (healthy : feed.healthy = false) : FeedLive queue b injected pending feed
  | opened {feed : Feed} (k : Nat) (placed : Option String) (rows : feed.rows.isSome = true)
      (after : b ≤ k) (le : k ≤ feed.read) (inside : feed.read ≤ queue.length)
      (healthy : feed.healthy = false)
      (sent : feed.sent = .hello (some true) placed :: announce queue k feed.read)
      (upto : Upto queue b k (· ∈ injected)) : FeedLive queue b injected pending feed
  | heard {feed : Feed} (k : Nat) (rows : feed.rows.isSome = true)
      (after : b ≤ k) (le : k ≤ feed.read) (inside : feed.read ≤ queue.length)
      (healthy : feed.healthy = true) (sent : feed.sent = announce queue k feed.read)
      (upto : Upto queue b k fun envelope => envelope ∈ injected ∨ envelope ∈ pending) :
      FeedLive queue b injected pending feed

/-- Every pending envelope has what stands before it injected, or pending before it. -/
def Covered (queue : List String) (b : Nat) (injected : List String) : List String → List String → Prop
  | _, [] => True
  | front, envelope :: rest =>
      (envelope ∈ queue.drop b ∧
        Upto queue b (queue.idxOf envelope) fun other => other ∈ injected ∨ other ∈ front) ∧
      Covered queue b injected (front ++ [envelope]) rest

def PhaseLive (injected delivered pending : List String) : Phase → Prop
  | .idle => True
  | .asked envelope _ => pending.head? = some envelope ∧ envelope ∉ delivered
  | .taken envelope _ => pending.head? = some envelope ∧ envelope ∉ delivered ∧ envelope ∈ injected
  | .recorded envelope => pending.head? = some envelope ∧ envelope ∈ delivered

structure SupLive (id : String) (s : Harness) (b : Nat) (sup : Supervisor) : Prop where
  cursor : sup.cursor = savedCursor id s.cursorFile
  delivered : sup.delivered = deliveredIn s.deliveredFile
  announced : sup.announced = sup.pending
  covered : Covered s.queue b s.injected [] sup.pending
  phase : PhaseLive s.injected sup.delivered sup.pending sup.phase
  feed : ∀ feed, sup.feed = some feed → FeedLive s.queue b s.injected sup.pending feed

/-- The supervisor has an injection accepted that it has not recorded. -/
def Harness.Holds (s : Harness) (envelope : String) : Prop :=
  ∃ sup queueing, s.supervisor = some sup ∧ sup.phase = .taken envelope queueing

/-- The invariant, once there is a baseline. -/
structure Live (id : String) (s : Harness) (b : Nat) : Prop where
  baseline : s.baseline = some b
  nodup : s.queue.Nodup
  hex : ∀ envelope ∈ s.queue, isHex64 envelope = true
  file : ∃ cursor, savedCursor id s.cursorFile = some cursor ∧ CursorAt s.queue b s.injected cursor
  log : ∃ rows, s.deliveredFile = rowsFile rows
  recorded : ∀ envelope ∈ deliveredIn s.deliveredFile, envelope ∈ s.injected
  bound : ∀ envelope, s.injected.count envelope + s.flight.count envelope ≤ s.cuts.count envelope + 1
  free : ∀ envelope, envelope ∉ deliveredIn s.deliveredFile → ¬ s.Holds envelope →
    s.injected.count envelope + s.flight.count envelope ≤ s.cuts.count envelope
  later : ∀ envelope, envelope ∈ s.injected ∨ envelope ∈ s.flight → envelope ∈ s.queue.drop b
  supervisor : ∀ sup, s.supervisor = some sup → SupLive id s b sup

/-- The feed before there is a baseline. -/
inductive FeedFresh (queue : List String) : Feed → Prop
  | waiting {feed : Feed} (since : feed.since = .now) (rows : feed.rows = none) (sent : feed.sent = [])
      (healthy : feed.healthy = false) : FeedFresh queue feed
  | opened {feed : Feed} (n : Nat) (rows : feed.rows = some n) (le : n ≤ feed.read)
      (inside : feed.read ≤ queue.length) (healthy : feed.healthy = false)
      (sent : feed.sent = .hello none (queue.take n).getLast? :: announce queue n feed.read) :
      FeedFresh queue feed

structure SupFresh (s : Harness) (sup : Supervisor) : Prop where
  cursor : sup.cursor = none
  delivered : sup.delivered = []
  announced : sup.announced = []
  pending : sup.pending = []
  phase : sup.phase = .idle
  feed : ∀ feed, sup.feed = some feed → FeedFresh s.queue feed

/-- The invariant before there is a baseline. -/
structure Fresh (id : String) (s : Harness) : Prop where
  baseline : s.baseline = none
  nodup : s.queue.Nodup
  hex : ∀ envelope ∈ s.queue, isHex64 envelope = true
  file : savedCursor id s.cursorFile = none
  log : s.deliveredFile = []
  injected : s.injected = []
  flight : s.flight = []
  supervisor : ∀ sup, s.supervisor = some sup → SupFresh s sup

def Inv (id : String) (s : Harness) : Prop := Fresh id s ∨ ∃ b, Live id s b

/-! ### What grows -/

section Grows

variable {queue injected injected' pending pending' : List String} {b : Nat}

theorem FeedLive.mono {feed : Feed} (live : FeedLive queue b injected pending feed)
    (more : injected ⊆ injected')
    (kept : ∀ envelope ∈ pending, envelope ∈ injected' ∨ envelope ∈ pending') :
    FeedLive queue b injected' pending' feed := by
  cases live with
  | waiting cursor from_ since rows sent healthy =>
      exact .waiting cursor (from_.mono fun _ => (more ·)) since rows sent healthy
  | opened k placed rows after le inside healthy sent upto =>
      exact .opened k placed rows after le inside healthy sent (upto.mono fun _ member => more member)
  | heard k rows after le inside healthy sent upto =>
      refine .heard k rows after le inside healthy sent (upto.mono fun envelope seen => ?_)
      obtain injected | pending := seen
      · exact .inl (more injected)
      · exact kept envelope pending

theorem FeedLive.enqueue {feed : Feed} (live : FeedLive queue b injected pending feed)
    (envelope : String) : FeedLive (queue ++ [envelope]) b injected pending feed := by
  cases live with
  | waiting cursor from_ since rows sent healthy =>
      exact .waiting cursor (from_.append [envelope]) since rows sent healthy
  | opened k placed rows after le inside healthy sent upto =>
      refine .opened k placed rows after le (by simp; omega) healthy ?_ (upto.append (by omega) [envelope])
      rw [sent, announce_enqueue inside]
  | heard k rows after le inside healthy sent upto =>
      refine .heard k rows after le (by simp; omega) healthy ?_ (upto.append (by omega) [envelope])
      rw [sent, announce_enqueue inside]

theorem FeedFresh.enqueue {feed : Feed} (fresh : FeedFresh queue feed) (envelope : String) :
    FeedFresh (queue ++ [envelope]) feed := by
  cases fresh with
  | waiting since rows sent healthy => exact .waiting since rows sent healthy
  | opened n rows le inside healthy sent =>
      refine .opened n rows le (by simp; omega) healthy ?_
      rw [sent, announce_enqueue inside, List.take_append_of_le_length (by omega)]

theorem Covered.mono {front front' pending : List String}
    (covered : Covered queue b injected front pending) (more : injected ⊆ injected')
    (kept : ∀ envelope ∈ front, envelope ∈ injected' ∨ envelope ∈ front') :
    Covered queue b injected' front' pending := by
  induction pending generalizing front front' with
  | nil => trivial
  | cons envelope rest ih =>
      obtain ⟨⟨after, upto⟩, covered⟩ := covered
      refine ⟨⟨after, upto.mono fun other seen => ?_⟩, ih covered fun other member => ?_⟩
      · obtain injected | front := seen
        · exact .inl (more injected)
        · exact kept other front
      · obtain old | last := List.mem_append.mp member
        · exact (kept other old).imp_right (List.mem_append_left _)
        · exact .inr (List.mem_append_right _ last)

theorem Covered.enqueue {front pending : List String} (covered : Covered queue b injected front pending)
    (envelope : String) : Covered (queue ++ [envelope]) b injected front pending := by
  induction pending generalizing front with
  | nil => trivial
  | cons other rest ih =>
      obtain ⟨⟨after, upto⟩, covered⟩ := covered
      have inside := List.mem_of_mem_drop after
      refine ⟨⟨?_, ?_⟩, ih covered⟩
      · rw [List.drop_append]
        exact List.mem_append_left _ after
      · rw [List.idxOf_append_of_mem inside]
        exact upto.append (List.idxOf_lt_length_iff.mpr inside).le [envelope]

theorem Covered.concat {front pending : List String} (covered : Covered queue b injected front pending)
    {envelope : String} (after : envelope ∈ queue.drop b)
    (upto : Upto queue b (queue.idxOf envelope) fun other =>
      other ∈ injected ∨ other ∈ front ++ pending) :
    Covered queue b injected front (pending ++ [envelope]) := by
  induction pending generalizing front with
  | nil =>
      rw [List.append_nil] at upto
      exact ⟨⟨after, upto⟩, trivial⟩
  | cons first rest ih =>
      refine ⟨covered.1, ih covered.2 ?_⟩
      rw [List.append_assoc]
      exact upto

/-- A feed starts where its cursor is. -/
theorem FeedLive.start {feed : Feed} (nodup : queue.Nodup) (rows : feed.rows = none)
    (live : FeedLive queue b injected pending feed) :
    FeedLive queue b injected pending (feed.start queue) := by
  cases live with
  | waiting cursor from_ since _ sent healthy =>
      refine .opened (position queue cursor) queue.getLast? rfl from_.after
        (position_le from_.member) (Nat.le_refl _) healthy ?_ from_.upto
      have opening : backlog queue feed.since =
          ((queue.take queue.length).drop (position queue cursor), some true) := by
        rw [since, List.take_length]
        cases cursor with
        | none => rfl
        | some cursor => exact backlog_after nodup (from_.member cursor rfl)
      rw [Feed.start, opening]
      rfl
  | opened k placed some => simp [rows] at some
  | heard k some => simp [rows] at some

theorem FeedLive.poll {feed : Feed} (rows : feed.rows.isSome = true)
    (live : FeedLive queue b injected pending feed) :
    FeedLive queue b injected pending (feed.poll queue) := by
  cases live with
  | waiting cursor from_ since none => simp [none] at rows
  | opened k placed rows after le inside healthy sent upto =>
      refine .opened k placed rows after (le.trans inside) (Nat.le_refl _) healthy ?_ upto
      simp only [Feed.poll]
      rw [sent, List.cons_append, announce_poll le inside]
  | heard k rows after le inside healthy sent upto =>
      refine .heard k rows after (le.trans inside) (Nat.le_refl _) healthy ?_ upto
      simp only [Feed.poll]
      rw [sent, announce_poll le inside]

theorem FeedFresh.start {feed : Feed} (rows : feed.rows = none) (fresh : FeedFresh queue feed) :
    FeedFresh queue (feed.start queue) := by
  cases fresh with
  | waiting since _ sent healthy =>
      refine .opened queue.length rfl (Nat.le_refl _) (Nat.le_refl _) healthy ?_
      simp only [Feed.start]
      rw [since, announce_self, List.take_length]
      rfl
  | opened n some =>
      rw [rows] at some
      nomatch some

theorem FeedFresh.poll {feed : Feed} (rows : feed.rows.isSome = true) (fresh : FeedFresh queue feed) :
    FeedFresh queue (feed.poll queue) := by
  cases fresh with
  | waiting since none => simp [none] at rows
  | opened n some le inside healthy sent =>
      refine .opened n some (le.trans inside) (Nat.le_refl _) healthy ?_
      simp only [Feed.poll]
      rw [sent, List.cons_append, announce_poll le inside]

end Grows

theorem PhaseLive.append {injected delivered pending : List String} {phase : Phase}
    (live : PhaseLive injected delivered pending phase) (envelope : String) :
    PhaseLive injected delivered (pending ++ [envelope]) phase := by
  have first : ∀ other, pending.head? = some other → (pending ++ [envelope]).head? = some other := by
    intro other head
    rw [List.head?_append, head]
    rfl
  cases phase with
  | idle => trivial
  | asked other queueing => exact ⟨first other live.1, live.2⟩
  | taken other queueing => exact ⟨first other live.1, live.2⟩
  | recorded other => exact ⟨first other live.1, live.2⟩

/-! ### Every step under the condition keeps it -/

section Steps

variable {id : String} {s : Harness} {b : Nat} {sup sup' : Supervisor}

/-- The supervisor goes on; what it holds it holds on to. -/
theorem Live.supervise (live : Live id s b) (next : SupLive id s b sup')
    (holds : ∀ envelope, s.Holds envelope → ∃ queueing, sup'.phase = .taken envelope queueing) :
    Live id { s with supervisor := some sup' } b where
  baseline := live.baseline
  nodup := live.nodup
  hex := live.hex
  file := live.file
  log := live.log
  recorded := live.recorded
  bound := live.bound
  free := by
    intro envelope unrecorded unheld
    refine live.free envelope unrecorded fun held => unheld ?_
    obtain ⟨queueing, phase⟩ := holds envelope held
    exact ⟨sup', queueing, rfl, phase⟩
  later := live.later
  supervisor := by
    rintro _ ⟨⟩
    exact { next with }

/-- Where the supervisor holds nothing, nothing is held. -/
theorem not_holds (current : s.supervisor = some sup)
    (free : ∀ envelope queueing, sup.phase ≠ .taken envelope queueing) (envelope : String) :
    ¬ s.Holds envelope := by
  rintro ⟨other, queueing, same, phase⟩
  rw [current] at same
  cases same
  exact free envelope queueing phase

theorem holds_same (current : s.supervisor = some sup) (phase : sup'.phase = sup.phase)
    (envelope : String) (held : s.Holds envelope) :
    ∃ queueing, sup'.phase = .taken envelope queueing := by
  obtain ⟨other, queueing, same, taken⟩ := held
  rw [current] at same
  cases same
  exact ⟨queueing, phase.trans taken⟩

theorem Live.enqueue (live : Live id s b) {envelope : String} (hex : isHex64 envelope = true)
    (new : envelope ∉ s.queue) : Live id { s with queue := s.queue ++ [envelope] } b where
  baseline := live.baseline
  nodup := by
    rw [← List.concat_eq_append]
    exact live.nodup.concat new
  hex := by
    intro other member
    obtain old | last := List.mem_append.mp member
    · exact live.hex other old
    · exact List.mem_singleton.mp last ▸ hex
  file := by
    obtain ⟨cursor, saved, at_⟩ := live.file
    exact ⟨cursor, saved, at_.append [envelope]⟩
  log := live.log
  recorded := live.recorded
  bound := live.bound
  free := live.free
  later := fun other member => by
    rw [List.drop_append]
    exact List.mem_append_left _ (live.later other member)
  supervisor := by
    intro sup current
    have kept := live.supervisor sup current
    exact { kept with
      covered := kept.covered.enqueue envelope
      feed := fun feed same => (kept.feed feed same).enqueue envelope }

theorem Live.boot (live : Live id s b) (none : s.supervisor = none) :
    Live id { s with supervisor := some {
      cursor := savedCursor id s.cursorFile
      delivered := deliveredIn s.deliveredFile } } b := by
  refine live.supervise ⟨rfl, rfl, rfl, trivial, trivial, nofun⟩ ?_
  rintro envelope ⟨sup, queueing, some, _⟩
  rw [none] at some
  nomatch some

theorem SupLive.withFeed (kept : SupLive id s b sup) {feed : Option Feed}
    (next : ∀ f, feed = some f → FeedLive s.queue b s.injected sup.pending f) :
    SupLive id s b { sup with feed } :=
  { kept with feed := next }

theorem Live.connect (live : Live id s b) (current : s.supervisor = some sup) :
    Live id { s with supervisor := some (
      if sup.feed.isSome then sup else { sup with feed := some { since := sinceOf sup.cursor } }) } b := by
  have kept := live.supervisor sup current
  refine live.supervise ?_ (holds_same current (by split <;> rfl))
  split
  · exact kept
  · refine kept.withFeed ?_
    rintro _ ⟨⟩
    obtain ⟨cursor, saved, at_⟩ := live.file
    exact .waiting cursor at_ (by rw [kept.cursor, saved]) rfl rfl rfl

/-- Whatever the feed does from the queue. -/
theorem Live.withFeed (live : Live id s b) {f : Feed → Feed}
    (keeps : ∀ feed pending, FeedLive s.queue b s.injected pending feed →
      FeedLive s.queue b s.injected pending (f feed)) : Live id (s.withFeed f) b := by
  unfold Harness.withFeed
  split
  · exact live
  · rename_i sup current
    have kept := live.supervisor sup current
    refine live.supervise (kept.withFeed ?_) (holds_same current rfl)
    intro feed same
    obtain ⟨before, was, rfl⟩ := Option.map_eq_some_iff.mp same
    exact keeps before sup.pending (kept.feed before was)

/-- An envelope that is announced is pending, or was. -/
theorem Live.offer (live : Live id s b) (current : s.supervisor = some sup) {feed : Feed} {k : Nat}
    {envelope : String} {rest : List Line} (rows : feed.rows.isSome = true) (after : b ≤ k)
    (inside : feed.read ≤ s.queue.length)
    (healthy : feed.healthy = true) (here : s.queue[k]? = some envelope) (before : k < feed.read)
    (left : rest = announce s.queue (k + 1) feed.read)
    (upto : Upto s.queue b k fun other => other ∈ s.injected ∨ other ∈ sup.pending) :
    Live id { s with supervisor := some (
      Supervisor.offer { sup with feed := some { feed with sent := rest } } envelope) } b := by
  have kept := live.supervisor sup current
  -- wherever the envelope is pending, the feed is one place further
  have heard : ∀ pending, envelope ∈ pending → sup.pending ⊆ pending →
      FeedLive s.queue b s.injected pending { feed with sent := rest } := by
    intro pending member more
    refine .heard (k + 1) rows (Nat.le_succ_of_le after) before inside healthy left
      (Upto.next (upto.mono fun other seen => ?_) here (.inr member))
    exact seen.imp_right fun pending => more pending
  unfold Supervisor.offer
  split
  · rename_i announced
    refine live.supervise (kept.withFeed ?_) (holds_same current rfl)
    rintro _ ⟨⟩
    exact heard sup.pending (kept.announced ▸ announced) (List.Subset.refl _)
  · rename_i unannounced
    refine live.supervise ⟨kept.cursor, kept.delivered, ?_, ?_, ?_, ?_⟩ (holds_same current rfl)
    · show sup.announced ++ [envelope] = sup.pending ++ [envelope]
      rw [kept.announced]
    · refine kept.covered.concat ?_ ?_
      · exact mem_drop_of_getElem? here after
      · rw [List.nil_append, idxOf_of_getElem? live.nodup here]
        exact upto
    · exact kept.phase.append envelope
    · rintro _ ⟨⟩
      exact heard _ (List.mem_append_right _ List.mem_cons_self) (List.subset_append_left _ _)

theorem Live.receive (live : Live id s b) : Live id (s.onReceive id none) b := by
  unfold Harness.onReceive
  split
  · exact live
  · rename_i sup current
    have kept := live.supervisor sup current
    split
    · exact live
    · rename_i feed connected
      have heard := kept.feed feed connected
      split
      · exact live
      · rename_i sinceFound placed rest sent
        obtain ⟨cursor, saved, -⟩ := live.file
        have based : sup.cursor ≠ none := by
          rw [kept.cursor, saved]
          exact Option.some_ne_none _
        cases heard with
        | waiting _ _ _ _ none =>
            rw [none] at sent
            nomatch sent
        | opened k placed rows after le inside healthy opening upto =>
            rw [opening] at sent
            cases sent
            simp only [Harness.onHello, if_neg based, Option.some.injEq, Bool.true_eq_false, if_false]
            refine live.supervise (kept.withFeed ?_) (holds_same current rfl)
            rintro _ ⟨⟩
            exact .heard k rows after le inside rfl rfl (upto.mono fun _ injected => .inl injected)
        | heard k rows after le inside healthy announced upto =>
            rw [announced, announce] at sent
            obtain ⟨row, _, _, same, _⟩ := List.map_eq_cons_iff.mp sent
            nomatch same
      · rename_i envelope rest sent
        cases heard with
        | waiting _ _ _ _ none =>
            rw [none] at sent
            nomatch sent
        | opened k placed rows after le inside healthy opening upto =>
            rw [opening] at sent
            nomatch sent
        | heard k rows after le inside healthy announced upto =>
            rw [announced] at sent
            obtain ⟨here, before, left⟩ := announce_cons sent
            dsimp only
            rw [if_pos healthy]
            exact live.offer current rows after inside healthy here before left upto

theorem SupLive.ask (kept : SupLive id s b sup) (busy : Bool) :
    SupLive id s b (Harness.onAsk busy sup) := by
  unfold Harness.onAsk
  split
  · rename_i envelope rest _ pending
    split
    · rename_i delivered
      exact { kept with phase := ⟨by simp [pending], delivered⟩ }
    · rename_i undelivered
      exact { kept with phase := ⟨by simp [pending], undelivered⟩ }
  · exact kept

theorem SupLive.refuse (kept : SupLive id s b sup) : SupLive id s b (Harness.onRefuse sup) := by
  have phase := kept.phase
  unfold Harness.onRefuse
  split
  · rename_i envelope asked
    rw [asked] at phase
    exact { kept with phase := phase }
  · exact { kept with phase := trivial }
  · exact kept

/-- What is asked for is not held. -/
theorem Live.withSupervisor (live : Live id s b) {f : Supervisor → Supervisor}
    (keeps : ∀ sup, SupLive id s b sup → SupLive id s b (f sup))
    (holds : ∀ sup envelope queueing, sup.phase = .taken envelope queueing →
      ∃ queueing, (f sup).phase = .taken envelope queueing) : Live id (s.withSupervisor f) b := by
  unfold Harness.withSupervisor
  split
  · exact live
  · rename_i sup current
    refine live.supervise (keeps sup (live.supervisor sup current)) fun envelope held => ?_
    obtain ⟨queueing, taken⟩ := holds_same current rfl envelope held
    exact holds sup envelope queueing taken

theorem SupLive.after (kept : SupLive id s b sup) {envelope : String} {rest : List String}
    (pending : sup.pending = envelope :: rest) : envelope ∈ s.queue.drop b :=
  (pending ▸ kept.covered : Covered s.queue b s.injected [] (envelope :: rest)).1.1

theorem pending_of_head {pending : List String} {envelope : String}
    (head : pending.head? = some envelope) : ∃ rest, pending = envelope :: rest :=
  List.head?_eq_some_iff.mp head

theorem count_concat (list : List String) (envelope other : String) :
    (list ++ [envelope]).count other = list.count other + if envelope = other then 1 else 0 := by
  rw [List.count_append, List.count_singleton]
  simp

/-- The supervisor in a state where more is injected. -/
theorem SupLive.injects (kept : SupLive id s b sup) {injected flight : List String}
    (more : s.injected ⊆ injected) {phase : Phase}
    (at_ : PhaseLive injected sup.delivered sup.pending phase) {supervisor : Option Supervisor} :
    SupLive id { s with injected, flight, supervisor } b { sup with phase } where
  cursor := kept.cursor
  delivered := kept.delivered
  announced := kept.announced
  covered := kept.covered.mono more (fun _ member => .inr member)
  phase := at_
  feed := fun feed same => (kept.feed feed same).mono more fun _ member => .inr member

theorem Live.accept (live : Live id s b) : Live id s.onAccept b := by
  unfold Harness.onAccept
  split
  · rename_i sup current
    split
    · rename_i envelope queueing asked
      have kept := live.supervisor sup current
      have phase := kept.phase
      rw [asked] at phase
      obtain ⟨head, undelivered⟩ := phase
      obtain ⟨rest, pending⟩ := pending_of_head head
      have more : s.injected ⊆ s.injected ++ [envelope] := List.subset_append_left _ _
      have unheld : ∀ other, ¬ s.Holds other := not_holds current (by simp [asked])
      have free := live.free envelope (kept.delivered ▸ undelivered) (unheld envelope)
      exact {
        baseline := live.baseline
        nodup := live.nodup
        hex := live.hex
        file := by
          obtain ⟨cursor, saved, at_⟩ := live.file
          exact ⟨cursor, saved, at_.mono fun _ => (more ·)⟩
        log := live.log
        recorded := fun other member => more (live.recorded other member)
        bound := by
          intro other
          have before := live.bound other
          dsimp only
          rw [count_concat]
          split
          · rename_i same
            subst same
            omega
          · exact before
        free := by
          intro other unrecorded released
          dsimp only
          rw [count_concat, if_neg]
          · exact live.free other unrecorded (unheld other)
          · rintro rfl
            exact released ⟨_, queueing, rfl, rfl⟩
        later := by
          intro other member
          obtain injected | flying := member
          · obtain old | new := List.mem_append.mp injected
            · exact live.later other (.inl old)
            · rw [List.mem_singleton.mp new]
              exact kept.after pending
          · exact live.later other (.inr flying)
        supervisor := by
          rintro _ ⟨⟩
          have next : PhaseLive (s.injected ++ [envelope]) sup.delivered sup.pending
              (.taken envelope queueing) :=
            ⟨head, undelivered, List.mem_append_right _ List.mem_cons_self⟩
          exact kept.injects more next }
    · exact live
  · exact live

theorem PhaseLive.injects {injected injected' delivered pending : List String} {phase : Phase}
    (live : PhaseLive injected delivered pending phase) (more : injected ⊆ injected') :
    PhaseLive injected' delivered pending phase := by
  cases phase with
  | taken envelope queueing => exact ⟨live.1, live.2.1, more live.2.2⟩
  | idle => exact live
  | asked envelope queueing => exact live
  | recorded envelope => exact live

theorem Live.acceptLate (live : Live id s b) (envelope : String) :
    Live id (s.onAcceptLate envelope) b := by
  unfold Harness.onAcceptLate
  split
  · rename_i flying
    have more : s.injected ⊆ s.injected ++ [envelope] := List.subset_append_left _ _
    -- what is injected leaves the flight
    have counts : ∀ other, (s.injected ++ [envelope]).count other + (s.flight.erase envelope).count other =
        s.injected.count other + s.flight.count other := by
      intro other
      rw [count_concat]
      split
      · rename_i same
        subst same
        have here := List.count_pos_iff.mpr flying
        rw [List.count_erase_self]
        omega
      · rename_i apart
        rw [List.count_erase_of_ne (Ne.symm apart)]
        omega
    exact {
      baseline := live.baseline
      nodup := live.nodup
      hex := live.hex
      file := by
        obtain ⟨cursor, saved, at_⟩ := live.file
        exact ⟨cursor, saved, at_.mono fun _ => (more ·)⟩
      log := live.log
      recorded := fun other member => more (live.recorded other member)
      bound := fun other => by
        dsimp only
        rw [counts]
        exact live.bound other
      free := fun other unrecorded unheld => by
        dsimp only
        rw [counts]
        exact live.free other unrecorded unheld
      later := by
        intro other member
        obtain injected | left := member
        · obtain old | new := List.mem_append.mp injected
          · exact live.later other (.inl old)
          · exact List.mem_singleton.mp new ▸ live.later envelope (.inr flying)
        · exact live.later other (.inr (List.mem_of_mem_erase left))
      supervisor := fun sup current => by
        have kept := live.supervisor sup current
        exact kept.injects more (kept.phase.injects more) }
  · exact live

theorem Live.record (live : Live id s b) (answer : String) (now : Int) :
    Live id (s.onRecord answer now none) b := by
  unfold Harness.onRecord
  split
  · exact live
  · rename_i sup current
    split
    · rename_i envelope queueing taken
      have kept := live.supervisor sup current
      have phase := kept.phase
      rw [taken] at phase
      obtain ⟨head, undelivered, injected⟩ := phase
      obtain ⟨rows, file⟩ := live.log
      have grown : s.deliveredFile ++ rowLine (deliveredJson envelope queueing answer now) =
          rowsFile (rows ++ [deliveredJson envelope queueing answer now]) := by
        rw [file, rowsFile, rowsFile, List.flatMap_append, List.flatMap_singleton]
      have read : deliveredIn (s.deliveredFile ++
          rowLine (deliveredJson envelope queueing answer now)) =
          deliveredIn s.deliveredFile ++ [envelope] := by
        rw [grown, file, deliveredIn_rowsFile, deliveredIn_rowsFile, List.map_append, List.map_singleton,
          lineEnvelope_deliveredJson]
      dsimp only
      exact {
        baseline := live.baseline
        nodup := live.nodup
        hex := live.hex
        file := live.file
        log := ⟨_, grown⟩
        recorded := by
          intro other member
          rw [read] at member
          obtain old | new := List.mem_append.mp member
          · exact live.recorded other old
          · exact List.mem_singleton.mp new ▸ injected
        bound := live.bound
        free := by
          intro other unrecorded _
          rw [read, List.mem_append, not_or] at unrecorded
          refine live.free other unrecorded.1 ?_
          rintro ⟨_, _, same, held⟩
          rw [current] at same
          cases same
          rw [taken] at held
          cases held
          exact unrecorded.2 List.mem_cons_self
        later := live.later
        supervisor := by
          rintro _ ⟨⟩
          refine { kept with delivered := ?_, phase := ⟨head, ?_⟩ }
          · rw [kept.delivered]
            exact read.symm
          · exact List.mem_append_right _ List.mem_cons_self }
    · exact live

theorem Live.save (live : Live id s b) : Live id (s.onSave id none) b := by
  unfold Harness.onSave
  split
  · exact live
  · rename_i sup current
    split
    · rename_i envelope recorded
      have kept := live.supervisor sup current
      have phase := kept.phase
      rw [recorded] at phase
      obtain ⟨head, delivered⟩ := phase
      obtain ⟨rest, pending⟩ := pending_of_head head
      have injected : envelope ∈ s.injected := live.recorded envelope (kept.delivered ▸ delivered)
      have covered : Covered s.queue b s.injected [] (envelope :: rest) := pending ▸ kept.covered
      obtain ⟨⟨after, upto⟩, covered⟩ := covered
      have inside := List.mem_of_mem_drop after
      have written : savedCursor id (rowLine (cursorJson id (some envelope))) = some (some envelope) :=
        savedCursor_written (by
          rintro _ ⟨⟩
          exact live.hex envelope inside)
      have passed : ∀ other ∈ sup.pending, other ∈ s.injected ∨ other ∈ sup.pending.tail := by
        intro other member
        rw [pending] at member ⊢
        obtain rfl | member := List.mem_cons.mp member
        · exact .inl injected
        · exact .inr member
      simp only [Harness.saveCursor]
      generalize rowLine (cursorJson id (some envelope)) = line at written ⊢
      exact {
        baseline := live.baseline
        nodup := live.nodup
        hex := live.hex
        file := by
          have before : Upto s.queue b (s.queue.idxOf envelope) (· ∈ s.injected) :=
            upto.mono fun other seen => seen.resolve_right List.not_mem_nil
          exact ⟨some envelope, written, stands_some live.nodup after before injected⟩
        log := live.log
        recorded := live.recorded
        bound := live.bound
        free := fun other unrecorded _ => live.free other unrecorded
          (not_holds current (by simp [recorded]) other)
        later := live.later
        supervisor := by
          rintro _ ⟨⟩
          refine ⟨written.symm, kept.delivered, ?_, ?_, trivial, fun feed same =>
            (kept.feed feed same).mono (List.Subset.refl _) passed⟩
          · show sup.announced.erase envelope = sup.pending.tail
            rw [kept.announced, pending, List.erase_cons_head]
            rfl
          · show Covered s.queue b s.injected [] sup.pending.tail
            rw [pending]
            refine covered.mono (List.Subset.refl _) fun other member => ?_
            exact .inl (List.mem_singleton.mp member ▸ injected) }
    · exact live

/-- A kill, or a crash, cuts a request off from its record. -/
theorem Live.cut (live : Live id s b) (current : s.supervisor = some sup) {next : Option Supervisor}
    (idle : ∀ sup', next = some sup' → sup' = { sup with phase := .idle }) :
    Live id { s with
      supervisor := next
      flight := s.flight ++ sup.phase.flight
      cuts := s.cuts ++ sup.phase.cut } b := by
  have kept := live.supervisor sup current
  have phase := kept.phase
  -- of every envelope: no more than its cuts is under way
  have counts : ∀ other, s.injected.count other + (s.flight ++ sup.phase.flight).count other ≤
      (s.cuts ++ sup.phase.cut).count other + 1 ∧
      (other ∉ deliveredIn s.deliveredFile → s.injected.count other +
        (s.flight ++ sup.phase.flight).count other ≤ (s.cuts ++ sup.phase.cut).count other) := by
    intro other
    have bound := live.bound other
    have free := live.free other
    cases now : sup.phase with
    | idle =>
        have unheld := not_holds current (by simp [now]) other
        simp only [Phase.flight, Phase.cut, List.append_nil]
        exact ⟨bound, fun unrecorded => free unrecorded unheld⟩
    | recorded envelope =>
        have unheld := not_holds current (by simp [now]) other
        simp only [Phase.flight, Phase.cut, List.append_nil]
        exact ⟨bound, fun unrecorded => free unrecorded unheld⟩
    | asked envelope queueing =>
        have unheld := not_holds current (by simp [now]) other
        simp only [Phase.flight, Phase.cut]
        rw [count_concat, count_concat]
        refine ⟨by omega, fun unrecorded => ?_⟩
        have := free unrecorded unheld
        omega
    | taken envelope queueing =>
        simp only [Phase.flight, Phase.cut, List.append_nil]
        rw [count_concat]
        refine ⟨by omega, fun unrecorded => ?_⟩
        by_cases same : envelope = other
        · rw [if_pos same]
          exact bound
        · rw [if_neg same]
          refine free unrecorded fun ⟨_, _, is, held⟩ => ?_
          rw [current] at is
          cases is
          rw [now] at held
          cases held
          exact same rfl
  exact {
    baseline := live.baseline
    nodup := live.nodup
    hex := live.hex
    file := live.file
    log := live.log
    recorded := live.recorded
    bound := fun other => (counts other).1
    free := fun other unrecorded _ => (counts other).2 unrecorded
    later := by
      intro other member
      obtain injected | flying := member
      · exact live.later other (.inl injected)
      · obtain old | new := List.mem_append.mp flying
        · exact live.later other (.inr old)
        · cases now : sup.phase with
          | asked envelope queueing =>
              rw [now] at new phase
              obtain ⟨rest, pending⟩ := pending_of_head phase.1
              rw [List.mem_singleton.mp new]
              exact kept.after pending
          | _ =>
              rw [now] at new
              nomatch new
    supervisor := by
      intro sup' same
      cases idle sup' same
      exact { kept with phase := trivial } }

theorem Live.crash (live : Live id s b) : Live id s.onCrash b := by
  unfold Harness.onCrash
  split
  · exact live
  · rename_i sup current
    split
    · exact live
    · refine live.cut current ?_
      rintro _ ⟨⟩
      rfl

theorem Live.kill (live : Live id s b) : Live id s.onKill b := by
  unfold Harness.onKill
  split
  · exact live
  · rename_i sup current
    exact live.cut current nofun

theorem live_step {action : Action} (live : Live id s b) (whole : Whole s action) :
    Live id (s.step id action) b := by
  cases action with
  | enqueue envelope => exact live.enqueue whole.1 whole.2
  | boot =>
      simp only [Harness.step]
      split
      · exact live
      · rename_i none
        exact live.boot (Option.not_isSome_iff_eq_none.mp none)
  | connect =>
      simp only [Harness.step, Harness.withSupervisor]
      split
      · exact live
      · rename_i sup current
        exact live.connect current
  | feedStart =>
      refine live.withFeed fun feed pending kept => ?_
      split
      · exact kept
      · rename_i none
        exact kept.start live.nodup (Option.not_isSome_iff_eq_none.mp none)
  | feedPoll =>
      refine live.withFeed fun feed pending kept => ?_
      split
      · rename_i some
        exact kept.poll some
      · exact kept
  | feedExit =>
      exact live.withSupervisor (fun sup kept => kept.withFeed nofun)
        fun sup envelope queueing taken => ⟨queueing, taken⟩
  | receive cut =>
      cases whole
      exact live.receive
  | ask busy =>
      refine live.withSupervisor (fun sup kept => kept.ask busy) fun sup envelope queueing taken => ?_
      exact ⟨queueing, by simp [Harness.onAsk, taken]⟩
  | accept => exact live.accept
  | acceptLate envelope => exact live.acceptLate envelope
  | refuse =>
      refine live.withSupervisor (fun sup kept => kept.refuse) fun sup envelope queueing taken => ?_
      exact ⟨queueing, by simp [Harness.onRefuse, taken]⟩
  | misanswer => exact whole.elim
  | record answer now cut =>
      cases whole
      exact live.record answer now
  | save cut =>
      cases whole
      exact live.save
  | crash => exact live.crash
  | kill => exact live.kill

/-! ### Before the baseline -/

theorem Fresh.supervise (fresh : Fresh id s) {cuts : List String} {next : Option Supervisor}
    (kept : ∀ sup', next = some sup' → SupFresh s sup') :
    Fresh id { s with supervisor := next, cuts } where
  baseline := fresh.baseline
  nodup := fresh.nodup
  hex := fresh.hex
  file := fresh.file
  log := fresh.log
  injected := fresh.injected
  flight := fresh.flight
  supervisor := fun sup' same => { kept sup' same with }

theorem Fresh.enqueue (fresh : Fresh id s) {envelope : String} (hex : isHex64 envelope = true)
    (new : envelope ∉ s.queue) : Fresh id { s with queue := s.queue ++ [envelope] } where
  baseline := fresh.baseline
  nodup := by
    rw [← List.concat_eq_append]
    exact fresh.nodup.concat new
  hex := by
    intro other member
    obtain old | last := List.mem_append.mp member
    · exact fresh.hex other old
    · exact List.mem_singleton.mp last ▸ hex
  file := fresh.file
  log := fresh.log
  injected := fresh.injected
  flight := fresh.flight
  supervisor := fun sup current =>
    have kept := fresh.supervisor sup current
    { kept with feed := fun feed same => (kept.feed feed same).enqueue envelope }

theorem Fresh.withSupervisor (fresh : Fresh id s) {f : Supervisor → Supervisor}
    (keeps : ∀ sup, SupFresh s sup → SupFresh s (f sup)) : Fresh id (s.withSupervisor f) := by
  unfold Harness.withSupervisor
  split
  · exact fresh
  · rename_i sup current
    refine fresh.supervise ?_
    rintro _ ⟨⟩
    exact keeps sup (fresh.supervisor sup current)

theorem Fresh.withFeed (fresh : Fresh id s) {f : Feed → Feed}
    (keeps : ∀ feed, FeedFresh s.queue feed → FeedFresh s.queue (f feed)) :
    Fresh id (s.withFeed f) := by
  unfold Harness.withFeed
  split
  · exact fresh
  · rename_i sup current
    have kept := fresh.supervisor sup current
    refine fresh.supervise ?_
    rintro _ ⟨⟩
    refine { kept with feed := fun feed same => ?_ }
    obtain ⟨before, was, rfl⟩ := Option.map_eq_some_iff.mp same
    exact keeps before (kept.feed before was)

/-- The first greeting of a feed makes the baseline. -/
theorem Fresh.receive (fresh : Fresh id s) : Inv id (s.onReceive id none) := by
  unfold Harness.onReceive
  split
  · exact .inl fresh
  · rename_i sup current
    have kept := fresh.supervisor sup current
    split
    · exact .inl fresh
    · rename_i feed connected
      have heard := kept.feed feed connected
      split
      · exact .inl fresh
      · rename_i sinceFound placed rest sent
        cases heard with
        | waiting _ _ none =>
            rw [none] at sent
            nomatch sent
        | opened n rows le inside healthy opening =>
            rw [opening] at sent
            cases sent
            refine .inr ⟨n, ?_⟩
            have within : n ≤ s.queue.length := le.trans inside
            have at_ : CursorAt s.queue n s.injected (s.queue.take n).getLast? :=
              stands_getLast? fresh.nodup within
            have written : savedCursor id (rowLine (cursorJson id (s.queue.take n).getLast?)) =
                some (s.queue.take n).getLast? :=
              savedCursor_written fun envelope last => fresh.hex envelope (at_.member envelope last)
            have unrecorded : deliveredIn s.deliveredFile = [] := by
              rw [fresh.log]
              rfl
            simp only [Harness.onHello, kept.cursor, fresh.baseline, if_true, Harness.saveCursor]
            exact {
              baseline := rows
              nodup := fresh.nodup
              hex := fresh.hex
              file := ⟨_, written, at_⟩
              log := ⟨[], fresh.log⟩
              recorded := by
                intro envelope member
                rw [unrecorded] at member
                nomatch member
              bound := by simp [fresh.injected, fresh.flight]
              free := by simp [fresh.injected, fresh.flight]
              later := by simp [fresh.injected, fresh.flight]
              supervisor := by
                rintro _ ⟨⟩
                refine ⟨written.symm, kept.delivered.trans unrecorded.symm,
                  kept.announced.trans kept.pending.symm, ?_, ?_, ?_⟩
                · simp only [kept.pending]
                  trivial
                · simp only [kept.phase]
                  trivial
                · rintro _ ⟨⟩
                  exact .heard n (by simp [rows]) (Nat.le_refl n) le inside rfl rfl upto_self }
      · rename_i envelope rest sent
        cases heard with
        | waiting _ _ none =>
            rw [none] at sent
            nomatch sent
        | opened n rows le inside healthy opening =>
            rw [opening] at sent
            nomatch sent

end Steps

/-! ### The feed reconnects -/

section Reconnects

variable {id : String} {s : Harness} {sup : Supervisor} {feed : Feed}

/-- A run under the condition that leaves the queue as it is. -/
def Reaches (id : String) (s s' : Harness) : Prop :=
  ∃ more, Meets (Harness.step id) Whole s more ∧ runs id s more = s' ∧ s'.queue = s.queue

theorem Reaches.trans {s' s'' : Harness} (first : Reaches id s s') (second : Reaches id s' s'') :
    Reaches id s s'' := by
  obtain ⟨more, meets, rfl, same⟩ := first
  obtain ⟨more', meets', rfl, same'⟩ := second
  exact ⟨more ++ more', Runs.meets_append.mpr ⟨meets, meets'⟩, Runs.run_append _ _ _, same'.trans same⟩

end Reconnects

section Samples

def firstEnvelope : String := String.ofList (List.replicate 64 'a')
def secondEnvelope : String := String.ofList (List.replicate 64 'b')
end Samples

end Nvoy.Codex.Portable
