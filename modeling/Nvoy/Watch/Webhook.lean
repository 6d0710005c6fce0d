/-
**The webhook wake** (`admitted-webhook-notify.mjs`): it follows the admitted queue, sends one POST for each
new envelope, and posts an envelope again while the channel's read log does not hold it.

* `World`, `step` — the queue, the read log, the saved state, and the process with its pending rows, its
  watch list and the POST at work; kills and restarts anywhere;
* `loadState_saved` — a state with the shape of those that are saved is read back.

What the wake promises over a run of these steps is in `Notifies.lean`.
-/

import Nvoy.Broker.AdmittedQueue
import Nvoy.Lib.Cursor
import Nvoy.Lib.Recent
import Nvoy.Lib.Runs
import Nvoy.Lib.Sizes
import Nvoy.Nostr.Event

namespace Nvoy.Watch.Webhook

open Broker (rowLine)
open Cursor (Stands Upto afterLast position)

/-! ### The saved state -/

def MAX_STATE : Nat := 1024 * 1024

def MAX_WATCH : Nat := 256

def MAX_READ_IDS : Nat := 100000

/-- The last instant that `Date.now()` can tell. -/
def MAX_TIME : Nat := 8640000000000000

/-- The flags of a run, in their bounds. -/
structure Settings where
  id : String
  attempts : Nat
  renotifyMs : Nat
  renotifyMax : Nat
  id_length : id.toList.length ≤ 64
  attempts_range : 1 ≤ attempts ∧ attempts ≤ 20
  renotifyMs_range : 100 ≤ renotifyMs ∧ renotifyMs ≤ 86400000
  renotifyMax_range : renotifyMax ≤ 10

inductive Kind
  | task
  | notification
  deriving DecidableEq

def Kind.name : Kind → String
  | .task => "admitted-task"
  | .notification => "verified-notification"

def Kind.ofName (name : String) : Option Kind :=
  if name = "admitted-task" then some .task
  else if name = "verified-notification" then some .notification
  else none

/-- The number `mantissa · 10 ^ exponent`. -/
structure Number where
  mantissa : Int
  exponent : Int
  deriving DecidableEq

namespace Number

def value (n : Number) : ℚ := n.mantissa * (10 : ℚ) ^ n.exponent

def ofNat (n : Nat) : Number := ⟨n, 0⟩

/-- The decimal of a double. -/
def Short (n : Number) : Prop := n.mantissa.natAbs < 10 ^ 17 ∧ n.exponent.natAbs < 400

def json (n : Number) : Json := .num n.mantissa n.exponent

def ofJson : Json → Option Number
  | .num mantissa exponent => some ⟨mantissa, exponent⟩
  | _ => none

end Number

/-- A row of the admitted queue, as `admittedMeta` passes it on. -/
structure Row where
  envelope : String
  kind : Kind
  stamp : Option Number
  hex : isHex64 envelope = true
  short : ∀ n, stamp = some n → n.Short

/-- An entry of the watch list. -/
structure Watched where
  envelope : String
  kind : Kind
  stamp : Option Number
  posts : Nat
  last : Number

/-- `state` -/
structure Saved where
  cursor : Option String
  watch : List Watched

def Watched.json (item : Watched) : Json :=
  .obj [("envelope", .str item.envelope), ("type", .str item.kind.name),
    ("at", item.stamp.elim .null Number.json), ("posts", .num item.posts 0), ("last", item.last.json)]

def stateJson (id : String) (saved : Saved) : Json :=
  .obj [("version", .num 1 0), ("instance", .str id), ("cursor", saved.cursor.elim .null .str),
    ("watch", .arr (saved.watch.map Watched.json))]

/-- What `saveState` writes. -/
def stateFile (id : String) (saved : Saved) : List UInt8 := rowLine (stateJson id saved)

def cursorOf : Option Json → Option (Option String)
  | some .null => some none
  | some (.str cursor) => if isHex64 cursor then some (some cursor) else none
  | _ => none

def stampOf : Option Json → Option (Option Number)
  | some .null => some none
  | some (.num mantissa exponent) => some (some ⟨mantissa, exponent⟩)
  | _ => none

/-- `entry`, with the entry it lets through. -/
def entryOf (w : Json) : Option Watched := do
  let envelope ← (w.get "envelope").bind Json.string
  let kind ← ((w.get "type").bind Json.string).bind Kind.ofName
  let stamp ← stampOf (w.get "at")
  let posts ← (w.get "posts").bind Json.integer
  let last ← (w.get "last").bind Number.ofJson
  if isHex64 envelope ∧ 1 ≤ posts then some ⟨envelope, kind, stamp, posts.toNat, last⟩ else none

def savedOf (id : String) (raw : Json) : Option Saved := do
  let cursor ← cursorOf (raw.get "cursor")
  let watch ← (raw.get "watch").bind Json.items
  let entries ← watch.mapM entryOf
  if (raw.get "version").bind Json.integer = some 1 ∧ (raw.get "instance").bind Json.string = some id ∧
      watch.length ≤ MAX_WATCH then some ⟨cursor, entries⟩
  else none

/-- `loadState`, of a file that is there. -/
def loadState (id : String) (file : List UInt8) : Except String Saved := do
  ensure (file.length ≤ MAX_STATE) "wake webhook state must be a bounded regular file"
  let raw ← require (Json.parse (utf8Decode file).toList) "wake webhook state is not valid JSON"
  require (savedOf id raw) "wake webhook state is invalid; remove it to re-baseline at the queue end"

/-! ### The notifier -/

/-- A row of `pending`. -/
structure Pending where
  envelope : String
  kind : Kind
  stamp : Option Number
  renotify : Bool

def Row.pending (row : Row) : Pending := ⟨row.envelope, row.kind, row.stamp, false⟩

def Watched.pending (item : Watched) : Pending := ⟨item.envelope, item.kind, item.stamp, true⟩

/-- Where the main loop stands; of a POST at work, the outcomes of its attempts. -/
inductive Phase
  | waiting
  /-- The queue is read, within `poll`. -/
  | polled
  | reviewed
  | posting (row : Pending) (outcomes : List Bool)
  /-- The attempts are over, and the state is not saved. -/
  | settled (row : Pending) (outcomes : List Bool)

structure Notifier where
  state : Saved
  pending : List Pending
  /-- The rows of the queue that it has read. -/
  read : Nat
  readIds : List String := []
  /-- The lines of the read log that it has read. -/
  logRead : Nat := 0
  queuedRenotify : List String := []
  phase : Phase := .waiting

/-- What happens to an envelope. -/
inductive Event
  /-- Its first POST begins. -/
  | first (envelope : String)
  /-- A POST that re-notifies begins; of the read log, that much was read. -/
  | again (envelope : String) (now : Nat) (read : List String)
  /-- The attempts of a POST are over. -/
  | settled (envelope : String) (renotify : Bool) (outcomes : List Bool) (now : Nat)
  /-- The state after a POST is saved. -/
  | saved (envelope : String) (renotify : Bool) (now : Nat)
  /-- It was found in the read log and not posted. -/
  | found (envelope : String)
  /-- A kill cuts its first POST off from the save. -/
  | cut (envelope : String)
  deriving DecidableEq

structure World where
  queue : List Row := []
  /-- The envelopes of the read log, line by line. -/
  log : List String := []
  file : Option (List UInt8) := none
  now : Nat := 0
  notifier : Option Notifier := none
  /-- The rows that the queue had at the first start. -/
  baseline : Option Nat := none
  /-- What has happened, the last first. -/
  history : List Event := []

def World.envelopes (w : World) : List String := w.queue.map Row.envelope

/-- The rows after the last one of the envelope. -/
def rowsAfter (envelope : String) (rows : List Row) : List Row :=
  (rows.reverse.takeWhile (·.envelope ≠ envelope)).reverse

/-- One line of the read log, in `refreshRead`. -/
def remember (readIds : List String) (envelope : String) : List String :=
  let next := readIds.erase envelope ++ [envelope]
  if MAX_READ_IDS < next.length then next.tail else next

def remembered (read : List String) : List String := read.foldl remember []

/-- The watch list in `poll`: the entries that stay, `queuedRenotify`, and what is pending again. -/
def review (settings : Settings) (readIds : List String) (now : Nat) :
    List Watched → List String → List Watched × List String × List Pending
  | [], queued => ([], queued, [])
  | item :: rest, queued =>
      if item.envelope ∈ readIds then review settings readIds now rest queued
      else if item.envelope ∈ queued ∨ (now : ℚ) - item.last.value < settings.renotifyMs then
        let (kept, next) := review settings readIds now rest queued
        (item :: kept, next)
      else if settings.renotifyMax < item.posts then review settings readIds now rest queued
      else
        let (kept, next, again) := review settings readIds now rest (queued ++ [item.envelope])
        (item :: kept, next, item.pending :: again)

/-- The entry of the envelope after another POST. -/
def touch (envelope : String) (now : Nat) : List Watched → List Watched
  | [] => []
  | item :: rest =>
      if item.envelope = envelope then { item with posts := item.posts + 1, last := .ofNat now } :: rest
      else item :: touch envelope now rest

/-- The state after a POST. -/
def Saved.after (settings : Settings) (saved : Saved) (row : Pending) (delivered : Bool) (now : Nat) :
    Saved :=
  if row.renotify then { saved with watch := touch row.envelope now saved.watch }
  else if delivered ∧ 0 < settings.renotifyMax then
    let watch := saved.watch ++ [⟨row.envelope, row.kind, row.stamp, 1, .ofNat now⟩]
    ⟨some row.envelope, if MAX_WATCH < watch.length then watch.tail else watch⟩
  else { saved with cursor := some row.envelope }

inductive Action
  | enqueue (row : Row)
  | markRead (envelope : String)
  | tick (ms : Nat)
  | start
  /-- `poll` reads the queue. -/
  | poll
  /-- `poll` reads the log, if it can, and reviews the watch list. -/
  | review (readable : Bool)
  /-- The first pending row. -/
  | next
  | answer (ok : Bool)
  | save
  | kill

namespace World

variable (settings : Settings) (w : World)

def save (saved : Saved) : World := { w with file := some (stateFile settings.id saved) }

def record (event : Event) : World := { w with history := event :: w.history }

def run (n : Notifier) : World := { w with notifier := some n }

def onStart : World :=
  match w.notifier with
  | some _ => w
  | none =>
    let lastSeen := w.envelopes.getLast?
    match w.file with
    | none =>
      let state : Saved := ⟨lastSeen, []⟩
      ({ w with baseline := some w.queue.length }.save settings state).run ⟨state, [], w.queue.length, [], 0, [],
        .waiting⟩
    | some file =>
      match loadState settings.id file with
      -- The process ends.
      | .error _ => w
      | .ok state =>
        match state.cursor with
        | none => w.run ⟨state, w.queue.map Row.pending, w.queue.length, [], 0, [], .waiting⟩
        | some cursor =>
          if cursor ∈ w.envelopes then
            w.run ⟨state, (rowsAfter cursor w.queue).map Row.pending, w.queue.length, [], 0, [], .waiting⟩
          else
            let state := { state with cursor := lastSeen }
            (w.save settings state).run ⟨state, [], w.queue.length, [], 0, [], .waiting⟩

def onPoll (n : Notifier) : World :=
  match n.phase with
  | .waiting => w.run { n with
      pending := n.pending ++ (w.queue.drop n.read).map Row.pending
      read := w.queue.length
      phase := .polled }
  | _ => w

def onReview (readable : Bool) (n : Notifier) : World :=
  match n.phase with
  | .polled =>
    let readIds := if readable then (w.log.drop n.logRead).foldl remember n.readIds else n.readIds
    let logRead := if readable then w.log.length else n.logRead
    let (watch, queued, again) := review settings readIds w.now n.state.watch n.queuedRenotify
    let next : Notifier := { n with
      state := { n.state with watch }
      pending := n.pending ++ again
      readIds
      logRead
      queuedRenotify := queued
      phase := .reviewed }
    if watch.length ≠ n.state.watch.length then (w.save settings next.state).run next else w.run next
  | _ => w

def onNext (n : Notifier) : World :=
  match n.phase, n.pending with
  | .reviewed, [] => w.run { n with phase := .waiting }
  | .reviewed, row :: pending =>
    if row.envelope ∈ n.readIds ∧ row.renotify = false then
      let state := { n.state with cursor := some row.envelope }
      ((w.record (.found row.envelope)).save settings state).run { n with state, pending, phase := .waiting }
    else if row.renotify = false then
      (w.record (.first row.envelope)).run { n with pending, phase := .posting row [] }
    else if (n.state.watch.find? (·.envelope = row.envelope)).isNone then
      w.run { n with pending, queuedRenotify := n.queuedRenotify.erase row.envelope, phase := .waiting }
    else
      (w.record (.again row.envelope w.now (w.log.take n.logRead))).run
        { n with pending, phase := .posting row [] }
  | _, _ => w

def onAnswer (ok : Bool) (n : Notifier) : World :=
  match n.phase with
  | .posting row outcomes =>
    let outcomes := outcomes ++ [ok]
    if ok = true ∨ settings.attempts ≤ outcomes.length then
      (w.record (.settled row.envelope row.renotify outcomes w.now)).run
        { n with phase := .settled row outcomes }
    else w.run { n with phase := .posting row outcomes }
  | _ => w

def onSave (n : Notifier) : World :=
  match n.phase with
  | .settled row outcomes =>
    let state := n.state.after settings row (outcomes.getLast? = some true) w.now
    ((w.record (.saved row.envelope row.renotify w.now)).save settings state).run { n with
      state
      queuedRenotify := if row.renotify then n.queuedRenotify.erase row.envelope else n.queuedRenotify
      phase := .waiting }
  | _ => w

def onKill (n : Notifier) : World :=
  match n.phase with
  | .posting row _ | .settled row _ =>
    { w with
      notifier := none
      history := if row.renotify then w.history else .cut row.envelope :: w.history }
  | _ => { w with notifier := none }

def step : Action → World
  | .enqueue row => { w with queue := w.queue ++ [row] }
  | .markRead envelope => { w with log := w.log ++ [envelope] }
  | .tick ms => { w with now := min (w.now + ms) MAX_TIME }
  | .start => w.onStart settings
  | .poll => w.notifier.elim w w.onPoll
  | .review readable => w.notifier.elim w (w.onReview settings readable)
  | .next => w.notifier.elim w (w.onNext settings)
  | .answer ok => w.notifier.elim w (w.onAnswer settings ok)
  | .save => w.notifier.elim w (w.onSave settings)
  | .kill => w.notifier.elim w w.onKill

end World

def runs (settings : Settings) (w : World) (actions : List Action) : World :=
  Runs.run (World.step settings) w actions

/-! ### The saved state, read back -/

/-- The shape of the states that are saved. -/
structure Watched.Valid (item : Watched) : Prop where
  hex : isHex64 item.envelope = true
  posted : 1 ≤ item.posts
  few : item.posts < 100
  stamp : ∀ n, item.stamp = some n → n.Short
  last : item.last.Short

structure Saved.Valid (saved : Saved) : Prop where
  cursor : ∀ envelope, saved.cursor = some envelope → isHex64 envelope = true
  watch : ∀ item ∈ saved.watch, item.Valid
  few : saved.watch.length ≤ MAX_WATCH

section Files

variable {id : String} {saved : Saved} {item : Watched}

theorem ofName_name (kind : Kind) : Kind.ofName kind.name = some kind := by
  cases kind <;> decide

theorem entryOf_json (valid : item.Valid) : entryOf item.json = some item := by
  have stamp : stampOf (some (item.stamp.elim Json.null Number.json)) = some item.stamp := by
    cases item.stamp with
    | none => rfl
    | some n => rfl
  have posts : (1 : Int) ≤ item.posts := Int.ofNat_le.mpr valid.posted
  simp [entryOf, Watched.json, Json.get, Json.string, ofName_name, stamp, Json.integer, Number.json,
    Number.ofJson, valid.hex, posts]

theorem mapM_entryOf (valid : ∀ item ∈ saved.watch, item.Valid) :
    (saved.watch.map Watched.json).mapM entryOf = some saved.watch := by
  rw [mapM_eq_some]
  refine ⟨fun json member => ?_, ?_⟩
  · obtain ⟨item, inside, rfl⟩ := List.mem_map.mp member
    rw [entryOf_json (valid item inside)]
    rfl
  · rw [List.filterMap_map]
    calc saved.watch.filterMap (entryOf ∘ Watched.json) = saved.watch.filterMap some :=
          List.filterMap_congr fun item inside => entryOf_json (valid item inside)
      _ = saved.watch := List.filterMap_some

theorem savedOf_json (valid : saved.Valid) : savedOf id (stateJson id saved) = some saved := by
  have cursor : cursorOf (some (saved.cursor.elim Json.null Json.str)) = some saved.cursor := by
    cases same : saved.cursor with
    | none => rfl
    | some envelope => exact if_pos (valid.cursor envelope same)
  simp [savedOf, stateJson, Json.get, Json.items, Json.string, Json.integer, cursor,
    mapM_entryOf valid.watch, valid.few]

theorem length_render_json (valid : item.Valid) : (Json.render item.json).length ≤ 600 := by
  have envelope : item.envelope.toList.length = 64 := by
    have hex := valid.hex
    rw [isHex64, Bool.and_eq_true] at hex
    exact of_decide_eq_true hex.1
  have text := Json.length_renderString_le item.envelope
  have kind : (Json.renderString item.kind.name).length ≤ 30 := by
    cases item.kind <;> decide
  have stamp : (Json.render (item.stamp.elim .null Number.json)).length ≤ 23 := by
    cases same : item.stamp with
    | none => simp [Json.render]
    | some n =>
        exact Json.length_renderNum_le (by decide) (valid.stamp n same).1 (by decide)
          (Nat.lt_trans (valid.stamp n same).2 (by decide : 400 < 10 ^ 3))
  have posts : (Json.renderNum item.posts 0).length ≤ 2 + 1 + 3 :=
    Json.length_renderNum_le (by decide) (by simpa using valid.few) (by decide) (by decide)
  have last : (Json.renderNum item.last.mantissa item.last.exponent).length ≤ 17 + 3 + 3 :=
    Json.length_renderNum_le (by decide) valid.last.1 (by decide)
      (Nat.lt_trans valid.last.2 (by decide : 400 < 10 ^ 3))
  have keys : (Json.renderString "envelope").length = 10 ∧ (Json.renderString "type").length = 6 ∧
      (Json.renderString "at").length = 4 ∧ (Json.renderString "posts").length = 7 ∧
      (Json.renderString "last").length = 6 := by decide
  simp only [Watched.json, Json.render, Json.renderFields, Number.json, List.length_cons,
    List.length_append, keys, List.length_nil] at stamp ⊢
  omega

theorem length_stateFile (short : id.toList.length ≤ 64) (valid : saved.Valid) :
    (stateFile id saved).length ≤ MAX_STATE := by
  have name := Json.length_renderString_le id
  have cursor : (Json.render (saved.cursor.elim .null .str)).length ≤ 400 := by
    cases same : saved.cursor with
    | none => simp [Json.render]
    | some envelope =>
        have hex := valid.cursor envelope same
        rw [isHex64, Bool.and_eq_true] at hex
        have text := Json.length_renderString_le envelope
        have digits := of_decide_eq_true hex.1
        show (Json.renderString envelope).length ≤ 400
        omega
  have watch : (Json.render (.arr (saved.watch.map Watched.json))).length ≤ 601 * MAX_WATCH + 2 := by
    have each : ∀ json ∈ saved.watch.map Watched.json, (Json.render json).length ≤ 600 := by
      intro json member
      obtain ⟨item, inside, rfl⟩ := List.mem_map.mp member
      exact length_render_json (valid.watch item inside)
    have whole := Json.length_render_arr_le each
    have few := valid.few
    rw [List.length_map] at whole
    unfold MAX_WATCH at few ⊢
    omega
  have keys : (Json.renderString "version").length = 9 ∧ (Json.renderString "instance").length = 10 ∧
      (Json.renderString "cursor").length = 8 ∧ (Json.renderString "watch").length = 7 ∧
      (Json.renderNum 1 0).length = 1 := by decide
  have chars : (Json.render (stateJson id saved)).length ≤ 200000 := by
    simp only [stateJson, Json.render, Json.renderFields, List.length_cons, List.length_append, keys,
      List.length_nil, MAX_WATCH] at watch ⊢
    omega
  have bytes := length_utf8_le (Json.stringify (stateJson id saved))
  rw [Json.stringify, String.toList_ofList] at bytes
  rw [stateFile, rowLine, List.length_append, Json.stringify, MAX_STATE, List.length_singleton]
  omega

/-- **A state of that shape is one `loadState` accepts.** -/
theorem loadState_saved (short : id.toList.length ≤ 64) (valid : saved.Valid) :
    loadState id (stateFile id saved) = .ok saved := by
  rw [loadState, ensure_of (decide_eq_true (length_stateFile short valid)), ok_bind, stateFile,
    Broker.utf8Decode_rowLine, Json.parse_line]
  exact require_eq_ok.mpr (savedOf_json valid)

end Files

end Nvoy.Watch.Webhook
