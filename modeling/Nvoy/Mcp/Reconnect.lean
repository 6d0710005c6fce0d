/-
**A server that ends under a client that stays**: `mcp-reconnect.mjs`.

The proxy starts its command again when it ends, and gives the new process the `initialize` of its
client. A line of the client, a line of a process, an end, a timer and a close come in any order.

* `start`, `onEnd`, `onTimer`, `onServer`, `onClient`, `onClose` — what the proxy does at each;
* `Honest` — the client does not use an id twice, and a process answers only what it was sent, once;
* `Sound`, `Sound.step` — the invariant;
* `answered_once` — every request has one answer, or waits at the process that runs, and has one more where
  its process answers after the proxy did;
* `forwarded_once` — a line of the client goes to one process at most, in the order of the client, and
  to a new process only after that has answered the `initialize` it was given.
-/

import Mathlib.Data.List.Basic
import Mathlib.Data.Rat.Defs
import Mathlib.Logic.Function.Basic
import Nvoy.Lib.JsSet
import Nvoy.Lib.Runs

namespace Nvoy.Mcp.Reconnect

open Runs

/-! ### Messages -/

/-- The id of a JSON-RPC message. -/
inductive Id where
  | text (text : String)
  | number (value : ℚ)
  deriving DecidableEq

/-- The envelope of a message. -/
structure Message where
  method : Option String
  id : Option Id
  error : Bool
  deriving DecidableEq

/-- A line, and the message that it is, where it is JSON. -/
structure Line where
  text : String
  message : Option Message
  deriving DecidableEq

namespace Message

/-- `m.method` -/
def named (m : Message) : Bool := m.method.any (· ≠ "")

def isRequest (m : Message) : Bool := m.named && m.id.isSome

def isResponse (m : Message) : Bool := !m.named && m.id.isSome

end Message

/-- The id of the request that the line is. -/
def Line.asks (line : Line) : Option Id := (line.message.filter Message.isRequest).bind Message.id

/-- The id that the line answers. -/
def Line.answers (line : Line) : Option Id := (line.message.filter Message.isResponse).bind Message.id

/-- A line to the client. -/
inductive Reply where
  | relayed (line : Line)
  | unavailable (id : Id)

def Reply.answers : Reply → Option Id
  | .relayed line => line.answers
  | .unavailable id => some id

/-- A line to a process. -/
inductive Sent where
  | replay (request : Message)
  | initialized (notice : Message)
  | forwarded (line : Line)

def Sent.line : Sent → Option Line
  | .forwarded line => some line
  | .replay _ | .initialized _ => none

/-! ### The proxy -/

structure Options where
  maxBackoffMs : Nat
  stableMs : Nat

def Options.firstBackoffMs (options : Options) : Nat := min 1000 options.maxBackoffMs

/-- The variables of the proxy, and what it wrote. -/
structure Proxy where
  /-- The generation of the process that runs. -/
  child : Option Nat
  ready : Bool
  stopping : Bool
  backoffMs : Nat
  generation : Nat
  initializeRequest : Option Message
  initialized : Option Message
  inFlight : JsSet Id
  /-- The processes whose end was seen. -/
  ended : List Nat
  /-- The restarts that wait, each with the generation that ended. -/
  timers : List Nat
  exited : Bool
  /-- What was written to each process. -/
  stdin : Nat → List Sent
  /-- What was written to the client. -/
  toClient : List Reply

/-- `replayId` -/
def replayId (generation : Nat) : Id := .text ("mcp-reconnect-" ++ toString generation)

namespace Proxy

/-- Lines to a process. -/
def write (p : Proxy) (gen : Nat) (sent : List Sent) : Proxy :=
  { p with stdin := Function.update p.stdin gen (p.stdin gen ++ sent) }

/-- Lines to the client. -/
def tell (p : Proxy) (replies : List Reply) : Proxy := { p with toClient := p.toClient ++ replies }

def start (p : Proxy) : Proxy :=
  { p with
    generation := p.generation + 1
    child := some (p.generation + 1)
    ready := p.initializeRequest.isNone }.write (p.generation + 1) (p.initializeRequest.toList.map .replay)

/-- A line of a process. -/
def onServer (p : Proxy) (gen : Nat) (line : Line) : Proxy :=
  if line.answers = some (replayId p.generation) then
    if line.message.any Message.error then p
    else { p with ready := true }.write gen (p.initialized.toList.map .initialized)
  else { p with inFlight := line.answers.elim p.inFlight p.inFlight.delete }.tell [.relayed line]

/-- The wait before the next restart, and the wait after that. -/
def backoff (options : Options) (p : Proxy) (elapsedMs : Nat) : Nat :=
  min ((if options.stableMs < elapsedMs then options.firstBackoffMs else p.backoffMs) * 2) options.maxBackoffMs

/-- `end`, called on exit and on close. -/
def onEnd (options : Options) (p : Proxy) (gen elapsedMs : Nat) : Proxy :=
  if gen ∈ p.ended then p
  else if p.child ≠ some gen then { p with ended := gen :: p.ended }
  else
    let p := { p with
      ended := gen :: p.ended
      child := none
      ready := false
      inFlight := .empty }.tell (p.inFlight.items.map .unavailable)
    if p.stopping then { p with exited := true }
    else { p with
      timers := p.timers ++ [gen]
      backoffMs := p.backoff options elapsedMs }

/-- A timer that was set at the end of a process. -/
def onTimer (p : Proxy) (gen : Nat) : Proxy :=
  if gen ∈ p.timers then
    if !p.stopping && gen = p.generation then { p with timers := p.timers.erase gen }.start
    else { p with timers := p.timers.erase gen }
  else p

/-- What the proxy keeps of a line of the client. -/
def note (p : Proxy) (line : Line) : Proxy :=
  { p with
    initializeRequest :=
      (line.message.filter fun m => m.method = some "initialize" && m.isRequest).or p.initializeRequest
    initialized := (line.message.filter fun m => m.method = some "notifications/initialized").or p.initialized }

/-- A line of the client. -/
def onClient (p : Proxy) (line : Line) : Proxy :=
  match p.child.filter fun _ => p.ready with
  | none => (p.note line).tell (line.asks.toList.map .unavailable)
  | some gen => { p.note line with
      inFlight := line.asks.elim p.inFlight p.inFlight.add }.write gen [.forwarded line]

/-- The client closes, or a signal comes; a process that could not start has no pid. -/
def onClose (p : Proxy) (hasPid : Bool) : Proxy :=
  { p with
    stopping := true
    exited := !(p.child.isSome && hasPid) }

/-- Before the first process. -/
def blank (options : Options) : Proxy where
  child := none
  ready := false
  stopping := false
  backoffMs := options.firstBackoffMs
  generation := 0
  initializeRequest := none
  initialized := none
  inFlight := .empty
  ended := []
  timers := []
  exited := false
  stdin _ := []
  toClient := []

end Proxy

/-! ### A run -/

inductive Action where
  | server (gen : Nat) (line : Line)
  | ends (gen elapsedMs : Nat)
  | timer (gen : Nat)
  | client (line : Line)
  | closes (hasPid : Bool)

/-- The proxy, the lines that it read from its client, the ids that each process answered, and those that
it passed on although the end of their process was seen. -/
structure World where
  proxy : Proxy
  read : List Line
  answered : Nat → List Id
  late : List Id

def World.answeredBy (w : World) (gen : Nat) (line : Line) : Nat → List Id :=
  Function.update w.answered gen (w.answered gen ++ line.answers.toList)

def World.lateBy (w : World) (gen : Nat) (line : Line) : List Id :=
  if gen ∈ w.proxy.ended then w.late ++ (line.answers.filter (· ≠ replayId w.proxy.generation)).toList
  else w.late

/-- What the proxy does. -/
def Proxy.act (options : Options) (p : Proxy) : Action → Proxy
  | .server gen line => p.onServer gen line
  | .ends gen elapsedMs => p.onEnd options gen elapsedMs
  | .timer gen => p.onTimer gen
  | .client line => p.onClient line
  | .closes hasPid => p.onClose hasPid

/-- One step; a proxy that exited takes none. -/
def step (options : Options) (w : World) (action : Action) : World :=
  if w.proxy.exited then w
  else {
    proxy := w.proxy.act options action
    read := match action with
      | .client line => w.read ++ [line]
      | _ => w.read
    answered := match action with
      | .server gen line => w.answeredBy gen line
      | _ => w.answered
    late := match action with
      | .server gen line => w.lateBy gen line
      | _ => w.late }

/-- The proxy has started its first process. -/
def first (options : Options) : World := ⟨(Proxy.blank options).start, [], fun _ => [], []⟩

/-! ### Requests and answers -/

/-- The id of a request to a process. -/
def Sent.asks (gen : Nat) : Sent → Option Id
  | .replay _ => some (replayId gen)
  | .initialized _ => none
  | .forwarded line => line.asks

namespace World

/-- The requests of the client. -/
def asked (w : World) : List Id := w.read.filterMap Line.asks

/-- Those that went to a process. -/
def requests (w : World) (gen : Nat) : List Id :=
  (w.proxy.stdin gen).filterMap fun sent => sent.line.bind Line.asks

/-- The answers that the client has. -/
def answers (w : World) : List Id := w.proxy.toClient.filterMap Reply.answers

/-- A process was started. -/
def Started (w : World) (gen : Nat) : Prop := 1 ≤ gen ∧ gen ≤ w.proxy.generation

end World

/-- The lines that went to a process, in the order of the processes. -/
def Proxy.forwarded (p : Proxy) : List Line :=
  (List.range (p.generation + 1)).flatMap fun gen => (p.stdin gen).filterMap Sent.line

/-- A client and processes that keep to the protocol: an id is not used again, nor one of the proxy; a
process answers what it was asked, once. Its last lines may be read after its exit was seen. -/
def Honest (w : World) : Action → Prop
  | .server gen line => w.Started gen ∧
      ∀ id, line.answers = some id → id ∈ (w.proxy.stdin gen).filterMap (Sent.asks gen) ∧ id ∉ w.answered gen
  | .ends gen _ => w.Started gen
  | .client line => ∀ id, line.asks = some id → id ∉ w.asked ∧ ∀ gen, id ≠ replayId gen
  | .timer _ | .closes _ => True

/-! ### The process that runs -/

/-- One process runs, or one restart waits. -/
structure Running (p : Proxy) : Prop where
  started : 1 ≤ p.generation
  child : ∀ gen, p.child = some gen → gen = p.generation ∧ gen ∉ p.ended
  gone : p.child = none → p.generation ∈ p.ended
  older : ∀ gen, 1 ≤ gen → gen < p.generation → gen ∈ p.ended
  bound : ∀ gen ∈ p.ended, gen ≤ p.generation
  idle : p.child = none → p.inFlight.items = []
  restart : p.stopping = true ∨ (p.child ≠ none ∧ p.timers = []) ∨ (p.child = none ∧ p.timers = [p.generation])

section Running

variable {options : Options} {p : Proxy} {w : World} {gen elapsedMs : Nat} {line : Line} {hasPid : Bool}

/-- A process that has not ended is the one that runs. -/
theorem Running.runs (running : Running p) (positive : 1 ≤ gen) (known : gen ≤ p.generation)
    (live : gen ∉ p.ended) : p.child = some gen := by
  have last : gen = p.generation := by
    by_contra other
    exact live (running.older gen positive (lt_of_le_of_ne known other))
  cases child : p.child with
  | none => exact absurd (last ▸ running.gone child) live
  | some other => rw [(running.child other child).1, last]

/-- The restart that waits starts the next process. -/
theorem Running.start (running : Running p) (absent : p.child = none) :
    Running { p with timers := [] }.start where
  started := Nat.succ_pos _
  child other same := by
    obtain rfl := Option.some.inj same
    exact ⟨rfl, fun ended => absurd (running.bound _ ended) (Nat.not_succ_le_self _)⟩
  gone gone := by cases gone
  older other positive before := by
    rcases Nat.lt_succ_iff_lt_or_eq.mp before with earlier | rfl
    · exact running.older other positive earlier
    · exact running.gone absent
  bound other ended := (running.bound other ended).trans (Nat.le_succ _)
  idle gone := by cases gone
  restart := .inr (.inl ⟨Option.some_ne_none _, rfl⟩)

theorem Running.onServer (running : Running p) : Running (p.onServer gen line) := by
  unfold Proxy.onServer
  split_ifs
  · exact running
  · exact { running with }
  · refine { running with idle := fun absent => ?_ }
    have none : p.inFlight.items = [] := running.idle absent
    show (line.answers.elim p.inFlight p.inFlight.delete).items = []
    cases line.answers with
    | none => exact none
    | some id => exact List.filter_eq_nil_iff.mpr fun other member => absurd (none ▸ member) List.not_mem_nil

theorem Running.onEnd (running : Running p) (positive : 1 ≤ gen) (known : gen ≤ p.generation) :
    Running (p.onEnd options gen elapsedMs) := by
  have bound : ∀ other ∈ gen :: p.ended, other ≤ p.generation := by
    intro other member
    rcases List.mem_cons.mp member with rfl | ended
    · exact known
    · exact running.bound other ended
  unfold Proxy.onEnd
  split_ifs with again other
  · exact running
  · exact {
      started := running.started
      child := fun here child => by
        obtain ⟨last, live⟩ := running.child here child
        refine ⟨last, fun ended => ?_⟩
        rcases List.mem_cons.mp ended with rfl | ended
        · exact other child
        · exact live ended
      gone := fun absent => List.mem_cons_of_mem _ (running.gone absent)
      older := fun here positive before => List.mem_cons_of_mem _ (running.older here positive before)
      bound
      idle := running.idle
      restart := running.restart }
  · rw [not_not] at other
    obtain ⟨last, -⟩ := running.child gen other
    have ends : ∀ p' : Proxy, p'.generation = p.generation → p'.ended = gen :: p.ended → p'.child = none →
        p'.inFlight.items = [] → (p'.stopping = true ∨ p'.timers = [gen]) → Running p' := by
      intro p' generation ended child inFlight waits
      refine ⟨generation ▸ running.started, fun here same => ?_, fun _ => ?_, fun here positive before => ?_, ?_,
        fun _ => inFlight, ?_⟩
      · rw [child] at same
        cases same
      · rw [ended, generation, last]
        exact List.mem_cons_self
      · rw [ended]
        exact List.mem_cons_of_mem _ (running.older here positive (generation ▸ before))
      · rw [ended, generation]
        exact bound
      · rw [child, generation, ← last]
        exact waits.imp_right fun set => .inr ⟨rfl, set⟩
    dsimp only
    split_ifs with stopping
    · exact ends _ rfl rfl rfl rfl (.inl stopping)
    · refine ends _ rfl rfl rfl rfl (.inr ?_)
      rcases running.restart with halted | ⟨-, unset⟩ | ⟨absent, -⟩
      · exact absurd halted stopping
      · show p.timers ++ [gen] = [gen]
        rw [unset, List.nil_append]
      · rw [absent] at other
        cases other

theorem Running.onTimer (running : Running p) : Running (p.onTimer gen) := by
  unfold Proxy.onTimer
  split_ifs with set due
  · rw [Bool.and_eq_true, Bool.not_eq_true', decide_eq_true_eq] at due
    rcases running.restart with halted | ⟨-, unset⟩ | ⟨absent, set'⟩
    · rw [halted] at due
      exact absurd due.1 Bool.noConfusion
    · rw [unset] at set
      exact absurd set List.not_mem_nil
    · rw [set', due.2, List.erase_cons_head]
      exact running.start absent
  · refine { running with restart := .inl ?_ }
    rcases running.restart with halted | ⟨-, unset⟩ | ⟨-, set'⟩
    · exact halted
    · rw [unset] at set
      exact absurd set List.not_mem_nil
    · rw [set', List.mem_singleton] at set
      simpa [set] using due
  · exact running

theorem Running.onClient (running : Running p) : Running (p.onClient line) := by
  unfold Proxy.onClient
  split
  next => exact { running with }
  next gen found =>
    have busy := (Option.filter_eq_some_iff.mp found).1
    refine { running with idle := fun absent => ?_ }
    rw [show p.child = none from absent] at busy
    cases busy

theorem Running.onClose (running : Running p) : Running (p.onClose hasPid) :=
  { running with restart := .inl rfl }

theorem running_first : Running (Proxy.blank options).start where
  started := le_rfl
  child other same := by
    obtain rfl := Option.some.inj same
    exact ⟨rfl, List.not_mem_nil⟩
  gone gone := by cases gone
  older other positive before := absurd positive (Nat.not_le.mpr before)
  bound other ended := absurd ended List.not_mem_nil
  idle _ := rfl
  restart := .inr (.inl ⟨Option.some_ne_none _, rfl⟩)

/-- **One step** keeps one process, or one restart. -/
theorem Running.act (running : Running w.proxy) {action : Action} (honest : Honest w action) :
    Running (w.proxy.act options action) := by
  cases action with
  | server gen line => exact running.onServer
  | ends gen elapsedMs => exact running.onEnd honest.1 honest.2
  | timer gen => exact running.onTimer
  | client line => exact running.onClient
  | closes hasPid => exact running.onClose

end Running

/-! ### One answer to each request -/

/-- What is answered and what waits is what was asked. -/
structure Accounts (w : World) : Prop where
  balanced : ∀ id, w.answers.count id + (if id ∈ w.proxy.inFlight.items then 1 else 0) =
    (if id ∈ w.asked then 1 else 0) + w.late.count id
  waiting : ∀ gen, w.proxy.child = some gen → ∀ id,
    id ∈ w.proxy.inFlight.items ↔ id ∈ w.requests gen ∧ id ∉ w.answered gen
  sent : ∀ gen, ∀ id ∈ w.requests gen, id ∈ w.asked
  once : ∀ gen gen' id, id ∈ w.requests gen → id ∈ w.requests gen' → gen = gen'
  known : ∀ gen, ∀ id ∈ w.answered gen, id = replayId gen ∨ id ∈ w.asked
  untouched : ∀ gen, w.proxy.generation < gen → w.proxy.stdin gen = [] ∧ w.answered gen = []
  apart : ∀ id ∈ w.asked, ∀ gen, id ≠ replayId gen

section Accounts

variable {options : Options} {w : World} {gen elapsedMs : Nat} {line : Line} {hasPid : Bool}

theorem filterMap_write {β : Type} (f : Sent → Option β) (p : Proxy) (gen : Nat) (sent : List Sent)
    (other : Nat) :
    ((p.write gen sent).stdin other).filterMap f =
      (p.stdin other).filterMap f ++ if other = gen then sent.filterMap f else [] := by
  show (Function.update p.stdin gen (p.stdin gen ++ sent) other).filterMap f = _
  rw [Function.update_apply]
  split_ifs with same
  · rw [List.filterMap_append, same]
  · rw [List.append_nil]

theorem forwardedIn_replay (request : Option Message) :
    (request.toList.map Sent.replay).filterMap (fun sent => sent.line.bind Line.asks) = [] := by
  cases request <;> rfl

theorem forwardedIn_initialized (notice : Option Message) :
    (notice.toList.map Sent.initialized).filterMap (fun sent => sent.line.bind Line.asks) = [] := by
  cases notice <;> rfl

/-- The proxy's own lines are no requests of the client. -/
theorem requests_write (p : Proxy) (gen other : Nat) {sent : List Sent}
    (own : sent.filterMap (fun sent => sent.line.bind Line.asks) = []) :
    ((p.write gen sent).stdin other).filterMap (fun sent => sent.line.bind Line.asks) =
      (p.stdin other).filterMap fun sent => sent.line.bind Line.asks := by
  rw [filterMap_write, own, ite_self, List.append_nil]

theorem answers_relayed (line : Line) : [Reply.relayed line].filterMap Reply.answers = line.answers.toList := by
  cases answers : line.answers <;> simp [Reply.answers, answers]

/-- An answer of a process is to a request of the client, or to the request of the proxy. -/
theorem request_of_asks {id : Id} (sent : id ∈ (w.proxy.stdin gen).filterMap (Sent.asks gen)) :
    id = replayId gen ∨ id ∈ w.requests gen := by
  obtain ⟨item, member, asks⟩ := List.mem_filterMap.mp sent
  cases item with
  | replay request => exact .inl (Option.some.inj asks).symm
  | initialized notice => cases asks
  | forwarded line => exact .inr (List.mem_filterMap.mpr ⟨_, member, asks⟩)

/-- The answer to the request of the proxy is none to the client's. -/
theorem Accounts.waiting_replayed (accounts : Accounts w) (child : w.proxy.child = some gen) {id : Id} :
    id ∈ w.proxy.inFlight.items ↔ id ∈ w.requests gen ∧ id ∉ w.answered gen ++ [replayId gen] := by
  rw [accounts.waiting gen child id, List.mem_append, List.mem_singleton, not_or]
  constructor
  · rintro ⟨sent, open'⟩
    exact ⟨sent, open', accounts.apart id (accounts.sent gen id sent) gen⟩
  · rintro ⟨sent, open', -⟩
    exact ⟨sent, open'⟩

theorem replayId_inj {gen' : Nat} (same : replayId gen = replayId gen') : gen = gen' := by
  have named : Nat.repr gen = Nat.repr gen' := (String.append_right_inj _).mp (Id.text.inj same)
  rw [← @Nat.ofDigitChars_ten_toDigits gen, ← Nat.toList_repr, named, Nat.toList_repr,
    Nat.ofDigitChars_ten_toDigits]

/-- The answer to the request of the proxy is from the newest process. -/
theorem Accounts.newest (accounts : Accounts w) (honest : Honest w (.server gen line))
    (replay : line.answers = some (replayId w.proxy.generation)) : gen = w.proxy.generation := by
  rcases request_of_asks (honest.2 _ replay).1 with own | requested
  · exact (replayId_inj own).symm
  · exact absurd rfl (accounts.apart _ (accounts.sent gen _ requested) w.proxy.generation)

/-- What a process answers after its end is not in flight. -/
theorem Accounts.not_inFlight (accounts : Accounts w) (running : Running w.proxy) (ended : gen ∈ w.proxy.ended)
    {id : Id} (sent : id ∈ (w.proxy.stdin gen).filterMap (Sent.asks gen)) : id ∉ w.proxy.inFlight.items := by
  intro waits
  cases child : w.proxy.child with
  | none => exact absurd (running.idle child ▸ waits) List.not_mem_nil
  | some here =>
      have there := ((accounts.waiting here child id).mp waits).1
      rcases request_of_asks sent with own | requested
      · exact accounts.apart id (accounts.sent here id there) gen own
      · exact (running.child here child).2 (accounts.once here gen id there requested ▸ ended)

/-- The newest process has answered the proxy, which the client is not told. -/
theorem Accounts.swallowed (accounts : Accounts w) (running : Running w.proxy) (honest : Honest w (.server gen line))
    (replay : line.answers = some (replayId w.proxy.generation)) : w.lateBy gen line = w.late ∧
      ∀ here, w.proxy.child = some here → ∀ id, id ∈ w.proxy.inFlight.items ↔
        id ∈ w.requests here ∧ id ∉ w.answeredBy gen line here := by
  refine ⟨by simp [World.lateBy, replay], fun here child id => ?_⟩
  have newest := accounts.newest honest replay
  obtain rfl : here = gen := (running.child here child).1.trans newest.symm
  rw [World.answeredBy, Function.update_self, replay, ← newest]
  exact accounts.waiting_replayed child

/-- What is in flight once a line was passed on. -/
theorem mem_relayed (inFlight : JsSet Id) (line : Line) (id : Id) :
    id ∈ (line.answers.elim inFlight inFlight.delete).items ↔
      id ∈ inFlight.items ∧ id ∉ line.answers.toList := by
  cases line.answers with
  | none => simp
  | some answered =>
      rw [Option.elim_some, ← JsSet.mem_toFinset, JsSet.toFinset_delete, Finset.mem_erase,
        JsSet.mem_toFinset, Option.toList_some, List.mem_singleton, and_comm]

section Relay

variable (accounts : Accounts w) (running : Running w.proxy) (honest : Honest w (.server gen line))

include accounts running honest

/-- A line that is passed on answers what was in flight, or it is late. -/
theorem Accounts.balanced_relay (relay : line.answers ≠ some (replayId w.proxy.generation)) (id : Id) :
    (w.answers ++ line.answers.toList).count id +
      (if id ∈ (line.answers.elim w.proxy.inFlight w.proxy.inFlight.delete).items then 1 else 0) =
        (if id ∈ w.asked then 1 else 0) + (w.lateBy gen line).count id := by
  obtain ⟨⟨positive, known⟩, asks⟩ := honest
  have balanced := accounts.balanced id
  have unique : line.answers.toList.count id = if id ∈ line.answers.toList then 1 else 0 :=
    (by cases line.answers <;> simp : line.answers.toList.Nodup).count
  rw [List.count_append, unique]
  simp only [mem_relayed]
  by_cases ended : gen ∈ w.proxy.ended
  · have whole : line.answers.filter (· ≠ replayId w.proxy.generation) = line.answers := by
      cases answers : line.answers with
      | none => rfl
      | some id =>
          rw [Option.filter_some, if_pos]
          exact decide_eq_true fun own => relay (by rw [answers, own])
    rw [World.lateBy, if_pos ended, whole, List.count_append, unique]
    by_cases new : id ∈ line.answers.toList
    · rw [if_neg (accounts.not_inFlight running ended (asks id (Option.mem_toList.mp new)).1)] at balanced
      simp only [new, not_true_eq_false, and_false, if_true, if_false]
      omega
    · simp only [new, not_false_eq_true, and_true, if_false]
      omega
  · rw [World.lateBy, if_neg ended]
    have child := running.runs positive known ended
    by_cases new : id ∈ line.answers.toList
    · obtain ⟨sent, unanswered⟩ := asks id (Option.mem_toList.mp new)
      have requested := (request_of_asks sent).resolve_left fun own => relay (by
        rw [Option.mem_toList.mp new, own, (running.child gen child).1])
      rw [if_pos ((accounts.waiting gen child id).mpr ⟨requested, unanswered⟩)] at balanced
      simp only [new, not_true_eq_false, and_false, if_true, if_false]
      omega
    · simp only [new, not_false_eq_true, and_true, if_false]
      omega

theorem Accounts.waiting_relay {here : Nat} (child : w.proxy.child = some here) (id : Id) :
    id ∈ (line.answers.elim w.proxy.inFlight w.proxy.inFlight.delete).items ↔
      id ∈ w.requests here ∧ id ∉ w.answeredBy gen line here := by
  obtain ⟨⟨positive, known⟩, asks⟩ := honest
  have waiting := accounts.waiting here child id
  by_cases same : here = gen
  · subst same
    rw [mem_relayed, waiting, World.answeredBy, Function.update_self, List.mem_append, not_or, and_assoc]
  · have ended : gen ∈ w.proxy.ended := by
      by_contra live
      exact same (Option.some.inj (child.symm.trans (running.runs positive known live)))
    rw [mem_relayed, World.answeredBy, Function.update_of_ne same, ← waiting]
    exact and_iff_left_of_imp fun waits new =>
      accounts.not_inFlight running ended (asks id (Option.mem_toList.mp new)).1 waits

end Relay

theorem Accounts.onServer (accounts : Accounts w) (running : Running w.proxy)
    (honest : Honest w (.server gen line)) :
    Accounts ⟨w.proxy.onServer gen line, w.read, w.answeredBy gen line, w.lateBy gen line⟩ := by
  have swallowed := accounts.swallowed running honest
  have balanced := accounts.balanced_relay running honest
  have waiting := @Accounts.waiting_relay _ _ _ accounts running honest
  obtain ⟨⟨positive, known⟩, asks⟩ := honest
  have later : ∀ other, w.proxy.generation < other → w.answeredBy gen line other = [] := by
    intro other after
    rw [World.answeredBy, Function.update_of_ne (Nat.ne_of_gt (known.trans_lt after))]
    exact (accounts.untouched other after).2
  have known' : ∀ other, ∀ id ∈ w.answeredBy gen line other, id = replayId other ∨ id ∈ w.asked := by
    intro other id member
    rw [World.answeredBy, Function.update_apply] at member
    split_ifs at member with same
    · subst same
      rcases List.mem_append.mp member with old | new
      · exact accounts.known other id old
      · exact (request_of_asks (asks id (Option.mem_toList.mp new)).1).imp_right (accounts.sent other id)
    · exact accounts.known other id member
  unfold Proxy.onServer
  split_ifs with replay error
  · obtain ⟨unlate, waiting⟩ := swallowed replay
    rw [unlate]
    exact { accounts with
      waiting
      known := known'
      untouched := fun other after => ⟨(accounts.untouched other after).1, later other after⟩ }
  · obtain ⟨unlate, waiting⟩ := swallowed replay
    rw [unlate]
    have requests : ∀ other, ((({ w.proxy with ready := true }).write gen
        (w.proxy.initialized.toList.map .initialized)).stdin other).filterMap
          (fun sent : Sent => sent.line.bind Line.asks) = w.requests other := fun other =>
      requests_write _ gen other (forwardedIn_initialized w.proxy.initialized)
    refine ⟨accounts.balanced, fun here child id => ?_, fun other id sent => ?_, fun a b id inA inB => ?_, known',
      fun other after => ⟨?_, later other after⟩, accounts.apart⟩
    · show _ ↔ id ∈ List.filterMap _ _ ∧ _
      rw [requests]
      exact waiting here child id
    · exact accounts.sent other id (requests other ▸ sent)
    · exact accounts.once a b id (requests a ▸ inA) (requests b ▸ inB)
    · show Function.update w.proxy.stdin gen _ other = []
      rw [Function.update_of_ne (Nat.ne_of_gt (known.trans_lt after))]
      exact (accounts.untouched other after).1
  · refine ⟨fun id => ?_, fun here child id => waiting child id, accounts.sent, accounts.once, known',
      fun other after => ⟨(accounts.untouched other after).1, later other after⟩, accounts.apart⟩
    show List.count id (List.filterMap _ (w.proxy.toClient ++ [_])) + _ = _
    rw [List.filterMap_append, answers_relayed]
    exact balanced replay id

theorem answers_unavailable (ids : List Id) : (ids.map Reply.unavailable).filterMap Reply.answers = ids := by
  rw [List.filterMap_map]
  exact List.filterMap_some

/-- The requests at a process that ends are answered by the proxy. -/
theorem Accounts.onEnd (accounts : Accounts w) :
    Accounts ⟨w.proxy.onEnd options gen elapsedMs, w.read, w.answered, w.late⟩ := by
  unfold Proxy.onEnd
  split_ifs
  · exact accounts
  · exact { accounts with }
  · have balanced : ∀ id, (List.filterMap Reply.answers (w.proxy.toClient ++
        w.proxy.inFlight.items.map .unavailable)).count id +
          (if id ∈ (JsSet.empty : JsSet Id).items then 1 else 0) = (if id ∈ w.asked then 1 else 0) + w.late.count id := by
      intro id
      rw [List.filterMap_append, List.count_append, answers_unavailable, w.proxy.inFlight.nodup.count,
        ← accounts.balanced id]
      rfl
    dsimp only
    split_ifs
    · exact { accounts with
        balanced
        waiting := fun here gone => by cases gone }
    · exact { accounts with
        balanced
        waiting := fun here gone => by cases gone }

theorem Accounts.onTimer (accounts : Accounts w) (running : Running w.proxy) :
    Accounts ⟨w.proxy.onTimer gen, w.read, w.answered, w.late⟩ := by
  unfold Proxy.onTimer
  split_ifs with set due
  · have idle : w.proxy.child = none := by
      rw [Bool.and_eq_true, Bool.not_eq_true'] at due
      rcases running.restart with halted | ⟨-, unset⟩ | ⟨absent, -⟩
      · rw [halted] at due
        exact absurd due.1 Bool.noConfusion
      · rw [unset] at set
        exact absurd set List.not_mem_nil
      · exact absent
    have requests : ∀ other, (({ w.proxy with timers := w.proxy.timers.erase gen }.start).stdin other).filterMap
        (fun sent : Sent => sent.line.bind Line.asks) = w.requests other := fun other =>
      requests_write _ _ other (forwardedIn_replay w.proxy.initializeRequest)
    have later := accounts.untouched (w.proxy.generation + 1) (Nat.lt_succ_self _)
    refine ⟨accounts.balanced, fun here same id => ?_, fun other id sent => ?_, fun a b id inA inB => ?_,
      accounts.known, fun other after => ⟨?_, ?_⟩, accounts.apart⟩
    · obtain rfl := Option.some.inj same
      show id ∈ w.proxy.inFlight.items ↔ id ∈ List.filterMap _ _ ∧ _
      rw [running.idle idle, requests, World.requests, later.1]
      constructor
      · exact fun member => absurd member List.not_mem_nil
      · exact fun member => absurd member.1 List.not_mem_nil
    · exact accounts.sent other id (requests other ▸ sent)
    · exact accounts.once a b id (requests a ▸ inA) (requests b ▸ inB)
    · have distinct : other ≠ w.proxy.generation + 1 := Nat.ne_of_gt after
      show Function.update w.proxy.stdin _ _ other = []
      rw [Function.update_of_ne distinct]
      exact (accounts.untouched other ((Nat.lt_succ_self _).trans after)).1
    · exact (accounts.untouched other ((Nat.lt_succ_self _).trans after)).2
  · exact { accounts with }
  · exact accounts

theorem asked_append (w : World) (line : Line) :
    (w.read ++ [line]).filterMap Line.asks = w.asked ++ line.asks.toList := by
  rw [List.filterMap_append, World.asked]
  cases asks : line.asks <;> simp [asks]

/-- An id that is new is not in flight. -/
theorem Accounts.unseen (accounts : Accounts w) (running : Running w.proxy) {id : Id} (new : id ∉ w.asked) :
    id ∉ w.proxy.inFlight.items := by
  intro waits
  cases child : w.proxy.child with
  | none => exact absurd (running.idle child ▸ waits) List.not_mem_nil
  | some gen => exact new (accounts.sent gen id ((accounts.waiting gen child id).mp waits).1)

/-- A line of the client is answered at once, or goes to the process that runs. -/
theorem Accounts.onClient (accounts : Accounts w) (running : Running w.proxy)
    (honest : Honest w (.client line)) :
    Accounts ⟨w.proxy.onClient line, w.read ++ [line], w.answered, w.late⟩ := by
  have apart : ∀ id ∈ (w.read ++ [line]).filterMap Line.asks, ∀ gen, id ≠ replayId gen := by
    intro id member
    rw [asked_append] at member
    rcases List.mem_append.mp member with old | new
    · exact accounts.apart id old
    · exact (honest id (Option.mem_toList.mp new)).2
  have grows : ∀ id ∈ w.asked, id ∈ (w.read ++ [line]).filterMap Line.asks := fun id old =>
    asked_append w line ▸ List.mem_append_left _ old
  unfold Proxy.onClient
  split
  next =>
    refine ⟨fun id => ?_, accounts.waiting, fun gen id sent => grows id (accounts.sent gen id sent),
      accounts.once,
      fun gen id old => (accounts.known gen id old).imp_right (grows id), accounts.untouched, apart⟩
    show List.count id (List.filterMap _ (w.proxy.toClient ++ _)) +
      (if id ∈ w.proxy.inFlight.items then 1 else 0) =
        (if id ∈ (w.read ++ [line]).filterMap Line.asks then 1 else 0) + w.late.count id
    rw [List.filterMap_append, List.count_append, answers_unavailable, asked_append]
    have balanced := accounts.balanced id
    rw [World.answers] at balanced
    cases asks : line.asks with
    | none => simpa using balanced
    | some new =>
        by_cases same : id = new
        · subst same
          rw [if_neg (honest id asks).1] at balanced
          simp only [Option.toList_some, List.count_singleton_self, List.mem_append, List.mem_singleton, or_true,
            if_true]
          omega
        · simpa [same, Ne.symm same] using balanced
  next gen found =>
    obtain ⟨child, -⟩ := Option.filter_eq_some_iff.mp found
    obtain ⟨last, -⟩ := running.child gen child
    have requests : ∀ other, ((({ w.proxy.note line with
        inFlight := line.asks.elim w.proxy.inFlight w.proxy.inFlight.add } : Proxy).write gen
        [.forwarded line]).stdin other).filterMap (fun sent : Sent => sent.line.bind Line.asks) =
        w.requests other ++ if other = gen then line.asks.toList else [] := by
      intro other
      rw [filterMap_write]
      congr 1
    have held : ∀ id, id ∈ (line.asks.elim w.proxy.inFlight w.proxy.inFlight.add).items ↔
        id ∈ w.proxy.inFlight.items ∨ id ∈ line.asks.toList := by
      intro id
      cases line.asks with
      | none => simp
      | some new =>
          rw [Option.elim_some, ← JsSet.mem_toFinset, JsSet.toFinset_add, Finset.mem_insert, JsSet.mem_toFinset,
            Option.toList_some, List.mem_singleton, or_comm]
    refine ⟨fun id => ?_, fun here same id => ?_, fun other id sent => ?_, fun a b id inA inB => ?_,
      fun gen id old => (accounts.known gen id old).imp_right (grows id), fun other after => ⟨?_, ?_⟩, apart⟩
    · show List.count id w.answers +
        (if id ∈ (line.asks.elim w.proxy.inFlight w.proxy.inFlight.add).items then 1 else 0) =
          (if id ∈ (w.read ++ [line]).filterMap Line.asks then 1 else 0) + w.late.count id
      have balanced := accounts.balanced id
      rw [asked_append]
      simp only [held, List.mem_append, Option.mem_toList]
      by_cases new : line.asks = some id
      · rw [if_neg (accounts.unseen running (honest id new).1), if_neg (honest id new).1] at balanced
        simp only [new, or_true, if_true]
        omega
      · simpa only [new, or_false] using balanced
    · obtain rfl := Option.some.inj (same.symm.trans child)
      show id ∈ (line.asks.elim w.proxy.inFlight w.proxy.inFlight.add).items ↔ id ∈ List.filterMap _ _ ∧ _
      rw [requests, if_pos rfl, held, List.mem_append, accounts.waiting here child id]
      constructor
      · rintro (⟨old, unanswered⟩ | new)
        · exact ⟨.inl old, unanswered⟩
        · refine ⟨.inr new, fun answered => ?_⟩
          obtain ⟨unasked, strange⟩ := honest id (Option.mem_toList.mp new)
          exact (accounts.known here id answered).elim (strange here) unasked
      · rintro ⟨old | new, unanswered⟩
        · exact .inl ⟨old, unanswered⟩
        · exact .inr new
    · change id ∈ List.filterMap _ _ at sent
      rw [requests] at sent
      show id ∈ (w.read ++ [line]).filterMap Line.asks
      rw [asked_append]
      rcases List.mem_append.mp sent with old | new
      · exact List.mem_append_left _ (accounts.sent other id old)
      · split_ifs at new
        · exact List.mem_append_right _ new
        · exact absurd new List.not_mem_nil
    · change id ∈ List.filterMap _ _ at inA inB
      rw [requests] at inA inB
      have fresh : ∀ other, id ∈ w.requests other → id ∉ line.asks.toList := fun other old new =>
        (honest id (Option.mem_toList.mp new)).1 (accounts.sent other id old)
      rcases List.mem_append.mp inA with oldA | newA
      · rcases List.mem_append.mp inB with oldB | newB
        · exact accounts.once a b id oldA oldB
        · split_ifs at newB
          · exact absurd newB (fresh a oldA)
          · exact absurd newB List.not_mem_nil
      · split_ifs at newA with hereA
        · rcases List.mem_append.mp inB with oldB | newB
          · exact absurd newA (fresh b oldB)
          · split_ifs at newB with hereB
            · exact hereA.trans hereB.symm
            · exact absurd newB List.not_mem_nil
        · exact absurd newA List.not_mem_nil
    · show Function.update w.proxy.stdin gen _ other = []
      rw [Function.update_of_ne (last ▸ Nat.ne_of_gt after)]
      exact (accounts.untouched other after).1
    · exact (accounts.untouched other after).2

theorem Accounts.onClose (accounts : Accounts w) :
    Accounts ⟨w.proxy.onClose hasPid, w.read, w.answered, w.late⟩ :=
  { accounts with }

end Accounts

/-! ### What goes to a process -/

/-- A line that the proxy writes is one of the client. -/
def Sent.Genuine (read : List Line) : Sent → Prop
  | .replay request => ∃ line ∈ read, line.message = some request ∧ request.method = some "initialize"
  | .initialized notice => ∃ line ∈ read, line.message = some notice ∧
      notice.method = some "notifications/initialized"
  | .forwarded line => line ∈ read

/-- The lines of the client stand alone, or after the `initialize` that the process has answered. -/
inductive SetUp (gen : Nat) (answered : List Id) : List Sent → Prop where
  | plain (lines : List Line) : SetUp gen answered (lines.map .forwarded)
  | confirmed (request : Message) (notice : Option Message) (lines : List Line)
      (answer : replayId gen ∈ answered) :
      SetUp gen answered (.replay request :: (notice.toList.map .initialized ++ lines.map .forwarded))

/-- Whatever a process is sent. -/
structure Streams (w : World) : Prop where
  order : w.proxy.forwarded.Sublist w.read
  ready : ∀ gen, w.proxy.child = some gen → w.proxy.ready = true → SetUp gen (w.answered gen) (w.proxy.stdin gen)
  quiet : ∀ gen, w.proxy.child = some gen → w.proxy.ready = false →
    ∃ request, w.proxy.stdin gen = [.replay request]
  all : ∀ gen, SetUp gen (w.answered gen) (w.proxy.stdin gen) ∨ ∃ request, w.proxy.stdin gen = [.replay request]
  genuine : ∀ gen, ∀ sent ∈ w.proxy.stdin gen, sent.Genuine w.read
  request : ∀ request, w.proxy.initializeRequest = some request → (Sent.replay request).Genuine w.read
  notice : ∀ notice, w.proxy.initialized = some notice → (Sent.initialized notice).Genuine w.read

section Streams

variable {options : Options} {w : World} {gen elapsedMs : Nat} {line : Line} {hasPid : Bool} {answered : List Id}
  {sent : List Sent}

theorem SetUp.answers (setUp : SetUp gen answered sent) (more : List Id) :
    SetUp gen (answered ++ more) sent := by
  cases setUp with
  | plain lines => exact .plain lines
  | confirmed request notice lines answer => exact .confirmed request notice lines (List.mem_append_left _ answer)

theorem SetUp.forward (setUp : SetUp gen answered sent) (line : Line) :
    SetUp gen answered (sent ++ [.forwarded line]) := by
  cases setUp with
  | plain lines =>
      have longer := @SetUp.plain gen answered (lines ++ [line])
      rwa [List.map_append] at longer
  | confirmed request notice lines answer =>
      have longer := SetUp.confirmed request notice (lines ++ [line]) answer
      rwa [List.map_append, ← List.append_assoc, ← List.cons_append] at longer

theorem Sent.Genuine.grows {item : Sent} {read : List Line} (genuine : item.Genuine read) (line : Line) :
    item.Genuine (read ++ [line]) := by
  cases item with
  | replay request =>
      obtain ⟨found, member, said⟩ := genuine
      exact ⟨found, List.mem_append_left _ member, said⟩
  | initialized notice =>
      obtain ⟨found, member, said⟩ := genuine
      exact ⟨found, List.mem_append_left _ member, said⟩
  | forwarded line => exact List.mem_append_left _ genuine

theorem forwarded_write (p : Proxy) (gen : Nat) (quiet : sent.filterMap Sent.line = []) :
    (p.write gen sent).forwarded = p.forwarded := by
  unfold Proxy.forwarded
  simp only [filterMap_write, quiet, ite_self, List.append_nil]
  rfl

/-- A line that goes to the newest process is the last. -/
theorem forwarded_last (p : Proxy) (line : Line) :
    (p.write p.generation [.forwarded line]).forwarded = p.forwarded ++ [line] := by
  have before : ((List.range p.generation).flatMap fun gen =>
      ((p.write p.generation [.forwarded line]).stdin gen).filterMap Sent.line) =
      (List.range p.generation).flatMap fun gen => (p.stdin gen).filterMap Sent.line := by
    refine List.flatMap_congr fun gen member => ?_
    rw [filterMap_write, if_neg (Nat.ne_of_lt (List.mem_range.mp member)), List.append_nil]
  have newest : ((p.write p.generation [.forwarded line]).stdin p.generation).filterMap Sent.line =
      (p.stdin p.generation).filterMap Sent.line ++ [line] := by
    rw [filterMap_write, if_pos rfl]
    rfl
  unfold Proxy.forwarded
  show List.flatMap _ (List.range (p.generation + 1)) = _
  rw [List.range_succ, List.flatMap_append, List.flatMap_append, List.flatMap_singleton, List.flatMap_singleton,
    before, newest, List.append_assoc]

theorem line_replay (request : Option Message) : (request.toList.map Sent.replay).filterMap Sent.line = [] := by
  cases request <;> rfl

theorem line_initialized (notice : Option Message) :
    (notice.toList.map Sent.initialized).filterMap Sent.line = [] := by
  cases notice <;> rfl

/-- A process that has not answered the request of the proxy has been sent nothing else. -/
theorem Streams.not_ready (streams : Streams w) (accounts : Accounts w)
    (asked : replayId gen ∈ (w.proxy.stdin gen).filterMap (Sent.asks gen))
    (open' : replayId gen ∉ w.answered gen) : ∃ request, w.proxy.stdin gen = [.replay request] := by
  refine (streams.all gen).resolve_left fun setUp => ?_
  have own : replayId gen ∉ w.requests gen := fun requested =>
    accounts.apart _ (accounts.sent gen _ requested) gen rfl
  unfold World.requests at own
  generalize w.proxy.stdin gen = stdin at asked own setUp
  cases setUp with
  | plain lines =>
      refine absurd ?_ own
      rw [List.filterMap_map] at asked ⊢
      exact asked
  | confirmed request notice lines answer => exact absurd answer open'

theorem Streams.onServer (streams : Streams w) (accounts : Accounts w) (running : Running w.proxy)
    (honest : Honest w (.server gen line)) :
    Streams ⟨w.proxy.onServer gen line, w.read, w.answeredBy gen line, w.lateBy gen line⟩ := by
  have newest := accounts.newest honest
  have asks := honest.2
  have more : ∀ other sent, SetUp other (w.answered other) sent → SetUp other
      (w.answeredBy gen line other) sent := by
    intro other sent setUp
    rw [World.answeredBy, Function.update_apply]
    split_ifs with same
    · subst same
      exact setUp.answers _
    · exact setUp
  unfold Proxy.onServer
  split_ifs with replay error
  · exact { streams with
      ready := fun here same ready => more here _ (streams.ready here same ready)
      all := fun here => (streams.all here).imp_left (more here _) }
  · have last := newest replay
    have own : line.answers = some (replayId gen) := last ▸ replay
    obtain ⟨asked, open'⟩ := asks _ own
    obtain ⟨request, waits⟩ := streams.not_ready accounts asked open'
    have written : ∀ here, (({ w.proxy with ready := true }).write gen
        (w.proxy.initialized.toList.map .initialized)).stdin here =
        if here = gen then .replay request :: w.proxy.initialized.toList.map .initialized
        else w.proxy.stdin here := by
      intro here
      show Function.update w.proxy.stdin gen _ here = _
      rw [Function.update_apply, waits]
      rfl
    have confirmed : SetUp gen (w.answeredBy gen line gen)
        (.replay request :: w.proxy.initialized.toList.map .initialized) := by
      have answer : replayId gen ∈ w.answeredBy gen line gen := by
        rw [World.answeredBy, Function.update_self, own]
        exact List.mem_append_right _ (List.mem_singleton_self _)
      have setUp := SetUp.confirmed request w.proxy.initialized [] answer
      rwa [List.map_nil, List.append_nil] at setUp
    refine ⟨?_, fun here same _ => ?_, fun here same quiet => ?_, fun here => ?_, fun here sent member => ?_,
      streams.request, streams.notice⟩
    · show (Proxy.forwarded _).Sublist _
      rw [forwarded_write _ _ (line_initialized _)]
      exact streams.order
    · obtain rfl : here = gen := (running.child here same).1.trans last.symm
      show SetUp here _ (Proxy.stdin _ here)
      rw [written, if_pos rfl]
      exact confirmed
    · cases quiet
    · show SetUp here _ (Proxy.stdin _ here) ∨ ∃ request, Proxy.stdin _ here = _
      rw [written]
      split_ifs with same
      · subst same
        exact .inl confirmed
      · exact (streams.all here).imp_left (more here _)
    · change sent ∈ Proxy.stdin _ here at member
      rw [written] at member
      split_ifs at member with same
      · rcases List.mem_cons.mp member with rfl | member
        · exact streams.genuine gen _ (waits ▸ List.mem_singleton_self _)
        · obtain ⟨notice, kept, rfl⟩ := List.mem_map.mp member
          exact streams.notice notice (Option.mem_toList.mp kept)
      · exact streams.genuine here sent member
  · exact { streams with
      ready := fun here same ready => more here _ (streams.ready here same ready)
      all := fun here => (streams.all here).imp_left (more here _) }

theorem Streams.onEnd (streams : Streams w) :
    Streams ⟨w.proxy.onEnd options gen elapsedMs, w.read, w.answered, w.late⟩ := by
  unfold Proxy.onEnd
  split_ifs
  · exact streams
  · exact { streams with }
  · dsimp only
    split_ifs
    · exact { streams with
        ready := fun here gone => by cases gone
        quiet := fun here gone => by cases gone }
    · exact { streams with
        ready := fun here gone => by cases gone
        quiet := fun here gone => by cases gone }

/-- A new process has nothing yet but the `initialize` of the client. -/
theorem Streams.onTimer (streams : Streams w) (accounts : Accounts w) :
    Streams ⟨w.proxy.onTimer gen, w.read, w.answered, w.late⟩ := by
  unfold Proxy.onTimer
  split_ifs with set due
  · have fresh := (accounts.untouched (w.proxy.generation + 1) (Nat.lt_succ_self _)).1
    have written : ∀ here, ({ w.proxy with timers := w.proxy.timers.erase gen }.start).stdin here =
        if here = w.proxy.generation + 1 then w.proxy.initializeRequest.toList.map .replay
        else w.proxy.stdin here := by
      intro here
      show Function.update w.proxy.stdin _ _ here = _
      rw [Function.update_apply]
      split_ifs
      · show w.proxy.stdin (w.proxy.generation + 1) ++ _ = _
        rw [fresh, List.nil_append]
      · rfl
    refine ⟨?_, fun here same ready => ?_, fun here same quiet => ?_, fun here => ?_, fun here sent member => ?_,
      streams.request, streams.notice⟩
    · have shorter : ({ w.proxy with timers := w.proxy.timers.erase gen }.start).forwarded =
          w.proxy.forwarded := by
        rw [Proxy.start, forwarded_write _ _ (line_replay _), Proxy.forwarded, Proxy.forwarded]
        show List.flatMap _ (List.range (w.proxy.generation + 1 + 1)) = _
        rw [List.range_succ, List.flatMap_append, List.flatMap_singleton, fresh, List.filterMap_nil, List.append_nil]
      exact shorter ▸ streams.order
    · obtain rfl := Option.some.inj same
      show SetUp _ _ (Proxy.stdin _ _)
      rw [written, if_pos rfl, Option.isNone_iff_eq_none.mp ready]
      exact .plain []
    · obtain rfl := Option.some.inj same
      show ∃ request, Proxy.stdin _ _ = _
      rw [written, if_pos rfl]
      cases known : w.proxy.initializeRequest with
      | none =>
          change w.proxy.initializeRequest.isNone = false at quiet
          rw [known] at quiet
          cases quiet
      | some request => exact ⟨request, rfl⟩
    · show SetUp here _ (Proxy.stdin _ here) ∨ ∃ request, Proxy.stdin _ here = _
      rw [written]
      split_ifs
      · cases w.proxy.initializeRequest with
        | none => exact .inl (.plain [])
        | some request => exact .inr ⟨request, rfl⟩
      · exact streams.all here
    · change sent ∈ Proxy.stdin _ here at member
      rw [written] at member
      split_ifs at member
      · obtain ⟨request, kept, rfl⟩ := List.mem_map.mp member
        exact streams.request request (Option.mem_toList.mp kept)
      · exact streams.genuine here sent member
  · exact { streams with }
  · exact streams

theorem genuine_request (streams : Streams w) {request : Message}
    (kept : (w.proxy.note line).initializeRequest = some request) :
    (Sent.replay request).Genuine (w.read ++ [line]) := by
  rcases Option.or_eq_some_iff.mp kept with new | ⟨-, old⟩
  · obtain ⟨here, named⟩ := Option.filter_eq_some_iff.mp new
    rw [Bool.and_eq_true, decide_eq_true_eq] at named
    exact ⟨line, List.mem_append_right _ (List.mem_singleton_self _), here, named.1⟩
  · exact (streams.request request old).grows line

theorem genuine_notice (streams : Streams w) {notice : Message}
    (kept : (w.proxy.note line).initialized = some notice) :
    (Sent.initialized notice).Genuine (w.read ++ [line]) := by
  rcases Option.or_eq_some_iff.mp kept with new | ⟨-, old⟩
  · obtain ⟨here, named⟩ := Option.filter_eq_some_iff.mp new
    exact ⟨line, List.mem_append_right _ (List.mem_singleton_self _), here, of_decide_eq_true named⟩
  · exact (streams.notice notice old).grows line

theorem Streams.onClient (streams : Streams w) (running : Running w.proxy) :
    Streams ⟨w.proxy.onClient line, w.read ++ [line], w.answered, w.late⟩ := by
  unfold Proxy.onClient
  split
  next =>
    exact {
      order := streams.order.trans (List.sublist_append_left _ _)
      ready := streams.ready
      quiet := streams.quiet
      all := streams.all
      genuine := fun here sent member => (streams.genuine here sent member).grows line
      request := fun _ => genuine_request streams
      notice := fun _ => genuine_notice streams }
  next gen found =>
    obtain ⟨child, ready⟩ := Option.filter_eq_some_iff.mp found
    obtain ⟨last, -⟩ := running.child gen child
    have setUp := (streams.ready gen child ready).forward line
    have written : ∀ here, ({ w.proxy.note line with
        inFlight := line.asks.elim w.proxy.inFlight w.proxy.inFlight.add }.write gen [.forwarded line]).stdin here =
        if here = gen then w.proxy.stdin gen ++ [.forwarded line] else w.proxy.stdin here := by
      intro here
      show Function.update w.proxy.stdin gen _ here = _
      rw [Function.update_apply]
      rfl
    refine ⟨?_, fun here same _ => ?_, fun here same quiet => ?_, fun here => ?_, fun here sent member => ?_,
      fun _ => genuine_request streams, fun _ => genuine_notice streams⟩
    · show (Proxy.forwarded _).Sublist _
      rw [last]
      refine (congrArg (List.Sublist · (w.read ++ [line])) (forwarded_last _ line)).mpr ?_
      exact streams.order.append_right [line]
    · obtain rfl := Option.some.inj (same.symm.trans child)
      show SetUp here _ (Proxy.stdin _ here)
      rw [written, if_pos rfl]
      exact setUp
    · change w.proxy.ready = false at quiet
      rw [quiet] at ready
      cases ready
    · show SetUp here _ (Proxy.stdin _ here) ∨ ∃ request, Proxy.stdin _ here = _
      rw [written]
      split_ifs with same
      · subst same
        exact .inl setUp
      · exact streams.all here
    · change sent ∈ Proxy.stdin _ here at member
      rw [written] at member
      split_ifs at member
      · rcases List.mem_append.mp member with old | new
        · exact (streams.genuine gen sent old).grows line
        · obtain rfl := List.mem_singleton.mp new
          exact List.mem_append_right _ (List.mem_singleton_self _)
      · exact (streams.genuine here sent member).grows line

theorem Streams.onClose (streams : Streams w) : Streams ⟨w.proxy.onClose hasPid, w.read, w.answered, w.late⟩ :=
  { streams with }

end Streams

/-! ### Every run -/

/-- What holds in every state that is reached. -/
structure Sound (w : World) : Prop where
  running : Running w.proxy
  accounts : Accounts w
  streams : Streams w

section Runs

variable {options : Options} {w : World} {actions : List Action}

theorem first_stdin (gen : Nat) : (first options).proxy.stdin gen = [] := by
  show Function.update (Proxy.blank options).stdin 1 _ gen = []
  rw [Function.update_apply]
  split_ifs <;> rfl

theorem sound_first : Sound (first options) where
  running := running_first
  accounts := {
    balanced := fun _ => rfl
    waiting := fun gen _ id => by
      rw [World.requests, first_stdin]
      exact ⟨fun member => absurd member List.not_mem_nil, fun member => absurd member.1 List.not_mem_nil⟩
    sent := fun gen id member => by
      rw [World.requests, first_stdin] at member
      exact absurd member List.not_mem_nil
    once := fun gen gen' id member => by
      rw [World.requests, first_stdin] at member
      exact absurd member List.not_mem_nil
    known := fun gen id member => absurd member List.not_mem_nil
    untouched := fun gen _ => ⟨first_stdin gen, rfl⟩
    apart := fun id member => absurd member List.not_mem_nil }
  streams := {
    order := by
      unfold Proxy.forwarded
      rw [List.flatMap_eq_nil_iff.mpr fun gen _ => by rw [first_stdin, List.filterMap_nil]]
      exact List.nil_sublist _
    ready := fun gen _ _ => first_stdin gen ▸ .plain []
    quiet := fun gen _ quiet => by cases quiet
    all := fun gen => .inl (first_stdin gen ▸ .plain [])
    genuine := fun gen sent member => absurd (first_stdin gen ▸ member) List.not_mem_nil
    request := fun request kept => by cases kept
    notice := fun notice kept => by cases kept }

/-- **One step** keeps one process, one answer and the order. -/
theorem Sound.step (sound : Sound w) {action : Action} (honest : Honest w action) :
    Sound (Reconnect.step options w action) := by
  unfold Reconnect.step
  split_ifs
  · exact sound
  · refine ⟨sound.running.act honest, ?_, ?_⟩
    · cases action with
      | server gen line => exact sound.accounts.onServer sound.running honest
      | ends gen elapsedMs => exact sound.accounts.onEnd
      | timer gen => exact sound.accounts.onTimer sound.running
      | client line => exact sound.accounts.onClient sound.running honest
      | closes hasPid => exact sound.accounts.onClose
    · cases action with
      | server gen line => exact sound.streams.onServer sound.accounts sound.running honest
      | ends gen elapsedMs => exact sound.streams.onEnd
      | timer gen => exact sound.streams.onTimer sound.accounts
      | client line => exact sound.streams.onClient sound.running
      | closes hasPid => exact sound.streams.onClose

theorem sound_run (honest : Meets (Reconnect.step options) Honest (first options) actions) :
    Sound (run (Reconnect.step options) (first options) actions) :=
  @Meets.keeps _ _ _ _ Sound (fun _ _ sound honest => sound.step honest) _ actions sound_first honest

/-- **One process for each line.** In such a run the lines that went to the processes, one process after
the other, are lines of the client in their order; and a process has been sent nothing but lines of the
client, or its `initialize`, and more only once it has answered that. -/
theorem forwarded_once (options : Options) (actions : List Action)
    (honest : Meets (Reconnect.step options) Honest (first options) actions) :
    let w := run (Reconnect.step options) (first options) actions
    w.proxy.forwarded.Sublist w.read ∧
      (∀ gen, ∀ sent ∈ w.proxy.stdin gen, sent.Genuine w.read) ∧
      ∀ gen, SetUp gen (w.answered gen) (w.proxy.stdin gen) ∨
        ∃ request, w.proxy.stdin gen = [.replay request] := by
  intro w
  have streams := (sound_run honest).streams
  exact ⟨streams.order, streams.genuine, streams.all⟩

end Runs

/-! ### A server that ends early -/

def sampleOptions : Options := ⟨30000, 60000⟩

def request (method : String) (id : ℚ) : Line := ⟨"", some ⟨some method, some (.number id), false⟩⟩

def response (id : Id) : Line := ⟨"", some ⟨none, some id, false⟩⟩

/-- The first process ends with the `initialize` unanswered; the second answers the replay of it. -/
def restarted : List Action :=
  [.client (request "initialize" 0), .ends 1 0, .timer 1, .server 2 (response (replayId 2)),
    .client (request "tools/list" 1)]

theorem restarted_honest : Meets (step sampleOptions) Honest (first sampleOptions) restarted := by
  refine ⟨?_, ⟨by decide, by decide⟩, trivial, ⟨⟨by decide, by decide⟩, ?_⟩, ?_, trivial⟩
  · rintro _ ⟨⟩
    exact ⟨by decide, fun gen => nofun⟩
  · rintro _ ⟨⟩
    exact ⟨by decide, by decide⟩
  · rintro _ ⟨⟩
    exact ⟨by decide, fun gen => nofun⟩

theorem forwarded_restarted :
    let w := run (step sampleOptions) (first sampleOptions) restarted
    w.proxy.forwarded = w.read ∧ w.proxy.forwarded.Sublist w.read :=
  ⟨by decide, (forwarded_once sampleOptions restarted restarted_honest).1⟩

end Nvoy.Mcp.Reconnect
