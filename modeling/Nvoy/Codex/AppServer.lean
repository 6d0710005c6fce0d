/-
**One call of the local Codex app-server**: `appServerCall` of `codex_app_server.mjs`, as it delivers
an input to a thread, and the answer it takes for the receipt.

* `finalAgentText`, `finalAgentTextAfterReceipt` — the answer of a turn, and of the exchange of one
  receipt inside it;
* `Call.step` — what the call does with each message of the app-server: the handshake, the recovery of
  a prior turn, a steer with its one reconciliation, a new turn, and their completions;
* `Truthful`, `Answered` — the app-server tells of one turn what becomes of it;
* `answer_of_turn` — the text a call returns is an answer somewhere in the turn;
* `receipt_bound_iff` — it is the answer of the receipt, whichever way and in whatever order the
  messages come, exactly when the turn holds no other answer.
-/

import Mathlib.Data.List.Infix
import Nvoy.Lib.Checks
import Nvoy.Lib.Json
import Nvoy.Lib.Runs
import Nvoy.Memory.Claim

namespace Nvoy.Codex

open Memory (trim lowerAscii isUuid afterPrefix)
open Runs (Meets)

/-! ### Items of a turn -/

/-- A text with something in it. -/
def filled (text : String) : Bool := trim text ≠ ""

def typeOf (item : Json) : Option String := (item.get "type").bind Json.string

/-- A phase that is named; older builds name none. -/
def phaseOf (item : Json) : Option String := ((item.get "phase").bind Json.string).filter (· ≠ "")

structure AgentMessage where
  text : String
  phase : Option String
  deriving DecidableEq, Repr

def agentOf (item : Json) : Option AgentMessage :=
  if typeOf item = some "agentMessage" then
    ((item.get "text").bind Json.string).map fun text => ⟨text, phaseOf item⟩
  else none

/-- Where any message has a phase, the final answers; else all of them. -/
def candidates (agents : List AgentMessage) : List AgentMessage :=
  if agents.any (·.phase.isSome) then agents.filter (·.phase = some "final_answer") else agents

def textOf (found : Option AgentMessage) : String := (found.map AgentMessage.text).getD ""

def finalAgentText (items : List Json) : String :=
  textOf ((candidates (items.filterMap agentOf)).reverse.find? (filled ·.text))

/-- A message of the user that holds the marker. -/
def namesReceipt (marker : String) (item : Json) : Bool :=
  typeOf item = some "userMessage" && decide (marker.toList <:+: Json.render item)

def finalAgentTextAfterReceipt (items : List Json) (receipt : String) : String :=
  if receipt = "" then ""
  else
    match (items.zipIdx.filter fun entry => namesReceipt receipt entry.1).map Prod.snd with
    | [index] =>
        let agents := (((items.drop (index + 1)).takeWhile fun item =>
          typeOf item ≠ some "userMessage").filterMap agentOf).filter (filled ·.text)
        textOf ((candidates agents).find? (filled ·.text))
    | _ => ""

/-! ### The messages of a call -/

structure Turn where
  id : String
  status : String
  items : List Json

structure Thread where
  id : String
  active : Bool
  turns : List Turn

/-- What an answer of the app-server holds; an id that is missing is empty. -/
structure Reply where
  error : Option String := none
  thread : Option Thread := none
  /-- `result.turnId` -/
  turnId : String := ""
  /-- `result.turn.id` -/
  turn : String := ""

inductive Message where
  | itemCompleted (threadId turnId : String) (item : Json)
  | turnCompleted (threadId : String) (turn : Turn)
  | response (id : Nat) (reply : Reply)
  /-- The timeout, a stream error, or the end of the stream. -/
  | failed (error : String)

inductive Request where
  /-- `initialize` -/
  | handshake
  | read
  | resume (id : Nat)
  | start (id : Nat)
  | steer (id : Nat) (expectedTurnId : String)
  deriving DecidableEq, Repr

def Request.id : Request → Nat
  | .handshake => 1
  | .read => 2
  | .resume id => id
  | .start id => id
  | .steer id _ => id

structure Options where
  threadId : String
  input : String := ""
  dedupeToken : String := ""
  waitForCompletion : Bool := false
  observeOnly : Bool := false
  steerActive : Bool := false
  captureSteeredCompletion : Bool := false
  expectedUserText : String := ""
  expectedUserSha256 : String := ""

structure Delivered where
  turnId : String
  recovered : Bool := false
  steered : Bool := false
  reconciled : Bool := false
  replyEligible : Bool := true
  finalText : Option String := none
  deriving DecidableEq, Repr

inductive Third where
  | steer
  | resume
  deriving DecidableEq, Repr

structure Call where
  startedTurn : String := ""
  finalText : String := ""
  sawPhasedAgent : Bool := false
  requestThree : Option Third := none
  steerReconciled : Bool := false
  reconciledTurn : String := ""
  /-- The request that was sent last, until it is answered. -/
  outstanding : Option Nat := none
  sent : List Request := []
  finished : Option (Except String Delivered) := none

namespace Call

def request (c : Call) (request : Request) : Call :=
  { c with
    outstanding := some request.id
    sent := c.sent ++ [request] }

def finish (c : Call) (result : Except String Delivered) : Call := { c with finished := some result }

end Call

/-! ### What the call does with them -/

/-- The turn that a failed steer found active, by the message of its error. -/
def foundTurn (message : String) : String :=
  let tick := Char.ofNat 96
  (message.toList.tails.findSome? fun text => do
    let named ← afterPrefix "expected active turn id " (String.ofList text)
    let first ← named.toList.head?
    let inside := (named.toList.drop 1).takeWhile (· ≠ tick)
    let rest := ((named.toList.drop 1).dropWhile (· ≠ tick)).drop 1
    let found ← afterPrefix " but found " (String.ofList rest)
    let second ← found.toList.head?
    let actual := (found.toList.drop 1).takeWhile (· ≠ tick)
    let closed := ((found.toList.drop 1).dropWhile (· ≠ tick)) ≠ []
    if first = tick ∧ second = tick ∧ inside ≠ [] ∧ actual ≠ [] ∧ closed then
      some (String.ofList actual)
    else none).getD ""

/-- The text of a user message. -/
def userText (item : Json) : String :=
  match item.get "content" with
  | some (.arr parts) => String.join (parts.map fun part =>
      match part with
      | .str text => text
      | part => ((part.get "text").bind Json.string).getD "")
  | _ => ""

section Calls

variable (sha256 : String → String) (o : Options)

/-- The checks of `appServerCall`, and its first request. -/
def appServerCall : Except String Call := do
  ensure (!(o.observeOnly && (o.dedupeToken = "" || !o.waitForCompletion || o.expectedUserText = "" ||
      sha256 o.expectedUserText ≠ o.expectedUserSha256)))
    "observeOnly requires one exact receipt-and-message-bound completed turn"
  ensure (!(o.captureSteeredCompletion && (o.dedupeToken = "" || !o.waitForCompletion ||
      !o.steerActive || o.observeOnly)))
    "captureSteeredCompletion requires one receipt-bound active-turn delivery"
  return ({} : Call).request .handshake

/-- The item that binds a prior turn to the receipt. -/
def bindsReceipt (item : Json) : Bool :=
  namesReceipt o.dedupeToken item && (!o.observeOnly ||
    (userText item = o.expectedUserText && sha256 (userText item) = o.expectedUserSha256))

namespace Call

variable (c : Call)

def onItemCompleted (threadId turnId : String) (item : Json) : Call :=
  if o.waitForCompletion && threadId = o.threadId && turnId = c.startedTurn then
    match agentOf item with
    | none => c
    | some message =>
        let saw := c.sawPhasedAgent || message.phase.isSome
        let c := { c with sawPhasedAgent := saw }
        if message.phase = some "final_answer" && filled message.text then
          c.finish (.ok { turnId := c.startedTurn, finalText := some message.text })
        else if saw then c
        else { c with finalText := message.text }
  else c

/-- The text of a turn that is complete. -/
def completedText (items : List Json) : String :=
  let turnHasPhases := items.any fun item =>
    typeOf item = some "agentMessage" && (phaseOf item).isSome
  if c.sawPhasedAgent || turnHasPhases || c.finalText = "" then finalAgentText items else c.finalText

def onTurnCompleted (threadId : String) (turn : Turn) : Call :=
  if o.waitForCompletion && threadId = o.threadId && turn.id = c.startedTurn then
    if turn.status ≠ "completed" then
      c.finish (.error ("Codex turn ended with status " ++
        (if turn.status = "" then "unknown" else turn.status)))
    else if filled (c.completedText turn.items) then
      c.finish (.ok { turnId := c.startedTurn, finalText := some (c.completedText turn.items) })
    else c.finish (.error "Codex completed without a final assistant message")
  else c

/-- The turn that a steer was accepted by, in a later read. -/
def onSteered (thread : Thread) : Call :=
  match thread.turns.find? (·.id = c.startedTurn) with
  | none => c.finish (.error "the receipt-bound steered turn disappeared from the exact thread")
  | some steered =>
      let receiptText := finalAgentTextAfterReceipt steered.items o.dedupeToken
      if filled receiptText then
        c.finish (.ok {
          turnId := c.startedTurn
          recovered := true
          steered := true
          finalText := some receiptText })
      else if steered.status ≠ "inProgress" then
        c.finish (.error "the receipt-bound steered turn ended without a final assistant message")
      else c.request .read

/-- A turn that already holds the receipt. -/
def onPrior (prior : Turn) : Call :=
  let receiptText := finalAgentTextAfterReceipt prior.items o.dedupeToken
  if o.waitForCompletion && filled receiptText then
    c.finish (.ok { turnId := prior.id, recovered := true, finalText := some receiptText })
  else if o.observeOnly || (o.captureSteeredCompletion && prior.status = "inProgress") then
    { c with startedTurn := prior.id }.request .read
  else if o.waitForCompletion then
    c.finish (.error "recovered Codex turn is not complete with a final assistant message")
  else c.finish (.ok { turnId := prior.id, recovered := true })

/-- A thread that does not hold the receipt yet. -/
def onFresh (thread : Thread) : Call :=
  if o.observeOnly then c.request .read
  else
    match if o.steerActive && thread.active then
        thread.turns.reverse.find? (·.status = "inProgress") else none with
    | some active => { c with requestThree := some .steer }.request (.steer 3 active.id)
    | none => { c with requestThree := some .resume }.request (.resume 3)

def onRead (thread : Thread) : Call :=
  if o.dedupeToken = "" then c.request (.start 3)
  else if o.captureSteeredCompletion && c.startedTurn ≠ "" then c.onSteered o thread
  else
    match thread.turns.find? (·.items.any (bindsReceipt sha256 o)) with
    | some prior => if prior.id ≠ "" then c.onPrior o prior else c.onFresh o thread
    | none => c.onFresh o thread

def onSecond (reply : Reply) : Call :=
  match reply.error, reply.thread with
  | some error, _ => c.finish (.error ((if o.dedupeToken = "" then "Codex thread/resume failed: "
      else "Codex thread/read failed: ") ++ error))
  | none, some thread =>
      if thread.id = o.threadId then c.onRead sha256 o thread
      else c.finish (.error "Codex app-server returned an unexpected thread")
  | none, none => c.finish (.error "Codex app-server returned an unexpected thread")

/-- A steer was accepted by that turn. -/
def onSteerAccepted (turnId : String) (reconciled : Bool) : Call :=
  let c := { c with startedTurn := turnId }
  if o.captureSteeredCompletion then c.request .read
  else c.finish (.ok { turnId, steered := true, reconciled, replyEligible := false })

/-- A new turn was started. -/
def onStarted (reply : Reply) : Call :=
  match reply.error with
  | some error => c.finish (.error ("Codex turn/start failed: " ++ error))
  | none =>
      if reply.turn = "" then
        c.finish (.error "Codex app-server returned an invalid turn acknowledgement")
      else
        let c := { c with startedTurn := reply.turn }
        if o.waitForCompletion then c else c.finish (.ok { turnId := reply.turn })

def onSteer (reply : Reply) : Call :=
  match reply.error with
  | some error =>
      let actual := foundTurn error
      if !c.steerReconciled && isUuid (lowerAscii actual) then
        { c with
          steerReconciled := true
          reconciledTurn := actual }.request (.steer 6 actual)
      else c.finish (.error ("Codex turn/steer failed: " ++ error))
  | none =>
      if reply.turnId = "" then
        c.finish (.error "Codex turn/steer returned an invalid acknowledgement")
      else c.onSteerAccepted o reply.turnId false

def onResume (reply : Reply) : Call :=
  match reply.error with
  | some error => c.finish (.error ("Codex thread/resume failed: " ++ error))
  | none =>
      if reply.thread.map Thread.id = some o.threadId then c.request (.start 4)
      else c.finish (.error "Codex app-server resumed an unexpected thread")

def onThird (reply : Reply) : Call :=
  if o.dedupeToken = "" then c.onStarted o reply
  else if c.requestThree = some .steer then c.onSteer o reply
  else c.onResume o reply

def onReconciled (reply : Reply) : Call :=
  match reply.error with
  | some error => c.finish (.error ("Codex reconciled turn/steer failed: " ++ error))
  | none =>
      if reply.turnId = "" || reply.turnId ≠ c.reconciledTurn then
        c.finish (.error "Codex reconciled turn/steer returned an invalid acknowledgement")
      else c.onSteerAccepted o reply.turnId true

def onResponse (id : Nat) (reply : Reply) : Call :=
  let c := { c with outstanding := none }
  match id with
  | 1 =>
      match reply.error with
      | some error => c.finish (.error ("Codex initialize failed: " ++ error))
      | none => if o.dedupeToken = "" then c.request (.resume 2) else c.request .read
  | 2 => c.onSecond sha256 o reply
  | 3 => c.onThird o reply
  | 4 => if o.dedupeToken = "" then c else c.onStarted o reply
  | 6 => if c.requestThree = some .steer then c.onReconciled o reply else c
  | _ => c

/-- One message; a call that is finished takes none. -/
def step (message : Message) : Call :=
  if c.finished.isSome then c
  else
    match message with
    | .itemCompleted threadId turnId item => c.onItemCompleted o threadId turnId item
    | .turnCompleted threadId turn => c.onTurnCompleted o threadId turn
    | .response id reply => c.onResponse sha256 o id reply
    | .failed error => c.finish (.error error)

end Call

def run (call : Call) (messages : List Message) : Call := Runs.run (Call.step sha256 o) call messages

end Calls

/-! ### What the app-server sends of one turn -/

/-- The items of the turn that a call hears of, in order. -/
def heard (o : Options) (T : Turn) (messages : List Message) : List Json :=
  messages.filterMap fun
    | .itemCompleted threadId turnId item =>
        if threadId = o.threadId ∧ turnId = T.id then some item else none
    | _ => none

/-- One message that is true of the turn: a read has the items it had by then, and finds the receipt in
no other turn. -/
def Told (o : Options) (T : Turn) : Message → Prop
  | .itemCompleted _ turnId _ => turnId ≠ ""
  | .turnCompleted _ turn => turn.id ≠ "" ∧ (turn.id = T.id → turn.items = T.items ∨ turn.items = [])
  | .response _ reply => ∀ thread, reply.thread = some thread → ∀ turn ∈ thread.turns,
      (turn.id = T.id → turn.items <+: T.items) ∧
        (turn.items.any (namesReceipt o.dedupeToken) → turn.id = T.id)
  | .failed _ => True

/-- What a call is told of the turn: its items are only appended, and come in their order. -/
structure Truthful (o : Options) (T : Turn) (messages : List Message) : Prop where
  told : ∀ message ∈ messages, Told o T message
  order : (heard o T messages).Sublist T.items

/-- A response answers the request that was sent last. -/
def Answers (c : Call) : Message → Prop
  | .response id _ => c.outstanding = some id
  | _ => True

def Answered (sha256 : String → String) (o : Options) : Call → List Message → Prop :=
  Meets (Call.step sha256 o) Answers

/-! ### A text that is returned is an answer of the turn -/

/-- An answer of the turn: a message of the agent that is not told to be anything else. -/
def Answer (T : Turn) (t : String) : Prop :=
  ∃ item ∈ T.items, ∃ message, agentOf item = some message ∧ message.text = t ∧ filled t ∧
    (message.phase = none ∨ message.phase = some "final_answer")

theorem filled_empty : filled "" = false := by decide

theorem mem_candidates {agents : List AgentMessage} {message : AgentMessage}
    (member : message ∈ candidates agents) :
    message ∈ agents ∧ (message.phase = none ∨ message.phase = some "final_answer") := by
  unfold candidates at member
  split at member
  · obtain ⟨here, final⟩ := List.mem_filter.mp member
    exact ⟨here, .inr (of_decide_eq_true final)⟩
  · rename_i unphased
    refine ⟨member, .inl ?_⟩
    by_contra named
    exact unphased (List.any_eq_true.mpr ⟨message, member, Option.isSome_iff_ne_none.mpr named⟩)

/-- What is found among the candidates of some items of the turn is an answer of it. -/
theorem answer_of_found {T : Turn} {items : List Json} {agents : List AgentMessage}
    {found : Option AgentMessage} (inside : items ⊆ T.items) (spoken : agents ⊆ items.filterMap agentOf)
    (among : ∀ message, found = some message → message ∈ candidates agents)
    (text : filled (textOf found)) : Answer T (textOf found) := by
  cases found with
  | none => exact absurd text (by decide)
  | some message =>
      obtain ⟨member, phase⟩ := mem_candidates (among message rfl)
      obtain ⟨item, here, read⟩ := List.mem_filterMap.mp (spoken member)
      exact ⟨item, inside here, message, read, rfl, text, phase⟩

theorem answer_finalAgentText {T : Turn} {items : List Json} (inside : items ⊆ T.items)
    (text : filled (finalAgentText items)) : Answer T (finalAgentText items) :=
  answer_of_found inside (List.Subset.refl _)
    (fun _ found => List.mem_reverse.mp (List.mem_of_find?_eq_some found)) text

theorem answer_afterReceipt {T : Turn} {items : List Json} {marker : String} (inside : items ⊆ T.items)
    (text : filled (finalAgentTextAfterReceipt items marker)) :
    Answer T (finalAgentTextAfterReceipt items marker) := by
  revert text
  unfold finalAgentTextAfterReceipt
  split
  · exact fun text => absurd text (by decide)
  · split
    · rename_i index _
      have segment : ((items.drop (index + 1)).takeWhile fun item =>
          typeOf item ≠ some "userMessage") ⊆ items :=
        List.Subset.trans (List.takeWhile_prefix _).subset (List.drop_subset _ _)
      exact fun text => answer_of_found (List.Subset.trans segment inside) (List.filter_subset_self _)
        (fun _ found => List.mem_of_find?_eq_some found) text
    · exact fun text => absurd text (by decide)

/-! ### What a call keeps -/

/-- A text the call has heard from the turn, of a message without a phase. -/
def Spoken (T : Turn) (t : String) : Prop :=
  t = "" ∨ ∃ item ∈ T.items, agentOf item = some ⟨t, none⟩

/-- A call reads the thread while it follows a turn: the one it steered, or the receipt's own. -/
def Follows (o : Options) (T : Turn) (c : Call) : Prop :=
  o.captureSteeredCompletion = true ∨ o.observeOnly = true ∧ c.startedTurn = T.id

/-- The invariant: a call that follows a turn asks for nothing but the thread, what it holds was said in
that turn, and what it returned for the turn is an answer of it. -/
structure Sound (o : Options) (T : Turn) (c : Call) : Prop where
  started : c.startedTurn ≠ "" →
    c.outstanding = none ∨ c.outstanding = some 2 ∧ Follows o T c
  fresh : c.startedTurn = "" → c.finalText = ""
  text : c.startedTurn = T.id → Spoken T c.finalText
  returned : ∀ d t, c.finished = some (.ok d) → d.turnId = T.id → d.finalText = some t → Answer T t

section Kept

variable {o : Options} {T : Turn} {c : Call}

namespace Sound

theorem refuse (sound : Sound o T c) (error : String) : Sound o T (c.finish (.error error)) where
  __ := sound
  returned := by rintro d t ⟨⟩

theorem finish (sound : Sound o T c) {d : Delivered}
    (answer : d.turnId = T.id → ∀ t, d.finalText = some t → Answer T t) :
    Sound o T (c.finish (.ok d)) where
  __ := sound
  returned := by
    rintro _ t ⟨⟩ own text
    exact answer own t text

theorem request (sound : Sound o T c) {request : Request}
    (idle : c.startedTurn = "" ∨ request.id = 2 ∧ Follows o T c) : Sound o T (c.request request) where
  __ := sound
  started := by
    intro turn
    obtain none | ⟨read, follows⟩ := idle
    · exact absurd none turn
    · exact .inr ⟨congrArg some read, follows⟩

theorem third (sound : Sound o T c) (third : Third) :
    Sound o T { c with requestThree := some third } where
  __ := sound

theorem quiet (sound : Sound o T c) : Sound o T { c with outstanding := none } where
  __ := sound
  started := fun _ => .inl rfl

/-- A call that follows no turn yet takes one; one that follows the receipt's turn finds it again. -/
theorem follow (sound : Sound o T c) (waits : c.outstanding = none) {id : String}
    (free : c.startedTurn = "" ∨ c.startedTurn = T.id ∧ id = T.id) :
    Sound o T { c with startedTurn := id } where
  started := fun _ => .inl waits
  fresh := by
    obtain none | ⟨same, rfl⟩ := free
    · exact fun _ => sound.fresh none
    · exact fun empty => sound.fresh (same.trans empty)
  text := by
    obtain none | ⟨same, _⟩ := free
    · exact fun _ => .inl (sound.fresh none)
    · exact fun _ => sound.text same
  returned := sound.returned

end Sound

/-! ### Every message keeps it -/

theorem sound_onItemCompleted (sound : Sound o T c) {threadId turnId : String} {item : Json}
    (named : turnId ≠ "") (said : threadId = o.threadId → turnId = T.id → item ∈ T.items) :
    Sound o T (c.onItemCompleted o threadId turnId item) := by
  unfold Call.onItemCompleted
  split
  · rename_i ours
    simp only [Bool.and_eq_true, decide_eq_true_eq] at ours
    obtain ⟨⟨-, thread⟩, rfl⟩ := ours
    cases read : agentOf item with
    | none => exact sound
    | some message =>
        have saw : Sound o T { c with sawPhasedAgent := c.sawPhasedAgent || message.phase.isSome } :=
          { sound with }
        dsimp only
        split
        · -- a final answer closes the call at once
          rename_i final
          simp only [Bool.and_eq_true, decide_eq_true_eq] at final
          refine saw.finish fun own t text => ?_
          cases text
          exact ⟨item, said thread own, message, read, rfl, final.2, .inr final.1⟩
        · split
          · exact saw
          · rename_i unphased
            refine { saw with fresh := fun none => absurd none named, text := fun own => .inr ?_ }
            have none : message.phase = none := by
              simpa using (Bool.or_eq_false_iff.mp (Bool.eq_false_iff.mpr unphased)).2
            exact ⟨item, said thread own, by rw [read]; cases message; cases none; rfl⟩
  · exact sound

theorem answer_completedText (sound : Sound o T c) (own : c.startedTurn = T.id) {items : List Json}
    (all : items = T.items ∨ items = []) (text : filled (c.completedText items)) :
    Answer T (c.completedText items) := by
  have inside : items ⊆ T.items := by
    obtain rfl | rfl := all
    · exact List.Subset.refl _
    · exact List.nil_subset _
  revert text
  unfold Call.completedText
  dsimp only
  split
  · exact answer_finalAgentText inside
  · intro text
    obtain none | ⟨item, member, read⟩ := sound.text own
    · rw [none] at text
      exact absurd text (by decide)
    · exact ⟨item, member, _, read, rfl, text, .inl rfl⟩

theorem sound_onTurnCompleted (sound : Sound o T c) {threadId : String} {turn : Turn}
    (all : turn.id = T.id → turn.items = T.items ∨ turn.items = []) :
    Sound o T (c.onTurnCompleted o threadId turn) := by
  unfold Call.onTurnCompleted
  split
  · rename_i ours
    simp only [Bool.and_eq_true, decide_eq_true_eq] at ours
    split
    · exact sound.refuse _
    · split
      · rename_i text
        refine sound.finish fun own t same => ?_
        cases same
        exact answer_completedText sound own (all (ours.2.trans own)) text
      · exact sound.refuse _
  · exact sound

theorem sound_onSteered (sound : Sound o T c) (capture : o.captureSteeredCompletion = true)
    {thread : Thread} (told : ∀ turn ∈ thread.turns, turn.id = T.id → turn.items <+: T.items) :
    Sound o T (c.onSteered o thread) := by
  unfold Call.onSteered
  split
  · exact sound.refuse _
  · rename_i steered found
    dsimp only
    split
    · rename_i text
      refine sound.finish fun own t same => ?_
      cases same
      have id : steered.id = T.id := (by simpa using List.find?_some found : steered.id = _).trans own
      exact answer_afterReceipt (told steered (List.mem_of_find?_eq_some found) id).subset text
    · split
      · exact sound.refuse _
      · exact sound.request (.inr ⟨rfl, .inl capture⟩)

theorem sound_onPrior (sound : Sound o T c) (waits : c.outstanding = none)
    (free : c.startedTurn = "" ∨ c.startedTurn = T.id) {prior : Turn} (own : prior.id = T.id)
    (told : prior.items <+: T.items) : Sound o T (c.onPrior o prior) := by
  unfold Call.onPrior
  dsimp only
  split
  · rename_i text
    refine sound.finish fun _ t same => ?_
    cases same
    exact answer_afterReceipt told.subset (Bool.and_eq_true_iff.mp text).2
  · split
    · rename_i follows
      have found := sound.follow waits (free.imp_right fun same => ⟨same, own⟩)
      refine found.request (.inr ⟨rfl, ?_⟩)
      obtain observe | capture := Bool.or_eq_true_iff.mp follows
      · exact .inr ⟨observe, own⟩
      · exact .inl (Bool.and_eq_true_iff.mp capture).1
    · split
      · exact sound.refuse _
      · exact sound.finish fun _ t none => nomatch none

theorem sound_onFresh (sound : Sound o T c)
    (free : c.startedTurn = "" ∨ o.observeOnly = true ∧ c.startedTurn = T.id) {thread : Thread} :
    Sound o T (c.onFresh o thread) := by
  unfold Call.onFresh
  split
  · exact sound.request (free.imp_right fun follows => ⟨rfl, .inr follows⟩)
  · rename_i instructs
    have free : c.startedTurn = "" := free.resolve_right fun follows => instructs follows.1
    split
    · exact (sound.third .steer).request (.inl free)
    · exact (sound.third .resume).request (.inl free)

theorem sound_onRead (sha256 : String → String) (sound : Sound o T c) (waits : c.outstanding = none)
    (free : c.startedTurn = "" ∨ Follows o T c) (marked : o.dedupeToken ≠ "") {thread : Thread}
    (told : ∀ turn ∈ thread.turns, (turn.id = T.id → turn.items <+: T.items) ∧
      (turn.items.any (namesReceipt o.dedupeToken) → turn.id = T.id)) :
    Sound o T (c.onRead sha256 o thread) := by
  unfold Call.onRead
  rw [if_neg marked]
  split
  · rename_i capture
    exact sound_onSteered sound (Bool.and_eq_true_iff.mp capture).1 fun turn member =>
      (told turn member).1
  · rename_i steers
    -- a call that follows a turn it steered was answered above
    have free : c.startedTurn = "" ∨ o.observeOnly = true ∧ c.startedTurn = T.id := by
      by_cases none : c.startedTurn = ""
      · exact .inl none
      · obtain capture | observe := free.resolve_left none
        · exact absurd (by simp [capture, none]) steers
        · exact .inr observe
    split
    · rename_i prior found
      split
      · have member := List.mem_of_find?_eq_some found
        have names : prior.items.any (namesReceipt o.dedupeToken) := by
          have bound : prior.items.any (bindsReceipt sha256 o) := by simpa using List.find?_some found
          obtain ⟨item, inside, binds⟩ := List.any_eq_true.mp bound
          exact List.any_eq_true.mpr ⟨item, inside, (Bool.and_eq_true_iff.mp binds).1⟩
        have own := (told prior member).2 names
        exact sound_onPrior sound waits (free.imp_right And.right) own ((told prior member).1 own)
      · exact sound_onFresh sound free
    · exact sound_onFresh sound free

theorem sound_onSecond (sha256 : String → String) (sound : Sound o T c) (waits : c.outstanding = none)
    (free : c.startedTurn = "" ∨ Follows o T c) (marked : o.dedupeToken ≠ "") {reply : Reply} {id : Nat}
    (told : Told o T (.response id reply)) : Sound o T (c.onSecond sha256 o reply) := by
  unfold Call.onSecond
  split
  · exact sound.refuse _
  · rename_i thread _ found
    split
    · exact sound_onRead sha256 sound waits free marked (told thread found)
    · exact sound.refuse _
  · exact sound.refuse _

theorem sound_onSteerAccepted (sound : Sound o T c) (waits : c.outstanding = none)
    (free : c.startedTurn = "") {turnId : String} {reconciled : Bool} :
    Sound o T (c.onSteerAccepted o turnId reconciled) := by
  have found : Sound o T { c with startedTurn := turnId } := sound.follow waits (.inl free)
  unfold Call.onSteerAccepted
  dsimp only
  split
  · rename_i capture
    exact found.request (.inr ⟨rfl, .inl capture⟩)
  · exact found.finish fun _ t none => nomatch none

theorem sound_onStarted (sound : Sound o T c) (waits : c.outstanding = none)
    (free : c.startedTurn = "") {reply : Reply} : Sound o T (c.onStarted o reply) := by
  unfold Call.onStarted
  split
  · exact sound.refuse _
  · split
    · exact sound.refuse _
    · have found : Sound o T { c with startedTurn := reply.turn } := sound.follow waits (.inl free)
      dsimp only
      split
      · exact found
      · exact found.finish fun _ t none => nomatch none

theorem sound_onSteer (sound : Sound o T c) (waits : c.outstanding = none)
    (free : c.startedTurn = "") {reply : Reply} : Sound o T (c.onSteer o reply) := by
  unfold Call.onSteer
  split
  · dsimp only
    split
    · rename_i message _ _
      have reconciles : Sound o T
          { c with steerReconciled := true, reconciledTurn := foundTurn message } :=
        { sound with }
      exact reconciles.request (.inl free)
    · exact sound.refuse _
  · split
    · exact sound.refuse _
    · exact sound_onSteerAccepted sound waits free

theorem sound_onResume (sound : Sound o T c) (free : c.startedTurn = "") {reply : Reply} :
    Sound o T (c.onResume o reply) := by
  unfold Call.onResume
  split
  · exact sound.refuse _
  · split
    · exact sound.request (.inl free)
    · exact sound.refuse _

theorem sound_onThird (sound : Sound o T c) (waits : c.outstanding = none)
    (free : c.startedTurn = "") {reply : Reply} : Sound o T (c.onThird o reply) := by
  unfold Call.onThird
  split
  · exact sound_onStarted sound waits free
  · split
    · exact sound_onSteer sound waits free
    · exact sound_onResume sound free

theorem sound_onReconciled (sound : Sound o T c) (waits : c.outstanding = none)
    (free : c.startedTurn = "") {reply : Reply} : Sound o T (c.onReconciled o reply) := by
  unfold Call.onReconciled
  split
  · exact sound.refuse _
  · split
    · exact sound.refuse _
    · exact sound_onSteerAccepted sound waits free

theorem sound_onResponse (sha256 : String → String) (sound : Sound o T c)
    (marked : o.dedupeToken ≠ "") {id : Nat} {reply : Reply} (asked : c.outstanding = some id)
    (told : Told o T (.response id reply)) : Sound o T (c.onResponse sha256 o id reply) := by
  have quiet := sound.quiet
  -- a call that follows a turn has asked for nothing but the thread
  have free : c.startedTurn = "" ∨ id = 2 ∧ Follows o T c := by
    by_cases none : c.startedTurn = ""
    · exact .inl none
    · obtain none | ⟨read, follows⟩ := sound.started none
      · rw [none] at asked
        nomatch asked
      · rw [read] at asked
        exact .inr ⟨(Option.some.inj asked).symm, follows⟩
  unfold Call.onResponse
  dsimp only
  split
  · have idle : c.startedTurn = "" := free.resolve_right fun follows => by cases follows.1
    split
    · exact quiet.refuse _
    · rw [if_neg marked]
      exact quiet.request (.inl idle)
  · exact sound_onSecond sha256 quiet rfl (free.imp_right And.right) marked told
  · exact sound_onThird quiet rfl (free.resolve_right fun follows => by cases follows.1)
  · rw [if_neg marked]
    exact sound_onStarted quiet rfl (free.resolve_right fun follows => by cases follows.1)
  · split
    · exact sound_onReconciled quiet rfl (free.resolve_right fun follows => by cases follows.1)
    · exact quiet
  · exact quiet

theorem sound_step (sha256 : String → String) (sound : Sound o T c) (marked : o.dedupeToken ≠ "")
    {message : Message} (answers : Answers c message) (told : Told o T message)
    (said : heard o T [message] ⊆ T.items) : Sound o T (c.step sha256 o message) := by
  unfold Call.step
  split
  · exact sound
  · cases message with
    | itemCompleted threadId turnId item =>
        refine sound_onItemCompleted sound told fun thread turn => said ?_
        simp [heard, thread, turn]
    | turnCompleted threadId turn => exact sound_onTurnCompleted sound told.2
    | response id reply => exact sound_onResponse sha256 sound marked answers told
    | failed error => exact sound.refuse error

theorem heard_cons (message : Message) (rest : List Message) :
    heard o T (message :: rest) = heard o T [message] ++ heard o T rest := by
  simp only [heard, ← List.filterMap_append, List.singleton_append]

theorem sound_run (sha256 : String → String) (marked : o.dedupeToken ≠ "") {messages : List Message}
    (sound : Sound o T c) (answered : Answered sha256 o c messages)
    (told : ∀ message ∈ messages, Told o T message) (said : heard o T messages ⊆ T.items) :
    Sound o T (run sha256 o c messages) := by
  induction messages generalizing c with
  | nil => exact sound
  | cons message rest ih =>
      rw [heard_cons, List.append_subset] at said
      have next := sound_step sha256 sound marked answered.1 (told message List.mem_cons_self) said.1
      exact ih next answered.2 (fun m member => told m (List.mem_cons_of_mem _ member)) said.2

theorem sound_appServerCall {sha256 : String → String} (opened : appServerCall sha256 o = .ok c)
    (named : T.id ≠ "") : Sound o T c := by
  obtain ⟨_, _, opened⟩ := bind_eq_ok.mp opened
  obtain ⟨_, _, opened⟩ := bind_eq_ok.mp opened
  cases opened
  exact {
    started := fun turn => absurd rfl turn
    fresh := fun _ => rfl
    text := fun own => absurd own.symm named
    returned := fun _ _ none => nomatch none }

/-- **The text that a call returns for a turn is an answer of the turn**, whichever way it obtained it
and in whatever order the messages came. -/
theorem answer_of_turn {sha256 : String → String} (named : T.id ≠ "") (marked : o.dedupeToken ≠ "")
    (opened : appServerCall sha256 o = .ok c) {messages : List Message}
    (answered : Answered sha256 o c messages) (truthful : Truthful o T messages) {d : Delivered}
    {t : String} (ended : (run sha256 o c messages).finished = some (.ok d)) (own : d.turnId = T.id)
    (text : d.finalText = some t) : Answer T t :=
  (sound_run sha256 marked (sound_appServerCall opened named) answered truthful.told
    truthful.order.subset).returned d t ended own text

end Kept

/-! ### The receipt's own answer -/

section Started

variable (T : Turn) (marker : String)

/-- A delivery that starts a turn of its own. -/
def plain : Options where
  threadId := ""
  dedupeToken := marker
  waitForCompletion := true

/-- The responses it has until then. -/
def opening : List Message :=
  [.response 1 {}, .response 2 { thread := some ⟨"", false, []⟩ },
    .response 3 { thread := some ⟨"", false, []⟩ }, .response 4 { turn := T.id }]

/-- The call once it has its turn. -/
def begun : Call where
  startedTurn := T.id
  requestThree := some .resume
  sent := [.handshake, .read, .resume 3, .start 4]

/-- Its messages where it hears of one item of the turn, and then of the end of the turn alone. -/
def overheard (item : Json) : List Message :=
  opening T ++ [.itemCompleted "" T.id item, .turnCompleted "" ⟨T.id, "completed", []⟩]

variable {T marker}

theorem truthful_overheard {item : Json} (named : T.id ≠ "") (member : item ∈ T.items) :
    Truthful (plain marker) T (overheard T item) where
  told := by simp [overheard, opening, Told, named]
  order := by simpa [heard, overheard, opening, plain] using member

theorem run_opening (sha256 : String → String) (marked : marker ≠ "") (named : T.id ≠ "") :
    run sha256 (plain marker) (({} : Call).request .handshake) (opening T) = begun T ∧
      Answered sha256 (plain marker) (({} : Call).request .handshake) (opening T) := by
  simp [opening, begun, Answered, Meets, Answers, Call.step, Call.onResponse, Call.onSecond,
    Call.onRead, Call.onFresh, Call.onThird, Call.onResume, Call.onStarted, Call.request, plain, run,
    Request.id, marked, named]

/-- An answer that is heard alone is returned. -/
theorem finished_overheard (sha256 : String → String) (marked : marker ≠ "") (named : T.id ≠ "")
    {item : Json} {message : AgentMessage} (read : agentOf item = some message)
    (text : filled message.text) (phase : message.phase = none ∨ message.phase = some "final_answer") :
    (run sha256 (plain marker) (({} : Call).request .handshake) (overheard T item)).finished =
      some (.ok { turnId := T.id, finalText := some message.text }) := by
  have some : message.text ≠ "" := by
    intro none
    rw [none] at text
    exact absurd text (by decide)
  have opened : run sha256 (plain marker) (({} : Call).request .handshake) (overheard T item) =
      run sha256 (plain marker) (begun T)
        [.itemCompleted "" T.id item, .turnCompleted "" ⟨T.id, "completed", []⟩] := by
    rw [← (run_opening sha256 marked named).1]
    exact Runs.run_append _ _ _
  rw [opened]
  obtain unphased | final := phase
  · simp [run, begun, Call.step, Call.onItemCompleted, Call.onTurnCompleted, Call.completedText, plain, read,
      unphased, text, some, Call.finish]
  · simp [run, begun, Call.step, Call.onItemCompleted, plain, read, final, text, Call.finish]

end Started

/-- **A text returned for the receipt is the receipt's own answer**, on every path and in every order of
the messages, exactly when the turn holds no answer but that one. -/
theorem receipt_bound_iff (sha256 : String → String) (T : Turn) (marker : String) (named : T.id ≠ "")
    (marked : marker ≠ "") :
    (∀ (o : Options) (c : Call) (messages : List Message) (d : Delivered) (t : String),
        o.dedupeToken = marker → appServerCall sha256 o = .ok c → Answered sha256 o c messages →
        Truthful o T messages → (run sha256 o c messages).finished = some (.ok d) →
        d.turnId = T.id → d.finalText = some t →
        t = finalAgentTextAfterReceipt T.items marker) ↔
      ∀ t, Answer T t → t = finalAgentTextAfterReceipt T.items marker := by
  constructor
  · rintro bound t ⟨item, member, message, read, rfl, text, phase⟩
    obtain ⟨ran, answered⟩ := run_opening (T := T) sha256 marked named
    refine bound (plain marker) _ (overheard T item) _ message.text rfl rfl ?_
      (truthful_overheard named member) (finished_overheard sha256 marked named read text phase) rfl rfl
    exact Runs.meets_append.mpr ⟨answered, trivial, trivial, trivial⟩
  · rintro alone o c messages d t rfl opened answered truthful ended own text
    exact alone t (answer_of_turn named marked opened answered truthful ended own text)

section Samples

/-- The receipt's exchange comes after one of the owner's own. -/
def steeredTurn : Turn where
  id := "7"
  status := "inProgress"
  items :=
    [.obj [("type", .str "agentMessage"), ("phase", .str "final_answer"), ("text", .str "owner")],
      .obj [("type", .str "userMessage"), ("content", .arr [.str "receipt"])],
      .obj [("type", .str "agentMessage"), ("phase", .str "final_answer"), ("text", .str "answer")]]

/-- A turn of the receipt alone. -/
def ownTurn : Turn := { steeredTurn with items := steeredTurn.items.drop 1 }

theorem receipt_bound_iff_ownTurn :
    (∀ (o : Options) (c : Call) (messages : List Message) (d : Delivered) (t : String),
        o.dedupeToken = "receipt" → appServerCall id o = .ok c → Answered id o c messages →
        Truthful o ownTurn messages → (run id o c messages).finished = some (.ok d) →
        d.turnId = ownTurn.id → d.finalText = some t →
        t = finalAgentTextAfterReceipt ownTurn.items "receipt") ↔
      ∀ t, Answer ownTurn t → t = finalAgentTextAfterReceipt ownTurn.items "receipt" :=
  receipt_bound_iff id ownTurn "receipt" (by decide) (by decide)

/-- A delivery that is steered into the turn the owner works in. -/
def steering : Options where
  threadId := ""
  dedupeToken := "receipt"
  waitForCompletion := true
  steerActive := true
  captureSteeredCompletion := true

/-- The steer is accepted before the end of the owner's exchange is heard. -/
def lateOwner : List Message :=
  [.response 1 {}, .response 2 { thread := some ⟨"", true, [{ steeredTurn with items := [] }]⟩ },
    .response 3 { turnId := "7" }] ++ (steeredTurn.items.take 1).map (.itemCompleted "" "7")

/-- The answer of the owner's exchange is returned for the receipt, which has one of its own. -/
theorem receipt_not_bound_steered :
    ∃ c, appServerCall id steering = .ok c ∧ Answered id steering c lateOwner ∧
      Truthful steering steeredTurn lateOwner ∧
      (run id steering c lateOwner).finished =
        some (.ok { turnId := steeredTurn.id, finalText := some "owner" }) ∧
      (steeredTurn.items.filter (namesReceipt "receipt")).length = 1 ∧
      finalAgentTextAfterReceipt steeredTurn.items "receipt" = "answer" := by
  refine ⟨_, rfl, ?_, ⟨?_, ?_⟩, ?_, ?_, ?_⟩
  · exact ⟨rfl, rfl, rfl, trivial, trivial⟩
  · simp [lateOwner, steeredTurn, Told]
  · simp [lateOwner, steeredTurn, heard, steering]
  · rfl
  · decide +kernel
  · decide +kernel

end Samples

end Nvoy.Codex
