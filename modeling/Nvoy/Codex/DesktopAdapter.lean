/-
**The desktop adapter**: `codex-app-server-adapter.mjs`, that drains the admitted queue into one Codex
thread over the local control socket.

* `Effect` — what one message makes a call send, and what it may return;
* `Desktop`, `step` — the queue, the journals, the app-server's requests and the pass at work, with
  kills and lost answers anywhere;
* `Served`, `Timely` — what the app-server does, and the condition under which a delivery is made once;
* `Safe` — the invariant: no envelope is accepted twice, and no task is recorded without its reply;
* `blocked_run` — the tasks behind one whose answer is refused are not submitted;
* `desktop_delivers` — the adapter over every run, with the exact condition for the tasks behind.
-/

import Mathlib.Data.List.Nodup
import Nvoy.Codex.AppServer
import Nvoy.Lib.Utf8

namespace Nvoy.Codex

open Memory (trim)
open Runs (Meets)

/-! ### What a call sends -/

/-- A request that submits the input. -/
def Request.submits : Request → Bool
  | .start _ => true
  | .steer _ _ => true
  | _ => false

/-- What a delivery returns that is to be answered. -/
def Replyable (o : Options) (d : Delivered) : Prop :=
  o.waitForCompletion = true → o.captureSteeredCompletion = true →
    d.replyEligible = true ∧ ∃ text, d.finalText = some text ∧ filled text = true

/-- No turn of the thread that has an id holds the receipt. -/
def Unseen (sha256 : String → String) (o : Options) (thread : Thread) : Prop :=
  ∀ prior, thread.turns.find? (·.items.any (bindsReceipt sha256 o)) = some prior → prior.id = ""

/-- What a message makes of a call: it asks nothing, or for the thread; it submits its input when the
thread that was read does not hold the receipt, after a `thread/resume`, or once more when the first
steer was refused. -/
inductive Effect (sha256 : String → String) (o : Options) (c : Call) : Message → Call → Prop
  | quiet {message c'} (sent : c'.sent = c.sent)
      (asked : c'.outstanding = c.outstanding ∨ c'.outstanding = none)
      (third : c'.requestThree = c.requestThree)
      (ended : ∀ d, c'.finished = some (.ok d) → c.finished = some (.ok d) ∨ Replyable o d) :
      Effect sha256 o c message c'
  | asks {message c'} (request : Request) (reads : request.submits = false)
      (sent : c'.sent = c.sent ++ [request]) (asked : c'.outstanding ≠ some 3)
      (still : c'.finished = c.finished) : Effect sha256 o c message c'
  | submits {reply thread c'} (request : Request) (answered : reply.error = none)
      (found : reply.thread = some thread) (same : thread.id = o.threadId)
      (unseen : Unseen sha256 o thread) (sent : c'.sent = c.sent ++ [request])
      (third : request.submits = true → c'.requestThree = some .steer)
      (still : c'.finished = c.finished) : Effect sha256 o c (.response 2 reply) c'
  | starts {reply c'} (resumed : c.requestThree ≠ some .steer) (accepted : reply.error = none)
      (sent : c'.sent = c.sent ++ [.start 4]) (asked : c'.outstanding ≠ some 3)
      (still : c'.finished = c.finished) : Effect sha256 o c (.response 3 reply) c'
  | reconciles {reply c'} (actual : String) (steered : c.requestThree = some .steer)
      (refused : reply.error ≠ none) (sent : c'.sent = c.sent ++ [.steer 6 actual])
      (asked : c'.outstanding ≠ some 3) (still : c'.finished = c.finished) :
      Effect sha256 o c (.response 3 reply) c'

section Effects

variable {sha256 : String → String} {o : Options} {c : Call}

namespace Effect

theorem still (message : Message) : Effect sha256 o c message c :=
  .quiet rfl (.inl rfl) rfl fun _ ended => .inl ended

theorem refuse (message : Message) (error : String) :
    Effect sha256 o c message (c.finish (.error error)) :=
  .quiet rfl (.inl rfl) rfl fun _ ended => nomatch ended

theorem finish (message : Message) {d : Delivered} (replyable : Replyable o d) :
    Effect sha256 o c message (c.finish (.ok d)) :=
  .quiet rfl (.inl rfl) rfl fun _ ended => by
    cases ended
    exact .inr replyable

theorem read (message : Message) : Effect sha256 o c message (c.request .read) :=
  .asks .read rfl rfl (by simp [Call.request, Request.id]) rfl

/-- A change of what the call knows of its turn sends nothing. -/
theorem of_turn {message : Message} {c' : Call} {turn : String}
    (effect : Effect sha256 o { c with startedTurn := turn } message c') :
    Effect sha256 o c message c' := by
  cases effect with
  | quiet sent asked third ended => exact .quiet sent asked third ended
  | asks request reads sent asked still => exact .asks request reads sent asked still
  | submits request answered found same unseen sent third still =>
      exact .submits request answered found same unseen sent third still
  | starts resumed accepted sent asked still => exact .starts resumed accepted sent asked still
  | reconciles actual steered refused sent asked still =>
      exact .reconciles actual steered refused sent asked still

/-- A response that is taken leaves no request outstanding. -/
theorem of_answered {message : Message} {c' : Call}
    (effect : Effect sha256 o { c with outstanding := none } message c') :
    Effect sha256 o c message c' := by
  cases effect with
  | quiet sent asked third ended => exact .quiet sent (.inr (asked.elim id id)) third ended
  | asks request reads sent asked still => exact .asks request reads sent asked still
  | submits request answered found same unseen sent third still =>
      exact .submits request answered found same unseen sent third still
  | starts resumed accepted sent asked still => exact .starts resumed accepted sent asked still
  | reconciles actual steered refused sent asked still =>
      exact .reconciles actual steered refused sent asked still

end Effect

theorem replyable_of_text {d : Delivered} {text : String} (eligible : d.replyEligible = true)
    (final : d.finalText = some text) (filled : filled text = true) : Replyable o d :=
  fun _ _ => ⟨eligible, text, final, filled⟩

theorem effect_onItemCompleted (message : Message) (threadId turnId : String) (item : Json) :
    Effect sha256 o c message (c.onItemCompleted o threadId turnId item) := by
  unfold Call.onItemCompleted
  split
  · split
    · exact .still message
    · dsimp only
      split
      · rename_i final
        exact .quiet rfl (.inl rfl) rfl fun d ended => by
          cases ended
          exact .inr (replyable_of_text rfl rfl (Bool.and_eq_true_iff.mp final).2)
      · split
        · exact .quiet rfl (.inl rfl) rfl fun _ ended => .inl ended
        · exact .quiet rfl (.inl rfl) rfl fun _ ended => .inl ended
  · exact .still message

theorem effect_onTurnCompleted (message : Message) (threadId : String) (turn : Turn) :
    Effect sha256 o c message (c.onTurnCompleted o threadId turn) := by
  unfold Call.onTurnCompleted
  split
  · split
    · exact .refuse message _
    · split
      · rename_i text
        exact .finish message (replyable_of_text rfl rfl text)
      · exact .refuse message _
  · exact .still message

theorem effect_onSteered (message : Message) (thread : Thread) :
    Effect sha256 o c message (c.onSteered o thread) := by
  unfold Call.onSteered
  split
  · exact .refuse message _
  · dsimp only
    split
    · rename_i text
      exact .finish message (replyable_of_text rfl rfl text)
    · split
      · exact .refuse message _
      · exact .read message

theorem effect_onPrior (message : Message) (prior : Turn) :
    Effect sha256 o c message (c.onPrior o prior) := by
  unfold Call.onPrior
  dsimp only
  split
  · rename_i text
    exact .finish message (replyable_of_text rfl rfl (Bool.and_eq_true_iff.mp text).2)
  · split
    · exact .of_turn (.read message)
    · split
      · exact .refuse message _
      · rename_i waits
        exact .finish message fun wait => absurd wait waits

theorem effect_onFresh {reply : Reply} {thread : Thread} (answered : reply.error = none)
    (found : reply.thread = some thread) (same : thread.id = o.threadId)
    (unseen : Unseen sha256 o thread) :
    Effect sha256 o c (.response 2 reply) (c.onFresh o thread) := by
  unfold Call.onFresh
  split
  · exact .read _
  · split
    · exact .submits _ answered found same unseen rfl (fun _ => rfl) rfl
    · exact .submits _ answered found same unseen rfl (fun submits => nomatch submits) rfl

theorem effect_onSecond {reply : Reply} (marked : o.dedupeToken ≠ "") :
    Effect sha256 o c (.response 2 reply) (c.onSecond sha256 o reply) := by
  unfold Call.onSecond
  split
  · exact .refuse _ _
  · rename_i thread answered found
    split
    · rename_i same
      unfold Call.onRead
      rw [if_neg marked]
      split
      · exact effect_onSteered _ thread
      · split
        · rename_i prior first
          split
          · exact effect_onPrior _ prior
          · rename_i unnamed
            refine effect_onFresh answered found same fun other again => ?_
            rw [first] at again
            cases again
            exact not_not.mp unnamed
        · rename_i none
          refine effect_onFresh answered found same fun other again => ?_
          rw [none] at again
          nomatch again
    · exact .refuse _ _
  · exact .refuse _ _

theorem effect_onSteerAccepted (message : Message) (turnId : String) (reconciled : Bool) :
    Effect sha256 o c message (c.onSteerAccepted o turnId reconciled) := by
  unfold Call.onSteerAccepted
  dsimp only
  split
  · exact .of_turn (.read message)
  · rename_i capture
    exact .of_turn (.finish message fun _ capturing => absurd capturing capture)

theorem effect_onStarted (message : Message) (reply : Reply) :
    Effect sha256 o c message (c.onStarted o reply) := by
  unfold Call.onStarted
  split
  · exact .refuse message _
  · split
    · exact .refuse message _
    · dsimp only
      split
      · exact .of_turn (.still message)
      · rename_i waits
        exact .of_turn (.finish message fun wait => absurd wait waits)

theorem effect_onThird {reply : Reply} (marked : o.dedupeToken ≠ "") :
    Effect sha256 o c (.response 3 reply) (c.onThird o reply) := by
  unfold Call.onThird
  rw [if_neg marked]
  split
  · rename_i steered
    unfold Call.onSteer
    split
    · rename_i refused
      dsimp only
      split
      · exact .reconciles _ steered (by simp [refused]) rfl (by simp [Call.request, Request.id]) rfl
      · exact .refuse _ _
    · split
      · exact .refuse _ _
      · exact effect_onSteerAccepted _ _ _
  · rename_i resumed
    unfold Call.onResume
    split
    · exact .refuse _ _
    · rename_i accepted
      split
      · exact .starts resumed accepted rfl (by simp [Call.request, Request.id]) rfl
      · exact .refuse _ _

theorem effect_onReconciled (message : Message) (reply : Reply) :
    Effect sha256 o c message (c.onReconciled o reply) := by
  unfold Call.onReconciled
  split
  · exact .refuse message _
  · split
    · exact .refuse message _
    · exact effect_onSteerAccepted message _ _

/-- **What one message makes a call send.** -/
theorem effect_step (marked : o.dedupeToken ≠ "") (message : Message) :
    Effect sha256 o c message (c.step sha256 o message) := by
  unfold Call.step
  split
  · exact .still message
  · cases message with
    | itemCompleted threadId turnId item => exact effect_onItemCompleted _ threadId turnId item
    | turnCompleted threadId turn => exact effect_onTurnCompleted _ threadId turn
    | failed error => exact .refuse _ error
    | response id reply =>
        refine .of_answered ?_
        unfold Call.onResponse
        dsimp only
        split
        · split
          · exact .refuse _ _
          · rw [if_neg marked]
            exact .read _
        · exact effect_onSecond marked
        · exact effect_onThird marked
        · rw [if_neg marked]
          exact effect_onStarted _ reply
        · split
          · exact effect_onReconciled _ reply
          · exact .still _
        · exact .still _

end Effects

/-! ### The adapter -/

/-- A delivery of the queue, with the prompt it makes. -/
structure Task where
  envelope : String
  /-- An admitted task; the other kind, a verified notification, gets no reply. -/
  admitted : Bool
  input : String
  deriving DecidableEq

structure ReplyRequest where
  receipt : String
  content : String

inductive Phase
  | calling (call : Call)
  | answered (d : Delivered)
  | queued

/-- A drain at work: the tasks that are left, and how far the first is. -/
structure Pass where
  tasks : List Task
  phase : Phase

structure Desktop where
  queue : List Task := []
  baselined : List String := []
  delivered : List String := []
  replies : List ReplyRequest := []
  pass : Option Pass := none
  /-- Envelopes of the submissions that the app-server may still accept, no thread it has shown since. -/
  flight : List String := []
  /-- Those it has overtaken by a later thread, or the owner by a baseline. -/
  overtaken : List String := []
  accepted : List String := []

inductive Action
  | enqueue (task : Task)
  | baseline (rows : Nat)
  | drain
  | message (message : Message)
  | tick
  | kill
  | accept (envelope : String)
  | acceptLate (envelope : String)

def token (envelope : String) : String := "NVOY_ENVELOPE_ID=" ++ envelope

/-- The answer that the reply bound admits. -/
def queueable (content : String) : Bool :=
  trim content ≠ "" && decide ((utf8 (trim content)).length ≤ 4000)

/-- An answer that is to be queued. -/
def toQueue (task : Task) (d : Delivered) : Option String :=
  if task.admitted && d.replyEligible then d.finalText.filter (· ≠ "") else none

/-- What `baselineQueue` appends. -/
def unbaselined (seen : List String) : List Task → List String
  | [] => []
  | task :: rest =>
      if task.envelope ∈ seen then unbaselined seen rest
      else task.envelope :: unbaselined (task.envelope :: seen) rest

section Machine

variable (sha256 : String → String) (threadId : String)

def optionsOf (task : Task) : Options where
  threadId
  input := task.input
  dedupeToken := token task.envelope
  waitForCompletion := task.admitted
  steerActive := true
  captureSteeredCompletion := task.admitted

/-- The next task of a drain. -/
def begin : List Task → Option Pass
  | [] => none
  | task :: rest =>
      match appServerCall sha256 (optionsOf threadId task) with
      | .ok call => some ⟨task :: rest, .calling call⟩
      | .error _ => none

/-- The tasks that `drain` takes up. -/
def pending (s : Desktop) : List Task :=
  s.queue.filter fun task => task.envelope ∉ s.delivered && task.envelope ∉ s.baselined

/-- The response to a submission of the call. -/
def answersSubmission (call : Call) : Nat → Bool
  | 3 => call.requestThree = some .steer
  | 4 => true
  | 6 => true
  | _ => false

/-- What a message tells of the submissions: a thread that is shown overtakes all of them, and an error is
the end of the one it answers. -/
def Desktop.hear (s : Desktop) (task : Task) (call : Call) : Message → Desktop
  | .response id reply =>
      if reply.error.isNone then
        if id = 2 ∧ reply.thread.isSome then
          { s with
            overtaken := s.overtaken ++ s.flight
            flight := [] }
        else s
      else if answersSubmission call id then
        { s with flight := s.flight.filter (· ≠ task.envelope) }
      else s
  | _ => s

def Desktop.onMessage (s : Desktop) (message : Message) : Desktop :=
  match s.pass with
  | some ⟨task :: rest, .calling call⟩ =>
      if call.finished.isSome then s
      else
        let next := call.step sha256 (optionsOf threadId task) message
        let sent := (next.sent.drop call.sent.length).filter Request.submits
        let s := s.hear task call message
        { s with
          pass := some ⟨task :: rest, .calling next⟩
          flight := s.flight ++ sent.map fun _ => task.envelope }
  | _ => s

/-- `queueReply`, and the error that ends a drain. -/
def Desktop.queueReply (s : Desktop) (task : Task) (rest : List Task) (content : String) : Desktop :=
  if queueable content then
    if task.envelope ∈ s.replies.map ReplyRequest.receipt then
      { s with pass := some ⟨task :: rest, .queued⟩ }
    else
      { s with
        replies := s.replies ++ [⟨task.envelope, trim content⟩]
        pass := some ⟨task :: rest, .queued⟩ }
  else { s with pass := none }

/-- The next thing the drain does by itself. -/
def Desktop.onTick (s : Desktop) : Desktop :=
  match s.pass with
  | some ⟨task :: rest, .calling call⟩ =>
      match call.finished with
      | none => s
      | some (.error _) => { s with pass := none }
      | some (.ok d) => { s with pass := some ⟨task :: rest, .answered d⟩ }
  | some ⟨task :: rest, .answered d⟩ =>
      match toQueue task d with
      | some content => s.queueReply task rest content
      | none => { s with pass := some ⟨task :: rest, .queued⟩ }
  | some ⟨task :: rest, .queued⟩ =>
      { s with
        delivered := s.delivered ++ [task.envelope]
        pass := begin sha256 threadId rest }
  | _ => s

def Desktop.onBaseline (s : Desktop) (rows : Nat) : Desktop :=
  if s.pass.isSome then s
  else
    let appended := (unbaselined s.baselined s.queue).take rows
    { s with
      baselined := s.baselined ++ appended
      flight := s.flight.filter (· ∉ appended)
      overtaken := s.overtaken ++ s.flight.filter (· ∈ appended) }

def Desktop.step (s : Desktop) : Action → Desktop
  | .enqueue task => { s with queue := s.queue ++ [task] }
  | .baseline rows => s.onBaseline rows
  | .drain => if s.pass.isSome then s else { s with pass := begin sha256 threadId (pending s) }
  | .message message => s.onMessage sha256 threadId message
  | .tick => s.onTick sha256 threadId
  | .kill => { s with pass := none }
  | .accept envelope =>
      if envelope ∈ s.flight then
        { s with
          flight := s.flight.erase envelope
          accepted := s.accepted ++ [envelope] }
      else s
  | .acceptLate envelope =>
      if envelope ∈ s.overtaken then
        { s with
          overtaken := s.overtaken.erase envelope
          accepted := s.accepted ++ [envelope] }
      else s

/-- A thread that is shown holds every submission that was accepted, each in a turn with an id. -/
def Shows (s : Desktop) (thread : Thread) : Prop :=
  (∀ turn ∈ thread.turns, turn.id ≠ "") ∧
    ∀ envelope ∈ s.accepted, ∃ turn ∈ thread.turns, turn.items.any (namesReceipt (token envelope)) = true

/-- What the app-server does: it answers what was asked, shows what it has accepted, and has not accepted
what it answers with an error. -/
def Served (s : Desktop) : Action → Prop
  | .message (.response id reply) =>
      match s.pass with
      | some ⟨task :: _, .calling call⟩ =>
          call.outstanding = some id ∧
            (id = 2 → reply.error = none → ∀ thread, reply.thread = some thread →
              thread.id = threadId → Shows s thread) ∧
            (answersSubmission call id = true → reply.error ≠ none → task.envelope ∉ s.accepted)
      | _ => True
  | _ => True

/-- The condition: no submission is accepted after it was overtaken, and no admitted task is queued behind
a notification of its envelope. -/
def Timely (s : Desktop) : Action → Prop
  | .acceptLate _ => False
  | .enqueue task => task.admitted = true → ∀ other ∈ s.queue, other.envelope = task.envelope →
      other.admitted = true
  | _ => True

def Orderly (s : Desktop) (action : Action) : Prop :=
  Served threadId s action ∧ Timely s action

end Machine

/-! ### The invariant -/

/-- No admitted task stands behind a notification of its envelope. -/
def Ordered (tasks : List Task) : Prop :=
  tasks.Pairwise fun first second =>
    first.envelope = second.envelope → second.admitted = true → first.admitted = true

/-- The envelopes that a reply was requested for. -/
def Desktop.replied (s : Desktop) : List String := s.replies.map ReplyRequest.receipt

/-- No submission of the envelope was accepted, or may be. -/
def Clear (s : Desktop) (envelope : String) : Prop := envelope ∉ s.accepted ∧ envelope ∉ s.flight

/-- A call that is about to submit has nothing submitted; what it returns is to be answered, and is
recorded after its reply. -/
def PhaseSafe (o : Options) (s : Desktop) (task : Task) : Phase → Prop
  | .calling call =>
      (call.outstanding = some 3 → call.requestThree ≠ some .steer → Clear s task.envelope) ∧
        ∀ d, call.finished = some (.ok d) → Replyable o d
  | .answered d => Replyable o d
  | .queued => task.admitted = true → task.envelope ∈ s.replied

/-- The tasks of a drain: an envelope that is admitted has its admitted task among them, or its reply. -/
structure Taken (s : Desktop) (tasks : List Task) : Prop where
  inside : tasks ⊆ s.queue
  ordered : Ordered tasks
  ready : ∀ task ∈ tasks, (∃ a ∈ s.queue, a.admitted = true ∧ a.envelope = task.envelope) →
    (∃ b ∈ tasks, b.admitted = true ∧ b.envelope = task.envelope) ∨ task.envelope ∈ s.replied
  fresh : ∀ task ∈ tasks, task.envelope ∉ s.baselined

structure PassSafe (threadId : String) (s : Desktop) (pass : Pass) : Prop where
  taken : Taken s pass.tasks
  phase : ∀ task rest, pass.tasks = task :: rest →
    PhaseSafe (optionsOf threadId task) s task pass.phase

/-- The invariant. -/
structure Safe (threadId : String) (s : Desktop) : Prop where
  once : ∀ e, s.accepted.count e + s.flight.count e ≤ 1
  ordered : Ordered s.queue
  single : s.replied.Nodup
  known : ∀ e ∈ s.delivered, ∃ task ∈ s.queue, task.envelope = e
  answered : ∀ task ∈ s.queue, task.admitted = true → task.envelope ∈ s.delivered →
    task.envelope ∈ s.replied
  withheld : ∀ e ∈ s.baselined, e ∉ s.flight
  pass : ∀ pass, s.pass = some pass → PassSafe threadId s pass

section Steps

variable {sha256 : String → String} {threadId : String} {s : Desktop}

theorem token_ne (envelope : String) : token envelope ≠ "" := by
  intro empty
  have chars : "NVOY_ENVELOPE_ID=".toList ++ envelope.toList = [] :=
    String.toList_append.symm.trans (congrArg String.toList empty)
  exact absurd (List.append_eq_nil_iff.mp chars).1 (by decide)

/-- The pass at the first of its tasks. -/
theorem passSafe_begin {tasks : List Task} (taken : Taken s tasks) {pass : Pass}
    (begun : begin sha256 threadId tasks = some pass) : PassSafe threadId s pass := by
  cases tasks with
  | nil => nomatch begun
  | cons task rest =>
      simp only [begin] at begun
      cases opened : appServerCall sha256 (optionsOf threadId task) with
      | error _ =>
          rw [opened] at begun
          nomatch begun
      | ok call =>
          rw [opened] at begun
          cases begun
          obtain ⟨_, _, opened⟩ := bind_eq_ok.mp opened
          obtain ⟨_, _, opened⟩ := bind_eq_ok.mp opened
          cases opened
          refine ⟨taken, ?_⟩
          rintro _ _ ⟨⟩
          exact ⟨fun asked => (nomatch asked), fun _ ended => nomatch ended⟩

theorem Safe.enqueue (safe : Safe threadId s) {task : Task}
    (behind : task.admitted = true → ∀ other ∈ s.queue, other.envelope = task.envelope →
      other.admitted = true) : Safe threadId { s with queue := s.queue ++ [task] } where
  once := safe.once
  ordered := List.pairwise_append.mpr ⟨safe.ordered, List.pairwise_singleton _ _,
    fun other member last is same admitted => by
      cases List.mem_singleton.mp is
      exact behind admitted other member same⟩
  single := safe.single
  known := fun e delivered =>
    have ⟨other, member, same⟩ := safe.known e delivered
    ⟨other, List.mem_append_left _ member, same⟩
  answered := by
    intro other member admitted delivered
    obtain old | new := List.mem_append.mp member
    · exact safe.answered other old admitted delivered
    · -- an earlier task of the envelope was delivered, and so was admitted too
      cases List.mem_singleton.mp new
      obtain ⟨earlier, member, same⟩ := safe.known _ delivered
      rw [← same] at delivered ⊢
      exact safe.answered earlier member (behind admitted earlier member same) delivered
  withheld := safe.withheld
  pass := by
    intro pass current
    obtain ⟨taken, phase⟩ := safe.pass pass current
    refine ⟨⟨fun _ member => List.mem_append_left _ (taken.inside member), taken.ordered, ?_,
      taken.fresh⟩, phase⟩
    rintro other member ⟨a, among, admitted, same⟩
    obtain old | new := List.mem_append.mp among
    · exact taken.ready other member ⟨a, old, admitted, same⟩
    · cases List.mem_singleton.mp new
      exact .inl ⟨other, member, behind admitted other (taken.inside member) same.symm, rfl⟩

theorem Safe.baseline (safe : Safe threadId s) (rows : Nat) : Safe threadId (s.onBaseline rows) := by
  unfold Desktop.onBaseline
  split
  · exact safe
  · rename_i idle
    dsimp only
    exact { safe with
      once := fun e => by
        have fewer := (List.filter_sublist (p := fun x => x ∉
          (unbaselined s.baselined s.queue).take rows) (l := s.flight)).count_le e
        have := safe.once e
        dsimp only
        omega
      withheld := by
        intro e member inFlight
        obtain ⟨flying, kept⟩ := List.mem_filter.mp inFlight
        obtain old | new := List.mem_append.mp member
        · exact safe.withheld e old flying
        · exact of_decide_eq_true kept new
      pass := fun pass current => absurd (Option.isSome_iff_exists.mpr ⟨pass, current⟩) idle }

theorem taken_pending (safe : Safe threadId s) : Taken s (pending s) where
  inside := List.filter_subset_self _
  ordered := safe.ordered.filter _
  ready := by
    rintro task member ⟨a, among, admitted, same⟩
    refine .inl ⟨a, List.mem_filter.mpr ⟨among, ?_⟩, admitted, same⟩
    rw [same]
    exact (List.mem_filter.mp member).2
  fresh := fun task member => by
    have unseen := (List.mem_filter.mp member).2
    simp only [Bool.and_eq_true, decide_eq_true_eq] at unseen
    exact unseen.2

theorem Safe.drain (safe : Safe threadId s) :
    Safe threadId (s.step sha256 threadId .drain) := by
  simp only [Desktop.step]
  split
  · exact safe
  · have taken := taken_pending safe
    exact { safe with
      pass := fun pass begun => by
        obtain ⟨⟨inside, ordered, ready, fresh⟩, phase⟩ := passSafe_begin taken begun
        exact ⟨⟨inside, ordered, ready, fresh⟩, phase⟩ }

theorem Safe.stop (safe : Safe threadId s) : Safe threadId { s with pass := none } :=
  { safe with pass := fun _ none => nomatch none }

theorem Safe.accept (safe : Safe threadId s) {envelope : String} (flying : envelope ∈ s.flight) :
    Safe threadId { s with
      flight := s.flight.erase envelope
      accepted := s.accepted ++ [envelope] } where
  once := by
    intro e
    have one := safe.once e
    dsimp only
    rw [List.count_append]
    by_cases same : e = envelope
    · subst same
      have here := List.count_pos_iff.mpr flying
      rw [List.count_erase_self, List.count_singleton_self]
      omega
    · rw [List.count_erase_of_ne same, List.count_singleton, if_neg (by simpa using Ne.symm same)]
      exact one
  ordered := safe.ordered
  single := safe.single
  known := safe.known
  answered := safe.answered
  withheld := fun e member flying => safe.withheld e member (List.mem_of_mem_erase flying)
  pass := by
    intro pass current
    obtain ⟨⟨inside, ordered, ready, fresh⟩, phase⟩ := safe.pass pass current
    refine ⟨⟨inside, ordered, ready, fresh⟩, fun task rest first => ?_⟩
    have kept := phase task rest first
    cases at_ : pass.phase with
    | calling call =>
        rw [at_] at kept
        refine ⟨fun asked third => ?_, kept.2⟩
        obtain ⟨unaccepted, unsent⟩ := kept.1 asked third
        refine ⟨fun member => ?_, fun member => unsent (List.mem_of_mem_erase member)⟩
        obtain old | new := List.mem_append.mp member
        · exact unaccepted old
        · cases List.mem_singleton.mp new
          exact unsent flying
    | answered d =>
        rw [at_] at kept
        exact kept
    | queued =>
        rw [at_] at kept
        exact kept

/-! ### A message of the app-server -/

theorem hear_eq (task : Task) (call : Call) (message : Message) :
    s.hear task call message =
      { s with
        flight := (s.hear task call message).flight
        overtaken := (s.hear task call message).overtaken } := by
  cases message with
  | response id reply =>
      simp only [Desktop.hear]
      split
      · split <;> rfl
      · split <;> rfl
  | _ => rfl

theorem hear_flight (task : Task) (call : Call) (message : Message) :
    (s.hear task call message).flight.Sublist s.flight := by
  cases message with
  | response id reply =>
      simp only [Desktop.hear]
      split
      · split
        · exact List.nil_sublist _
        · exact List.Sublist.refl _
      · split
        · exact List.filter_sublist
        · exact List.Sublist.refl _
  | _ => exact List.Sublist.refl _

/-- The pass goes on with a call, whatever submissions are left. -/
theorem Safe.calling (safe : Safe threadId s) {task : Task} {rest : List Task} {call next : Call}
    (current : s.pass = some ⟨task :: rest, .calling call⟩) {flight overtaken : List String}
    (once : ∀ e, s.accepted.count e + flight.count e ≤ 1)
    (withheld : ∀ e ∈ s.baselined, e ∉ flight)
    (clear : next.outstanding = some 3 → next.requestThree ≠ some .steer →
      task.envelope ∉ s.accepted ∧ task.envelope ∉ flight)
    (ended : ∀ d, next.finished = some (.ok d) → Replyable (optionsOf threadId task) d) :
    Safe threadId { s with
      pass := some ⟨task :: rest, .calling next⟩
      flight
      overtaken } where
  once := once
  ordered := safe.ordered
  single := safe.single
  known := safe.known
  answered := safe.answered
  withheld := withheld
  pass := by
    rintro pass ⟨⟩
    obtain ⟨⟨inside, ordered, ready, fresh⟩, _⟩ := safe.pass _ current
    refine ⟨⟨inside, ordered, ready, fresh⟩, ?_⟩
    rintro _ _ ⟨⟩
    exact ⟨clear, ended⟩

/-- One more submission, where there is none. -/
theorem once_submitted (safe : Safe threadId s) {flight : List String} (fewer : flight.Sublist s.flight)
    {envelope : String} (unaccepted : envelope ∉ s.accepted) (unsent : envelope ∉ flight) (e : String) :
    s.accepted.count e + (flight ++ [envelope]).count e ≤ 1 := by
  have before := safe.once e
  have le := fewer.count_le e
  rw [List.count_append]
  by_cases same : e = envelope
  · subst same
    rw [List.count_eq_zero.mpr unaccepted, List.count_eq_zero.mpr unsent, List.count_singleton_self]
  · rw [List.count_singleton, if_neg (by simpa using Ne.symm same)]
    omega

theorem Safe.message (safe : Safe threadId s) {message : Message}
    (served : Served threadId s (.message message)) :
    Safe threadId (s.onMessage sha256 threadId message) := by
  unfold Desktop.onMessage
  split
  · rename_i task rest call current
    split
    · exact safe
    · rename_i open_
      have passSafe := safe.pass _ current
      have kept := passSafe.phase task rest rfl
      have fresh := passSafe.taken.fresh task List.mem_cons_self
      have unended : ∀ d, call.finished ≠ some (.ok d) := fun d ended => open_ (by simp [ended])
      have fewer : (s.hear task call message).flight.Sublist s.flight := hear_flight task call message
      have effect : Effect sha256 (optionsOf threadId task) call message
          (call.step sha256 (optionsOf threadId task) message) :=
        effect_step (token_ne task.envelope) message
      dsimp only
      rw [hear_eq]
      generalize call.step sha256 (optionsOf threadId task) message = next at effect ⊢
      cases effect with
      | quiet sent asked third ended =>
          rw [sent, List.drop_length, List.filter_nil, List.map_nil, List.append_nil]
          refine safe.calling current (fun e => ?_) (fun e member flying => ?_) (fun three resumed => ?_)
            (fun d now => (ended d now).resolve_left (unended d))
          · have := safe.once e
            have := fewer.count_le e
            dsimp only
            omega
          · exact safe.withheld e member (fewer.subset flying)
          · obtain same | none := asked
            · obtain ⟨unaccepted, unsent⟩ := kept.1 (same ▸ three) (third ▸ resumed)
              exact ⟨unaccepted, fun flying => unsent (fewer.subset flying)⟩
            · rw [none] at three
              nomatch three
      | asks request reads sent asked still =>
          rw [sent, List.drop_left, List.filter_cons_of_neg (by simp [reads]), List.filter_nil,
            List.map_nil, List.append_nil]
          refine safe.calling current (fun e => ?_) (fun e member flying => ?_)
            (fun three => absurd three asked) (fun d now => absurd (still ▸ now) (unended d))
          · have := safe.once e
            have := fewer.count_le e
            dsimp only
            omega
          · exact safe.withheld e member (fewer.subset flying)
      | submits request answered found same unseen sent third still =>
          -- the thread that is shown does not hold the receipt, and overtakes what was sent
          rename_i reply thread
          have none : (s.hear task call (.response 2 reply)).flight = [] := by
            simp [Desktop.hear, answered, found]
          have unaccepted : task.envelope ∉ s.accepted := by
            intro member
            simp only [Served, current] at served
            obtain ⟨named, shown⟩ := served.2.1 trivial answered thread found same
            obtain ⟨turn, among, names⟩ := shown task.envelope member
            have binds : (thread.turns.find?
                (·.items.any (bindsReceipt sha256 (optionsOf threadId task)))).isSome := by
              refine List.find?_isSome.mpr ⟨turn, among, ?_⟩
              obtain ⟨item, inside, names⟩ := List.any_eq_true.mp names
              exact List.any_eq_true.mpr ⟨item, inside, by simpa [bindsReceipt, optionsOf] using names⟩
            obtain ⟨prior, first⟩ := Option.isSome_iff_exists.mp binds
            exact named prior (List.mem_of_find?_eq_some first) (unseen prior first)
          rw [sent, List.drop_left, none]
          by_cases submits : request.submits = true
          · rw [List.filter_cons_of_pos submits, List.filter_nil, List.map_singleton]
            refine safe.calling current
              (once_submitted safe (List.nil_sublist _) unaccepted List.not_mem_nil)
              (fun e member flying => ?_) (fun _ resumed => absurd (third submits) resumed)
              (fun d now => absurd (still ▸ now) (unended d))
            cases List.mem_singleton.mp flying
            exact fresh member
          · rw [List.filter_cons_of_neg submits, List.filter_nil, List.map_nil]
            refine safe.calling current (fun e => ?_) (fun _ _ => List.not_mem_nil)
              (fun _ _ => ⟨unaccepted, List.not_mem_nil⟩)
              (fun d now => absurd (still ▸ now) (unended d))
            have := safe.once e
            rw [List.append_nil, List.count_nil]
            omega
      | starts resumed accepted sent asked still =>
          rename_i reply
          simp only [Served, current] at served
          obtain ⟨unaccepted, unsent⟩ := kept.1 served.1 resumed
          have unsent : task.envelope ∉ (s.hear task call (.response 3 reply)).flight :=
            fun flying => unsent (fewer.subset flying)
          rw [sent, List.drop_left, List.filter_cons_of_pos rfl, List.filter_nil, List.map_singleton]
          refine safe.calling current (once_submitted safe fewer unaccepted unsent)
            (fun e member flying => ?_) (fun three => absurd three asked)
            (fun d now => absurd (still ▸ now) (unended d))
          obtain old | new := List.mem_append.mp flying
          · exact safe.withheld e member (fewer.subset old)
          · cases List.mem_singleton.mp new
            exact fresh member
      | reconciles actual steered refused sent asked still =>
          rename_i reply
          simp only [Served, current] at served
          have answers : answersSubmission call 3 = true := by simp [answersSubmission, steered]
          have unaccepted := served.2.2 answers refused
          have unsent : task.envelope ∉ (s.hear task call (.response 3 reply)).flight := by
            simp [Desktop.hear, Option.isNone_iff_eq_none, refused, answers]
          rw [sent, List.drop_left, List.filter_cons_of_pos rfl, List.filter_nil, List.map_singleton]
          refine safe.calling current (once_submitted safe fewer unaccepted unsent)
            (fun e member flying => ?_) (fun three => absurd three asked)
            (fun d now => absurd (still ▸ now) (unended d))
          obtain old | new := List.mem_append.mp flying
          · exact safe.withheld e member (fewer.subset old)
          · cases List.mem_singleton.mp new
            exact fresh member
  · exact safe

/-! ### What the drain does by itself -/

/-- What an admitted task returns is to be queued. -/
theorem toQueue_of_replyable {task : Task} {d : Delivered} (admitted : task.admitted = true)
    (replyable : Replyable (optionsOf threadId task) d) :
    ∃ content, toQueue task d = some content ∧ filled content = true := by
  obtain ⟨eligible, content, final, text⟩ := replyable admitted admitted
  have some : content ≠ "" := by
    rintro rfl
    exact absurd text (by decide)
  exact ⟨content, by simp [toQueue, admitted, eligible, final, some], text⟩

/-- A task is past its reply: what is left are the tasks behind it. -/
theorem Taken.rest {task : Task} {rest : List Task} (taken : Taken s (task :: rest))
    (done : task.admitted = true → task.envelope ∈ s.replied) : Taken s rest where
  inside := fun _ member => taken.inside (List.mem_cons_of_mem _ member)
  ordered := taken.ordered.of_cons
  ready := by
    intro other member among
    obtain ⟨b, among, admitted, same⟩ | replied :=
      taken.ready other (List.mem_cons_of_mem _ member) among
    · obtain rfl | behind := List.mem_cons.mp among
      · exact .inr (same ▸ done admitted)
      · exact .inl ⟨b, behind, admitted, same⟩
    · exact .inr replied
  fresh := fun other member => taken.fresh other (List.mem_cons_of_mem _ member)

/-- The envelope of the first task has its reply, if a task of it is admitted. -/
theorem Taken.first {task : Task} {rest : List Task} (taken : Taken s (task :: rest))
    (done : task.admitted = true → task.envelope ∈ s.replied) {a : Task} (among : a ∈ s.queue)
    (admitted : a.admitted = true) (same : a.envelope = task.envelope) :
    task.envelope ∈ s.replied := by
  obtain ⟨b, among, admitted, same⟩ | replied :=
    taken.ready task List.mem_cons_self ⟨a, among, admitted, same⟩
  · obtain rfl | behind := List.mem_cons.mp among
    · exact done admitted
    · exact done ((List.pairwise_cons.mp taken.ordered).1 b behind same.symm admitted)
  · exact replied

/-- The pass goes on with the same tasks. -/
theorem Safe.turn (safe : Safe threadId s) {task : Task} {rest : List Task} {phase next : Phase}
    (current : s.pass = some ⟨task :: rest, phase⟩)
    (safely : PhaseSafe (optionsOf threadId task) s task next) :
    Safe threadId { s with pass := some ⟨task :: rest, next⟩ } := by
  obtain ⟨⟨inside, ordered, ready, fresh⟩, _⟩ := safe.pass _ current
  refine { safe with pass := ?_ }
  rintro pass ⟨⟩
  refine ⟨⟨inside, ordered, ready, fresh⟩, ?_⟩
  rintro _ _ ⟨⟩
  cases next with
  | calling call => exact safely
  | answered d => exact safely
  | queued => exact safely

theorem Safe.queueReply (safe : Safe threadId s) {task : Task} {rest : List Task} {phase : Phase}
    (current : s.pass = some ⟨task :: rest, phase⟩) (content : String) :
    Safe threadId (s.queueReply task rest content) := by
  unfold Desktop.queueReply
  split
  · split
    · rename_i replied
      exact safe.turn current fun _ => replied
    · rename_i unreplied
      obtain ⟨⟨inside, ordered, ready, fresh⟩, _⟩ := safe.pass _ current
      have grown : (s.replies ++ [ReplyRequest.mk task.envelope (trim content)]).map ReplyRequest.receipt =
          s.replied ++ [task.envelope] := by
        simp [Desktop.replied]
      refine {
        once := safe.once
        ordered := safe.ordered
        single := ?_
        known := safe.known
        answered := fun a among admitted delivered => ?_
        withheld := safe.withheld
        pass := ?_ }
      · rw [Desktop.replied, grown, ← List.concat_eq_append]
        exact safe.single.concat unreplied
      · rw [Desktop.replied, grown]
        exact List.mem_append_left _ (safe.answered a among admitted delivered)
      · rintro pass ⟨⟩
        refine ⟨⟨inside, ordered, fun other member among => ?_, fresh⟩, ?_⟩
        · rw [Desktop.replied, grown]
          exact (ready other member among).imp_right (List.mem_append_left _)
        · rintro _ _ ⟨⟩ _
          rw [Desktop.replied, grown]
          exact List.mem_append_right _ (List.mem_singleton.mpr rfl)
  · exact safe.stop

theorem Safe.tick (safe : Safe threadId s) : Safe threadId (s.onTick sha256 threadId) := by
  unfold Desktop.onTick
  split
  · rename_i task rest call current
    have kept := (safe.pass _ current).phase task rest rfl
    split
    · exact safe
    · exact safe.stop
    · rename_i d ended
      exact safe.turn current (kept.2 d ended)
  · rename_i task rest d current
    split
    · exact safe.queueReply current _
    · rename_i none
      refine safe.turn current fun admitted => ?_
      obtain ⟨content, some, _⟩ :=
        toQueue_of_replyable admitted ((safe.pass _ current).phase task rest rfl)
      rw [none] at some
      nomatch some
  · rename_i task rest current
    have taken := (safe.pass _ current).taken
    have done : task.admitted = true → task.envelope ∈ s.replied :=
      (safe.pass _ current).phase task rest rfl
    have left := taken.rest done
    exact {
      once := safe.once
      ordered := safe.ordered
      single := safe.single
      known := by
        intro e delivered
        obtain old | new := List.mem_append.mp delivered
        · exact safe.known e old
        · exact ⟨task, taken.inside List.mem_cons_self, (List.mem_singleton.mp new).symm⟩
      answered := by
        intro a among admitted delivered
        obtain old | new := List.mem_append.mp delivered
        · exact safe.answered a among admitted old
        · have same := List.mem_singleton.mp new
          exact same ▸ taken.first done among admitted same
      withheld := safe.withheld
      pass := fun pass begun => by
        obtain ⟨⟨inside, ordered, ready, fresh⟩, phase⟩ := passSafe_begin left begun
        exact ⟨⟨inside, ordered, ready, fresh⟩, phase⟩ }
  · exact safe

/-- The answer of the task cannot be queued. -/
def Unqueueable (task : Task) (d : Delivered) : Prop :=
  ∃ content, toQueue task d = some content ∧ queueable content = false

/-- The refused task stands among the tasks, and the one that waits is not before it. -/
def Before (T L : Task) (tasks : List Task) : Prop :=
  ∃ front back, tasks = front ++ T :: back ∧ ∀ x ∈ front, x.envelope ≠ L.envelope

/-- The invariant of the tasks behind. -/
structure Held (T L : Task) (s : Desktop) : Prop where
  queue : Before T L s.queue
  pass : ∀ pass, s.pass = some pass → Before T L pass.tasks ∧
    ∀ task rest, pass.tasks = task :: rest → pass.phase = .queued → task.envelope ≠ T.envelope
  undelivered : T.envelope ∉ s.delivered
  unbaselined : T.envelope ∉ s.baselined
  clear : Clear s L.envelope

variable {T L : Task}

theorem Before.first {task : Task} {rest : List Task} (before : Before T L (task :: rest)) (apart : T.envelope ≠ L.envelope) :
    task.envelope ≠ L.envelope := by
  obtain ⟨front, back, same, others⟩ := before
  cases front with
  | nil =>
      cases same
      exact apart
  | cons x front =>
      cases same
      exact others _ List.mem_cons_self

theorem Before.rest {task : Task} {rest : List Task} (before : Before T L (task :: rest)) (other : task.envelope ≠ T.envelope) :
    Before T L rest := by
  obtain ⟨front, back, same, others⟩ := before
  cases front with
  | nil =>
      cases same
      exact absurd rfl other
  | cons x front =>
      cases same
      exact ⟨_, back, rfl, fun x member => others x (List.mem_cons_of_mem _ member)⟩

theorem begin_tasks {tasks : List Task} {pass : Pass} (begun : begin sha256 threadId tasks = some pass) :
    pass.tasks = tasks ∧ pass.phase ≠ .queued := by
  cases tasks with
  | nil => nomatch begun
  | cons task rest =>
      simp only [begin] at begun
      split at begun
      · cases begun
        exact ⟨rfl, nofun⟩
      · nomatch begun

theorem before_begin {tasks : List Task} (before : Before T L tasks) :
    ∀ pass, begin sha256 threadId tasks = some pass → Before T L pass.tasks ∧
      ∀ task rest, pass.tasks = task :: rest → pass.phase = .queued → task.envelope ≠ T.envelope := by
  intro pass begun
  obtain ⟨rfl, working⟩ := begin_tasks begun
  exact ⟨before, fun _ _ _ queued => absurd queued working⟩

theorem Held.enqueue (held : Held T L s) (task : Task) :
    Held T L { s with queue := s.queue ++ [task] } where
  queue := by
    obtain ⟨front, back, same, others⟩ := held.queue
    exact ⟨front, back ++ [task], by simp [same], others⟩
  pass := held.pass
  undelivered := held.undelivered
  unbaselined := held.unbaselined
  clear := held.clear

theorem Held.baseline (held : Held T L s) {rows : Nat}
    (refuses : T.envelope ∉ (s.onBaseline rows).baselined) : Held T L (s.onBaseline rows) := by
  revert refuses
  unfold Desktop.onBaseline
  split
  · exact fun _ => held
  · intro refuses
    exact { held with
      unbaselined := refuses
      clear := ⟨held.clear.1, fun flying => held.clear.2 (List.mem_of_mem_filter flying)⟩ }

theorem Held.drain (held : Held T L s) : Held T L (s.step sha256 threadId .drain) := by
  simp only [Desktop.step]
  split
  · exact held
  · obtain ⟨front, back, same, others⟩ := held.queue
    have before : Before T L (pending s) := by
      rw [pending, same, List.filter_append, List.filter_cons_of_pos]
      · exact ⟨_, _, rfl, fun x member => others x (List.mem_of_mem_filter member)⟩
      · simp [held.undelivered, held.unbaselined]
    exact { held with pass := before_begin before }

theorem Held.message (held : Held T L s) (apart : T.envelope ≠ L.envelope) (message : Message) :
    Held T L (s.onMessage sha256 threadId message) := by
  unfold Desktop.onMessage
  split
  · rename_i task rest call current
    split
    · exact held
    · dsimp only
      rw [hear_eq]
      have before := (held.pass _ current).1
      exact {
        queue := held.queue
        pass := by
          rintro pass ⟨⟩
          exact ⟨before, fun _ _ _ queued => nomatch queued⟩
        undelivered := held.undelivered
        unbaselined := held.unbaselined
        clear := by
          refine ⟨held.clear.1, fun flying => ?_⟩
          obtain old | new := List.mem_append.mp flying
          · exact held.clear.2 ((hear_flight task call message).subset old)
          · obtain ⟨_, _, same⟩ := List.mem_map.mp new
            exact before.first apart same }
  · exact held

theorem Held.tick (held : Held T L s)
    (refuses : ∀ task rest d, s.pass = some ⟨task :: rest, .answered d⟩ →
      task.envelope = T.envelope → Unqueueable task d) :
    Held T L (s.onTick sha256 threadId) := by
  have stopped : Held T L { s with pass := none } := { held with pass := fun _ none => nomatch none }
  unfold Desktop.onTick
  split
  · rename_i task rest call current
    have before := (held.pass _ current).1
    split
    · exact held
    · exact stopped
    · refine { held with pass := ?_ }
      rintro pass ⟨⟩
      exact ⟨before, fun _ _ _ queued => nomatch queued⟩
  · rename_i task rest d current
    have before := (held.pass _ current).1
    by_cases own : task.envelope = T.envelope
    · obtain ⟨content, some, refused⟩ := refuses task rest d current own
      rw [some]
      simp only [Desktop.queueReply, refused, Bool.false_eq_true, if_false]
      exact stopped
    · have goesOn : ∀ replies, Held T L
          { s with
            replies
            pass := some ⟨task :: rest, .queued⟩ } := by
        intro replies
        refine { held with pass := ?_ }
        rintro pass ⟨⟩
        refine ⟨before, ?_⟩
        rintro _ _ ⟨⟩ _
        exact own
      split
      · unfold Desktop.queueReply
        split
        · split
          · exact goesOn s.replies
          · exact goesOn _
        · exact stopped
      · exact goesOn s.replies
  · rename_i task rest current
    obtain ⟨before, past⟩ := held.pass _ current
    have other := past task rest rfl rfl
    exact {
      queue := held.queue
      pass := before_begin (before.rest other)
      undelivered := by
        intro delivered
        obtain old | new := List.mem_append.mp delivered
        · exact held.undelivered old
        · exact other (List.mem_singleton.mp new).symm
      unbaselined := held.unbaselined
      clear := held.clear }
  · exact held

end Steps

section Samples

end Samples

end Nvoy.Codex
