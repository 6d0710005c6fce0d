/-
**The tap, and the two tools behind it.**

`nvoy_chat_post` and `nvoy_dm_send` sign under the agent's key when a call carries an approval, and
offer a draft to the agent's one delegator otherwise.

* `decideTap` — publish, draft or refuse, from the shape of the approval alone;
* `chatPost`, `dmSend` — one call of either tool: what it asks of signer, relays and desk;
* `call_signs` — when a call asks the signer;
* `approval_gate` — the signatures of a run are all approved exactly if every call whose approval
  has the form of an id passes one that was given for its message;
* `made_up_approval` — any 64 hex digits publish.
-/

import Nvoy.Broker.BuzzNative
import Nvoy.Lib.JsSet
import Nvoy.Lib.Runs

namespace Nvoy.Mcp

open Memory (trim lowerAscii)
open Broker (Template)

/-! ### The decision -/

inductive TapDecision where
  | publish (why : String)
  | draft (why notice : String)
  | refuse (why : String)

def TapDecision.mode : TapDecision → String
  | .publish _ => "publish"
  | .draft _ _ => "draft"
  | .refuse _ => "refuse"

def TapDecision.why : TapDecision → String
  | .publish why | .draft why _ | .refuse why => why

def NEEDS_TAP : List String := ["nvoy_chat_post", "nvoy_dm_send"]

def decideTap (tool : String) (approval : Option String) : TapDecision :=
  if ¬ NEEDS_TAP.contains tool then .publish (tool ++ " does not emit an agent act")
  else match approval with
    | none | some "" => .draft
      "no approval was supplied, so this becomes a draft the Director can sign (AD-12 3a)"
      ("NOT PUBLISHED. This was offered to the Director as a draft; he signs it in his own hand " ++
        "on the Ngage desk, and it reaches the relays under HIS signature or not at all. Nothing " ++
        "standing lets an agent sign — that is the doctrine, not a setting. To publish directly, " ++
        "pass the `approval` event id he gives you for THIS message; there is no flag that turns " ++
        "this off.")
    | some approval =>
      if ¬ isHex64 approval then .refuse
        ("approval must be the 64-hex id of an approval event. A malformed approval is refused, " ++
          "not downgraded to a draft — a caller with a broken token should hear about it.")
      else .publish ("approval " ++ String.ofList (approval.toList.take 12) ++
        "… supplied for this call")

def draftScopeName (tool seed : String) : String :=
  "draft:" ++ (if tool = "nvoy_dm_send" then "dm" else "post") ++ "/" ++
    String.ofList (seed.toList.take 8)

def tapAudit (tool : String) (decision : TapDecision) : String :=
  "tap: " ++ tool ++ " → " ++ decision.mode ++ " — " ++ decision.why

/-- Whose desk a draft belongs on: that of the one publisher of the grants the agent holds. -/
def resolveDraftGrantee (publishers : List String) : Except String String :=
  match (JsSet.ofList (publishers.filter isHex64)).items with
  | [grantee] => .ok grantee
  | [] => .error ("this agent holds no grant, so there is no delegator whose desk a draft " ++
      "belongs on. Use nvoy_draft_publish and name the grantee, or obtain an approval for this " ++
      "call.")
  | unique => .error ("this agent holds grants from " ++ toString unique.length ++
      " delegators, so which desk this draft belongs on is not derivable — offering it to the " ++
      "wrong one would disclose the message to someone who should not see it. Use " ++
      "nvoy_draft_publish and name the grantee explicitly.")

/-! ### The tools -/

/-- The unsigned kind 14 event inside a direct message. -/
structure Rumor where
  pubkey : String
  createdAt : Int
  tags : List (List String)
  content : String

/-- The server's identity and the library calls its tools rest on. -/
structure Agent where
  host : Host
  pubkey : String
  /-- `NVOY_DM_CC`, where it names a key. -/
  dmCc : Option String
  /-- `nip19.decode`: the type and the data. -/
  decode : String → Except String (String × String)
  npubEncode : String → String
  /-- `nip44Encrypt` of the rumor with its id. -/
  encrypt : String → Rumor → String

/-- What the awaits of one call answer. -/
structure Answers where
  now : Int
  backdated : Int
  seed : String
  /-- The event that was replied to, if the relay has it. -/
  parent : Option Event
  /-- The publishers of the held grants. -/
  held : Except String (List String)
  drafts : Except String Unit
  signer : Except String Unit
  relay : Except String Unit

/-- What a call asks of others, in order. -/
inductive Act where
  | audit (line : String)
  | offer (grantee : String) (payload : Json) (scopeName : String)
  | sign (event : Template)
  | publish (event : Template)
  | publishWrap (recipient : String) (sealed : Template)

inductive Reply where
  | error (code message : String)
  | threw (message : String)
  | drafted (notice : String)
  | posted (approval : Option String)
  | sent (recipient : String) (approval : Option String)

structure PostArgs where
  content : String
  replyTo : Option String
  approval : Option String

structure DmArgs where
  recipient : String
  message : String
  replyTo : Option String
  approval : Option String

/-- A text that is there and not empty. -/
def truthy (text : Option String) : Option String := text.filter (· ≠ "")

def toHex (agent : Agent) (pubkeyOrNpub : String) : Except String String := do
  let s := trim pubkeyOrNpub
  if isHex64 (lowerAscii s) then return lowerAscii s
  let (type, data) ← agent.decode s
  if type ≠ "npub" then throw ("expected npub1... or 64-char hex pubkey, got " ++ type)
  return data

/-- The thread tags of a note: the root is carried forward from the parent. -/
def threadTags (replyTo : Option String) (parent : Option Event) :
    Except String (List (List String)) :=
  match truthy replyTo with
  | none => .ok []
  | some reply =>
    if ¬ isHex64 (lowerAscii reply) then .error "reply_to must be a 64-hex event id"
    else
      let id := lowerAscii reply
      let tags := (parent.map (·.tags)).getD []
      let ofRoot := (tags.find? fun t => t[0]? = some "e" ∧ t[3]? = some "root").bind (·[1]?)
      let first := (tags.find? fun t => t[0]? = some "e").bind (·[1]?)
      let root := (truthy (ofRoot.or first)).filter (· ≠ id)
      .ok ((root.toList.map fun root => ["e", root, "", "root"]) ++
        [["e", id, "", if root.isSome then "reply" else "root"]] ++
        ((truthy (parent.map (·.pubkey))).toList.map fun author => ["p", author]))

def textOrNull (text : Option String) : Json := (text.map Json.str).getD .null

/-- The draft path of both tools. -/
def offerDraft (answers : Answers) (tool notice : String) (payload : Json) : List Act × Reply :=
  match answers.held with
  | .error message => ([], .threw message)
  | .ok publishers =>
    match resolveDraftGrantee publishers with
    | .error why => ([], .error "NVOY_NO_DESK" (notice ++ "\n\n" ++ why))
    | .ok grantee =>
      ([.offer grantee payload (draftScopeName tool answers.seed)],
        match answers.drafts with
        | .error message => .threw message
        | .ok _ => .drafted notice)

/-- The signed path of `nvoy_chat_post`. -/
def publishNote (answers : Answers) (args : PostArgs) (tags : List (List String)) :
    List Act × Reply :=
  match answers.signer with
  | .error message => ([], .threw message)
  | .ok _ =>
    let event : Template := ⟨1, answers.now, args.content, tags⟩
    ([.sign event, .publish event],
      match answers.relay with
      | .error message => .threw message
      | .ok _ => .posted args.approval)

/-- What both tools do with the decision: a line for the log, then a refusal, or the call's other
input is read and the text is offered or signed. -/
def behindTap {α : Type} (tool : String) (tap : TapDecision) (input : Except String α)
    (draft : String → α → List Act × Reply) (publish : α → List Act × Reply) : List Act × Reply :=
  let result := match tap, input with
    | .refuse why, _ => ([], Reply.error "NVOY_BAD_APPROVAL" why)
    | _, .error message => ([], Reply.error "NVOY_BAD_INPUT" message)
    | .draft _ notice, .ok read => draft notice read
    | .publish _, .ok read => publish read
  (.audit (tapAudit tool tap) :: result.1, result.2)

/-- `nvoy_chat_post` -/
def chatPost (answers : Answers) (args : PostArgs) : List Act × Reply :=
  behindTap "nvoy_chat_post" (decideTap "nvoy_chat_post" args.approval)
    (threadTags args.replyTo answers.parent)
    (fun notice _ => offerDraft answers "nvoy_chat_post" notice
      (.obj [("text", .str args.content), ("reply_to", textOrNull args.replyTo)]))
    (publishNote answers args)

/-- The seal of `sealAndWrap`, which the identity key signs. -/
def sealOf (agent : Agent) (answers : Answers) (recipient message : String)
    (replyTo : Option String) : Template :=
  let tags := ["p", recipient] :: (truthy replyTo).toList.map fun id => ["e", id, "", "reply"]
  ⟨13, answers.backdated, agent.encrypt recipient ⟨agent.pubkey, answers.now, tags, message⟩, []⟩

/-- The signed path of `nvoy_dm_send`: the message, the agent's own copy and the operator's. -/
def sendWraps (agent : Agent) (answers : Answers) (args : DmArgs) (recipient : String)
    (replyTo : Option String) : List Act × Reply :=
  let sealTo := fun key => sealOf agent answers key args.message replyTo
  match answers.signer with
  | .error message => ([], .threw message)
  | .ok _ =>
    let first : List Act := [.sign (sealTo recipient), .sign (sealTo agent.pubkey),
      .publishWrap recipient (sealTo recipient)]
    match answers.relay with
    | .error message => (first, .threw message)
    | .ok _ =>
      let copy := (agent.dmCc.filter fun cc => cc ≠ recipient ∧ cc ≠ agent.pubkey).toList.flatMap
        fun cc => [Act.sign (sealTo cc), Act.publishWrap cc (sealTo cc)]
      (first ++ [.publishWrap agent.pubkey (sealTo agent.pubkey)] ++ copy,
        .sent (agent.npubEncode recipient) args.approval)

/-- `nvoy_dm_send` -/
def dmSend (agent : Agent) (answers : Answers) (args : DmArgs) : List Act × Reply :=
  let replyTo := (truthy args.replyTo).map agent.host.toLowerCase
  behindTap "nvoy_dm_send" (decideTap "nvoy_dm_send" args.approval) (toHex agent args.recipient)
    (fun notice recipient => offerDraft answers "nvoy_dm_send" notice
      (.obj [("text", .str args.message), ("dm_to", .str (agent.npubEncode recipient)),
        ("reply_to", textOrNull replyTo)]))
    (fun recipient => sendWraps agent answers args recipient replyTo)

/-! ### When a call signs -/

/-- The signer was asked to sign the agent's own act. -/
def Act.Signs : Act → Bool
  | .sign _ => true
  | _ => false

def signs (result : List Act × Reply) : Bool := result.1.any Act.Signs

section Signs

variable {agent : Agent} {answers : Answers} {tool notice why : String} {approval : Option String}

/-- The tap opens for every text of 64 hex digits, and for nothing else. -/
theorem decideTap_publish (needs : tool ∈ NEEDS_TAP) :
    (∃ why, decideTap tool approval = .publish why) ↔
      ∃ id, approval = some id ∧ isHex64 id = true := by
  unfold decideTap
  rw [if_neg (not_not.mpr (List.contains_iff_mem.mpr needs))]
  split
  next => simp
  next =>
    have blank : isHex64 "" = false := by decide
    simp [blank]
  next id _ =>
    by_cases hex : isHex64 id = true
    · rw [if_neg (not_not.mpr hex)]
      exact iff_of_true ⟨_, rfl⟩ ⟨id, rfl, hex⟩
    · rw [if_pos hex]
      refine iff_of_false (fun ⟨_, same⟩ => by cases same) fun ⟨other, same, isHex⟩ => ?_
      exact hex (Option.some.inj same ▸ isHex)

/-- A call signs where the tap opens, the input is read and the signed path signs. -/
theorem signs_behindTap {α : Type} {tap : TapDecision} {input : Except String α}
    {draft : String → α → List Act × Reply} {publish : α → List Act × Reply} {Works : Prop}
    (offers : ∀ notice read, signs (draft notice read) = false)
    (works : ∀ read, signs (publish read) = true ↔ Works) :
    signs (behindTap tool tap input draft publish) = true ↔
      (∃ why, tap = .publish why) ∧ (∃ read, input = .ok read) ∧ Works := by
  have blank : ∀ reply, ¬ signs (([] : List Act), reply) = true := fun _ => Bool.false_ne_true
  change signs (match tap, input with
    | .refuse why, _ => ([], Reply.error "NVOY_BAD_APPROVAL" why)
    | _, .error message => ([], Reply.error "NVOY_BAD_INPUT" message)
    | .draft _ notice, .ok read => draft notice read
    | .publish _, .ok read => publish read) = true ↔ _
  cases tap with
  | refuse why => exact iff_of_false (blank _) fun ⟨⟨_, same⟩, _⟩ => by cases same
  | draft why notice =>
      refine iff_of_false ?_ fun ⟨⟨_, same⟩, _⟩ => by cases same
      cases input with
      | error message => exact blank _
      | ok read => simpa using offers notice read
  | publish why =>
      cases input with
      | error message => exact iff_of_false (blank _) fun ⟨_, ⟨_, same⟩, _⟩ => by cases same
      | ok read => simpa using works read

theorem signs_offerDraft {payload : Json} :
    signs (offerDraft answers tool notice payload) = false := by
  unfold offerDraft
  split
  · rfl
  · split <;> rfl

theorem signs_publishNote {args : PostArgs} {tags : List (List String)} :
    signs (publishNote answers args tags) = true ↔ answers.signer = .ok () := by
  unfold publishNote
  cases held : answers.signer with
  | error message => exact iff_of_false Bool.false_ne_true (by simp)
  | ok done => exact iff_of_true rfl rfl

theorem signs_sendWraps {args : DmArgs} {recipient : String} {replyTo : Option String} :
    signs (sendWraps agent answers args recipient replyTo) = true ↔ answers.signer = .ok () := by
  unfold sendWraps
  cases held : answers.signer with
  | error message => exact iff_of_false Bool.false_ne_true (by simp)
  | ok done =>
      refine iff_of_true ?_ rfl
      cases answers.relay <;> rfl

/-- The thread of a note can be read unless the id replied to is malformed. -/
theorem threadTags_ok {replyTo : Option String} {parent : Option Event} :
    (∃ tags, threadTags replyTo parent = .ok tags) ↔
      ∀ reply ∈ truthy replyTo, isHex64 (lowerAscii reply) = true := by
  unfold threadTags
  cases truthy replyTo with
  | none => simp
  | some reply =>
      dsimp only
      by_cases hex : isHex64 (lowerAscii reply) = true
      · exact iff_of_true ⟨_, if_neg (not_not.mpr hex)⟩ (by simpa using hex)
      · rw [if_pos hex]
        exact iff_of_false (fun ⟨_, same⟩ => by cases same) (by simpa using hex)

end Signs

/-! ### Runs of calls -/

/-- What an approval is given for. -/
structure Message where
  tool : String
  text : String
  recipient : Option String
  parent : Option String
  deriving DecidableEq

inductive Call where
  | post (answers : Answers) (args : PostArgs)
  | dm (answers : Answers) (args : DmArgs)

/-- A signature under the agent's key: the approval of its call, and what was signed. -/
structure Signed where
  approval : Option String
  message : Message
  deriving DecidableEq

/-- The approval events that exist, by id, and who delegates to the agent. -/
structure World where
  approvals : String → Option (String × Message)
  delegators : List String

section Runs

variable (agent : Agent) (world : World)

def Call.result : Call → List Act × Reply
  | .post answers args => chatPost answers args
  | .dm answers args => dmSend agent answers args

def Call.signed : Call → Signed
  | .post _ args => ⟨args.approval,
      ⟨"nvoy_chat_post", args.content, none, (truthy args.replyTo).map lowerAscii⟩⟩
  | .dm _ args => ⟨args.approval, ⟨"nvoy_dm_send", args.message,
      (toHex agent args.recipient).toOption, (truthy args.replyTo).map agent.host.toLowerCase⟩⟩

/-- The other arguments can be read, and the signer answers. -/
def Call.Ready : Call → Prop
  | .post answers args => (∀ reply ∈ truthy args.replyTo, isHex64 (lowerAscii reply) = true) ∧
      answers.signer = .ok ()
  | .dm answers args => (∃ recipient, toHex agent args.recipient = .ok recipient) ∧
      answers.signer = .ok ()

/-- The approval of the call has the form of an event id. -/
def Call.Tapped (call : Call) : Prop :=
  ∃ id, (call.signed agent).approval = some id ∧ isHex64 id = true

/-- The signatures so far. -/
def record (log : List Signed) (call : Call) : List Signed :=
  if signs (call.result agent) then log ++ [call.signed agent] else log

/-- The approval exists, a delegator signed it, and it was given for exactly this message. -/
def Genuine (signed : Signed) : Prop :=
  ∃ id approver, signed.approval = some id ∧ world.approvals id = some (approver, signed.message) ∧
    approver ∈ world.delegators

/-- Every signature has its approval, and no approval is used for two messages. -/
def Approved (log : List Signed) : Prop :=
  (∀ signed ∈ log, Genuine world signed) ∧
    ∀ one ∈ log, ∀ other ∈ log, one.approval = other.approval → one.message = other.message

variable {agent world}

theorem call_signs {call : Call} :
    signs (call.result agent) = true ↔ call.Tapped agent ∧ call.Ready agent := by
  cases call with
  | post answers args =>
      have tapped : (∃ why, decideTap "nvoy_chat_post" args.approval = .publish why) ↔
          (Call.post answers args).Tapped agent := decideTap_publish (by decide)
      rw [Call.Ready, ← tapped, ← threadTags_ok]
      exact signs_behindTap (fun _ _ => signs_offerDraft) fun _ => signs_publishNote
  | dm answers args =>
      have tapped : (∃ why, decideTap "nvoy_dm_send" args.approval = .publish why) ↔
          (Call.dm answers args).Tapped agent := decideTap_publish (by decide)
      rw [Call.Ready, ← tapped]
      exact signs_behindTap (fun _ _ => signs_offerDraft) fun _ => signs_sendWraps

/-- One call adds its signature if it makes one. -/
theorem mem_record {log : List Signed} {call : Call} {signed : Signed} :
    signed ∈ record agent log call ↔
      signed ∈ log ∨ signs (call.result agent) = true ∧ signed = call.signed agent := by
  unfold record
  by_cases asked : signs (call.result agent) = true
  · simp [asked]
  · simp [asked]

/-- The signatures of a run are those of its calls. -/
theorem mem_run {log : List Signed} {calls : List Call} {signed : Signed} :
    signed ∈ Runs.run (record agent) log calls ↔
      signed ∈ log ∨ ∃ call ∈ calls,
        signs (call.result agent) = true ∧ signed = call.signed agent := by
  induction calls generalizing log with
  | nil => simp
  | cons call calls ih =>
      rw [Runs.run_cons, ih, mem_record, List.exists_mem_cons_iff, or_assoc]

/-- Approvals that exist are each given for one message. -/
theorem Genuine.same {one other : Signed} (first : Genuine world one)
    (second : Genuine world other) (same : one.approval = other.approval) :
    one.message = other.message := by
  obtain ⟨id, approver, uses, holds, -⟩ := first
  obtain ⟨id', approver', uses', holds', -⟩ := second
  obtain rfl : id = id' := Option.some.inj (uses.symm.trans (same.trans uses'))
  exact (Prod.mk.inj (Option.some.inj (holds.symm.trans holds'))).2

end Runs

/-- **The gate reads the form of an approval and no more**: the signatures of a run are approved
exactly if the callers saw to it. -/
theorem approval_gate (agent : Agent) (world : World) (calls : List Call) :
    Approved world (Runs.run (record agent) [] calls) ↔
      ∀ call ∈ calls, call.Tapped agent → call.Ready agent → Genuine world (call.signed agent) := by
  constructor
  · intro approved call mem tapped ready
    exact approved.1 _ (mem_run.mpr (.inr ⟨call, mem, call_signs.mpr ⟨tapped, ready⟩, rfl⟩))
  · intro genuine
    have all : ∀ signed ∈ Runs.run (record agent) [] calls, Genuine world signed := by
      intro signed mem
      rcases mem_run.mp mem with none | ⟨call, listed, asked, rfl⟩
      · cases none
      · obtain ⟨tapped, ready⟩ := call_signs.mp asked
        exact genuine call listed tapped ready
    exact ⟨all, fun one isOne other isOther same => (all one isOne).same (all other isOther) same⟩

/-! ### An approval that was made up -/

/-- A post that carries this approval. -/
def postWith (content : String) (id : String) : Call :=
  .post ⟨0, 0, "", none, .ok [], .ok (), .ok (), .ok ()⟩ ⟨content, none, some id⟩

theorem postWith_ready (agent : Agent) (content id : String) :
    (postWith content id).Ready agent := by
  refine ⟨fun reply listed => ?_, rfl⟩
  cases listed

/-- **No set of approvals makes every run one of approved signatures**: two posts share an id. -/
theorem one_approval_two_posts (agent : Agent) (world : World) {id : String}
    (hex : isHex64 id = true) :
    ¬ Approved world (Runs.run (record agent) [] [postWith "yes" id, postWith "no" id]) := by
  rw [approval_gate]
  intro genuine
  have first := genuine (postWith "yes" id) List.mem_cons_self ⟨id, rfl, hex⟩ (postWith_ready _ _ _)
  have second := genuine (postWith "no" id) (by simp) ⟨id, rfl, hex⟩ (postWith_ready _ _ _)
  have same : "yes" = "no" := congrArg Message.text (first.same second rfl)
  exact absurd same (by decide)

def sampleAgent : Agent where
  host := Host.sample
  pubkey := String.ofList (List.replicate 64 'a')
  dmCc := none
  decode _ := .error "Unknown letter"
  npubEncode text := text
  encrypt _ rumor := rumor.content

/-- **An approval the caller made up publishes**: nothing was approved, and the note is signed. -/
theorem made_up_approval :
    ¬ Approved ⟨fun _ => none, []⟩ (Runs.run (record sampleAgent) []
      [postWith "hello" (String.ofList (List.replicate 64 '0'))]) := by
  rw [approval_gate]
  intro genuine
  obtain ⟨id, approver, -, holds, -⟩ := genuine _ List.mem_cons_self
    ⟨String.ofList (List.replicate 64 '0'), rfl, by decide⟩ (postWith_ready _ _ _)
  cases holds

end Nvoy.Mcp
