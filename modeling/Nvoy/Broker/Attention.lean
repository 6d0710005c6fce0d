/-
**What the broker asks before it acts**: `attention.mjs` in the two forms the broker runs it in, with
`verifyInboxEnvelope` of `inbox_envelope.mjs` under them.

* `verifyInboxEnvelope` — that a wrap, its seal and its rumor belong together;
* `attention` — `--json --envelope`: the policy from the grants, and the one message judged by it;
* `policyOnly` — `--policy-only`: the policy alone;
* `report_of_none`, `report_of_admitted`, `report_of_data` — the report of one message: none that was
  read, one action, or data and perhaps a notice;
* `held_of_live` — a grant the policy holds is of a configured grantor and has the id of an event.
-/

import Nvoy.Admission.Invocation
import Nvoy.Admission.Soundness
import Nvoy.Broker.AdmittedTask

namespace Nvoy.Broker

open Admission
open Memory (lowerAscii)

/-! ### One opened wrap -/

/-- The kind 14 in a seal. -/
structure Rumor where
  id : String
  pubkey : String
  /-- A number. -/
  createdAt : Json
  kind : Int
  tags : List (List String)
  content : String

/-- What a wrap opens to. -/
structure Opened where
  /-- `seal` -/
  sealed : Event
  rumor : Rumor

/-- A message that was authenticated. -/
structure Mail where
  sender : String
  /-- `at`, a number. -/
  sentAt : Json
  content : String

def Mail.message (mail : Mail) : Message :=
  ⟨mail.sender, toNumber mail.sentAt, mail.content, none, none⟩

/-- `JSON.stringify` of a number: one past the range of a double is `Infinity`, and `null`. -/
def printed (value : Json) : Json := if (toNumber value).isSome then value else .null

section Reading

variable (host : Host) (getEventHash : Rumor → Option String)

/-- `verifyInboxEnvelope`. Objects of another shape do not open. -/
def verifyInboxEnvelope (recipient : String) (wrap : Event) (opened : Opened) : Option Mail :=
  let sealed := opened.sealed
  let rumor := opened.rumor
  let recipients := wrap.tagValues "p"
  if isHex64 (lowerAscii recipient) && wrap.kind = 1059 && host.verifyEvent wrap &&
      recipients.length = 1 &&
      recipients.all (fun named => lowerAscii (named.getD "") = lowerAscii recipient) &&
      sealed.kind = 13 && host.verifyEvent sealed && rumor.kind = 14 &&
      rumor.pubkey = sealed.pubkey &&
      isHex64 rumor.id && (utf8 rumor.content).length ≤ 256 * 1024 &&
      getEventHash rumor = some rumor.id then
    some ⟨sealed.pubkey, rumor.createdAt, rumor.content⟩
  else none

/-! ### What attention is answered -/

/-- The relays' answers, and what the signer makes of the wraps. -/
structure Answers where
  nowSec : Int
  /-- The grant events of all relays. -/
  grantEvents : List Event
  relaysAnswered : Nat
  /-- The kind 1059 of all relays. -/
  wraps : List Event
  /-- The seal and the rumor, where both could be decrypted and read. -/
  openWrap : Event → Option Opened

variable (scopeHash : String → String → String) (manifest : Manifest)

/-- `foldGrants` of the answers. -/
def Answers.folded (answers : Answers) (me : String) : Folded :=
  foldGrantsWith host ⟨me, manifest.grantors, scopeHash⟩ answers.nowSec answers.grantEvents

/-- `NVOY_TASK_CARRIERS`, read back: the channels of a carrier. -/
def Manifest.carrierChannels (manifest : Manifest) (pubkey : String) : List String :=
  ((manifest.carriers.find? (·.pubkey = pubkey)).map (·.channels)).getD []

def policyOf (folded : Folded) (answered : Nat) : Policy where
  policyUsable := decide (0 < answered)
  taskGrantFor pk := (liveAt folded.live pk "task+act").or (liveAt folded.live pk "task")
  relayGrantFor pk := liveAt folded.live pk "task-relay"
  carrierChannels := manifest.carrierChannels

/-- The policy of the answers. -/
def Answers.policy (answers : Answers) (me : String) : Policy :=
  policyOf manifest (answers.folded host scopeHash manifest me) answers.relaysAnswered

/-- The beginning of the window of messages: `--since-min 240`. -/
def Answers.since (answers : Answers) : Int := answers.nowSec - 240 * 60

/-- The wrap of an envelope: of copies of one id, the last. -/
def Answers.wrapOf (answers : Answers) (envelope : String) : Option Event :=
  (answers.wraps.filter (·.id = envelope)).getLast?

/-- A message before the window, and one from this identity, is passed over. -/
def Answers.inWindow (answers : Answers) (me : String) (mail : Mail) : Bool :=
  !((toNumber mail.sentAt).any fun sentAt => sentAt < (answers.since : ℚ)) && mail.sender ≠ me

/-- The message of an envelope, if it was returned, opens and counts. -/
def Answers.mailOf (answers : Answers) (me envelope : String) : Option Mail := do
  let wrap ← answers.wrapOf envelope
  let opened ← answers.openWrap wrap
  let mail ← verifyInboxEnvelope host getEventHash me wrap opened
  if answers.inWindow me mail then some mail else none

/-! ### The two reports -/

/-- An actionable message, as it is printed. -/
def messageJson (mail : Mail) (item : Item) : Json :=
  match item.admission.carried with
  | none => .obj [("from", .str item.message.sender), ("at", printed mail.sentAt),
      ("content", .str item.message.content)]
  | some _ => .obj [("from", .str item.message.sender),
      ("at", printed (.num (item.message.sentAt.getD 0).num 0)),
      ("content", .str item.message.content), ("event_id", .str (item.message.eventId.getD "")),
      ("kind", .num (item.message.kind.getD 0) 0)]

structure Report where
  me : String
  policyUsable : Bool
  actionable : List Json
  admissions : List Admission
  notifications : List Notice
  /-- The senders of what is heard as data only. -/
  dataOnly : List String

/-- `--json --envelope` -/
def attention (answers : Answers) (me envelope : String) : Report :=
  let policy := answers.policy host scopeHash manifest me
  let mails := (answers.mailOf host getEventHash me envelope).toList
  let parts := partitionInvocations host policy (mails.map Mail.message)
  let admittedRaw := parts.admitted.filterMap (·.message.eventId)
  { me := me
    policyUsable := policy.policyUsable
    actionable := mails.flatMap fun mail => parts.admitted.map (messageJson mail)
    admissions := parts.admissions
    notifications := (verifiedChannelNotifications host policy parts.dataOnly).filter
      fun notice => !admittedRaw.contains notice.sourceEvent
    dataOnly := parts.dataOnly.map (·.sender) }

/-- A live grant in the policy report. -/
structure PolicyGrant where
  pubkey : String
  cap : String
  grantId : String
  grantor : String

structure PolicyReport where
  me : String
  policyUsable : Bool
  grants : List PolicyGrant

/-- `--policy-only` -/
def policyOnly (answers : Answers) (me : String) : PolicyReport where
  me := me
  policyUsable := decide (0 < answers.relaysAnswered)
  grants := (answers.folded host scopeHash manifest me).live.entries.flatMap fun entry =>
    entry.2.values.map fun grant => ⟨entry.1, grant.cap, grant.grantId, grant.grantor⟩

end Reading

/-! ### What the policy holds -/

section Held

variable {host : Host} {scopeHash : String → String → String} {manifest : Manifest}
  {answers : Answers} {me pubkey cap : String} {grant : Grant}

/-- `toLowerCase` leaves a key as it is. -/
def LowersHex (host : Host) : Prop := ∀ text, isHex64 text = true → host.toLowerCase text = text

theorem grantor_mem {author : String} (lower : LowersHex host)
    (by' : isGrantor host ⟨me, manifest.grantors, scopeHash⟩ author = true) :
    author ∈ manifest.grantors := by
  obtain ⟨grantor, listed, same⟩ := List.mem_map.mp (List.contains_iff_mem.mp by')
  rw [lower grantor (manifest.isHex64_grantors grantor listed)] at same
  exact same ▸ listed

/-- **A live grant** is of a configured grantor, and its id is the id of an event. -/
theorem held_of_live (lower : LowersHex host)
    (live : liveAt (answers.folded host scopeHash manifest me).live pubkey cap = some grant) :
    grant.grantor ∈ manifest.grantors ∧ isHex64 grant.grantId = true ∧ grant.cap = cap := by
  rcases (liveAt_eq_some _).mp live with own | ⟨-, s, own, voiced, -, rfl⟩
  · obtain ⟨ev, -, task, rfl⟩ := exists_taskGrant own
    exact ⟨grantor_mem lower task.byGrantor, host.verifyEvent_id task.verified, rfl⟩
  · obtain ⟨ev, -, shadow, id⟩ := exists_shadowGrant voiced
    refine ⟨?_, ?_, rfl⟩
    · rw [← shadow.signed]
      exact grantor_mem lower shadow.byGrantor
    · show isHex64 s.grantId = true
      rw [id]
      exact host.verifyEvent_id shadow.verified

variable {answered : Nat}

theorem held_of_taskGrant (lower : LowersHex host)
    (held : (policyOf manifest (answers.folded host scopeHash manifest me) answered).taskGrantFor
      pubkey = some grant) :
    grant.grantor ∈ manifest.grantors ∧ isHex64 grant.grantId = true := by
  rcases Option.or_eq_some_iff.mp held with act | ⟨-, task⟩
  · exact ⟨(held_of_live lower act).1, (held_of_live lower act).2.1⟩
  · exact ⟨(held_of_live lower task).1, (held_of_live lower task).2.1⟩

theorem held_of_relayGrant (lower : LowersHex host)
    (held : (policyOf manifest (answers.folded host scopeHash manifest me) answered).relayGrantFor
      pubkey = some grant) :
    grant.grantor ∈ manifest.grantors ∧ isHex64 grant.grantId = true :=
  ⟨(held_of_live lower held).1, (held_of_live lower held).2.1⟩

end Held

/-! ### The report of one message -/

section Reports

variable {host : Host} {getEventHash : Rumor → Option String}
  {scopeHash : String → String → String} {manifest : Manifest} {answers : Answers}
  {me envelope : String} {mail : Mail} {item : Item}

theorem report_of_none (unread : answers.mailOf host getEventHash me envelope = none) :
    attention host getEventHash scopeHash manifest answers me envelope =
      ⟨me, (answers.policy host scopeHash manifest me).policyUsable, [], [], [], []⟩ := by
  have parts := partition_eq host (answers.policy host scopeHash manifest me) []
  unfold attention partitionInvocations at *
  simp [unread, notifications_eq]

/-- The one message is admitted. -/
theorem report_of_admitted (read : answers.mailOf host getEventHash me envelope = some mail)
    (admitted : verdict host (answers.policy host scopeHash manifest me) mail.message = some item) :
    attention host getEventHash scopeHash manifest answers me envelope =
      ⟨me, (answers.policy host scopeHash manifest me).policyUsable, [messageJson mail item],
        [item.admission], [], []⟩ := by
  obtain ⟨items, dataOnly⟩ :=
    partition_eq host (answers.policy host scopeHash manifest me) [mail.message]
  have admissions : (partitionInvocations host (answers.policy host scopeHash manifest me)
      [mail.message]).admissions = [item.admission] := by
    show (partitionInvocations host (answers.policy host scopeHash manifest me)
      [mail.message]).admitted.map (·.admission) = _
    rw [items]
    simp [admitted]
  unfold attention
  simp only [read, Option.toList_some, List.map_cons, List.map_nil, admissions, items, dataOnly,
    notifications_eq]
  simp [admitted]

/-- The one message is data. -/
theorem report_of_data (read : answers.mailOf host getEventHash me envelope = some mail)
    (unasked : verdict host (answers.policy host scopeHash manifest me) mail.message = none) :
    attention host getEventHash scopeHash manifest answers me envelope =
      ⟨me, (answers.policy host scopeHash manifest me).policyUsable, [], [],
        (word host (answers.policy host scopeHash manifest me) mail.message).toList,
        [mail.sender]⟩ := by
  obtain ⟨items, dataOnly⟩ :=
    partition_eq host (answers.policy host scopeHash manifest me) [mail.message]
  have none' : (partitionInvocations host (answers.policy host scopeHash manifest me)
      [mail.message]).admitted = [] := by
    rw [items]
    simp [unasked]
  have heard : (partitionInvocations host (answers.policy host scopeHash manifest me)
      [mail.message]).dataOnly = [mail.message] := by
    rw [dataOnly]
    simp [unasked]
  have admissions : (partitionInvocations host (answers.policy host scopeHash manifest me)
      [mail.message]).admissions = [] := by
    show (partitionInvocations host (answers.policy host scopeHash manifest me)
      [mail.message]).admitted.map (·.admission) = _
    rw [none']
    rfl
  have words : ([mail.message].filterMap
      (word host (answers.policy host scopeHash manifest me))).filter
        (fun notice => !([] : List String).contains notice.sourceEvent) =
      (word host (answers.policy host scopeHash manifest me) mail.message).toList := by
    cases said : word host (answers.policy host scopeHash manifest me) mail.message with
    | none => simp [said]
    | some notice => simp [said]
  unfold attention
  simp only [read, Option.toList_some, List.map_cons, List.map_nil, admissions, none', heard,
    notifications_eq, List.filterMap_nil, words]
  rfl

end Reports

end Nvoy.Broker
