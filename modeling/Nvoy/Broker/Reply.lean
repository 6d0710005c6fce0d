/-
**The reply to a wrapped message**: `instance-broker-reply.mjs`, for receipts of version 1 and 2.

An invocation reads a request and its receipt, asks the live policy again, and then freezes, has
signed, publishes and records one answer. Any number of invocations run at once, each step of each
on its own, and any of them may end between two; what stands at the path of a record may be anything.

* `ticketOf` — the checks of request, receipt and policy, and what the answer is made from;
* `step` — one step of one invocation, or a write of someone else to the records;
* `Guarded`, `Guarded.step` — where each invocation stands, and whose approval opened the signer;
* `approved_replies` — a direct reply is signed only under an approval of exactly its frozen seal;
* `reordered_and_brought` — the approval's tags may stand in another order, and a record that was put
  there may bring a wrap of something else.
-/

import Nvoy.Broker.BuzzNative
import Nvoy.Broker.Outbound
import Nvoy.Lib.Lines
import Nvoy.Lib.Runs
import Nvoy.Lib.Torn
import Mathlib.Logic.Equiv.Basic
import Mathlib.Logic.Function.Basic
import Mathlib.Tactic.Tauto

namespace Nvoy.Broker

open Admission
open Memory (isUuid trim)

/-- What a broker answers with. `K` is the type of one-time keys. -/
structure ReplyHost (K : Type) where
  host : Host
  manifest : Manifest
  getEventHash : Unsigned → String
  sha256 : String → String
  /-- `finalizeEvent` with a one-time key. -/
  finalizeEvent : K → Template → Event
  /-- `nip44.encrypt` for a peer, from a one-time key and a nonce. -/
  encrypt : K → String → String → String → String
  /-- `credentialIn`: a credential that a text gives away. -/
  credentialIn : String → Option String

/-- The actuator an invocation is called with; `none` where the file cannot be read. -/
inductive Mode where
  | prepare
  | direct
  | approval (file : Option (List Char))
  deriving DecidableEq

/-- What one invocation is called with and meets. -/
structure Invoked (K : Type) where
  mode : Mode
  requestId : String
  queue : List Char
  /-- The receipt at its path, claimed or not. -/
  receipt : List Char
  /-- What `attention.mjs` printed, where it ended with 0 or 10. -/
  policy : Option (List Char)
  /-- The clock at the check of the approval, and at the end. -/
  nowMs : Int
  endMs : Int
  /-- The times of the rumor, the seal and the wrap. -/
  rumorAt : Int
  sealedAt : Int
  wrappedAt : Int
  /-- What the signer answers: the encrypted rumor; the signed seal, and what its call leaves of the
  unsigned one. -/
  encrypted : Option String
  signed : Option (Json × Json)
  wrapKey : K
  nonce : String

/-! ### The request and its receipt -/

/-- What a carried receipt adds. -/
structure CarriedFrom where
  carrier : String
  sourceEvent : String
  replyChannel : String

/-- What an answer is made from. -/
structure Ticket where
  digest : String
  content : String
  envelope : String
  sender : String
  carried : Option CarriedFrom

def Ticket.peer (ticket : Ticket) : String := (ticket.carried.map (·.carrier)).getD ticket.sender

def REQUEST_KEYS : List String :=
  ["version", "type", "id", "instance", "receipt", "content", "mention"]

/-- `Number.isFinite(value)` -/
def isFiniteNumber : Option Json → Bool
  | some (.num mantissa exponent) => (toNumber (.num mantissa exponent)).isSome
  | _ => false

section Checks

variable {K : Type} (broker : ReplyHost K)

/-- The row of the request in the queue: the first that can be read. -/
def requestRow (queue : List Char) (requestId : String) : Option Json :=
  ((queue.splitOn '\n').filterMap Json.parse).find? fun row =>
    (row.get "id").bind Json.string = some requestId

def isRequest (request : Json) : Bool :=
  request.isObj && keysWithin request REQUEST_KEYS &&
    (request.get "type").bind Json.string = some "reply-request" &&
    (request.get "instance").bind Json.string = some broker.manifest.id &&
    (request.get "version").bind Json.integer = some 1 && hexField request "receipt" &&
    ((request.get "content").bind Json.string).any fun content =>
      trim content ≠ "" && (utf8 content).length ≤ 4000

/-- The checks every receipt passes. -/
def isReceipt (receipt : Json) (envelope : String) : Bool :=
  ((receipt.get "version").bind Json.integer).any (fun version => 1 ≤ version && version ≤ 3) &&
    (receipt.get "instance").bind Json.string = some broker.manifest.id &&
    (receipt.get "broker").bind Json.string = some broker.manifest.pubkey &&
    (receipt.get "envelope").bind Json.string = some envelope && hexField receipt "sender" &&
    isFiniteNumber (receipt.get "expires_at")

/-- A receipt of version 2: its carrier and channel are configured. -/
def carriedFrom (receipt : Json) : Except String CarriedFrom :=
  require (do
    guard ((receipt.get "mode").bind Json.string = some "channel-carry" &&
      hexField receipt "carrier_grant_id")
    let carrier ← (receipt.get "carrier").bind Json.string
    let replyChannel ← (receipt.get "reply_channel").bind Json.string
    guard (isHex64 carrier && isUuid replyChannel)
    guard (broker.manifest.carriers.any fun entry =>
      entry.pubkey = carrier && entry.channels.contains replyChannel)
    return ⟨carrier, ((receipt.get "source_event").bind Json.string).getD "", replyChannel⟩)
    "channel-carry receipt is not bound to an allowed carrier and channel"

/-- Whom a receipt is from: its sender, or a carrier. Those of version 3 are native. -/
def sourceOf (receipt : Json) : Except String (Option CarriedFrom) :=
  match (receipt.get "version").bind Json.integer with
  | some 1 => .ok none
  | some 2 => some <$> carriedFrom broker receipt
  | _ => .error "native Buzz receipt"

/-- The one message of the policy is the one of the receipt, on the recorded grants. -/
def stillLive (policy receipt : Json) (carried : Bool) : Bool :=
  let same (admission : Json) (key : String) : Bool :=
    strictEq (admission.get key) (receipt.get key)
  isTruthy (policy.get "policyUsable") &&
    match (policy.get "admissions").bind Json.items with
    | some [admission] =>
        strictEq (admission.get "from") (receipt.get "sender") && same admission "grant_id" &&
          (!carried || ((admission.get "mode").bind Json.string = some "channel-carry" &&
            same admission "carrier" && same admission "carrier_grant_id" &&
            same admission "reply_channel" && same admission "source_event"))
    | _ => false

/-- From the arguments to the claim of the receipt. -/
def ticketOf (invoked : Invoked K) : Except String Ticket := do
  ensure (isHex32 invoked.requestId) "usage"
  let request ← require (requestRow invoked.queue invoked.requestId)
    "reply request is not present in this instance queue"
  ensure (isRequest broker request) "reply request has an invalid or overbroad shape"
  let content := patternText request "content"
  objection (broker.credentialIn content) fun leaked => "reply refused: " ++ leaked
  let envelope := patternText request "receipt"
  let receipt ← require (Json.parse invoked.receipt) "admission receipt is invalid"
  ensure (isReceipt broker receipt envelope)
    "admission receipt is not a live broker-bound sender capability"
  let carried ← sourceOf broker receipt
  ensure (request.get "mention").isNone
    "reply refused: mentions are only for a native Buzz channel reply"
  let policy ← require (invoked.policy.bind Json.parse) "live grant policy result is invalid"
  ensure (stillLive policy receipt carried.isSome)
    "admission receipt no longer has a live matching grant chain"
  return ⟨replyRequestDigest broker.sha256 request, content, envelope, patternText receipt "sender",
    carried⟩

end Checks

/-! ### The records -/

def wireOf (ev : Event) : Json :=
  .obj [("kind", .num ev.kind 0), ("created_at", .num ev.createdAt 0),
    ("tags", .arr (ev.tags.map fun tag => .arr (tag.map .str))), ("content", .str ev.content),
    ("pubkey", .str ev.pubkey), ("id", .str ev.id), ("sig", .str ev.sig)]

def frozenOf (u : Unsigned) : Json :=
  .obj [("kind", .num u.kind 0), ("pubkey", .str u.pubkey), ("created_at", .num u.createdAt 0),
    ("tags", .arr (u.tags.map fun tag => .arr (tag.map .str))), ("content", .str u.content)]

/-- Which actuator opens the signer. -/
inductive Enactment where
  | direct
  | approved (approval : OutboundApproval)

section Records

variable {K : Type} (broker : ReplyHost K)

/-- The message in the seal, without its id. -/
def rumorOf (ticket : Ticket) (createdAt : Int) : Unsigned where
  pubkey := broker.manifest.pubkey
  createdAt := createdAt
  kind := 14
  tags := [["p", ticket.peer],
      ["e", (ticket.carried.map (·.sourceEvent)).getD ticket.envelope, "", "reply"]] ++
    ticket.carried.toList.map fun carried => ["relay", carried.replyChannel]
  content := ticket.content

/-- `JSON.stringify(rumor)` -/
def rumorText (ticket : Ticket) (createdAt : Int) : String :=
  let rumor := rumorOf broker ticket createdAt
  Json.stringify (.obj [("kind", .num rumor.kind 0), ("pubkey", .str rumor.pubkey),
    ("created_at", .num rumor.createdAt 0),
    ("tags", .arr (rumor.tags.map fun tag => .arr (tag.map .str))), ("content", .str rumor.content),
    ("id", .str (broker.getEventHash rumor))])

def sealOf (createdAt : Int) (encrypted : String) : Unsigned :=
  ⟨broker.manifest.pubkey, createdAt, 13, [], encrypted⟩

/-- The record of a seal before it is signed. -/
def frozenRecord (requestId : String) (ticket : Ticket) (u : Unsigned) : Json :=
  .obj [("version", .num 2 0), ("request_digest", .str ticket.digest),
    ("request_id", .str requestId), ("fingerprint", .str (broker.getEventHash u)),
    ("unsigned_seal", frozenOf u), ("wrap", .null), ("published", .bool false)]

/-- The wrap of a signed seal. -/
def wrapOf (key : K) (nonce peer : String) (createdAt : Int) (signed : Json) : Json :=
  wireOf (broker.finalizeEvent key ⟨1059, createdAt, broker.encrypt key peer nonce
    (Json.stringify signed), [["p", peer]]⟩)

/-- The signer signed the seal with that fingerprint. -/
def isSigned (fingerprint : Option Json) (signed : Json) : Bool :=
  (wireEvent signed).any fun ev => (fingerprint.bind Json.string) = some ev.id &&
    (fingerprint.bind Json.string) = some (broker.getEventHash (unsigned ev)) &&
    broker.host.verifyEvent ev

def enactedRecord (record left wrap : Json) : Enactment → Json
  | .direct => ((record.put "unsigned_seal" left).put "wrap" wrap).put "enactment"
      (.str "channel-carry-direct")
  | .approved approval => ((record.put "unsigned_seal" left).put "wrap" wrap).put "approval_id"
      (.str approval.eventId)

def publishedRecord (record : Json) (publishedAt : Int) (accepted : Nat) : Json :=
  ((record.put "published" (.bool true)).put "published_at" (.num publishedAt 0)).put "accepted"
    (.num accepted 0)

end Records

/-! ### The machine -/

inductive Phase where
  | reading
  | freezing
  | choosing (record : Json)
  | signing (record : Json) (enactment : Enactment)
  | publishing (record : Json)
  | finishing (record : Json) (accepted : Nat)

/-- An invocation on its way. -/
structure Process (K : Type) where
  invoked : Invoked K
  ticket : Ticket
  phase : Phase

/-- The signer was asked to sign a seal. -/
structure Ask where
  mode : Mode
  requestId : String
  /-- `unsigned_seal` -/
  template : Option Json
  nowMs : Int

/-- A wrap that went to the relays. -/
structure Publication where
  requestId : String
  fingerprint : Option Json
  wrap : Json

structure Outbox (P K : Type) where
  /-- `outbound/<request>.json` -/
  records : String → Option (List UInt8)
  processes : P → Option (Process K)
  asked : List Ask
  published : List Publication
  /-- What others have put at the paths of records. -/
  placed : List (String × List UInt8)

inductive ReplyAction (P K : Type) where
  | start (p : P) (invoked : Invoked K)
  | read (p : P)
  | freeze (p : P)
  | choose (p : P)
  | sign (p : P)
  | publish (p : P) (accepted : Nat)
  /-- The last write, whole or as far as it got. -/
  | finish (p : P) (landed : Option Nat)
  | exit (p : P)
  | place (requestId : String) (bytes : List UInt8)

section Machine

variable {P K : Type} [DecidableEq P] (broker : ReplyHost K)

def MAX_AGE_MS : Int := 5 * 60 * 1000

/-- `Number.MAX_SAFE_INTEGER` -/
def MAX_SAFE_INTEGER : Int := 9007199254740991

/-- The record at the path, where it is one to go on with. -/
def readRecord (requestId digest : String) (bytes : List UInt8) : Option Json :=
  (Json.parse (utf8DecodeFrom .idle bytes)).filter fun record =>
    (validateOutboundRecord broker.host broker.getEventHash record requestId digest).toBool &&
      (record.get "version").bind Json.integer = some 2 && boolField record "published" ≠ some true

/-- The check of the actuator. -/
def actuator (process : Process K) (record : Json) : Except String Enactment :=
  let bound := isTruthy (record.get "approval_id")
  match process.invoked.mode with
  | .prepare => .error "prepared"
  | .direct => do
      ensure process.ticket.carried.isSome ("direct enactment is permitted only for a channel reply; " ++
        "a public event requires a discrete approval")
      ensure (!bound) "this proposal is already bound to an approval and cannot be enacted directly"
      return .direct
  | .approval file => do
      let event ← require (file.bind Json.parse) "approval event is invalid JSON"
      let approval ← verifyOutboundApproval broker.sha256 broker.host broker.getEventHash event
        broker.manifest.id process.invoked.requestId
        (((record.get "fingerprint").bind Json.string).getD "") broker.manifest.grantors
        process.invoked.nowMs (if bound then MAX_SAFE_INTEGER else MAX_AGE_MS)
      ensure (!bound || (record.get "approval_id").bind Json.string = some approval.eventId)
        "outbound proposal is already bound to another approval"
      return .approved approval

/-- The invocation goes on with its next phase, or ends. -/
def goes (state : Outbox P K) (p : P) (process : Process K) (phase : Option Phase) : Outbox P K :=
  { state with
    processes := Function.update state.processes p
      (phase.map fun phase => { process with phase := phase }) }

/-- `writeFileSync` of a temporary file and `renameSync`. -/
def persist (state : Outbox P K) (requestId : String) (record : Json) : Outbox P K :=
  { state with
    records := Function.update state.records requestId (some (utf8 (Json.stringify record))) }

/-- One step of an invocation. -/
def proceed (state : Outbox P K) (p : P) (process : Process K) :
    ReplyAction P K → Outbox P K
  | .read _ =>
    match process.phase with
    | .reading =>
      match state.records process.invoked.requestId with
      | none => goes state p process (some .freezing)
      | some bytes => goes state p process
          ((readRecord broker process.invoked.requestId process.ticket.digest bytes).map .choosing)
    | _ => state
  | .freeze _ =>
    match process.phase with
    | .freezing =>
      match process.invoked.encrypted with
      | none => goes state p process none
      | some encrypted =>
        let record := frozenRecord broker process.invoked.requestId process.ticket
          (sealOf broker process.invoked.sealedAt encrypted)
        goes (persist state process.invoked.requestId record) p process (some (.choosing record))
    | _ => state
  | .choose _ =>
    match process.phase with
    | .choosing record =>
      match actuator broker process record with
      | .error _ => goes state p process none
      | .ok enactment =>
        match present (record.get "wrap") with
        | some _ => goes state p process (some (.publishing record))
        | none =>
          let ask := ⟨process.invoked.mode, process.invoked.requestId, record.get "unsigned_seal",
            process.invoked.nowMs⟩
          goes { state with asked := ask :: state.asked } p process
            (some (.signing record enactment))
    | _ => state
  | .sign _ =>
    match process.phase with
    | .signing record enactment =>
      match process.invoked.signed with
      | none => goes state p process none
      | some (signed, left) =>
        if isSigned broker (record.get "fingerprint") signed then
          let wrap := wrapOf broker process.invoked.wrapKey process.invoked.nonce
            process.ticket.peer process.invoked.wrappedAt signed
          let record := enactedRecord record left wrap enactment
          goes (persist state process.invoked.requestId record) p process (some (.publishing record))
        else goes state p process none
    | _ => state
  | .publish _ accepted =>
    match process.phase with
    | .publishing record =>
      match record.get "wrap" with
      | none => goes state p process none
      | some wrap =>
        let publication := ⟨process.invoked.requestId, record.get "fingerprint", wrap⟩
        goes { state with published := publication :: state.published } p process
          (if accepted = 0 then none else some (.finishing record accepted))
    | _ => state
  | .finish _ landed =>
    match process.phase with
    | .finishing record accepted =>
      let bytes := utf8 (Json.stringify (publishedRecord record process.invoked.endMs accepted))
      let file := some (bytes.take (landed.getD bytes.length))
      let records := Function.update state.records process.invoked.requestId file
      goes { state with records := records } p process none
    | _ => state
  | .exit _ => goes state p process none
  | .start .. | .place .. => state

def ReplyAction.process? : ReplyAction P K → Option P
  | .start p _ | .read p | .freeze p | .choose p | .sign p | .publish p _ | .finish p _ | .exit p =>
    some p
  | .place .. => none

def replyStep (state : Outbox P K) : ReplyAction P K → Outbox P K
  | .place requestId bytes => { state with
      records := Function.update state.records requestId (some bytes)
      placed := (requestId, bytes) :: state.placed }
  | .start p invoked =>
    match state.processes p, ticketOf broker invoked with
    | none, .ok ticket => { state with
        processes := Function.update state.processes p (some ⟨invoked, ticket, .reading⟩) }
    | _, _ => state
  | action =>
    match action.process?.bind fun p => (state.processes p).map fun process => (p, process) with
    | some (p, process) => proceed broker state p process action
    | none => state

/-- Nothing has been persisted, and nothing runs. -/
def Outbox.fresh : Outbox P K := ⟨fun _ => none, fun _ => none, [], [], []⟩

end Machine

/-! ### What the signer was asked for -/

section Statements

variable {P K : Type} (broker : ReplyHost K)

/-- That invocation read an approval of this seal by a grantor, made in time. -/
def Authorized (ask : Ask) : Prop :=
  ∃ file event ev u, ask.mode = .approval (some file) ∧ Json.parse file = some event ∧
    wireEvent event = some ev ∧ ask.template.bind unsignedOf = some u ∧
    Approves broker.sha256 broker.host broker.getEventHash broker.manifest.id ask.requestId
      (broker.getEventHash u) broker.manifest.grantors ask.nowMs MAX_AGE_MS ev

/-- The wrap is one of the signed seal with that fingerprint. -/
def Carries (fingerprint : Option Json) (wrap : Json) : Prop :=
  ∃ signed ev key nonce peer createdAt, wireEvent signed = some ev ∧
    broker.host.verifyEvent ev = true ∧
    fingerprint = some (.str (broker.getEventHash (unsigned ev))) ∧
    wrap = wrapOf broker key nonce peer createdAt signed

/-- A record that was put there had this wrap. -/
def Brought (placed : List (String × List UInt8)) (requestId : String) (wrap : Json) : Prop :=
  ∃ bytes record, (requestId, bytes) ∈ placed ∧
    Json.parse (utf8DecodeFrom .idle bytes) = some record ∧ record.get "wrap" = some wrap

/-- The receipt is of version 1. -/
def OfVersionOne (_ : Outbox P K) : ReplyAction P K → Prop
  | .start _ invoked => ∀ receipt, Json.parse invoked.receipt = some receipt →
      (receipt.get "version").bind Json.integer = some 1
  | _ => True

end Statements

/-! ### Records that are fair -/

section Fairness

variable {K : Type} {broker : ReplyHost K} {placed more : List (String × List UInt8)}
  {requestId : String} {record wrap left : Json}

/-- A wrap in the record carries its seal, or was brought. -/
def Fair (broker : ReplyHost K) (placed : List (String × List UInt8)) (requestId : String)
    (record : Json) : Prop :=
  ∀ wrap, present (record.get "wrap") = some wrap →
    Carries broker (record.get "fingerprint") wrap ∨ Brought placed requestId wrap

theorem get_of_present {value wrap : Json} {key : String}
    (found : present (value.get key) = some wrap) : value.get key = some wrap := by
  cases held : value.get key with
  | none =>
    rw [held] at found
    cases found
  | some other =>
    rw [held] at found
    cases other <;> cases found <;> rfl

theorem Brought.mono (brought : Brought placed requestId wrap) (sub : placed ⊆ more) :
    Brought more requestId wrap := by
  obtain ⟨bytes, record, mem, parsed, has⟩ := brought
  exact ⟨bytes, record, sub mem, parsed, has⟩

theorem Fair.mono (fair : Fair broker placed requestId record) (sub : placed ⊆ more) :
    Fair broker more requestId record := fun wrap has =>
  (fair wrap has).imp_right fun brought => brought.mono sub

/-- Another record with the same wrap and fingerprint. -/
theorem Fair.congr {other : Json} (fair : Fair broker placed requestId record)
    (wraps : other.get "wrap" = record.get "wrap")
    (fingerprints : other.get "fingerprint" = record.get "fingerprint") :
    Fair broker placed requestId other := by
  intro wrap has
  rw [wraps] at has
  rw [fingerprints]
  exact fair wrap has

theorem fair_frozenRecord {ticket : Ticket} {u : Unsigned} :
    Fair broker placed requestId (frozenRecord broker requestId ticket u) := fun _ has => by cases has

theorem frozen_frozenRecord {ticket : Ticket} {u : Unsigned}
    (reads : unsignedOf (frozenOf u) = some u) :
    Frozen broker.getEventHash (frozenRecord broker requestId ticket u) where
  obj := rfl
  frozen := ⟨u, reads, rfl⟩
  unapproved _ := rfl

theorem integer_num (n : Int) : (Json.num n 0).integer = some n := by
  show some (n * 10 ^ 0) = some n
  rw [pow_zero, mul_one]

theorem unsignedOf_sealOf (createdAt : Int) (encrypted : String) :
    unsignedOf (frozenOf (sealOf broker createdAt encrypted)) =
      some (sealOf broker createdAt encrypted) := by
  simp [unsignedOf, frozenOf, sealOf, Json.get, Json.string, tagsOf, Json.items, integer_num]

theorem get_enactedRecord {enactment : Enactment} (obj : record.isObj = true) :
    (enactedRecord record left wrap enactment).isObj = true ∧
      (enactedRecord record left wrap enactment).get "wrap" = some wrap ∧
      (enactedRecord record left wrap enactment).get "fingerprint" = record.get "fingerprint" := by
  cases enactment with
  | direct | approved approval =>
    unfold enactedRecord
    dsimp only
    refine ⟨by simpa using obj, ?_, ?_⟩
    · rw [Json.get_put_of_ne (by decide), Json.get_put_self (by simpa using obj)]
    · rw [Json.get_put_of_ne (by decide), Json.get_put_of_ne (by decide),
        Json.get_put_of_ne (by decide)]

theorem get_publishedRecord {key : String} {publishedAt : Int} {accepted : Nat}
    (other : key ≠ "published" ∧ key ≠ "published_at" ∧ key ≠ "accepted") :
    (publishedRecord record publishedAt accepted).get key = record.get key := by
  unfold publishedRecord
  rw [Json.get_put_of_ne other.2.2, Json.get_put_of_ne other.2.1, Json.get_put_of_ne other.1]

theorem parse_persisted (record : Json) :
    Json.parse (utf8DecodeFrom .idle (utf8 (Json.stringify record))) = some record := by
  have decoded := congrArg String.toList (utf8Decode_utf8 (Json.stringify record))
  rw [utf8Decode, String.toList_ofList] at decoded
  rw [decoded]
  exact Json.parse_stringify record

theorem isObj_iff {value : Json} : value.isObj = true ↔ ∃ fields, value = .obj fields := by
  cases value <;> simp [Json.isObj]

/-- What is read back of a write that was cut off: the record, or no object. -/
theorem parse_landed {record other : Json} (obj : record.isObj = true) {landed : Nat}
    (parsed : Json.parse (utf8DecodeFrom .idle ((utf8 (Json.stringify record)).take landed)) =
      some other) (obj' : other.isObj = true) : other = record := by
  obtain ⟨fields, rfl⟩ := isObj_iff.mp obj
  obtain ⟨fields', rfl⟩ := isObj_iff.mp obj'
  by_cases whole : (utf8 (Json.stringify (.obj fields))).take landed =
      utf8 (Json.stringify (.obj fields))
  · rw [whole, parse_persisted] at parsed
    exact (Option.some.inj parsed).symm
  · exact absurd parsed (Json.parse_torn_bytes (List.take_prefix _ _) whole)

end Fairness

/-! ### The invariant -/

section Invariant

set_option linter.unusedSectionVars false

variable {P K : Type} [DecidableEq P] {broker : ReplyHost K} {state : Outbox P K}
  {placed more : List (String × List UInt8)} {requestId : String} {p : P} {process : Process K}

/-- Where an invocation stands. -/
def Stands (broker : ReplyHost K) (placed : List (String × List UInt8)) (requestId : String) :
    Phase → Prop
  | .reading | .freezing => True
  | .choosing record => Frozen broker.getEventHash record ∧ Fair broker placed requestId record
  | .signing record _ => record.isObj = true
  | .publishing record | .finishing record _ =>
      record.isObj = true ∧ (present (record.get "wrap")).isSome = true ∧
        Fair broker placed requestId record

theorem Stands.mono {phase : Phase} (stands : Stands broker placed requestId phase)
    (sub : placed ⊆ more) : Stands broker more requestId phase := by
  cases phase with
  | reading | freezing => trivial
  | choosing record => exact ⟨stands.1, stands.2.mono sub⟩
  | signing record enactment => exact stands
  | publishing record | finishing record accepted => exact ⟨stands.1, stands.2.1, stands.2.2.mono sub⟩

/-- What every run keeps. -/
structure Guarded (broker : ReplyHost K) (state : Outbox P K) : Prop where
  records : ∀ requestId bytes record, state.records requestId = some bytes →
    Json.parse (utf8DecodeFrom .idle bytes) = some record → record.isObj = true →
      Fair broker state.placed requestId record
  direct : ∀ p process, state.processes p = some process → process.ticket.carried = none
  stands : ∀ p process, state.processes p = some process →
    Stands broker state.placed process.invoked.requestId process.phase
  asked : ∀ ask ∈ state.asked, Authorized broker ask
  published : ∀ publication ∈ state.published,
    Carries broker publication.fingerprint publication.wrap ∨
      Brought state.placed publication.requestId publication.wrap

theorem Guarded.fresh : Guarded broker (Outbox.fresh : Outbox P K) where
  records _ _ _ has := by cases has
  direct _ _ has := by cases has
  stands _ _ has := by cases has
  asked _ mem := by cases mem
  published _ mem := by cases mem

/-- An invocation that goes on is in its next phase; the others stay. -/
theorem processes_goes {phase : Option Phase} {q : P} {other : Process K}
    (has : (goes state p process phase).processes q = some other) :
    (q = p ∧ ∃ next, phase = some next ∧ { process with phase := next } = other) ∨
      state.processes q = some other := by
  dsimp only [goes] at has
  rcases eq_or_ne q p with rfl | ne
  · rw [Function.update_self] at has
    exact .inl ⟨rfl, Option.map_eq_some_iff.mp has⟩
  · rw [Function.update_of_ne ne] at has
    exact .inr has

theorem Guarded.goes (kept : Guarded broker state) (direct : process.ticket.carried = none)
    {phase : Option Phase}
    (stands : ∀ next, phase = some next →
      Stands broker state.placed process.invoked.requestId next) :
    Guarded broker (goes state p process phase) where
  records := kept.records
  direct q other has := by
    rcases processes_goes has with ⟨-, next, -, rfl⟩ | has
    · exact direct
    · exact kept.direct q other has
  stands q other has := by
    rcases processes_goes has with ⟨-, next, goesOn, rfl⟩ | has
    · exact stands next goesOn
    · exact kept.stands q other has
  asked := kept.asked
  published := kept.published

/-- A file of records is written. -/
theorem Guarded.writes (kept : Guarded broker state) {bytes : List UInt8}
    (fair : ∀ record, Json.parse (utf8DecodeFrom .idle bytes) = some record →
      record.isObj = true → Fair broker state.placed requestId record) :
    Guarded broker { state with records := Function.update state.records requestId (some bytes) } where
  records id other record has parsed obj := by
    dsimp only at has ⊢
    rcases eq_or_ne id requestId with rfl | ne
    · rw [Function.update_self] at has
      obtain rfl := Option.some.inj has
      exact fair record parsed obj
    · rw [Function.update_of_ne ne] at has
      exact kept.records id other record has parsed obj
  direct := kept.direct
  stands := kept.stands
  asked := kept.asked
  published := kept.published

theorem Guarded.persist (kept : Guarded broker state) {record : Json}
    (fair : Fair broker state.placed requestId record) :
    Guarded broker (persist state requestId record) := by
  refine kept.writes fun other parsed _ => ?_
  rw [parse_persisted] at parsed
  obtain rfl := Option.some.inj parsed
  exact fair

theorem Guarded.asks (kept : Guarded broker state) {ask : Ask} (authorized : Authorized broker ask) :
    Guarded broker { state with asked := ask :: state.asked } where
  records := kept.records
  direct := kept.direct
  stands := kept.stands
  asked other mem := by
    rcases List.mem_cons.mp mem with rfl | mem
    · exact authorized
    · exact kept.asked other mem
  published := kept.published

theorem Guarded.publishes (kept : Guarded broker state) {publication : Publication}
    (fair : Carries broker publication.fingerprint publication.wrap ∨
      Brought state.placed publication.requestId publication.wrap) :
    Guarded broker { state with published := publication :: state.published } where
  records := kept.records
  direct := kept.direct
  stands := kept.stands
  asked := kept.asked
  published other mem := by
    rcases List.mem_cons.mp mem with rfl | mem
    · exact fair
    · exact kept.published other mem

theorem Guarded.places (kept : Guarded broker state) (requestId : String) (bytes : List UInt8) :
    Guarded broker (replyStep broker state (.place requestId bytes)) where
  records id other record has parsed obj := by
    have sub : state.placed ⊆ (requestId, bytes) :: state.placed := List.subset_cons_self _ _
    dsimp only [replyStep] at has ⊢
    rcases eq_or_ne id requestId with rfl | ne
    · rw [Function.update_self] at has
      obtain rfl := Option.some.inj has
      exact fun wrap present => .inr ⟨bytes, record, List.mem_cons_self, parsed,
        get_of_present present⟩
    · rw [Function.update_of_ne ne] at has
      exact (kept.records id other record has parsed obj).mono sub
  direct := kept.direct
  stands p process held := (kept.stands p process held).mono (List.subset_cons_self _ _)
  asked := kept.asked
  published publication mem := (kept.published publication mem).imp_right fun brought =>
    brought.mono (List.subset_cons_self _ _)

/-! ### The steps -/

theorem readRecord_eq_some {digest : String} {bytes : List UInt8} {record : Json}
    (read : readRecord broker requestId digest bytes = some record) :
    Json.parse (utf8DecodeFrom .idle bytes) = some record ∧
      Frozen broker.getEventHash record := by
  obtain ⟨parsed, checks⟩ := Option.filter_eq_some_iff.mp read
  rw [Bool.and_eq_true, Bool.and_eq_true, decide_eq_true_eq] at checks
  have valid : validateOutboundRecord broker.host broker.getEventHash record requestId digest =
      .ok () := by
    cases valid : validateOutboundRecord broker.host broker.getEventHash record requestId digest with
    | ok _ => rfl
    | error refusal =>
      rw [valid] at checks
      cases checks.1.1
  exact ⟨parsed, frozen_of_validate checks.1.2 valid⟩

theorem isTruthy_of_present {value : Option Json} (none : present value = none) :
    isTruthy value = false := by
  cases value with
  | none => rfl
  | some value => cases value <;> first | rfl | cases none

/-- **The signer of a direct reply is asked under an approval of exactly its seal.** -/
theorem authorized_of_actuator {record : Json} {enactment : Enactment}
    (direct : process.ticket.carried = none) (frozen : Frozen broker.getEventHash record)
    (unsigned : present (record.get "wrap") = none)
    (opens : actuator broker process record = .ok enactment) :
    Authorized broker ⟨process.invoked.mode, process.invoked.requestId, record.get "unsigned_seal",
      process.invoked.nowMs⟩ := by
  have unbound := isTruthy_of_present (frozen.unapproved unsigned)
  obtain ⟨u, reads, fingerprint⟩ := frozen.frozen
  unfold actuator at opens
  dsimp only at opens
  rw [unbound] at opens
  cases called : process.invoked.mode with
  | prepare =>
    rw [called] at opens
    cases opens
  | direct =>
    rw [called, direct] at opens
    cases opens
  | approval file =>
    rw [called, fingerprint] at opens
    simp only [bind_eq_ok, require_eq_ok] at opens
    obtain ⟨event, read, approval, verified, -⟩ := opens
    obtain ⟨-, ev, wire, approves, -⟩ := verifyOutboundApproval_eq_ok.mp verified
    obtain ⟨file, rfl, parsed⟩ := Option.bind_eq_some_iff.mp read
    exact ⟨file, event, ev, u, rfl, parsed, wire, reads, approves⟩

theorem Guarded.read (kept : Guarded broker state) (held : state.processes p = some process) :
    Guarded broker (proceed broker state p process (.read p)) := by
  have direct := kept.direct p process held
  unfold proceed
  dsimp only
  split
  next =>
    split
    next =>
      refine kept.goes direct fun next goesOn => ?_
      obtain rfl := Option.some.inj goesOn
      trivial
    next bytes found =>
      refine kept.goes direct fun next goesOn => ?_
      obtain ⟨record, read, rfl⟩ := Option.map_eq_some_iff.mp goesOn
      obtain ⟨parsed, frozen⟩ := readRecord_eq_some read
      exact ⟨frozen, kept.records _ bytes record found parsed frozen.obj⟩
  next => exact kept

theorem Guarded.freeze (kept : Guarded broker state) (held : state.processes p = some process) :
    Guarded broker (proceed broker state p process (.freeze p)) := by
  have direct := kept.direct p process held
  unfold proceed
  dsimp only
  split
  next =>
    split
    next => exact kept.goes direct fun next goesOn => by cases goesOn
    next encrypted answered =>
      refine (kept.persist fair_frozenRecord).goes direct fun next goesOn => ?_
      obtain rfl := Option.some.inj goesOn
      exact ⟨frozen_frozenRecord (unsignedOf_sealOf _ encrypted), fair_frozenRecord⟩
  next => exact kept

theorem Guarded.choose (kept : Guarded broker state) (held : state.processes p = some process) :
    Guarded broker (proceed broker state p process (.choose p)) := by
  have direct := kept.direct p process held
  have stands := kept.stands p process held
  unfold proceed
  dsimp only
  split
  next record phase =>
    rw [phase] at stands
    split
    next => exact kept.goes direct fun next goesOn => by cases goesOn
    next enactment opens =>
      split
      next wrap has =>
        refine kept.goes direct fun next goesOn => ?_
        obtain rfl := Option.some.inj goesOn
        exact ⟨stands.1.obj, Option.isSome_of_eq_some has, stands.2⟩
      next unsigned =>
        refine (kept.asks (authorized_of_actuator direct stands.1 unsigned opens)).goes direct
          fun next goesOn => ?_
        obtain rfl := Option.some.inj goesOn
        exact stands.1.obj
  next => exact kept

theorem carries_wrapOf {fingerprint : Option Json} {signed : Json} {key : K} {nonce peer : String}
    {createdAt : Int} (checked : isSigned broker fingerprint signed = true) :
    Carries broker fingerprint (wrapOf broker key nonce peer createdAt signed) := by
  obtain ⟨ev, wire, checks⟩ := (Option.any_eq_true _ _).mp checked
  rw [Bool.and_eq_true, Bool.and_eq_true, decide_eq_true_eq, decide_eq_true_eq] at checks
  exact ⟨signed, ev, key, nonce, peer, createdAt, wire, checks.2,
    bind_string_eq_some.mp checks.1.2, rfl⟩

theorem stands_enactedRecord {record left : Json} {enactment : Enactment} {signed : Json} {key : K}
    {nonce peer : String} {createdAt : Int} (obj : record.isObj = true)
    (carries : Carries broker (record.get "fingerprint")
      (wrapOf broker key nonce peer createdAt signed)) :
    Stands broker placed requestId (.publishing
      (enactedRecord record left (wrapOf broker key nonce peer createdAt signed) enactment)) := by
  obtain ⟨obj', wraps, fingerprints⟩ :
      (enactedRecord record left (wrapOf broker key nonce peer createdAt signed) enactment).isObj =
        true ∧ _ ∧ _ := get_enactedRecord obj
  refine ⟨obj', ?_, fun wrap has => .inl ?_⟩
  · rw [wraps]
    rfl
  · obtain rfl := Option.some.inj (wraps.symm.trans (get_of_present has))
    rw [fingerprints]
    exact carries

theorem Guarded.sign (kept : Guarded broker state) (held : state.processes p = some process) :
    Guarded broker (proceed broker state p process (.sign p)) := by
  have direct := kept.direct p process held
  have stands := kept.stands p process held
  unfold proceed
  dsimp only
  split
  next record enactment phase =>
    rw [phase] at stands
    split
    next => exact kept.goes direct fun next goesOn => by cases goesOn
    next signed left answered =>
      split
      next checked =>
        have carries : Carries broker (record.get "fingerprint") (wrapOf broker process.invoked.wrapKey
          process.invoked.nonce process.ticket.peer process.invoked.wrappedAt signed) :=
            carries_wrapOf checked
        have enacted : Stands broker state.placed process.invoked.requestId (.publishing
          (enactedRecord record left _ enactment)) := stands_enactedRecord stands carries
        refine (kept.persist enacted.2.2).goes direct fun next goesOn => ?_
        obtain rfl := Option.some.inj goesOn
        exact enacted
      next => exact kept.goes direct fun next goesOn => by cases goesOn
  next => exact kept

theorem Guarded.publish (kept : Guarded broker state) (held : state.processes p = some process)
    (accepted : Nat) : Guarded broker (proceed broker state p process (.publish p accepted)) := by
  have direct := kept.direct p process held
  have stands := kept.stands p process held
  unfold proceed
  dsimp only
  split
  next record phase =>
    rw [phase] at stands
    obtain ⟨obj, wraps, fair⟩ := stands
    obtain ⟨wrap, has⟩ := Option.isSome_iff_exists.mp wraps
    rw [get_of_present has]
    refine (kept.publishes (fair wrap has)).goes direct fun next goesOn => ?_
    split_ifs at goesOn
    obtain rfl := Option.some.inj goesOn
    exact ⟨obj, wraps, fair⟩
  next => exact kept

theorem Guarded.finish (kept : Guarded broker state) (held : state.processes p = some process)
    (landed : Option Nat) : Guarded broker (proceed broker state p process (.finish p landed)) := by
  have direct := kept.direct p process held
  have stands := kept.stands p process held
  unfold proceed
  dsimp only
  split
  next record accepted phase =>
    rw [phase] at stands
    obtain ⟨obj, -, fair⟩ := stands
    have obj' : (publishedRecord record process.invoked.endMs accepted).isObj = true := by
      simpa [publishedRecord] using obj
    refine (kept.writes fun other parsed isObj => ?_).goes direct fun next goesOn => by cases goesOn
    obtain rfl := parse_landed obj' parsed isObj
    exact fair.congr (get_publishedRecord (by decide)) (get_publishedRecord (by decide))
  next => exact kept

/-- A receipt of version 1 is answered directly. -/
theorem carried_of_versionOne {invoked : Invoked K} {ticket : Ticket}
    (one : ∀ receipt, Json.parse invoked.receipt = some receipt →
      (receipt.get "version").bind Json.integer = some 1)
    (admitted : ticketOf broker invoked = .ok ticket) : ticket.carried = none := by
  unfold ticketOf at admitted
  simp only [bind_eq_ok, ensure_eq_ok, require_eq_ok, objection_eq_ok, exists_const] at admitted
  obtain ⟨-, request, -, -, -, receipt, parsed, -, carried, route, -, policy, -, -, made⟩ := admitted
  obtain rfl := Except.ok.inj made
  unfold sourceOf at route
  rw [one receipt parsed] at route
  exact (Except.ok.inj route).symm

theorem Guarded.start (kept : Guarded broker state) {invoked : Invoked K}
    (one : OfVersionOne state (.start p invoked)) :
    Guarded broker (replyStep broker state (.start p invoked)) := by
  unfold replyStep
  dsimp only
  split
  next ticket free admitted =>
    constructor
    case records => exact kept.records
    case asked => exact kept.asked
    case published => exact kept.published
    case direct =>
      intro q other has
      dsimp only at has
      rcases eq_or_ne q p with rfl | ne
      · rw [Function.update_self] at has
        obtain rfl := Option.some.inj has
        exact carried_of_versionOne one admitted
      · rw [Function.update_of_ne ne] at has
        exact kept.direct q other has
    case stands =>
      intro q other has
      dsimp only at has
      rcases eq_or_ne q p with rfl | ne
      · rw [Function.update_self] at has
        obtain rfl := Option.some.inj has
        trivial
      · rw [Function.update_of_ne ne] at has
        exact kept.stands q other has
  next => exact kept

theorem Guarded.step (kept : Guarded broker state) {action : ReplyAction P K}
    (one : OfVersionOne state action) : Guarded broker (replyStep broker state action) := by
  have runs : ∀ {action : ReplyAction P K},
      (∀ p process, action.process? = some p → state.processes p = some process →
        Guarded broker (proceed broker state p process action)) →
      Guarded broker (match action.process?.bind fun p =>
          (state.processes p).map fun process => (p, process) with
        | some (p, process) => proceed broker state p process action
        | none => state) := by
    intro action keeps
    split
    next p process found =>
      obtain ⟨q, own, found⟩ := Option.bind_eq_some_iff.mp found
      obtain ⟨other, held, same⟩ := Option.map_eq_some_iff.mp found
      obtain ⟨rfl, rfl⟩ := Prod.mk.inj same
      exact keeps q other own held
    next => exact kept
  cases action with
  | place requestId bytes => exact kept.places requestId bytes
  | start p invoked => exact kept.start one
  | read p => exact runs fun q process own held => by cases own; exact kept.read held
  | freeze p => exact runs fun q process own held => by cases own; exact kept.freeze held
  | choose p => exact runs fun q process own held => by cases own; exact kept.choose held
  | sign p => exact runs fun q process own held => by cases own; exact kept.sign held
  | publish p accepted =>
      exact runs fun q process own held => by cases own; exact kept.publish held accepted
  | finish p landed =>
      exact runs fun q process own held => by cases own; exact kept.finish held landed
  | exit p =>
      refine runs fun q process own held => ?_
      cases own
      exact kept.goes (kept.direct _ _ held) fun next goesOn => by cases goesOn

end Invariant

/-! ### The run -/

/-- **A direct reply is signed only under an approval of exactly its frozen seal**, in every run of
invocations, whatever stands at the paths of the records; a published wrap carries the seal of its
record, unless it was brought there; and an approval is one of one decision only. -/
theorem approved_replies {P K : Type} [DecidableEq P] (broker : ReplyHost K)
    (collisionFree : Function.Injective broker.sha256) {actions : List (ReplyAction P K)}
    (direct : Runs.Meets (replyStep broker) OfVersionOne Outbox.fresh actions) :
    (∀ ask ∈ (Runs.run (replyStep broker) Outbox.fresh actions).asked, Authorized broker ask) ∧
      (∀ publication ∈ (Runs.run (replyStep broker) Outbox.fresh actions).published,
        Carries broker publication.fingerprint publication.wrap ∨
          Brought (Runs.run (replyStep broker) Outbox.fresh actions).placed
            publication.requestId publication.wrap) ∧
      ∀ {event named proposalId fingerprint approvers nowMs maxAgeMs approval},
        verifyOutboundApproval broker.sha256 broker.host broker.getEventHash event named proposalId
            fingerprint approvers nowMs maxAgeMs = .ok approval →
          (∀ {named' proposalId' fingerprint' approvers' nowMs' maxAgeMs' approval'},
            verifyOutboundApproval broker.sha256 broker.host broker.getEventHash event named'
                proposalId' fingerprint' approvers' nowMs' maxAgeMs' = .ok approval' →
              named = named' ∧ proposalId = proposalId' ∧ fingerprint = fingerprint') ∧
          ∀ {approver named' proposalId' fingerprint' createdAt template},
            approvalTemplate broker.sha256 approver named' proposalId' fingerprint' "reject"
                createdAt = .ok template →
              ∀ ev, wireEvent event = some ev → ¬(unsigned ev).Reorders template := by
  have kept : Guarded broker (Runs.run (replyStep broker) (Outbox.fresh : Outbox P K) actions) :=
    Runs.Meets.keeps (fun _ _ kept one => kept.step one) Guarded.fresh direct
  refine ⟨kept.asked, kept.published, fun verified => ?_⟩
  obtain ⟨-, ev, wire, approves, -⟩ := verifyOutboundApproval_eq_ok.mp verified
  constructor
  · intro named' proposalId' fingerprint' approvers' nowMs' maxAgeMs' approval' verified'
    obtain ⟨-, ev', wire', approves', -⟩ := verifyOutboundApproval_eq_ok.mp verified'
    obtain rfl := Option.some.inj (wire.symm.trans wire')
    exact approves.unique collisionFree approves'
  · intro approver named' proposalId' fingerprint' createdAt template rejects ev' wire'
    obtain rfl := Option.some.inj (wire.symm.trans wire')
    exact approves.not_rejection collisionFree rejects

/-! ### A reordered approval, and a wrap from elsewhere -/

def sampleRequest : String := String.ofList (List.replicate 32 '1')

def sampleRow : Json :=
  .obj [("version", .num 1 0), ("type", .str "reply-request"), ("id", .str sampleRequest),
    ("instance", .str "worker"), ("receipt", .str (sampleEvent 'c')), ("content", .str "hello")]

/-- A broker whose keys and hashes are constant, and that encrypts nothing. -/
def sampleReplyHost : ReplyHost Unit where
  host := Host.sample
  manifest := sampleManifest
  getEventHash _ := sampleEvent 'f'
  sha256 := Equiv.swap (Json.stringify sampleRow) (sampleEvent '0')
  finalizeEvent _ template := ⟨sampleEvent 'e', sampleEvent 'd', template.createdAt, template.kind,
    template.tags, template.content, ""⟩
  encrypt _ _ _ text := text
  credentialIn _ := none

def sampleBody : String :=
  Json.stringify (.obj [("proposal_id", .str sampleRequest), ("fingerprint", .str (sampleEvent 'f')),
    ("verb", .str "approve")])

/-- An approval that names the method first. -/
def sampleApproval : Event where
  id := sampleEvent 'f'
  pubkey := sampleEvent 'b'
  createdAt := 100
  kind := 27235
  tags := [["method", "POST"],
    ["u", "nvoy://outbound/" ++ encodeURIComponent "worker" ++ "/" ++ sampleRequest],
    ["payload", sampleReplyHost.sha256 sampleBody]]
  content := ""
  sig := ""

def sampleReceipt : Json :=
  .obj [("version", .num 1 0), ("instance", .str "worker"), ("broker", .str (sampleEvent 'a')),
    ("envelope", .str (sampleEvent 'c')), ("sender", .str (sampleEvent '9')),
    ("grant_id", .str (sampleEvent '8')), ("expires_at", .num 0 0)]

def samplePolicyText : Json :=
  .obj [("policyUsable", .bool true),
    ("admissions", .arr [.obj [("from", .str (sampleEvent '9')), ("grant_id", .str (sampleEvent '8'))]])]

def sampleInvoked : Invoked Unit where
  mode := .approval (some (Json.render (wireOf sampleApproval)))
  requestId := sampleRequest
  queue := Json.render sampleRow
  receipt := Json.render sampleReceipt
  policy := some (Json.render samplePolicyText)
  nowMs := 100000
  endMs := 100000
  rumorAt := 100
  sealedAt := 100
  wrappedAt := 100
  encrypted := some "text"
  signed := none
  wrapKey := ()
  nonce := ""

def sampleTicket : Ticket := ⟨sampleEvent '0', "hello", sampleEvent 'c', sampleEvent '9', none⟩

def sampleSeal : Unsigned := sealOf sampleReplyHost 100 "text"

/-- A record with a signed wrap of something else. -/
def sampleBrought : Json :=
  .obj [("version", .num 2 0), ("request_digest", .str (sampleEvent '0')),
    ("request_id", .str sampleRequest), ("fingerprint", .str (sampleEvent 'f')),
    ("unsigned_seal", frozenOf sampleSeal),
    ("wrap", wireOf ⟨sampleEvent 'e', sampleEvent 'd', 100, 1059, [], "other", ""⟩),
    ("approval_id", .str (sampleEvent 'f')), ("published", .bool false)]

/-- One invocation, up to the question to the signer. -/
def sampleAsks : Outbox Unit Unit :=
  Runs.run (replyStep sampleReplyHost) Outbox.fresh
    [.start () sampleInvoked, .read (), .freeze (), .choose ()]

/-- One invocation that finds the record. -/
def samplePublishes : Outbox Unit Unit :=
  Runs.run (replyStep sampleReplyHost) Outbox.fresh
    [.place sampleRequest (utf8 (Json.stringify sampleBrought)), .start () sampleInvoked, .read (),
      .choose (), .publish () 1]

section Sample

variable {P K : Type} [DecidableEq P] {broker : ReplyHost K} {invoked : Invoked K} {ticket : Ticket}
  {p : P} {enactment : Enactment}

/-- An invocation without a record asks the signer for the seal it has frozen. -/
theorem asked_once {encrypted : String} (admitted : ticketOf broker invoked = .ok ticket)
    (answered : invoked.encrypted = some encrypted)
    (opens : ∀ phase, actuator broker ⟨invoked, ticket, phase⟩ (frozenRecord broker invoked.requestId
      ticket (sealOf broker invoked.sealedAt encrypted)) = .ok enactment) :
    (Runs.run (replyStep broker) Outbox.fresh
      [.start p invoked, .read p, .freeze p, .choose p]).asked =
      [⟨invoked.mode, invoked.requestId, some (frozenOf (sealOf broker invoked.sealedAt encrypted)),
        invoked.nowMs⟩] := by
  have bare : present ((frozenRecord broker invoked.requestId ticket
      (sealOf broker invoked.sealedAt encrypted)).get "wrap") = none := rfl
  simp only [Runs.run_cons, Runs.run_nil, replyStep, Outbox.fresh, admitted, ReplyAction.process?,
    Option.bind_some, Function.update_self, Option.map_some, proceed, goes, persist, answered, opens,
    bare]
  rfl

/-- An invocation that finds a record with a wrap publishes it. -/
theorem published_found {bytes : List UInt8} {record wrap : Json}
    (admitted : ticketOf broker invoked = .ok ticket)
    (reads : readRecord broker invoked.requestId ticket.digest bytes = some record)
    (opens : ∀ phase, actuator broker ⟨invoked, ticket, phase⟩ record = .ok enactment)
    (wraps : present (record.get "wrap") = some wrap) :
    (Runs.run (replyStep broker) Outbox.fresh [.place invoked.requestId bytes, .start p invoked,
      .read p, .choose p, .publish p 1]).published =
      [⟨invoked.requestId, record.get "fingerprint", wrap⟩] := by
  have has := get_of_present wraps
  rw [has] at wraps
  simp only [Runs.run_cons, Runs.run_nil, replyStep, Outbox.fresh, admitted, ReplyAction.process?,
    Option.bind_some, Function.update_self, Option.map_some, proceed, goes, reads, opens, has, wraps]

theorem mapM_map_some {α β : Type} (write : α → β) {read : β → Option α}
    (reads : ∀ value, read (write value) = some value) (values : List α) :
    (values.map write).mapM read = some values := by
  induction values with
  | nil => rfl
  | cons value rest ih =>
    rw [List.map_cons, List.mapM_cons, reads, Option.bind_eq_bind, Option.bind_some, ih]
    rfl

theorem tagsOf_tags (tags : List (List String)) :
    tagsOf (.arr (tags.map fun tag => .arr (tag.map .str))) = some tags :=
  mapM_map_some (fun tag : List String => Json.arr (tag.map .str))
    (fun tag => mapM_map_some Json.str (fun _ => rfl) tag) tags

theorem wireEvent_wireOf (ev : Event) : wireEvent (wireOf ev) = some ev :=
  wireEvent_eq_some.mpr ⟨rfl, rfl, integer_num _, integer_num _, tagsOf_tags _, rfl, rfl⟩

theorem exactKeys_wireOf (ev : Event) : exactKeys (wireOf ev) APPROVAL_KEYS = true := by
  refine (exactKeys_iff_perm (by decide)).mpr ⟨rfl, ?_⟩
  refine (List.perm_ext_iff_of_nodup (Json.nodup_keys _) (by decide)).mpr fun key => ?_
  simp only [wireOf, Json.keys, APPROVAL_KEYS, List.map_cons, List.map_nil, List.mem_dedup,
    List.mem_cons, List.not_mem_nil, or_false]
  tauto

theorem exactKeys_frozenOf (u : Unsigned) : exactKeys (frozenOf u) FROZEN_KEYS = true := by
  refine (exactKeys_iff_perm (by decide)).mpr ⟨rfl, ?_⟩
  refine (List.perm_ext_iff_of_nodup (Json.nodup_keys _) (by decide)).mpr fun key => ?_
  simp only [frozenOf, Json.keys, FROZEN_KEYS, List.map_cons, List.map_nil, List.mem_dedup,
    List.mem_cons, List.not_mem_nil, or_false]
  tauto

theorem isHex64_sampleEvent {c : Char} (hex : isLowerHex c = true) :
    isHex64 (sampleEvent c) = true := by
  simp [isHex64, sampleEvent, hex]

theorem verifyEvent_sample (ev : Event) : Host.sample.verifyEvent ev = isHex64 ev.id := rfl

theorem isHex32_replicate {c : Char} (hex : isLowerHex c = true) :
    isHex32 (String.ofList (List.replicate 32 c)) = true := by
  simp [isHex32, hex]

theorem isHex32_sampleRequest : isHex32 sampleRequest = true := isHex32_replicate (by decide)

theorem requestRow_render {row : Json} {requestId : String}
    (own : row.get "id" = some (.str requestId)) :
    requestRow (Json.render row) requestId = some row := by
  have clean : '\n' ∉ Json.render row := Json.newline_notMem_render row
  have whole : (Json.render row).splitOn '\n' = [Json.render row] := by
    rw [Lines.splitOn_eq_segments, Lines.segments_torn _ clean]
    rfl
  rw [requestRow, whole]
  simp [Json.parse_render, own, Json.string]

theorem isRequest_sample : isRequest sampleReplyHost sampleRow = true := by
  have hex := isHex64_sampleEvent (c := 'c') (by decide)
  have words : trim "hello" ≠ "" ∧ (utf8 "hello").length ≤ 4000 := by decide
  simp [isRequest, sampleRow, keysWithin_obj, Json.isObj, REQUEST_KEYS, Json.get, Json.string,
    hexField, patternText, Json.text, hex, words, sampleReplyHost, sampleManifest, integer_num]

theorem isReceipt_sample : isReceipt sampleReplyHost sampleReceipt (sampleEvent 'c') = true := by
  have hex := isHex64_sampleEvent (c := '9') (by decide)
  have finite : isFiniteNumber (some (.num 0 0)) = true := by
    have small : |((0 : Int) : ℚ)| < 2 ^ 1024 - 2 ^ 970 := by
      rw [Int.cast_zero, abs_zero, sub_pos]
      exact pow_lt_pow_right₀ one_lt_two (by decide)
    rw [isFiniteNumber, toNumber_int, if_pos small]
    rfl
  simp [isReceipt, sampleReceipt, Json.get, Json.string, hexField, patternText, Json.text, hex,
    sampleReplyHost, sampleManifest, integer_num, finite]

theorem stillLive_sample : stillLive samplePolicyText sampleReceipt false = true := by
  simp [stillLive, samplePolicyText, sampleReceipt, Json.get, isTruthy, Json.items, strictEq]

theorem ticketOf_sample : ticketOf sampleReplyHost sampleInvoked = .ok sampleTicket := by
  have row : requestRow (Json.render sampleRow) sampleRequest = some sampleRow :=
    requestRow_render rfl
  have receipt : Json.parse sampleInvoked.receipt = some sampleReceipt := by
    rw [sampleInvoked, Json.parse_render]
  have policy : sampleInvoked.policy.bind Json.parse = some samplePolicyText := by
    rw [sampleInvoked, Option.bind_some, Json.parse_render]
  unfold ticketOf
  simp only [bind_eq_ok, ensure_eq_ok, require_eq_ok, objection_eq_ok, exists_const]
  refine ⟨isHex32_sampleRequest, sampleRow, row, isRequest_sample, rfl, sampleReceipt, receipt,
    isReceipt_sample, none, rfl, rfl, samplePolicyText, policy, stillLive_sample, ?_⟩
  have digest : replyRequestDigest sampleReplyHost.sha256 sampleRow = sampleEvent '0' :=
    Equiv.swap_apply_left _ _
  rw [digest]
  rfl

theorem approves_sample : Approves sampleReplyHost.sha256 Host.sample sampleReplyHost.getEventHash
    "worker" sampleRequest (sampleEvent 'f') [sampleEvent 'b'] 100000 MAX_AGE_MS sampleApproval := by
  constructor
  case authorized => exact List.mem_singleton.mpr rfl
  case verified =>
    have own : sampleApproval.id = sampleEvent 'f' := rfl
    rw [verifyEvent_sample, own]
    exact isHex64_sampleEvent (by decide)
  case own => rfl
  case notAhead | recent =>
    have made : sampleApproval.createdAt = 100 := rfl
    rw [made]
    decide
  case template =>
    have url : approvalUrl "worker" sampleRequest =
        .ok ("nvoy://outbound/" ++ encodeURIComponent "worker" ++ "/" ++ sampleRequest) :=
      approvalUrl_eq_ok.mpr ⟨by decide, isHex32_sampleRequest, rfl⟩
    have body : approvalBody sampleRequest (sampleEvent 'f') "approve" = .ok sampleBody :=
      approvalBody_eq_ok.mpr ⟨isHex32_sampleRequest, isHex64_sampleEvent (by decide), .inl rfl, rfl⟩
    have hex : isHex64 (sampleEvent 'b') = true := isHex64_sampleEvent (by decide)
    refine ⟨_, approvalTemplate_eq_ok.mpr ⟨hex, _, body, _, url, rfl⟩, ?_⟩
    exact ⟨rfl, rfl, rfl, rfl, List.Perm.swap _ _ _⟩

theorem verify_sample {maxAgeMs : Int} (old : MAX_AGE_MS ≤ maxAgeMs) :
    verifyOutboundApproval sampleReplyHost.sha256 Host.sample sampleReplyHost.getEventHash
      (wireOf sampleApproval) "worker" sampleRequest (sampleEvent 'f') [sampleEvent 'b'] 100000
      maxAgeMs = .ok ⟨sampleEvent 'b', sampleRequest, sampleEvent 'f', 100, sampleEvent 'f'⟩ :=
  verifyOutboundApproval_eq_ok.mpr ⟨exactKeys_wireOf _, sampleApproval, wireEvent_wireOf _,
    { approves_sample with recent := approves_sample.recent.trans old }, rfl⟩

/-- The reordered approval opens the signer for any record of the sample's seal. -/
theorem actuator_sample {record : Json} {phase : Phase}
    (fingerprint : record.get "fingerprint" = some (.str (sampleEvent 'f')))
    (bound : isTruthy (record.get "approval_id") = false ∨
      record.get "approval_id" = some (.str (sampleEvent 'f'))) :
    actuator sampleReplyHost ⟨sampleInvoked, sampleTicket, phase⟩ record = .ok (.approved
      ⟨sampleEvent 'b', sampleRequest, sampleEvent 'f', 100, sampleEvent 'f'⟩) := by
  have read : (some (Json.render (wireOf sampleApproval))).bind Json.parse =
      some (wireOf sampleApproval) := by
    rw [Option.bind_some, Json.parse_render]
  unfold actuator
  dsimp only [sampleInvoked]
  rw [fingerprint, read]
  have old : MAX_AGE_MS ≤ if isTruthy (record.get "approval_id") = true then MAX_SAFE_INTEGER
      else MAX_AGE_MS := by split_ifs <;> decide
  have verified := verify_sample old
  have own : (!isTruthy (record.get "approval_id") ||
      decide ((record.get "approval_id").bind Json.string = some (sampleEvent 'f'))) = true := by
    rcases bound with free | same
    · rw [free]
      rfl
    · rw [same]
      simp [Json.string]
  simp only [bind_eq_ok, require_eq_ok, ensure_eq_ok, exists_const]
  exact ⟨_, rfl, _, verified, own, rfl⟩

theorem validate_sample : validateOutboundRecord Host.sample sampleReplyHost.getEventHash sampleBrought
    sampleRequest (sampleEvent '0') = .ok () := by
  have two : (sampleBrought.get "version").bind Json.integer = some 2 := integer_num 2
  have hex : ∀ c, isLowerHex c = true → isHex64 (sampleEvent c) = true := fun _ hex =>
    isHex64_sampleEvent hex
  have binds : (sampleBrought.isObj && keysWithin sampleBrought (sealForm Host.sample).keys &&
      bindsRequest sampleBrought sampleRequest (sampleEvent '0') &&
      hexField sampleBrought "fingerprint") = true := by
    have digest := hex '0' (by decide)
    have fingerprint := hex 'f' (by decide)
    have own := isHex32_sampleRequest
    simp [sampleBrought, Json.isObj, keysWithin_obj, FrozenForm.keys, sealForm, bindsRequest, patternText,
      Json.get, Json.text, own, hexField, digest, boolField, Json.string, fingerprint]
  have author : hexField (frozenOf sampleSeal) "pubkey" = true := hex 'a' (by decide)
  have reads : (unsignedOf (frozenOf sampleSeal)).filter (sealForm Host.sample).isFrozen =
      some sampleSeal := by
    rw [sampleSeal, unsignedOf_sealOf]
    rfl
  have signed : ((wireEvent (wireOf ⟨sampleEvent 'e', sampleEvent 'd', 100, 1059, [], "other", ""⟩)).any
      fun ev => (sealForm Host.sample).isEnacted ev (sampleEvent 'f')) = true := by
    simp [wireEvent_wireOf, sealForm, verifyEvent_sample, hex 'e' (by decide)]
  have approved : hexField sampleBrought "approval_id" = true := hex 'f' (by decide)
  unfold validateOutboundRecord
  rw [two]
  unfold validateFrozen
  simp only [bind_eq_ok, ensure_eq_ok, require_eq_ok, exists_const]
  refine ⟨binds, _, rfl, ?_, _, reads, ?_, ?_⟩
  · rw [exactKeys_frozenOf, author]
    rfl
  · rfl
  · have enacted : present (sampleBrought.get (sealForm Host.sample).enacted) =
        some (wireOf ⟨sampleEvent 'e', sampleEvent 'd', 100, 1059, [], "other", ""⟩) := rfl
    rw [enacted]
    simp only [bind_eq_ok, ensure_eq_ok, exists_const]
    refine ⟨signed, rfl, ?_, rfl⟩
    rw [approved]
    rfl

/-- The brought record is one to go on with. -/
theorem readRecord_sample : readRecord sampleReplyHost sampleInvoked.requestId sampleTicket.digest
    (utf8 (Json.stringify sampleBrought)) = some sampleBrought := by
  have valid : validateOutboundRecord sampleReplyHost.host sampleReplyHost.getEventHash sampleBrought
      sampleInvoked.requestId sampleTicket.digest = .ok () := validate_sample
  rw [readRecord, parse_persisted, Option.filter_some, valid]
  rfl

theorem get_sampleBrought : sampleBrought.get "approval_id" = some (.str (sampleEvent 'f')) ∧
    sampleBrought.get "wrap" =
      some (wireOf ⟨sampleEvent 'e', sampleEvent 'd', 100, 1059, [], "other", ""⟩) ∧
    sampleBrought.get "fingerprint" = some (.str (sampleEvent 'f')) := by
  simp [sampleBrought, Json.get]

theorem ask_sample : sampleAsks.asked =
    [⟨sampleInvoked.mode, sampleRequest, some (frozenOf sampleSeal), sampleInvoked.nowMs⟩] :=
  asked_once ticketOf_sample rfl fun _ => actuator_sample rfl (.inl rfl)

theorem published_sample : samplePublishes.published =
    [⟨sampleRequest, some (.str (sampleEvent 'f')),
      wireOf ⟨sampleEvent 'e', sampleEvent 'd', 100, 1059, [], "other", ""⟩⟩] := by
  obtain ⟨bound, wraps, fingerprint⟩ := get_sampleBrought
  have there : present (sampleBrought.get "wrap") =
      some (wireOf ⟨sampleEvent 'e', sampleEvent 'd', 100, 1059, [], "other", ""⟩) := by
    rw [wraps]
    rfl
  have found := published_found (p := ()) ticketOf_sample readRecord_sample
    (fun _ => actuator_sample fingerprint (.inr bound)) there
  rw [fingerprint] at found
  exact found

end Sample

/-- `Authorized`, with the tags in the order of the template. -/
def ExactlyAuthorized {K : Type} (broker : ReplyHost K) (ask : Ask) : Prop :=
  ∃ file event ev u, ask.mode = .approval (some file) ∧ Json.parse file = some event ∧
    wireEvent event = some ev ∧ ask.template.bind unsignedOf = some u ∧
    approvalTemplate broker.sha256 ev.pubkey broker.manifest.id ask.requestId
      (broker.getEventHash u) "approve" ev.createdAt = .ok (unsigned ev)

/-- Every receipt of the samples is of version 1. -/
theorem ofVersionOne_sample (state : Outbox Unit Unit) :
    OfVersionOne state (.start () sampleInvoked) := by
  intro receipt parsed
  rw [sampleInvoked, Json.parse_render] at parsed
  obtain rfl := Option.some.inj parsed
  exact integer_num 1

/-- The sample's signer was asked, under the reordered approval. -/
theorem approved_replies_sample : ∃ ask ∈ sampleAsks.asked, Authorized sampleReplyHost ask := by
  have asks : ⟨sampleInvoked.mode, sampleRequest, some (frozenOf sampleSeal), sampleInvoked.nowMs⟩ ∈
      sampleAsks.asked := ask_sample ▸ List.mem_cons_self
  have ones : Runs.Meets (replyStep sampleReplyHost) OfVersionOne Outbox.fresh
      [.start () sampleInvoked, .read (), .freeze (), .choose ()] :=
    ⟨ofVersionOne_sample _, trivial, trivial, trivial, trivial⟩
  exact ⟨_, asks, (approved_replies sampleReplyHost (Equiv.injective _) ones).1 _ asks⟩

/-- **An approval with its tags in another order opens the signer, and a record's wrap of something
else is published.** -/
theorem reordered_and_brought :
    (¬∀ ask ∈ sampleAsks.asked, ExactlyAuthorized sampleReplyHost ask) ∧
      ¬∀ publication ∈ samplePublishes.published,
        Carries sampleReplyHost publication.fingerprint publication.wrap := by
  constructor
  · intro all
    rw [ask_sample] at all
    obtain ⟨file, event, ev, u, called, parsed, wire, -, made⟩ := all _ List.mem_cons_self
    obtain rfl := Option.some.inj (Mode.approval.inj called)
    rw [Json.parse_render] at parsed
    obtain rfl := Option.some.inj parsed
    rw [wireEvent_wireOf] at wire
    obtain rfl := Option.some.inj wire
    obtain ⟨-, body, -, url, -, same⟩ := approvalTemplate_eq_ok.mp made
    have tags := congrArg Unsigned.tags same
    have heads := congrArg (fun tags : List (List String) => tags.map fun tag => tag.headD "") tags
    replace heads : ["u", "method", "payload"] = ["method", "u", "payload"] := heads
    exact absurd heads (by decide)
  · intro all
    rw [published_sample] at all
    obtain ⟨signed, ev, key, nonce, peer, createdAt, wire, -, -, same⟩ := all _ List.mem_cons_self
    have content := congrArg (fun wrap => (wrap.get "content").bind Json.string) same
    replace content : some "other" = some (Json.stringify signed) := content
    have parsed := congrArg (fun text => Json.parse (String.toList text)) (Option.some.inj content)
    have none : Json.parse "other".toList = none := by decide
    rw [Json.parse_stringify, none] at parsed
    cases parsed

end Nvoy.Broker
