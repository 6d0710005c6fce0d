/-
**From data to instruction**: `partitionInvocations` and `verifiedChannelNotifications` of
`invocation_policy.mjs`, with the carry verifier of `channel_task_carry.mjs` under them.

A message is data unless its sender holds a task grant, or its sender carries in it a channel message
whose author does. The reader parses the content and checks it field by field; `CarriesSource` says what
those checks come to.

* `parseChannelCarry_iff` — what the parser of a carry accepts;
* `admits_iff` — what the loop admits, and as what;
* `partition_exact` — the two parts of a list, and the notices beside them;
* `carry_bounds` — a carry with a source past the size limit, or from a carrier whose key is no key,
  stays data whatever else holds of it.

Times are exact numbers: a message's is `none` where it is no finite number.
-/

import Nvoy.Admission.GrantFold
import Nvoy.Lib.JsSet
import Nvoy.Lib.Json
import Nvoy.Lib.Utf8
import Nvoy.Memory.Claim
import Mathlib.Data.Rat.Defs
import Mathlib.Algebra.Order.Ring.Rat
import Mathlib.Tactic.Linarith

set_option linter.dupNamespace false

namespace Nvoy.Admission

open Memory (lowerAscii isUuid lowerAscii_of_isHex64)

/-! ### Messages -/

/-- A message as the policy sees it; a channel message has its id and kind besides. -/
structure Message where
  /-- `from` -/
  sender : String
  /-- `Number(at)` -/
  sentAt : Option ℚ
  content : String
  eventId : Option String
  kind : Option Int
  deriving DecidableEq

/-- What an admission of a carried message names besides the author and the author's grant. -/
structure CarriedBy where
  carrier : String
  carrierGrantId : String
  carrierGrantor : String
  sourceEvent : String
  replyChannel : String
  hop : Option Int
  deriving DecidableEq

/-- On whose authority a message instructs. Mode `direct` has no carrier, `channel-carry` has. -/
structure Admission where
  sender : String
  grantId : String
  grantor : String
  cap : String
  carried : Option CarriedBy
  deriving DecidableEq

structure Item where
  message : Message
  admission : Admission
  deriving DecidableEq

/-- The live grants and the configuration. -/
structure Policy where
  policyUsable : Bool
  taskGrantFor : String → Option Grant
  relayGrantFor : String → Option Grant
  carrierChannels : String → List String

/-! ### Hops -/

def HOP_TAG : String := "nvoy-hop"

/-- `Number.MAX_SAFE_INTEGER` -/
def MALFORMED_HOP : Int := 9007199254740991

/-- `/^(0|[1-9][0-9]{0,5})$/` -/
def isHopText (text : String) : Bool :=
  text = "0" || (1 ≤ text.toList.length && text.toList.length ≤ 6 && text.toList.all Char.isDigit &&
    text.toList.head? ≠ some '0')

def hopOf (ev : Event) : Option Int :=
  match ev.tagValues HOP_TAG with
  | [] => none
  | [some text] => some (if isHopText text then numberOf text else MALFORMED_HOP)
  | _ => some MALFORMED_HOP

/-! ### Carries -/

/-- `/^[0-9a-f]{128}$/` -/
def isHex128 (text : String) : Bool := text.toList.length = 128 && text.toList.all isLowerHex

/-- The tags of an event: arrays of texts. -/
def tagsOf (value : Json) : Option (List (List String)) := do
  (← value.items).mapM fun tag => do (← tag.items).mapM Json.string

/-- The event an object is on the wire. One with a field of another type verifies as nothing. -/
def wireEvent (source : Json) : Option Event := do
  let id ← (source.get "id").bind Json.string
  let pubkey ← (source.get "pubkey").bind Json.string
  let createdAt ← (source.get "created_at").bind Json.integer
  let kind ← (source.get "kind").bind Json.integer
  let tags ← (source.get "tags").bind tagsOf
  let content ← (source.get "content").bind Json.string
  let sig ← (source.get "sig").bind Json.string
  return ⟨id, pubkey, createdAt, kind, tags, content, sig⟩

/-- `String(value[key] || '')` -/
def fieldText (value : Json) (key : String) : String := ((value.get key).map Json.text).getD ""

def CARRY_KEYS : List String := ["channel", "reason", "source", "type", "v"]

def SOURCE_KEYS : List String := ["content", "created_at", "id", "kind", "pubkey", "sig", "tags"]

def REASONS : List String := ["mention", "reply"]

/-- The checks of the carry object itself. -/
def isCarry (carry : Json) : Bool :=
  carry.isObj && carry.keysText = "channel,reason,source,type,v".toList &&
    (carry.get "v").bind Json.integer = some 1 &&
    (carry.get "type").bind Json.string = some "waggle-channel-task-carry" &&
    ((carry.get "reason").bind Json.string).any REASONS.contains

/-- The checks of the source in it. -/
def isSource (source : Json) : Bool :=
  source.isObj && source.keysText = "content,created_at,id,kind,pubkey,sig,tags".toList &&
    (source.get "kind").bind Json.integer = some 9 &&
    ((source.get "content").bind Json.string).any
      (fun content => (utf8 content).length ≤ 256 * 1024) &&
    isHex64 (fieldText source "pubkey") && isHex64 (fieldText source "id") &&
    isHex128 (fieldText source "sig") && ((source.get "tags").bind tagsOf).isSome

structure ChannelCarry where
  reason : String
  source : Event
  carrier : String
  channel : String

def channelTags (tags : List (List String)) : List (List String) :=
  tags.filter fun tag => tag[0]? = some "h"

section Verifier

variable (host : Host)

/-- `parseChannelCarry`; `carriers` is `null` where any carrier will do. -/
def parseChannelCarry (message : Message) (channels : List String)
    (carriers : Option (List String)) : Option ChannelCarry := do
  guard (isHex64 message.sender)
  let carrier := lowerAscii message.sender
  guard (carriers.all fun listed => ((listed.map lowerAscii).filter isHex64).contains carrier)
  let allowed := (channels.map lowerAscii).filter isUuid
  let carry ← Json.parse message.content.toList
  guard (isCarry carry)
  let reason ← (carry.get "reason").bind Json.string
  let channel := lowerAscii (fieldText carry "channel")
  guard (allowed.contains channel)
  let source ← carry.get "source"
  guard (isSource source)
  let tags ← (source.get "tags").bind tagsOf
  guard ((channelTags tags).length = 1 ∧
    lowerAscii (((channelTags tags).head?.bind (·[1]?)).getD "") = channel)
  let sourceAt ← (source.get "created_at").bind Json.integer
  let carriedAt ← message.sentAt
  guard (¬(carriedAt + 300 < sourceAt) ∧ ¬(172800 + 300 < carriedAt - sourceAt))
  let event ← wireEvent source
  guard (host.verifyEvent event)
  return ⟨reason, event, carrier, channel⟩

/-- The source of a carry, as a message. -/
def carriedMessage (source : Event) : Message :=
  ⟨source.pubkey, some source.createdAt, source.content, some source.id, some source.kind⟩

/-- The capabilities that instruct. -/
def INSTRUCTING : List String := ["task", "task+act"]

def verifyChannelTaskCarry (message : Message) (channels : List String)
    (carrierGrant : Option Grant) (taskGrantFor : String → Option Grant) : Option Item := do
  let carrierGrant ← carrierGrant
  guard (carrierGrant.cap = "task-relay")
  let parsed ← parseChannelCarry host message channels none
  let authorGrant ← taskGrantFor parsed.source.pubkey
  guard (INSTRUCTING.contains authorGrant.cap)
  return {
    message := carriedMessage parsed.source
    admission := {
      sender := parsed.source.pubkey
      grantId := authorGrant.grantId
      grantor := authorGrant.grantor
      cap := authorGrant.cap
      carried := some {
        carrier := parsed.carrier
        carrierGrantId := carrierGrant.grantId
        carrierGrantor := carrierGrant.grantor
        sourceEvent := parsed.source.id
        replyChannel := parsed.channel
        hop := hopOf parsed.source } } }

/-! ### The two readers -/

variable (policy : Policy)

/-- One turn of the loop of `partitionInvocations`. -/
def invocationOf (message : Message) : Option Item :=
  match verifyChannelTaskCarry host message (policy.carrierChannels message.sender)
      (policy.relayGrantFor message.sender) policy.taskGrantFor with
  | some carried => some carried
  | none =>
      match policy.taskGrantFor message.sender with
      | some direct =>
          if INSTRUCTING.contains direct.cap then
            some ⟨message, ⟨message.sender, direct.grantId, direct.grantor, direct.cap, none⟩⟩
          else none
      | none => none

structure Partition where
  admitted : List Item
  actionable : List Message
  admissions : List Admission
  dataOnly : List Message

/-- `admitted` and `admittedRaw`, past one message. -/
def promote (state : List Item × JsSet Message) (message : Message) : List Item × JsSet Message :=
  match invocationOf host policy message with
  | some item => (state.1 ++ [item], state.2.add message)
  | none => state

/-- `partitionInvocations`. Equal messages fare alike, so the set of admitted ones may be taken by
value. -/
def partitionInvocations (messages : List Message) : Partition :=
  let (admitted, admittedRaw) :=
    if policy.policyUsable then messages.foldl (promote host policy) ([], .empty) else ([], .empty)
  { admitted := admitted
    actionable := admitted.map (·.message)
    admissions := admitted.map (·.admission)
    dataOnly := messages.filter fun message => !admittedRaw.has message }

/-- Word of a signed channel message, without its text. -/
structure Notice where
  sourceAuthor : String
  sourceEvent : String
  sourceChannel : String
  carrier : String
  carrierGrantId : String
  carrierGrantor : String
  reason : String
  observedAt : Int
  deriving DecidableEq

/-- One turn of the loop of `verifiedChannelNotifications`. -/
def noticeOf (raw : Message) : Option Notice := do
  let carrierGrant ← policy.relayGrantFor raw.sender
  guard (carrierGrant.cap = "task-relay")
  let verified ← parseChannelCarry host raw (policy.carrierChannels raw.sender) (some [raw.sender])
  return {
    sourceAuthor := verified.source.pubkey
    sourceEvent := verified.source.id
    sourceChannel := verified.channel
    carrier := verified.carrier
    carrierGrantId := carrierGrant.grantId
    carrierGrantor := carrierGrant.grantor
    reason := verified.reason
    observedAt := verified.source.createdAt }

def verifiedChannelNotifications (messages : List Message) : List Notice :=
  if policy.policyUsable then messages.filterMap (noticeOf host policy) else []

end Verifier

/-! ### What a carry is -/

/-- The content is exactly the carry object, the source in it exactly an event's wire form. -/
structure CarryObject (content : String) (carry body : Json) (channel reason : String)
    (source : Event) : Prop where
  parsed : Json.parse content.toList = some carry
  keys : ∀ key, key ∈ carry.keys ↔ key ∈ CARRY_KEYS
  version : (carry.get "v").bind Json.integer = some 1
  type : carry.get "type" = some (.str "waggle-channel-task-carry")
  known : reason ∈ REASONS
  why : carry.get "reason" = some (.str reason)
  /-- The name is a text, or one inside arrays of one item, in letters of either case. -/
  named : ∃ name, carry.get "channel" = some name ∧ lowerAscii name.text = channel
  embedded : carry.get "source" = some body
  sourceKeys : ∀ key, key ∈ body.keys ↔ key ∈ SOURCE_KEYS
  wire : wireEvent body = some source

/-- The message carries the source from a configured channel: the source is signed, of that channel
alone, and of the time of the message. -/
structure CarriesSource (host : Host) (channels : List String) (message : Message)
    (channel reason : String) (source : Event) : Prop where
  object : ∃ carry body, CarryObject message.content carry body channel reason source
  configured : channel ∈ channels.map lowerAscii ∧ isUuid channel = true
  kind : source.kind = 9
  verified : host.verifyEvent source = true
  tagged : (channelTags source.tags).map (fun tag => lowerAscii (tag[1]?.getD "")) = [channel]
  fresh : ∃ carriedAt, message.sentAt = some carriedAt ∧
    carriedAt - 173100 ≤ source.createdAt ∧ source.createdAt ≤ carriedAt + 300

/-- Keys and signature are lower-case hex, and the content is not past the limit. -/
structure Bounded (message : Message) (source : Event) : Prop where
  carrier : isHex64 message.sender = true
  author : isHex64 source.pubkey = true
  sig : isHex128 source.sig = true
  content : (utf8 source.content).length ≤ 256 * 1024

/-- A carry whose carrier and whose author both hold the grants for it. -/
structure GrantedCarry (host : Host) (policy : Policy) (message : Message) (channel reason : String)
    (source : Event) (carrierGrant authorGrant : Grant) : Prop where
  relay : policy.relayGrantFor message.sender = some carrierGrant
  relayCap : carrierGrant.cap = "task-relay"
  carries : CarriesSource host (policy.carrierChannels message.sender) message channel reason source
  author : policy.taskGrantFor source.pubkey = some authorGrant
  authorCap : authorGrant.cap ∈ INSTRUCTING

/-- A granted carry within the bounds. -/
structure TaskCarry (host : Host) (policy : Policy) (message : Message) (channel reason : String)
    (source : Event) (carrierGrant authorGrant : Grant) : Prop extends
    GrantedCarry host policy message channel reason source carrierGrant authorGrant where
  bounded : Bounded message source

/-- What a carry is admitted as: the source, on its author's grant. -/
def carriedItem (message : Message) (channel : String) (source : Event)
    (carrierGrant authorGrant : Grant) : Item where
  message := carriedMessage source
  admission :=
    ⟨source.pubkey, authorGrant.grantId, authorGrant.grantor, authorGrant.cap,
      some ⟨message.sender, carrierGrant.grantId, carrierGrant.grantor, source.id, channel,
        hopOf source⟩⟩

/-- What a direct message is admitted as: itself, on its sender's grant. -/
def directItem (message : Message) (grant : Grant) : Item :=
  ⟨message, message.sender, grant.grantId, grant.grantor, grant.cap, none⟩

/-- **What the grants allow**: under a usable policy a carry as its source, and anything else as
itself where its sender may task. -/
inductive Admits (host : Host) (policy : Policy) (message : Message) : Item → Prop
  | carried {channel reason : String} {source : Event} {carrierGrant authorGrant : Grant}
      (usable : policy.policyUsable = true)
      (carry : TaskCarry host policy message channel reason source carrierGrant authorGrant) :
      Admits host policy message (carriedItem message channel source carrierGrant authorGrant)
  | direct {grant : Grant} (usable : policy.policyUsable = true)
      (uncarried : ¬∃ channel reason source carrierGrant authorGrant,
        TaskCarry host policy message channel reason source carrierGrant authorGrant)
      (held : policy.taskGrantFor message.sender = some grant) (cap : grant.cap ∈ INSTRUCTING) :
      Admits host policy message (directItem message grant)

/-- What a carrier with a live relay grant makes known: whose signed message it carries, and why. -/
inductive Notifies (host : Host) (policy : Policy) (raw : Message) : Notice → Prop
  | notice {channel reason : String} {source : Event} {carrierGrant : Grant}
      (usable : policy.policyUsable = true)
      (relay : policy.relayGrantFor raw.sender = some carrierGrant)
      (relayCap : carrierGrant.cap = "task-relay")
      (carries : CarriesSource host (policy.carrierChannels raw.sender) raw channel reason source)
      (bounded : Bounded raw source) :
      Notifies host policy raw ⟨source.pubkey, source.id, channel, raw.sender, carrierGrant.grantId,
        carrierGrant.grantor, reason, source.createdAt⟩

/-! ### What the parser accepts -/

theorem guard_bind_eq_some {α : Type} {test : Prop} [Decidable test] {next : Unit → Option α}
    {result : α} : ((guard test : Option Unit) >>= next) = some result ↔
      test ∧ next () = some result := by
  by_cases holds : test <;> simp [guard, holds]

theorem bind_eq_some_iff {α β : Type} {first : Option α} {next : α → Option β} {result : β} :
    (first >>= next) = some result ↔ ∃ value, first = some value ∧ next value = some result :=
  Option.bind_eq_some_iff

theorem string_eq_some {value : Json} {text : String} :
    value.string = some text ↔ value = .str text := by
  cases value <;> simp [Json.string]

theorem bind_string_eq_some {found : Option Json} {text : String} :
    found.bind Json.string = some text ↔ found = some (.str text) := by
  rw [Option.bind_eq_some_iff]
  simp only [string_eq_some, exists_eq_right]

theorem fieldText_of_str {value : Json} {key text : String} (found : value.get key = some (.str text)) :
    fieldText value key = text := by
  rw [fieldText, found]
  rfl

/-- What the wire form of an event is made of. -/
theorem wireEvent_eq_some {body : Json} {source : Event} :
    wireEvent body = some source ↔
      body.get "id" = some (.str source.id) ∧ body.get "pubkey" = some (.str source.pubkey) ∧
        (body.get "created_at").bind Json.integer = some source.createdAt ∧
        (body.get "kind").bind Json.integer = some source.kind ∧
        (body.get "tags").bind tagsOf = some source.tags ∧
        body.get "content" = some (.str source.content) ∧
        body.get "sig" = some (.str source.sig) := by
  constructor
  · intro read
    obtain ⟨id, own, read⟩ := Option.bind_eq_some_iff.mp read
    obtain ⟨pubkey, author, read⟩ := Option.bind_eq_some_iff.mp read
    obtain ⟨createdAt, time, read⟩ := Option.bind_eq_some_iff.mp read
    obtain ⟨kind, sort, read⟩ := Option.bind_eq_some_iff.mp read
    obtain ⟨tags, listed, read⟩ := Option.bind_eq_some_iff.mp read
    obtain ⟨content, words, read⟩ := Option.bind_eq_some_iff.mp read
    obtain ⟨sig, signed, read⟩ := Option.bind_eq_some_iff.mp read
    obtain rfl := Option.some.inj read
    exact ⟨bind_string_eq_some.mp own, bind_string_eq_some.mp author, time, sort, listed,
      bind_string_eq_some.mp words, bind_string_eq_some.mp signed⟩
  · rintro ⟨own, author, time, sort, listed, words, signed⟩
    unfold wireEvent
    rw [own, author, time, sort, listed, words, signed]
    rfl

theorem isObj_of_mem_keys {value : Json} {key : String} (mem : key ∈ value.keys) :
    value.isObj = true := by
  cases value with
  | obj fields => rfl
  | _ => cases mem

/-- An object that has all of the wanted keys passes the test of its joined keys exactly where it has
no others. -/
theorem exactKeys_iff {value : Json} (want : List String) (some : want ≠ [])
    (sorted : want.Pairwise (· < ·)) (present : ∀ key ∈ want, key ∈ value.keys) :
    (value.isObj && decide (value.keysText = [','].intercalate (want.map String.toList))) = true ↔
      ∀ key, key ∈ value.keys ↔ key ∈ want := by
  rw [Bool.and_eq_true, decide_eq_true_eq, Json.keysText_eq_iff some sorted present]
  constructor
  · exact fun both key => ⟨both.2 key, present key⟩
  · intro exact
    obtain ⟨key, mem⟩ := List.exists_mem_of_ne_nil want some
    exact ⟨isObj_of_mem_keys (present key mem), fun key => (exact key).mp⟩

/-- The checks of the source, for an object that is an event on the wire. -/
theorem isSource_iff {body : Json} {source : Event} (wire : wireEvent body = some source) :
    isSource body = true ↔
      (∀ key, key ∈ body.keys ↔ key ∈ SOURCE_KEYS) ∧ source.kind = 9 ∧
        (utf8 source.content).length ≤ 256 * 1024 ∧ isHex64 source.pubkey = true ∧
        isHex64 source.id = true ∧ isHex128 source.sig = true := by
  obtain ⟨own, author, time, sort, listed, words, signed⟩ := wireEvent_eq_some.mp wire
  have created : "created_at" ∈ body.keys := by
    obtain ⟨value, found, -⟩ := Option.bind_eq_some_iff.mp time
    exact Json.mem_keys_of_get found
  have kinded : "kind" ∈ body.keys := by
    obtain ⟨value, found, -⟩ := Option.bind_eq_some_iff.mp sort
    exact Json.mem_keys_of_get found
  have tagged : "tags" ∈ body.keys := by
    obtain ⟨value, found, -⟩ := Option.bind_eq_some_iff.mp listed
    exact Json.mem_keys_of_get found
  have present : ∀ key ∈ SOURCE_KEYS, key ∈ body.keys := by
    intro key mem
    simp only [SOURCE_KEYS, List.mem_cons, List.not_mem_nil, or_false] at mem
    rcases mem with rfl | rfl | rfl | rfl | rfl | rfl | rfl
    · exact Json.mem_keys_of_get words
    · exact created
    · exact Json.mem_keys_of_get own
    · exact kinded
    · exact Json.mem_keys_of_get author
    · exact Json.mem_keys_of_get signed
    · exact tagged
  have keys := exactKeys_iff SOURCE_KEYS (List.cons_ne_nil _ _) (by decide) present
  have joined : [','].intercalate (SOURCE_KEYS.map String.toList) =
      "content,created_at,id,kind,pubkey,sig,tags".toList := by decide
  rw [joined] at keys
  rw [isSource, Bool.and_eq_true, Bool.and_eq_true, Bool.and_eq_true, Bool.and_eq_true,
    Bool.and_eq_true, Bool.and_eq_true, keys, sort, listed, words, fieldText_of_str author,
    fieldText_of_str own, fieldText_of_str signed]
  simp [Json.string, and_assoc]

/-- The checks of the carry object, for one that has a source. -/
theorem isCarry_iff {carry body : Json} (embedded : carry.get "source" = some body)
    {name : Json} (named : carry.get "channel" = some name) :
    isCarry carry = true ↔
      (∀ key, key ∈ carry.keys ↔ key ∈ CARRY_KEYS) ∧
        (carry.get "v").bind Json.integer = some 1 ∧
        carry.get "type" = some (.str "waggle-channel-task-carry") ∧
        ∃ reason ∈ REASONS, carry.get "reason" = some (.str reason) := by
  have joined : [','].intercalate (CARRY_KEYS.map String.toList) =
      "channel,reason,source,type,v".toList := by decide
  have exact : (carry.get "v").bind Json.integer = some 1 →
      carry.get "type" = some (.str "waggle-channel-task-carry") → ∀ reason,
      carry.get "reason" = some (.str reason) →
        ((carry.isObj && decide (carry.keysText = "channel,reason,source,type,v".toList)) = true ↔
          ∀ key, key ∈ carry.keys ↔ key ∈ CARRY_KEYS) := by
    intro version type reason why
    rw [← joined]
    refine exactKeys_iff CARRY_KEYS (List.cons_ne_nil _ _) (by decide) fun key mem => ?_
    simp only [CARRY_KEYS, List.mem_cons, List.not_mem_nil, or_false] at mem
    rcases mem with rfl | rfl | rfl | rfl | rfl
    · exact Json.mem_keys_of_get named
    · exact Json.mem_keys_of_get why
    · exact Json.mem_keys_of_get embedded
    · exact Json.mem_keys_of_get type
    · obtain ⟨value, found, -⟩ := Option.bind_eq_some_iff.mp version
      exact Json.mem_keys_of_get found
  rw [isCarry, Bool.and_eq_true, Bool.and_eq_true, Bool.and_eq_true, decide_eq_true_eq,
    decide_eq_true_eq, bind_string_eq_some, Option.any_eq_true]
  constructor
  · rintro ⟨⟨⟨keys, version⟩, type⟩, reason, found, known⟩
    rw [bind_string_eq_some] at found
    exact ⟨(exact version type reason found).mp keys, version, type, reason,
      List.contains_iff_mem.mp known, found⟩
  · rintro ⟨keys, version, type, reason, known, found⟩
    exact ⟨⟨⟨(exact version type reason found).mpr keys, version⟩, type⟩, reason,
      bind_string_eq_some.mpr found, List.contains_iff_mem.mpr known⟩

/-- The test of the `h` tags. -/
theorem oneTag_iff {tags : List (List String)} {channel : String} :
    ((channelTags tags).length = 1 ∧
      lowerAscii (((channelTags tags).head?.bind (·[1]?)).getD "") = channel) ↔
      (channelTags tags).map (fun tag => lowerAscii (tag[1]?.getD "")) = [channel] := by
  match channelTags tags with
  | [] => simp
  | [tag] => simp
  | tag :: next :: rest => simp

/-- A channel that is a UUID was named. -/
theorem exists_name {carry : Json} (uuid : isUuid (lowerAscii (fieldText carry "channel")) = true) :
    ∃ name, carry.get "channel" = some name ∧ name.text = fieldText carry "channel" := by
  unfold fieldText at uuid ⊢
  cases found : carry.get "channel" with
  | some name => exact ⟨name, rfl, rfl⟩
  | none =>
      rw [found] at uuid
      exact absurd uuid (by decide)

/-- **What the parser of a carry accepts**, and what it reads. -/
theorem parseChannelCarry_iff {host : Host} {message : Message} {channels : List String}
    {carriers : Option (List String)} {parsed : ChannelCarry}
    (own : carriers = none ∨ carriers = some [message.sender]) :
    parseChannelCarry host message channels carriers = some parsed ↔
      parsed.carrier = message.sender ∧
        CarriesSource host channels message parsed.channel parsed.reason parsed.source ∧
        Bounded message parsed.source := by
  constructor
  · intro read
    obtain ⟨hex, read⟩ := guard_bind_eq_some.mp read
    obtain ⟨-, read⟩ := guard_bind_eq_some.mp read
    obtain ⟨carry, content, read⟩ := bind_eq_some_iff.mp read
    obtain ⟨shape, read⟩ := guard_bind_eq_some.mp read
    obtain ⟨reason, why, read⟩ := bind_eq_some_iff.mp read
    obtain ⟨allowed, read⟩ := guard_bind_eq_some.mp read
    obtain ⟨body, embedded, read⟩ := bind_eq_some_iff.mp read
    obtain ⟨shape', read⟩ := guard_bind_eq_some.mp read
    obtain ⟨tags, listed, read⟩ := bind_eq_some_iff.mp read
    obtain ⟨tagged, read⟩ := guard_bind_eq_some.mp read
    obtain ⟨sourceAt, time, read⟩ := bind_eq_some_iff.mp read
    obtain ⟨carriedAt, clock, read⟩ := bind_eq_some_iff.mp read
    obtain ⟨window, read⟩ := guard_bind_eq_some.mp read
    obtain ⟨source, wire, read⟩ := bind_eq_some_iff.mp read
    obtain ⟨verified, read⟩ := guard_bind_eq_some.mp read
    obtain rfl := Option.some.inj read
    obtain ⟨known, uuid⟩ := List.mem_filter.mp (List.contains_iff_mem.mp allowed)
    obtain ⟨name, named, text⟩ := exists_name uuid
    obtain ⟨keys, version, type, reason', known', why'⟩ := (isCarry_iff embedded named).mp shape
    obtain ⟨sourceKeys, kind, small, author, -, sig⟩ := (isSource_iff wire).mp shape'
    obtain ⟨-, -, time', -, listed', -⟩ := wireEvent_eq_some.mp wire
    rw [bind_string_eq_some] at why
    obtain rfl : reason = reason' := by simpa using why.symm.trans why'
    obtain rfl : tags = source.tags := Option.some.inj (listed.symm.trans listed')
    obtain rfl : sourceAt = source.createdAt := Option.some.inj (time.symm.trans time')
    refine ⟨lowerAscii_of_isHex64 hex, ⟨⟨carry, body, ?_⟩, ⟨known, uuid⟩, kind, verified,
      oneTag_iff.mp tagged, carriedAt, clock, ?_, ?_⟩, hex, author, sig, small⟩
    · exact ⟨content, keys, version, type, known', why', ⟨name, named, by rw [text]⟩, embedded,
        sourceKeys, wire⟩
    · linarith [not_lt.mp window.2]
    · exact not_lt.mp window.1
  · rintro ⟨carrier, carries, bounded⟩
    obtain ⟨carry, body, object⟩ := carries.object
    obtain ⟨name, named, text⟩ := object.named
    obtain ⟨carriedAt, clock, after, before⟩ := carries.fresh
    have hex := bounded.carrier
    have lower := lowerAscii_of_isHex64 hex
    obtain ⟨-, -, time, -, listed, -⟩ := wireEvent_eq_some.mp object.wire
    have channel : lowerAscii (fieldText carry "channel") = parsed.channel := by
      rw [fieldText, named]
      exact text
    unfold parseChannelCarry
    refine guard_bind_eq_some.mpr ⟨hex, guard_bind_eq_some.mpr ⟨?_, bind_eq_some_iff.mpr
      ⟨carry, object.parsed, guard_bind_eq_some.mpr ⟨?_, bind_eq_some_iff.mpr
      ⟨parsed.reason, bind_string_eq_some.mpr object.why, guard_bind_eq_some.mpr ⟨?_,
      bind_eq_some_iff.mpr ⟨body, object.embedded, guard_bind_eq_some.mpr ⟨?_, bind_eq_some_iff.mpr
      ⟨_, listed, guard_bind_eq_some.mpr ⟨?_, bind_eq_some_iff.mpr ⟨_, time, bind_eq_some_iff.mpr
      ⟨carriedAt, clock, guard_bind_eq_some.mpr ⟨⟨?_, ?_⟩, bind_eq_some_iff.mpr ⟨_, object.wire,
      guard_bind_eq_some.mpr ⟨carries.verified, ?_⟩⟩⟩⟩⟩⟩⟩⟩⟩⟩⟩⟩⟩⟩⟩
    · rcases own with rfl | rfl
      · rfl
      · simp [lower, hex]
    · exact (isCarry_iff object.embedded named).mpr
        ⟨object.keys, object.version, object.type, _, object.known, object.why⟩
    · rw [channel]
      exact List.contains_iff_mem.mpr (List.mem_filter.mpr carries.configured)
    · exact (isSource_iff object.wire).mpr ⟨object.sourceKeys, carries.kind, bounded.content,
        bounded.author, host.verifyEvent_id carries.verified, bounded.sig⟩
    · rw [channel]
      exact oneTag_iff.mpr carries.tagged
    · exact not_lt.mpr before
    · exact not_lt.mpr (by linarith)
    · rw [channel, lower, ← carrier]
      rfl

/-- The content says what is carried. -/
theorem CarriesSource.source_eq {host host' : Host} {channels channels' : List String} {message : Message}
    {channel channel' reason reason' : String} {source source' : Event}
    (carries : CarriesSource host channels message channel reason source)
    (carries' : CarriesSource host' channels' message channel' reason' source') : source = source' := by
  obtain ⟨carry, body, object⟩ := carries.object
  obtain ⟨carry', body', object'⟩ := carries'.object
  obtain rfl := Option.some.inj (object.parsed.symm.trans object'.parsed)
  obtain rfl := Option.some.inj (object.embedded.symm.trans object'.embedded)
  exact Option.some.inj (object.wire.symm.trans object'.wire)

/-! ### What the loops do -/

section Loops

variable {host : Host} {policy : Policy} {message : Message} {item : Item}

theorem verifyChannelTaskCarry_iff :
    verifyChannelTaskCarry host message (policy.carrierChannels message.sender)
        (policy.relayGrantFor message.sender) policy.taskGrantFor = some item ↔
      ∃ channel reason source carrierGrant authorGrant,
        TaskCarry host policy message channel reason source carrierGrant authorGrant ∧
          item = carriedItem message channel source carrierGrant authorGrant := by
  constructor
  · intro read
    obtain ⟨carrierGrant, relay, read⟩ := bind_eq_some_iff.mp read
    obtain ⟨relayCap, read⟩ := guard_bind_eq_some.mp read
    obtain ⟨parsed, parse, read⟩ := bind_eq_some_iff.mp read
    obtain ⟨authorGrant, author, read⟩ := bind_eq_some_iff.mp read
    obtain ⟨authorCap, read⟩ := guard_bind_eq_some.mp read
    obtain ⟨carrier, carries, bounded⟩ := (parseChannelCarry_iff (.inl rfl)).mp parse
    refine ⟨parsed.channel, parsed.reason, parsed.source, carrierGrant, authorGrant,
      ⟨⟨relay, relayCap, carries, author, List.contains_iff_mem.mp authorCap⟩, bounded⟩, ?_⟩
    rw [← Option.some.inj read, carriedItem, carrier]
  · rintro ⟨channel, reason, source, carrierGrant, authorGrant, carry, rfl⟩
    have parse : parseChannelCarry host message (policy.carrierChannels message.sender) none =
        some ⟨reason, source, message.sender, channel⟩ :=
      (parseChannelCarry_iff (.inl rfl)).mpr ⟨rfl, carry.carries, carry.bounded⟩
    refine bind_eq_some_iff.mpr ⟨carrierGrant, carry.relay, guard_bind_eq_some.mpr ⟨carry.relayCap,
      bind_eq_some_iff.mpr ⟨_, parse, bind_eq_some_iff.mpr ⟨authorGrant, carry.author,
        guard_bind_eq_some.mpr ⟨List.contains_iff_mem.mpr carry.authorCap, rfl⟩⟩⟩⟩⟩

/-- One turn of the loop admits what the grants allow, and as that. -/
theorem admits_iff (usable : policy.policyUsable = true) :
    invocationOf host policy message = some item ↔ Admits host policy message item := by
  unfold invocationOf
  split
  next carried found =>
    obtain ⟨channel, reason, source, carrierGrant, authorGrant, carry, same⟩ :=
      verifyChannelTaskCarry_iff.mp found
    rw [Option.some.injEq]
    constructor
    · rintro rfl
      rw [same]
      exact .carried usable carry
    · intro admits
      cases admits with
      | carried usable carry' =>
          have again := verifyChannelTaskCarry_iff.mpr ⟨_, _, _, _, _, carry', rfl⟩
          rw [found, Option.some.injEq] at again
          exact again
      | direct _ uncarried _ _ => exact absurd ⟨_, _, _, _, _, carry⟩ uncarried
  next uncarried =>
    have none : ¬∃ channel reason source carrierGrant authorGrant,
        TaskCarry host policy message channel reason source carrierGrant authorGrant := by
      rintro ⟨channel, reason, source, carrierGrant, authorGrant, carry⟩
      rw [verifyChannelTaskCarry_iff.mpr ⟨_, _, _, _, _, carry, rfl⟩] at uncarried
      cases uncarried
    constructor
    · intro admitted
      split at admitted
      next grant held =>
        split at admitted
        next cap =>
          obtain rfl := Option.some.inj admitted
          exact .direct usable none held (List.contains_iff_mem.mp cap)
        next => cases admitted
      next => cases admitted
    · intro admits
      cases admits with
      | carried _ carry => exact absurd ⟨_, _, _, _, _, carry⟩ none
      | direct _ _ held cap =>
          rw [held]
          dsimp only
          rw [if_pos (List.contains_iff_mem.mpr cap)]
          rfl

theorem notifies_iff {notice : Notice} (usable : policy.policyUsable = true) :
    noticeOf host policy message = some notice ↔ Notifies host policy message notice := by
  constructor
  · intro read
    obtain ⟨carrierGrant, relay, read⟩ := bind_eq_some_iff.mp read
    obtain ⟨relayCap, read⟩ := guard_bind_eq_some.mp read
    obtain ⟨parsed, parse, read⟩ := bind_eq_some_iff.mp read
    obtain ⟨carrier, carries, bounded⟩ := (parseChannelCarry_iff (.inr rfl)).mp parse
    rw [← Option.some.inj read, carrier]
    exact .notice usable relay relayCap carries bounded
  · intro notifies
    cases notifies with
    | @notice channel reason source carrierGrant usable relay relayCap carries bounded =>
        have parse : parseChannelCarry host message (policy.carrierChannels message.sender)
            (some [message.sender]) = some ⟨reason, source, message.sender, channel⟩ :=
          (parseChannelCarry_iff (.inr rfl)).mpr ⟨rfl, carries, bounded⟩
        exact bind_eq_some_iff.mpr ⟨carrierGrant, relay, guard_bind_eq_some.mpr ⟨relayCap,
          bind_eq_some_iff.mpr ⟨_, parse, rfl⟩⟩⟩

theorem foldl_promote (messages : List Message) (items : List Item) (raw : JsSet Message) :
    (messages.foldl (promote host policy) (items, raw)).1 =
        items ++ messages.filterMap (invocationOf host policy) ∧
      ∀ message, message ∈ (messages.foldl (promote host policy) (items, raw)).2.toFinset ↔
        message ∈ raw.toFinset ∨ message ∈ messages ∧
          (invocationOf host policy message).isSome = true := by
  induction messages generalizing items raw with
  | nil => simp
  | cons next rest ih =>
      rw [List.foldl_cons]
      cases admitted : invocationOf host policy next with
      | some item =>
          rw [promote, admitted]
          obtain ⟨items', raw'⟩ := ih (items ++ [item]) (raw.add next)
          refine ⟨?_, fun message => ?_⟩
          · rw [items', List.filterMap_cons_some admitted, List.append_assoc]
            rfl
          · rw [raw', JsSet.toFinset_add, Finset.mem_insert, List.mem_cons]
            constructor
            · rintro ((rfl | old) | later)
              · exact .inr ⟨.inl rfl, by rw [admitted]; rfl⟩
              · exact .inl old
              · exact .inr ⟨.inr later.1, later.2⟩
            · rintro (old | ⟨rfl | later, some⟩)
              · exact .inl (.inr old)
              · exact .inl (.inl rfl)
              · exact .inr ⟨later, some⟩
      | none =>
          rw [promote, admitted]
          obtain ⟨items', raw'⟩ := ih items raw
          refine ⟨?_, fun message => ?_⟩
          · rw [items', List.filterMap_cons_none admitted]
          · rw [raw', List.mem_cons]
            constructor
            · rintro (old | later)
              · exact .inl old
              · exact .inr ⟨.inr later.1, later.2⟩
            · rintro (old | ⟨rfl | later, some⟩)
              · exact .inl old
              · rw [admitted] at some
                cases some
              · exact .inr ⟨later, some⟩

/-- What the two readers make of one message: nothing where the policy is not usable. -/
def verdict (host : Host) (policy : Policy) (message : Message) : Option Item :=
  if policy.policyUsable then invocationOf host policy message else none

theorem verdict_iff : verdict host policy message = some item ↔ Admits host policy message item := by
  unfold verdict
  by_cases usable : policy.policyUsable = true
  · rw [if_pos usable, admits_iff usable]
  · rw [if_neg usable]
    constructor
    · intro none
      cases none
    · intro admits
      cases admits with
      | carried usable' _ => exact absurd usable' usable
      | direct usable' _ _ _ => exact absurd usable' usable

/-- The parts are those of the verdicts. -/
theorem partition_eq (host : Host) (policy : Policy) (messages : List Message) :
    (partitionInvocations host policy messages).admitted =
        messages.filterMap (verdict host policy) ∧
      (partitionInvocations host policy messages).dataOnly =
        messages.filter fun message => (verdict host policy message).isNone := by
  unfold partitionInvocations verdict
  by_cases usable : policy.policyUsable = true
  · simp only [if_pos usable]
    obtain ⟨items, raw⟩ := @foldl_promote host policy messages [] .empty
    refine ⟨items, List.filter_congr fun message mem => ?_⟩
    have there := raw message
    rw [← JsSet.has_iff] at there
    cases verdict : invocationOf host policy message with
    | some item => simp [there.mpr (.inr ⟨mem, by rw [verdict]; rfl⟩)]
    | none =>
        have absent := mt there.mp (by simp [verdict, JsSet.empty, JsSet.toFinset])
        simp [Bool.eq_false_iff.mpr absent]
  · simp only [if_neg usable]
    simp [JsSet.has, JsSet.empty]

/-- The notice of one message. -/
def word (host : Host) (policy : Policy) (message : Message) : Option Notice :=
  if policy.policyUsable then noticeOf host policy message else none

theorem word_iff {notice : Notice} :
    word host policy message = some notice ↔ Notifies host policy message notice := by
  unfold word
  by_cases usable : policy.policyUsable = true
  · rw [if_pos usable, notifies_iff usable]
  · rw [if_neg usable]
    constructor
    · intro none
      cases none
    · intro notifies
      cases notifies with
      | notice usable' => exact absurd usable' usable

theorem notifications_eq (host : Host) (policy : Policy) (messages : List Message) :
    verifiedChannelNotifications host policy messages = messages.filterMap (word host policy) := by
  unfold verifiedChannelNotifications word
  by_cases usable : policy.policyUsable = true
  · simp only [if_pos usable]
  · simp [if_neg usable]

/-! ### The claim -/

/-- **Promotion to instruction is exactly what the grants allow.** Each message has one verdict, and
the list is split by it, in order; beside the two parts stands word of each carry of a carrier with
a live relay grant. -/
theorem partition_exact (host : Host) (policy : Policy) (messages : List Message) :
    ∃ verdict : Message → Option Item, ∃ notice : Message → Option Notice,
      (∀ message item, verdict message = some item ↔ Admits host policy message item) ∧
      (partitionInvocations host policy messages).admitted = messages.filterMap verdict ∧
      (partitionInvocations host policy messages).dataOnly =
        messages.filter (fun message => (verdict message).isNone) ∧
      (partitionInvocations host policy messages).actionable =
        (messages.filterMap verdict).map (·.message) ∧
      (partitionInvocations host policy messages).admissions =
        (messages.filterMap verdict).map (·.admission) ∧
      (∀ message word, notice message = some word ↔ Notifies host policy message word) ∧
      verifiedChannelNotifications host policy messages = messages.filterMap notice := by
  obtain ⟨admitted, dataOnly⟩ := partition_eq host policy messages
  refine ⟨verdict host policy, word host policy, fun message item => verdict_iff, admitted, dataOnly,
    ?_, ?_, fun message notice => word_iff, notifications_eq host policy messages⟩
  · rw [← admitted]
    rfl
  · rw [← admitted]
    rfl

end Loops

/-! ### The bounds -/

def sampleChannel : String := "a8186b53-537d-46ad-a7e7-b6486c58970e"

/-- A signed message of the channel. -/
def sampleSource (content : String) : Event where
  id := sampleId 'c'
  pubkey := sampleId 'd'
  createdAt := 100
  kind := 9
  tags := [["h", sampleChannel]]
  content := content
  sig := String.ofList (List.replicate 128 'e')

/-- The carry of it. -/
def sampleCarry (sender content : String) : Message where
  sender := sender
  sentAt := some 100
  content := Json.stringify (.obj [("v", .num 1 0), ("type", .str "waggle-channel-task-carry"),
    ("channel", .str sampleChannel), ("reason", .str "mention"),
    ("source", .obj [("id", .str (sampleId 'c')), ("pubkey", .str (sampleId 'd')),
      ("created_at", .num 100 0), ("kind", .num 9 0),
      ("tags", .arr [.arr [.str "h", .str sampleChannel]]), ("content", .str content),
      ("sig", .str (String.ofList (List.replicate 128 'e')))])])
  eventId := none
  kind := none

/-- Every carrier has its grant, and the author has one. -/
def samplePolicy : Policy where
  policyUsable := true
  taskGrantFor pubkey := if pubkey = sampleId 'd' then some ⟨sampleId '1', "owner", "task", false⟩ else none
  relayGrantFor _ := some ⟨sampleId '2', "owner", "task-relay", false⟩
  carrierChannels _ := [sampleChannel]

theorem verifyEvent_sampleSource (content : String) :
    Host.sample.verifyEvent (sampleSource content) = true := by
  have own : (sampleSource content).id = sampleId 'c' := rfl
  show isHex64 (sampleSource content).id = true
  rw [own]
  decide

theorem tagged_sampleSource (content : String) :
    (channelTags (sampleSource content).tags).map (fun tag => lowerAscii (tag[1]?.getD "")) =
      [sampleChannel] := by
  show (channelTags [["h", sampleChannel]]).map (fun tag => lowerAscii (tag[1]?.getD "")) =
    [sampleChannel]
  decide

theorem taskGrantFor_sample (pubkey : String) : samplePolicy.taskGrantFor pubkey =
    if pubkey = sampleId 'd' then some ⟨sampleId '1', "owner", "task", false⟩ else none := rfl

theorem taskGrantFor_sample_author : samplePolicy.taskGrantFor (sampleId 'd') =
    some ⟨sampleId '1', "owner", "task", false⟩ := by
  rw [taskGrantFor_sample, if_pos rfl]

theorem grantedCarry_sample (sender content : String) :
    GrantedCarry Host.sample samplePolicy (sampleCarry sender content) sampleChannel "mention"
      (sampleSource content) ⟨sampleId '2', "owner", "task-relay", false⟩
      ⟨sampleId '1', "owner", "task", false⟩ where
  relay := rfl
  relayCap := rfl
  carries := {
    object := by
      refine ⟨_, _, Json.parse_stringify _, fun key => ?_, rfl, rfl, ?_, rfl, ⟨_, rfl, ?_⟩, rfl,
        fun key => ?_, wireEvent_eq_some.mpr ⟨rfl, rfl, rfl, rfl, rfl, rfl, rfl⟩⟩
      · simp only [Json.keys, CARRY_KEYS, List.map_cons, List.map_nil, List.mem_dedup, List.mem_cons,
          List.not_mem_nil, or_false]
        tauto
      · decide
      · decide
      · simp only [Json.keys, SOURCE_KEYS, List.map_cons, List.map_nil, List.mem_dedup,
          List.mem_cons, List.not_mem_nil, or_false]
        tauto
    configured :=
      ⟨show sampleChannel ∈ [sampleChannel].map lowerAscii by decide, by decide⟩
    kind := rfl
    verified := verifyEvent_sampleSource content
    tagged := tagged_sampleSource content
    fresh := ⟨100, rfl, by norm_num [sampleSource], by norm_num [sampleSource]⟩ }
  author := taskGrantFor_sample_author
  authorCap := by decide

/-- A source of one byte more than the limit. -/
def longContent : String := String.ofList (List.replicate (256 * 1024 + 1) 'a')

theorem length_utf8_replicate (n : Nat) :
    (utf8 (String.ofList (List.replicate n 'a'))).length = n := by
  rw [utf8, String.toList_ofList]
  induction n with
  | zero => rfl
  | succ n ih =>
      rw [List.replicate_succ, List.flatMap_cons, List.length_append, ih, Nat.add_comm]
      rfl

/-- **The bounds are checks of their own**: a granted carry whose source is past the size limit, or
whose carrier has a name for a key, is data. -/
theorem carry_bounds :
    (∀ message ∈ [sampleCarry (sampleId 'b') longContent, sampleCarry "bridge" "do it"],
      ∃ source carrierGrant authorGrant, GrantedCarry Host.sample samplePolicy message sampleChannel
        "mention" source carrierGrant authorGrant) ∧
      samplePolicy.policyUsable = true ∧
      (partitionInvocations Host.sample samplePolicy
        [sampleCarry (sampleId 'b') longContent, sampleCarry "bridge" "do it"]).admitted = [] := by
  refine ⟨?_, rfl, ?_⟩
  · intro message mem
    simp only [List.mem_cons, List.not_mem_nil, or_false] at mem
    rcases mem with rfl | rfl
    · exact ⟨_, _, _, grantedCarry_sample _ _⟩
    · exact ⟨_, _, _, grantedCarry_sample _ _⟩
  · rw [(partition_eq _ _ _).1, List.filterMap_eq_nil_iff]
    intro message mem
    refine Option.eq_none_iff_forall_ne_some.mpr fun item found => ?_
    simp only [List.mem_cons, List.not_mem_nil, or_false] at mem
    rcases mem with rfl | rfl
    · cases verdict_iff.mp found with
      | carried _ carry =>
          have same := carry.carries.source_eq (grantedCarry_sample _ _).carries
          have small := carry.bounded.content
          rw [same] at small
          exact absurd (length_utf8_replicate (256 * 1024 + 1)) (Nat.ne_of_lt (Nat.lt_succ_of_le small))
      | direct _ _ held _ =>
          rw [sampleCarry, taskGrantFor_sample, if_neg (by decide)] at held
          cases held
    · cases verdict_iff.mp found with
      | carried _ carry => exact absurd carry.bounded.carrier (by decide)
      | direct _ _ held _ =>
          rw [sampleCarry, taskGrantFor_sample, if_neg (by decide)] at held
          cases held

end Nvoy.Admission
