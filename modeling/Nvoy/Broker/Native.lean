/-
**Delivery of a native mention**: `deliver` of `instance-broker-native.mjs`, from the marker it has
claimed to what it writes to the adapter.

* `nativeGrant` — the author's grant, and the owner alone in a DM;
* `nativeOutcome` — the exits of the program, in order;
* `nativeDelivers` — what reached the adapter;
* `accepts_native` — it is accepted when the message is not past the limit of an admitted message;
* `adapter_accepts` — this and `accepts_wrapped`, for what either broker writes.
-/

import Nvoy.Broker.Limits
import Nvoy.Broker.Wrapped

namespace Nvoy.Broker

open Admission
open Memory (isUuid isSafeInteger)

/-- The grant a message is admitted on. -/
def nativeGrant (author : String) (dm : Bool) (grants : List PolicyGrant) (grantors : List String) :
    Option PolicyGrant :=
  if dm && !grantors.contains author then none
  else
    let held := grants.filter fun grant => grant.pubkey = author && grantors.contains grant.grantor
    ((held.find? (·.cap = "task+act")).or (held.find? (·.cap = "task"))).filter fun grant =>
      isHex64 grant.grantId

/-! ### The program -/

/-- What the Buzz relay answers on one login. -/
structure BuzzAnswers where
  notices : List Event
  /-- The events under the id. -/
  sources : List Event
  /-- Those of the filters that were answered. -/
  around : List Event

/-- What a delivery meets once it has the marker. -/
structure NativeRun where
  /-- Reading the marker and the credential. -/
  ready : Except String Unit
  signer : Except String String
  /-- `names` of `may_post.mention` -/
  names : String → Option String
  session : Except String BuzzAnswers
  /-- What `attention.mjs --policy-only` prints, if it ends well. -/
  policy : Except String PolicyReport
  now : Clock
  /-- `admissionLimit` -/
  limited : Except String (Option String)
  /-- `claimChannelSource` -/
  claim : Except String Bool
  /-- Writing the receipt. -/
  persisted : Except String Unit

/-- The event the relay returned under the id. -/
def NativeRun.source (run : NativeRun) (eventId : String) : Option Event :=
  run.session.toOption.bind fun answers => answers.sources.find? (·.id = eventId)

section Deliver

variable (host : Host) (manifest : Manifest) (eventId : String)

def nativeReceipt (source : Event) (mention : Mention) (dm : Bool) (grant : PolicyGrant)
    (now : Clock) : Receipt where
  manifestId := manifest.id
  broker := manifest.pubkey
  envelope := eventId
  sender := mention.author
  grantId := grant.grantId
  grantor := grant.grantor
  cap := grant.cap
  route := .native mention.channel (rootOf eventId source.tags)
    ((hopOf source).filter fun hop => isSafeInteger hop) dm
  admittedAt := now.ms

/-- The context that goes along: one that would be refused, or is empty, is left out. -/
def nativeContext (run : NativeRun) (answers : BuzzAnswers) (source : Event) : Option Json := do
  let filters ← contextFilters source
  let context := channelContext host answers.around filters.channel source run.names
    (run.now.ms / 1000)
  guard ((validateContext context).toBool)
  let messages ← (context.get "messages").bind Json.items
  guard (messages ≠ [])
  return context

def nativeMessage (source : Event) (mention : Mention) : Json :=
  .obj [("from", .str mention.author), ("at", printed (.num source.createdAt 0)),
    ("content", .str source.content), ("event_id", .str eventId), ("kind", .num 9 0)]

/-- The delivery of one mention on one grant. -/
def mentionOutcome (run : NativeRun) (answers : BuzzAnswers) (source : Event) (mention : Mention)
    (dm : Bool) (grant : PolicyGrant) : Outcome :=
  match run.limited with
  | .error why => .dies why
  | .ok (some why) => .finished why
  | .ok none =>
      match run.claim with
      | .error why => .dies why
      | .ok false => .finished "was already admitted through another path"
      | .ok true =>
          match run.persisted with
          | .error why => .dies why
          | .ok () =>
              let receipt := nativeReceipt manifest eventId source mention dm grant run.now
              .delivers (some receipt) (taskPacket manifest eventId
                (.obj (authorityFields manifest receipt)) [nativeMessage eventId source mention]
                (nativeContext host run answers source))

/-- The DMs that are no channel of the manifest. -/
def ownDms (me : String) (answers : BuzzAnswers) : List String :=
  (dmChannels host me answers.notices).filter fun channel => !(manifest.buzz.getD []).contains channel

/-- The delivery of what the relay has under the id. -/
def sourceOutcome (run : NativeRun) (answers : BuzzAnswers) (source : Event) : Outcome :=
  let dms := ownDms host manifest manifest.pubkey answers
  match nativeMention host manifest.pubkey (manifest.buzz.getD [] ++ dms) (run.now.ms / 1000) source with
  | none => .finished "is not a signed mention of this identity"
  | some mention =>
      let dm := dms.contains mention.channel
      if dm && !manifest.grantors.contains mention.author then
        .finished ("DM author " ++ short mention.author ++
          " is not this identity's owner; heard as data only")
      else match run.policy with
        | .error why => .requeued why
        | .ok policy =>
            if policy.me ≠ manifest.pubkey then .dies "policy was evaluated for a different identity"
            else if !policy.policyUsable then .requeued "live grant policy unavailable"
            else match nativeGrant mention.author dm policy.grants manifest.grantors with
              | none => .finished ("author " ++ short mention.author ++
                  " holds no live task grant; heard as data only")
              | some grant => mentionOutcome host manifest eventId run answers source mention dm grant

/-- `deliver`, once it has the marker. -/
def nativeOutcome (run : NativeRun) : Outcome :=
  if manifest.buzz.isNone then
    .dies "this manifest has no buzz block; there is nothing native to deliver"
  else match run.ready with
  | .error why => .dies why
  | .ok () =>
      match run.signer with
      | .error why => .requeued why
      | .ok me =>
          if me ≠ manifest.pubkey then .dies "signer does not match manifest pubkey"
          else match run.session with
            | .error why => .requeued why
            | .ok answers =>
                match answers.sources.find? (·.id = eventId) with
                | none => .finished "is not stored in any configured channel"
                | some source => sourceOutcome host manifest eventId run answers source

end Deliver

/-! ### What reached the adapter -/

/-- The mention, the grant and the channel behind a packet. -/
structure NativeDelivery (host : Host) (manifest : Manifest) (eventId : String) (run : NativeRun)
    (answers : BuzzAnswers) (source : Event) (mention : Mention) (grant : PolicyGrant)
    (policy : PolicyReport) : Prop where
  buzz : manifest.buzz.isSome = true
  session : run.session = .ok answers
  found : answers.sources.find? (·.id = eventId) = some source
  read : nativeMention host manifest.pubkey
    (manifest.buzz.getD [] ++ ownDms host manifest manifest.pubkey answers) (run.now.ms / 1000)
      source = some mention
  owner : mention.channel ∈ ownDms host manifest manifest.pubkey answers →
    mention.author ∈ manifest.grantors
  usable : policy.policyUsable = true
  held : nativeGrant mention.author
    ((ownDms host manifest manifest.pubkey answers).contains mention.channel) policy.grants
    manifest.grantors = some grant
  unlimited : run.limited = .ok none

section Delivered

variable {host : Host} {manifest : Manifest} {eventId : String} {run : NativeRun}
  {receipt : Option Receipt} {packet : Json}

/-- **What reached the adapter** is one mention on one grant. -/
theorem nativeDelivers (delivers : nativeOutcome host manifest eventId run = .delivers receipt packet) :
    ∃ answers source mention grant policy,
      NativeDelivery host manifest eventId run answers source mention grant policy ∧
      receipt = some (nativeReceipt manifest eventId source mention
        ((ownDms host manifest manifest.pubkey answers).contains mention.channel) grant run.now) ∧
      packet = taskPacket manifest eventId (.obj (authorityFields manifest
        (nativeReceipt manifest eventId source mention
          ((ownDms host manifest manifest.pubkey answers).contains mention.channel) grant run.now)))
        [nativeMessage eventId source mention] (nativeContext host run answers source) := by
  unfold nativeOutcome at delivers
  by_cases bare : manifest.buzz.isNone = true
  · rw [if_pos bare] at delivers
    cases delivers
  rw [if_neg bare] at delivers
  split at delivers
  · cases delivers
  split at delivers
  · cases delivers
  split_ifs at delivers
  split at delivers
  · cases delivers
  next answers session =>
  split at delivers
  · cases delivers
  next source found =>
  unfold sourceOutcome at delivers
  dsimp only at delivers
  split at delivers
  · cases delivers
  next mention read =>
  split_ifs at delivers with stranger
  split at delivers
  · cases delivers
  next policy _ =>
  split_ifs at delivers with other unusable
  split at delivers
  · cases delivers
  next grant held =>
  unfold mentionOutcome at delivers
  split at delivers
  · cases delivers
  · cases delivers
  next unlimited =>
  split at delivers
  · cases delivers
  · cases delivers
  split at delivers
  · cases delivers
  cases delivers
  refine ⟨answers, source, mention, grant, policy, ?_, rfl, rfl⟩
  exact {
    buzz := by rwa [Bool.not_eq_true, Option.isNone_eq_false_iff] at bare
    session := session
    found := found
    read := read
    owner := fun dm => by
      by_contra other
      refine stranger ?_
      rw [Bool.and_eq_true, List.contains_iff_mem, Bool.not_eq_true', ← Bool.not_eq_true,
        List.contains_iff_mem]
      exact ⟨dm, other⟩
    usable := by rwa [Bool.not_eq_true, Bool.not_eq_false'] at unusable
    held := held
    unlimited := unlimited }

theorem nativeGrant_eq_some {author : String} {dm : Bool} {grants : List PolicyGrant}
    {grantors : List String} {grant : PolicyGrant}
    (held : nativeGrant author dm grants grantors = some grant) :
    grant ∈ grants ∧ grant.pubkey = author ∧ grant.grantor ∈ grantors ∧ grant.cap ∈ INSTRUCTING ∧
      isHex64 grant.grantId = true := by
  unfold nativeGrant at held
  split_ifs at held
  obtain ⟨found, hex⟩ := Option.filter_eq_some_iff.mp held
  have both : ∀ {cap : String}, cap ∈ INSTRUCTING →
      (grants.filter fun grant => grant.pubkey = author && grantors.contains grant.grantor).find?
        (·.cap = cap) = some grant →
      grant ∈ grants ∧ grant.pubkey = author ∧ grant.grantor ∈ grantors ∧
        grant.cap ∈ INSTRUCTING ∧ isHex64 grant.grantId = true := by
    intro cap instructs first
    have isCap : grant.cap = cap := by simpa using List.find?_some first
    obtain ⟨listed, own⟩ := List.mem_filter.mp (List.mem_of_find?_eq_some first)
    rw [Bool.and_eq_true, decide_eq_true_eq, List.contains_iff_mem] at own
    exact ⟨listed, own.1, own.2, isCap ▸ instructs, hex⟩
  rcases Option.or_eq_some_iff.mp found with act | ⟨-, task⟩
  · exact both (by decide) act
  · exact both (by decide) task

theorem context_of_native {answers : BuzzAnswers} {source : Event} {context : Json}
    (built : nativeContext host run answers source = some context) :
    validateContext context = .ok () ∧ ∃ channel, soleChannel source = some channel ∧
      context.get "channel" = some (.str channel) := by
  obtain ⟨filters, read, built⟩ := Option.bind_eq_some_iff.mp built
  obtain ⟨valid, built⟩ := guard_bind_eq_some.mp built
  obtain ⟨messages, -, built⟩ := Option.bind_eq_some_iff.mp built
  obtain ⟨-, built⟩ := guard_bind_eq_some.mp built
  obtain rfl := Option.some.inj built
  refine ⟨?_, filters.channel, ?_, rfl⟩
  · cases checked : validateContext (channelContext host answers.around filters.channel source
        run.names (run.now.ms / 1000)) with
    | ok => rfl
    | error refusal =>
        rw [checked] at valid
        cases valid
  · obtain ⟨channel, sole, read⟩ := Option.bind_eq_some_iff.mp read
    obtain ⟨-, read⟩ := guard_bind_eq_some.mp read
    obtain rfl := Option.some.inj read
    exact sole

theorem get_nativeFields (manifest : Manifest) {receipt : Receipt} {channel root : String}
    {hop : Option Int} {dm : Bool} (route : receipt.route = .native channel root hop dm) :
    (Json.obj (authorityFields manifest receipt)).get "source_event" =
        some (.str receipt.envelope) ∧
      (Json.obj (authorityFields manifest receipt)).get "reply_channel" = some (.str channel) ∧
      (Json.obj (authorityFields manifest receipt)).get "dm" =
        if dm then some (.bool true) else none := by
  rw [authorityFields, route]
  cases dm <;> exact ⟨rfl, rfl, rfl⟩

/-- A native receipt's authority is accepted: of a channel of the manifest, or of an owner's DM. -/
theorem isNativeAuthority_authorityFields {receipt : Receipt} {record message : Json}
    {channel root : String} {hop : Option Int} {dm : Bool} {channels : List String}
    (route : receipt.route = .native channel root hop dm) (hex : isHex64 receipt.envelope = true)
    (bound : record.get "envelope" = some (.str receipt.envelope))
    (buzz : manifest.buzz = some channels)
    (allowed : if dm then isUuid channel = true ∧ receipt.sender ∈ manifest.grantors ∧
      channel ∉ channels else channel ∈ channels)
    (event : message.get "event_id" = some (.str receipt.envelope))
    (kind : (message.get "kind").bind Json.integer = some 9) :
    isNativeAuthority manifest record (.obj (authorityFields manifest receipt)) [message] = true := by
  obtain ⟨isSource, isChannel, isDm'⟩ := get_nativeFields manifest route
  have isSender := (get_authorityFields manifest receipt).2.2.1
  have source : [message].all (isSourceMessage (.obj (authorityFields manifest receipt))) = true := by
    rw [List.all_cons, List.all_nil, Bool.and_true, isSourceMessage, event, isSource, kind]
    simp [strictEq]
  have same : strictEq (record.get "envelope")
      ((Json.obj (authorityFields manifest receipt)).get "source_event") = true := by
    rw [bound, isSource]
    exact decide_eq_true rfl
  unfold isNativeAuthority
  rw [hexField_str isSource, hex, same, buzz, source, Option.any_some, includes_str isChannel]
  cases dm with
  | true =>
      obtain ⟨uuid, owner, outside⟩ := allowed
      have narrow : isDm manifest (.obj (authorityFields manifest receipt)) = true := by
        rw [isDm, isDm', if_pos rfl, patternText_str isChannel, uuid, includes_str isSender, buzz,
          Option.any_some, includes_str isChannel, List.contains_iff_mem.mpr owner,
          Bool.eq_false_iff.mpr (mt List.contains_iff_mem.mp outside)]
        rfl
      rw [narrow, Bool.or_true]
      rfl
  | false =>
      rw [isDm', if_neg Bool.false_ne_true, List.contains_iff_mem.mpr allowed, Bool.or_true]
      rfl

/-- **What is delivered of a native mention is accepted when its content is within the limit of an
admitted message.** -/
theorem accepts_native (named : isHex64 eventId = true)
    (delivers : nativeOutcome host manifest eventId run = .delivers receipt packet) :
    Accepts manifest packet ↔
      ∀ source, run.source eventId = some source → (utf8 source.content).length ≤ 256 * 1024 := by
  obtain ⟨answers, source, mention, grant, policy, delivery, -, rfl⟩ := nativeDelivers delivers
  obtain ⟨channels, buzz⟩ := Option.isSome_iff_exists.mp delivery.buzz
  obtain ⟨-, hex, -, -, -, sole, listed, -, -, author, -, -⟩ := nativeMention_eq_some.mp delivery.read
  obtain ⟨-, -, grantor, cap, hexGrant⟩ := nativeGrant_eq_some delivery.held
  rw [← author] at hex
  rw [buzz, Option.getD_some, List.mem_append] at listed
  have only : ∀ other, run.source eventId = some other ↔ source = other := by
    intro other
    rw [NativeRun.source, delivery.session]
    show answers.sources.find? (·.id = eventId) = some other ↔ source = other
    rw [delivery.found, Option.some_inj]
  simp only [only, forall_eq']
  rw [accepts_taskPacket]
  have live : (nativeReceipt manifest eventId source mention
      ((ownDms host manifest manifest.pubkey answers).contains mention.channel) grant run.now).Live
      manifest :=
    ⟨hex, hexGrant, grantor, cap, run.now.after, run.now.bounded⟩
  have admitted : isAdmittedMessage (nativeMessage eventId source mention) = true ↔
      (utf8 source.content).length ≤ 256 * 1024 := isAdmittedMessage_obj rfl rfl rfl rfl hex
  rw [List.all_cons, List.all_nil, Bool.and_true, admitted]
  constructor
  · intro accepted
    exact accepted.2.2.2.1
  · intro small
    refine ⟨named, List.cons_ne_nil _ _, Nat.succ_le_succ (Nat.zero_le _), small, ?_,
      isAuthority_authorityFields live ?_, fun two => ?_, fun three => ⟨?_, ?_⟩⟩
    · intro context built
      exact (context_of_native built).1
    · intro message mem
      obtain rfl := List.mem_singleton.mp mem
      rfl
    · rw [versionOf_authorityFields, Option.some_inj] at two
      exact absurd two (by decide : (3 : Int) ≠ 2)
    · refine isNativeAuthority_authorityFields rfl named (get_taskPacket _ _ _ _ _).2.2.1 buzz ?_ rfl rfl
      by_cases dm : mention.channel ∈ ownDms host manifest manifest.pubkey answers
      · rw [if_pos (List.contains_iff_mem.mpr dm)]
        obtain ⟨inside, kept⟩ := List.mem_filter.mp dm
        rw [buzz, Option.getD_some, Bool.not_eq_true', ← Bool.not_eq_true, List.contains_iff_mem] at kept
        exact ⟨isUuid_of_dmChannels inside, delivery.owner dm, kept⟩
      · rw [if_neg (mt List.contains_iff_mem.mp dm)]
        exact listed.resolve_right dm
    · intro context built
      obtain ⟨-, channel, sole', found⟩ := context_of_native built
      obtain rfl := Option.some.inj (sole.symm.trans sole')
      rw [found, (get_nativeFields manifest rfl).2.1]
      exact decide_eq_true rfl

end Delivered

/-! ### What the brokers write -/

/-- **What a broker writes, the adapter accepts**, but for a notice without a positive time and a
native message past the limit. -/
theorem adapter_accepts {host : Host} {manifest : Manifest} {envelope : String}
    (lower : LowersHex host) (named : isHex64 envelope = true) :
    (∀ getEventHash scopeHash answers me run receipt packet,
      run.report = .ok (attention host getEventHash scopeHash manifest answers me envelope) →
      wrappedOutcome manifest envelope run = .delivers receipt packet →
      (Accepts manifest packet ↔
        ∀ n ∈ (attention host getEventHash scopeHash manifest answers me envelope).notifications,
          0 < n.observedAt ∧ (n.observedAt : ℚ) < 2 ^ 1024 - 2 ^ 970)) ∧
      ∀ run receipt packet, nativeOutcome host manifest envelope run = .delivers receipt packet →
        (Accepts manifest packet ↔ ∀ source, run.source envelope = some source →
          (utf8 source.content).length ≤ 256 * 1024) :=
  ⟨fun _ _ _ _ _ _ _ read delivers => accepts_wrapped lower named read delivers,
    fun _ _ _ delivers => accepts_native named delivers⟩

theorem lowersHex_sample : LowersHex Host.sample := fun _ hex => Memory.lowerAscii_of_isHex64 hex

/-! ### Two messages, one past the limit -/

/-- The sample manifest, with a channel. -/
def channelManifest : Manifest where
  id := "worker"
  pubkey := sampleId 'a'
  grantors := [sampleId 'b']
  carriers := []
  buzz := some [sampleChannel]
  isHex64_pubkey := by decide
  grantors_ne := by decide
  isHex64_grantors := by decide
  carriers_nodup := List.nodup_nil
  isUuid_buzz channels found channel mem := by
    obtain rfl := Option.some.inj found
    obtain rfl := List.mem_singleton.mp mem
    decide

/-- A signed message of the channel that names the identity. -/
def channelMessage (content : String) : Event :=
  { sampleSource content with tags := [["h", sampleChannel], ["p", sampleId 'a']] }

/-- The author holds a task grant, and everything works. -/
def channelRun (content : String) : NativeRun where
  ready := .ok ()
  signer := .ok (sampleId 'a')
  names _ := none
  session := .ok ⟨[], [channelMessage content], []⟩
  policy := .ok ⟨sampleId 'a', true, [⟨sampleId 'd', "task", sampleId '1', sampleId 'b'⟩]⟩
  now := ⟨1000000, by decide, by decide⟩
  limited := .ok none
  claim := .ok true
  persisted := .ok ()

theorem find_channelMessage (content : String) :
    [channelMessage content].find? (·.id = sampleId 'c') = some (channelMessage content) :=
  List.find?_cons_of_pos (decide_eq_true rfl)

theorem delivers_channelRun (content : String) : ∃ receipt packet,
    nativeOutcome Host.sample channelManifest (sampleId 'c') (channelRun content) =
      .delivers receipt packet := by
  have kind : (9 : Int) ∈ CHANNEL_KINDS := by decide
  have hex : isHex64 (sampleId 'd') = true := by decide
  have other : sampleId 'd' ≠ sampleId 'a' := by decide
  have early : (100 : Int) ≤ 1000000 / 1000 + 900 := by decide
  have names : (channelMessage content).tagValues "p" ++ (channelMessage content).tagValues "mention" =
      [some (sampleId 'a')] := rfl
  have signed := verifyEvent_sampleSource content
  have listed : sampleChannel ∈ channelManifest.buzz.getD [] ++ ownDms Host.sample channelManifest
      channelManifest.pubkey ⟨[], [channelMessage content], []⟩ := List.mem_cons_self
  have read : nativeMention Host.sample channelManifest.pubkey
      (channelManifest.buzz.getD [] ++ ownDms Host.sample channelManifest channelManifest.pubkey
        ⟨[], [channelMessage content], []⟩) ((channelRun content).now.ms / 1000)
      (channelMessage content) = some ⟨sampleChannel, sampleId 'd', sampleId 'c', 100⟩ :=
    nativeMention_eq_some.mpr ⟨kind, hex, other, rfl, early, rfl, listed,
      names ▸ List.mem_cons_self, signed, rfl, rfl, rfl⟩
  have held : nativeGrant (sampleId 'd') false [⟨sampleId 'd', "task", sampleId '1', sampleId 'b'⟩]
      channelManifest.grantors = some ⟨sampleId 'd', "task", sampleId '1', sampleId 'b'⟩ := rfl
  have dms : (ownDms Host.sample channelManifest channelManifest.pubkey
      ⟨[], [channelMessage content], []⟩).contains sampleChannel = false := rfl
  unfold nativeOutcome
  rw [if_neg (by decide)]
  simp only [channelRun]
  rw [if_neg (by decide)]
  simp only [find_channelMessage, sourceOutcome]
  simp only [channelRun] at read
  rw [read]
  simp only [dms, Bool.false_and]
  rw [if_neg Bool.false_ne_true, if_neg (by decide), if_neg (by decide), held]
  exact ⟨_, _, rfl⟩

theorem adapter_accepts_hello : ∃ receipt packet,
    nativeOutcome Host.sample channelManifest (sampleId 'c') (channelRun "hello") =
      .delivers receipt packet ∧ Accepts channelManifest packet := by
  obtain ⟨receipt, packet, delivers⟩ := delivers_channelRun "hello"
  refine ⟨receipt, packet, delivers, ?_⟩
  refine ((adapter_accepts lowersHex_sample (by decide)).2 _ _ _ delivers).mpr fun source read => ?_
  obtain rfl := Option.some.inj ((find_channelMessage "hello").symm.trans read)
  exact (by decide : (utf8 "hello").length ≤ 256 * 1024)

/-- A message one byte past the limit is admitted, and refused by the adapter. -/
theorem adapter_refuses_long : ∃ receipt packet,
    nativeOutcome Host.sample channelManifest (sampleId 'c') (channelRun longContent) =
      .delivers receipt packet ∧ ¬Accepts channelManifest packet := by
  obtain ⟨receipt, packet, delivers⟩ := delivers_channelRun longContent
  refine ⟨receipt, packet, delivers, fun accepted => ?_⟩
  have small := (accepts_native (by decide) delivers).mp accepted _ (find_channelMessage longContent)
  have long := length_utf8_replicate (256 * 1024 + 1)
  exact absurd long (Nat.ne_of_lt (Nat.lt_succ_of_le small))

end Nvoy.Broker
