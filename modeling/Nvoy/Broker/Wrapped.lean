/-
**Delivery of a wrapped message**: `deliver` of `instance-broker.mjs`, from the marker it has claimed
to what it writes to the adapter.

* `Receipt` — what an admission leaves for the answer to it;
* `wrappedOutcome` — the exits of the program, in order: put back, finished, dead, or a packet;
* `accepts_wrapped` — what it writes on attention's report is accepted, a notice when its time is a
  positive number.
-/

import Nvoy.Broker.Packets

namespace Nvoy.Broker

open Admission
open Memory (lowerAscii isUuid lowerAscii_of_isHex64)

/-! ### Receipts -/

/-- How the message came, and where its answer goes. -/
inductive Route where
  /-- Version 1, mode `direct`. -/
  | direct
  /-- Version 2, mode `channel-carry`. -/
  | carried (carrier carrierGrantId carrierGrantor sourceEvent replyChannel : String)
  /-- Version 3, mode `buzz-native`. -/
  | native (replyChannel replyRoot : String) (hop : Option Int) (dm : Bool)
  deriving DecidableEq

/-- An admission receipt. -/
structure Receipt where
  /-- `instance` -/
  manifestId : String
  broker : String
  envelope : String
  sender : String
  grantId : String
  grantor : String
  cap : String
  route : Route
  admittedAt : Int
  deriving DecidableEq

def Route.version : Route → Int
  | .direct => 1
  | .carried .. => 2
  | .native .. => 3

/-- What the authority of a route has besides. -/
def Route.fields (envelope : String) : Route → List (String × Json)
  | .direct => []
  | .carried carrier carrierGrantId carrierGrantor sourceEvent replyChannel =>
      [("carrier", .str carrier), ("carrier_grant_id", .str carrierGrantId),
        ("carrier_grantor", .str carrierGrantor), ("source_event", .str sourceEvent),
        ("reply_channel", .str replyChannel)]
  | .native replyChannel _ _ dm =>
      [("source_event", .str envelope), ("reply_channel", .str replyChannel)] ++
        (if dm then [("dm", .bool true)] else [])

/-- The authority that a receipt stands for. -/
def authorityFields (manifest : Manifest) (receipt : Receipt) : List (String × Json) :=
  [("version", .num receipt.route.version 0), ("type", .str "scoped-instruction"),
    ("sender", .str receipt.sender), ("grant_id", .str receipt.grantId),
    ("grantor", .str receipt.grantor), ("cap", .str receipt.cap),
    ("scope_subject", .str manifest.pubkey), ("policy_checked_at", .num receipt.admittedAt 0)] ++
    receipt.route.fields receipt.envelope

/-! ### The program -/

/-- How a delivery ends. Only `requeued` puts the marker back. -/
inductive Outcome where
  | dies (why : String)
  | requeued (why : String)
  /-- The marker is renamed to `.done`. -/
  | finished (why : String)
  | delivers (receipt : Option Receipt) (packet : Json)

/-- What a delivery meets once it has the marker. -/
structure WrappedRun where
  /-- Reading the marker and the credential. -/
  ready : Except String Unit
  /-- What `attention.mjs` prints, if it ends well. -/
  report : Except String Report
  now : Clock
  /-- `admissionLimit`: why the sender is held back, if it is. -/
  limited : Except String (Option String)
  /-- `claimChannelSource`: whether the claim is accepted. -/
  claim : Except String Bool
  /-- Writing the receipt. -/
  persisted : Except String Unit

def isBoundAdmission (admission : Admission) (message : Json) : Bool :=
  isHex64 admission.sender && isHex64 admission.grantId && isHex64 admission.grantor &&
    INSTRUCTING.contains admission.cap &&
    lowerAscii admission.sender = lowerAscii (fieldText message "from")

def isBoundCarry (manifest : Manifest) (carried : CarriedBy) : Bool :=
  isHex64 carried.carrier && isHex64 carried.carrierGrantId && isHex64 carried.carrierGrantor &&
    isHex64 carried.sourceEvent && isUuid carried.replyChannel &&
    manifest.carriers.any fun entry =>
      entry.pubkey = carried.carrier && entry.channels.contains carried.replyChannel

def routeOf (admission : Admission) : Route :=
  match admission.carried with
  | none => .direct
  | some carried => .carried (lowerAscii carried.carrier) (lowerAscii carried.carrierGrantId)
      (lowerAscii carried.carrierGrantor) (lowerAscii carried.sourceEvent)
      (lowerAscii carried.replyChannel)

def receiptOf (manifest : Manifest) (envelope : String) (admission : Admission) (now : Clock) :
    Receipt where
  manifestId := manifest.id
  broker := manifest.pubkey
  envelope := envelope
  sender := lowerAscii admission.sender
  grantId := lowerAscii admission.grantId
  grantor := lowerAscii admission.grantor
  cap := admission.cap
  route := routeOf admission
  admittedAt := now.ms

section Deliver

variable (manifest : Manifest) (envelope : String)

/-- The delivery of one admitted message, past the checks of its shape. -/
def admittedOutcome (run : WrappedRun) (message : Json) (admission : Admission) : Outcome :=
  match run.limited with
  | .error why => .dies why
  | .ok (some why) => .finished why
  | .ok none =>
      match if admission.carried.isSome then run.claim else .ok true with
      | .error why => .dies why
      | .ok false => .finished "duplicate channel source suppressed"
      | .ok true =>
          match run.persisted with
          | .error why => .dies why
          | .ok () =>
              let receipt := receiptOf manifest envelope admission run.now
              .delivers (some receipt) (taskPacket manifest envelope
                (.obj (authorityFields manifest receipt)) [message] none)

def reportOutcome (run : WrappedRun) (report : Report) : Outcome :=
  if report.me ≠ manifest.pubkey then .dies "credential does not match manifest pubkey"
  else if !report.policyUsable then .requeued "live grant policy unavailable"
  else match report.actionable, report.admissions, report.notifications with
    | [], _, [] =>
        .finished (if report.dataOnly = [] then "yielded no message for this identity"
          else "heard as data only")
    | [], _, [n] => .delivers none (noticePacket manifest envelope n)
    | [], _, _ => .dies "one envelope must not produce multiple notifications"
    | [message], [admission], _ =>
        if !isBoundAdmission admission message then
          .dies "admitted payload lacks a verifiable sender/grant binding"
        else if !admission.carried.all (isBoundCarry manifest) then
          .dies "channel carry lacks a verifiable carrier/source/channel binding"
        else admittedOutcome manifest envelope run message admission
    | _, _, _ => .dies "an outbound-capable delivery must bind exactly one admitted sender"

/-- `deliver`, once it has the marker. -/
def wrappedOutcome (run : WrappedRun) : Outcome :=
  match run.ready with
  | .error why => .dies why
  | .ok () =>
      match run.report with
      | .error why => .dies why
      | .ok report => reportOutcome manifest envelope run report

end Deliver

/-! ### Authorities -/

section Authorities

variable {manifest : Manifest} {receipt : Receipt} {messages : List Json}

theorem get_authorityFields (manifest : Manifest) (receipt : Receipt) :
    (Json.obj (authorityFields manifest receipt)).get "version" =
        some (.num receipt.route.version 0) ∧
      (Json.obj (authorityFields manifest receipt)).get "type" = some (.str "scoped-instruction") ∧
      (Json.obj (authorityFields manifest receipt)).get "sender" = some (.str receipt.sender) ∧
      (Json.obj (authorityFields manifest receipt)).get "grant_id" = some (.str receipt.grantId) ∧
      (Json.obj (authorityFields manifest receipt)).get "grantor" = some (.str receipt.grantor) ∧
      (Json.obj (authorityFields manifest receipt)).get "cap" = some (.str receipt.cap) ∧
      (Json.obj (authorityFields manifest receipt)).get "scope_subject" =
        some (.str manifest.pubkey) ∧
      (Json.obj (authorityFields manifest receipt)).get "policy_checked_at" =
        some (.num receipt.admittedAt 0) := by
  unfold authorityFields
  cases receipt.route with
  | direct => exact ⟨rfl, rfl, rfl, rfl, rfl, rfl, rfl, rfl⟩
  | carried => exact ⟨rfl, rfl, rfl, rfl, rfl, rfl, rfl, rfl⟩
  | native channel root hop dm => cases dm <;> exact ⟨rfl, rfl, rfl, rfl, rfl, rfl, rfl, rfl⟩

theorem versionOf_authorityFields :
    versionOf (.obj (authorityFields manifest receipt)) = some receipt.route.version := by
  rw [versionOf, (get_authorityFields manifest receipt).1]
  cases receipt.route <;> rfl

theorem keys_authorityFields : keysWithin (.obj (authorityFields manifest receipt))
    (authorityKeys (versionOf (.obj (authorityFields manifest receipt)))) = true := by
  rw [versionOf_authorityFields, keysWithin_obj, authorityFields]
  cases receipt.route with
  | direct => rfl
  | carried => rfl
  | native channel root hop dm => cases dm <;> rfl

/-- What a receipt has that stands for a live grant. -/
structure Receipt.Live (manifest : Manifest) (receipt : Receipt) : Prop where
  sender : isHex64 receipt.sender = true
  grantId : isHex64 receipt.grantId = true
  grantor : receipt.grantor ∈ manifest.grantors
  cap : receipt.cap ∈ INSTRUCTING
  after : 0 < receipt.admittedAt
  bounded : receipt.admittedAt ≤ 8640000000000000

/-- The last time value is far within the range of a double. -/
theorem year_lt_double : (8640000000000000 : ℚ) < 2 ^ 1024 - 2 ^ 970 :=
  calc (8640000000000000 : ℚ) < 2 ^ 64 := by norm_num
    _ ≤ 2 ^ 970 := pow_le_pow_right₀ one_le_two (by decide)
    _ = 2 ^ 971 - 2 ^ 970 := by rw [pow_succ (2 : ℚ) 970, mul_two, add_sub_cancel_right]
    _ ≤ 2 ^ 1024 - 2 ^ 970 := sub_le_sub_right (pow_le_pow_right₀ one_le_two (by decide)) _

theorem isPositive_of_time {value : Json} {key : String} {time : Int}
    (found : value.get key = some (.num time 0)) (after : 0 < time)
    (bounded : time ≤ 8640000000000000) : isPositive value key = true := by
  have small : |(time : ℚ)| < 2 ^ 1024 - 2 ^ 970 := by
    rw [abs_of_pos (Int.cast_pos.mpr after)]
    have le : (time : ℚ) ≤ 8640000000000000 := by exact_mod_cast bounded
    exact lt_of_le_of_lt le year_lt_double
  rw [isPositive, found, Option.bind_some, toNumber_int, if_pos small, Option.any_some,
    decide_eq_true_eq]
  exact Int.cast_pos.mpr after

theorem isAuthority_authorityFields (live : receipt.Live manifest)
    (own : ∀ message ∈ messages, message.get "from" = some (.str receipt.sender)) :
    isAuthority manifest (.obj (authorityFields manifest receipt)) messages = true := by
  obtain ⟨-, type, sender, grantId, grantor, cap, subject, time⟩ :=
    get_authorityFields manifest receipt
  have from' : messages.all (fun message =>
      strictEq (message.get "from") (some (.str receipt.sender))) = true := by
    rw [List.all_eq_true]
    intro message mem
    rw [own message mem]
    exact decide_eq_true rfl
  have isCap : includes ["task", "task+act"] (.obj (authorityFields manifest receipt)) "cap" = true := by
    rw [includes_str cap]
    exact List.contains_iff_mem.mpr live.cap
  have among : includes manifest.grantors (.obj (authorityFields manifest receipt)) "grantor" =
      true := by
    rw [includes_str grantor]
    exact List.contains_iff_mem.mpr live.grantor
  have positive := isPositive_of_time time live.after live.bounded
  have known : (versionOf (.obj (authorityFields manifest receipt))).isSome = true := by
    rw [versionOf_authorityFields, Option.isSome_some]
  unfold isAuthority
  rw [keys_authorityFields, known, positive, isCap, among, sender, from', type, subject,
    hexField_str sender, live.sender, hexField_str grantId, live.grantId, hexField_str grantor,
    manifest.isHex64_grantors _ live.grantor, hexField_str subject, manifest.isHex64_pubkey]
  simp [Json.isObj, Json.string]

/-- What a carried receipt has besides, and the message it is for. -/
theorem isCarriedAuthority_authorityFields {message : Json}
    {carrier carrierGrantId carrierGrantor sourceEvent replyChannel : String}
    (route : receipt.route =
      .carried carrier carrierGrantId carrierGrantor sourceEvent replyChannel)
    (hexCarrier : isHex64 carrier = true) (hexGrant : isHex64 carrierGrantId = true)
    (grantor : carrierGrantor ∈ manifest.grantors) (hexSource : isHex64 sourceEvent = true)
    (uuid : isUuid replyChannel = true)
    (listed : replyChannel ∈ manifest.carrierChannels carrier)
    (event : message.get "event_id" = some (.str sourceEvent))
    (kind : (message.get "kind").bind Json.integer = some 9) :
    isCarriedAuthority manifest (.obj (authorityFields manifest receipt)) [message] = true := by
  have fields : (Json.obj (authorityFields manifest receipt)).get "carrier" = some (.str carrier) ∧
      (Json.obj (authorityFields manifest receipt)).get "carrier_grant_id" =
        some (.str carrierGrantId) ∧
      (Json.obj (authorityFields manifest receipt)).get "carrier_grantor" =
        some (.str carrierGrantor) ∧
      (Json.obj (authorityFields manifest receipt)).get "source_event" = some (.str sourceEvent) ∧
      (Json.obj (authorityFields manifest receipt)).get "reply_channel" =
        some (.str replyChannel) := by
    rw [authorityFields, route]
    exact ⟨rfl, rfl, rfl, rfl, rfl⟩
  obtain ⟨isCarrier, isGrant, isGrantor, isSource, isChannel⟩ := fields
  have among : includes manifest.grantors (.obj (authorityFields manifest receipt))
      "carrier_grantor" = true := by
    rw [includes_str isGrantor]
    exact List.contains_iff_mem.mpr grantor
  have configured := @carrier_includes manifest (.obj (authorityFields manifest receipt))
    "reply_channel" carrier replyChannel
    (((Json.obj (authorityFields manifest receipt)).get "carrier").bind Json.string)
    (by rw [isCarrier]; rfl) isChannel listed
  have source : [message].all (isSourceMessage (.obj (authorityFields manifest receipt))) = true := by
    rw [List.all_cons, List.all_nil, Bool.and_true, isSourceMessage, event, isSource, kind]
    simp [strictEq]
  unfold isCarriedAuthority
  rw [configured, among, source, hexField_str isCarrier, hexCarrier, hexField_str isGrant, hexGrant,
    hexField_str isGrantor, manifest.isHex64_grantors _ grantor, hexField_str isSource, hexSource,
    patternText_str isChannel, uuid]
  rfl

end Authorities

/-! ### What is written is accepted -/

section Accepted

variable {host : Host} {getEventHash : Rumor → Option String}
  {scopeHash : String → String → String} {manifest : Manifest} {answers : Answers}
  {me envelope : String} {mail : Mail} {item : Item}

/-- What was read is authentic. -/
theorem verified_of_mailOf (read : answers.mailOf host getEventHash me envelope = some mail) :
    ∃ wrap opened, verifyInboxEnvelope host getEventHash me wrap opened = some mail := by
  obtain ⟨wrap, -, read⟩ := Option.bind_eq_some_iff.mp read
  obtain ⟨opened, -, read⟩ := Option.bind_eq_some_iff.mp read
  obtain ⟨mail', verified, read⟩ := Option.bind_eq_some_iff.mp read
  split_ifs at read
  obtain rfl := Option.some.inj read
  exact ⟨wrap, opened, verified⟩

theorem content_of_mailOf (read : answers.mailOf host getEventHash me envelope = some mail) :
    (utf8 mail.content).length ≤ 256 * 1024 := by
  obtain ⟨wrap, opened, verified⟩ := verified_of_mailOf read
  unfold verifyInboxEnvelope at verified
  dsimp only at verified
  split_ifs at verified with valid
  obtain rfl := Option.some.inj verified
  simp only [Bool.and_eq_true, decide_eq_true_eq] at valid
  exact valid.1.2

theorem isAdmittedMessage_obj {fields : List (String × Json)} {sender content : String} {at' : Json}
    (keys : (fields.all fun field =>
      ["from", "at", "content", "event_id", "kind"].contains field.1) = true)
    (isSender : (Json.obj fields).get "from" = some (.str sender))
    (isTime : (Json.obj fields).get "at" = some (printed at'))
    (isContent : (Json.obj fields).get "content" = some (.str content))
    (hex : isHex64 sender = true) :
    isAdmittedMessage (.obj fields) = true ↔ (utf8 content).length ≤ 256 * 1024 := by
  rw [isAdmittedMessage, keysWithin_obj, keys, hexField_str isSender, hex, isNumber_printed isTime,
    isContent]
  simp [Json.isObj, Json.string]

/-- An admitted message is within the limits of an admitted task. -/
theorem isAdmittedMessage_messageJson {policy : Policy}
    (read : answers.mailOf host getEventHash me envelope = some mail)
    (admits : Admits host policy mail.message item)
    (hex : isHex64 item.admission.sender = true) :
    isAdmittedMessage (messageJson mail item) = true ∧
      (messageJson mail item).get "from" = some (.str item.admission.sender) := by
  cases admits with
  | carried usable carry =>
      refine ⟨(isAdmittedMessage_obj rfl rfl rfl rfl hex).mpr ?_, rfl⟩
      exact carry.bounded.content
  | direct usable uncarried held cap =>
      refine ⟨(isAdmittedMessage_obj rfl rfl rfl rfl hex).mpr ?_, rfl⟩
      exact content_of_mailOf read

/-- What a carrier makes known is of a configured carrier and grantor. -/
theorem configured_of_notifies {n : Admission.Notice} (lower : LowersHex host)
    (notifies : Notifies host (answers.policy host scopeHash manifest me) mail.message n) :
    Configured manifest n := by
  cases notifies with
  | @notice channel reason source carrierGrant usable relay relayCap carries bounded =>
      obtain ⟨grantor, grant⟩ := held_of_relayGrant lower relay
      obtain ⟨carry, body, object⟩ := carries.object
      exact {
        author := bounded.author
        source := host.verifyEvent_id carries.verified
        uuid := carries.configured.2
        carrier := bounded.carrier
        grant := grant
        grantor := grantor
        reason := object.known
        channel := mem_carrierChannels carries.configured.1 }

/-- **What reaches the adapter**: a notice, or one message on one admission. -/
theorem delivers_cases {run : WrappedRun} {report : Report} {receipt : Option Receipt} {packet : Json}
    (read : run.report = .ok report)
    (delivers : wrappedOutcome manifest envelope run = .delivers receipt packet) :
    (∃ n, report.actionable = [] ∧ report.notifications = [n] ∧ receipt = none ∧
        packet = noticePacket manifest envelope n) ∨
      ∃ message admission, report.actionable = [message] ∧ report.admissions = [admission] ∧
        isBoundAdmission admission message = true ∧
        admission.carried.all (isBoundCarry manifest) = true ∧ run.limited = .ok none ∧
        receipt = some (receiptOf manifest envelope admission run.now) ∧
        packet = taskPacket manifest envelope (.obj (authorityFields manifest
          (receiptOf manifest envelope admission run.now))) [message] none := by
  unfold wrappedOutcome at delivers
  rw [read] at delivers
  cases ready : run.ready with
  | error why =>
      rw [ready] at delivers
      cases delivers
  | ok =>
      rw [ready] at delivers
      dsimp only at delivers
      unfold reportOutcome at delivers
      by_cases other : report.me ≠ manifest.pubkey
      · rw [if_pos other] at delivers
        cases delivers
      rw [if_neg other] at delivers
      by_cases unusable : (!report.policyUsable) = true
      · rw [if_pos unusable] at delivers
        cases delivers
      rw [if_neg unusable] at delivers
      split at delivers
      · cases delivers
      next n none' one =>
        cases delivers
        exact .inl ⟨n, none', one, rfl, rfl⟩
      · cases delivers
      next message admission one bound =>
        split_ifs at delivers with unbound uncarried
        unfold admittedOutcome at delivers
        split at delivers
        · cases delivers
        · cases delivers
        next unlimited =>
        split at delivers
        · cases delivers
        · cases delivers
        split at delivers
        · cases delivers
        cases delivers
        refine .inr ⟨message, admission, one, bound, ?_, ?_, unlimited, rfl, rfl⟩
        · rwa [Bool.not_eq_true, Bool.not_eq_false'] at unbound
        · rwa [Bool.not_eq_true, Bool.not_eq_false'] at uncarried
      · cases delivers

/-- An admission is on a configured grantor's task grant. -/
theorem grantor_of_admits (lower : LowersHex host)
    (admits : Admits host (answers.policy host scopeHash manifest me) mail.message item) :
    item.admission.grantor ∈ manifest.grantors ∧ item.admission.cap ∈ INSTRUCTING := by
  cases admits with
  | carried usable carry =>
      exact ⟨(held_of_taskGrant lower carry.author).1, carry.authorCap⟩
  | direct usable uncarried held cap => exact ⟨(held_of_taskGrant lower held).1, cap⟩

theorem live_receiptOf {admission : Admission} {message : Json} {now : Clock}
    (bound : isBoundAdmission admission message = true) (grantor : admission.grantor ∈ manifest.grantors)
    (cap : admission.cap ∈ INSTRUCTING) :
    (receiptOf manifest envelope admission now).Live manifest := by
  simp only [isBoundAdmission, Bool.and_eq_true] at bound
  obtain ⟨⟨⟨⟨sender, grantId⟩, hexGrantor⟩, -⟩, -⟩ := bound
  exact {
    sender := by rw [receiptOf, lowerAscii_of_isHex64 sender]; exact sender
    grantId := by rw [receiptOf, lowerAscii_of_isHex64 grantId]; exact grantId
    grantor := by rw [receiptOf, lowerAscii_of_isHex64 hexGrantor]; exact grantor
    cap := cap
    after := now.after
    bounded := now.bounded }

/-- The carried authority of a carried admission is accepted. -/
theorem isCarriedAuthority_receiptOf {now : Clock} (lower : LowersHex host)
    (admits : Admits host (answers.policy host scopeHash manifest me) mail.message item)
    (version : (receiptOf manifest envelope item.admission now).route.version = 2) :
    isCarriedAuthority manifest (.obj (authorityFields manifest
      (receiptOf manifest envelope item.admission now))) [messageJson mail item] = true := by
  cases admits with
  | @carried channel reason source carrierGrant authorGrant usable carry =>
      have relay := held_of_relayGrant lower carry.relay
      have hexGrantor := manifest.isHex64_grantors _ relay.1
      have listed := mem_carrierChannels carry.carries.configured.1
      have hexSource := host.verifyEvent_id carry.carries.verified
      have uuid := carry.carries.configured.2
      have kind : ((messageJson mail (carriedItem mail.message channel source carrierGrant
          authorGrant)).get "kind").bind Json.integer = some 9 := by
        show some (source.kind * 10 ^ 0) = some 9
        rw [carry.carries.kind]
        rfl
      have route : (receiptOf manifest envelope (carriedItem mail.message channel source carrierGrant
          authorGrant).admission now).route =
          .carried mail.message.sender carrierGrant.grantId carrierGrant.grantor source.id channel := by
        show Route.carried (lowerAscii mail.message.sender) (lowerAscii carrierGrant.grantId)
          (lowerAscii carrierGrant.grantor) (lowerAscii source.id) (lowerAscii channel) = _
        rw [lowerAscii_of_isHex64 carry.bounded.carrier, lowerAscii_of_isHex64 relay.2,
          lowerAscii_of_isHex64 hexGrantor, lowerAscii_of_isHex64 hexSource,
          lowerAscii_of_isUuid uuid]
      exact isCarriedAuthority_authorityFields route carry.bounded.carrier relay.2 relay.1 hexSource
        uuid listed rfl kind
  | direct usable uncarried held cap => cases version

theorem version_routeOf_ne (admission : Admission) : (routeOf admission).version ≠ 3 := by
  unfold routeOf
  cases admission.carried with
  | none => exact (by decide : (1 : Int) ≠ 3)
  | some carried => exact (by decide : (2 : Int) ≠ 3)

/-- **What is delivered on attention's report is accepted**, a notice when its time is a positive
number. -/
theorem accepts_wrapped {run : WrappedRun} {receipt : Option Receipt} {packet : Json}
    (lower : LowersHex host) (named : isHex64 envelope = true)
    (read : run.report = .ok (attention host getEventHash scopeHash manifest answers me envelope))
    (delivers : wrappedOutcome manifest envelope run = .delivers receipt packet) :
    Accepts manifest packet ↔
      ∀ n ∈ (attention host getEventHash scopeHash manifest answers me envelope).notifications,
        0 < n.observedAt ∧ (n.observedAt : ℚ) < 2 ^ 1024 - 2 ^ 970 := by
  have cases' := delivers_cases read delivers
  cases mailed : answers.mailOf host getEventHash me envelope with
  | none =>
      rw [report_of_none mailed] at cases'
      rcases cases' with ⟨n, -, one, -⟩ | ⟨message, admission, one, -⟩
      · cases one
      · cases one
  | some mail =>
      cases judged : verdict host (answers.policy host scopeHash manifest me) mail.message with
      | none =>
          rw [report_of_data mailed judged] at cases' ⊢
          rcases cases' with ⟨n, -, one, -, rfl⟩ | ⟨message, admission, one, -⟩
          · have said := Option.toList_eq_singleton_iff.mp one
            rw [accepts_noticePacket named (configured_of_notifies lower (word_iff.mp said)), one]
            simp only [List.mem_singleton, forall_eq]
          · cases one
      | some item =>
          have admits := verdict_iff.mp judged
          rw [report_of_admitted mailed judged] at cases' ⊢
          rcases cases' with ⟨n, none', -⟩ | ⟨message, admission, one, bind, bound, -, -, -, rfl⟩
          · cases none'
          obtain rfl := (List.singleton_inj.mp one)
          obtain rfl := (List.singleton_inj.mp bind)
          have hex : isHex64 item.admission.sender = true := by
            simp only [isBoundAdmission, Bool.and_eq_true] at bound
            exact bound.1.1.1.1
          obtain ⟨admitted, own⟩ := isAdmittedMessage_messageJson mailed admits hex
          obtain ⟨grantor, cap⟩ := grantor_of_admits lower admits
          have live : (receiptOf manifest envelope item.admission run.now).Live manifest :=
            live_receiptOf bound grantor cap
          refine iff_of_true (accepts_taskPacket.mpr ⟨named, List.cons_ne_nil _ _, Nat.succ_le_succ
            (Nat.zero_le _), ?_, ?_,
            isAuthority_authorityFields live ?_, fun two => ?_, fun three => ?_⟩) ?_
          · rw [List.all_cons, admitted]
            rfl
          · intro context none'
            cases none'
          · intro message mem
            obtain rfl := List.mem_singleton.mp mem
            rw [own, receiptOf, lowerAscii_of_isHex64 hex]
          · rw [versionOf_authorityFields, Option.some_inj] at two
            exact isCarriedAuthority_receiptOf lower admits two
          · rw [versionOf_authorityFields, Option.some_inj] at three
            exact absurd three (version_routeOf_ne item.admission)
          · intro n mem
            cases mem

end Accepted

end Nvoy.Broker
