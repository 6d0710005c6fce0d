/-
**The packets that go to the keyless side**: what `instance-broker.mjs` and
`instance-broker-native.mjs` write to the adapter's socket.

* `taskPacket`, `noticePacket` — the two packets, from the fields both brokers fill;
* `accepts_taskPacket` — what delivery asks of a task packet;
* `accepts_noticePacket` — a notice within a configured carrier's channels is accepted when its time
  is a positive number.
-/

import Nvoy.Broker.Adapter
import Nvoy.Broker.Attention

namespace Nvoy.Broker

open Admission
open Memory (lowerAscii isUuid)

/-! ### The packets -/

/-- `Date.now()`, a time value after 1970. -/
structure Clock where
  ms : Int
  after : 0 < ms
  bounded : ms ≤ 8640000000000000

def taskPacket (manifest : Manifest) (envelope : String) (authority : Json) (messages : List Json)
    (context : Option Json) : Json :=
  .obj ([("type", .str "admitted-task"), ("instance", .str manifest.id), ("envelope", .str envelope),
    ("authority", authority), ("messages", .arr messages)] ++
    context.toList.map fun context => ("context", context))

def noticeJson (n : Admission.Notice) : Json :=
  .obj [("version", .num 1 0), ("type", .str "verified-channel-activity"),
    ("source_author", .str n.sourceAuthor), ("source_event", .str n.sourceEvent),
    ("source_channel", .str n.sourceChannel), ("carrier", .str n.carrier),
    ("carrier_grant_id", .str n.carrierGrantId), ("carrier_grantor", .str n.carrierGrantor),
    ("reason", .str n.reason), ("observed_at", printed (.num n.observedAt 0))]

def noticePacket (manifest : Manifest) (envelope : String) (n : Admission.Notice) : Json :=
  .obj [("type", .str "verified-notification"), ("instance", .str manifest.id),
    ("envelope", .str envelope), ("notification", noticeJson n)]

/-- Delivery accepts the packet. -/
def Accepts (manifest : Manifest) (packet : Json) : Prop :=
  ∃ delivery, validateDesktopDelivery manifest packet = .ok delivery

/-! ### Fields of an object -/

theorem keysWithin_obj (fields : List (String × Json)) (allowed : List String) :
    keysWithin (.obj fields) allowed = fields.all fun field => allowed.contains field.1 := by
  rw [Bool.eq_iff_iff, keysWithin, List.all_eq_true, List.all_eq_true, Json.keys]
  simp only [List.mem_dedup, List.mem_map, forall_exists_index, and_imp]
  exact ⟨fun all field mem => all _ field mem rfl, fun all key field mem same => same ▸ all field mem⟩

theorem patternText_str {value : Json} {key text : String} (found : value.get key = some (.str text)) :
    patternText value key = text := by
  rw [patternText, found]
  rfl

theorem hexField_str {value : Json} {key text : String} (found : value.get key = some (.str text)) :
    hexField value key = isHex64 text := by
  rw [hexField, patternText_str found]

theorem includes_str {value : Json} {key text : String} {list : List String}
    (found : value.get key = some (.str text)) : includes list value key = list.contains text := by
  rw [includes, found]
  rfl

theorem toNumber_int (n : Int) :
    toNumber (.num n 0) = if |(n : ℚ)| < 2 ^ 1024 - 2 ^ 970 then some (n : ℚ) else none := by
  simp [toNumber, Option.filter_some]

theorem toNumber_null : toNumber .null = some 0 := by
  have small : |(0 : ℚ)| < 2 ^ 1024 - 2 ^ 970 := by
    rw [abs_zero, sub_pos]
    exact pow_lt_pow_right₀ one_lt_two (by decide)
  simp only [toNumber, Option.filter_some, small, decide_true, if_true]

theorem isNumber_printed {value time : Json} {key : String}
    (found : value.get key = some (printed time)) : isNumber value key = true := by
  rw [isNumber, found, Option.bind_some, printed]
  by_cases finite : (toNumber time).isSome = true
  · rw [if_pos finite, finite]
  · rw [if_neg finite, toNumber_null, Option.isSome_some]

theorem isPositive_printed {value : Json} {key : String} {time : Int}
    (found : value.get key = some (printed (.num time 0))) :
    isPositive value key = true ↔ 0 < time ∧ (time : ℚ) < 2 ^ 1024 - 2 ^ 970 := by
  rw [isPositive, found, Option.bind_some, printed, toNumber_int]
  by_cases finite : |(time : ℚ)| < 2 ^ 1024 - 2 ^ 970
  · rw [if_pos finite, Option.isSome_some, if_pos rfl, toNumber_int, if_pos finite, Option.any_some,
      decide_eq_true_eq]
    exact ⟨fun after => ⟨Int.cast_pos.mp after, (abs_lt.mp finite).2⟩, fun both => Int.cast_pos.mpr both.1⟩
  · rw [if_neg finite, Option.isSome_none, if_neg Bool.false_ne_true, toNumber_null, Option.any_some,
      decide_eq_true_eq]
    refine iff_of_false (lt_irrefl _) fun both => finite ?_
    rw [abs_of_pos (Int.cast_pos.mpr both.1)]
    exact both.2

/-- The carrier that a list of channels is of. -/
theorem find_carrier {manifest : Manifest} {carrier channel : String}
    (listed : channel ∈ manifest.carrierChannels carrier) :
    ∃ entry, manifest.carriers.find? (·.pubkey = carrier) = some entry ∧
      channel ∈ entry.channels := by
  unfold Manifest.carrierChannels at listed
  cases found : manifest.carriers.find? (·.pubkey = carrier) with
  | none =>
      rw [found] at listed
      exact absurd listed List.not_mem_nil
  | some entry =>
      rw [found] at listed
      exact ⟨entry, rfl, listed⟩

/-- A channel UUID has no letter of another case. -/
theorem lowerAscii_of_isUuid {text : String} (uuid : isUuid text = true) : lowerAscii text = text := by
  rw [isUuid, Bool.and_eq_true, List.all_eq_true] at uuid
  refine Memory.lowerAscii_of_toLower fun c mem => ?_
  rcases Lines.mem_splitOn '-' mem with rfl | ⟨part, listed, inside⟩
  · rfl
  · exact Memory.toLower_of_isLowerHex (List.all_eq_true.mp (uuid.2 part listed) c inside)

theorem mem_carrierChannels {manifest : Manifest} {pubkey channel : String}
    (listed : channel ∈ (manifest.carrierChannels pubkey).map lowerAscii) :
    channel ∈ manifest.carrierChannels pubkey := by
  obtain ⟨named, inside, rfl⟩ := List.mem_map.mp listed
  obtain ⟨entry, -, own⟩ := find_carrier inside
  rw [lowerAscii_of_isUuid (entry.isUuid_channels named own)]
  exact inside

/-! ### Task packets -/

theorem exists_unit_ok {ε : Type} {check : Except ε Unit} :
    (∃ answer, check = .ok answer) ↔ check = .ok () :=
  ⟨fun ⟨_, passed⟩ => passed, fun passed => ⟨(), passed⟩⟩

theorem exists_ok_bind {ε α β : Type} {first : Except ε α} {next : α → Except ε β} :
    (∃ answer, (first >>= next) = .ok answer) ↔
      ∃ value, first = .ok value ∧ ∃ answer, next value = .ok answer := by
  cases first with
  | ok value => simp [ok_bind]
  | error error => simp [error_bind]

section Tasks

variable {manifest : Manifest} {envelope : String} {authority : List (String × Json)}
  {messages : List Json} {context : Option Json}

theorem get_taskPacket (manifest : Manifest) (envelope : String) (authority : Json)
    (messages : List Json) (context : Option Json) :
    (taskPacket manifest envelope authority messages context).get "type" =
        some (.str "admitted-task") ∧
      (taskPacket manifest envelope authority messages context).get "instance" =
        some (.str manifest.id) ∧
      (taskPacket manifest envelope authority messages context).get "envelope" =
        some (.str envelope) ∧
      (taskPacket manifest envelope authority messages context).get "authority" = some authority ∧
      (taskPacket manifest envelope authority messages context).get "messages" =
        some (.arr messages) ∧
      (taskPacket manifest envelope authority messages context).get "context" = context := by
  cases context <;> exact ⟨rfl, rfl, rfl, rfl, rfl, rfl⟩

/-- **What delivery asks of a task packet.** -/
theorem accepts_taskPacket :
    Accepts manifest (taskPacket manifest envelope (.obj authority) messages context) ↔
      isHex64 envelope = true ∧ messages ≠ [] ∧ messages.length ≤ 64 ∧
      messages.all isAdmittedMessage = true ∧ (∀ c, context = some c → validateContext c = .ok ()) ∧
      isAuthority manifest (.obj authority) messages = true ∧
      (versionOf (.obj authority) = some 2 →
        isCarriedAuthority manifest (.obj authority) messages = true) ∧
      (versionOf (.obj authority) = some 3 →
        isNativeAuthority manifest (taskPacket manifest envelope (.obj authority) messages context)
          (.obj authority) messages = true ∧
        ∀ c, context = some c →
          strictEq (c.get "channel") ((Json.obj authority).get "reply_channel") = true) := by
  obtain ⟨type, owner, name, held, listed, around⟩ :=
    get_taskPacket manifest envelope (.obj authority) messages context
  have object : (taskPacket manifest envelope (.obj authority) messages context).isObj = true := rfl
  have keys : keysWithin (taskPacket manifest envelope (.obj authority) messages context)
      ["type", "instance", "envelope", "messages", "received_at", "authority", "context"] = true := by
    rw [taskPacket, keysWithin_obj]
    cases context <;> rfl
  have notWord : ¬ ((taskPacket manifest envelope (.obj authority) messages context).get "type").bind
      Json.string = some "verified-notification" := by
    rw [type]
    decide
  have bare : Accepts manifest (taskPacket manifest envelope (.obj authority) messages context) ↔
      ∃ answer, validateAdmittedTask manifest
        (taskPacket manifest envelope (.obj authority) messages context) = .ok answer := by
    unfold Accepts validateDesktopDelivery
    rw [if_neg notWord, exists_ok_bind]
    exact exists_congr fun answer => and_iff_left ⟨_, rfl⟩
  rw [bare]
  unfold validateAdmittedTask
  simp only [object, type, owner, listed, around, held, keys, Option.bind_some, hexField_str name]
  have items : (Json.arr messages).items = some messages := rfl
  have words : (Json.str "admitted-task").string = some "admitted-task" ∧
      (Json.str manifest.id).string = some manifest.id := ⟨rfl, rfl⟩
  have done : ∃ answer : Option Json, (pure (some (.obj authority)) : Except String _) = .ok answer :=
    ⟨_, rfl⟩
  by_cases two : versionOf (.obj authority) = some 2
  · have three : ¬ versionOf (.obj authority) = some 3 := by
      rw [two]
      decide
    cases context
    all_goals
      simp only [exists_ok_bind, ensure_eq_ok, require_eq_ok, items, words, if_pos two, if_neg three,
        done]
      simp [two, and_assoc, exists_unit_ok]
  · by_cases three : versionOf (.obj authority) = some 3
    · cases context
      all_goals
        simp only [exists_ok_bind, ensure_eq_ok, require_eq_ok, items, words, if_neg two,
          if_pos three, done]
        simp [three, and_assoc, exists_unit_ok]
    · cases context
      all_goals
        simp only [exists_ok_bind, ensure_eq_ok, require_eq_ok, items, words, if_neg two,
          if_neg three, done]
        simp [two, three, and_assoc, exists_unit_ok]

end Tasks

/-! ### Notice packets -/

/-- A notice of a configured carrier, on a configured grantor's grant. -/
structure Configured (manifest : Manifest) (n : Admission.Notice) : Prop where
  author : isHex64 n.sourceAuthor = true
  source : isHex64 n.sourceEvent = true
  uuid : isUuid n.sourceChannel = true
  carrier : isHex64 n.carrier = true
  grant : isHex64 n.carrierGrantId = true
  grantor : n.carrierGrantor ∈ manifest.grantors
  reason : n.reason ∈ REASONS
  channel : n.sourceChannel ∈ manifest.carrierChannels n.carrier

section Notices

variable {manifest : Manifest} {envelope : String} {n : Admission.Notice}

theorem carrier_includes {value : Json} {key carrier channel : String} {named : Option String}
    (is : named = some carrier) (found : value.get key = some (.str channel))
    (listed : channel ∈ manifest.carrierChannels carrier) :
    ((manifest.carriers.find? fun entry => named = some entry.pubkey).any
      fun entry => includes entry.channels value key) = true := by
  obtain ⟨entry, first, inside⟩ := find_carrier listed
  have same : (fun entry : Carrier => decide (named = some entry.pubkey)) =
      fun entry => decide (entry.pubkey = carrier) := by
    subst is
    funext other
    exact decide_eq_decide.mpr (by rw [Option.some_inj]; exact eq_comm)
  rw [same, first, Option.any_some, includes_str found]
  exact List.contains_iff_mem.mpr inside

/-- **A notice of a configured carrier is accepted when its time is a positive number.** -/
theorem accepts_noticePacket (named : isHex64 envelope = true) (configured : Configured manifest n) :
    Accepts manifest (noticePacket manifest envelope n) ↔
      0 < n.observedAt ∧ (n.observedAt : ℚ) < 2 ^ 1024 - 2 ^ 970 := by
  obtain ⟨author, source, uuid, carrier, grant, grantor, reason, channel⟩ := configured
  unfold Accepts validateDesktopDelivery
  rw [if_pos (show ((noticePacket manifest envelope n).get "type").bind Json.string =
    some "verified-notification" from rfl), exists_ok_bind]
  have value : (noticePacket manifest envelope n).get "notification" = some (noticeJson n) := rfl
  have outer : (keysWithin (noticePacket manifest envelope n)
      ["type", "instance", "envelope", "notification"] &&
      ((noticePacket manifest envelope n).get "type").bind Json.string =
        some "verified-notification" &&
      ((noticePacket manifest envelope n).get "instance").bind Json.string = some manifest.id &&
      hexField (noticePacket manifest envelope n) "envelope") = true := by
    rw [@hexField_str _ _ envelope rfl, named, noticePacket, keysWithin_obj]
    simp [Json.get, Json.string]
  have inner : isNotice (noticeJson n) = isPositive (noticeJson n) "observed_at" := by
    have keys : keysWithin (noticeJson n) noticeKeys = true := by
      rw [noticeJson, keysWithin_obj]
      rfl
    have version : ((noticeJson n).get "version").bind Json.integer = some 1 := rfl
    have type : ((noticeJson n).get "type").bind Json.string = some "verified-channel-activity" := rfl
    have uuid' : patternText (noticeJson n) "source_channel" = n.sourceChannel := patternText_str rfl
    have reason' : includes ["mention", "reply"] (noticeJson n) "reason" = true := by
      rw [includes_str rfl]
      exact List.contains_iff_mem.mpr reason
    have hexes : (hexField (noticeJson n) "source_author" && hexField (noticeJson n) "source_event" &&
        hexField (noticeJson n) "carrier" && hexField (noticeJson n) "carrier_grant_id" &&
        hexField (noticeJson n) "carrier_grantor") = true := by
      rw [@hexField_str _ _ n.sourceAuthor rfl, author, @hexField_str _ _ n.sourceEvent rfl, source,
        @hexField_str _ _ n.carrier rfl, carrier, @hexField_str _ _ n.carrierGrantId rfl, grant,
        @hexField_str _ _ n.carrierGrantor rfl, manifest.isHex64_grantors _ grantor]
      rfl
    simp only [Bool.and_eq_true] at hexes
    obtain ⟨⟨⟨⟨hexAuthor, hexSource⟩, hexCarrier⟩, hexGrant⟩, hexGrantor⟩ := hexes
    have object : (noticeJson n).isObj = true := rfl
    simp only [isNotice, keys, version, type, uuid', uuid, reason', hexAuthor, hexSource, hexCarrier,
      hexGrant, hexGrantor, object, decide_true, Bool.and_self, Bool.true_and]
  have bound : ((manifest.carriers.find? fun entry =>
      ((noticeJson n).get "carrier").bind Json.string = some entry.pubkey).any
        (fun entry => includes entry.channels (noticeJson n) "source_channel") &&
      includes manifest.grantors (noticeJson n) "carrier_grantor") = true := by
    have among : includes manifest.grantors (noticeJson n) "carrier_grantor" = true := by
      rw [@includes_str _ _ n.carrierGrantor _ rfl]
      exact List.contains_iff_mem.mpr grantor
    rw [Bool.and_eq_true]
    exact ⟨@carrier_includes manifest (noticeJson n) "source_channel" n.carrier n.sourceChannel
      (((noticeJson n).get "carrier").bind Json.string) rfl rfl channel, among⟩
  have object : (noticePacket manifest envelope n).isObj = true := rfl
  rw [← @isPositive_printed (noticeJson n) "observed_at" n.observedAt rfl, ← inner]
  refine Iff.trans (exists_congr fun notice => and_iff_left ⟨_, rfl⟩) ?_
  unfold validateVerifiedNotification
  have done : ∃ answer : Json, (pure (noticeJson n) : Except String Json) = .ok answer := ⟨_, rfl⟩
  simp only [object, value, outer, exists_ok_bind, ensure_eq_ok, require_eq_ok, Option.some.injEq,
    exists_const, true_and, exists_eq_left', bound, done, and_true]

end Notices

end Nvoy.Broker
