/-
**What the keyless side accepts**: `validateDesktopDelivery` of `admitted_task.mjs` and the notice
beside it in `verified_notification.mjs`, over any JSON value.

* `Manifest` — what `readManifest` returns, as far as delivery reads it, with what it has checked;
* `toNumber`, `strictEq` — the coercions and comparisons the checks use;
* `validateContext`, `validateAdmittedTask`, `validateVerifiedNotification` — the checks, in order.
-/

import Nvoy.Admission.GrantFold
import Nvoy.Lib.Checks
import Nvoy.Lib.Json
import Nvoy.Lib.Utf8
import Nvoy.Memory.Claim
import Mathlib.Data.Rat.Defs
import Mathlib.Algebra.Order.Ring.Rat
import Mathlib.Algebra.Field.Rat

namespace Nvoy.Broker

open Admission (isMentionName)
open Memory (isUuid trim)

/-! ### The manifest -/

structure Carrier where
  pubkey : String
  channels : List String
  isHex64_pubkey : isHex64 pubkey = true
  isUuid_channels : ∀ channel ∈ channels, isUuid channel = true

/-- The part of a manifest that says whom and what a delivery may come from. -/
structure Manifest where
  id : String
  pubkey : String
  grantors : List String
  carriers : List Carrier
  /-- `buzz.channels`; `none` without a `buzz` block. -/
  buzz : Option (List String)
  isHex64_pubkey : isHex64 pubkey = true
  grantors_ne : grantors ≠ []
  isHex64_grantors : ∀ grantor ∈ grantors, isHex64 grantor = true
  carriers_nodup : (carriers.map (·.pubkey)).Nodup
  isUuid_buzz : ∀ channels, buzz = some channels → ∀ channel ∈ channels, isUuid channel = true

/-! ### Coercions -/

/-- The value of a text of digits with an optional fraction and exponent, all of it read. -/
def unsignedDecimal (text : List Char) : Option ℚ :=
  let whole := text.takeWhile Char.isDigit
  let rest := text.dropWhile Char.isDigit
  let fraction := match rest with
    | '.' :: more => more.takeWhile Char.isDigit
    | _ => []
  let rest := match rest with
    | '.' :: more => more.dropWhile Char.isDigit
    | rest => rest
  if whole ++ fraction = [] then none
  else match Json.parseExponent rest with
    | some (exponent, []) =>
        some ((Nat.ofDigitChars 10 (whole ++ fraction) 0 : ℚ) *
          (10 : ℚ) ^ (exponent - (fraction.length : Int)))
    | _ => none

/-- The value of a text of digits of a base, after its prefix. -/
def radixDigits (base : Nat) (text : List Char) : Option ℚ :=
  if text ≠ [] && text.all (fun c => (Json.hexValue c).any (· < base)) then
    some ((text.foldl (fun n c => n * base + (Json.hexValue c).getD 0) 0 : Nat) : ℚ)
  else none

/-- `Number(text)`, where it is finite. -/
def textNumber (text : String) : Option ℚ :=
  match (trim text).toList with
  | [] => some 0
  | '0' :: 'x' :: digits | '0' :: 'X' :: digits => radixDigits 16 digits
  | '0' :: 'o' :: digits | '0' :: 'O' :: digits => radixDigits 8 digits
  | '0' :: 'b' :: digits | '0' :: 'B' :: digits => radixDigits 2 digits
  | '-' :: rest => (unsignedDecimal rest).map fun value => -value
  | '+' :: rest => unsignedDecimal rest
  | rest => unsignedDecimal rest

/-- `Number(String([item]))`, where it is finite. -/
def itemNumber : Json → Option ℚ
  | .null => some 0
  | .num mantissa exponent => some (mantissa * (10 : ℚ) ^ exponent)
  | .str text => textNumber text
  | .arr [] => some 0
  | .arr [item] => itemNumber item
  | _ => none

/-- `Number(value)`, where it is finite: below the range of a double in size. -/
def toNumber (value : Json) : Option ℚ :=
  (match value with
    | .null => some 0
    | .bool value => some (if value then 1 else 0)
    | .num mantissa exponent => some (mantissa * (10 : ℚ) ^ exponent)
    | .str text => textNumber text
    | .arr [] => some 0
    | .arr [item] => itemNumber item
    | _ => none).filter fun value => decide (|value| < 2 ^ 1024 - 2 ^ 970)

/-- `Number.isFinite(Number(value[key]))` -/
def isNumber (value : Json) (key : String) : Bool := ((value.get key).bind toNumber).isSome

/-- `Number.isFinite(Number(value[key])) && Number(value[key]) > 0` -/
def isPositive (value : Json) (key : String) : Bool := ((value.get key).bind toNumber).any (0 < ·)

/-- `===` between a property of one value and a property of another; no two arrays or objects are
one. -/
def strictEq : Option Json → Option Json → Bool
  | none, none => true
  | some .null, some .null => true
  | some (.bool a), some (.bool b) => a == b
  | some (.num m e), some (.num m' e') => (m * (10 : ℚ) ^ e : ℚ) = m' * (10 : ℚ) ^ e'
  | some (.str a), some (.str b) => a = b
  | _, _ => false

/-- `list.includes(value[key])` for a list of texts. -/
def includes (list : List String) (value : Json) (key : String) : Bool :=
  ((value.get key).bind Json.string).any list.contains

/-- `String(value[key] || '')`, to be matched with a pattern. -/
def patternText (value : Json) (key : String) : String := ((value.get key).map Json.text).getD ""

def hexField (value : Json) (key : String) : Bool := isHex64 (patternText value key)

/-- Every key of the value is allowed. -/
def keysWithin (value : Json) (allowed : List String) : Bool := value.keys.all allowed.contains

/-! ### The validators -/

/-- `String(value)` of a value that stands alone or alone in arrays; no pattern matches the text of
another one. -/
def ownText : Json → String
  | .null => "null"
  | .bool true => "true"
  | .bool false => "false"
  | .num mantissa exponent => String.ofList (Json.renderNum mantissa exponent)
  | .str text => text
  | .arr [.null] => ""
  | .arr [item] => ownText item
  | .arr [] => ""
  | .arr _ => ","
  | .obj _ => "[object Object]"

def isContextMessage (message : Json) : Bool :=
  message.isObj && keysWithin message ["from", "name", "at", "content", "event_id", "reply_to"] &&
    hexField message "from" && hexField message "event_id" &&
    (message.get "reply_to").all (fun value => isHex64 (ownText value)) &&
    (message.get "name").all (fun value => isMentionName (ownText value)) &&
    isNumber message "at" && ((message.get "content").bind Json.string).isSome

def validateContext (context : Json) : Except String Unit := do
  let messages ← require ((context.get "messages").bind Json.items) "invalid task context"
  ensure (context.isObj && keysWithin context ["channel", "fetched_at", "messages"] &&
    isUuid (patternText context "channel") && isNumber context "fetched_at" &&
    messages.length ≤ 40 && (utf8 (Json.stringify context)).length ≤ 96 * 1024)
    "invalid task context"
  ensure (messages.all isContextMessage) "invalid task context message"

def isAdmittedMessage (message : Json) : Bool :=
  message.isObj && keysWithin message ["from", "at", "content", "event_id", "kind"] &&
    hexField message "from" && isNumber message "at" &&
    ((message.get "content").bind Json.string).any fun content => (utf8 content).length ≤ 256 * 1024

def v1Keys : List String :=
  ["version", "type", "sender", "grant_id", "grantor", "cap", "scope_subject", "policy_checked_at"]

def v2Keys : List String :=
  v1Keys ++ ["carrier", "carrier_grant_id", "carrier_grantor", "source_event", "reply_channel"]

def v3Keys : List String := v1Keys ++ ["source_event", "reply_channel", "dm"]

def authorityKeys : Option Int → List String
  | some 3 => v3Keys
  | some 2 => v2Keys
  | _ => v1Keys

/-- The version of an authority, if it is one of three. -/
def versionOf (authority : Json) : Option Int :=
  ((authority.get "version").bind Json.integer).filter fun version => 1 ≤ version && version ≤ 3

section Validators

variable (manifest : Manifest)

/-- The checks that every authority passes. -/
def isAuthority (authority : Json) (messages : List Json) : Bool :=
  authority.isObj && keysWithin authority (authorityKeys (versionOf authority)) &&
    (versionOf authority).isSome &&
    (authority.get "type").bind Json.string = some "scoped-instruction" &&
    hexField authority "sender" && hexField authority "grant_id" && hexField authority "grantor" &&
    includes ["task", "task+act"] authority "cap" && hexField authority "scope_subject" &&
    isPositive authority "policy_checked_at" &&
    messages.all (fun message => strictEq (message.get "from") (authority.get "sender")) &&
    (authority.get "scope_subject").bind Json.string = some manifest.pubkey &&
    includes manifest.grantors authority "grantor"

/-- A message is the source the authority names. -/
def isSourceMessage (authority message : Json) : Bool :=
  strictEq (message.get "event_id") (authority.get "source_event") &&
    (message.get "kind").bind Json.integer = some 9

def isCarriedAuthority (authority : Json) (messages : List Json) : Bool :=
  hexField authority "carrier" && hexField authority "carrier_grant_id" &&
    hexField authority "carrier_grantor" && hexField authority "source_event" &&
    isUuid (patternText authority "reply_channel") &&
    (manifest.carriers.find? fun entry =>
      (authority.get "carrier").bind Json.string = some entry.pubkey).any
        (fun carrier => includes carrier.channels authority "reply_channel") &&
    includes manifest.grantors authority "carrier_grantor" &&
    messages.all (isSourceMessage authority)

/-- Marked as a DM, written by a grantor, and not in a channel of the manifest. -/
def isDm (authority : Json) : Bool :=
  (match authority.get "dm" with
    | some (.bool true) => true
    | _ => false) &&
    isUuid (patternText authority "reply_channel") && includes manifest.grantors authority "sender" &&
    !(manifest.buzz.any fun channels => includes channels authority "reply_channel")

def isNativeAuthority (record authority : Json) (messages : List Json) : Bool :=
  hexField authority "source_event" &&
    strictEq (record.get "envelope") (authority.get "source_event") &&
    ((authority.get "dm").isNone || isDm manifest authority) && manifest.buzz.isSome &&
    (isDm manifest authority ||
      manifest.buzz.any fun channels => includes channels authority "reply_channel") &&
    messages.length = 1 && messages.all (isSourceMessage authority)

/-- `validateAdmittedTask`: the authority of a trusted instruction, `none` for data. -/
def validateAdmittedTask (record : Json) : Except String (Option Json) := do
  ensure record.isObj "admitted task must be an object"
  let messages ← require ((record.get "messages").bind Json.items) "invalid admitted task"
  ensure (keysWithin record
      ["type", "instance", "envelope", "messages", "received_at", "authority", "context"] &&
    (record.get "type").bind Json.string = some "admitted-task" &&
    (record.get "instance").bind Json.string = some manifest.id && hexField record "envelope" &&
    messages ≠ [] && messages.length ≤ 64) "invalid admitted task"
  ensure (messages.all isAdmittedMessage) "invalid admitted message"
  match record.get "context" with
  | some context => validateContext context
  | none => .ok ()
  match record.get "authority" with
  | none => .ok none
  | some .null => .ok none
  | some authority => do
      ensure (isAuthority manifest authority messages) "invalid admitted authority"
      if versionOf authority = some 2 then
        ensure (isCarriedAuthority manifest authority messages) "invalid channel-carried authority"
      if versionOf authority = some 3 then do
        ensure (isNativeAuthority manifest record authority messages) "invalid native Buzz authority"
        match record.get "context" with
        | some context =>
            ensure (strictEq (context.get "channel") (authority.get "reply_channel"))
              "context is not from the channel the task came from"
        | none => .ok ()
      return some authority

def noticeKeys : List String :=
  ["version", "type", "source_author", "source_event", "source_channel", "carrier",
    "carrier_grant_id", "carrier_grantor", "reason", "observed_at"]

def isNotice (notice : Json) : Bool :=
  notice.isObj && keysWithin notice noticeKeys &&
    (notice.get "version").bind Json.integer = some 1 &&
    (notice.get "type").bind Json.string = some "verified-channel-activity" &&
    hexField notice "source_author" && hexField notice "source_event" &&
    isUuid (patternText notice "source_channel") && hexField notice "carrier" &&
    hexField notice "carrier_grant_id" && hexField notice "carrier_grantor" &&
    includes ["mention", "reply"] notice "reason" && isPositive notice "observed_at"

/-- `validateVerifiedNotification` -/
def validateVerifiedNotification (record : Json) : Except String Json := do
  ensure record.isObj "verified notification must be an object"
  ensure (keysWithin record ["type", "instance", "envelope", "notification"] &&
    (record.get "type").bind Json.string = some "verified-notification" &&
    (record.get "instance").bind Json.string = some manifest.id && hexField record "envelope")
    "invalid verified notification"
  let notice ← require (record.get "notification") "invalid verified notification provenance"
  ensure (isNotice notice) "invalid verified notification provenance"
  ensure ((manifest.carriers.find? fun entry =>
      (notice.get "carrier").bind Json.string = some entry.pubkey).any
        (fun carrier => includes carrier.channels notice "source_channel") &&
    includes manifest.grantors notice "carrier_grantor")
    "notification is outside the configured carrier boundary"
  return notice

/-- What a delivery is to the keyless side. -/
inductive Delivery
  | notification (notice : Json)
  | task (authority : Option Json)

/-- `validateDesktopDelivery` -/
def validateDesktopDelivery (record : Json) : Except String Delivery :=
  if (record.get "type").bind Json.string = some "verified-notification" then
    return .notification (← validateVerifiedNotification manifest record)
  else return .task (← validateAdmittedTask manifest record)

end Validators

end Nvoy.Broker
