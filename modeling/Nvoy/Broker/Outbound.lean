/-
**The persisted reply**: `outbound_record.mjs`.

A reply is frozen in a record before anything is signed: the unsigned seal of a wrapped reply, or the
unsigned kind 9 of a native one, under its hash. The record then gets the event that enacts it, with
the approval or the direct path that opened the signer.

* `FrozenForm`, `sealForm`, `channelForm` — the two kinds of frozen object;
* `validateOutboundRecord` — the one validator of persisted records, over any JSON value;
* `Frozen`, `frozen_of_validate` — what a validated record of a wrapped reply holds.
-/

import Nvoy.Broker.Approval

namespace Nvoy.Broker

open Admission

def replyRequestDigest (sha256 : String → String) (request : Json) : String :=
  sha256 (Json.stringify request)

/-! ### Fields -/

/-- The value, where it is neither missing nor `null`. -/
def present : Option Json → Option Json
  | none | some .null => none
  | some value => some value

/-- Whether `value` counts as true. -/
def isTruthy : Option Json → Bool
  | none | some .null | some (.bool false) => false
  | some (.num mantissa _) => mantissa ≠ 0
  | some (.str text) => text ≠ ""
  | _ => true

def boolField (value : Json) (key : String) : Option Bool :=
  match value.get key with
  | some (.bool value) => some value
  | _ => none

/-- The record is of this request; an empty text asks for nothing. -/
def bindsRequest (record : Json) (requestId requestDigest : String) : Bool :=
  isHex32 (patternText record "request_id") && hexField record "request_digest" &&
    (boolField record "published").isSome &&
    (requestId = "" || (record.get "request_id").bind Json.string = some requestId) &&
    (requestDigest = "" || (record.get "request_digest").bind Json.string = some requestDigest)

/-- `accepted` and `published_at` of a published record. -/
def hasEvidence (record : Json) : Bool :=
  boolField record "published" ≠ some true ||
    (((record.get "accepted").bind Json.integer).any (1 ≤ ·) && isPositive record "published_at")

/-! ### Frozen objects -/

def FROZEN_KEYS : List String := ["content", "created_at", "kind", "pubkey", "tags"]

/-- One of the two kinds of frozen reply. -/
structure FrozenForm where
  frozen : String
  enacted : String
  /-- The path that needs no approval. -/
  path : String
  isFrozen : Unsigned → Bool
  isEnacted : Event → String → Bool
  notFrozen : String
  notEnacted : String

def FrozenForm.keys (form : FrozenForm) : List String :=
  ["version", "request_digest", "request_id", "fingerprint", form.frozen, form.enacted, "approval_id",
    "enactment", "published", "published_at", "accepted"]

section Validator

variable (host : Host) (getEventHash : Unsigned → String)

/-- Version 2. -/
def sealForm : FrozenForm where
  frozen := "unsigned_seal"
  enacted := "wrap"
  path := "channel-carry-direct"
  isFrozen u := u.kind = 13 && u.tags = []
  isEnacted ev _ := ev.kind = 1059 && host.verifyEvent ev
  notFrozen := "outbound proposal does not contain the exact frozen kind:13 seal"
  notEnacted := "enacted outbound proposal lacks a valid wrap"

/-- Version 3. -/
def channelForm : FrozenForm where
  frozen := "unsigned_event"
  enacted := "event"
  path := "buzz-native-direct"
  isFrozen u := u.kind = 9 && (channelTags u.tags).length = 1
  isEnacted ev fingerprint := ev.id = fingerprint && host.verifyEvent ev
  notFrozen := "outbound proposal does not contain the exact frozen kind:9 channel reply"
  notEnacted := "enacted outbound proposal lacks the signed frozen channel reply"

def validateFrozen (form : FrozenForm) (record : Json) (requestId requestDigest : String) :
    Except String Unit := do
  ensure (record.isObj && keysWithin record form.keys && bindsRequest record requestId requestDigest &&
    hexField record "fingerprint") "outbound proposal does not bind this request"
  let frozen ← require (record.get form.frozen) form.notFrozen
  ensure (exactKeys frozen FROZEN_KEYS && hexField frozen "pubkey") form.notFrozen
  let u ← require ((unsignedOf frozen).filter form.isFrozen) form.notFrozen
  ensure ((record.get "fingerprint").bind Json.string = some (getEventHash u)) form.notFrozen
  match present (record.get form.enacted) with
  | none =>
      ensure ((present (record.get "approval_id")).isNone &&
        (present (record.get "enactment")).isNone && boolField record "published" ≠ some true) "unsigned outbound proposal claims enactment"
  | some enacted => do
      ensure ((wireEvent enacted).any fun ev => form.isEnacted ev (getEventHash u)) form.notEnacted
      let direct : Bool := (record.get "enactment").bind Json.string = some form.path
      ensure ((present (record.get "enactment")).isNone || direct)
        "enacted outbound proposal names an unknown enactment path"
      ensure (direct != hexField record "approval_id")
        "enacted outbound proposal lacks a valid approval or names two enactment paths"
      ensure (hasEvidence record) "published outbound record has no verified completion evidence"

/-- Version 1: the wrap, without what it was made from. -/
def validateWrapOnly (record : Json) (requestId requestDigest : String) : Except String Unit := do
  ensure (record.isObj && keysWithin record ["version", "request_digest", "request_id", "wrap",
      "published", "published_at", "accepted"] &&
    (record.get "version").bind Json.integer = some 1 && bindsRequest record requestId requestDigest)
    "outbound record does not bind this request"
  ensure (((record.get "wrap").bind wireEvent).any fun ev => ev.kind = 1059 && host.verifyEvent ev)
    "outbound record does not contain a valid signed kind:1059 wrap"
  ensure (hasEvidence record) "published outbound record has no verified completion evidence"

def validateOutboundRecord (record : Json) (requestId requestDigest : String) : Except String Unit :=
  match (record.get "version").bind Json.integer with
  | some 3 => validateFrozen getEventHash (channelForm host) record requestId requestDigest
  | some 2 => validateFrozen getEventHash (sealForm host) record requestId requestDigest
  | _ => validateWrapOnly host record requestId requestDigest

end Validator

/-! ### What a record holds -/

/-- The record of a wrapped reply: the frozen seal under its hash, and no approval without a wrap. -/
structure Frozen (getEventHash : Unsigned → String) (record : Json) : Prop where
  obj : record.isObj = true
  frozen : ∃ u, (record.get "unsigned_seal").bind unsignedOf = some u ∧
    record.get "fingerprint" = some (.str (getEventHash u))
  unapproved : present (record.get "wrap") = none → present (record.get "approval_id") = none

variable {host : Host} {getEventHash : Unsigned → String} {record : Json}
  {requestId requestDigest : String}

theorem frozen_of_validate (two : (record.get "version").bind Json.integer = some 2)
    (valid : validateOutboundRecord host getEventHash record requestId requestDigest = .ok ()) :
    Frozen getEventHash record := by
  unfold validateOutboundRecord at valid
  rw [two] at valid
  unfold validateFrozen at valid
  simp only [bind_eq_ok, ensure_eq_ok, require_eq_ok, exists_const, Bool.and_eq_true,
    decide_eq_true_eq, Option.filter_eq_some_iff] at valid
  obtain ⟨⟨⟨⟨obj, -⟩, -⟩, -⟩, frozen, has, -, u, ⟨read, -⟩, hash, rest⟩ := valid
  refine ⟨obj, ⟨u, ?_, bind_string_eq_some.mp hash⟩, fun none => ?_⟩
  · have has' : record.get "unsigned_seal" = some frozen := has
    rw [has']
    exact read
  · have absent : present (record.get (sealForm host).enacted) = Option.none := none
    rw [absent] at rest
    dsimp only at rest
    rw [ensure_eq_ok, Bool.and_eq_true, Bool.and_eq_true] at rest
    exact Option.isNone_iff_eq_none.mp rest.1.1

end Nvoy.Broker
