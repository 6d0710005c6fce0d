/-
The configuration of the memory store, and what it lets a key read and write:
`hive_memory_store.mjs`.

* `Config` — a resolved configuration. What `validateAndResolveConfig` checks is a field, so there
  is no configuration that fails it.
* `canRead`, `writeRefusal` — the two sides of the access rule.
* `checkEvent` — the check every event meets before it is stored, and again at every reconcile and
  restore.
-/

import Nvoy.Lib.JsMap
import Nvoy.Lib.JsSet
import Nvoy.Lib.Utf8
import Nvoy.Memory.Claim

namespace Nvoy.Store

open Memory

/-! ### The configuration -/

structure Room where
  members : JsSet String
  writers : JsSet String
  /-- The writers of a room are members of it. -/
  writers_subset : ∀ writer ∈ writers.items, writer ∈ members.items

structure Writer where
  name : String
  pubkey : String
  perHour : Nat
  allowSelf : Bool
  isHex64_pubkey : isHex64 pubkey = true
  perHour_pos : 1 ≤ perHour
  perHour_le : perHour ≤ 3600

structure Config where
  memoryGlobalChannelId : String
  ownerPubkey : String
  maxUnbackedSec : Int
  globalWriters : JsSet String
  canonWriters : JsSet String
  writers : JsMap String Writer
  rooms : JsMap String Room
  isUuid_memoryGlobalChannelId : isUuid memoryGlobalChannelId = true
  isHex64_ownerPubkey : isHex64 ownerPubkey = true
  maxUnbackedSec_pos : 0 < maxUnbackedSec
  /-- No two writers share a key. -/
  writers_distinct : (writers.values.map Writer.pubkey).Nodup

/-! ### Rows -/

/-- A row of the table `events`. Its `raw_json` is the event itself. -/
structure Row where
  id : String
  pubkey : String
  kind : Int
  createdAt : Int
  d : String
  scope : String
  scopeType : ScopeType
  roomId : Option String
  topic : String
  status : Status
  retention : Retention
  asOfGit : Option String
  asOfEvt : Option String
  exp : Option Int
  raw : Event
  ingestedAt : Int
  isCurrent : Bool
  deriving DecidableEq, Repr

def Row.version (row : Row) : Version := ⟨row.createdAt, row.id⟩

/-- The fact key a row belongs to: `(pubkey, d)`. -/
def Row.key (row : Row) : String × String := (row.pubkey, row.d)

/-! ### Reading and writing -/

/-- The read predicate, applied to every row, every link end and every count. -/
def canRead (readerPubkey : String) (row : Row) (config : Config) : Bool :=
  match row.scopeType with
  | .hiveCanon => row.pubkey = config.ownerPubkey || config.canonWriters.has row.pubkey
  | .hiveOps => row.pubkey = config.ownerPubkey || config.globalWriters.has row.pubkey
  | .room =>
      match row.roomId.bind config.rooms.get with
      | some room => readerPubkey ≠ "" && room.members.has readerPubkey && room.members.has row.pubkey
      | none => false
  | .self => false

/-- Why `pubkey` may not write the scope; the writer is `none` for a migration. -/
def writeRefusal (config : Config) (writer : Option Writer) (pubkey : String) (parsed : FactKey) :
    Option String :=
  if parsed.scope = "hive:canon" then
    if pubkey = config.ownerPubkey || config.canonWriters.has pubkey then none
    else some "hive:canon is written by the owner and canonWriters only"
  else if parsed.scope = "hive:ops" then
    if pubkey = config.ownerPubkey || config.globalWriters.has pubkey then none
    else some "hive:ops is written by the owner and globalWriters only"
  else
    match parsed.roomId, parsed.pubkey with
    | some roomId, _ =>
        if (config.rooms.get roomId).any fun room =>
            room.writers.has pubkey && room.members.has pubkey then none
        else some "this key is not a writer and member of that room"
    | none, some scopePubkey =>
        if writer.any (·.allowSelf) && scopePubkey = pubkey then none
        else some "self scopes are not enabled for this writer"
    | none, none => some "unknown scope"

/-! ### The check of an event -/

def MAX_EVENT_BYTES : Nat := 64 * 1024

def ALLOWED_KINDS : List Int := [MEMORY_KIND, FALLBACK_MEMORY_KIND]

def eventJson (ev : Event) : Json :=
  .obj [("id", .str ev.id), ("pubkey", .str ev.pubkey), ("created_at", .num ev.createdAt 0),
    ("kind", .num ev.kind 0), ("tags", .arr (ev.tags.map fun tag => .arr (tag.map .str))),
    ("content", .str ev.content), ("sig", .str ev.sig)]

/-- A checked event: what it says, and the event. -/
structure Checked extends Valid where
  ev : Event

def Checked.key (v : Checked) : String × String := (v.pubkey, v.d)

def Checked.version (v : Checked) : Version := ⟨v.ev.createdAt, v.ev.id⟩

section Check

variable (host : Host)

def checkEvent (event : Event) (config : Config) : Except Invalid Checked := do
  ensure ((utf8 (Json.stringify (eventJson event))).length ≤ MAX_EVENT_BYTES)
    ("event exceeds " ++ toString MAX_EVENT_BYTES ++ " bytes" : String)
  ensure (host.verifyEvent event) "invalid event signature or id"
  let v ← validateMemoryEvent host config.memoryGlobalChannelId ALLOWED_KINDS false event
  .ok { v with ev := event }

end Check

section Checked

variable {host : Host} {config : Config} {event : Event} {v : Checked}

/-- What a checked event has passed. -/
theorem checkEvent_iff : checkEvent host event config = .ok v ↔
    (utf8 (Json.stringify (eventJson event))).length ≤ MAX_EVENT_BYTES ∧ host.verifyEvent event = true ∧
      validateMemoryEvent host config.memoryGlobalChannelId ALLOWED_KINDS false event = .ok v.toValid ∧
      v.ev = event := by
  unfold checkEvent
  simp only [bind_eq_ok, ensure_eq_ok, exists_const, decide_eq_true_eq]
  constructor
  · rintro ⟨small, verified, valid, validated, same⟩
    obtain rfl := Except.ok.inj same
    exact ⟨small, verified, validated, rfl⟩
  · rintro ⟨small, verified, validated, rfl⟩
    exact ⟨small, verified, v.toValid, validated, rfl⟩

theorem checkEvent_eq_ok (checked : checkEvent host event config = .ok v) :
    v.ev = event ∧ host.verifyEvent event = true ∧ Reads event v.toValid := by
  obtain ⟨-, verified, validated, same⟩ := checkEvent_iff.mp checked
  exact ⟨same, verified, reads_of_valid validated⟩

theorem checkEvent_ev (checked : checkEvent host event config = .ok v) : v.ev = event :=
  (checkEvent_eq_ok checked).1

theorem checkEvent_expires (checked : checkEvent host event config = .ok v) {expiresAt : Int}
    (expires : v.expiresAt = some expiresAt) : v.ev.createdAt < expiresAt := by
  obtain ⟨-, -, validated, rfl⟩ := checkEvent_iff.mp checked
  exact expires_of_valid validated expires

theorem checkEvent_hex (checked : checkEvent host event config = .ok v) :
    isHex64 event.id = true :=
  host.verifyEvent_id (checkEvent_eq_ok checked).2.1

end Checked

end Nvoy.Store
