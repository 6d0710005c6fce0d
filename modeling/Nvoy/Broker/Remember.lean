/-
**The memory tools of an agent**: `agent_memory.mjs`.

* `Op.properties`, `fieldError` — the fields of a request, against the schema of its tool;
* `resolveMemoryScope`, `memorySecretIn`, `memoryTemplates` — what the tool and the broker share;
* `queueMemory` — the tool: a bounded request in the spool;
* `validateMemoryRequest` — the broker: the one shape a request may have.
-/

import Nvoy.Broker.Post
import Nvoy.Memory.Builders

namespace Nvoy.Broker.Remember

open Memory (ClaimArgs FALLBACK_MEMORY_KIND MAX_TTL_SEC Refusal ScopeType WithdrawalArgs buildClaimTemplate
  buildWithdrawalTemplate checkClaimPayloadSecrets formatFactKey isSlug isUuid lowerAscii parseScope)
open Post (withheldMessage)

/-! ### The manifest -/

/-- `may_remember` of a manifest. -/
structure MayRemember where
  rooms : List String
  perHour : Int
  rooms_ne : rooms ≠ []
  isUuid_rooms : ∀ room ∈ rooms, isUuid room = true
  nodup_rooms : rooms.Nodup
  perHour_pos : 1 ≤ perHour
  perHour_le : perHour ≤ 30

/-- What the memory tools read of a manifest. -/
structure RememberManifest where
  id : String
  pubkey : String
  mayRemember : Option MayRemember
  isHex64_pubkey : isHex64 pubkey = true

def REMEMBER_KIND : Int := FALLBACK_MEMORY_KIND
def MEMORY_NOT_PERMITTED : String := "this identity may not write memory"
def MAX_MEMORY_REQUEST_BYTES : Nat := 64 * 1024

/-! ### The schema of the tools -/

inductive Op where
  | claim
  | withdraw
  deriving DecidableEq, Repr

def Op.text : Op → String
  | .claim => "claim"
  | .withdraw => "withdraw"

/-- `TOOLS` -/
def Op.tool : Op → String
  | .claim => "memory_claim"
  | .withdraw => "memory_withdraw"

/-- `FIELDS` -/
def Op.fields : Op → List String
  | .claim => ["slug", "topic", "claim", "because", "evidence", "as_of_git", "as_of_evt", "ttl_sec", "supersedes"]
  | .withdraw => ["slug", "because"]

structure StringSchema where
  minLength : Nat := 0
  maxLength : Option Nat := none
  pattern : String → Bool := fun _ => true

inductive FieldSchema where
  | string (schema : StringSchema)
  | integer (minimum maximum : Int)
  | array (items : StringSchema) (minItems maxItems : Nat)

/-- The properties of `MEMORY_TOOL_SPECS`. -/
def Op.properties : Op → List (String × FieldSchema)
  | .claim => [("scope", .string { minLength := 5, maxLength := some 120 }),
      ("slug", .string { pattern := isSlug }),
      ("topic", .string { maxLength := some 128 }),
      ("claim", .string { minLength := 1, maxLength := some 2000 }),
      ("because", .string { minLength := 1, maxLength := some 2000 }),
      ("evidence", .array { minLength := 1, maxLength := some 300 } 1 32),
      ("as_of_git", .string { maxLength := some 120 }),
      ("as_of_evt", .string { pattern := isHex64 }),
      ("ttl_sec", .integer 0 MAX_TTL_SEC),
      ("supersedes", .array { maxLength := some 300 } 0 16)]
  | .withdraw => [("scope", .string { minLength := 5, maxLength := some 120 }),
      ("slug", .string { pattern := isSlug }),
      ("because", .string { minLength := 1, maxLength := some 2000 })]

def Op.required : Op → List String
  | .claim => ["scope", "slug", "claim", "because", "evidence"]
  | .withdraw => ["scope", "slug", "because"]

/-- `text.length`, in UTF-16 units. -/
def utf16Length (text : String) : Nat := (text.toList.map fun c => if c.toNat < 0x10000 then 1 else 2).sum

def fitsString (schema : StringSchema) : Json → Bool
  | .str text => schema.minLength ≤ utf16Length text && schema.maxLength.all (utf16Length text ≤ ·) &&
      schema.pattern text
  | _ => false

def FieldSchema.fits : FieldSchema → Json → Bool
  | .string schema, value => fitsString schema value
  | .integer minimum maximum, value => value.integer.any fun n => minimum ≤ n && n ≤ maximum
  | .array items minItems maxItems, .arr values =>
      minItems ≤ values.length && values.length ≤ maxItems && values.all (fitsString items)
  | .array _ _ _, _ => false

def isNull : Json → Bool
  | .null => true
  | _ => false

/-- `value[key]`, where it is neither absent nor null. -/
def given (value : Json) (key : String) : Option Json := (value.get key).filter (!isNull ·)

/-- Why one field does not fit. -/
def badField (op : Op) (fields : Json) (key : String) : Option String :=
  match op.properties.lookup key with
  | some schema =>
      if !op.fields.contains key then some (key ++ " is not a " ++ op.tool ++ " field")
      else if (fields.get key).any schema.fits then none
      else some (key ++ " does not fit its schema")
  | none => some (key ++ " is not a " ++ op.tool ++ " field")

/-- The fields against the schema, or the reason they do not fit. -/
def fieldError (op : Op) (fields : Json) : Option String :=
  (fields.keys.findSome? (badField op fields)) <|>
    ((op.required.find? fun key => key ≠ "scope" && (given fields key).isNone).map (· ++ " is required"))

/-! ### Scopes -/

def typeText : ScopeType → String
  | .hiveOps => "hive:ops"
  | .hiveCanon => "hive:canon"
  | .room => "room"
  | .self => "self"

def scopeRefused (what : String) : Refusal :=
  ⟨"NVOY_MEMORY_SCOPE_REFUSED", "only room:<uuid> scopes may be written by an agent; " ++ what ++ " refused"⟩

/-- A scope (or room) to the one room it names: the scope and the room. -/
def resolveMemoryScope (manifest : RememberManifest) (scope room : Option Json) :
    Except Refusal (String × String) := do
  let m ← require manifest.mayRemember ⟨"NVOY_MEMORY_NOT_PERMITTED", MEMORY_NOT_PERMITTED⟩
  let raw := scope.elim ("room:" ++ room.elim (m.rooms.headD "") fun room => lowerAscii room.text) Json.text
  let parsed ← require (parseScope raw) (scopeRefused "that scope is")
  ensure (parsed.type = .room) (scopeRefused (typeText parsed.type ++ " is"))
  let roomId := parsed.roomId.getD ""
  ensure (room.all fun room => lowerAscii room.text = roomId)
    ⟨"NVOY_BAD_MEMORY", "room and scope name different rooms"⟩
  ensure (m.rooms.contains roomId)
    ⟨"NVOY_MEMORY_ROOM_REFUSED", "room is not in may_remember.rooms (" ++ ", ".intercalate m.rooms ++ ")"⟩
  .ok (parsed.scope, roomId)

/-! ### What is built from the fields -/

def textField (fields : Json) (key : String) : Option String := (fields.get key).bind Json.string

def textsField (fields : Json) (key : String) : List String :=
  (((fields.get key).bind Json.items).getD []).filterMap Json.string

/-- The texts of the fields that go into tags. -/
def taggedTexts (fields : Json) : List String :=
  (["slug", "topic", "as_of_git", "as_of_evt"].filterMap (textField fields)) ++ textsField fields "supersedes"

/-- A prior claim of which only the time is known; the fields it lacks are read as empty ones are. -/
def createdOnly (createdAt : Int) : Event := ⟨"", "", createdAt, 0, [], "", ""⟩

/-- What a claim is built from. -/
def claimArgs (manifest : RememberManifest) (scope : String) (fields : Json) (priorCreatedAt : Option Int)
    (nowSec : Int) : ClaimArgs where
  pubkey := manifest.pubkey
  scope
  slug := (textField fields "slug").getD ""
  topic := textField fields "topic"
  claim := (textField fields "claim").getD ""
  because := (textField fields "because").getD ""
  evidence := textsField fields "evidence"
  asOfGit := textField fields "as_of_git"
  asOfEvt := textField fields "as_of_evt"
  ttlSec := (fields.get "ttl_sec").bind Json.integer
  supersedes := textsField fields "supersedes"
  kind := REMEMBER_KIND
  nowSec
  priorCreatedAt := priorCreatedAt.getD 0

/-- What a withdrawal is built from. -/
def withdrawalArgs (manifest : RememberManifest) (scope : String) (fields : Json) (priorCreatedAt : Option Int)
    (nowSec : Int) : WithdrawalArgs where
  pubkey := manifest.pubkey
  priorEvent := priorCreatedAt.map createdOnly
  scope := some scope
  slug := textField fields "slug"
  because := (textField fields "because").getD ""
  kind := REMEMBER_KIND
  nowSec

section Shared

variable (host : Host)

/-- The memory secret guard over every field the agent wrote. -/
def memorySecretIn (fields : Json) : Option String :=
  checkClaimPayloadSecrets host ((textField fields "claim").getD "") ((textField fields "because").getD "")
    (textsField fields "evidence") [taggedTexts fields]

/-- The unsigned event a request builds, after the latest event of this identity at the fact key. -/
def memoryTemplates (manifest : RememberManifest) (op : Op) (scope : String) (fields : Json)
    (priorCreatedAt : Option Int) (nowSec : Int) : Except String Memory.Template :=
  match op with
  | .claim => buildClaimTemplate host (claimArgs manifest scope fields priorCreatedAt nowSec)
  | .withdraw => buildWithdrawalTemplate host (withdrawalArgs manifest scope fields priorCreatedAt nowSec)

end Shared

/-! ### The broker -/

def REQUEST_KEYS : List String :=
  ["version", "type", "id", "instance", "op", "scope", "fields", "requested_at"]

/-- A request that was checked. -/
structure MemoryRequest where
  op : Op
  scope : String
  fields : Json
  d : Option String
  roomId : String

/-- The operation of a request; an array of its one name is taken for no name. -/
def opOf : Json → Option Op
  | .str "claim" => some .claim
  | .str "withdraw" => some .withdraw
  | _ => none

def validateMemoryRequest (manifest : RememberManifest) (row : Json) : Except String MemoryRequest := do
  let shape := "memory request has an invalid or overbroad shape"
  ensure (row.isObj && keysWithin row REQUEST_KEYS && (row.get "version").bind Json.integer = some 1 &&
    (row.get "type").bind Json.string = some "memory-request" &&
    (row.get "instance").bind Json.string = some manifest.id && isHex32 (patternText row "id")) shape
  let op ← require ((row.get "op").bind opOf) shape
  let scope ← require ((row.get "scope").bind Json.string) shape
  let fields ← require ((row.get "fields").filter Json.isObj) shape
  ensure (isFiniteNumber (row.get "requested_at")) shape
  ensure manifest.mayRemember.isSome ("memory refused: " ++ MEMORY_NOT_PERMITTED)
  let resolved ← (resolveMemoryScope manifest (some (.str scope)) none).mapError fun refusal =>
    "memory refused: " ++ refusal.message
  objection (fieldError op fields) fun bad => "memory refused: " ++ bad
  .ok ⟨op, scope, fields, formatFactKey resolved.1 ((textField fields "slug").getD ""), resolved.2⟩

/-! ### The tool -/

/-- What the tool meets in the runtime directory. -/
structure Spool where
  provisioned : Bool
  /-- The requests of the last hour in the rate log, or why it cannot be read. -/
  recent : Except String Nat
  /-- `randomBytes(16)`, in hex. -/
  id : String
  isHex32_id : isHex32 id = true
  /-- Whether the request is written, synced and renamed. -/
  written : Except String Unit
  /-- Whether the line of the rate log is appended. -/
  logged : Except String Unit

/-- What the tool answers, and the file it has put into the spool. -/
structure Queued where
  request : String
  op : Op
  scope : String
  d : Option String
  file : String

/-- `Object.entries(args)` without the room, the scope and what is null. -/
def fieldsOf (args : Json) : Json :=
  .obj ((args.keys.filter fun key => key ≠ "room" && key ≠ "scope").filterMap fun key =>
    (given args key).map (key, ·))

def requestJson (manifest : RememberManifest) (id : String) (op : Op) (scope : String) (fields : Json)
    (now : Int) : Json :=
  .obj [("version", .num 1 0), ("type", .str "memory-request"), ("id", .str id),
    ("instance", .str manifest.id), ("op", .str op.text), ("scope", .str scope), ("fields", fields),
    ("requested_at", .num now 0)]

def queueFailed (message : String) : Refusal := ⟨"NVOY_MEMORY_QUEUE_FAILED", message⟩

/-- The keyless tool: resolve, guard, test-build, advise on the cap, spool. -/
def queueMemory (host : Host) (manifest : RememberManifest) (op : Op) (args : Json) (now : Int)
    (spool : Spool) : Except Refusal Queued := do
  let resolved ← resolveMemoryScope manifest (given args "scope") (given args "room")
  let fields := fieldsOf args
  objection (fieldError op fields) fun bad => (⟨"NVOY_BAD_MEMORY", bad⟩ : Refusal)
  objection (memorySecretIn host fields) fun secret => ⟨"NVOY_WITHHELD_CREDENTIAL", withheldMessage secret⟩
  let _ ← (memoryTemplates host manifest op resolved.1 fields none (now / 1000)).mapError fun message =>
    ⟨"NVOY_BAD_MEMORY", message⟩
  ensure spool.provisioned
    (queueFailed "memory request spool is not provisioned; re-run the runtime init")
  let recent ← spool.recent.mapError queueFailed
  let perHour := (manifest.mayRemember.map MayRemember.perHour).getD 0
  ensure (recent < perHour) ⟨"NVOY_MEMORY_RATE_LIMITED", "over the hourly cap: " ++ toString recent ++ "/" ++
    toString perHour ++ " memory writes in the last hour"⟩
  let body := Json.stringify (requestJson manifest spool.id op resolved.1 fields now)
  ensure ((utf8 body).length ≤ MAX_MEMORY_REQUEST_BYTES)
    ⟨"NVOY_BAD_MEMORY", "memory request exceeds its 64 KiB bound"⟩
  let _ ← spool.written.mapError queueFailed
  let _ ← spool.logged.mapError queueFailed
  .ok ⟨spool.id, op, resolved.1, formatFactKey resolved.1 ((textField fields "slug").getD ""), body⟩

end Nvoy.Broker.Remember
