/-
Runs of a store: what happens to its disk and to the process that serves it.

One process at a time holds the store lock, so a genesis or a start while another process lives
does nothing. A process ends by a crash, at any point of any operation, or by being stopped.

* `step`, `run` — the actions, each with the fault that interrupts it;
* `restart` — the process is gone and a new one starts with working I/O.
-/

import Nvoy.Lib.Sizes
import Nvoy.Store.Write

namespace Nvoy.Store

open Memory

structure World where
  disk : Disk
  process : Option HiveMemoryStore

/-- Nothing on disk and no process. -/
def World.empty : World := ⟨⟨.absent, none, none, none⟩, none⟩

/-- What `randomUUID` answers. -/
abbrev StoreId := { id : String // isUuid id = true }

inductive Action where
  | initEmptyStore (storeId : StoreId) (nowSec : Int) (fault : Fault)
  | migrateStoreJson (entries : List Event) (storeId : StoreId) (nowSec : Int) (fault : Fault)
  /-- A new store object, and its `start`. -/
  | start (fault : Fault)
  /-- `setConfig` with the configuration the process already has. -/
  | setConfig (fault : Fault)
  | lookupPrior (writer d : String)
  | submit (req : SubmitRequest) (fault : Fault)
  | hardDelete (target : DeleteTarget) (nowSec : Int) (fault : Fault)
  | purgeRetention (nowSec : Int) (fault : Fault)
  | recordVerifiedBackup (receipt : Receipt)
  /-- SQLite moves the log into the main file. -/
  | checkpoint
  | crash

section Runs

variable (host : Host) (config : Config) (requireMigratedIds : List String)

/-- Runs an operation of the process, if there is one. -/
def World.serve {α : Type} (w : World) (operation : Disk → HiveMemoryStore → After α) : World :=
  match w.process with
  | some store => ⟨(operation w.disk store).disk, (operation w.disk store).store⟩
  | none => w

def step (w : World) : Action → World
  | .initEmptyStore storeId nowSec fault =>
      if w.process.isSome then w else ⟨(initEmptyStore w.disk storeId nowSec fault).disk, none⟩
  | .migrateStoreJson entries storeId nowSec fault =>
      if w.process.isSome then w
      else ⟨(migrateStoreJson host w.disk config requireMigratedIds entries storeId nowSec fault).disk,
        none⟩
  | .start fault =>
      if w.process.isSome then w
      else
        let after := reconcile host w.disk (.create (some config) requireMigratedIds) fault
        ⟨after.1, after.2⟩
  | .setConfig fault =>
      match w.process with
      | some store =>
          let after := setConfig host w.disk store (some config) none fault
          ⟨after.1, after.2⟩
      | none => w
  | .lookupPrior _ _ => w
  | .submit req fault => w.serve fun disk store => submit host disk store req fault
  | .hardDelete target nowSec fault =>
      w.serve fun disk store => hardDelete disk store target nowSec fault
  | .purgeRetention nowSec fault => w.serve fun disk store => purgeRetention disk store nowSec fault
  | .recordVerifiedBackup receipt => ⟨{ w.disk with receipt := some receipt }, w.process⟩
  | .checkpoint => ⟨w.disk.checkpoint, w.process⟩
  | .crash => ⟨w.disk, none⟩

def run (w : World) (actions : List Action) : World :=
  actions.foldl (step host config requireMigratedIds) w

/-- The process is gone, and a new one starts with working I/O. -/
def restart (w : World) : World :=
  run host config requireMigratedIds w [.crash, .start .none]

end Runs

/-! ### One deployment, for runs on fixed inputs -/

def sampleUuid : String := "01234567-89ab-cdef-0123-456789abcdef"

def sampleKey (digit : Char) : String := String.ofList (List.replicate 64 digit)

def sampleWriter : Writer :=
  ⟨"owner", sampleKey 'a', 60, false, by decide, by decide, by decide⟩

/-- The owner writes through the socket `owner`. -/
def sampleConfig : Config where
  memoryGlobalChannelId := sampleUuid
  ownerPubkey := sampleKey 'a'
  maxUnbackedSec := 3600
  globalWriters := .empty
  canonWriters := .empty
  writers := ⟨[("owner", sampleWriter)], by decide⟩
  rooms := .empty
  isUuid_memoryGlobalChannelId := by decide
  isHex64_ownerPubkey := by decide
  maxUnbackedSec_pos := by decide
  writers_distinct := by decide

def sampleStoreId : StoreId := ⟨sampleUuid, by decide⟩

/-- A backup recorded in the second 1000, after the first write. -/
def sampleReceipt (writeSeq : Nat) (positive : 1 ≤ writeSeq) : Receipt :=
  ⟨1000, writeSeq, sampleKey 'e', by decide, positive, by decide⟩

def sampleBody : Json :=
  .obj [("status", .str "active"), ("claim", .str "deploys run at noon"), ("because", .str "asked"),
    ("evidence", .arr [.str "notes"])]

/-- A claim of the owner at one fact key. -/
def sampleEvent (id topic : String) (createdAt : Int) : Event where
  id
  pubkey := sampleKey 'a'
  createdAt
  kind := MEMORY_KIND
  tags := [["d", "hive-memory:hive:ops:deploy"], ["s", "hive:ops"], ["h", sampleUuid],
    ["topic", topic], ["as_of_git", "c0ffee"], ["retention", "decision"]]
  content := Json.stringify sampleBody
  sig := ""

/-- What it says. -/
def sampleClaim (id topic : String) (createdAt : Int) : Checked where
  pubkey := sampleKey 'a'
  d := "hive-memory:hive:ops:deploy"
  slug := "deploy"
  scope := "hive:ops"
  scopeType := .hiveOps
  roomId := none
  channelId := some sampleUuid
  topic
  asOfGit := some "c0ffee"
  asOfEvt := none
  expiresAt := none
  retention := .decision
  supersedes := []
  status := .active
  claim := "deploys run at noon"
  because := "asked"
  evidence := ["notes"]
  createdAt
  ev := sampleEvent id topic createdAt

/-- The body of another claim. -/
def bodyWith (claim : String) : Json :=
  .obj [("status", .str "active"), ("claim", .str claim), ("because", .str "asked"),
    ("evidence", .arr [.str "notes"])]

/-- A claim of any author at that fact key. -/
def sampleEventBy (author claim id topic : String) (createdAt : Int) : Event :=
  { sampleEvent id topic createdAt with
    pubkey := author
    content := Json.stringify (bodyWith claim) }

def sampleClaimBy (author claim id topic : String) (createdAt : Int) : Checked :=
  { sampleClaim id topic createdAt with
    pubkey := author
    claim
    ev := sampleEventBy author claim id topic createdAt }

/-! ### The size of such a claim -/

section Size

variable {author claim id topic : String} {createdAt : Int}

theorem bytes_str_le (text : String) : Json.bytes (Json.render (.str text)) ≤ 6 * text.toList.length + 2 := by
  rw [Json.render, Json.bytes_renderString]
  exact Nat.add_le_add_right (Json.escapedBytes_le text) 2

theorem bytes_content_le (brief : claim.toList.length ≤ 100) :
    Json.bytes (Json.render (.str (Json.stringify (bodyWith claim)))) ≤ 2000 := by
  have said : Json.bytes (Json.escape (Json.render (.str claim))) ≤ 7 * claim.toList.length + 4 := by
    rw [Json.render, Json.bytes_escape_renderString]
    exact Nat.add_le_add_right (Json.twiceEscapedBytes_le claim) 4
  have others : Json.twiceEscapedBytes "status" + Json.bytes (Json.escape (Json.render (.str "active"))) +
      Json.twiceEscapedBytes "claim" + Json.twiceEscapedBytes "because" +
      Json.bytes (Json.escape (Json.render (.str "asked"))) + Json.twiceEscapedBytes "evidence" +
      Json.bytes (Json.escape (Json.render (.arr [.str "notes"]))) ≤ 1000 := by decide
  rw [Json.render, Json.bytes_renderString, ← Json.bytes_escape, Json.stringify, String.toList_ofList,
    bodyWith, Json.bytes_escape_render_obj (List.cons_ne_nil _ _)]
  simp only [List.map_cons, List.map_nil, List.sum_cons, List.sum_nil]
  omega

theorem bytes_tags_le (id : String) (createdAt : Int) (short : topic.toList.length ≤ 100) :
    Json.bytes (Json.render (.arr ((sampleEvent id topic createdAt).tags.map fun tag =>
      .arr (tag.map .str)))) ≤ 4000 := by
  have named := bytes_str_le topic
  have topics : Json.bytes (Json.render (.arr (["topic", topic].map .str))) =
      Json.bytes (Json.render (.str "topic")) + 1 + (Json.bytes (Json.render (.str topic)) + 1) + 1 :=
    Json.bytes_render_arr (List.cons_ne_nil (Json.str "topic") [.str topic])
  have others : Json.bytes (Json.render (.arr (["d", "hive-memory:hive:ops:deploy"].map .str))) +
      Json.bytes (Json.render (.arr (["s", "hive:ops"].map .str))) +
      Json.bytes (Json.render (.arr (["h", sampleUuid].map .str))) +
      Json.bytes (Json.render (.str "topic")) +
      Json.bytes (Json.render (.arr (["as_of_git", "c0ffee"].map .str))) +
      Json.bytes (Json.render (.arr (["retention", "decision"].map .str))) ≤ 2000 := by decide
  rw [Json.bytes_render_arr (by simp [sampleEvent])]
  simp only [sampleEvent, List.map_cons, List.map_nil, List.sum_cons, List.sum_nil] at topics others ⊢
  omega

theorem bytes_createdAt_le (safe : isSafeInteger createdAt = true) :
    Json.bytes (Json.render (.num createdAt 0)) ≤ 20 := by
  have small : createdAt.natAbs < 10 ^ 16 := by
    simp only [isSafeInteger, Bool.and_eq_true, decide_eq_true_eq] at safe
    omega
  rw [show Json.render (.num createdAt 0) = Json.renderInt createdAt from List.append_nil _,
    Json.bytes_renderInt]
  exact (Json.length_renderInt_le (by decide) small).trans (by decide)

theorem length_of_isHex64 {text : String} (hex : isHex64 text = true) : text.toList.length = 64 := by
  rw [isHex64, Bool.and_eq_true, decide_eq_true_eq] at hex
  exact hex.1

/-- A short claim of a short topic is under the bound. -/
theorem small_sampleEventBy (hexAuthor : isHex64 author = true) (hex : isHex64 id = true)
    (safe : isSafeInteger createdAt = true) (short : topic.toList.length ≤ 100)
    (brief : claim.toList.length ≤ 100) :
    (utf8 (Json.stringify (eventJson (sampleEventBy author claim id topic createdAt)))).length ≤
      MAX_EVENT_BYTES := by
  have tags := bytes_tags_le id createdAt short
  have content := bytes_content_le brief
  have number := bytes_createdAt_le safe
  have signed := bytes_str_le author
  have named := bytes_str_le id
  have length := length_of_isHex64 hexAuthor
  have length' := length_of_isHex64 hex
  have others : Json.escapedBytes "id" + Json.escapedBytes "pubkey" + Json.escapedBytes "created_at" +
      Json.escapedBytes "kind" + Json.bytes (Json.render (.num MEMORY_KIND 0)) + Json.escapedBytes "tags" +
      Json.escapedBytes "content" + Json.escapedBytes "sig" + Json.bytes (Json.render (.str "")) ≤ 1000 := by
    decide
  rw [Json.length_utf8, Json.stringify, String.toList_ofList, eventJson,
    Json.bytes_render_obj (List.cons_ne_nil _ _), MAX_EVENT_BYTES]
  simp only [List.map_cons, List.map_nil, List.sum_cons, List.sum_nil, sampleEventBy, sampleEvent] at tags ⊢
  omega

end Size

theorem checkEvent_sampleEventBy {author claim id topic : String} {createdAt : Int}
    (hexAuthor : isHex64 author = true) (trimmed : trim claim = claim) (filled : claim ≠ "")
    (hex : isHex64 id = true) (named : topic ≠ "") (safe : isSafeInteger createdAt = true)
    (positive : 0 < createdAt) (short : topic.toList.length ≤ 100) (brief : claim.toList.length ≤ 100) :
    checkEvent Host.sample (sampleEventBy author claim id topic createdAt) sampleConfig =
      .ok (sampleClaimBy author claim id topic createdAt) := by
  have tag : (nonEmpty ((sampleEvent id topic createdAt).tagValue "topic")).getD "deploy" = topic := by
    show (nonEmpty (some topic)).getD "deploy" = topic
    rw [nonEmpty, Option.filter_some, if_pos (by simpa using named), Option.getD_some]
  have route : checkRoute sampleUuid author ⟨.hiveOps, "hive:ops", none, none⟩ (some sampleUuid) =
      .ok () := by
    unfold checkRoute
    dsimp only
    rw [bind_eq_ok]
    simp only [ensure_eq_ok]
    exact ⟨(), by decide, by decide⟩
  have claimed : trimmedField (bodyWith claim) "claim" = claim := trimmed
  have because : trimmedField (bodyWith claim) "because" = "asked" := by
    show trim "asked" = "asked"
    decide
  have evidence : evidenceOf (bodyWith claim) = ["notes"] := by
    show (([Json.str "notes"].filterMap Json.string).map trim).filter (· ≠ "") = ["notes"]
    decide
  have git : nonEmpty ((sampleEvent id topic createdAt).tagValue "as_of_git") = some "c0ffee" := by
    show nonEmpty (some "c0ffee") = _
    decide
  have validated : validateMemoryEvent Host.sample sampleUuid ALLOWED_KINDS false
      (sampleEventBy author claim id topic createdAt) =
        .ok (sampleClaimBy author claim id topic createdAt).toValid := by
    unfold validateMemoryEvent
    simp only [bind_eq_ok, ensure_eq_ok, require_eq_ok, exists_const]
    rw [show (sampleEventBy author claim id topic createdAt).pubkey = author from rfl,
      lowerAscii_of_isHex64 hexAuthor]
    refine ⟨rfl, hexAuthor, by simp [safe, positive, sampleEventBy, sampleEvent],
      "hive-memory:hive:ops:deploy", ?_,
      ⟨"hive:ops", "deploy", "hive-memory:hive:ops:deploy", none, none⟩, by decide, rfl,
      ⟨.hiveOps, "hive:ops", none, none⟩, by decide, (), route, bodyWith claim,
      Json.parse_stringify _, rfl, .active, rfl, ?_⟩
    · show (some "hive-memory:hive:ops:deploy").filter _ = _
      decide
    rw [claimed, because, evidence]
    change nonEmpty ((sampleEventBy author claim id topic createdAt).tagValue "as_of_git") = _ at git
    change (nonEmpty ((sampleEventBy author claim id topic createdAt).tagValue "topic")).getD "deploy" =
      _ at tag
    rw [git, tag]
    refine ⟨by decide, by simp [filled], by decide, rfl, rfl, rfl, rfl, none, rfl, rfl, rfl, rfl, ?_⟩
    have channel : ((nonEmpty ((sampleEventBy author claim id topic createdAt).tagValue "h")).map
        lowerAscii) = some sampleUuid := by
      show (nonEmpty (some sampleUuid)).map lowerAscii = _
      decide
    rw [show checkClaimPayloadSecrets Host.sample claim "asked" ["notes"]
      (sampleEventBy author claim id topic createdAt).tags = none from rfl, channel]
    rfl
  unfold checkEvent
  simp only [bind_eq_ok, ensure_eq_ok, exists_const]
  exact ⟨decide_eq_true (small_sampleEventBy hexAuthor hex safe short brief), hex, _, validated, rfl⟩

theorem checkEvent_sampleEvent {id topic : String} {createdAt : Int} (hex : isHex64 id = true)
    (named : topic ≠ "") (safe : isSafeInteger createdAt = true) (positive : 0 < createdAt)
    (short : topic.toList.length ≤ 100) :
    checkEvent Host.sample (sampleEvent id topic createdAt) sampleConfig =
      .ok (sampleClaim id topic createdAt) :=
  @checkEvent_sampleEventBy (sampleKey 'a') "deploys run at noon" id topic createdAt (by decide)
    (by decide) (by decide) hex named safe positive short (by decide)

end Nvoy.Store
