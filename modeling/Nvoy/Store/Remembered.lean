/-
**A memory request, from the tool to the store**: what `queueMemory` accepts against `validateMemoryRequest`,
`memoryTemplates` and the checks of a submit.

* `validate_queued` — a spooled request passes the checks of the broker, after its round trip;
* `builds_iff` — when the broker builds an event from it, at any second and after any prior event;
* `bytes_claim`, `bytes_withdrawal` — how large the signed event is, from the fields of the request;
* `remembered_iff` — which requests reach the store as an event it does not refuse;
* `bulky_refused` — a request inside its bound whose event is outside it.
-/

import Nvoy.Broker.Remember
import Nvoy.Store.Withdrawal

namespace Nvoy.Store

open Broker (isFiniteNumber)
open Broker.Remember
open Memory

/-! ### The request -/

section Request

variable {host : Host} {manifest : RememberManifest} {op : Op} {args : Json} {now : Int} {spool : Spool}
  {queued : Queued} {scope room : String}

/-- What the tool has checked of a request that it has put into the spool. -/
theorem queueMemory_eq_ok (ok : queueMemory host manifest op args now spool = .ok queued) :
    ∃ room, resolveMemoryScope manifest (given args "scope") (given args "room") = .ok (queued.scope, room) ∧
      fieldError op (fieldsOf args) = none ∧ memorySecretIn host (fieldsOf args) = none ∧
      (∃ t, memoryTemplates host manifest op queued.scope (fieldsOf args) none (now / 1000) = .ok t) ∧
      queued.file = Json.stringify (requestJson manifest spool.id op queued.scope (fieldsOf args) now) := by
  unfold queueMemory at ok
  simp only [bind_eq_ok, objection_eq_ok, ensure_eq_ok, mapError_eq_ok, exists_const, decide_eq_true_eq] at ok
  obtain ⟨⟨resolved, room⟩, scoped_, fits, clean, t, built, -, recent, -, -, -, -, -, -, -, answered⟩ := ok
  obtain rfl := Except.ok.inj answered
  exact ⟨room, scoped_, fits, clean, ⟨t, built⟩, rfl⟩

/-- A scope that is resolved is a room that the manifest lists. -/
theorem resolveMemoryScope_eq_ok {given named : Option Json}
    (ok : resolveMemoryScope manifest given named = .ok (scope, room)) :
    isUuid room = true ∧ scope = "room:" ++ room ∧ ∃ m, manifest.mayRemember = some m ∧ room ∈ m.rooms := by
  unfold resolveMemoryScope at ok
  simp only [bind_eq_ok, require_eq_ok, ensure_eq_ok, exists_const, decide_eq_true_eq,
    List.contains_iff_mem] at ok
  obtain ⟨m, permitted, parsed, read, type, -, listed, same⟩ := ok
  obtain ⟨rfl, rfl⟩ := Prod.mk.inj (Except.ok.inj same)
  cases normal_of_parse read with
  | hiveOps => cases type
  | hiveCanon => cases type
  | room uuid => exact ⟨uuid, rfl, m, permitted, listed⟩
  | self hex => cases type

/-- The scope of a request is resolved as it was. -/
theorem resolve_again {m : MayRemember} (uuid : isUuid room = true) (permitted : manifest.mayRemember = some m)
    (listed : room ∈ m.rooms) :
    resolveMemoryScope manifest (some (.str ("room:" ++ room))) none = .ok ("room:" ++ room, room) := by
  unfold resolveMemoryScope
  simp only [bind_eq_ok, require_eq_ok, ensure_eq_ok, exists_const, decide_eq_true_eq, List.contains_iff_mem]
  exact ⟨m, permitted, _, parseScope_room uuid, rfl, rfl, listed, rfl⟩

/-- **A spooled request passes the checks of the broker**, after its round trip through the file. -/
theorem validate_queued (ok : queueMemory host manifest op args now spool = .ok queued)
    (finite : isFiniteNumber (some (.num now 0)) = true) : ∃ room row,
      isUuid room = true ∧ queued.scope = "room:" ++ room ∧ Json.parse queued.file.toList = some row ∧
        validateMemoryRequest manifest row = .ok ⟨op, queued.scope, fieldsOf args,
          formatFactKey queued.scope ((textField (fieldsOf args) "slug").getD ""), room⟩ := by
  obtain ⟨room, resolved, fits, -, -, file⟩ := queueMemory_eq_ok ok
  obtain ⟨uuid, scope, m, permitted, listed⟩ := resolveMemoryScope_eq_ok resolved
  refine ⟨room, requestJson manifest spool.id op queued.scope (fieldsOf args) now, uuid, scope, ?_, ?_⟩
  · rw [file]
    exact Json.parse_stringify _
  · have named : (Json.str op.text |> opOf) = some op := by cases op <;> rfl
    unfold validateMemoryRequest
    simp only [bind_eq_ok, require_eq_ok, ensure_eq_ok, objection_eq_ok, mapError_eq_ok, exists_const]
    refine ⟨?_, op, named, queued.scope, rfl, fieldsOf args, rfl, finite, ?_, (queued.scope, room), ?_, fits, rfl⟩
    · simp only [Bool.and_eq_true, decide_eq_true_eq]
      exact ⟨⟨⟨⟨⟨rfl, show (REQUEST_KEYS.dedup.all REQUEST_KEYS.contains) = true by decide⟩, rfl⟩, rfl⟩, rfl⟩,
        spool.isHex32_id⟩
    · rw [permitted]
      rfl
    · rw [scope]
      exact resolve_again uuid permitted listed

end Request

/-! ### The event of a request -/

/-- What is known of the time of the prior event: the store has checked it. -/
def Reported (priorCreatedAt : Option Int) : Prop :=
  ∀ createdAt ∈ priorCreatedAt, isSafeInteger createdAt = true ∧ 0 < createdAt

/-- The time of the event of a request. -/
def timeOf (priorCreatedAt : Option Int) (nowSec : Int) : Int := max nowSec (priorCreatedAt.getD 0 + 1)

def roomScope (room : String) : Scope := ⟨.room, "room:" ++ room, some room, none⟩

/-- The seconds until the event of a request expires; none for a decision or a withdrawal. -/
def lifetimeOf (manifest : RememberManifest) (op : Op) (room : String) (fields : Json) : Int :=
  match op with
  | .claim => (claimArgs manifest ("room:" ++ room) fields none 0).effectiveTtl (roomScope room)
  | .withdraw => 0

section Bytes

open Json (escapedBytes renderInt twiceEscapedBytes)

/-- The bytes of a tag of one value beside the value. -/
def taggedBytes (name : String) (texts : List String) : Nat :=
  (texts.map fun text => escapedBytes name + escapedBytes text + 8).sum

/-- The bytes of the signed event of a claim. -/
def claimBytes (args : ClaimArgs) (room : String) (createdAt ttl : Int) : Nat :=
  405 + (renderInt createdAt).length +
    taggedBytes "d" [MEMORY_D_PREFIX ++ ("room:" ++ room) ++ ":" ++ args.slug] + taggedBytes "h" [room] +
    taggedBytes "s" ["room:" ++ room] +
    taggedBytes "topic" (normalizeMemoryTopic ((nonEmpty args.topic).getD args.slug)).toList +
    taggedBytes "as_of_git" (nonEmpty args.asOfGit).toList +
    taggedBytes "as_of_evt" ((nonEmpty args.asOfEvt).toList.map lowerAscii) +
    (if ttl = 0 then taggedBytes "retention" [DECISION_RETENTION]
      else taggedBytes "exp" [toString (createdAt + ttl)]) +
    taggedBytes "supersedes" (args.supersedes.filter (· ≠ "")) +
    twiceEscapedBytes (trim args.claim) + twiceEscapedBytes (trim args.because) +
    (((args.evidence.map trim).filter (· ≠ "")).map fun text => twiceEscapedBytes text + 5).sum

/-- The bytes of the signed event of a withdrawal. -/
def withdrawnBytes (room slug because : String) (createdAt : Int) : Nat :=
  409 + (renderInt createdAt).length + taggedBytes "d" [MEMORY_D_PREFIX ++ ("room:" ++ room) ++ ":" ++ slug] +
    taggedBytes "h" [room] + taggedBytes "s" ["room:" ++ room] + taggedBytes "topic" [slug] +
    twiceEscapedBytes (trim because)

/-- The bytes of the signed event of a request. -/
def requestBytes (manifest : RememberManifest) (op : Op) (room : String) (fields : Json) (createdAt : Int) : Nat :=
  match op with
  | .claim => claimBytes (claimArgs manifest ("room:" ++ room) fields none 0) room createdAt
      (lifetimeOf manifest .claim room fields)
  | .withdraw => withdrawnBytes room ((textField fields "slug").getD "") ((textField fields "because").getD "")
      createdAt

end Bytes

/-- What is known of the event of a request: its key, when it is built, that it is then accepted wherever it
is read, and its bytes. -/
structure Builds (host : Host) (manifest : RememberManifest) (op : Op) (room : String) (fields : Json)
    (priorCreatedAt : Option Int) (nowSec : Int) (t : Template) : Prop where
  pubkey : t.pubkey = manifest.pubkey
  key : t.event.tagValue "d" = formatFactKey ("room:" ++ room) ((textField fields "slug").getD "")
  slug : isSlug ((textField fields "slug").getD "") = true
  built : ∀ t', memoryTemplates host manifest op ("room:" ++ room) fields priorCreatedAt nowSec = .ok t' ↔
    t = t' ∧ Timely host (timeOf priorCreatedAt nowSec) (lifetimeOf manifest op room fields)
  accepted : Timely host (timeOf priorCreatedAt nowSec) (lifetimeOf manifest op room fields) → ∀ channel,
    ∃ parts, Accepts host channel ALLOWED_KINDS false t.event parts ∧
      ∃ stored, memoryWritePolicy (parts.valid t.event) = .ok stored
  bytes : ∀ ev, Signs host t ev → (utf8 (Json.stringify (eventJson ev))).length =
    requestBytes manifest op room fields (timeOf priorCreatedAt nowSec)

section Claims

variable {host : Host} {manifest : RememberManifest} {args : ClaimArgs} {fields : Json} {room topic channel : String}
  {kinds : List Int} {parts : Parts} {priorCreatedAt : Option Int} {earlier nowSec : Int} {parsedScope : Scope}
  {route : List (List String)}

/-- A claim of a room is routed to it. -/
theorem route_room (uuid : isUuid room = true) (scope : args.scope = "room:" ++ room)
    (drafts : Drafts args parsedScope topic route) : parsedScope = roomScope room ∧ route = [["h", room]] := by
  have read := drafts.scope
  rw [scope, parseScope_room uuid] at read
  obtain rfl := Option.some.inj read
  exact ⟨rfl, (Except.ok.inj drafts.route).symm⟩

/-- What is accepted of a room claim is in the room. -/
theorem type_of_accepts (uuid : isUuid room = true)
    (accepts : Accepts host channel kinds false
      (claimTemplate args (roomScope room) topic [["h", room]]).event parts) :
    parts.parsedScope.type = .room := by
  have tagged : (claimTemplate args (roomScope room) topic [["h", room]]).event.tagValue "s" =
      some ("room:" ++ room) := rfl
  have own := Option.some.inj (tagged.symm.trans accepts.scope)
  have read := accepts.parsedScope
  rw [← own, parseScope_room uuid] at read
  obtain same := Option.some.inj read
  rw [← same]

theorem createdAt_claimArgs (reported : Reported priorCreatedAt) {scope : String} :
    (claimArgs manifest scope fields priorCreatedAt nowSec).createdAt = timeOf priorCreatedAt nowSec ∧
      0 < timeOf priorCreatedAt nowSec := by
  have safe : isSafeInteger (priorCreatedAt.getD 0) = true ∧ 0 ≤ priorCreatedAt.getD 0 := by
    cases priorCreatedAt with
    | none => exact ⟨by decide, le_refl 0⟩
    | some createdAt => exact ⟨(reported createdAt rfl).1, (reported createdAt rfl).2.le⟩
  refine ⟨?_, lt_of_lt_of_le (by omega) (le_max_right _ _)⟩
  show max nowSec (if isSafeInteger (priorCreatedAt.getD 0) then priorCreatedAt.getD 0 + 1 else 0) = _
  rw [if_pos safe.1]
  rfl

theorem formatFactKey_room {slug : String} (uuid : isUuid room = true) (slugged : isSlug slug = true) :
    formatFactKey ("room:" ++ room) slug = some (MEMORY_D_PREFIX ++ ("room:" ++ room) ++ ":" ++ slug) :=
  formatFactKey_eq_some.mpr ⟨roomScope room, parseScope_room uuid, slugged, rfl⟩

/-- The bytes of the tags of one name. -/
theorem sum_tags (name : String) (texts : List String) :
    ((texts.map ([name, ·])).map fun tag => (tag.map fun cell => Json.escapedBytes cell + 3).sum + 2).sum =
      taggedBytes name texts := by
  rw [List.map_map, taggedBytes]
  congr 1
  refine List.map_congr_left fun text _ => ?_
  simp only [Function.comp_apply, List.map_cons, List.map_nil, List.sum_cons, List.sum_nil]
  omega

theorem bytes_claimBody (filled : (args.evidence.map trim).filter (· ≠ "") ≠ []) :
    Json.escapedBytes (Json.stringify (claimBody args)) =
      70 + Json.twiceEscapedBytes (trim args.claim) + Json.twiceEscapedBytes (trim args.because) +
        (((args.evidence.map trim).filter (· ≠ "")).map fun text => Json.twiceEscapedBytes text + 5).sum := by
  have keys : Json.twiceEscapedBytes "claim" = 5 ∧ Json.twiceEscapedBytes "because" = 7 ∧
      Json.twiceEscapedBytes "evidence" = 8 ∧ Json.twiceEscapedBytes "status" = 6 ∧
      Json.twiceEscapedBytes "active" = 6 := by decide
  obtain ⟨claim, why, evidence, status, active⟩ := keys
  have text : ∀ text, Json.bytes (Json.escape (Json.render (.str text))) = Json.twiceEscapedBytes text + 4 := by
    intro text
    rw [Json.render, Json.bytes_escape_renderString]
  rw [← Json.bytes_escape, Json.stringify, String.toList_ofList, claimBody,
    Json.bytes_escape_render_obj (List.cons_ne_nil _ _)]
  simp only [List.map_cons, List.map_nil, List.sum_cons, List.sum_nil, claim, why, evidence, status, active,
    text, Json.bytes_escape_render_texts filled]
  omega

/-- The evidence of a claim is in the content of its event. -/
theorem evidenceBytes_le {createdAt ttl : Int} :
    (((args.evidence.map trim).filter (· ≠ "")).map fun text => Json.twiceEscapedBytes text + 5).sum ≤
      claimBytes args room createdAt ttl := by
  unfold claimBytes
  exact Nat.le_add_left _ _

/-- **How large the signed event of a room claim is.** -/
theorem bytes_claim (uuid : isUuid room = true) (drafts : Drafts args (roomScope room) topic [["h", room]])
    (pubkey : isHex64 (lowerAscii args.pubkey) = true) (kind : args.kind ∈ ALLOWED_KINDS)
    (filled : (args.evidence.map trim).filter (· ≠ "") ≠ []) {ev : Event}
    (signs : Signs host (claimTemplate args (roomScope room) topic [["h", room]]) ev) :
    (utf8 (Json.stringify (eventJson ev))).length =
      claimBytes args room args.createdAt (args.effectiveTtl (roomScope room)) := by
  have cells : ∀ tag ∈ (claimTemplate args (roomScope room) topic [["h", room]]).tags, tag ≠ [] := by
    intro tag member
    simp only [claimTemplate, ClaimArgs.leadingTags, ClaimArgs.trailingTags, lifetimeTag, List.cons_append,
      List.nil_append, List.mem_cons, List.mem_append, List.mem_map] at member
    rcases member with rfl | rfl | rfl | rfl | (⟨_, -, rfl⟩ | ⟨_, -, rfl⟩) | rfl | ⟨_, -, rfl⟩
    all_goals first
      | exact List.cons_ne_nil _ _
      | split_ifs <;> exact List.cons_ne_nil _ _
  have key : (formatFactKey ("room:" ++ room) args.slug).getD "" =
      MEMORY_D_PREFIX ++ ("room:" ++ room) ++ ":" ++ args.slug := by
    rw [formatFactKey_room uuid drafts.slug, Option.getD_some]
  have cleaned : (normalizeMemoryTopic ((nonEmpty args.topic).getD args.slug)).toList = [topic] := by
    rw [drafts.topic]
    rfl
  have lifetime : ((lifetimeTag args.createdAt (args.effectiveTtl (roomScope room))).map fun cell =>
      Json.escapedBytes cell + 3).sum + 2 = if args.effectiveTtl (roomScope room) = 0
        then Json.escapedBytes "retention" + Json.escapedBytes DECISION_RETENTION + 8
        else Json.escapedBytes "exp" +
          Json.escapedBytes (toString (args.createdAt + args.effectiveTtl (roomScope room))) + 8 := by
    unfold lifetimeTag
    split_ifs <;> simp only [List.map_cons, List.map_nil, List.sum_cons, List.sum_nil] <;> omega
  have evt : ∀ texts : List String, texts.map (["as_of_evt", lowerAscii ·]) =
      (texts.map lowerAscii).map (["as_of_evt", ·]) := by
    intro texts
    rw [List.map_map]
    rfl
  have single : ∀ name text, taggedBytes name [text] = Json.escapedBytes name + Json.escapedBytes text + 8 := by
    intro name text
    rw [taggedBytes, List.map_cons, List.map_nil, List.sum_cons, List.sum_nil, Nat.add_zero]
  have scope : (roomScope room).scope = "room:" ++ room := rfl
  have body := @bytes_claimBody args filled
  rw [bytes_template signs pubkey kind (by simp [claimTemplate]) cells]
  simp only [claimTemplate, ClaimArgs.leadingTags, ClaimArgs.trailingTags, tagsBytes, List.cons_append,
    List.nil_append, List.map_cons, List.map_append, List.sum_cons, List.sum_append, evt, sum_tags, lifetime,
    List.map_nil, List.sum_nil, key, body, claimBytes, cleaned, single,
    scope]
  omega

/-- **The event of a claim**: built at every second it is in time for. -/
theorem builds_claim (uuid : isUuid room = true) (reported : Reported priorCreatedAt)
    (first : ∃ t, memoryTemplates host manifest .claim ("room:" ++ room) fields none earlier = .ok t) :
    ∃ t, Builds host manifest .claim room fields priorCreatedAt nowSec t := by
  obtain ⟨_, first⟩ := first
  obtain ⟨_, topic, _, drafts, rfl, check, valid, policy⟩ := buildClaimTemplate_eq_ok.mp first
  obtain ⟨rfl, rfl⟩ := route_room uuid rfl drafts
  obtain ⟨parts, accepts, rfl⟩ := validateMemoryEvent_eq_ok.mp valid
  have type := type_of_accepts uuid accepts
  obtain ⟨createdAt, positive⟩ := @createdAt_claimArgs manifest fields priorCreatedAt nowSec reported
    ("room:" ++ room)
  set later := claimArgs manifest ("room:" ++ room) fields priorCreatedAt nowSec with args
  have draftsLater : Drafts later (roomScope room) topic [["h", room]] :=
    drafts.later nowSec (priorCreatedAt.getD 0)
  have lower : lowerAscii manifest.pubkey = manifest.pubkey := lowerAscii_of_isHex64 manifest.isHex64_pubkey
  have slugged : isSlug ((textField fields "slug").getD "") = true := drafts.slug
  have accepted : Timely host (timeOf priorCreatedAt nowSec) (lifetimeOf manifest .claim room fields) →
      ∀ channel, ∃ parts, Accepts host channel ALLOWED_KINDS false
        (claimTemplate later (roomScope room) topic [["h", room]]).event parts ∧ ∃ stored,
          memoryWritePolicy (parts.valid (claimTemplate later (roomScope room) topic [["h", room]]).event) =
            .ok stored := by
    intro timely channel
    have again : later = { claimArgs manifest ("room:" ++ room) fields none earlier with
        nowSec
        priorCreatedAt := priorCreatedAt.getD 0 } := rfl
    exact accepts_later drafts accepts policy type again (createdAt ▸ positive) (createdAt ▸ timely)
  refine ⟨claimTemplate later (roomScope room) topic [["h", room]], {
    pubkey := lower
    key := ?_
    slug := slugged
    built := ?_
    accepted
    bytes := ?_ }⟩
  · rw [formatFactKey_room uuid slugged, show (claimTemplate later (roomScope room) topic [["h", room]]).event.tagValue
      "d" = some ((formatFactKey ("room:" ++ room) ((textField fields "slug").getD "")).getD "") from rfl,
      formatFactKey_room uuid slugged, Option.getD_some]
  · intro t
    show buildClaimTemplate host later = .ok t ↔ _
    rw [buildClaimTemplate_eq_ok]
    constructor
    · rintro ⟨_, again, _, drafted, rfl, check, valid, -⟩
      obtain ⟨rfl, rfl⟩ := route_room uuid rfl drafted
      obtain rfl := Option.some.inj (draftsLater.topic.symm.trans drafted.topic)
      obtain ⟨read, reads, -⟩ := validateMemoryEvent_eq_ok.mp valid
      exact ⟨rfl, createdAt ▸ timely_of_accepts draftsLater reads⟩
    · rintro ⟨rfl, timely⟩
      obtain ⟨read, reads, stored, meets⟩ := accepted timely ""
      exact ⟨_, topic, _, draftsLater, rfl, _, validateMemoryEvent_eq_ok.mpr ⟨read, reads, rfl⟩, stored, meets⟩
  · intro ev signs
    have body : parts.body = claimBody later := Option.some.inj (accepts.content.symm.trans (Json.parse_stringify _))
    have active : parts.status = .active := by
      have status := accepts.status
      rw [body] at status
      exact (Option.some.inj status).symm
    have filled : (later.evidence.map trim).filter (· ≠ "") ≠ [] := by
      intro empty
      refine accepts.evidence active ?_
      rw [Parts.evidence, body, claimBody, empty]
      rfl
    have pubkey : isHex64 (lowerAscii later.pubkey) = true := lower.symm ▸ manifest.isHex64_pubkey
    rw [bytes_claim uuid draftsLater pubkey (show FALLBACK_MEMORY_KIND ∈ ALLOWED_KINDS by decide) filled signs,
      createdAt]
    rfl

end Claims

section Withdrawals

variable {host : Host} {manifest : RememberManifest} {fields : Json} {room slug because : String}
  {priorCreatedAt : Option Int} {earlier nowSec createdAt : Int}

/-- The event of a withdrawal of which only the time of the prior claim is known. -/
def withdrawalTemplate (manifest : RememberManifest) (room slug because : String) (createdAt : Int) : Template where
  kind := REMEMBER_KIND
  pubkey := manifest.pubkey
  createdAt
  tags := [["d", MEMORY_D_PREFIX ++ ("room:" ++ room) ++ ":" ++ slug], ["h", room], ["s", "room:" ++ room],
    ["topic", slug]]
  content := Json.stringify (withdrawnBody because [])

/-- A prior event of which only the time is known is no claim. -/
theorem createdOnly_invalid {channel : String} :
    (priorCreatedAt.map createdOnly).bind (fun prior => (validateMemoryEvent host channel
      [MEMORY_KIND, FALLBACK_MEMORY_KIND] false prior).toOption) = none := by
  cases priorCreatedAt with
  | none => rfl
  | some createdAt =>
      cases check : validateMemoryEvent host channel [MEMORY_KIND, FALLBACK_MEMORY_KIND] false
          (createdOnly createdAt) with
      | error invalid =>
          rw [Option.map_some, Option.bind_some, check]
          rfl
      | ok v =>
          obtain ⟨parts, accepts, -⟩ := validateMemoryEvent_eq_ok.mp check
          have kind : ([MEMORY_KIND, FALLBACK_MEMORY_KIND].contains (0 : Int)) = true := accepts.kind
          exact absurd kind (by decide)

theorem buildWithdrawal_eq_ok (uuid : isUuid room = true) {t : Template} :
    memoryTemplates host manifest .withdraw ("room:" ++ room) fields priorCreatedAt nowSec = .ok t ↔
      isSlug ((textField fields "slug").getD "") = true ∧
        withdrawalTemplate manifest room ((textField fields "slug").getD "")
          ((textField fields "because").getD "") (timeOf priorCreatedAt nowSec) = t ∧
        ∃ w, validateMemoryEvent host "" ALLOWED_KINDS false t.event = .ok w := by
  have key : ∀ d, formatFactKey ("room:" ++ room) ((textField fields "slug").getD "") = some d ↔
      isSlug ((textField fields "slug").getD "") = true ∧
        MEMORY_D_PREFIX ++ ("room:" ++ room) ++ ":" ++ (textField fields "slug").getD "" = d := by
    intro d
    rw [formatFactKey_eq_some]
    constructor
    · rintro ⟨scope, read, slugged, same⟩
      obtain rfl := Option.some.inj ((parseScope_room uuid).symm.trans read)
      exact ⟨slugged, same⟩
    · rintro ⟨slugged, same⟩
      exact ⟨roomScope room, parseScope_room uuid, slugged, same⟩
  have kind : (((priorCreatedAt.map createdOnly).map Event.kind).filter (· ≠ 0)).getD REMEMBER_KIND =
      REMEMBER_KIND := by
    cases priorCreatedAt <;> rfl
  have time : max nowSec ((priorCreatedAt.map createdOnly).elim 0 Event.createdAt + 1) =
      timeOf priorCreatedAt nowSec := by
    cases priorCreatedAt <;> rfl
  have author : lowerAscii ((nonEmpty (some manifest.pubkey)).getD
      (((priorCreatedAt.map createdOnly).map Event.pubkey).getD "")) = manifest.pubkey := by
    have filled : manifest.pubkey ≠ "" := by
      intro empty
      have hex := manifest.isHex64_pubkey
      rw [empty] at hex
      revert hex
      decide
    rw [nonEmpty, Option.filter_some, if_pos (by simpa using filled), Option.getD_some]
    exact lowerAscii_of_isHex64 manifest.isHex64_pubkey
  show buildWithdrawalTemplate host (withdrawalArgs manifest ("room:" ++ room) fields priorCreatedAt nowSec) =
    .ok t ↔ _
  unfold buildWithdrawalTemplate withdrawalArgs
  simp only [createdOnly_invalid, Option.elim_none, Option.getD_some, bind_eq_ok, require_eq_ok, mapError_eq_ok,
    kind, time, author]
  constructor
  · rintro ⟨_, read, d, written, _, routed, w, valid, built⟩
    obtain rfl := Option.some.inj ((parseScope_room uuid).symm.trans read)
    obtain ⟨slugged, rfl⟩ := (key d).mp written
    obtain rfl := Except.ok.inj routed
    obtain rfl := Except.ok.inj built
    exact ⟨slugged, rfl, w, valid⟩
  · rintro ⟨slugged, rfl, w, valid⟩
    exact ⟨roomScope room, parseScope_room uuid, _, (key _).mpr ⟨slugged, rfl⟩, [["h", room]], rfl, w, valid, rfl⟩

/-- **How large the signed event of a withdrawal is.** -/
theorem bytes_withdrawal {ev : Event} (signs : Signs host (withdrawalTemplate manifest room slug because createdAt) ev) :
    (utf8 (Json.stringify (eventJson ev))).length = withdrawnBytes room slug because createdAt := by
  have cells : ∀ tag ∈ (withdrawalTemplate manifest room slug because createdAt).tags, tag ≠ [] := by
    intro tag member
    simp only [withdrawalTemplate, List.mem_cons, List.not_mem_nil, or_false] at member
    rcases member with rfl | rfl | rfl | rfl <;> exact List.cons_ne_nil _ _
  have body : Json.escapedBytes (Json.stringify (withdrawnBody because [])) =
      72 + Json.twiceEscapedBytes (trim because) + 2 := bytes_withdrawnBody []
  rw [bytes_template signs manifest.isHex64_pubkey (show FALLBACK_MEMORY_KIND ∈ ALLOWED_KINDS by decide)
    (List.cons_ne_nil _ _) cells]
  simp only [withdrawalTemplate, tagsBytes, List.map_cons, List.map_nil, List.sum_cons, List.sum_nil, body,
    withdrawnBytes, taggedBytes]
  omega

/-- What a withdrawal that validates tells: it is in the room, withdrawn, and has no expiry. -/
theorem withdrawn_of_accepts {channel : String} {kinds : List Int} {parts : Parts} (uuid : isUuid room = true)
    (accepts : Accepts host channel kinds false (withdrawalTemplate manifest room slug because createdAt).event
      parts) : parts.parsedScope.type = .room ∧ parts.status = .withdrawn ∧ parts.expiresAt = none := by
  have tagged : (withdrawalTemplate manifest room slug because createdAt).event.tagValue "s" =
      some ("room:" ++ room) := rfl
  have own := Option.some.inj (tagged.symm.trans accepts.scope)
  have read := accepts.parsedScope
  rw [← own, parseScope_room uuid] at read
  have body : parts.body = withdrawnBody because [] :=
    Option.some.inj (accepts.content.symm.trans (Json.parse_stringify _))
  have status := accepts.status
  rw [body] at status
  have expiry : checkExpiry createdAt [] = .ok parts.expiresAt := accepts.expiry
  refine ⟨?_, (Option.some.inj status).symm, (Except.ok.inj expiry).symm⟩
  rw [← Option.some.inj read]

/-- **The event of a withdrawal**: built at every second that is a safe integer. -/
theorem builds_withdrawal (uuid : isUuid room = true) (reported : Reported priorCreatedAt)
    (first : ∃ t, memoryTemplates host manifest .withdraw ("room:" ++ room) fields none earlier = .ok t) :
    ∃ t, Builds host manifest .withdraw room fields priorCreatedAt nowSec t := by
  obtain ⟨_, first⟩ := first
  obtain ⟨slugged, rfl, w, valid⟩ := (buildWithdrawal_eq_ok uuid).mp first
  obtain ⟨parts, accepts, -⟩ := validateMemoryEvent_eq_ok.mp valid
  obtain ⟨type, withdrawn, lasting⟩ := withdrawn_of_accepts uuid accepts
  have passed := passed_of_accepts accepts
  have positive : 0 < timeOf priorCreatedAt nowSec :=
    (@createdAt_claimArgs manifest fields priorCreatedAt nowSec reported room).2
  have accepted : Timely host (timeOf priorCreatedAt nowSec) 0 → ∀ channel, ∃ parts,
      Accepts host channel ALLOWED_KINDS false (withdrawalTemplate manifest room
        ((textField fields "slug").getD "") ((textField fields "because").getD "")
        (timeOf priorCreatedAt nowSec)).event parts ∧ ∃ stored, memoryWritePolicy (parts.valid
          (withdrawalTemplate manifest room ((textField fields "slug").getD "")
            ((textField fields "because").getD "") (timeOf priorCreatedAt nowSec)).event) = .ok stored := by
    intro timely channel
    have retimed : Retimed (withdrawalTemplate manifest room ((textField fields "slug").getD "")
        ((textField fields "because").getD "") (timeOf none earlier)).event
        (withdrawalTemplate manifest room ((textField fields "slug").getD "")
          ((textField fields "because").getD "") (timeOf priorCreatedAt nowSec)).event :=
      ⟨rfl, rfl, rfl, fun _ _ => rfl, fun _ _ => rfl⟩
    refine ⟨{ parts with expiresAt := none }, accepts_retimed retimed accepts type
        ⟨(isSafeInteger_of_pos positive).mpr timely.safe, positive⟩ (Nat.zero_le _) rfl ?_ passed,
      memoryWritePolicy_eq_ok.mpr fun active => absurd (withdrawn.symm.trans active) (by decide)⟩
    rw [lasting]
  refine ⟨withdrawalTemplate manifest room ((textField fields "slug").getD "")
    ((textField fields "because").getD "") (timeOf priorCreatedAt nowSec), {
    pubkey := rfl
    key := (formatFactKey_room uuid slugged).symm
    slug := slugged
    built := fun t => ?_
    accepted
    bytes := fun ev signs => bytes_withdrawal signs }⟩
  rw [buildWithdrawal_eq_ok uuid]
  constructor
  · rintro ⟨-, rfl, w, valid⟩
    obtain ⟨read, reads, -⟩ := validateMemoryEvent_eq_ok.mp valid
    exact ⟨rfl, (isSafeInteger_of_pos positive).mp reads.createdAt.1, fun dated => absurd rfl dated⟩
  · rintro ⟨rfl, timely⟩
    obtain ⟨read, reads, -⟩ := accepted timely ""
    exact ⟨slugged, rfl, _, validateMemoryEvent_eq_ok.mpr ⟨read, reads, rfl⟩⟩

end Withdrawals

/-! ### Which requests the store takes -/

section Remembered

variable {host : Host} {manifest : RememberManifest} {op : Op} {args : Json} {now : Int} {spool : Spool}
  {queued : Queued} {room : String} {fields : Json} {priorCreatedAt : Option Int} {nowSec : Int} {t : Template}
  {sign : Template → Event} {disk : Disk} {store : HiveMemoryStore}

/-- **When the broker builds the event of a spooled request**, at any second and after any prior event. -/
theorem builds_queued (ok : queueMemory host manifest op args now spool = .ok queued)
    (reported : Reported priorCreatedAt) (uuid : isUuid room = true) (scope : queued.scope = "room:" ++ room) :
    ∃ t, Builds host manifest op room (fieldsOf args) priorCreatedAt nowSec t := by
  obtain ⟨_, -, -, -, first, -⟩ := queueMemory_eq_ok ok
  rw [scope] at first
  cases op with
  | claim => exact builds_claim uuid reported first
  | withdraw => exact builds_withdrawal uuid reported first

/-- A submit of the author at the key gets as far as the check of the event: the store is ready, the fences
are open, and the author may write there. -/
def ReachesEvent (disk : Disk) (store : HiveMemoryStore) (submitter pubkey : String) (d : Option String)
    (receivedAt : Int) : Prop :=
  ∃ config db writer, store.state = .ready ∧ store.config = some config ∧ disk.database = some db ∧
    purgeBackupIncomplete db.lastPurgeSeq disk.receipt = none ∧
    backupFence config db disk.receipt receivedAt = none ∧ config.writers.get submitter = some writer ∧
    pubkey = writer.pubkey ∧ ∃ parsed, d.bind parseFactKey = some parsed ∧
      writeRefusal config (some writer) writer.pubkey parsed = none

theorem reachesEvent_iff {req : SubmitRequest} :
    ReachesEvent disk store req.writer req.event.pubkey (req.event.tagValue "d") req.nowSec ↔
      ∃ config db writer, Admits config disk store req db writer := by
  constructor
  · rintro ⟨config, db, writer, ready, configured, database, backed, fresh, bound, own, authorized⟩
    exact ⟨config, db, writer, ready, configured, database, backed, fresh, bound, own, authorized⟩
  · rintro ⟨config, db, writer, admits⟩
    exact ⟨config, db, writer, admits.ready, admits.configured, admits.database, admits.backed, admits.fresh,
      admits.bound, admits.own, admits.authorized⟩

/-- The spooled request passes the checks of the broker and its guard, the broker builds an event from it, and
the store does not refuse that event for what it is. -/
def Remembered (host : Host) (manifest : RememberManifest) (queued : Queued) (priorCreatedAt : Option Int)
    (nowSec : Int) (sign : Template → Event) (disk : Disk) (store : HiveMemoryStore) (submitter : String)
    (expectedPriorId : Option String) (receivedAt : Int) (fault : Fault) : Prop :=
  ∃ row request t, Json.parse queued.file.toList = some row ∧ validateMemoryRequest manifest row = .ok request ∧
    memorySecretIn host request.fields = none ∧
    memoryTemplates host manifest request.op request.scope request.fields priorCreatedAt nowSec = .ok t ∧
    ¬ RefusedAs EVENT_REFUSALS (submit host disk store ⟨submitter, sign t, expectedPriorId, receivedAt⟩ fault).answer

/-- **When a request becomes an event the store takes**: its seconds can be written, and wherever the store
reads the event, its bytes are within the bound. -/
structure Deliverable (host : Host) (manifest : RememberManifest) (op : Op) (room : String) (fields : Json)
    (priorCreatedAt : Option Int) (nowSec : Int) (disk : Disk) (store : HiveMemoryStore) (submitter : String)
    (receivedAt : Int) : Prop where
  timely : Timely host (timeOf priorCreatedAt nowSec) (lifetimeOf manifest op room fields)
  small : ReachesEvent disk store submitter manifest.pubkey
      (formatFactKey ("room:" ++ room) ((textField fields "slug").getD "")) receivedAt →
    requestBytes manifest op room fields (timeOf priorCreatedAt nowSec) ≤ MAX_EVENT_BYTES

/-- A signed event of a request is accepted by the check of the store exactly where it is in its bound. -/
theorem checked_iff {config : Config} (builds : Builds host manifest op room fields priorCreatedAt nowSec t)
    (signs : Signs host t (sign t))
    (timely : Timely host (timeOf priorCreatedAt nowSec) (lifetimeOf manifest op room fields)) :
    (∃ v topic, checkEvent host (sign t) config = .ok v ∧ memoryWritePolicy v.toValid = .ok topic) ↔
      requestBytes manifest op room fields (timeOf priorCreatedAt nowSec) ≤ MAX_EVENT_BYTES := by
  obtain ⟨parts, reads, stored, meets⟩ := builds.accepted timely config.memoryGlobalChannelId
  rw [← builds.bytes _ signs]
  constructor
  · rintro ⟨v, topic, checked, -⟩
    exact (checkEvent_iff.mp checked).1
  · intro small
    have same : parts.valid (sign t) = parts.valid t.event := by
      rw [← signs.fields]
      rfl
    refine ⟨{ parts.valid (sign t) with ev := sign t }, stored, checkEvent_iff.mpr ⟨small, signs.verified,
      validateMemoryEvent_eq_ok.mpr ⟨parts, accepts_unsigned ?_, rfl⟩, rfl⟩, ?_⟩
    · rw [signs.fields]
      exact reads
    · exact same ▸ meets

theorem room_inj {room' : String} (uuid : isUuid room = true) (uuid' : isUuid room' = true)
    (same : "room:" ++ room = "room:" ++ room') : room = room' := by
  have read := parseScope_room uuid
  rw [same, parseScope_room uuid'] at read
  exact (Option.some.inj (congrArg Scope.roomId (Option.some.inj read))).symm

/-- What `remembered_iff` says of the room that the request names. -/
theorem remembered_iff_of_room {submitter : String} {expectedPriorId : Option String} {receivedAt : Int}
    {fault : Fault} (ok : queueMemory host manifest op args now spool = .ok queued)
    (finite : isFiniteNumber (some (.num now 0)) = true) (reported : Reported priorCreatedAt)
    (signs : ∀ t, t.pubkey = manifest.pubkey → Signs host t (sign t)) (uuid : isUuid room = true)
    (scope : queued.scope = "room:" ++ room) :
    Remembered host manifest queued priorCreatedAt nowSec sign disk store submitter expectedPriorId receivedAt
        fault ↔
      Deliverable host manifest op room (fieldsOf args) priorCreatedAt nowSec disk store submitter
        receivedAt := by
  obtain ⟨room', row, uuid', scope', parsed, validated⟩ := validate_queued ok finite
  obtain rfl := room_inj uuid uuid' (scope.symm.trans scope')
  obtain ⟨-, -, -, clean, -, -⟩ := queueMemory_eq_ok ok
  obtain ⟨t, builds⟩ := @builds_queued host manifest op args now spool queued room priorCreatedAt nowSec ok
    reported uuid scope
  have signed : Signs host t (sign t) := signs t builds.pubkey
  obtain ⟨pubkey, -, -, tags, -⟩ := signed.eq
  have keyed := @parseFactKey_keyOf ((textField (fieldsOf args) "slug").getD "") (roomScope room) (.room uuid)
    builds.slug
  have tagged : (sign t).tagValue "d" = formatFactKey ("room:" ++ room)
      ((textField (fieldsOf args) "slug").getD "") := by
    rw [← builds.key, Event.tagValue, Event.tag, tags]
    rfl
  have read : ((sign t).tagValue "d").bind parseFactKey =
      some (keyOf (roomScope room) ((textField (fieldsOf args) "slug").getD "")) := by
    rw [tagged, formatFactKey_room uuid builds.slug]
    exact keyed
  let req : SubmitRequest := ⟨submitter, sign t, expectedPriorId, receivedAt⟩
  have reaches : ReachesEvent disk store submitter manifest.pubkey
      (formatFactKey ("room:" ++ room) ((textField (fieldsOf args) "slug").getD "")) receivedAt ↔
        ∃ config db writer, Admits config disk store req db writer := by
    rw [← tagged, ← builds.pubkey, ← pubkey]
    exact @reachesEvent_iff disk store req
  constructor
  · rintro ⟨row', request, t', parsed', validated', -, built, taken⟩
    obtain rfl := Option.some.inj (parsed.symm.trans parsed')
    obtain rfl := Except.ok.inj (validated.symm.trans validated')
    dsimp only at built
    rw [scope] at built
    obtain ⟨rfl, timely⟩ := (builds.built t').mp built
    refine ⟨timely, fun reached => ?_⟩
    obtain ⟨config, db, writer, admits⟩ := reaches.mp reached
    by_contra large
    refine taken ((@refusedAs_event_iff host disk store req fault _ read).mpr
      ⟨config, db, writer, admits, fun checked => ?_⟩)
    exact large ((checked_iff builds signed timely).mp checked)
  · rintro ⟨timely, small⟩
    refine ⟨row, _, t, parsed, validated, clean, ?_, fun refused => ?_⟩
    · dsimp only
      rw [scope]
      exact (builds.built t).mpr ⟨rfl, timely⟩
    · obtain ⟨config, db, writer, admits, fails⟩ := (@refusedAs_event_iff host disk store req fault _ read).mp refused
      exact fails ((checked_iff builds signed timely).mpr (small (reaches.mpr ⟨config, db, writer, admits⟩)))

/-- **Which requests become events that the store takes.** A request that the tool has queued passes the checks
of the broker; whatever the store holds and whichever prior event it reports, the broker builds an event from
it that the store does not refuse exactly where it is `Deliverable`. -/
theorem remembered_iff (host : Host) {manifest : RememberManifest} {op : Op} {args : Json} {now : Int}
    {spool : Spool} {queued : Queued} {priorCreatedAt : Option Int} (nowSec : Int) {sign : Template → Event}
    (disk : Disk) (store : HiveMemoryStore) (submitter : String) (expectedPriorId : Option String)
    (receivedAt : Int) (fault : Fault)
    (ok : queueMemory host manifest op args now spool = .ok queued)
    (finite : isFiniteNumber (some (.num now 0)) = true) (reported : Reported priorCreatedAt)
    (signs : ∀ t, t.pubkey = manifest.pubkey → Signs host t (sign t)) :
    ∃ room, isUuid room = true ∧ queued.scope = "room:" ++ room ∧
      (Remembered host manifest queued priorCreatedAt nowSec sign disk store submitter expectedPriorId receivedAt
          fault ↔
        Deliverable host manifest op room (fieldsOf args) priorCreatedAt nowSec disk store submitter
          receivedAt) := by
  obtain ⟨room, row, uuid, scope, -, -⟩ := validate_queued ok finite
  exact ⟨room, uuid, scope, remembered_iff_of_room ok finite reported signs uuid scope⟩

end Remembered

/-! ### A request of an agent -/

def agentManifest : RememberManifest where
  id := "worker"
  pubkey := sampleKey 'a'
  mayRemember := some ⟨[sampleUuid], 10, by decide, by decide, by decide, by decide, by decide⟩
  isHex64_pubkey := sampleWriter.isHex64_pubkey

def claimOfAgent (evidence : List String) : Json :=
  .obj [("slug", .str "deploy"), ("claim", .str "deploys run at noon"), ("because", .str "asked"),
    ("evidence", .arr (evidence.map .str)), ("as_of_git", .str "nvoy@c0ffee")]

def agentSpool : Spool where
  provisioned := true
  recent := .ok 0
  id := String.ofList (List.replicate 32 'a')
  isHex32_id := by decide
  written := .ok ()
  logged := .ok ()

/-- Control characters take six bytes in a request and seven in the content of an event. -/
def bulkyText : String := String.ofList (List.replicate 300 (Char.ofNat 27))
def bulky : List String := List.replicate 32 bulkyText

theorem toList_bulkyText : bulkyText.toList = List.replicate 300 (Char.ofNat 27) := String.toList_ofList

theorem utf16Length_bulkyText : utf16Length bulkyText = 300 := by
  rw [utf16Length, toList_bulkyText, List.map_replicate, List.sum_replicate_nat]
  rfl

theorem escapedBytes_bulkyText : Json.escapedBytes bulkyText = 1800 := by
  rw [Json.escapedBytes, toList_bulkyText, List.map_replicate, List.sum_replicate_nat]
  rfl

theorem twiceEscapedBytes_bulkyText : Json.twiceEscapedBytes bulkyText = 2100 := by
  rw [Json.twiceEscapedBytes, toList_bulkyText, List.map_replicate, List.sum_replicate_nat]
  rfl

theorem trim_bulkyText : trim bulkyText = bulkyText := by
  rw [trim_eq, toList_bulkyText, List.dropWhile_replicate, if_neg (by decide), List.rdropWhile_eq_self_iff.mpr]
  · rfl
  · intro filled
    rw [List.eq_of_mem_replicate (List.getLast_mem filled)]
    decide

theorem fieldsOf_claimOfAgent (evidence : List String) : fieldsOf (claimOfAgent evidence) = claimOfAgent evidence := rfl

theorem fieldError_claimOfAgent {evidence : List String} (some : 1 ≤ evidence.length) (few : evidence.length ≤ 32)
    (fits : ∀ text ∈ evidence, 1 ≤ utf16Length text ∧ utf16Length text ≤ 300) :
    fieldError .claim (claimOfAgent evidence) = none := by
  have each : (evidence.map Json.str).all (fitsString { minLength := 1, maxLength := Option.some 300 }) = true := by
    rw [List.all_map, List.all_eq_true]
    intro text member
    show (decide (1 ≤ utf16Length text) && decide (utf16Length text ≤ 300) && true) = true
    rw [decide_eq_true (fits text member).1, decide_eq_true (fits text member).2]
    rfl
  have listed : badField .claim (claimOfAgent evidence) "evidence" = none := by
    show (if (decide (1 ≤ (evidence.map Json.str).length) && decide ((evidence.map Json.str).length ≤ 32) &&
      (evidence.map Json.str).all (fitsString { minLength := 1, maxLength := Option.some 300 })) = true then none
      else Option.some ("evidence" ++ " does not fit its schema")) = none
    rw [List.length_map, decide_eq_true some, decide_eq_true few, each]
    rfl
  have keys : (claimOfAgent evidence).keys = ["slug", "claim", "because", "evidence", "as_of_git"] := rfl
  have slug : badField .claim (claimOfAgent evidence) "slug" = none :=
    show badField .claim (claimOfAgent []) "slug" = none by decide
  have claim : badField .claim (claimOfAgent evidence) "claim" = none :=
    show badField .claim (claimOfAgent []) "claim" = none by decide
  have because : badField .claim (claimOfAgent evidence) "because" = none :=
    show badField .claim (claimOfAgent []) "because" = none by decide
  have git : badField .claim (claimOfAgent evidence) "as_of_git" = none :=
    show badField .claim (claimOfAgent []) "as_of_git" = none by decide
  unfold fieldError
  rw [keys]
  simp only [List.findSome?_cons, List.findSome?_nil, slug, claim, because, listed, git]
  rfl

/-- The event of a claim of the agent, in the second 1000. -/
def agentEvent (evidence : List String) : Event where
  id := ""
  pubkey := sampleKey 'a'
  createdAt := 1000
  kind := FALLBACK_MEMORY_KIND
  tags := [["d", "hive-memory:room:" ++ sampleUuid ++ ":deploy"], ["h", sampleUuid], ["s", "room:" ++ sampleUuid],
    ["topic", "deploy"], ["as_of_git", "nvoy@c0ffee"], ["exp", "1210600"]]
  content := Json.stringify (.obj [("claim", .str "deploys run at noon"), ("because", .str "asked"),
    ("evidence", .arr (evidence.map .str)), ("status", .str "active")])
  sig := ""

def agentParts (evidence : List String) : Parts where
  d := "hive-memory:room:" ++ sampleUuid ++ ":deploy"
  parsedD := keyOf (roomScope sampleUuid) "deploy"
  parsedScope := roomScope sampleUuid
  body := .obj [("claim", .str "deploys run at noon"), ("because", .str "asked"),
    ("evidence", .arr (evidence.map .str)), ("status", .str "active")]
  status := .active
  expiresAt := some 1210600

theorem filterMap_trimmed {texts : List String} (trimmed : ∀ text ∈ texts, trim text = text ∧ text ≠ "") :
    (((texts.map Json.str).filterMap Json.string).map trim).filter (· ≠ "") = texts := by
  have same : (texts.map Json.str).filterMap Json.string = texts := by
    rw [List.filterMap_map]
    exact List.filterMap_some
  rw [same, List.map_congr_left fun text member => (trimmed text member).1, List.map_id', List.filter_eq_self]
  exact fun text member => by simpa using (trimmed text member).2

theorem accepts_agent {evidence : List String} (some : evidence ≠ []) (trimmed : ∀ text ∈ evidence, trim text = text ∧ text ≠ "") :
    Accepts Host.sample "" ALLOWED_KINDS false (agentEvent evidence) (agentParts evidence) := by
  have uuid : isUuid sampleUuid = true := by decide
  have read : (agentParts evidence).evidence = evidence := filterMap_trimmed trimmed
  exact {
    kind := show ALLOWED_KINDS.contains FALLBACK_MEMORY_KIND = true by decide
    pubkey := show isHex64 (lowerAscii (sampleKey 'a')) = true by decide
    createdAt := show isSafeInteger 1000 = true ∧ (0:Int) < 1000 by decide
    tagged := show ((agentEvent []).tagValue "d").filter (fun d => (afterPrefix MEMORY_D_PREFIX d).isSome) =
      Option.some ("hive-memory:room:" ++ sampleUuid ++ ":deploy") by decide
    parsed := show parseFactKey ("hive-memory:room:" ++ sampleUuid ++ ":deploy") = Option.some (keyOf (roomScope sampleUuid) "deploy") by decide
    scope := rfl
    parsedScope := parseScope_room uuid
    route := show checkRoute "" (lowerAscii (sampleKey 'a')) (roomScope sampleUuid) ((agentEvent []).tagValue "h") = .ok () by decide
    content := Json.parse_stringify _
    object := rfl
    status := rfl
    because := show trim "asked" ≠ "" by decide
    claim := fun _ => show trim "deploys run at noon" ≠ "" by decide
    evidence := fun _ => read.symm ▸ some
    anchor := fun _ => .inl rfl
    asOfEvt := rfl
    expTags := Nat.le_refl 1
    retentionTags := Nat.zero_le 1
    expiry := show checkExpiry 1000 ((agentEvent []).tagValues "exp") = .ok (Option.some 1210600) by decide
    retention := rfl
    exclusive := rfl
    lasting := rfl
    clean := List.findSome?_eq_none_iff.mpr fun _ _ => rfl
    signed := nofun }

/-- What a claim of the agent is built from. -/
def agentArgs (evidence : List String) : ClaimArgs :=
  claimArgs agentManifest ("room:" ++ sampleUuid) (claimOfAgent evidence) none 1000

theorem drafts_agent (evidence : List String) :
    Drafts (agentArgs evidence) (roomScope sampleUuid) "deploy" [["h", sampleUuid]] where
  scope := parseScope_room (show isUuid sampleUuid = true by decide)
  slug := show isSlug "deploy" = true by decide
  ttl := show 0 ≤ (agentArgs []).askedTtl (roomScope sampleUuid) ∧
    (agentArgs []).askedTtl (roomScope sampleUuid) ≤ MAX_TTL_SEC by decide
  expires := show ¬ ((agentArgs []).workflow (roomScope sampleUuid) = true ∧
    (agentArgs []).askedTtl (roomScope sampleUuid) = 0) by decide
  topic := show normalizeMemoryTopic "deploy" = some "deploy" by decide
  route := rfl

theorem claimTemplate_agent {evidence : List String} (trimmed : ∀ text ∈ evidence, trim text = text ∧ text ≠ "") :
    (claimTemplate (agentArgs evidence) (roomScope sampleUuid) "deploy" [["h", sampleUuid]]).event =
      agentEvent evidence := by
  have listed : ((agentArgs evidence).evidence.map trim).filter (· ≠ "") = evidence := filterMap_trimmed trimmed
  have said : trim (agentArgs evidence).claim = "deploys run at noon" ∧ trim (agentArgs evidence).because = "asked" :=
    show trim "deploys run at noon" = "deploys run at noon" ∧ trim "asked" = "asked" by decide
  have tags : (claimTemplate (agentArgs []) (roomScope sampleUuid) "deploy" [["h", sampleUuid]]).tags =
      (agentEvent []).tags := by decide
  have pubkey : lowerAscii (agentArgs []).pubkey = (agentEvent []).pubkey := by decide
  show Event.mk "" (lowerAscii (agentArgs []).pubkey) 1000 FALLBACK_MEMORY_KIND
    (claimTemplate (agentArgs []) (roomScope sampleUuid) "deploy" [["h", sampleUuid]]).tags
    (Json.stringify (claimBody (agentArgs evidence))) "" = _
  rw [tags, pubkey, claimBody, listed, said.1, said.2]
  rfl

theorem memoryTemplates_agent {evidence : List String} (some : evidence ≠ []) (trimmed : ∀ text ∈ evidence, trim text = text ∧ text ≠ "") :
    ∃ t, memoryTemplates Host.sample agentManifest .claim ("room:" ++ sampleUuid) (claimOfAgent evidence) none 1000 = .ok t := by
  refine ⟨_, buildClaimTemplate_eq_ok.mpr ⟨roomScope sampleUuid, "deploy", [["h", sampleUuid]],
    drafts_agent evidence, rfl, (agentParts evidence).valid (agentEvent evidence), ?_, ?_⟩⟩
  · rw [show claimArgs agentManifest ("room:" ++ sampleUuid) (claimOfAgent evidence) none 1000 =
      agentArgs evidence from rfl, claimTemplate_agent trimmed]
    exact validateMemoryEvent_eq_ok.mpr ⟨_, accepts_agent some trimmed, rfl⟩
  · refine memoryWritePolicy_eq_ok.mpr fun _ => ⟨?_, fun workflow _ => absurd workflow ?_⟩
    · show (normalizeMemoryTopic "deploy").isSome = true
      decide
    · show ¬ isWorkflowSlug "deploy" = true
      decide

/-- The bytes of a request of the agent. -/
theorem bytes_agentRequest {evidence : List String} (filled : evidence ≠ []) :
    (utf8 (Json.stringify (requestJson agentManifest agentSpool.id .claim ("room:" ++ sampleUuid)
      (claimOfAgent evidence) 1000000))).length =
        299 + (evidence.map fun text => Json.escapedBytes text + 3).sum := by
  have text : ∀ text, Json.bytes (Json.render (.str text)) = Json.escapedBytes text + 2 := by
    intro text
    rw [Json.render, Json.bytes_renderString]
  have listed : Json.bytes (Json.render (.arr (evidence.map .str))) =
      (evidence.map fun text => Json.escapedBytes text + 3).sum + 1 := by
    rw [Json.bytes_render_arr (by simpa using filled), List.map_map]
    congr 2
    refine List.map_congr_left fun item _ => ?_
    rw [Function.comp_apply, text]
  have others : Json.escapedBytes "slug" + Json.escapedBytes "deploy" + Json.escapedBytes "claim" +
      Json.escapedBytes "deploys run at noon" + Json.escapedBytes "because" + Json.escapedBytes "asked" +
      Json.escapedBytes "evidence" + Json.escapedBytes "as_of_git" + Json.escapedBytes "nvoy@c0ffee" +
      Json.escapedBytes "version" + Json.bytes (Json.render (.num 1 0)) + Json.escapedBytes "type" +
      Json.escapedBytes "memory-request" + Json.escapedBytes "id" + Json.escapedBytes agentSpool.id +
      Json.escapedBytes "instance" + Json.escapedBytes agentManifest.id + Json.escapedBytes "op" +
      Json.escapedBytes "claim" + Json.escapedBytes "scope" + Json.escapedBytes ("room:" ++ sampleUuid) +
      Json.escapedBytes "fields" + Json.escapedBytes "requested_at" +
      Json.bytes (Json.render (.num 1000000 0)) = 226 := by decide
  rw [Json.length_utf8, Json.stringify, String.toList_ofList, requestJson,
    Json.bytes_render_obj (List.cons_ne_nil _ _)]
  simp only [List.map_cons, List.map_nil, List.sum_cons, List.sum_nil, text, listed, claimOfAgent, Op.text,
    Json.bytes_render_obj (List.cons_ne_nil _ _)]
  omega

theorem queueMemory_agent {evidence : List String} (filled : evidence ≠ []) (few : evidence.length ≤ 32)
    (trimmed : ∀ text ∈ evidence, trim text = text ∧ text ≠ "")
    (fits : ∀ text ∈ evidence, 1 ≤ utf16Length text ∧ utf16Length text ≤ 300)
    (small : (evidence.map fun text => Json.escapedBytes text + 3).sum ≤ 60000) : ∃ queued,
      queueMemory Host.sample agentManifest .claim (claimOfAgent evidence) 1000000 agentSpool = .ok queued ∧
        queued.scope = "room:" ++ sampleUuid := by
  have resolved : resolveMemoryScope agentManifest (given (claimOfAgent evidence) "scope")
      (given (claimOfAgent evidence) "room") = .ok ("room:" ++ sampleUuid, sampleUuid) :=
    show resolveMemoryScope agentManifest (some (.str ("room:" ++ sampleUuid))) none = _ from
      resolve_again (by decide) rfl List.mem_cons_self
  have clean : memorySecretIn Host.sample (claimOfAgent evidence) = none :=
    List.findSome?_eq_none_iff.mpr fun _ _ => rfl
  have fitting : fieldError .claim (fieldsOf (claimOfAgent evidence)) = none := by
    rw [fieldsOf_claimOfAgent]
    exact fieldError_claimOfAgent (List.length_pos_iff.mpr filled) few fits
  obtain ⟨t, built⟩ := memoryTemplates_agent filled trimmed
  have bound : (utf8 (Json.stringify (requestJson agentManifest agentSpool.id .claim ("room:" ++ sampleUuid)
      (claimOfAgent evidence) 1000000))).length ≤ MAX_MEMORY_REQUEST_BYTES := by
    rw [bytes_agentRequest filled, MAX_MEMORY_REQUEST_BYTES]
    omega
  refine ⟨⟨agentSpool.id, .claim, "room:" ++ sampleUuid, formatFactKey ("room:" ++ sampleUuid) "deploy",
    Json.stringify (requestJson agentManifest agentSpool.id .claim ("room:" ++ sampleUuid)
      (claimOfAgent evidence) 1000000)⟩, ?_, rfl⟩
  unfold queueMemory
  simp only [bind_eq_ok, objection_eq_ok, ensure_eq_ok, mapError_eq_ok, exists_const, decide_eq_true_eq]
  exact ⟨_, resolved, fitting, clean, t, built, rfl, 0, rfl, by decide, bound, (), rfl, (), rfl, rfl⟩

/-- The deployment of the samples, with a room the owner writes in. -/
def roomConfig : Config :=
  { sampleConfig with
    rooms := ⟨[(sampleUuid, ⟨⟨[sampleKey 'a'], by decide⟩, ⟨[sampleKey 'a'], by decide⟩, fun _ member => member⟩)],
      by simp⟩ }

/-- A store that was created, started and backed up. -/
def roomWorld : World :=
  step Host.sample roomConfig [] (run Host.sample roomConfig [] World.empty
    [.migrateStoreJson [] sampleStoreId 1000 .none, .start .none])
    (.recordVerifiedBackup (sampleReceipt 1 Nat.one_pos))

/-- The store is open for the event of the agent. -/
structure RoomOpen (store : HiveMemoryStore) (db : Database) : Prop where
  serving : Serving roomConfig roomWorld store db
  empty : db.events.rows = []
  reaches : ReachesEvent roomWorld.disk store "owner" agentManifest.pubkey
    (formatFactKey ("room:" ++ sampleUuid) "deploy") 1000

theorem roomOpen : ∃ store db, RoomOpen store db := by
  obtain ⟨store, created, made, serving, -⟩ := @serving_of_migration Host.sample roomConfig [] [] [] sampleStoreId
    1000 rfl nofun
  obtain ⟨-, seq, purge, rate, rows⟩ := genesisDatabase_rows made
  obtain ⟨backed, receipt⟩ := @Serving.backup Host.sample roomConfig [] _ store _ serving
    (sampleReceipt 1 (by decide))
  refine ⟨store, _, backed, rows, roomConfig, _, sampleWriter, backed.ready, backed.config, backed.database,
    ?_, ?_, rfl, rfl, keyOf (roomScope sampleUuid) "deploy", ?_, by decide⟩
  · show purgeBackupIncomplete created.lastPurgeSeq _ = none
    rw [purge]
    rfl
  · show backupFence roomConfig _ roomWorld.disk.receipt 1000 = none
    rw [show roomWorld.disk.receipt = _ from receipt, backupFence_eq_none]
    refine ⟨?_, by decide, by decide⟩
    show 1 ≤ created.writeSeq + 1
    omega
  · rw [formatFactKey_room (by decide) (by decide)]
    exact @parseFactKey_keyOf "deploy" (roomScope sampleUuid) (.room (by decide)) (by decide)

theorem isFiniteNumber_sample : isFiniteNumber (some (.num 1000000 0)) = true := by
  have small : |((1000000 : Int) : ℚ)| < 2 ^ 1024 - 2 ^ 970 := by
    have first : (1000000 : ℚ) < 2 ^ 20 := by norm_num
    have second : (2 : ℚ) ^ 20 ≤ 2 ^ 970 := pow_le_pow_right₀ one_le_two (by decide)
    have third : (2 : ℚ) ^ 971 ≤ 2 ^ 1024 := pow_le_pow_right₀ one_le_two (by decide)
    rw [pow_succ] at third
    rw [show ((1000000 : Int) : ℚ) = 1000000 by norm_num, abs_of_pos (by norm_num)]
    generalize (2 : ℚ) ^ 970 = low at *
    generalize (2 : ℚ) ^ 1024 = high at *
    linarith
  rw [isFiniteNumber, Broker.toNumber_int, if_pos small]
  rfl

/-- A request of a short claim becomes an event that the store takes. -/
theorem remembered_sample : ∃ store db queued, RoomOpen store db ∧
    queueMemory Host.sample agentManifest .claim (claimOfAgent ["notes"]) 1000000 agentSpool = .ok queued ∧
    Remembered Host.sample agentManifest queued none 1000 sampleSign roomWorld.disk store "owner" none 1000
      .none := by
  obtain ⟨store, db, opened⟩ := roomOpen
  obtain ⟨queued, ok, scope⟩ := queueMemory_agent (List.cons_ne_nil "notes" []) (by decide)
    (by decide +kernel) (by decide +kernel) (by decide +kernel)
  refine ⟨store, db, queued, opened, ok, ?_⟩
  obtain ⟨room, uuid, named, exactly_⟩ := @remembered_iff Host.sample agentManifest .claim (claimOfAgent ["notes"])
    1000000 agentSpool queued none 1000 sampleSign roomWorld.disk store "owner" none 1000 .none ok
    isFiniteNumber_sample nofun fun t _ => signs_sampleSign t
  obtain rfl := room_inj (by decide) uuid (scope.symm.trans named)
  refine exactly_.mpr ⟨⟨by decide, fun _ => ⟨by decide +kernel, rfl⟩⟩, fun _ => ?_⟩
  decide +kernel

/-- **A request inside its bound whose event is outside it**: thirty-two texts of control characters. -/
theorem bulky_refused : ∃ store db queued, RoomOpen store db ∧
    queueMemory Host.sample agentManifest .claim (claimOfAgent bulky) 1000000 agentSpool = .ok queued ∧
    ¬ Remembered Host.sample agentManifest queued none 1000 sampleSign roomWorld.disk store "owner" none 1000
      .none := by
  obtain ⟨store, db, opened⟩ := roomOpen
  have each : ∀ text ∈ bulky, text = bulkyText := fun text member => List.eq_of_mem_replicate member
  have trimmed : ∀ text ∈ bulky, trim text = text ∧ text ≠ "" := by
    intro text member
    rw [each text member]
    exact ⟨trim_bulkyText, by decide +kernel⟩
  obtain ⟨queued, ok, scope⟩ := queueMemory_agent (show bulky ≠ [] by exact List.cons_ne_nil _ _)
    (show bulky.length ≤ 32 by rw [bulky, List.length_replicate]) trimmed
    (fun text member => by rw [each text member, utf16Length_bulkyText]; decide)
    (by rw [bulky, List.map_replicate, List.sum_replicate_nat, escapedBytes_bulkyText]; decide)
  refine ⟨store, db, queued, opened, ok, fun remembered => ?_⟩
  have reported : Reported none := nofun
  have deliverable := (remembered_iff_of_room ok isFiniteNumber_sample reported (fun t _ => signs_sampleSign t)
    (show isUuid sampleUuid = true by decide) scope).mp remembered
  have small := deliverable.small opened.reaches
  rw [fieldsOf_claimOfAgent, show timeOf none 1000 = 1000 by decide] at small
  have listed : (((textsField (claimOfAgent bulky) "evidence").map trim).filter (· ≠ "")).map
      (fun text => Json.twiceEscapedBytes text + 5) = List.replicate 32 2105 := by
    show ((((bulky.map Json.str).filterMap Json.string).map trim).filter (· ≠ "")).map
      (fun text => Json.twiceEscapedBytes text + 5) = List.replicate 32 2105
    rw [filterMap_trimmed trimmed, bulky, List.map_replicate, twiceEscapedBytes_bulkyText]
  have content := @evidenceBytes_le (claimArgs agentManifest ("room:" ++ sampleUuid) (claimOfAgent bulky) none 0)
    sampleUuid 1000 (lifetimeOf agentManifest .claim sampleUuid (claimOfAgent bulky))
  rw [show (claimArgs agentManifest ("room:" ++ sampleUuid) (claimOfAgent bulky) none 0).evidence =
    textsField (claimOfAgent bulky) "evidence" from rfl, listed, List.sum_replicate_nat] at content
  have bound : MAX_EVENT_BYTES < 32 * 2105 := by decide
  exact absurd (bound.trans_le (content.trans small)) (lt_irrefl _)

end Nvoy.Store
