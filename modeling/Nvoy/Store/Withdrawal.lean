/-
**Withdrawing a stored claim**: `buildWithdrawalTemplate` of `memory.mjs` against the checks of a submit.

* `replacementOf` — the withdrawal of a claim that validates, written out;
* `build_eq_ok` — the builder gives that withdrawal, where the withdrawal itself validates;
* `accepts_replacement`, `of_validates` — and it does where its time is a safe integer and the guard passes
  what it adds;
* `bytes_signed` — how large the signed withdrawal is, from the texts of the claim;
* `submit_not_refused` — a withdrawal that passes its check is the newer version of an active claim;
* `withdraws_iff` — which stored claims can be withdrawn, over every run and every configuration;
* `lastSecond_stays` — a claim of the last second that a safe integer tells has none after it.
-/

import Nvoy.Lib.Sizes
import Nvoy.Memory.Builders
import Nvoy.Store.Conflict
import Nvoy.Store.FactKeys

namespace Nvoy.Store

open Memory

/-! ### The withdrawal of a claim -/

section Replacement

variable {host : Host} {channel because : String} {kinds : List Int} {prior : Event} {parts : Parts}
  {nowSec : Int}

/-- The channel or room a claim of the scope is routed to. -/
def routeIds (channel : String) (scope : Scope) : List String :=
  match scope.type with
  | .room => scope.roomId.toList
  | .hiveOps | .hiveCanon => [lowerAscii channel]
  | .self => []

/-- The withdrawal of a claim. -/
def replacementOf (channel : String) (prior : Event) (parts : Parts) (because : String) (nowSec : Int) :
    Template where
  kind := prior.kind
  pubkey := lowerAscii prior.pubkey
  createdAt := max nowSec (prior.createdAt + 1)
  tags := ["d", parts.d] :: (routeIds channel parts.parsedScope).map (["h", ·]) ++
    [["s", parts.parsedScope.scope], ["topic", (parts.valid prior).topic]]
  content := Json.stringify (withdrawnBody because parts.evidence)

/-- The parts of an accepted claim fit together. -/
theorem keyed_of_accepts (accepts : Accepts host channel kinds false prior parts) :
    Normal parts.parsedScope ∧ isSlug parts.parsedD.slug = true ∧
      parts.parsedD = keyOf parts.parsedScope parts.parsedD.slug ∧ parts.parsedD.d = parts.d := by
  obtain ⟨scope, normal, slug, same, d⟩ := eq_keyOf_of_parse accepts.parsed
  have own : parts.parsedD.scope = scope.scope := congrArg FactKey.scope same
  have read := accepts.parsedScope
  rw [own, parseScope_scope normal] at read
  obtain rfl := Option.some.inj read
  exact ⟨normal, slug, same, d⟩

/-- A value of a tag stands in the tags. -/
theorem mem_of_tagValue {ev : Event} {name value : String} (read : ev.tagValue name = some value) :
    name ∈ ev.tags.flatten ∧ value ∈ ev.tags.flatten := by
  obtain ⟨tag, found, second⟩ := Option.bind_eq_some_iff.mp read
  have named : tag[0]? = some name := by simpa using List.find?_some found
  have member := List.mem_of_find?_eq_some found
  exact ⟨List.mem_flatten.mpr ⟨tag, member, List.mem_of_getElem? named⟩,
    List.mem_flatten.mpr ⟨tag, member, List.mem_of_getElem? second⟩⟩

theorem isUuid_empty : isUuid "" = false := by decide

/-- A routed claim carries the id it is routed to. -/
theorem routed_of_accepts (accepts : Accepts host channel kinds false prior parts) {id : String}
    (member : id ∈ routeIds channel parts.parsedScope) :
    isUuid id = true ∧ ∃ h, prior.tagValue "h" = some h ∧ lowerAscii h = id := by
  have route := accepts.route
  have normal := (keyed_of_accepts accepts).1
  have carried : isUuid id = true → lowerAscii ((prior.tagValue "h").getD "") = id →
      isUuid id = true ∧ ∃ h, prior.tagValue "h" = some h ∧ lowerAscii h = id := by
    intro uuid low
    refine ⟨uuid, ?_⟩
    cases tagged : prior.tagValue "h" with
    | some h => exact ⟨h, rfl, by rw [tagged] at low; exact low⟩
    | none =>
        rw [tagged] at low
        have empty : lowerAscii "" = "" := rfl
        rw [Option.getD_none, empty] at low
        rw [← low, isUuid_empty] at uuid
        nomatch uuid
  generalize parts.parsedScope = scope at *
  cases normal with
  | hiveOps =>
      simp only [checkRoute, bind_eq_ok, ensure_eq_ok, exists_const, decide_eq_true_eq] at route
      obtain rfl := List.mem_singleton.mp member
      exact carried route.1 route.2
  | hiveCanon =>
      simp only [checkRoute, bind_eq_ok, ensure_eq_ok, exists_const, decide_eq_true_eq] at route
      obtain rfl := List.mem_singleton.mp member
      exact carried route.1 route.2
  | room uuid =>
      simp only [checkRoute, ensure_eq_ok, decide_eq_true_eq, Option.some_inj] at route
      obtain rfl := List.mem_singleton.mp member
      exact carried uuid route
  | self hex => exact absurd member List.not_mem_nil

theorem routeTags_eq (accepts : Accepts host channel kinds false prior parts) (verb : String) :
    routeTags parts.parsedScope channel verb =
      .ok ((routeIds channel parts.parsedScope).map (["h", ·])) := by
  have uuids := fun id member => (@routed_of_accepts host channel kinds prior parts accepts id member).1
  have normal := (keyed_of_accepts accepts).1
  generalize parts.parsedScope = scope at *
  cases normal with
  | hiveOps => exact if_pos (uuids _ (List.mem_singleton.mpr rfl))
  | hiveCanon => exact if_pos (uuids _ (List.mem_singleton.mpr rfl))
  | room uuid => rfl
  | self hex => rfl

theorem kind_ne_zero (accepts : Accepts host channel ALLOWED_KINDS false prior parts) : prior.kind ≠ 0 := by
  intro zero
  have kind := accepts.kind
  rw [zero] at kind
  revert kind
  decide

/-- **What the builder answers**: the withdrawal of the claim, where that validates. -/
theorem build_eq_ok (accepts : Accepts host channel ALLOWED_KINDS false prior parts) {pubkey : String}
    (own : pubkey = "" ∨ pubkey = prior.pubkey) {kind : Int} {t : Template} :
    buildWithdrawalTemplate host
        { pubkey, priorEvent := some prior, because, memoryGlobalChannelId := channel, kind, nowSec } = .ok t ↔
      replacementOf channel prior parts because nowSec = t ∧ ∃ w,
        validateMemoryEvent host channel ALLOWED_KINDS false
          (replacementOf channel prior parts because nowSec).event = .ok w := by
  have check : validateMemoryEvent host channel [MEMORY_KIND, FALLBACK_MEMORY_KIND] false prior =
      .ok (parts.valid prior) := validateMemoryEvent_eq_ok.mpr ⟨parts, accepts, rfl⟩
  obtain ⟨normal, slug, key, d⟩ := keyed_of_accepts accepts
  have scope : parseScope parts.parsedScope.scope = some parts.parsedScope := parseScope_scope normal
  have formatted : formatFactKey parts.parsedScope.scope parts.parsedD.slug = some parts.d :=
    formatFactKey_eq_some.mpr ⟨parts.parsedScope, scope, slug, by rw [← d]; exact (congrArg FactKey.d key).symm⟩
  have kept : ((some prior.kind).filter (· ≠ 0)).getD kind = prior.kind := by
    rw [Option.filter_some, if_pos (by simpa using kind_ne_zero accepts), Option.getD_some]
  have author : (nonEmpty (some pubkey)).getD prior.pubkey = prior.pubkey := by
    rcases own with rfl | rfl
    · rfl
    · by_cases empty : prior.pubkey = ""
      · rw [empty]
        rfl
      · rw [nonEmpty, Option.filter_some, if_pos (by simpa using empty), Option.getD_some]
  unfold buildWithdrawalTemplate
  simp only [Option.bind_some, Option.map_some, Option.elim_some, Option.getD_some, check, Except.toOption,
    bind_eq_ok, require_eq_ok, mapError_eq_ok, kept, author]
  constructor
  · rintro ⟨_, read, _, written, _, routed, w, valid, built⟩
    obtain rfl := Option.some.inj (scope.symm.trans read)
    obtain rfl := Option.some.inj (formatted.symm.trans written)
    obtain rfl := Except.ok.inj ((routeTags_eq accepts _).symm.trans routed)
    exact ⟨Except.ok.inj built, w, valid⟩
  · rintro ⟨rfl, w, valid⟩
    exact ⟨_, scope, _, formatted, _, routeTags_eq accepts _, w, valid, rfl⟩

/-- The texts that the guard reads in a withdrawal and has not read in the claim. -/
def addedTexts (channel because topic : String) (scope : Scope) : List String :=
  ["", trim because, "topic", topic] ++ routeIds channel scope

/-- The evidence of a claim is trimmed. -/
theorem evidenceOf_withdrawn (because : String) (parts : Parts) :
    evidenceOf (withdrawnBody because parts.evidence) = parts.evidence := by
  have trimmed : ∀ text ∈ parts.evidence, trim text = text ∧ text ≠ "" := by
    intro text member
    unfold Parts.evidence evidenceOf at member
    split at member
    · obtain ⟨listed, filled⟩ := List.mem_filter.mp member
      obtain ⟨raw, -, rfl⟩ := List.mem_map.mp listed
      exact ⟨trim_trim raw, by simpa using filled⟩
    · exact absurd member List.not_mem_nil
  have texts : (parts.evidence.map Json.str).filterMap Json.string = parts.evidence := by
    rw [List.filterMap_map]
    exact List.filterMap_some
  have read : (withdrawnBody because parts.evidence).get "evidence" =
      some (.arr (parts.evidence.map .str)) := rfl
  unfold evidenceOf
  rw [read]
  dsimp only
  rw [texts, List.map_congr_left fun text member => (trimmed text member).1, List.map_id',
    List.filter_eq_self]
  exact fun text member => by simpa using (trimmed text member).2

/-- What a withdrawal reads as. -/
def withdrawnParts (parts : Parts) (because : String) : Parts :=
  { parts with
    body := withdrawnBody because parts.evidence
    status := .withdrawn
    expiresAt := none }

theorem routeIds_cases {scope : Scope} (normal : Normal scope) :
    routeIds channel scope = [] ∧ scope.type = .self ∨
      ∃ id, routeIds channel scope = [id] ∧ scope.type ≠ .self := by
  cases normal with
  | hiveOps => exact .inr ⟨_, rfl, nofun⟩
  | hiveCanon => exact .inr ⟨_, rfl, nofun⟩
  | room uuid => exact .inr ⟨_, rfl, nofun⟩
  | self hex => exact .inl ⟨rfl, rfl⟩

/-- The tags of a withdrawal, as they are read. -/
theorem tags_replacement (accepts : Accepts host channel kinds false prior parts) :
    let ev := (replacementOf channel prior parts because nowSec).event
    ev.tagValue "d" = some parts.d ∧ ev.tagValue "s" = some parts.parsedScope.scope ∧
      ev.tagValue "h" = (routeIds channel parts.parsedScope).head? ∧
      ev.tagValue "as_of_git" = none ∧ ev.tagValue "as_of_evt" = none ∧
      ev.tagValues "exp" = [] ∧ ev.tagValues "retention" = [] := by
  rcases @routeIds_cases channel _ (keyed_of_accepts accepts).1 with ⟨ids, -⟩ | ⟨id, ids, -⟩
  · simp [replacementOf, Template.event, Event.tagValue, Event.tagValues, Event.tag, ids]
  · simp [replacementOf, Template.event, Event.tagValue, Event.tagValues, Event.tag, ids]

theorem checkRoute_replacement (accepts : Accepts host channel kinds false prior parts) :
    checkRoute channel (lowerAscii prior.pubkey) parts.parsedScope
      (routeIds channel parts.parsedScope).head? = .ok () := by
  have route := accepts.route
  have normal := (keyed_of_accepts accepts).1
  generalize parts.parsedScope = scope at *
  cases normal with
  | hiveOps =>
      simp only [checkRoute, bind_eq_ok, ensure_eq_ok, exists_const, decide_eq_true_eq] at route ⊢
      exact ⟨route.1, lowerAscii_of_isUuid route.1⟩
  | hiveCanon =>
      simp only [checkRoute, bind_eq_ok, ensure_eq_ok, exists_const, decide_eq_true_eq] at route ⊢
      exact ⟨route.1, lowerAscii_of_isUuid route.1⟩
  | room uuid =>
      simp only [checkRoute, ensure_eq_ok, decide_eq_true_eq, Option.some_inj] at route ⊢
      exact lowerAscii_of_isUuid uuid
  | self hex =>
      simp only [checkRoute, bind_eq_ok, ensure_eq_ok, exists_const] at route ⊢
      exact ⟨route.1, rfl⟩

/-- What the guard has read in a claim. -/
theorem clean_iff {claim : String} {evidence : List String} {tags : List (List String)} :
    checkClaimPayloadSecrets host claim because evidence tags = none ↔
      ∀ text, text = claim ∨ text = because ∨ text ∈ evidence ∨ text ∈ tags.flatten →
        host.checkMemorySecrets text = none := by
  rw [checkClaimPayloadSecrets, List.findSome?_eq_none_iff]
  simp only [List.cons_append, List.mem_cons, List.mem_append]

theorem flatten_replacement : (replacementOf channel prior parts because nowSec).event.tags.flatten =
    ["d", parts.d] ++ (routeIds channel parts.parsedScope).flatMap (["h", ·]) ++
      ["s", parts.parsedScope.scope, "topic", (parts.valid prior).topic] := by
  simp [replacementOf, Template.event, List.flatMap_def]

/-- **A withdrawal reads as one** where its time is a safe integer and the guard passes what it adds. -/
theorem accepts_replacement (accepts : Accepts host channel kinds false prior parts)
    (filled : trim because ≠ "")
    (safe : isSafeInteger (max nowSec (prior.createdAt + 1)) = true)
    (guarded : ∀ text ∈ addedTexts channel because (parts.valid prior).topic parts.parsedScope,
      host.checkMemorySecrets text = none) :
    Accepts host channel kinds false (replacementOf channel prior parts because nowSec).event
      (withdrawnParts parts because) := by
  obtain ⟨d, s, h, git, evt, exp, retention⟩ := @tags_replacement host channel because kinds prior parts
    nowSec accepts
  obtain ⟨normal, slug, key, keyD⟩ := keyed_of_accepts accepts
  have lower : lowerAscii (lowerAscii prior.pubkey) = lowerAscii prior.pubkey :=
    lowerAscii_of_isHex64 accepts.pubkey
  have passed := clean_iff.mp accepts.clean
  have inTags : ∀ name value, prior.tagValue name = some value → host.checkMemorySecrets name = none ∧
      host.checkMemorySecrets value = none := fun name value read =>
    ⟨passed name (.inr (.inr (.inr (mem_of_tagValue read).1))),
      passed value (.inr (.inr (.inr (mem_of_tagValue read).2)))⟩
  have keyTag := inTags "d" parts.d (Option.filter_eq_some_iff.mp accepts.tagged).1
  have scopeTag := inTags "s" _ accepts.scope
  have own : parts.parsedD.scope = parts.parsedScope.scope := congrArg FactKey.scope key
  refine {
    kind := accepts.kind
    pubkey := ?_
    createdAt := ⟨safe, ?_⟩
    tagged := ?_
    parsed := accepts.parsed
    scope := s.trans (congrArg some own.symm)
    parsedScope := accepts.parsedScope
    route := ?_
    content := Json.parse_stringify _
    object := rfl
    status := rfl
    because := ?_
    claim := nofun
    evidence := nofun
    anchor := nofun
    asOfEvt := ?_
    expTags := ?_
    retentionTags := ?_
    expiry := ?_
    retention := ?_
    exclusive := ?_
    lasting := rfl
    clean := ?_
    signed := nofun }
  · show isHex64 (lowerAscii (lowerAscii prior.pubkey)) = true
    rw [lower]
    exact accepts.pubkey
  · have positive := accepts.createdAt.2
    exact lt_of_lt_of_le (by omega) (le_max_right nowSec (prior.createdAt + 1))
  · rw [d]
    exact (Option.filter_eq_some_iff.mpr ⟨rfl, (Option.filter_eq_some_iff.mp accepts.tagged).2⟩)
  · rw [h]
    show checkRoute channel (lowerAscii (lowerAscii prior.pubkey)) parts.parsedScope _ = _
    rw [lower]
    exact checkRoute_replacement accepts
  · show trim (trim because) ≠ ""
    rw [trim_trim]
    exact filled
  · rw [evt]
    rfl
  · rw [exp]
    exact Nat.zero_le _
  · rw [retention]
    exact Nat.zero_le _
  · rw [exp]
    rfl
  · rw [retention]
    rfl
  · rw [retention]
    rfl
  · refine clean_iff.mpr fun text read => ?_
    rcases read with rfl | rfl | listed | tagged
    · exact guarded "" (by simp [addedTexts])
    · show host.checkMemorySecrets (trim (trim because)) = none
      rw [trim_trim]
      exact guarded _ (by simp [addedTexts])
    · rw [show (withdrawnParts parts because).evidence = parts.evidence from
        evidenceOf_withdrawn because parts] at listed
      exact passed text (.inr (.inr (.inl listed)))
    · rw [flatten_replacement] at tagged
      simp only [List.mem_append, List.mem_cons, List.not_mem_nil, or_false, List.mem_flatMap] at tagged
      rcases tagged with ((rfl | rfl) | ⟨id, member, rfl | rfl⟩) | rfl | rfl | rfl | rfl
      · exact keyTag.1
      · exact keyTag.2
      · obtain ⟨-, old, carried, -⟩ := routed_of_accepts accepts member
        exact (inTags "h" old carried).1
      · exact guarded _ (List.mem_append_right _ member)
      · exact scopeTag.1
      · rw [← own]
        exact scopeTag.2
      · exact guarded _ (by simp [addedTexts])
      · exact guarded _ (by simp [addedTexts])

/-- What a withdrawal that validates tells. -/
theorem of_validates {w : Valid}
    (valid : validateMemoryEvent host channel kinds false
      (replacementOf channel prior parts because nowSec).event = .ok w) :
    isSafeInteger (max nowSec (prior.createdAt + 1)) = true ∧
      ∀ text ∈ addedTexts channel because (parts.valid prior).topic parts.parsedScope,
        host.checkMemorySecrets text = none := by
  obtain ⟨read, accepted, -⟩ := validateMemoryEvent_eq_ok.mp valid
  have body : read.body = withdrawnBody because parts.evidence :=
    Option.some.inj (accepted.content.symm.trans (Json.parse_stringify _))
  have passed := clean_iff.mp accepted.clean
  rw [flatten_replacement] at passed
  refine ⟨accepted.createdAt.1, fun text added => passed text ?_⟩
  have claim : read.claim = "" := by
    rw [Parts.claim, body]
    rfl
  have why : read.because = trim because := by
    rw [Parts.because, body]
    exact trim_trim because
  rw [claim, why]
  simp only [addedTexts, List.cons_append, List.nil_append, List.mem_cons] at added
  rcases added with rfl | rfl | rfl | rfl | member
  · exact .inl rfl
  · exact .inr (.inl rfl)
  · exact .inr (.inr (.inr (by simp)))
  · exact .inr (.inr (.inr (by simp)))
  · exact .inr (.inr (.inr (List.mem_append_left _ (List.mem_append_right _ (List.mem_flatMap.mpr
      ⟨text, member, by simp⟩)))))

end Replacement

/-! ### How large it is -/

section Size

open Json

/-- A signed event of the template: its fields, an id and a signature that the library verifies. -/
structure Signs (host : Host) (t : Template) (ev : Event) : Prop where
  fields : { ev with
    id := ""
    sig := "" } = t.event
  sig : ev.sig.toList.length = 128 ∧ ∀ c ∈ ev.sig.toList, isLowerHex c = true
  verified : host.verifyEvent ev = true

variable {host : Host} {channel because : String} {kinds : List Int} {prior : Event} {parts : Parts}
  {nowSec : Int} {t : Template} {ev : Event}

theorem Signs.eq (signs : Signs host t ev) : ev.pubkey = t.pubkey ∧ ev.createdAt = t.createdAt ∧
    ev.kind = t.kind ∧ ev.tags = t.tags ∧ ev.content = t.content := by
  have fields := signs.fields
  rw [Template.event, Event.mk.injEq] at fields
  exact ⟨fields.2.1, fields.2.2.1, fields.2.2.2.1, fields.2.2.2.2.1, fields.2.2.2.2.2.1⟩

theorem plain_of_isLowerHex {c : Char} (hex : isLowerHex c = true) : Plain c := by
  have range : 48 ≤ c.toNat ∧ c.toNat ≤ 102 := by
    simp only [isLowerHex, Char.isDigit, ge_iff_le, Bool.or_eq_true, Bool.and_eq_true, decide_eq_true_eq,
      UInt32.le_iff_toNat_le, Char.le_def] at hex
    have : '0'.val.toNat = 48 := rfl
    have : '9'.val.toNat = 57 := rfl
    have : 'a'.val.toNat = 97 := rfl
    have : 'f'.val.toNat = 102 := rfl
    have : c.toNat = c.val.toNat := rfl
    omega
  have ascii : c.val ≤ 0x7f := UInt32.le_iff_toNat_le.mpr (show c.toNat ≤ 127 by omega)
  refine ⟨if_pos ascii, ?_⟩
  cases escaped c with
  | quoted special written =>
      rcases special with rfl | rfl
      · exact absurd hex (by decide)
      · exact absurd hex (by decide)
  | named plain named letter ascii written =>
      unfold isNamed at named
      simp only [Bool.or_eq_true, decide_eq_true_eq, or_assoc] at named
      rcases named with rfl | rfl | rfl | back | form
      · exact absurd hex (by decide)
      · exact absurd hex (by decide)
      · exact absurd hex (by decide)
      · omega
      · omega
  | control plain named low written => omega
  | itself plain named low written => exact written

theorem escapedBytes_of_isHex64 {text : String} (hex : isHex64 text = true) : escapedBytes text = 64 := by
  rw [isHex64, Bool.and_eq_true, decide_eq_true_eq, List.all_eq_true] at hex
  rw [escapedBytes_of_plain fun c member => plain_of_isLowerHex (hex.2 c member)]
  exact hex.1

/-- The bytes of the tags of an event. -/
theorem bytes_tags {tags : List (List String)} (some : tags ≠ []) (filled : ∀ tag ∈ tags, tag ≠ []) :
    bytes (render (.arr (tags.map fun tag => .arr (tag.map .str)))) =
      (tags.map fun tag => (tag.map fun cell => escapedBytes cell + 3).sum + 2).sum + 1 := by
  rw [bytes_render_arr (by simpa using some), List.map_map]
  congr 2
  refine List.map_congr_left fun tag member => ?_
  have cells : (tag.map .str).map (fun cell => bytes (render cell) + 1) =
      tag.map fun cell => escapedBytes cell + 3 := by
    rw [List.map_map]
    refine List.map_congr_left fun cell _ => ?_
    rw [Function.comp_apply, render, bytes_renderString]
  rw [Function.comp_apply, bytes_render_arr (by simpa using filled tag member), cells]

/-- The bytes of an event. -/
theorem bytes_eventJson (ev : Event) : (utf8 (stringify (eventJson ev))).length =
    73 + escapedBytes ev.id + escapedBytes ev.pubkey + (renderInt ev.createdAt).length +
      (renderInt ev.kind).length + bytes (render (.arr (ev.tags.map fun tag => .arr (tag.map .str)))) +
      escapedBytes ev.content + escapedBytes ev.sig := by
  have keys : escapedBytes "id" = 2 ∧ escapedBytes "pubkey" = 6 ∧ escapedBytes "created_at" = 10 ∧
      escapedBytes "kind" = 4 ∧ escapedBytes "tags" = 4 ∧ escapedBytes "content" = 7 ∧
      escapedBytes "sig" = 3 := by decide
  obtain ⟨id, pubkey, createdAt, kind, tags, content, sig⟩ := keys
  have number : ∀ n : Int, bytes (render (.num n 0)) = (renderInt n).length := by
    intro n
    rw [render, renderNum, if_pos rfl, List.append_nil, bytes_renderInt]
  have text : ∀ text, bytes (render (.str text)) = escapedBytes text + 2 := by
    intro text
    rw [render, bytes_renderString]
  rw [length_utf8, stringify, String.toList_ofList, eventJson, bytes_render_obj (List.cons_ne_nil _ _)]
  simp only [List.map_cons, List.map_nil, List.sum_cons, List.sum_nil, id, pubkey, createdAt, kind, tags, content,
    sig, number, text]
  omega

/-- The bytes of the tags of a template. -/
def tagsBytes (tags : List (List String)) : Nat :=
  (tags.map fun tag => (tag.map fun cell => escapedBytes cell + 3).sum + 2).sum + 1

/-- The bytes of a signed event of a template. -/
theorem bytes_template (signs : Signs host t ev) (pubkey : isHex64 t.pubkey = true)
    (kind : t.kind ∈ ALLOWED_KINDS) (tagged : t.tags ≠ []) (filled : ∀ tag ∈ t.tags, tag ≠ []) :
    (utf8 (stringify (eventJson ev))).length =
      334 + (renderInt t.createdAt).length + tagsBytes t.tags + escapedBytes t.content := by
  have digits : (renderInt t.kind).length = 5 := by
    simp only [ALLOWED_KINDS, List.mem_cons, List.not_mem_nil, or_false] at kind
    rcases kind with same | same
    · rw [same]
      decide
    · rw [same]
      decide
  have sig : escapedBytes ev.sig = 128 := by
    rw [escapedBytes_of_plain fun c member => plain_of_isLowerHex (signs.sig.2 c member)]
    exact signs.sig.1
  obtain ⟨samePubkey, createdAt, sameKind, tags, content⟩ := signs.eq
  rw [bytes_eventJson, escapedBytes_of_isHex64 (host.verifyEvent_id signs.verified), samePubkey, createdAt,
    sameKind, tags, content, sig, bytes_tags tagged filled, digits, escapedBytes_of_isHex64 pubkey, tagsBytes]
  omega

/-- The bytes of the body of a withdrawal inside the event. -/
theorem bytes_withdrawnBody (evidence : List String) :
    escapedBytes (stringify (withdrawnBody because evidence)) =
      72 + twiceEscapedBytes (trim because) + bytes (escape (render (.arr (evidence.map .str)))) := by
  have keys : twiceEscapedBytes "claim" = 5 ∧ twiceEscapedBytes "because" = 7 ∧
      twiceEscapedBytes "evidence" = 8 ∧ twiceEscapedBytes "status" = 6 ∧ twiceEscapedBytes "" = 0 ∧
      twiceEscapedBytes "withdrawn" = 9 := by decide
  obtain ⟨claim, why, listed, status, empty, withdrawn⟩ := keys
  have text : ∀ text, bytes (escape (render (.str text))) = twiceEscapedBytes text + 4 := by
    intro text
    rw [render, bytes_escape_renderString]
  rw [← bytes_escape, stringify, String.toList_ofList, withdrawnBody,
    bytes_escape_render_obj (List.cons_ne_nil _ _)]
  simp only [List.map_cons, List.map_nil, List.sum_cons, List.sum_nil, claim, why, listed, status, empty,
    withdrawn, text]
  omega

/-- The bytes of the signed withdrawal of a claim. -/
def withdrawalBytes (channel : String) (prior : Event) (parts : Parts) (because : String) (nowSec : Int) : Nat :=
  439 + (renderInt (max nowSec (prior.createdAt + 1))).length + escapedBytes parts.d +
    escapedBytes parts.parsedScope.scope + escapedBytes (parts.valid prior).topic +
    ((routeIds channel parts.parsedScope).map fun id => escapedBytes id + 9).sum +
    twiceEscapedBytes (trim because) + (parts.evidence.map fun text => twiceEscapedBytes text + 5).sum

/-- **How large a signed withdrawal is.** -/
theorem bytes_signed (accepts : Accepts host channel ALLOWED_KINDS false prior parts)
    (some : parts.evidence ≠ []) (signs : Signs host (replacementOf channel prior parts because nowSec) ev) :
    (utf8 (stringify (eventJson ev))).length = withdrawalBytes channel prior parts because nowSec := by
  have filled : ∀ tag ∈ (replacementOf channel prior parts because nowSec).tags, tag ≠ [] := by
    intro tag member
    simp only [replacementOf, List.cons_append, List.mem_cons, List.mem_append, List.mem_map,
      List.not_mem_nil, or_false] at member
    rcases member with rfl | ⟨id, -, rfl⟩ | rfl | rfl <;> exact List.cons_ne_nil _ _
  have names : escapedBytes "d" = 1 ∧ escapedBytes "h" = 1 ∧ escapedBytes "s" = 1 ∧
      escapedBytes "topic" = 5 := by decide
  obtain ⟨d, h, s, topic⟩ := names
  have routed : ((routeIds channel parts.parsedScope).map ((fun tag => (tag.map fun cell =>
      escapedBytes cell + 3).sum + 2) ∘ (["h", ·]))).sum =
        ((routeIds channel parts.parsedScope).map fun id => escapedBytes id + 9).sum := by
    congr 1
    refine List.map_congr_left fun id _ => ?_
    simp only [Function.comp_apply, List.map_cons, List.map_nil, List.sum_cons, List.sum_nil, h]
    omega
  rw [bytes_template signs accepts.pubkey (List.contains_iff_mem.mp accepts.kind) (List.cons_ne_nil _ _) filled]
  simp only [replacementOf, tagsBytes, List.cons_append, List.map_cons, List.map_append, List.map_map,
    List.sum_cons, List.sum_append, List.map_nil, List.sum_nil, d, s, topic, routed, bytes_withdrawnBody,
    bytes_escape_render_texts some, withdrawalBytes]
  omega

end Size

/-! ### Stores over changing configurations -/

/-- A time with one configuration, and what happens in it. -/
structure Era where
  config : Config
  requireMigratedIds : List String
  operations : List Operation

/-- A site through any number of configurations. -/
def Site.live (host : Host) (site : Site) (eras : List Era) : Site :=
  eras.foldl (fun site era => site.run host era.config era.requireMigratedIds era.operations) site

theorem kept_live {host : Host} {site : Site} (keeps : Keeps (Derived host) site) (eras : List Era) :
    Keeps (Derived host) (site.live host eras) := by
  induction eras generalizing site with
  | nil => exact keeps
  | cons era eras ih => exact ih (kept_operations keeps era.operations)

/-! ### Submitting the withdrawal -/

section Submitting

variable {host : Host} {config : Config} {disk : Disk} {store : HiveMemoryStore} {db : Database}
  {writer : Writer} {row : Row} {prior signed : Event} {parts : Parts} {because : String} {nowSec : Int}
  {req : SubmitRequest} {fault : Fault} {w : Checked}

/-- The refusals that would say a claim cannot be withdrawn. -/
def WITHDRAWAL_REFUSALS : List String :=
  ["HIVE_MEMORY_INVALID_EVENT", "HIVE_MEMORY_NOT_NEWER", "HIVE_MEMORY_NOTHING_TO_WITHDRAW"]

def RefusedAs (codes : List String) (answer : Option SubmitAnswer) : Prop :=
  ∃ code ∈ codes, ∃ message, answer = some (.refused ⟨code, message⟩)

/-- What is validated of an event is neither its id nor its signature. -/
theorem accepts_unsigned {ev : Event} {channel : String} {kinds : List Int}
    (accepts : Accepts host channel kinds false { ev with
      id := ""
      sig := "" } parts) : Accepts host channel kinds false ev parts :=
  ⟨accepts.kind, accepts.pubkey, accepts.createdAt, accepts.tagged, accepts.parsed, accepts.scope,
    accepts.parsedScope, accepts.route, accepts.content, accepts.object, accepts.status, accepts.because,
    accepts.claim, accepts.evidence, accepts.anchor, accepts.asOfEvt, accepts.expTags, accepts.retentionTags,
    accepts.expiry, accepts.retention, accepts.exclusive, accepts.lasting, accepts.clean, nofun⟩

theorem not_refusedAs {codes : List String} {refusal : Refusal} (other : refusal.code ∉ codes) :
    ¬ RefusedAs codes (some (.refused refusal)) := by
  rintro ⟨code, listed, message, same⟩
  obtain rfl := SubmitAnswer.refused.inj (Option.some.inj same)
  exact other listed

/-- The answers of a replay. -/
theorem answerReplay_not_refused {codes : List String} (other : ledgerIoRefusal.code ∉ codes) {id : String}
    {status : Status} : ¬ RefusedAs codes (answerReplay disk store db id status fault).answer := by
  unfold answerReplay
  split_ifs
  · split
    · exact nofun
    · exact not_refusedAs other
    · exact nofun
  · exact nofun
  · exact not_refusedAs other

/-- The transaction of a withdrawal: its claim is current and active, and it is newer. -/
theorem submitTx_withdrawal {nowSec : Int} {refusal : Refusal} (current : db.events.current w.key = some row)
    (active : row.status = .active) (later : row.createdAt < w.ev.createdAt)
    (refused : submitTx db writer w (some row.id) nowSec = .refused refusal) :
    refusal.code ∉ WITHDRAWAL_REFUSALS := by
  have newer : nip01Newer w.version (some row.version) = true := Version.newer_iff.mpr (.inl later)
  have standing : ¬ (w.status = .withdrawn && (some row).all (·.status = .withdrawn)) = true := by
    rw [Option.all_some, active]
    simp
  unfold submitTx at refused
  cases stored : db.events.find w.ev.id with
  | some existing =>
      rw [stored] at refused
      nomatch refused
  | none =>
      rw [stored] at refused
      dsimp only at refused
      rw [current, if_neg (not_not.mpr (Option.map_some ..)), Option.map_some, newer,
        if_neg (by decide), if_neg standing] at refused
      split_ifs at refused
      · obtain rfl := SubmitTx.refused.inj refused
        simp [WITHDRAWAL_REFUSALS]
      · split at refused <;> nomatch refused

/-- The refusals of the transaction of a submit. -/
theorem submitTx_code {prior : Option String} {nowSec : Int} {refusal : Refusal}
    (refused : submitTx db writer w prior nowSec = .refused refusal) :
    refusal.code ∈ ["HIVE_MEMORY_PRIOR_MISMATCH", "HIVE_MEMORY_NOT_NEWER", "HIVE_MEMORY_NOTHING_TO_WITHDRAW",
      "HIVE_MEMORY_RATE_LIMITED"] := by
  unfold submitTx at refused
  cases stored : db.events.find w.ev.id with
  | some existing =>
      rw [stored] at refused
      nomatch refused
  | none =>
      rw [stored] at refused
      dsimp only at refused
      split_ifs at refused
      · obtain rfl := SubmitTx.refused.inj refused
        exact List.mem_cons_self
      · obtain rfl := SubmitTx.refused.inj refused
        exact List.mem_cons_of_mem _ List.mem_cons_self
      · obtain rfl := SubmitTx.refused.inj refused
        exact List.mem_cons_of_mem _ (List.mem_cons_of_mem _ List.mem_cons_self)
      · obtain rfl := SubmitTx.refused.inj refused
        exact List.mem_cons_of_mem _ (List.mem_cons_of_mem _ (List.mem_cons_of_mem _ List.mem_cons_self))
      · split at refused <;> nomatch refused

/-- A submit that passes its checks is refused by its transaction, or with one of two codes. -/
theorem submit_passed_not_refused {codes : List String}
    (passed : submitChecks host disk store req = .ok ⟨db, writer, w⟩) (ledger : ledgerIoRefusal.code ∉ codes)
    (transaction : "HIVE_MEMORY_STORE_NOT_READY" ∉ codes)
    (ends : ∀ refusal, submitTx db writer w req.expectedPriorId req.nowSec = .refused refusal →
      refusal.code ∉ codes) :
    ¬ RefusedAs codes (submit host disk store req fault).answer := by
  unfold submit
  rw [passed]
  dsimp only
  cases ended : submitTx db writer w req.expectedPriorId req.nowSec with
  | replay id status => exact answerReplay_not_refused ledger
  | refused refusal => exact not_refusedAs (ends refusal ended)
  | failed => exact not_refusedAs transaction
  | staged staged =>
      rintro ⟨code, listed, message, refused⟩
      obtain ⟨published, -, same⟩ := Option.map_eq_some_iff.mp refused
      cases published with
      | done => nomatch same
      | failed => exact not_refusedAs ledger ⟨code, listed, message, congrArg some same⟩

/-- **A withdrawal that passes its check is not refused**: it is newer than the claim it withdraws, and
that claim is current and active. -/
theorem submit_not_refused (admits : Admits config disk store req db writer)
    (checked : checkEvent host req.event config = .ok w) (withdrawn : w.status = .withdrawn)
    (current : db.events.current w.key = some row) (active : row.status = .active)
    (prior : req.expectedPriorId = some row.id) (hex : isHex64 row.id = true)
    (later : row.createdAt < w.ev.createdAt) :
    ¬ RefusedAs WITHDRAWAL_REFUSALS (submit host disk store req fault).answer := by
  obtain ⟨topic, policy⟩ := memoryWritePolicy_eq_ok.mpr fun active =>
    absurd (withdrawn.symm.trans active) (by decide)
  have named : req.expectedPriorId.all isHex64 = true := by
    rw [prior]
    exact hex
  rcases @submitChecks_checked host _ _ _ _ _ _ _ admits _ checked policy named with purged | passed
  · unfold submit
    rw [purged]
    exact not_refusedAs (by decide)
  · refine submit_passed_not_refused passed (by decide) (by decide) fun refusal refused => ?_
    rw [prior] at refused
    exact submitTx_withdrawal current active later refused

/-! ### When the event itself is refused -/

/-- The refusals of an event for what it is. -/
def EVENT_REFUSALS : List String := ["HIVE_MEMORY_INVALID_EVENT", "HIVE_MEMORY_INVALID_TOPIC"]

theorem memoryWritePolicy_code {v : Valid} {refusal : Refusal} (refused : memoryWritePolicy v = .error refusal) :
    refusal.code ∈ EVENT_REFUSALS := by
  unfold memoryWritePolicy at refused
  dsimp only at refused
  split_ifs at refused
  · simp only [bind_eq_error, require_eq_error, ensure_eq_error, reduceCtorEq, and_false, exists_const,
      or_false] at refused
    rcases refused with ⟨-, rfl⟩ | ⟨-, -, ⟨-, rfl⟩ | ⟨-, -, -, rfl⟩⟩
    · exact List.mem_cons_of_mem _ List.mem_cons_self
    · exact List.mem_cons_self
    · exact List.mem_cons_self
  · simp only [bind_eq_error, require_eq_error, reduceCtorEq, and_false, exists_const, or_false] at refused
    obtain ⟨-, rfl⟩ := refused
    exact List.mem_cons_of_mem _ List.mem_cons_self

/-- A submit whose checks refuse the event has met everything before it. -/
theorem admits_of_refused {parsed : FactKey} {refusal : Refusal}
    (key : (req.event.tagValue "d").bind parseFactKey = some parsed)
    (refused : submitChecks host disk store req = .error refusal) (listed : refusal.code ∈ EVENT_REFUSALS) :
    ∃ config db writer, Admits config disk store req db writer := by
  unfold submitChecks at refused
  simp only [bind_eq_error, ensure_eq_ok, ensure_eq_error, require_eq_ok, require_eq_error, objection_eq_ok,
    objection_eq_error, exists_const, decide_eq_true_eq, key, reduceCtorEq, false_and, false_or,
    Option.some.injEq, exists_eq_left'] at refused
  rcases refused with ⟨-, rfl⟩ | ⟨ready, ⟨-, rfl⟩ | ⟨config, configured, ⟨-, rfl⟩ | ⟨db, database,
    ⟨_, -, rfl⟩ | ⟨backed, ⟨_, -, rfl⟩ | ⟨fresh, ⟨-, rfl⟩ | ⟨writer, bound, ⟨_, -, rfl⟩ | ⟨allowed, -⟩⟩⟩⟩⟩⟩⟩
  · exact absurd listed (show "HIVE_MEMORY_STORE_NOT_READY" ∉ EVENT_REFUSALS by decide)
  · exact absurd listed (show "HIVE_MEMORY_STORE_NOT_READY" ∉ EVENT_REFUSALS by decide)
  · exact absurd listed (show "HIVE_MEMORY_STORE_NOT_READY" ∉ EVENT_REFUSALS by decide)
  · exact absurd listed (show "HIVE_MEMORY_PURGE_BACKUP_INCOMPLETE" ∉ EVENT_REFUSALS by decide)
  · exact absurd listed (show "HIVE_MEMORY_BACKUP_STALE_WRITES_FENCED" ∉ EVENT_REFUSALS by decide)
  · exact absurd listed (show "HIVE_MEMORY_WRITER_MISMATCH" ∉ EVENT_REFUSALS by decide)
  · exact absurd listed (show "HIVE_MEMORY_SCOPE_NOT_AUTHORIZED" ∉ EVENT_REFUSALS by decide)
  · obtain ⟨bound, own⟩ := Option.filter_eq_some_iff.mp bound
    exact ⟨config, db, writer, ready, configured, database, backed, fresh, bound, of_decide_eq_true own,
      parsed, key, allowed⟩

/-- **When a submit refuses the event itself**: everything before the event was met, and the event fails its
check or the write policy. -/
theorem refusedAs_event_iff {parsed : FactKey} (key : (req.event.tagValue "d").bind parseFactKey = some parsed) :
    RefusedAs EVENT_REFUSALS (submit host disk store req fault).answer ↔
      ∃ config db writer, Admits config disk store req db writer ∧
        ¬ ∃ v topic, checkEvent host req.event config = .ok v ∧ memoryWritePolicy v.toValid = .ok topic := by
  constructor
  · intro refused
    cases checks : submitChecks host disk store req with
    | ok admitted =>
        refine absurd refused (submit_passed_not_refused checks (by decide) (by decide) fun refusal ends => ?_)
        have code := submitTx_code ends
        intro listed
        simp only [EVENT_REFUSALS, List.mem_cons, List.not_mem_nil, or_false] at code listed
        rcases listed with same | same
        · rw [same] at code
          revert code
          decide
        · rw [same] at code
          revert code
          decide
    | error refusal =>
        obtain ⟨code, listed, message, answered⟩ := refused
        unfold submit at answered
        rw [checks] at answered
        obtain rfl := SubmitAnswer.refused.inj (Option.some.inj answered)
        obtain ⟨config, db, writer, admits⟩ := admits_of_refused key checks listed
        refine ⟨config, db, writer, admits, ?_⟩
        rintro ⟨v, topic, checked, policy⟩
        rw [submitChecks_of_admits admits, mapError_eq_ok.mpr checked, ok_bind, policy, ok_bind] at checks
        simp only [bind_eq_error, ensure_eq_error, reduceCtorEq, and_false, exists_const, or_false] at checks
        rcases checks with ⟨-, same⟩ | ⟨-, -, -, same⟩
        · obtain rfl := (Refusal.mk.inj same).1
          exact absurd listed (by decide)
        · obtain rfl := (Refusal.mk.inj same).1
          exact absurd listed (by decide)
  · rintro ⟨config, db, writer, admits, fails⟩
    have answered : ∀ refusal, submitChecks host disk store req = .error refusal →
        refusal.code ∈ EVENT_REFUSALS → RefusedAs EVENT_REFUSALS (submit host disk store req fault).answer := by
      intro refusal refused listed
      unfold submit
      rw [refused]
      exact ⟨refusal.code, listed, refusal.message, rfl⟩
    cases checked : checkEvent host req.event config with
    | error invalid => exact answered _ (submitChecks_invalid admits checked) List.mem_cons_self
    | ok v =>
        cases policy : memoryWritePolicy v.toValid with
        | error refusal => exact answered _ (submitChecks_policy admits checked policy) (memoryWritePolicy_code policy)
        | ok topic => exact absurd ⟨v, topic, checked, policy⟩ fails

end Submitting

/-! ### Which claims can be withdrawn -/

section Withdrawing

variable {host : Host} {config : Config} {kinds : List Int} {prior : Event} {parts : Parts} {channel : String}

/-- What a stored claim says, read off its event. -/
def partsOf (ev : Event) : Option Parts := do
  let d ← ev.tagValue "d"
  let parsedD ← parseFactKey d
  let parsedScope ← parseScope parsedD.scope
  let body ← Json.parse ev.content.toList
  let status ← statusOf body
  some ⟨d, parsedD, parsedScope, body, status, (checkExpiry ev.createdAt (ev.tagValues "exp")).toOption.join⟩

theorem partsOf_of_accepts (accepts : Accepts host channel kinds false prior parts) :
    partsOf prior = some parts := by
  unfold partsOf
  rw [(Option.filter_eq_some_iff.mp accepts.tagged).1, Option.bind_eq_bind, Option.bind_some, accepts.parsed]
  simp only [Option.bind_eq_bind, Option.bind_some, accepts.parsedScope, accepts.content, accepts.status,
    accepts.expiry, Except.toOption, Option.join_some]

/-- A claim of a global scope is routed to the channel that is configured. -/
def Routed (config : Config) (prior : Event) (parts : Parts) : Prop :=
  parts.parsedScope.type = .hiveOps ∨ parts.parsedScope.type = .hiveCanon →
    lowerAscii ((prior.tagValue "h").getD "") = config.memoryGlobalChannelId

/-- **When a claim can be withdrawn**: it is still routed as the configuration says, the second after it
is a safe integer, the signed withdrawal fits into an event, and the guard passes what is added. -/
structure Withdrawable (host : Host) (config : Config) (prior : Event) (parts : Parts) (because : String)
    (nowSec : Int) : Prop where
  routed : Routed config prior parts
  safe : max nowSec (prior.createdAt + 1) ≤ 9007199254740991
  small : withdrawalBytes config.memoryGlobalChannelId prior parts because nowSec ≤ MAX_EVENT_BYTES
  guarded : ∀ text ∈ addedTexts config.memoryGlobalChannelId because (parts.valid prior).topic
    parts.parsedScope, host.checkMemorySecrets text = none

/-- The builder gives a later template of the same key, kind and author, and the store takes it. -/
def Withdraws (host : Host) (disk : Disk) (store : HiveMemoryStore) (row : Row) (args : WithdrawalArgs)
    (sign : Template → Event) (submitter : String) (receivedAt : Int) (fault : Fault) : Prop :=
  ∃ t, buildWithdrawalTemplate host args = .ok t ∧ t.event.tagValue "d" = some row.d ∧ t.kind = row.kind ∧
    t.pubkey = row.raw.pubkey ∧ row.createdAt < t.createdAt ∧
    ¬ RefusedAs WITHDRAWAL_REFUSALS
      (submit host disk store ⟨submitter, sign t, some row.id, receivedAt⟩ fault).answer

theorem lowerAscii_channel (config : Config) :
    lowerAscii config.memoryGlobalChannelId = config.memoryGlobalChannelId :=
  lowerAscii_of_isUuid config.isUuid_memoryGlobalChannelId

/-- A claim that is routed as the configuration says validates under it. -/
theorem accepts_of_routed (accepts : Accepts host channel kinds false prior parts)
    (routed : Routed config prior parts) :
    Accepts host config.memoryGlobalChannelId kinds false prior parts := by
  refine { accepts with route := ?_ }
  have route := accepts.route
  have uuid : isUuid (lowerAscii config.memoryGlobalChannelId) = true := by
    rw [lowerAscii_channel]
    exact config.isUuid_memoryGlobalChannelId
  unfold checkRoute at route ⊢
  cases type : parts.parsedScope.type with
  | hiveOps =>
      simp only [bind_eq_ok, ensure_eq_ok, exists_const, decide_eq_true_eq]
      exact ⟨uuid, (routed (.inl type)).trans (lowerAscii_channel config).symm⟩
  | hiveCanon =>
      simp only [bind_eq_ok, ensure_eq_ok, exists_const, decide_eq_true_eq]
      exact ⟨uuid, (routed (.inr type)).trans (lowerAscii_channel config).symm⟩
  | room =>
      rw [type] at route
      exact route
  | self =>
      rw [type] at route
      exact route

theorem routed_of_valid {v : Valid} (read : partsOf prior = some parts)
    (valid : validateMemoryEvent host config.memoryGlobalChannelId kinds false prior = .ok v) :
    Routed config prior parts := by
  obtain ⟨own, accepts, -⟩ := validateMemoryEvent_eq_ok.mp valid
  obtain rfl := Option.some.inj ((partsOf_of_accepts accepts).symm.trans read)
  have route := accepts.route
  unfold checkRoute at route
  intro global
  rw [← lowerAscii_channel config]
  rcases global with type | type
  · rw [type] at route
    simp only [bind_eq_ok, ensure_eq_ok, exists_const, decide_eq_true_eq] at route
    exact route.2
  · rw [type] at route
    simp only [bind_eq_ok, ensure_eq_ok, exists_const, decide_eq_true_eq] at route
    exact route.2

/-- Without a scope of its own the builder needs a claim that validates. -/
theorem valid_of_build {pubkey because : String} {kind nowSec : Int} {t : Template}
    (built : buildWithdrawalTemplate host
      { pubkey, priorEvent := some prior, because, memoryGlobalChannelId := channel, kind, nowSec } = .ok t) :
    ∃ v, validateMemoryEvent host channel ALLOWED_KINDS false prior = .ok v := by
  cases check : validateMemoryEvent host channel [MEMORY_KIND, FALLBACK_MEMORY_KIND] false prior with
  | ok v => exact ⟨v, check⟩
  | error invalid =>
      unfold buildWithdrawalTemplate at built
      simp only [Option.bind_some, check, Except.toOption, Option.elim_none, Option.getD_none, bind_eq_ok,
        require_eq_ok] at built
      obtain ⟨_, scope, -⟩ := built
      have nothing : parseScope "" = none := by decide
      rw [nothing] at scope
      cases scope

/-- **Which stored claims can be withdrawn.** Over every run with restores and changing configurations, an
active claim that is current, however it came into the store, is withdrawn by its author with the fences
open exactly where it is `Withdrawable`. -/
theorem withdraws_iff (host : Host) (eras : List Era) {config : Config} {store : HiveMemoryStore}
    {db : Database} {row : Row} {submitter : String} {writer : Writer} {receivedAt : Int}
    {pubkey because : String} {kind nowSec : Int} {sign : Template → Event} (fault : Fault)
    (serving : Serving config (Site.empty.live host eras).world store db)
    (current : db.events.current row.key = some row) (active : row.status = .active)
    (backed : purgeBackupIncomplete db.lastPurgeSeq (Site.empty.live host eras).world.disk.receipt = none)
    (fresh : backupFence config db (Site.empty.live host eras).world.disk.receipt receivedAt = none)
    (bound : config.writers.get submitter = some writer) (author : row.raw.pubkey = writer.pubkey)
    (authorized : ∃ parsed, parseFactKey row.d = some parsed ∧
      writeRefusal config (some writer) writer.pubkey parsed = none)
    (filled : trim because ≠ "") (own : pubkey = "" ∨ pubkey = row.raw.pubkey)
    (signs : ∀ t, t.pubkey = row.raw.pubkey → Signs host t (sign t)) :
    ∃ parts, partsOf row.raw = some parts ∧
      (Withdraws host (Site.empty.live host eras).world.disk store row
          { pubkey, priorEvent := some row.raw, because,
            memoryGlobalChannelId := config.memoryGlobalChannelId, kind, nowSec }
          sign submitter receivedAt fault ↔
        Withdrawable host config row.raw parts because nowSec) := by
  have kept : Derived host db := (kept_live keeps_empty eras).disk.database serving.database
  obtain ⟨member, -, -⟩ := Events.current_eq_some.mp current
  obtain ⟨earlier, v, flag, storedAt, checked, rfl⟩ := kept row member
  obtain ⟨-, verified, valid, -⟩ := checkEvent_iff.mp checked
  obtain ⟨parts, accepted, told⟩ := validateMemoryEvent_eq_ok.mp valid
  change v.ev.pubkey = writer.pubkey at author
  change ∀ t, t.pubkey = v.ev.pubkey → Signs host t (sign t) at signs
  change pubkey = "" ∨ pubkey = v.ev.pubkey at own
  have lower : lowerAscii v.ev.pubkey = v.ev.pubkey :=
    lowerAscii_of_isHex64 (author ▸ writer.isHex64_pubkey)
  have status : parts.status = .active := (congrArg Valid.status told).trans active
  have d : parts.d = v.d := congrArg Valid.d told
  have positive : 0 < max nowSec (v.ev.createdAt + 1) :=
    lt_of_lt_of_le (by have := accepted.createdAt.2; omega) (le_max_right nowSec (v.ev.createdAt + 1))
  refine ⟨parts, partsOf_of_accepts accepted, ?_⟩
  -- the withdrawal, wherever the claim is routed as the configuration says
  set t := replacementOf config.memoryGlobalChannelId v.ev parts because nowSec with template
  have signed : Signs host t (sign t) := signs t lower
  have tagged : (sign t).tagValue "d" = some v.d := by
    rw [Event.tagValue, Event.tag, signed.eq.2.2.2.1, ← d]
    rfl
  have admits : Admits config (Site.empty.live host eras).world.disk store
      ⟨submitter, sign t, some v.ev.id, receivedAt⟩ db writer := by
    obtain ⟨parsed, key, allowed⟩ := authorized
    refine ⟨serving.ready, serving.config, serving.database, backed, fresh, bound, ?_, parsed, ?_, allowed⟩
    · exact signed.eq.1.trans (lower.trans author)
    · show ((sign t).tagValue "d").bind parseFactKey = some parsed
      rw [tagged]
      exact key
  constructor
  · rintro ⟨t', built, -, -, -, -, taken⟩
    obtain ⟨_, validates⟩ := valid_of_build built
    have routed := routed_of_valid (partsOf_of_accepts accepted) validates
    have accepts := accepts_of_routed accepted routed
    obtain ⟨rfl, w, reads⟩ := (build_eq_ok accepts own).mp built
    obtain ⟨safe, guarded⟩ := of_validates reads
    refine ⟨routed, (isSafeInteger_of_pos positive).mp safe, ?_, guarded⟩
    by_contra large
    change ¬ withdrawalBytes config.memoryGlobalChannelId v.ev parts because nowSec ≤ MAX_EVENT_BYTES at large
    have failed : checkEvent host (sign t) config =
        .error ("event exceeds " ++ toString MAX_EVENT_BYTES ++ " bytes" : String) := by
      unfold checkEvent
      rw [bytes_signed accepts (accepts.evidence status) signed, decide_eq_false large]
      rfl
    refine taken ⟨"HIVE_MEMORY_INVALID_EVENT", List.mem_cons_self,
      "event exceeds " ++ toString MAX_EVENT_BYTES ++ " bytes", ?_⟩
    show (submit host _ store ⟨submitter, sign t, some v.ev.id, receivedAt⟩ fault).answer = _
    unfold submit
    rw [submitChecks_invalid admits failed]
  · rintro ⟨routed, safe, small, guarded⟩
    have accepts := accepts_of_routed accepted routed
    have reads := accepts_replacement accepts filled ((isSafeInteger_of_pos positive).mpr safe) guarded
    have built := (@build_eq_ok host config.memoryGlobalChannelId because v.ev parts nowSec accepts pubkey own
      kind t).mpr ⟨rfl, _, validateMemoryEvent_eq_ok.mpr ⟨_, reads, rfl⟩⟩
    have later : v.ev.createdAt < t.createdAt :=
      lt_of_lt_of_le (Int.lt_succ _) (le_max_right nowSec (v.ev.createdAt + 1))
    refine ⟨t, built, ?_, rfl, lower, later, ?_⟩
    · exact (tags_replacement accepts).1.trans (congrArg some d)
    · have taken : checkEvent host (sign t) config =
          .ok { (withdrawnParts parts because).valid (sign t) with ev := sign t } := by
        refine checkEvent_iff.mpr ⟨?_, signed.verified, ?_, rfl⟩
        · rw [bytes_signed accepts (accepts.evidence status) signed]
          exact small
        · refine validateMemoryEvent_eq_ok.mpr ⟨_, accepts_unsigned ?_, rfl⟩
          rw [signed.fields]
          exact reads
      refine @submit_not_refused host config _ store db writer (rowOf v flag storedAt) _ fault _ admits taken
        rfl ?_ active rfl (host.verifyEvent_id verified) ?_
      · have author : lowerAscii (sign t).pubkey = v.pubkey := by
          rw [signed.eq.1]
          exact (congrArg lowerAscii lower).trans (congrArg Valid.pubkey told)
        show db.events.current (lowerAscii (sign t).pubkey, parts.d) = _
        rw [author, d]
        exact current
      · show v.ev.createdAt < (sign t).createdAt
        rw [signed.eq.2.1]
        exact later

end Withdrawing

/-! ### A claim of the sample deployment -/

/-- The owner submits a claim to an empty store, and a backup is taken of it. -/
def submittedEra (digit : Char) (createdAt : Int) : Era where
  config := sampleConfig
  requireMigratedIds := []
  operations := [Action.migrateStoreJson [] sampleStoreId 1000 .none, .start .none,
    .recordVerifiedBackup (sampleReceipt 1 Nat.one_pos),
    .submit ⟨"owner", (claimOf digit createdAt).ev, none, 1000⟩ .none,
    .recordVerifiedBackup (sampleReceipt 2 Nat.two_pos)].map .act

/-- The claim was accepted, and it is the current one. -/
structure SampleStored (digit : Char) (createdAt : Int) (w : World) (store : HiveMemoryStore)
    (db : Database) : Prop where
  accepted : ∃ (disk : Disk) (store : HiveMemoryStore),
    (submit Host.sample disk store ⟨"owner", (claimOf digit createdAt).ev, none, 1000⟩ .none).answer =
      some (.accepted (sampleKey digit) .active false)
  serving : Serving sampleConfig w store db
  current : db.events.current (sampleKey 'a', "hive-memory:hive:ops:deploy") =
    some (rowOf (claimOf digit createdAt) true 1000)
  receipt : w.disk.receipt = some (sampleReceipt 2 (by decide))
  purge : db.lastPurgeSeq = 0
  writeSeq : db.writeSeq = 2

theorem sampleStored {digit : Char} {createdAt : Int}
    (checked : checkEvent Host.sample (claimOf digit createdAt).ev sampleConfig =
      .ok (claimOf digit createdAt)) : ∃ store db,
    SampleStored digit createdAt (Site.empty.live Host.sample [submittedEra digit createdAt]).world store db := by
  have opened : ∃ store created, genesisDatabase sampleStoreId.1 [] 1000 = some created ∧
      Serving sampleConfig (run Host.sample sampleConfig [] World.empty
        [.migrateStoreJson [] sampleStoreId 1000 .none, .start .none]) store
        (created.stage (genesisPayload (some [])) 1000) ∧ store.purgedIds.toFinset = ∅ :=
    serving_of_samples (by simp) (by simp) List.nodup_nil
  obtain ⟨store, created, made, serving, nonePurged⟩ := opened
  obtain ⟨-, seq, purge, rate, rows⟩ := genesisDatabase_rows made
  have world : (Site.empty.live Host.sample [submittedEra digit createdAt]).world =
      step Host.sample sampleConfig [] (step Host.sample sampleConfig [] (step Host.sample sampleConfig []
        (run Host.sample sampleConfig [] World.empty
          [.migrateStoreJson [] sampleStoreId 1000 .none, .start .none])
          (.recordVerifiedBackup (sampleReceipt 1 (by decide))))
          (.submit ⟨"owner", (claimOf digit createdAt).ev, none, 1000⟩ .none))
          (.recordVerifiedBackup (sampleReceipt 2 (by decide))) := by
    rw [Site.live, List.foldl_cons, List.foldl_nil, submittedEra, Site.run_act]
    simp only [run, List.foldl_cons, List.foldl_nil, Site.empty]
  rw [world]
  generalize run Host.sample sampleConfig [] World.empty
    [.migrateStoreJson [] sampleStoreId 1000 .none, .start .none] = w at serving ⊢
  obtain ⟨backed, receipt⟩ := @Serving.backup Host.sample sampleConfig [] w store _ serving
    (sampleReceipt 1 (by decide))
  generalize step Host.sample sampleConfig [] w (.recordVerifiedBackup (sampleReceipt 1 (by decide))) = w at *
  have empty : created.events.rows = [] := rows
  have writeSeq : (created.stage (genesisPayload (some [])) 1000).writeSeq = 1 := congrArg Nat.succ seq
  change (created.stage (genesisPayload (some [])) 1000).events.rows = [] at empty
  change (created.stage (genesisPayload (some [])) 1000).lastPurgeSeq = 0 at purge
  change (created.stage (genesisPayload (some [])) 1000).rateLog = [] at rate
  generalize created.stage (genesisPayload (some [])) 1000 = db at *
  have passed : Passed Host.sample w.disk store ⟨"owner", (claimOf digit createdAt).ev, none, 1000⟩
      sampleConfig ⟨db, sampleWriter, claimOf digit createdAt⟩ := by
    refine passed_of_sample backed checked receipt ?_ ?_ (by decide) (by decide) rfl ?_
    · rw [purge]
      exact Nat.zero_le _
    · rw [writeSeq]
      exact le_refl 1
    · rw [nonePurged]
      exact Finset.notMem_empty _
  have absent : db.events.find (sampleKey digit) = none := by
    refine Events.find_eq_none.mpr fun row member => ?_
    rw [empty] at member
    exact absurd member List.not_mem_nil
  have free : db.events.current (claimOf digit createdAt).key = none := by
    refine Events.current_eq_none.mpr fun row member => ?_
    rw [empty] at member
    exact absurd member List.not_mem_nil
  obtain ⟨db', accepted⟩ := Option.isSome_iff_exists.mp
    (@acceptSubmit_isSome db (claimOf digit createdAt) 1000 absent
      (by rw [rate]; exact fun _ member => by cases member))
  have submitted := submitted_of_accept accepted
  have staged : submitTx db sampleWriter (claimOf digit createdAt) none 1000 = .staged db' := by
    unfold submitTx rateCount
    rw [rate, show (claimOf digit createdAt).ev.id = sampleKey digit from rfl, absent]
    dsimp only
    rw [accepted, free]
    rfl
  obtain ⟨store', served, -, answered⟩ :=
    @Serving.submit Host.sample sampleConfig [] _ _ _ _ backed _ _ _ passed staged
  obtain ⟨again, receipt'⟩ := @Serving.backup Host.sample sampleConfig [] _ store' _ served
    (sampleReceipt 2 (by decide))
  refine ⟨store', db', ⟨w.disk, store, answered⟩, again, ?_, receipt', ?_, ?_⟩
  · exact Events.current_eq_some.mpr ⟨submitted.mem_rows.mpr (.inr rfl), rfl, rfl⟩
  · rw [submitted.lastPurge, purge]
  · rw [submitted.writeSeq, writeSeq]

/-- A signer of the sample deployment. -/
def sampleSign (t : Template) : Event :=
  { t.event with
    id := sampleKey 'f'
    sig := String.ofList (List.replicate 128 'a') }

theorem signs_sampleSign (t : Template) : Signs Host.sample t (sampleSign t) := by
  have sig : (sampleSign t).sig.toList = List.replicate 128 'a' := by
    rw [sampleSign, String.toList_ofList]
  have id : isHex64 (sampleSign t).id = true := by
    rw [show (sampleSign t).id = sampleKey 'f' from rfl]
    decide
  refine ⟨rfl, ?_, id⟩
  rw [sig]
  refine ⟨List.length_replicate, fun c member => ?_⟩
  rw [List.eq_of_mem_replicate member]
  decide

/-- What the claims of the sample deployment say. -/
def sampleParts : Parts where
  d := "hive-memory:hive:ops:deploy"
  parsedD := ⟨"hive:ops", "deploy", "hive-memory:hive:ops:deploy", none, none⟩
  parsedScope := ⟨.hiveOps, "hive:ops", none, none⟩
  body := sampleBody
  status := .active
  expiresAt := none

theorem partsOf_sample (digit : Char) (createdAt : Int) :
    partsOf (claimOf digit createdAt).ev = some sampleParts := by
  unfold partsOf
  rw [show (claimOf digit createdAt).ev.tagValue "d" = some "hive-memory:hive:ops:deploy" from rfl,
    Option.bind_eq_bind, Option.bind_some, show parseFactKey "hive-memory:hive:ops:deploy" =
      some ⟨"hive:ops", "deploy", "hive-memory:hive:ops:deploy", none, none⟩ by decide,
    Option.bind_eq_bind, Option.bind_some, show parseScope "hive:ops" =
      some ⟨.hiveOps, "hive:ops", none, none⟩ by decide, Option.bind_eq_bind, Option.bind_some,
    show Json.parse (claimOf digit createdAt).ev.content.toList = some sampleBody from Json.parse_stringify _]
  rfl

theorem checkEvent_claim900 : checkEvent Host.sample (claimOf 'b' 900).ev sampleConfig =
    .ok (claimOf 'b' 900) := by
  exact checkEvent_sampleEvent (by decide) (by decide) (by decide) (by decide) (by decide)

/-- A claim of the second 900 is withdrawn. -/
theorem withdraws_sample : ∃ store db,
    SampleStored 'b' 900 (Site.empty.live Host.sample [submittedEra 'b' 900]).world store db ∧
      Withdraws Host.sample (Site.empty.live Host.sample [submittedEra 'b' 900]).world.disk store
        (rowOf (claimOf 'b' 900) true 1000)
        { priorEvent := some (claimOf 'b' 900).ev, because := "done", memoryGlobalChannelId := sampleUuid,
          nowSec := 1000 } sampleSign "owner" 1000 .none := by
  obtain ⟨store, db, stored⟩ := sampleStored checkEvent_claim900
  refine ⟨store, db, stored, ?_⟩
  have backed : purgeBackupIncomplete db.lastPurgeSeq
      (Site.empty.live Host.sample [submittedEra 'b' 900]).world.disk.receipt = none := by
    rw [stored.purge]
    rfl
  have fresh : backupFence sampleConfig db
      (Site.empty.live Host.sample [submittedEra 'b' 900]).world.disk.receipt 1000 = none := by
    rw [stored.receipt, backupFence_eq_none, stored.writeSeq]
    exact ⟨le_refl 2, by decide, by decide⟩
  obtain ⟨parts, read, exactly_⟩ := @withdraws_iff Host.sample [submittedEra 'b' 900] sampleConfig store db
    (rowOf (claimOf 'b' 900) true 1000) "owner" sampleWriter 1000 "" "done" MEMORY_KIND 1000 sampleSign .none
    stored.serving stored.current rfl backed fresh rfl rfl
    ⟨⟨"hive:ops", "deploy", "hive-memory:hive:ops:deploy", none, none⟩,
      show parseFactKey "hive-memory:hive:ops:deploy" = _ by decide, by decide⟩
    (by decide) (.inl rfl) fun t _ => signs_sampleSign t
  obtain rfl := Option.some.inj ((partsOf_sample 'b' 900).symm.trans read)
  refine exactly_.mpr ⟨fun _ => ?_, by decide, ?_, fun _ _ => rfl⟩
  · show lowerAscii sampleUuid = sampleUuid
    decide
  · decide +kernel

/-- The last second that an event may have. -/
def lastSecond : Int := 9007199254740991

theorem checkEvent_lastSecond : checkEvent Host.sample (claimOf 'b' lastSecond).ev sampleConfig =
    .ok (claimOf 'b' lastSecond) := by
  exact checkEvent_sampleEvent (by decide) (by decide) (by decide) (by decide) (by decide)

/-- **A claim of the last second is accepted, current and active, and nothing withdraws it**: there is no
later second for its withdrawal. -/
theorem lastSecond_stays : ∃ store db,
    SampleStored 'b' lastSecond (Site.empty.live Host.sample [submittedEra 'b' lastSecond]).world store db ∧
      ∀ because nowSec t, trim because ≠ "" → buildWithdrawalTemplate Host.sample
        { priorEvent := some (claimOf 'b' lastSecond).ev, because, memoryGlobalChannelId := sampleUuid,
          nowSec } ≠ .ok t := by
  obtain ⟨store, db, stored⟩ := sampleStored checkEvent_lastSecond
  refine ⟨store, db, stored, fun because nowSec t _ built => ?_⟩
  obtain ⟨-, -, valid, -⟩ := checkEvent_iff.mp checkEvent_lastSecond
  obtain ⟨parts, accepts, -⟩ := validateMemoryEvent_eq_ok.mp valid
  obtain ⟨-, w, reads⟩ := (build_eq_ok accepts (.inl rfl)).mp built
  have safe := (of_validates reads).1
  rw [isSafeInteger, Bool.and_eq_true, decide_eq_true_eq, decide_eq_true_eq] at safe
  have late : lastSecond + 1 ≤ max nowSec (lastSecond + 1) := le_max_right _ _
  have bound : max nowSec (lastSecond + 1) ≤ 9007199254740991 := safe.2
  rw [lastSecond] at late bound
  omega

end Nvoy.Store
