/-
**Discrete approvals**: `outbound_approval.mjs`.

An approval is a signed event over one decision: the id of a request, the fingerprint of what is to
be signed for it, and a verb. Its tags name the decision's address and the digest of its body.

* `approvalUrl`, `approvalBody`, `approvalTemplate` — the decision and the event that makes it;
* `verifyOutboundApproval` — the checks of an approval, over any JSON value;
* `Approves`, `verifyOutboundApproval_eq_ok` — what passes is the signed template of that decision,
  with its three tags in some order;
* `Approves.unique`, `Approves.not_rejection` — it is the approval of one decision only, and no
  rejection.
-/

import Nvoy.Broker.Packets
import Mathlib.Data.List.Perm.Subperm

namespace Nvoy.Broker

open Admission

/-! ### Events before they are signed -/

/-- What `getEventHash` reads of an event. -/
structure Unsigned where
  pubkey : String
  createdAt : Int
  kind : Int
  tags : List (List String)
  content : String
  deriving DecidableEq

def unsigned (ev : Event) : Unsigned := ⟨ev.pubkey, ev.createdAt, ev.kind, ev.tags, ev.content⟩

/-- What an object is to `getEventHash`; it throws on one with a field of another type. -/
def unsignedOf (value : Json) : Option Unsigned := do
  let pubkey ← (value.get "pubkey").bind Json.string
  let createdAt ← (value.get "created_at").bind Json.integer
  let kind ← (value.get "kind").bind Json.integer
  let tags ← (value.get "tags").bind tagsOf
  let content ← (value.get "content").bind Json.string
  return ⟨pubkey, createdAt, kind, tags, content⟩

/-- `Object.keys(value).sort()` is the list. -/
def exactKeys (value : Json) (keys : List String) : Bool :=
  value.isObj && value.keys.insertionSort (· ≤ ·) = keys

theorem exactKeys_iff_perm {value : Json} {want : List String} (sorted : want.Pairwise (· < ·)) :
    exactKeys value want = true ↔ value.isObj = true ∧ value.keys.Perm want := by
  rw [exactKeys, Bool.and_eq_true, decide_eq_true_eq]
  have perm := List.perm_insertionSort (· ≤ ·) value.keys
  refine and_congr_right fun _ => ⟨fun same => ?_, fun same => ?_⟩
  · exact same ▸ perm.symm
  · exact (perm.trans same).eq_of_pairwise' (List.pairwise_insertionSort _ _)
      (sorted.imp fun lt => lt.le)

/-! ### The decision -/

/-- `/^[0-9a-f]{32}$/` -/
def isHex32 (text : String) : Bool := text.toList.length = 32 && text.toList.all isLowerHex

def isNameHead (c : Char) : Bool := c.isAlphanum

def isNameChar (c : Char) : Bool := c.isAlphanum || c = '.' || c = '_' || c = '-'

/-- `/^[a-z0-9][a-z0-9._-]{1,63}$/i` -/
def isInstanceName (text : String) : Bool :=
  match text.toList with
  | head :: rest =>
      isNameHead head && 1 ≤ rest.length && rest.length ≤ 63 && rest.all isNameChar
  | [] => false

/-- What `encodeURIComponent` leaves as it is. -/
def isUnreserved (c : Char) : Bool := c.isAlphanum || ['-', '_', '.', '!', '~', '*', '\'', '(', ')'].contains c

def hexUpper (n : Nat) : Char := if n < 10 then Char.ofNat (48 + n) else Char.ofNat (55 + n)

def percent (byte : UInt8) : List Char :=
  ['%', hexUpper (byte.toNat / 16), hexUpper (byte.toNat % 16)]

def encodeURIComponent (text : String) : String :=
  String.ofList (text.toList.flatMap fun c =>
    if isUnreserved c then [c] else (utf8 (String.singleton c)).flatMap percent)

/-- `fail` of the approval. -/
def refusal (message : String) : String := "outbound approval: " ++ message

def approvalUrl (named proposalId : String) : Except String String := do
  ensure (isInstanceName named) (refusal "invalid instance")
  ensure (isHex32 proposalId) (refusal "invalid proposal id")
  return "nvoy://outbound/" ++ encodeURIComponent named ++ "/" ++ proposalId

def approvalBody (proposalId fingerprint verb : String) : Except String String := do
  ensure (isHex32 proposalId) (refusal "invalid proposal id")
  ensure (isHex64 fingerprint) (refusal "invalid fingerprint")
  ensure (verb = "approve" || verb = "reject") (refusal "invalid verb")
  return Json.stringify (.obj [("proposal_id", .str proposalId), ("fingerprint", .str fingerprint),
    ("verb", .str verb)])

section Templates

variable (sha256 : String → String)

def approvalTemplate (approver named proposalId fingerprint verb : String) (createdAt : Int) :
    Except String Unsigned := do
  ensure (isHex64 approver) (refusal "invalid approver")
  let content ← approvalBody proposalId fingerprint verb
  let url ← approvalUrl named proposalId
  return ⟨approver, createdAt, 27235,
    [["u", url], ["method", "POST"], ["payload", sha256 content]], ""⟩

/-! ### The verifier -/

/-- What a verified approval says. -/
structure OutboundApproval where
  approver : String
  proposalId : String
  fingerprint : String
  approvedAt : Int
  eventId : String

def APPROVAL_KEYS : List String := ["content", "created_at", "id", "kind", "pubkey", "sig", "tags"]

def APPROVAL_TAGS : List String := ["u", "method", "payload"]

/-- Three tags of two texts each, each of another of the three names. -/
def closedTags (tags : List (List String)) : Bool :=
  tags.length = 3 && tags.all (fun tag => tag.length = 2) &&
    (tags.map fun tag => tag.headD "").Nodup && tags.all fun tag => APPROVAL_TAGS.contains (tag.headD "")

/-- The value of a name, in a list of closed tags. -/
def tagNamed (tags : List (List String)) (name : String) : Option String :=
  (tags.find? fun tag => tag.headD "" = name).bind (·[1]?)

variable (host : Host) (getEventHash : Unsigned → String)

/-- `verifyOutboundApproval` -/
def verifyOutboundApproval (event : Json) (named proposalId fingerprint : String)
    (approvers : List String) (nowMs maxAgeMs : Int) : Except String OutboundApproval := do
  ensure event.isObj (refusal "event is missing")
  ensure (exactKeys event APPROVAL_KEYS) (refusal "event schema is not closed")
  ensure (hexField event "pubkey" && includes approvers event "pubkey")
    (refusal "signer is not an authorized approver")
  let createdAt ← require ((event.get "created_at").bind Json.integer)
    (refusal "event shape is invalid")
  ensure ((event.get "kind").bind Json.integer = some 27235 &&
    (event.get "content").bind Json.string = some "") (refusal "event shape is invalid")
  let ageMs := nowMs - createdAt * 1000
  ensure (-30000 ≤ ageMs && ageMs ≤ maxAgeMs) (refusal "event is stale or future-dated")
  let tags ← require ((event.get "tags").bind tagsOf) (refusal "tag schema is not closed")
  ensure (closedTags tags) (refusal "tag schema is not closed")
  let body ← approvalBody proposalId fingerprint "approve"
  let url ← approvalUrl named proposalId
  ensure (tagNamed tags "u" = some url && tagNamed tags "method" = some "POST" &&
    tagNamed tags "payload" = some (sha256 body)) (refusal "event does not bind the exact approval body")
  let ev ← require ((wireEvent event).filter fun ev =>
    ev.id = getEventHash (unsigned ev) && host.verifyEvent ev) (refusal "signature is invalid")
  return ⟨ev.pubkey, proposalId, fingerprint, ev.createdAt, ev.id⟩

end Templates

/-! ### Tags in any order -/

/-- Of tags with different names, the one of a name is found. -/
theorem find?_of_mem {tags : List (List String)} {tag : List String}
    (nodup : (tags.map fun tag => tag.headD "").Nodup) (mem : tag ∈ tags) :
    (tags.find? fun other => other.headD "" = tag.headD "") = some tag := by
  induction tags with
  | nil => cases mem
  | cons first rest ih =>
    rw [List.map_cons, List.nodup_cons] at nodup
    rcases List.mem_cons.mp mem with rfl | mem
    · rw [List.find?_cons_of_pos (by simp)]
    · have other : ¬first.headD "" = tag.headD "" := fun same =>
        nodup.1 (same ▸ List.mem_map_of_mem mem)
      rw [List.find?_cons_of_neg (by simpa using other), ih nodup.2 mem]

theorem tagNamed_of_mem {tags : List (List String)} {name value : String}
    (nodup : (tags.map fun tag => tag.headD "").Nodup) (mem : [name, value] ∈ tags) :
    tagNamed tags name = some value := by
  have found := find?_of_mem nodup mem
  rw [tagNamed]
  rw [List.headD_cons] at found
  rw [found]
  rfl

/-- The three tags of an approval. -/
def approvalTags (url payload : String) : List (List String) :=
  [["u", url], ["method", "POST"], ["payload", payload]]

theorem nodup_approvalTags (url payload : String) :
    ((approvalTags url payload).map fun tag => tag.headD "").Nodup := by
  show APPROVAL_TAGS.Nodup
  decide

/-- **The tag checks pass the three tags of the template, in any order.** -/
theorem closedTags_iff {tags : List (List String)} {url payload : String} :
    (closedTags tags = true ∧ tagNamed tags "u" = some url ∧ tagNamed tags "method" = some "POST" ∧
      tagNamed tags "payload" = some payload) ↔ tags.Perm (approvalTags url payload) := by
  constructor
  · rintro ⟨closed, isUrl, isMethod, isPayload⟩
    simp only [closedTags, Bool.and_eq_true, decide_eq_true_eq, List.all_eq_true,
      List.contains_iff_mem] at closed
    obtain ⟨⟨⟨three, pairs⟩, nodup⟩, names⟩ := closed
    have sub : tags ⊆ approvalTags url payload := by
      intro tag mem
      obtain ⟨name, value, rfl⟩ := List.length_eq_two.mp (pairs tag mem)
      have own := tagNamed_of_mem nodup mem
      have named : name ∈ APPROVAL_TAGS := names _ mem
      simp only [APPROVAL_TAGS, List.mem_cons, List.not_mem_nil, or_false] at named
      rcases named with rfl | rfl | rfl
      · obtain rfl := Option.some.inj (own.symm.trans isUrl)
        simp [approvalTags]
      · obtain rfl := Option.some.inj (own.symm.trans isMethod)
        simp [approvalTags]
      · obtain rfl := Option.some.inj (own.symm.trans isPayload)
        simp [approvalTags]
    refine (List.subperm_of_subset (List.Nodup.of_map _ nodup) sub).perm_of_length_le ?_
    rw [three]
    exact le_refl 3
  · intro perm
    have nodup : (tags.map fun tag => tag.headD "").Nodup :=
      (perm.map _).nodup_iff.mpr (nodup_approvalTags url payload)
    have mem : ∀ {tag}, tag ∈ approvalTags url payload → tag ∈ tags := fun mem => perm.mem_iff.mpr mem
    refine ⟨?_, tagNamed_of_mem nodup (mem (by simp [approvalTags])),
      tagNamed_of_mem nodup (mem (by simp [approvalTags])),
      tagNamed_of_mem nodup (mem (by simp [approvalTags]))⟩
    simp only [closedTags, Bool.and_eq_true, decide_eq_true_eq, List.all_eq_true,
      List.contains_iff_mem]
    refine ⟨⟨⟨perm.length_eq, fun tag mem => ?_⟩, nodup⟩, fun tag mem => ?_⟩
    all_goals
      replace mem := perm.mem_iff.mp mem
      simp only [approvalTags, List.mem_cons, List.not_mem_nil, or_false] at mem
      rcases mem with rfl | rfl | rfl
    all_goals simp [APPROVAL_TAGS]

/-! ### What passes -/

/-- The same event but for the order of its tags. -/
structure Unsigned.Reorders (one other : Unsigned) : Prop where
  pubkey : one.pubkey = other.pubkey
  createdAt : one.createdAt = other.createdAt
  kind : one.kind = other.kind
  content : one.content = other.content
  tags : one.tags.Perm other.tags

section Verifier

variable {sha256 : String → String} {host : Host} {getEventHash : Unsigned → String}
  {event : Json} {named proposalId fingerprint : String} {approvers : List String}
  {nowMs maxAgeMs : Int} {approval : OutboundApproval}

/-- The event is the signed approval of that decision, by one of the approvers, made in time. -/
structure Approves (sha256 : String → String) (host : Host) (getEventHash : Unsigned → String)
    (named proposalId fingerprint : String) (approvers : List String) (nowMs maxAgeMs : Int)
    (ev : Event) : Prop where
  authorized : ev.pubkey ∈ approvers
  verified : host.verifyEvent ev = true
  own : ev.id = getEventHash (unsigned ev)
  notAhead : -30000 ≤ nowMs - ev.createdAt * 1000
  recent : nowMs - ev.createdAt * 1000 ≤ maxAgeMs
  template : ∃ template,
    approvalTemplate sha256 ev.pubkey named proposalId fingerprint "approve" ev.createdAt =
      .ok template ∧ (unsigned ev).Reorders template

theorem approvalTemplate_eq_ok {approver verb : String} {createdAt : Int} {template : Unsigned} :
    approvalTemplate sha256 approver named proposalId fingerprint verb createdAt = .ok template ↔
      isHex64 approver = true ∧ ∃ body, approvalBody proposalId fingerprint verb = .ok body ∧
        ∃ url, approvalUrl named proposalId = .ok url ∧
          ⟨approver, createdAt, 27235, approvalTags url (sha256 body), ""⟩ = template := by
  simp only [approvalTemplate, bind_eq_ok, ensure_eq_ok, exists_const, approvalTags, pure, Except.pure,
    Except.ok.injEq]

/-- **The verifier passes the signed approvals of that decision**, as objects with no other keys. -/
theorem verifyOutboundApproval_eq_ok :
    verifyOutboundApproval sha256 host getEventHash event named proposalId fingerprint approvers nowMs
        maxAgeMs = .ok approval ↔
      exactKeys event APPROVAL_KEYS = true ∧ ∃ ev, wireEvent event = some ev ∧
        Approves sha256 host getEventHash named proposalId fingerprint approvers nowMs maxAgeMs ev ∧
        ⟨ev.pubkey, proposalId, fingerprint, ev.createdAt, ev.id⟩ = approval := by
  unfold verifyOutboundApproval
  simp only [bind_eq_ok, ensure_eq_ok, require_eq_ok, exists_const, Bool.and_eq_true,
    decide_eq_true_eq, pure, Except.pure, Except.ok.injEq, Option.filter_eq_some_iff]
  constructor
  · rintro ⟨-, exact, ⟨hex, listed⟩, createdAt, time, ⟨kinded, empty⟩, ⟨notAhead, recent⟩, tags,
      tagged, closed, body, isBody, url, isUrl, ⟨⟨hasUrl, hasMethod⟩, hasPayload⟩, ev,
      ⟨wire, own, verified⟩, same⟩
    obtain ⟨-, author, time', kinded', tagged', words, -⟩ := wireEvent_eq_some.mp wire
    obtain rfl := Option.some.inj (time.symm.trans time')
    obtain rfl := Option.some.inj (tagged.symm.trans tagged')
    obtain kind := Option.some.inj (kinded.symm.trans kinded')
    rw [words] at empty
    have content : ev.content = "" := Option.some.inj empty
    rw [hexField_str author] at hex
    refine ⟨exact, ev, wire, ?_, same⟩
    constructor
    case authorized => exact List.contains_iff_mem.mp (includes_str author ▸ listed)
    case verified => exact verified
    case own => exact own
    case notAhead => exact notAhead
    case recent => exact recent
    case template =>
      refine ⟨_, approvalTemplate_eq_ok.mpr ⟨hex, body, isBody, url, isUrl, rfl⟩, ?_⟩
      exact ⟨rfl, rfl, kind.symm, content, closedTags_iff.mp ⟨closed, hasUrl, hasMethod, hasPayload⟩⟩
  · rintro ⟨exact, ev, wire, approves, same⟩
    obtain ⟨template, made, reorders⟩ := approves.template
    obtain ⟨hex, body, isBody, url, isUrl, rfl⟩ := approvalTemplate_eq_ok.mp made
    obtain ⟨-, author, time, kinded, tagged, words, -⟩ := wireEvent_eq_some.mp wire
    obtain ⟨closed, hasUrl, hasMethod, hasPayload⟩ := closedTags_iff.mpr reorders.tags
    have obj : event.isObj = true := (Bool.and_eq_true _ _ ▸ exact).1
    refine ⟨obj, exact, ⟨?_, ?_⟩, ev.createdAt, time, ⟨?_, ?_⟩, ⟨approves.notAhead, approves.recent⟩, ev.tags, tagged, closed, body, isBody, url, isUrl,
      ⟨⟨hasUrl, hasMethod⟩, hasPayload⟩, ev, ⟨wire, approves.own, approves.verified⟩, same⟩
    · rw [hexField_str author]
      exact hex
    · rw [includes_str author]
      exact List.contains_iff_mem.mpr approves.authorized
    · rw [kinded]
      exact congrArg some reorders.kind
    · rw [words]
      exact congrArg some reorders.content

end Verifier

/-! ### One decision -/

theorem isUnreserved_of_isNameChar {c : Char} (inside : isNameChar c = true) :
    isUnreserved c = true := by
  unfold isNameChar at inside
  simp only [Bool.or_eq_true, decide_eq_true_eq] at inside
  unfold isUnreserved
  rw [Bool.or_eq_true]
  rcases inside with ((alnum | rfl) | rfl) | rfl
  · exact .inl alnum
  all_goals exact .inr (by decide)

theorem isNameChar_of_mem {named : String} (form : isInstanceName named = true) :
    ∀ c ∈ named.toList, isNameChar c = true := by
  unfold isInstanceName at form
  split at form
  next head rest whole =>
    simp only [Bool.and_eq_true, List.all_eq_true] at form
    obtain ⟨⟨⟨first, -⟩, -⟩, others⟩ := form
    intro c mem
    rw [whole] at mem
    rcases List.mem_cons.mp mem with rfl | mem
    · unfold isNameHead at first
      unfold isNameChar
      rw [first]
      rfl
    · exact others c mem
  next => cases form

/-- Nothing of an instance's name is escaped. -/
theorem encodeURIComponent_name {named : String} (form : isInstanceName named = true) :
    encodeURIComponent named = named := by
  have kept : ∀ chars : List Char, (∀ c ∈ chars, isNameChar c = true) →
      chars.flatMap (fun c => if isUnreserved c then [c]
        else (utf8 (String.singleton c)).flatMap percent) = chars := by
    intro chars inside
    induction chars with
    | nil => rfl
    | cons c rest ih =>
      rw [List.flatMap_cons, if_pos (isUnreserved_of_isNameChar (inside c List.mem_cons_self)),
        ih fun d mem => inside d (List.mem_cons_of_mem _ mem)]
      rfl
  rw [encodeURIComponent, kept _ (isNameChar_of_mem form), String.ofList_toList]

theorem slash_notMem_name {named : String} (form : isInstanceName named = true) :
    '/' ∉ named.toList := fun mem => absurd (isNameChar_of_mem form _ mem) (by decide)

theorem approvalUrl_eq_ok {named proposalId url : String} :
    approvalUrl named proposalId = .ok url ↔ isInstanceName named = true ∧
      isHex32 proposalId = true ∧
        "nvoy://outbound/" ++ encodeURIComponent named ++ "/" ++ proposalId = url := by
  simp only [approvalUrl, bind_eq_ok, ensure_eq_ok, exists_const, pure, Except.pure, Except.ok.injEq]

/-- One address names one instance and one request. -/
theorem approvalUrl_inj {named named' proposalId proposalId' url : String}
    (isUrl : approvalUrl named proposalId = .ok url)
    (isUrl' : approvalUrl named' proposalId' = .ok url) : named = named' ∧ proposalId = proposalId' := by
  obtain ⟨form, hex, whole⟩ := approvalUrl_eq_ok.mp isUrl
  obtain ⟨form', -, whole'⟩ := approvalUrl_eq_ok.mp isUrl'
  rw [encodeURIComponent_name form] at whole
  rw [encodeURIComponent_name form'] at whole'
  have same := congrArg String.toList (whole.trans whole'.symm)
  simp only [String.toList_append, List.append_assoc, List.append_cancel_left_eq] at same
  replace same : named.toList ++ '/' :: proposalId.toList =
    named'.toList ++ '/' :: proposalId'.toList := same
  have digits : '/' ∉ proposalId.toList := by
    intro mem
    rw [isHex32, Bool.and_eq_true, List.all_eq_true] at hex
    exact absurd (hex.2 _ mem) (by decide)
  obtain ⟨front, -, back⟩ :=
    (List.append_cons_inj_of_notMem (slash_notMem_name form) digits).mp same
  exact ⟨String.toList_inj.mp front, String.toList_inj.mp back⟩

theorem approvalBody_eq_ok {proposalId fingerprint verb body : String} :
    approvalBody proposalId fingerprint verb = .ok body ↔ isHex32 proposalId = true ∧
      isHex64 fingerprint = true ∧ (verb = "approve" ∨ verb = "reject") ∧
        Json.stringify (.obj [("proposal_id", .str proposalId), ("fingerprint", .str fingerprint),
          ("verb", .str verb)]) = body := by
  simp only [approvalBody, bind_eq_ok, ensure_eq_ok, exists_const, pure, Except.pure, Except.ok.injEq,
    Bool.or_eq_true, decide_eq_true_eq]

/-- One body is one decision. -/
theorem approvalBody_inj {proposalId proposalId' fingerprint fingerprint' verb verb' body : String}
    (isBody : approvalBody proposalId fingerprint verb = .ok body)
    (isBody' : approvalBody proposalId' fingerprint' verb' = .ok body) :
    proposalId = proposalId' ∧ fingerprint = fingerprint' ∧ verb = verb' := by
  obtain ⟨-, -, -, whole⟩ := approvalBody_eq_ok.mp isBody
  obtain ⟨-, -, -, whole'⟩ := approvalBody_eq_ok.mp isBody'
  have same := congrArg (fun text => Json.parse (String.toList text)) (whole.trans whole'.symm)
  simp only [Json.parse_stringify] at same
  simp only [Option.some.injEq, Json.obj.injEq, List.cons.injEq, Prod.mk.injEq, Json.str.injEq,
    true_and, and_true] at same
  exact same

/-- Tags in any order hold one address and one digest. -/
theorem approvalTags_inj {tags : List (List String)} {url url' payload payload' : String}
    (perm : tags.Perm (approvalTags url payload)) (perm' : tags.Perm (approvalTags url' payload')) :
    url = url' ∧ payload = payload' := by
  obtain ⟨-, isUrl, -, isPayload⟩ := closedTags_iff.mpr perm
  obtain ⟨-, isUrl', -, isPayload'⟩ := closedTags_iff.mpr perm'
  exact ⟨Option.some.inj (isUrl.symm.trans isUrl'), Option.some.inj (isPayload.symm.trans isPayload')⟩

section Unique

variable {sha256 : String → String} {host : Host} {getEventHash : Unsigned → String} {ev : Event}
  {named named' proposalId proposalId' fingerprint fingerprint' : String}
  {approvers approvers' : List String} {nowMs nowMs' maxAgeMs maxAgeMs' : Int}

/-- **An event approves one decision only**, where no two texts share a digest. -/
theorem Approves.unique (collisionFree : Function.Injective sha256)
    (one : Approves sha256 host getEventHash named proposalId fingerprint approvers nowMs maxAgeMs ev)
    (other : Approves sha256 host getEventHash named' proposalId' fingerprint' approvers' nowMs'
      maxAgeMs' ev) : named = named' ∧ proposalId = proposalId' ∧ fingerprint = fingerprint' := by
  obtain ⟨template, made, reorders⟩ := one.template
  obtain ⟨template', made', reorders'⟩ := other.template
  obtain ⟨-, body, isBody, url, isUrl, rfl⟩ := approvalTemplate_eq_ok.mp made
  obtain ⟨-, body', isBody', url', isUrl', rfl⟩ := approvalTemplate_eq_ok.mp made'
  obtain ⟨rfl, digest⟩ := approvalTags_inj reorders.tags reorders'.tags
  obtain rfl := collisionFree digest
  obtain ⟨sameName, sameId⟩ := approvalUrl_inj isUrl isUrl'
  exact ⟨sameName, sameId, (approvalBody_inj isBody isBody').2.1⟩

/-- **A rejection approves nothing.** -/
theorem Approves.not_rejection (collisionFree : Function.Injective sha256)
    (approves : Approves sha256 host getEventHash named proposalId fingerprint approvers nowMs maxAgeMs
      ev) {approver : String} {createdAt : Int} {template : Unsigned}
    (rejects : approvalTemplate sha256 approver named' proposalId' fingerprint' "reject" createdAt =
      .ok template) : ¬(unsigned ev).Reorders template := by
  intro reorders'
  obtain ⟨template', made, reorders⟩ := approves.template
  obtain ⟨-, body, isBody, url, isUrl, rfl⟩ := approvalTemplate_eq_ok.mp made
  obtain ⟨-, body', isBody', url', isUrl', rfl⟩ := approvalTemplate_eq_ok.mp rejects
  obtain ⟨rfl, digest⟩ := approvalTags_inj reorders.tags reorders'.tags
  obtain rfl := collisionFree digest
  exact absurd (approvalBody_inj isBody isBody').2.2 (by decide)

end Unique

end Nvoy.Broker
