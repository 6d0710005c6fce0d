/-
The signed memory claim: `memory.mjs`.

* `parseScope`, `parseFactKey` — the scope of a claim and the key its `d` tag names it by;
* `memoryWritePolicy` — the rules for a new claim, never applied to a stored one;
* `validateMemoryEvent` — the rules every stored claim meets, in the order they are checked;
* `nip01Newer` — which of two versions of a key replaces the other: a strict total order on
  `(createdAt, id)`, later seconds first and lower ids first within a second.
-/

import Mathlib.Data.List.Basic
import Mathlib.Data.String.Basic
import Nvoy.Lib.Checks
import Nvoy.Lib.Json
import Nvoy.Nostr.Event

namespace Nvoy.Memory

def MEMORY_KIND : Int := 30079
def FALLBACK_MEMORY_KIND : Int := 30078
def MEMORY_D_PREFIX : String := "hive-memory:"
def MAX_TTL_SEC : Int := 30 * 86400
def DECISION_RETENTION : String := "decision"
def MAX_WORKFLOW_TTL_SEC : Int := 2 * 86400

/-! ### Texts -/

/-- The white space and line terminators that `trim` removes. -/
def isJsSpace (c : Char) : Bool :=
  (9 ≤ c.toNat && c.toNat ≤ 13) || c.toNat = 0x20 || c.toNat = 0xa0 || c.toNat = 0x1680 ||
    (0x2000 ≤ c.toNat && c.toNat ≤ 0x200a) || c.toNat = 0x2028 || c.toNat = 0x2029 ||
    c.toNat = 0x202f || c.toNat = 0x205f || c.toNat = 0x3000 || c.toNat = 0xfeff

/-- `text.trim()` -/
def trim (text : String) : String :=
  String.ofList ((text.toList.dropWhile isJsSpace).reverse.dropWhile isJsSpace).reverse

/-- Lower-casing where only ASCII letters can matter: the result is compared with an ASCII text or
tested against an ASCII pattern, and no other character lowers to a letter of one. -/
def lowerAscii (text : String) : String := String.ofList (text.toList.map Char.toLower)

theorem toLower_of_isLowerHex {c : Char} (low : isLowerHex c = true) : c.toLower = c := by
  have notUpper : ¬ (c.val ≥ 'A'.val ∧ c.val ≤ 'Z'.val) := by
    simp only [isLowerHex, Char.isDigit, ge_iff_le, Bool.or_eq_true, Bool.and_eq_true,
      decide_eq_true_eq, UInt32.le_iff_toNat_le, Char.le_def] at low ⊢
    have : '0'.val.toNat = 48 := rfl
    have : '9'.val.toNat = 57 := rfl
    have : 'a'.val.toNat = 97 := rfl
    have : 'A'.val.toNat = 65 := rfl
    have : 'Z'.val.toNat = 90 := rfl
    omega
  exact dif_neg notUpper

theorem lowerAscii_of_toLower {text : String} (low : ∀ c ∈ text.toList, c.toLower = c) :
    lowerAscii text = text := by
  have same : text.toList.map Char.toLower = text.toList := by
    conv_rhs => rw [← List.map_id text.toList]
    exact List.map_congr_left low
  rw [lowerAscii, same, String.ofList_toList]

theorem lowerAscii_of_isHex64 {text : String} (hex : isHex64 text = true) : lowerAscii text = text := by
  rw [isHex64, Bool.and_eq_true, List.all_eq_true] at hex
  exact lowerAscii_of_toLower fun c member => toLower_of_isLowerHex (hex.2 c member)

/-- What follows a prefix of the text. -/
def afterPrefix (start text : String) : Option String :=
  if start.toList.isPrefixOf text.toList then some (String.ofList (text.toList.drop start.toList.length))
  else none

def split (separator : Char) (text : String) : List String :=
  (text.toList.splitOn separator).map String.ofList

def isLowerAlnum (c : Char) : Bool := c.isDigit || ('a' ≤ c && c ≤ 'z')

/-- `UUID`, `/^[0-9a-f]{8}-[0-9a-f]{4}-[0-9a-f]{4}-[0-9a-f]{4}-[0-9a-f]{12}$/` -/
def isUuid (text : String) : Bool :=
  (text.toList.splitOn '-').map List.length = [8, 4, 4, 4, 12] &&
    (text.toList.splitOn '-').all fun part => part.all isLowerHex

/-- `SLUG`, `/^[a-z0-9][a-z0-9._-]{0,127}$/` -/
def isSlug (text : String) : Bool :=
  match text.toList with
  | [] => false
  | c :: rest => isLowerAlnum c && rest.length ≤ 127 &&
      rest.all fun c => isLowerAlnum c || c = '.' || c = '_' || c = '-'

/-- `TOPIC`, `/^[a-z0-9][a-z0-9-]{0,39}$/` -/
def isTopic (text : String) : Bool :=
  match text.toList with
  | [] => false
  | c :: rest => isLowerAlnum c && rest.length ≤ 39 && rest.all fun c => isLowerAlnum c || c = '-'

/-- `WORKFLOW_SLUG`, the pattern `-(?:review|review-status|owner|wip|handoff|status)$` -/
def isWorkflowSlug (slug : String) : Bool :=
  ["-review", "-review-status", "-owner", "-wip", "-handoff", "-status"].any fun ending =>
    ending.toList.isSuffixOf slug.toList

/-! ### Topics -/

/-- The table of aliases. The source's table is an object, which also answers for the name of an
inherited property: `constructor` finds a function, whose text is no topic. -/
def TOPIC_ALIASES : List (String × String) :=
  [("primer", "illustrated-primer"), ("illustrated_primer", "illustrated-primer"),
    ("illustrated primer", "illustrated-primer"), ("rabidrabbit", "r1"), ("rabid-rabbit", "r1"),
    ("active hive priorities (canon)", "hive-canon"), ("canon", "hive-canon"),
    ("where dj codex runs", "herd-infra"), ("armada", "herd-infra"), ("viewer-test", "hive-memory"),
    ("constructor", "function Object() \x7b [native code] \x7d")]

def normalizeMemoryTopic (topic : String) : Option String :=
  let raw := trim topic
  let mapped := (TOPIC_ALIASES.lookup (lowerAscii raw)).getD raw
  if isTopic mapped then some mapped else none

/-! ### Scopes and fact keys -/

inductive ScopeType where
  | hiveOps
  | hiveCanon
  | room
  | self
  deriving DecidableEq, Repr

structure Scope where
  type : ScopeType
  scope : String
  roomId : Option String
  pubkey : Option String
  deriving DecidableEq, Repr

def parseScope (scopeStr : String) : Option Scope :=
  if scopeStr = "hive:ops" then some ⟨.hiveOps, scopeStr, none, none⟩
  else if scopeStr = "hive:canon" then some ⟨.hiveCanon, scopeStr, none, none⟩
  else
    match afterPrefix "room:" scopeStr with
    | some rest =>
        let roomId := lowerAscii rest
        if isUuid roomId then some ⟨.room, "room:" ++ roomId, some roomId, none⟩ else none
    | none =>
        match afterPrefix "self:" scopeStr with
        | some rest =>
            let pubkey := lowerAscii rest
            if isHex64 pubkey then some ⟨.self, "self:" ++ pubkey, none, some pubkey⟩ else none
        | none => none

def formatFactKey (scopeStr slug : String) : Option String :=
  match parseScope scopeStr with
  | some parsed => if isSlug slug then some (MEMORY_D_PREFIX ++ parsed.scope ++ ":" ++ slug) else none
  | none => none

structure FactKey where
  scope : String
  slug : String
  d : String
  roomId : Option String
  pubkey : Option String
  deriving DecidableEq, Repr

/-- The key of a room or of an author, in three parts. -/
def parseOwnedKey (d rest : String) : Option FactKey :=
  match split ':' rest with
  | ["room", roomId, slug] =>
      if isUuid roomId && isSlug slug then some ⟨"room:" ++ roomId, slug, d, some roomId, none⟩
      else none
  | ["self", pubkey, slug] =>
      if isHex64 pubkey && isSlug slug then some ⟨"self:" ++ pubkey, slug, d, none, some pubkey⟩
      else none
  | _ => none

def parseFactKey (d : String) : Option FactKey :=
  match afterPrefix MEMORY_D_PREFIX d with
  | none => none
  | some rest =>
      match afterPrefix "hive:ops:" rest with
      | some slug => if isSlug slug then some ⟨"hive:ops", slug, d, none, none⟩ else none
      | none =>
          match afterPrefix "hive:canon:" rest with
          | some slug => if isSlug slug then some ⟨"hive:canon", slug, d, none, none⟩ else none
          | none => parseOwnedKey d rest

/-! ### Validation -/

inductive Status where
  | active
  | withdrawn
  deriving DecidableEq, Repr

def Status.text : Status → String
  | .active => "active"
  | .withdrawn => "withdrawn"

inductive Retention where
  | decision
  | ephemeral
  deriving DecidableEq, Repr

/-- Why an event is no memory claim. -/
structure Invalid where
  reason : String
  secret : Option String := none
  invalidSignature : Bool := false
  deriving DecidableEq, Repr

instance : Coe String Invalid := ⟨fun reason => { reason }⟩

/-- What a validated claim says. -/
structure Valid where
  pubkey : String
  d : String
  slug : String
  scope : String
  scopeType : ScopeType
  roomId : Option String
  channelId : Option String
  topic : String
  asOfGit : Option String
  asOfEvt : Option String
  expiresAt : Option Int
  retention : Retention
  supersedes : List (Option String)
  status : Status
  claim : String
  because : String
  evidence : List String
  createdAt : Int
  deriving DecidableEq, Repr

/-- `Number.isSafeInteger` of an integer. -/
def isSafeInteger (n : Int) : Bool := -9007199254740991 ≤ n && n ≤ 9007199254740991

/-- `value || null` -/
def nonEmpty (value : Option String) : Option String := value.filter (· ≠ "")

/-- A property that is a text, trimmed; the empty text for any other. -/
def trimmedField (body : Json) (key : String) : String :=
  match body.get key with
  | some (.str text) => trim text
  | _ => ""

def evidenceOf (body : Json) : List String :=
  match body.get "evidence" with
  | some (.arr items) => (items.filterMap Json.string).map trim |>.filter (· ≠ "")
  | _ => []

def statusOf (body : Json) : Option Status :=
  match body.get "status" with
  | some (.str "withdrawn") => some .withdrawn
  | some (.str "active") => some .active
  | _ => none

/-- The `h` tag fits the scope. -/
def checkRoute (memoryGlobalChannelId pubkey : String) (parsedScope : Scope) (h : Option String) :
    Except Invalid Unit :=
  match parsedScope.type with
  | .room =>
      ensure (some (lowerAscii (h.getD "")) = parsedScope.roomId)
        "room claim h tag does not match room UUID in s and d"
  | .hiveOps | .hiveCanon => do
      ensure (isUuid (lowerAscii memoryGlobalChannelId)) "memory_global_channel_id is not configured"
      ensure (lowerAscii (h.getD "") = lowerAscii memoryGlobalChannelId)
        "global claim h tag does not match memory_global_channel_id"
  | .self => do
      ensure (parsedScope.pubkey = some pubkey) "self claim scope pubkey does not match event pubkey"
      ensure h.isNone "self claims must not carry an h tag"

/-- The `exp` tag, when there is one. -/
def checkExpiry (createdAt : Int) : List (Option String) → Except Invalid (Option Int)
  | [] => .ok none
  | exp :: _ => do
      ensure (isSeconds (exp.getD "undefined")) "malformed exp tag"
      let expiresAt := numberOf (exp.getD "undefined")
      ensure (createdAt < expiresAt) "exp must be later than created_at"
      ensure (expiresAt ≤ createdAt + MAX_TTL_SEC)
        ("exp exceeds maximum 30-day TTL (" ++ toString MAX_TTL_SEC ++ "s)" : String)
      .ok (some expiresAt)

section Validation

variable (host : Host)

def checkClaimPayloadSecrets (claim because : String) (evidence : List String)
    (tags : List (List String)) : Option String :=
  (claim :: because :: evidence ++ tags.flatten).findSome? host.checkMemorySecrets

def validateMemoryEvent (memoryGlobalChannelId : String) (allowedKinds : List Int)
    (verifySignature : Bool) (ev : Event) : Except Invalid Valid := do
  ensure (allowedKinds.contains ev.kind) ("unsupported kind " ++ toString ev.kind : String)
  let pubkey := lowerAscii ev.pubkey
  ensure (isHex64 pubkey) "invalid pubkey"
  ensure (isSafeInteger ev.createdAt && 0 < ev.createdAt) "invalid created_at"
  let d ← require ((ev.tagValue "d").filter fun d => (afterPrefix MEMORY_D_PREFIX d).isSome)
    "missing or unprefixed d tag"
  let parsedD ← require (parseFactKey d) "malformed fact key in d tag"
  ensure (ev.tagValue "s" = some parsedD.scope) "s tag does not match d tag scope"
  let parsedScope ← require (parseScope parsedD.scope) "invalid scope tag"
  let h := ev.tagValue "h"
  checkRoute memoryGlobalChannelId pubkey parsedScope h
  let body ← require (Json.parse ev.content.toList) "content is not valid JSON"
  ensure body.isObj "content must be a JSON object"
  let status ← require (statusOf body) "content.status must be \"active\" or \"withdrawn\""
  let because := trimmedField body "because"
  ensure (because ≠ "") "content.because is required and must be non-empty"
  let claim := trimmedField body "claim"
  ensure (status ≠ .active || claim ≠ "") "content.claim is required for active claims"
  let evidence := evidenceOf body
  ensure (status ≠ .active || evidence ≠ [])
    "content.evidence must be a non-empty array of strings for active claims"
  let asOfGit := nonEmpty (ev.tagValue "as_of_git")
  let asOfEvt := nonEmpty (ev.tagValue "as_of_evt")
  ensure (status ≠ .active || asOfGit.isSome || asOfEvt.isSome)
    "active claims require an as_of_git or as_of_evt tag"
  ensure (asOfEvt.all fun id => isHex64 (lowerAscii id)) "as_of_evt must be a 64-hex event id"
  let expTags := ev.tagValues "exp"
  let retentionTags := ev.tagValues "retention"
  ensure (expTags.length ≤ 1) "more than one exp tag"
  ensure (retentionTags.length ≤ 1) "more than one retention tag"
  let expiresAt ← checkExpiry ev.createdAt expTags
  ensure (retentionTags.all (· = some DECISION_RETENTION)) "retention tag must be \"decision\""
  ensure (retentionTags.isEmpty || expiresAt.isNone)
    "a claim carries either an exp tag or a retention decision tag, not both"
  ensure (!(status = .active && (parsedScope.type = .hiveOps || parsedScope.type = .room) &&
      retentionTags.isEmpty && expiresAt.isNone))
    "operational and room claims require an exp tag or a retention decision tag"
  match checkClaimPayloadSecrets host claim because evidence ev.tags with
  | some hit => .error { reason := "secret guard blocked payload: " ++ hit, secret := some hit }
  | none =>
      ensure (!verifySignature || host.verifyEvent ev)
        { reason := "invalid event signature", invalidSignature := true }
      .ok {
        pubkey
        d
        slug := parsedD.slug
        scope := parsedScope.scope
        scopeType := parsedScope.type
        roomId := parsedScope.roomId
        channelId := (nonEmpty h).map lowerAscii
        topic := (nonEmpty (ev.tagValue "topic")).getD parsedD.slug
        asOfGit
        asOfEvt := asOfEvt.map lowerAscii
        expiresAt
        retention := if expiresAt.isNone then .decision else .ephemeral
        supersedes := ev.tagValues "supersedes"
        status
        claim
        because
        evidence
        createdAt := ev.createdAt
      }

end Validation

/-! ### The write policy -/

/-- An answer that refuses a request. -/
structure Refusal where
  code : String
  message : String
  deriving DecidableEq, Repr

/-- The rules for a new claim; answers the topic to store. -/
def memoryWritePolicy (v : Valid) : Except Refusal String :=
  let topic := normalizeMemoryTopic v.topic
  if v.status ≠ .active then .ok (topic.getD v.topic)
  else do
    let topic ← require topic ⟨"HIVE_MEMORY_INVALID_TOPIC",
      "topic \"" ++ String.ofList (v.topic.toList.take 60) ++ "\" is not a project slug (lowercase " ++
        "kebab-case, at most 40 characters, e.g. nvoy, herd-infra, hive-memory, r1)"⟩
    if isWorkflowSlug v.slug && v.scopeType ≠ .hiveCanon then
      let expiresAt ← require v.expiresAt ⟨"HIVE_MEMORY_INVALID_EVENT",
        "a workflow checkpoint (slug ending -review, -status, -owner, -wip or -handoff) cannot be " ++
          "a durable decision"⟩
      ensure (expiresAt ≤ v.createdAt + MAX_WORKFLOW_TTL_SEC) ⟨"HIVE_MEMORY_INVALID_EVENT",
        "a workflow checkpoint expires within 48 hours (" ++ toString MAX_WORKFLOW_TTL_SEC ++ "s)"⟩
      .ok topic
    else .ok topic

/-! ### What a validated claim keeps of its event -/

section Spec

variable {host : Host} {memoryGlobalChannelId : String} {allowedKinds : List Int}
  {verifySignature : Bool} {ev : Event} {v : Valid}

/-- What the checks of a claim read off its event. -/
structure Parts where
  d : String
  parsedD : FactKey
  parsedScope : Scope
  body : Json
  status : Status
  expiresAt : Option Int

def Parts.because (parts : Parts) : String := trimmedField parts.body "because"

def Parts.claim (parts : Parts) : String := trimmedField parts.body "claim"

def Parts.evidence (parts : Parts) : List String := evidenceOf parts.body

/-- What the validated claim says. -/
def Parts.valid (parts : Parts) (ev : Event) : Valid where
  pubkey := lowerAscii ev.pubkey
  d := parts.d
  slug := parts.parsedD.slug
  scope := parts.parsedScope.scope
  scopeType := parts.parsedScope.type
  roomId := parts.parsedScope.roomId
  channelId := (nonEmpty (ev.tagValue "h")).map lowerAscii
  topic := (nonEmpty (ev.tagValue "topic")).getD parts.parsedD.slug
  asOfGit := nonEmpty (ev.tagValue "as_of_git")
  asOfEvt := (nonEmpty (ev.tagValue "as_of_evt")).map lowerAscii
  expiresAt := parts.expiresAt
  retention := if parts.expiresAt.isNone then .decision else .ephemeral
  supersedes := ev.tagValues "supersedes"
  status := parts.status
  claim := parts.claim
  because := parts.because
  evidence := parts.evidence
  createdAt := ev.createdAt

/-- Every check of a claim, on its parts. -/
structure Accepts (host : Host) (memoryGlobalChannelId : String) (allowedKinds : List Int)
    (verifySignature : Bool) (ev : Event) (parts : Parts) : Prop where
  kind : allowedKinds.contains ev.kind = true
  pubkey : isHex64 (lowerAscii ev.pubkey) = true
  createdAt : isSafeInteger ev.createdAt = true ∧ 0 < ev.createdAt
  tagged : (ev.tagValue "d").filter (fun d => (afterPrefix MEMORY_D_PREFIX d).isSome) = some parts.d
  parsed : parseFactKey parts.d = some parts.parsedD
  scope : ev.tagValue "s" = some parts.parsedD.scope
  parsedScope : parseScope parts.parsedD.scope = some parts.parsedScope
  route : checkRoute memoryGlobalChannelId (lowerAscii ev.pubkey) parts.parsedScope (ev.tagValue "h") = .ok ()
  content : Json.parse ev.content.toList = some parts.body
  object : parts.body.isObj = true
  status : statusOf parts.body = some parts.status
  because : parts.because ≠ ""
  claim : parts.status = .active → parts.claim ≠ ""
  evidence : parts.status = .active → parts.evidence ≠ []
  anchor : parts.status = .active → (nonEmpty (ev.tagValue "as_of_git")).isSome = true ∨
    (nonEmpty (ev.tagValue "as_of_evt")).isSome = true
  asOfEvt : (nonEmpty (ev.tagValue "as_of_evt")).all (fun id => isHex64 (lowerAscii id)) = true
  expTags : (ev.tagValues "exp").length ≤ 1
  retentionTags : (ev.tagValues "retention").length ≤ 1
  expiry : checkExpiry ev.createdAt (ev.tagValues "exp") = .ok parts.expiresAt
  retention : (ev.tagValues "retention").all (· = some DECISION_RETENTION) = true
  exclusive : ((ev.tagValues "retention").isEmpty || parts.expiresAt.isNone) = true
  lasting : (!(parts.status = .active && (parts.parsedScope.type = .hiveOps || parts.parsedScope.type = .room) &&
    (ev.tagValues "retention").isEmpty && parts.expiresAt.isNone)) = true
  clean : checkClaimPayloadSecrets host parts.claim parts.because parts.evidence ev.tags = none
  signed : verifySignature = true → host.verifyEvent ev = true

/-- **What a claim is valid for**: every check, and the claim it says. -/
theorem validateMemoryEvent_eq_ok :
    validateMemoryEvent host memoryGlobalChannelId allowedKinds verifySignature ev = .ok v ↔
      ∃ parts, Accepts host memoryGlobalChannelId allowedKinds verifySignature ev parts ∧
        parts.valid ev = v := by
  unfold validateMemoryEvent
  simp only [bind_eq_ok, ensure_eq_ok, require_eq_ok, exists_const, Bool.and_eq_true, decide_eq_true_eq,
    Bool.or_eq_true]
  constructor
  · rintro ⟨kind, pubkey, createdAt, d, tagged, parsedD, parsed, scope, parsedScope, scoped_, ⟨⟩, route, body, content,
      object, status, stated, because, claim, evidence, anchor, asOfEvt, expTags, retentionTags, expiresAt,
      expiry, retention, exclusive, lasting, rest⟩
    cases hit : checkClaimPayloadSecrets host (trimmedField body "claim") (trimmedField body "because")
        (evidenceOf body) ev.tags with
    | some name =>
        rw [hit] at rest
        cases rest
    | none =>
        rw [hit] at rest
        simp only [bind_eq_ok, ensure_eq_ok, exists_const] at rest
        refine ⟨⟨d, parsedD, parsedScope, body, status, expiresAt⟩, ?_, Except.ok.inj rest.2⟩
        exact {
          kind
          pubkey
          createdAt
          tagged
          parsed
          scope
          parsedScope := scoped_
          route
          content
          object
          status := stated
          because
          claim := fun active => claim.resolve_left (not_not.mpr active)
          evidence := fun active => evidence.resolve_left (not_not.mpr active)
          anchor := fun active => anchor.elim (fun other => other.elim (fun no => absurd active no) .inl) .inr
          asOfEvt
          expTags
          retentionTags
          expiry
          retention
          exclusive := by simpa using exclusive
          lasting
          clean := hit
          signed := fun signs => by simpa [signs] using rest.1 }
  · rintro ⟨parts, accepts, rfl⟩
    refine ⟨accepts.kind, accepts.pubkey, accepts.createdAt, parts.d, accepts.tagged, parts.parsedD,
      accepts.parsed, accepts.scope, parts.parsedScope, accepts.parsedScope, (), accepts.route, parts.body,
      accepts.content, accepts.object, parts.status, accepts.status, accepts.because,
      or_iff_not_imp_left.mpr fun active => accepts.claim (not_not.mp active),
      or_iff_not_imp_left.mpr fun active => accepts.evidence (not_not.mp active), ?_, accepts.asOfEvt,
      accepts.expTags, accepts.retentionTags, parts.expiresAt, accepts.expiry, accepts.retention,
      by simpa using accepts.exclusive, accepts.lasting, ?_⟩
    · by_cases active : parts.status = .active
      · exact (accepts.anchor active).elim (fun git => .inl (.inr git)) .inr
      · exact .inl (.inl active)
    · rw [show checkClaimPayloadSecrets host (trimmedField parts.body "claim")
        (trimmedField parts.body "because") (evidenceOf parts.body) ev.tags = none from accepts.clean]
      simp only [bind_eq_ok, ensure_eq_ok, exists_const]
      refine ⟨?_, rfl⟩
      cases signs : verifySignature with
      | false => rfl
      | true => simpa using accepts.signed signs

/-- The fields of a validated claim that the event itself carries. -/
structure Reads (ev : Event) (v : Valid) : Prop where
  pubkey : v.pubkey = lowerAscii ev.pubkey
  key : ev.tagValue "d" = some v.d
  parsed : ∃ parsed, parseFactKey v.d = some parsed ∧ parsed.slug = v.slug ∧
    ∃ scope, parseScope parsed.scope = some scope ∧ scope.scope = v.scope ∧
      scope.type = v.scopeType ∧ scope.roomId = v.roomId
  createdAt : v.createdAt = ev.createdAt
  positive : 0 < ev.createdAt

theorem reads_of_valid
    (valid : validateMemoryEvent host memoryGlobalChannelId allowedKinds verifySignature ev = .ok v) :
    Reads ev v := by
  obtain ⟨parts, accepts, rfl⟩ := validateMemoryEvent_eq_ok.mp valid
  exact ⟨rfl, (Option.filter_eq_some_iff.mp accepts.tagged).1, ⟨parts.parsedD, accepts.parsed, rfl,
    parts.parsedScope, accepts.parsedScope, rfl, rfl, rfl⟩, rfl, accepts.createdAt.2⟩

theorem lt_of_checkExpiry {createdAt expiresAt : Int} {tags : List (Option String)}
    (checked : checkExpiry createdAt tags = .ok (some expiresAt)) : createdAt < expiresAt := by
  cases tags with
  | nil => cases checked
  | cons exp tags =>
      unfold checkExpiry at checked
      simp only [bind_eq_ok, ensure_eq_ok, exists_const, decide_eq_true_eq] at checked
      obtain ⟨-, later, -, built⟩ := checked
      obtain rfl := Option.some.inj (Except.ok.inj built)
      exact later

/-- A claim expires after the second it was made in. -/
theorem expires_of_valid
    (valid : validateMemoryEvent host memoryGlobalChannelId allowedKinds verifySignature ev = .ok v)
    {expiresAt : Int} (expires : v.expiresAt = some expiresAt) : ev.createdAt < expiresAt := by
  obtain ⟨parts, accepts, rfl⟩ := validateMemoryEvent_eq_ok.mp valid
  have expiry := accepts.expiry
  rw [show parts.expiresAt = some expiresAt from expires] at expiry
  exact lt_of_checkExpiry expiry

end Spec

/-! ### Versions of a key -/

/-- What decides between two versions of a key. -/
structure Version where
  createdAt : Int
  id : String
  deriving DecidableEq, Repr

/-- NIP-01: the later second wins, and within a second the lowest id. -/
def nip01Newer (candidate : Version) : Option Version → Bool
  | none => true
  | some existing =>
      if candidate.createdAt ≠ existing.createdAt then existing.createdAt < candidate.createdAt
      else candidate.id < existing.id

namespace Version

variable {a b c : Version}

/-- `a` replaces `b`. -/
def Newer (a b : Version) : Prop := nip01Newer a (some b) = true

theorem newer_iff : a.Newer b ↔
    b.createdAt < a.createdAt ∨ (a.createdAt = b.createdAt ∧ a.id < b.id) := by
  unfold Newer nip01Newer
  dsimp only
  split_ifs with differ
  · simp [differ]
  · push Not at differ
    simp [differ]

theorem newer_irrefl (a : Version) : ¬ a.Newer a := by
  simp [newer_iff]

theorem Newer.trans (first : a.Newer b) (second : b.Newer c) : a.Newer c := by
  rw [newer_iff] at first second ⊢
  rcases first with later | ⟨same, lower⟩
  · rcases second with later' | ⟨same', -⟩
    · exact Or.inl (later'.trans later)
    · exact Or.inl (same' ▸ later)
  · rcases second with later' | ⟨same', lower'⟩
    · exact Or.inl (same ▸ later')
    · exact Or.inr ⟨same.trans same', lower.trans lower'⟩

theorem Newer.asymm (first : a.Newer b) : ¬ b.Newer a :=
  fun second => newer_irrefl a (first.trans second)

/-- Of two versions with different ids, one replaces the other. -/
theorem newer_total (differ : a.id ≠ b.id) : a.Newer b ∨ b.Newer a := by
  rw [newer_iff, newer_iff]
  rcases lt_trichotomy a.createdAt b.createdAt with less | same | more
  · exact Or.inr (Or.inl less)
  · rcases lt_or_gt_of_ne differ with lower | higher
    · exact Or.inl (Or.inr ⟨same, lower⟩)
    · exact Or.inr (Or.inr ⟨same.symm, higher⟩)
  · exact Or.inl (Or.inl more)

end Version

end Nvoy.Memory
