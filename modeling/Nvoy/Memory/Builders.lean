/-
The builders of claims: `routeTags`, `buildClaimTemplate` and `buildWithdrawalTemplate` of `memory.mjs`.

* `Template` — an unsigned event;
* `routeTags`, `buildClaimTemplate`, `buildWithdrawalTemplate` — the builders, in the order of their checks;
* `trim_trim` — a trimmed text is its own trim, so what was read off a claim is read back unchanged.
-/

import Mathlib.Data.List.DropRight
import Nvoy.Memory.Claim

namespace Nvoy.Memory

/-! ### Templates -/

/-- An unsigned event. -/
structure Template where
  kind : Int
  pubkey : String
  createdAt : Int
  tags : List (List String)
  content : String
  deriving DecidableEq, Repr

/-- The template as it is validated: neither an id nor a signature is read. -/
def Template.event (t : Template) : Event := ⟨"", t.pubkey, t.createdAt, t.kind, t.tags, t.content, ""⟩

def routeTags (parsedScope : Scope) (memoryGlobalChannelId verb : String) :
    Except String (List (List String)) :=
  match parsedScope.type with
  | .room => .ok [["h", parsedScope.roomId.getD "undefined"]]
  | .hiveOps | .hiveCanon =>
      if isUuid (lowerAscii memoryGlobalChannelId) then .ok [["h", lowerAscii memoryGlobalChannelId]]
      else .error ("memory_global_channel_id is required to " ++ verb ++ " global claims")
  | .self => .ok []

/-! ### Claims -/

def WORKFLOW_TTL_SEC : Int := 86400
def DEFAULT_TTL_SEC : Int := 14 * 86400

/-- What a claim is built from; the second of `nowSec` is always given. -/
structure ClaimArgs where
  pubkey : String
  scope : String
  slug : String
  topic : Option String := none
  claim : String
  because : String
  evidence : List String
  asOfGit : Option String := none
  asOfEvt : Option String := none
  ttlSec : Option Int := none
  supersedes : List String := []
  memoryGlobalChannelId : String := ""
  kind : Int := MEMORY_KIND
  nowSec : Int
  priorCreatedAt : Int := 0

/-- The body of a claim. -/
def claimBody (args : ClaimArgs) : Json :=
  .obj [("claim", .str (trim args.claim)), ("because", .str (trim args.because)),
    ("evidence", .arr (((args.evidence.map trim).filter (· ≠ "")).map .str)), ("status", .str "active")]

namespace ClaimArgs

def createdAt (args : ClaimArgs) : Int :=
  max args.nowSec (if isSafeInteger args.priorCreatedAt then args.priorCreatedAt + 1 else 0)

def workflow (args : ClaimArgs) (parsedScope : Scope) : Bool :=
  isWorkflowSlug args.slug && parsedScope.type ≠ .hiveCanon

/-- The time to live that is asked for. -/
def askedTtl (args : ClaimArgs) (parsedScope : Scope) : Int :=
  args.ttlSec.getD (if args.workflow parsedScope then WORKFLOW_TTL_SEC else DEFAULT_TTL_SEC)

def effectiveTtl (args : ClaimArgs) (parsedScope : Scope) : Int :=
  if args.workflow parsedScope then min (args.askedTtl parsedScope) MAX_WORKFLOW_TTL_SEC
  else args.askedTtl parsedScope

/-- The tags of a claim before the one of its lifetime. -/
def leadingTags (args : ClaimArgs) (parsedScope : Scope) (topic : String) (route : List (List String)) :
    List (List String) :=
  ["d", (formatFactKey parsedScope.scope args.slug).getD ""] :: route ++
    [["s", parsedScope.scope], ["topic", topic]] ++
    ((nonEmpty args.asOfGit).toList.map (["as_of_git", ·]) ++
      (nonEmpty args.asOfEvt).toList.map (["as_of_evt", lowerAscii ·]))

/-- The tags of a claim after the one of its lifetime. -/
def trailingTags (args : ClaimArgs) : List (List String) :=
  (args.supersedes.filter (· ≠ "")).map (["supersedes", ·])

end ClaimArgs

/-- The tag of the lifetime of a claim. -/
def lifetimeTag (createdAt ttl : Int) : List String :=
  if ttl = 0 then ["retention", DECISION_RETENTION] else ["exp", toString (createdAt + ttl)]

/-- The template of a claim. -/
def claimTemplate (args : ClaimArgs) (parsedScope : Scope) (topic : String) (route : List (List String)) :
    Template where
  kind := args.kind
  pubkey := lowerAscii args.pubkey
  createdAt := args.createdAt
  tags := args.leadingTags parsedScope topic route ++
    lifetimeTag args.createdAt (args.effectiveTtl parsedScope) :: args.trailingTags
  content := Json.stringify (claimBody args)

section Claims

variable (host : Host)

def buildClaimTemplate (args : ClaimArgs) : Except String Template := do
  let parsedScope ← require (parseScope args.scope) ("invalid scope: " ++ args.scope)
  ensure (isSlug args.slug) ("invalid fact slug: " ++ args.slug)
  ensure (0 ≤ args.askedTtl parsedScope && args.askedTtl parsedScope ≤ MAX_TTL_SEC)
    ("ttlSec must be 0 (a durable decision) or 1.." ++ toString MAX_TTL_SEC)
  ensure (!(args.workflow parsedScope && args.askedTtl parsedScope = 0))
    (args.slug ++ " is a workflow checkpoint (slug ending -review, " ++
      "-status, -owner, -wip or -handoff) and cannot be a durable decision")
  let topic := (nonEmpty args.topic).getD args.slug
  let cleanTopic ← require (normalizeMemoryTopic topic) ("topic \"" ++ String.ofList (topic.toList.take 60) ++
    "\" is not a project slug (lowercase kebab-case, at most 40 characters); set topic, e.g. nvoy or herd-infra")
  let route ← routeTags parsedScope args.memoryGlobalChannelId "write"
  let template := claimTemplate args parsedScope cleanTopic route
  let check ← (validateMemoryEvent host args.memoryGlobalChannelId [MEMORY_KIND, FALLBACK_MEMORY_KIND] false
    template.event).mapError Invalid.reason
  let _ ← (memoryWritePolicy check).mapError Refusal.message
  .ok template

end Claims

/-! ### Withdrawals -/

/-- What a withdrawal is built from; the second of `nowSec` is always given. -/
structure WithdrawalArgs where
  pubkey : String := ""
  priorEvent : Option Event
  scope : Option String := none
  slug : Option String := none
  because : String
  memoryGlobalChannelId : String := ""
  kind : Int := MEMORY_KIND
  nowSec : Int

/-- The body of a withdrawal. -/
def withdrawnBody (because : String) (evidence : List String) : Json :=
  .obj [("claim", .str ""), ("because", .str (trim because)), ("evidence", .arr (evidence.map .str)),
    ("status", .str "withdrawn")]

section Builders

variable (host : Host)

def buildWithdrawalTemplate (args : WithdrawalArgs) : Except String Template := do
  let priorCheck := args.priorEvent.bind fun prior => (validateMemoryEvent host args.memoryGlobalChannelId
    [MEMORY_KIND, FALLBACK_MEMORY_KIND] false prior).toOption
  let targetScope := priorCheck.elim args.scope fun check => some check.scope
  let targetSlug := priorCheck.elim args.slug fun check => some check.slug
  let parsedScope ← require (parseScope (targetScope.getD ""))
    ("invalid scope: " ++ targetScope.getD "undefined")
  let d ← require (formatFactKey parsedScope.scope (targetSlug.getD ""))
    ("invalid slug: " ++ targetSlug.getD "undefined")
  -- strictly later than the claim it withdraws, so that a tombstone of the same second never loses a tie
  let createdAt := max args.nowSec (args.priorEvent.elim 0 Event.createdAt + 1)
  let route ← routeTags parsedScope args.memoryGlobalChannelId "withdraw"
  let topic := priorCheck.elim (targetSlug.getD "") Valid.topic
  let tags := ["d", d] :: route ++ [["s", parsedScope.scope], ["topic", topic]]
  let prior := args.priorEvent
  let replacement : Template := {
    kind := ((prior.map Event.kind).filter (· ≠ 0)).getD args.kind
    pubkey := lowerAscii ((nonEmpty (some args.pubkey)).getD ((prior.map Event.pubkey).getD ""))
    createdAt
    tags
    content := Json.stringify (withdrawnBody args.because (priorCheck.elim [] Valid.evidence)) }
  let _ ← (validateMemoryEvent host args.memoryGlobalChannelId [MEMORY_KIND, FALLBACK_MEMORY_KIND] false
    replacement.event).mapError Invalid.reason
  .ok replacement

end Builders

/-! ### What a claim is built from -/

section Drafts

variable {host : Host} {args : ClaimArgs} {parsedScope : Scope} {topic : String} {route : List (List String)}
  {t : Template}

/-- What is checked of a claim before its event: the seconds it is built at play no part. -/
structure Drafts (args : ClaimArgs) (parsedScope : Scope) (topic : String) (route : List (List String)) :
    Prop where
  scope : parseScope args.scope = some parsedScope
  slug : isSlug args.slug = true
  ttl : 0 ≤ args.askedTtl parsedScope ∧ args.askedTtl parsedScope ≤ MAX_TTL_SEC
  expires : ¬ (args.workflow parsedScope = true ∧ args.askedTtl parsedScope = 0)
  topic : normalizeMemoryTopic ((nonEmpty args.topic).getD args.slug) = some topic
  route : routeTags parsedScope args.memoryGlobalChannelId "write" = .ok route

theorem Drafts.later (drafts : Drafts args parsedScope topic route) (nowSec priorCreatedAt : Int) :
    Drafts { args with
      nowSec
      priorCreatedAt } parsedScope topic route :=
  ⟨drafts.scope, drafts.slug, drafts.ttl, drafts.expires, drafts.topic, drafts.route⟩

/-- **What the builder answers**: the template, where its event validates and meets the write policy. -/
theorem buildClaimTemplate_eq_ok : buildClaimTemplate host args = .ok t ↔
    ∃ parsedScope topic route, Drafts args parsedScope topic route ∧
      claimTemplate args parsedScope topic route = t ∧ ∃ check,
        validateMemoryEvent host args.memoryGlobalChannelId [MEMORY_KIND, FALLBACK_MEMORY_KIND] false t.event =
          .ok check ∧ ∃ stored, memoryWritePolicy check = .ok stored := by
  unfold buildClaimTemplate
  simp only [bind_eq_ok, require_eq_ok, ensure_eq_ok, mapError_eq_ok, exists_const, Bool.and_eq_true,
    Bool.not_eq_true', Bool.and_eq_false_iff, decide_eq_true_eq, decide_eq_false_iff_not]
  constructor
  · rintro ⟨parsedScope, scope, slug, ttl, expires, topic, cleaned, route, routed, check, valid, stored,
      policy, built⟩
    obtain rfl := Except.ok.inj built
    refine ⟨parsedScope, topic, route, ⟨scope, slug, ttl, ?_, cleaned, routed⟩, rfl, check, valid, stored,
      policy⟩
    rintro ⟨workflow, zero⟩
    exact expires.elim (fun other => by rw [workflow] at other; cases other) fun other => other zero
  · rintro ⟨parsedScope, topic, route, drafts, rfl, check, valid, stored, policy⟩
    refine ⟨parsedScope, drafts.scope, drafts.slug, drafts.ttl, ?_, topic, drafts.topic, route, drafts.route,
      check, valid, stored, policy, rfl⟩
    cases workflow : args.workflow parsedScope with
    | false => exact .inl rfl
    | true => exact .inr fun zero => drafts.expires ⟨workflow, zero⟩

/-- The time to live that is in effect. -/
theorem Drafts.effective (drafts : Drafts args parsedScope topic route) :
    0 ≤ args.effectiveTtl parsedScope ∧ args.effectiveTtl parsedScope ≤ MAX_TTL_SEC ∧
      (args.workflow parsedScope = true → 0 < args.effectiveTtl parsedScope ∧
        args.effectiveTtl parsedScope ≤ MAX_WORKFLOW_TTL_SEC) := by
  obtain ⟨low, high⟩ := drafts.ttl
  have maxima : MAX_TTL_SEC = 2592000 ∧ MAX_WORKFLOW_TTL_SEC = 172800 := by decide
  unfold ClaimArgs.effectiveTtl
  cases workflow : args.workflow parsedScope with
  | false => exact ⟨low, high, nofun⟩
  | true =>
      have asked : args.askedTtl parsedScope ≠ 0 := fun zero => drafts.expires ⟨workflow, zero⟩
      rw [if_pos rfl]
      omega

end Drafts

/-! ### The write policy, and another time -/

section Retimed

variable {host : Host} {channel channel' : String} {kinds : List Int} {ev ev' : Event} {parts : Parts}
  {expiresAt : Option Int}

/-- **What meets the write policy.** -/
theorem memoryWritePolicy_eq_ok {v : Valid} : (∃ topic, memoryWritePolicy v = .ok topic) ↔
    (v.status = .active → (normalizeMemoryTopic v.topic).isSome = true ∧
      (isWorkflowSlug v.slug = true → v.scopeType ≠ .hiveCanon →
        ∃ expiresAt, v.expiresAt = some expiresAt ∧ expiresAt ≤ v.createdAt + MAX_WORKFLOW_TTL_SEC)) := by
  unfold memoryWritePolicy
  dsimp only
  split_ifs with withdrawn workflow
  · exact ⟨fun _ active => absurd active withdrawn, fun _ => ⟨_, rfl⟩⟩
  · have active := not_not.mp withdrawn
    rw [Bool.and_eq_true, decide_eq_true_eq] at workflow
    simp only [bind_eq_ok, require_eq_ok, ensure_eq_ok, exists_const, decide_eq_true_eq]
    constructor
    · rintro ⟨_, topic, cleaned, expiresAt, expires, soon, -⟩ -
      exact ⟨by rw [cleaned]; rfl, fun _ _ => ⟨expiresAt, expires, soon⟩⟩
    · intro meets
      obtain ⟨clean, short⟩ := meets active
      obtain ⟨topic, cleaned⟩ := Option.isSome_iff_exists.mp clean
      obtain ⟨expiresAt, expires, soon⟩ := short workflow.1 workflow.2
      exact ⟨topic, topic, cleaned, expiresAt, expires, soon, rfl⟩
  · have active := not_not.mp withdrawn
    rw [Bool.and_eq_true, decide_eq_true_eq] at workflow
    simp only [bind_eq_ok, require_eq_ok]
    constructor
    · rintro ⟨_, topic, cleaned, -⟩ -
      exact ⟨by rw [cleaned]; rfl, fun slug scope => absurd ⟨slug, scope⟩ workflow⟩
    · intro meets
      obtain ⟨topic, cleaned⟩ := Option.isSome_iff_exists.mp (meets active).1
      exact ⟨topic, topic, cleaned, rfl⟩

/-- The same event at another time: only its seconds and its expiry may differ. -/
structure Retimed (ev ev' : Event) : Prop where
  kind : ev'.kind = ev.kind
  pubkey : ev'.pubkey = ev.pubkey
  content : ev'.content = ev.content
  tagValue : ∀ name, name ≠ "exp" → ev'.tagValue name = ev.tagValue name
  tagValues : ∀ name, name ≠ "exp" → ev'.tagValues name = ev.tagValues name

/-- **A room claim stays acceptable at another time**, in any channel, where its new seconds and expiry are
and the guard passes what it then says. -/
theorem accepts_retimed (retimed : Retimed ev ev') (accepts : Accepts host channel kinds false ev parts)
    (room : parts.parsedScope.type = .room)
    (createdAt : isSafeInteger ev'.createdAt = true ∧ 0 < ev'.createdAt)
    (single : (ev'.tagValues "exp").length ≤ 1)
    (expiry : checkExpiry ev'.createdAt (ev'.tagValues "exp") = .ok expiresAt)
    (same : expiresAt.isNone = parts.expiresAt.isNone)
    (clean : ∀ text ∈ ev'.tags.flatten, host.checkMemorySecrets text = none) :
    Accepts host channel' kinds false ev' { parts with expiresAt } := by
  have value := fun name other => retimed.tagValue name other
  have values := fun name other => retimed.tagValues name other
  have said := accepts.clean
  refine {
    kind := by rw [retimed.kind]; exact accepts.kind
    pubkey := by rw [retimed.pubkey]; exact accepts.pubkey
    createdAt
    tagged := by rw [value "d" (by decide)]; exact accepts.tagged
    parsed := accepts.parsed
    scope := by rw [value "s" (by decide)]; exact accepts.scope
    parsedScope := accepts.parsedScope
    route := ?_
    content := by rw [retimed.content]; exact accepts.content
    object := accepts.object
    status := accepts.status
    because := accepts.because
    claim := accepts.claim
    evidence := accepts.evidence
    anchor := by rw [value "as_of_git" (by decide), value "as_of_evt" (by decide)]; exact accepts.anchor
    asOfEvt := by rw [value "as_of_evt" (by decide)]; exact accepts.asOfEvt
    expTags := single
    retentionTags := by rw [values "retention" (by decide)]; exact accepts.retentionTags
    expiry
    retention := by rw [values "retention" (by decide)]; exact accepts.retention
    exclusive := by rw [values "retention" (by decide)]; rw [same]; exact accepts.exclusive
    lasting := by rw [values "retention" (by decide)]; rw [same]; exact accepts.lasting
    clean := ?_
    signed := nofun }
  · have route := accepts.route
    unfold checkRoute at route ⊢
    rw [room] at route
    rw [room, value "h" (by decide)]
    exact route
  · unfold checkClaimPayloadSecrets at said ⊢
    rw [List.findSome?_eq_none_iff] at said ⊢
    intro text member
    rcases List.mem_append.mp member with spoken | tagged
    · exact said text (List.mem_append_left _ spoken)
    · exact clean text tagged

end Retimed

/-! ### Expiry tags -/

section Expiry

variable {before after : List (List String)} {first second name : String} {ev ev' : Event}

theorem toList_toString (n : Nat) : (toString (n : Int)).toList = Nat.toDigits 10 n :=
  String.toList_ofList

/-- A second is written in at most twelve digits before the second `10 ^ 12`. -/
theorem isSeconds_toString {n : Int} (low : 0 ≤ n) : isSeconds (toString n) = true ↔ n < 10 ^ 12 := by
  obtain ⟨n, rfl⟩ := Int.eq_ofNat_of_zero_le low
  have filled : 1 ≤ (Nat.toDigits 10 n).length := Nat.length_toDigits_pos
  have digits : ((Nat.toDigits 10 n).all Char.isDigit) = true :=
    List.all_eq_true.mpr (Json.isDigit_toDigits n)
  rw [isSeconds, toList_toString, digits, Bool.and_true, Bool.and_eq_true, decide_eq_true_eq,
    decide_eq_true_eq, and_iff_right filled, Nat.length_toDigits_le_iff (by decide) (by decide)]
  omega

theorem numberOf_toString {n : Int} (low : 0 ≤ n) : numberOf (toString n) = n := by
  obtain ⟨n, rfl⟩ := Int.eq_ofNat_of_zero_le low
  rw [numberOf, toList_toString, Nat.ofDigitChars_ten_toDigits]
  rfl

/-- **When an expiry is well formed**: before the second `10 ^ 12`, and after the claim by thirty days at
most. -/
theorem checkExpiry_toString {createdAt ttl : Int} (low : 0 ≤ createdAt) (positive : 0 < ttl)
    (short : ttl ≤ MAX_TTL_SEC) {expiresAt : Option Int} :
    checkExpiry createdAt [some (toString (createdAt + ttl))] = .ok expiresAt ↔
      createdAt + ttl < 10 ^ 12 ∧ some (createdAt + ttl) = expiresAt := by
  have later : 0 ≤ createdAt + ttl := by omega
  unfold checkExpiry
  simp only [bind_eq_ok, ensure_eq_ok, exists_const, decide_eq_true_eq, Option.getD_some,
    isSeconds_toString later, numberOf_toString later, Except.ok.injEq]
  constructor
  · rintro ⟨small, -, -, same⟩
    exact ⟨small, same⟩
  · rintro ⟨small, same⟩
    exact ⟨small, by omega, by omega, same⟩

/-- The values of a tag, where another tag stands in the middle of the tags. -/
theorem tagValue_other (tags : ev.tags = before ++ ["exp", first] :: after)
    (tags' : ev'.tags = before ++ ["exp", second] :: after) (other : name ≠ "exp") :
    ev'.tagValue name = ev.tagValue name ∧ ev'.tagValues name = ev.tagValues name := by
  have skips : ∀ value : String, (decide ((["exp", value] : List String)[0]? = some name)) = false :=
    fun value => decide_eq_false fun same => other (Option.some.inj same).symm
  constructor
  · unfold Event.tagValue Event.tag
    rw [tags, tags', List.find?_append, List.find?_append, List.find?_cons, List.find?_cons, skips, skips]
  · unfold Event.tagValues
    rw [tags, tags', List.filter_append, List.filter_append, List.filter_cons, List.filter_cons, skips, skips]
    rfl

end Expiry

/-! ### A claim at another time -/

section Later

variable {host : Host} {channel channel' : String} {kinds : List Int} {args : ClaimArgs} {parsedScope : Scope}
  {topic room : String} {route : List (List String)} {parts : Parts} {nowSec priorCreatedAt : Int}

/-- A room claim carries its lifetime in one place. -/
theorem tagValues_exp_claim : (claimTemplate args parsedScope topic [["h", room]]).event.tagValues "exp" =
    if args.effectiveTtl parsedScope = 0 then []
    else [some (toString (args.createdAt + args.effectiveTtl parsedScope))] := by
  have leading : (args.leadingTags parsedScope topic [["h", room]]).filter (fun t => t[0]? = some "exp") = [] := by
    simp [ClaimArgs.leadingTags, List.filter_append]
  have trailing : args.trailingTags.filter (fun t => t[0]? = some "exp") = [] := by
    refine List.filter_eq_nil_iff.mpr fun tag member => ?_
    obtain ⟨id, -, rfl⟩ := List.mem_map.mp member
    simp
  unfold Event.tagValues Template.event claimTemplate lifetimeTag
  dsimp only
  rw [List.filter_append, List.filter_cons, leading, trailing]
  by_cases zero : args.effectiveTtl parsedScope = 0
  · rw [if_pos zero, if_pos zero]
    rfl
  · rw [if_neg zero, if_neg zero]
    rfl

theorem retimed_claim : Retimed (claimTemplate args parsedScope topic [["h", room]]).event
    (claimTemplate { args with
      nowSec
      priorCreatedAt } parsedScope topic [["h", room]]).event := by
  have same : ∀ createdAt, args.effectiveTtl parsedScope = 0 →
      lifetimeTag createdAt (args.effectiveTtl parsedScope) = ["retention", DECISION_RETENTION] :=
    fun _ zero => if_pos zero
  have dated : ∀ createdAt, args.effectiveTtl parsedScope ≠ 0 →
      lifetimeTag createdAt (args.effectiveTtl parsedScope) =
        ["exp", toString (createdAt + args.effectiveTtl parsedScope)] := fun _ other => if_neg other
  by_cases zero : args.effectiveTtl parsedScope = 0
  · have tags : (claimTemplate { args with
        nowSec
        priorCreatedAt } parsedScope topic [["h", room]]).event.tags =
          (claimTemplate args parsedScope topic [["h", room]]).event.tags := by
      show args.leadingTags parsedScope topic [["h", room]] ++ lifetimeTag _ (args.effectiveTtl parsedScope) ::
        args.trailingTags = args.leadingTags parsedScope topic [["h", room]] ++
          lifetimeTag _ (args.effectiveTtl parsedScope) :: args.trailingTags
      rw [same _ zero, same _ zero]
    refine ⟨rfl, rfl, rfl, fun name _ => ?_, fun name _ => ?_⟩
    · rw [Event.tagValue, Event.tag, tags]
      rfl
    · rw [Event.tagValues, tags]
      rfl
  · have tags : (claimTemplate args parsedScope topic [["h", room]]).event.tags =
        args.leadingTags parsedScope topic [["h", room]] ++ ["exp", toString (args.createdAt +
          args.effectiveTtl parsedScope)] :: args.trailingTags := by
      rw [← dated _ zero]
      rfl
    have tags' : (claimTemplate { args with
        nowSec
        priorCreatedAt } parsedScope topic [["h", room]]).event.tags =
        args.leadingTags parsedScope topic [["h", room]] ++ ["exp", toString (({ args with
          nowSec
          priorCreatedAt } : ClaimArgs).createdAt + args.effectiveTtl parsedScope)] :: args.trailingTags := by
      rw [← dated _ zero]
      rfl
    exact ⟨rfl, rfl, rfl, fun name other => (tagValue_other tags tags' other).1,
      fun name other => (tagValue_other tags tags' other).2⟩

/-- The seconds a claim can be built at: its time is a safe integer, its expiry has twelve digits at most, and
the guard passes them. -/
structure Timely (host : Host) (createdAt ttl : Int) : Prop where
  safe : createdAt ≤ 9007199254740991
  expires : ttl ≠ 0 → createdAt + ttl < 10 ^ 12 ∧ host.checkMemorySecrets (toString (createdAt + ttl)) = none

theorem isSafeInteger_of_pos {n : Int} (positive : 0 < n) : isSafeInteger n = true ↔ n ≤ 9007199254740991 := by
  rw [isSafeInteger, Bool.and_eq_true, decide_eq_true_eq, decide_eq_true_eq]
  omega

theorem passed_of_accepts {ev : Event} (accepts : Accepts host channel kinds false ev parts) :
    ∀ text ∈ ev.tags.flatten, host.checkMemorySecrets text = none := by
  intro text member
  have said := accepts.clean
  rw [checkClaimPayloadSecrets, List.findSome?_eq_none_iff] at said
  exact said text (List.mem_append_right _ member)

theorem mem_tags_claim {text : String} : text ∈ (claimTemplate args parsedScope topic route).event.tags.flatten ↔
    text ∈ (args.leadingTags parsedScope topic route).flatten ∨
      text ∈ lifetimeTag args.createdAt (args.effectiveTtl parsedScope) ∨ text ∈ args.trailingTags.flatten := by
  show text ∈ (args.leadingTags parsedScope topic route ++
    lifetimeTag args.createdAt (args.effectiveTtl parsedScope) :: args.trailingTags).flatten ↔ _
  rw [List.flatten_append, List.flatten_cons, List.mem_append, List.mem_append]

/-- What a room claim that validates tells of its expiry. -/
theorem expiry_claim (drafts : Drafts args parsedScope topic [["h", room]])
    (accepts : Accepts host channel kinds false (claimTemplate args parsedScope topic [["h", room]]).event parts) :
    (args.effectiveTtl parsedScope ≠ 0 → args.createdAt + args.effectiveTtl parsedScope < 10 ^ 12) ∧
      parts.expiresAt = if args.effectiveTtl parsedScope = 0 then none
        else some (args.createdAt + args.effectiveTtl parsedScope) := by
  obtain ⟨low, high, -⟩ := drafts.effective
  have expiry := accepts.expiry
  have positive : 0 < args.createdAt := accepts.createdAt.2
  rw [tagValues_exp_claim] at expiry
  by_cases zero : args.effectiveTtl parsedScope = 0
  · rw [if_pos zero] at expiry ⊢
    exact ⟨fun other => absurd zero other, (Except.ok.inj expiry).symm⟩
  · rw [if_neg zero] at expiry ⊢
    obtain ⟨small, same⟩ := (checkExpiry_toString positive.le (by omega) high).mp expiry
    exact ⟨fun _ => small, same.symm⟩

/-- **A room claim that validates is built in time.** -/
theorem timely_of_accepts (drafts : Drafts args parsedScope topic [["h", room]])
    (accepts : Accepts host channel kinds false (claimTemplate args parsedScope topic [["h", room]]).event parts) :
    Timely host args.createdAt (args.effectiveTtl parsedScope) := by
  have safe : isSafeInteger args.createdAt = true := accepts.createdAt.1
  refine ⟨(isSafeInteger_of_pos accepts.createdAt.2).mp safe, fun dated =>
    ⟨(expiry_claim drafts accepts).1 dated, ?_⟩⟩
  refine passed_of_accepts accepts _ (mem_tags_claim.mpr (.inr (.inl ?_)))
  rw [lifetimeTag, if_neg dated]
  exact List.mem_cons_of_mem _ List.mem_cons_self

/-- **A room claim that validates and meets the policy does so at every second it is in time for**, in any
channel. -/
theorem accepts_later (drafts : Drafts args parsedScope topic [["h", room]])
    (accepts : Accepts host channel kinds false (claimTemplate args parsedScope topic [["h", room]]).event parts)
    (policy : ∃ stored, memoryWritePolicy
      (parts.valid (claimTemplate args parsedScope topic [["h", room]]).event) = .ok stored)
    (type : parts.parsedScope.type = .room) {later : ClaimArgs} (again : later = { args with
      nowSec
      priorCreatedAt }) (positive : 0 < later.createdAt)
    (timely : Timely host later.createdAt (args.effectiveTtl parsedScope)) : ∃ parts',
      Accepts host channel' kinds false (claimTemplate later parsedScope topic [["h", room]]).event parts' ∧
        ∃ stored, memoryWritePolicy
          (parts'.valid (claimTemplate later parsedScope topic [["h", room]]).event) = .ok stored := by
  obtain ⟨low, high, -⟩ := drafts.effective
  obtain ⟨-, expiresAt⟩ := expiry_claim drafts accepts
  have retimed : Retimed (claimTemplate args parsedScope topic [["h", room]]).event
      (claimTemplate later parsedScope topic [["h", room]]).event := again ▸ retimed_claim
  have ttl : later.effectiveTtl parsedScope = args.effectiveTtl parsedScope := by rw [again]; rfl
  have leading : later.leadingTags parsedScope topic [["h", room]] =
      args.leadingTags parsedScope topic [["h", room]] := by rw [again]; rfl
  have trailing : later.trailingTags = args.trailingTags := by rw [again]; rfl
  have exp := @tagValues_exp_claim later parsedScope topic room
  rw [ttl] at exp
  have passed := passed_of_accepts accepts
  refine ⟨{ parts with
    expiresAt := if args.effectiveTtl parsedScope = 0 then none
      else some (later.createdAt + args.effectiveTtl parsedScope) },
    accepts_retimed retimed accepts type ⟨(isSafeInteger_of_pos positive).mpr timely.safe, positive⟩ ?_ ?_ ?_ ?_,
    memoryWritePolicy_eq_ok.mpr fun active => ?_⟩
  · rw [exp]
    split_ifs
    · exact Nat.zero_le _
    · exact le_refl 1
  · rw [exp]
    by_cases zero : args.effectiveTtl parsedScope = 0
    · rw [if_pos zero, if_pos zero]
      rfl
    · rw [if_neg zero, if_neg zero]
      exact (checkExpiry_toString positive.le (by omega) high).mpr ⟨(timely.expires zero).1, rfl⟩
  · rw [expiresAt]
    split_ifs <;> rfl
  · intro text member
    rw [mem_tags_claim, leading, trailing, ttl] at member
    rcases member with before | tag | after
    · exact passed text (mem_tags_claim.mpr (.inl before))
    · have old : ∀ other ∈ lifetimeTag args.createdAt (args.effectiveTtl parsedScope),
          host.checkMemorySecrets other = none := fun other inside =>
        passed other (mem_tags_claim.mpr (.inr (.inl inside)))
      unfold lifetimeTag at tag old
      by_cases zero : args.effectiveTtl parsedScope = 0
      · rw [if_pos zero] at tag old
        exact old text tag
      · rw [if_neg zero] at tag old
        rcases List.mem_cons.mp tag with rfl | tag
        · exact old _ List.mem_cons_self
        · obtain rfl := List.mem_singleton.mp tag
          exact (timely.expires zero).2
    · exact passed text (mem_tags_claim.mpr (.inr (.inr after)))
  · obtain ⟨clean, short⟩ := memoryWritePolicy_eq_ok.mp policy active
    refine ⟨?_, fun workflow scope => ?_⟩
    · show (normalizeMemoryTopic ((nonEmpty (Event.tagValue _ "topic")).getD _)).isSome = true
      rw [retimed.tagValue "topic" (by decide)]
      exact clean
    · obtain ⟨soon, same, bound⟩ := short workflow scope
      have expires : parts.expiresAt = some soon := same
      rw [expiresAt] at expires
      by_cases zero : args.effectiveTtl parsedScope = 0
      · rw [if_pos zero] at expires
        nomatch expires
      · rw [if_neg zero] at expires
        obtain rfl := Option.some.inj expires
        have first : args.createdAt + args.effectiveTtl parsedScope ≤ args.createdAt + MAX_WORKFLOW_TTL_SEC := bound
        refine ⟨later.createdAt + args.effectiveTtl parsedScope, if_neg zero, ?_⟩
        show later.createdAt + args.effectiveTtl parsedScope ≤ later.createdAt + MAX_WORKFLOW_TTL_SEC
        omega

end Later

/-! ### Trimming -/

theorem trim_eq (text : String) :
    trim text = String.ofList ((text.toList.dropWhile isJsSpace).rdropWhile isJsSpace) := rfl

/-- A trimmed text is its own trim. -/
@[simp] theorem trim_trim (text : String) : trim (trim text) = trim text := by
  have front : ((text.toList.dropWhile isJsSpace).rdropWhile isJsSpace).dropWhile isJsSpace =
      (text.toList.dropWhile isJsSpace).rdropWhile isJsSpace := by
    obtain ⟨rest, whole⟩ := List.rdropWhile_prefix isJsSpace (l := text.toList.dropWhile isJsSpace)
    have first := List.head?_dropWhile_not isJsSpace text.toList
    cases kept : (text.toList.dropWhile isJsSpace).rdropWhile isJsSpace with
    | nil => rfl
    | cons c more =>
        rw [kept] at whole
        rw [← whole] at first
        exact List.dropWhile_cons_of_neg (by simpa using first)
  rw [trim_eq, trim_eq, String.toList_ofList, front, List.rdropWhile_idempotent]

end Nvoy.Memory
