/-
The two other readers of public capability grants.

* `readHeldCapabilities` — `capabilities.ts`: what a subject holds, by asking every configured relay
  for the 440s that name it and for the 441s that name those;
* `readCapabilityGrants` — `capgrants.mjs`: what a delegator has granted, as the console lists it.

A relay is a parameter: `query url filter` is what it answers, `none` where it does not complete
the answer.
-/

import Nvoy.Admission.GrantFold
import Nvoy.Lib.JsSet
import Nvoy.Lib.Recent
import Nvoy.Memory.Claim

namespace Nvoy.Admission

open Recent (filed)

/-! ### Filters -/

/-- A subscription filter, as far as these readers use one; an absent list asks for nothing. -/
structure Filter where
  kinds : List Int
  authors : Option (List String)
  pTags : Option (List String)
  eTags : Option (List String)
  limit : Nat
  deriving DecidableEq

/-- The string values of the tags of that name. -/
def tagTexts (ev : Event) (name : String) : List String := (ev.tagValues name).reduceOption

def Filter.matchesTags (values : Option (List String)) (ev : Event) (name : String) : Bool :=
  values.all fun wanted => (tagTexts ev name).any wanted.contains

/-- Does a relay list the event for this filter? -/
def Filter.admits (filter : Filter) (ev : Event) : Bool :=
  filter.kinds.contains ev.kind && filter.authors.all (·.contains ev.pubkey) &&
    matchesTags filter.pTags ev "p" && matchesTags filter.eTags ev "e"

def MAX_EVENTS : Nat := 1000

/-! ### What a subject holds -/

structure ReadSet where
  answered : Nat
  events : List Event

/-- The answers of all relays, the last copy of each id in the place of the first. -/
def readSet (relays : List String) (filter : Filter)
    (query : String → Filter → Option (List Event)) : ReadSet :=
  let answers := relays.filterMap fun url => query url filter
  { answered := answers.length
    events := (filed Event.id answers.flatten).values }

inductive CapabilityStatus
  | active
  | expired
  | revoked
  | unverifiable
  deriving DecidableEq, Repr

structure CapabilityRow where
  grantId : String
  grantorNpub : String
  cap : String
  label : String
  scopeHash : Option String
  grantedAt : Int
  expiresAt : Option Int
  status : CapabilityStatus
  revocationId : Option String
  deriving DecidableEq

structure Verification where
  verified : Bool
  configuredRelays : Nat
  grantQueryAnswered : Nat
  revocationQueryAnswered : Option Nat
  statement : String
  deriving DecidableEq

structure HeldCapabilities where
  /-- `none` where nothing could be verified absent. -/
  capabilities : Option (List CapabilityRow)
  verification : Verification

def heldLabel (cap : String) : String :=
  match cap with
  | "admit" => "Channel admission"
  | "admit+read" => "Channel admission + read"
  | "task" => "Tasking authority"
  | "task+act" => "Tasking + act"
  | "task-relay" => "Task relay carrier"
  | "mirror" => "Mirror consent"
  | _ => s!"Capability: {cap}"

/-- `/^\d+$/.test(raw || '') ? Number(raw) : null` of the first expiration tag with a value. -/
def expiresAt (ev : Event) : Option Int :=
  match (tagTexts ev "expiration").head? with
  | some raw => if raw ≠ "" && raw.toList.all Char.isDigit then some (numberOf raw) else none
  | none => none

/-- Newest first; of one second, the greater id first. -/
def rowBefore (a b : CapabilityRow) : Prop :=
  b.grantedAt < a.grantedAt ∨ a.grantedAt = b.grantedAt ∧ b.grantId ≤ a.grantId

instance : DecidableRel rowBefore := fun _ _ => inferInstanceAs (Decidable (_ ∨ _))

section Held

variable (host : Host) (npubEncode : String → String) (subject : String) (now : Int)

/-- A verified 440 that names the subject and carries one capability. -/
def namesSubject (ev : Event) : Bool :=
  ev.kind = 440 && host.verifyEvent ev && (tagTexts ev "p").contains subject &&
    (tagTexts ev "da-cap").length = 1

/-- The last revocation of each grant by its own author. -/
def revocationsOf (grants revocations : List Event) : JsMap String Event :=
  revocations.foldl (fun found ev =>
    if ev.kind = 441 && host.verifyEvent ev then
      (tagTexts ev "e").foldl (fun found id =>
        if grants.any fun grant => grant.id = id && grant.pubkey = ev.pubkey then found.set id ev
        else found) found
    else found) .empty

def capabilityRow (complete : Bool) (revocations : JsMap String Event) (ev : Event) :
    CapabilityRow :=
  let cap := ((tagTexts ev "da-cap").head?).getD ""
  let revocation := revocations.get ev.id
  { grantId := ev.id
    grantorNpub := npubEncode ev.pubkey
    cap := cap
    label := heldLabel cap
    scopeHash := (tagTexts ev "da-scope").head?.filter fun scope => scope ≠ ""
    grantedAt := ev.createdAt
    expiresAt := expiresAt ev
    status :=
      if revocation.isSome then .revoked
      else if !complete then .unverifiable
      else if (expiresAt ev).any (· ≤ now) then .expired else .active
    revocationId := revocation.map (·.id) }

def readHeldCapabilities (relays : List String)
    (query : String → Filter → Option (List Event)) : HeldCapabilities :=
  let configured := (JsSet.ofList ((relays.map Memory.trim).filter fun url => url ≠ "")).items
  let grantsRead := readSet configured ⟨[440], none, some [subject], none, MAX_EVENTS⟩ query
  let grantCoverageComplete := 0 < configured.length && grantsRead.answered = configured.length
  let grants := grantsRead.events.filter (namesSubject host subject)
  if grants = [] then
    if grantCoverageComplete then
      ⟨some [], true, configured.length, grantsRead.answered, none,
        "Every configured relay completed the grant query and returned no verified capability " ++
          "grant naming this identity."⟩
    else
      ⟨none, false, configured.length, grantsRead.answered, none,
        s!"{grantsRead.answered}/{configured.length} configured relays completed the grant " ++
          "query. Nothing could be verified absent until every configured relay answers."⟩
  else
    let grantAuthors := (JsSet.ofList (grants.map (·.pubkey))).items
    let revocationsRead := readSet configured
      ⟨[441], some grantAuthors, none, some (grants.map (·.id)), MAX_EVENTS⟩ query
    let revocationCoverageComplete :=
      0 < configured.length && revocationsRead.answered = configured.length
    -- With no relay's answer there is nothing to read revocations from.
    let revocations := revocationsOf host grants revocationsRead.events
    let verifiable := grantCoverageComplete && revocationCoverageComplete
    ⟨some ((grants.map (capabilityRow npubEncode now verifiable revocations)).insertionSort
        rowBefore),
      verifiable, configured.length, grantsRead.answered, some revocationsRead.answered,
      if verifiable then
        "Every configured relay completed both the grant and revocation queries."
      else
        s!"Relay coverage is incomplete (grants {grantsRead.answered}/{configured.length}; " ++
          s!"revocations {revocationsRead.answered}/{configured.length}). Positive signed " ++
          "evidence is shown, but absence and current active status are unverifiable."⟩

end Held

/-! ### What a delegator has granted -/

inductive GrantType
  | data
  | capability
  | other
  deriving DecidableEq, Repr

structure GrantClass where
  type : GrantType
  grantee : Option String
  label : String
  cap : Option String
  scopeHash : Option String
  deriving DecidableEq

/-- `/(^|:)30440:/` -/
def namesDataSet (text : String) : Bool :=
  "30440:".toList.isPrefixOf text.toList || decide (":30440:".toList <:+: text.toList)

def consoleLabel (cap : String) : String :=
  match cap with
  | "admit" => "Channel admission"
  | "admit+read" => "Channel admission + read"
  | "task" => "Tasking authority"
  | "task+act" => "Tasking + act"
  | "task-relay" => "Task relay carrier"
  | _ => s!"Capability: {cap}"

def classifyGrant (ev : Event) : Option GrantClass :=
  let grantee := Memory.nonEmpty (ev.tagValue "p")
  if (ev.tag "a").any fun tag => namesDataSet (tag[1]?.getD "") then
    some ⟨.data, grantee, "Data delegation", none, none⟩
  else if (ev.tag "da-cap").isSome then
    let cap := (Memory.nonEmpty (ev.tagValue "da-cap")).getD "grant"
    some ⟨.capability, grantee, consoleLabel cap, some cap, Memory.nonEmpty (ev.tagValue "da-scope")⟩
  else if grantee.isSome then some ⟨.other, grantee, "Grant", none, none⟩
  else none

/-- A row of the console's one plane; an external grant has no terms and no generation. -/
structure ExternalRow where
  scope : String
  scopeName : String
  agent : Option String
  revoked : Bool
  purpose : Option String
  grantedAt : Int
  app : GrantType
  scopeHash : Option String
  deriving DecidableEq

def toRow (ev : Event) (cls : GrantClass) (revokedIds : JsSet String) : ExternalRow where
  scope := ev.id
  scopeName := cls.label
  agent := cls.grantee
  revoked := revokedIds.has ev.id
  purpose := if cls.type = .capability then cls.cap else none
  grantedAt := ev.createdAt
  app := cls.type
  scopeHash := cls.scopeHash

structure CapabilityGrants where
  rows : List ExternalRow
  skippedData : Nat
  unverified : Nat

section Console

variable (host : Host) (delegatorPub : String)

/-- The delegator's own verified events, by id. -/
def ownEvents (events : List Event) : JsMap String Event :=
  filed Event.id (events.filter fun ev => ev.pubkey = delegatorPub && host.verifyEvent ev)

/-- The ids that any `e` tag of a 441 names. -/
def revokedIds (own : List Event) : JsSet String :=
  (own.filter (·.kind = 441)).foldl (fun ids ev =>
    ((tagTexts ev "e").filter fun id => id ≠ "").foldl JsSet.add ids) .empty

def readCapabilityGrants (query : Filter → List Event) : CapabilityGrants :=
  let events := query ⟨[440, 441], some [delegatorPub], none, none, MAX_EVENTS⟩
  let own := (ownEvents host delegatorPub events).values
  let classified := (own.filter (·.kind = 440)).filterMap fun ev =>
    (classifyGrant ev).map fun cls => (ev, cls)
  { rows := ((classified.filter fun entry => entry.2.type ≠ .data).map fun entry =>
      toRow entry.1 entry.2 (revokedIds own)).insertionSort fun a b => b.grantedAt ≤ a.grantedAt
    skippedData := (classified.filter fun entry => entry.2.type = .data).length
    unverified := (events.filter fun ev =>
      ev.pubkey = delegatorPub && !host.verifyEvent ev).length }

end Console

end Nvoy.Admission
