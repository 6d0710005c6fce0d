/-
**The profile of an agent**: `instance-broker-profile.mjs` up to the frozen event, with `profile_policy.mjs`.

* `currentProfile` — the profile to build on, of what Buzz and the public relays returned;
* `mergedProfile` — it with the fields of the request, checked as a whole;
* `freeze` — the unsigned event and its record;
* `Replaces` — the selected profile is the one that NIP-01 keeps, and the frozen event replaces it everywhere;
* `replaces_iff` — so it is just where no two profiles share the last second, and the clock is past it;
* `tied_profiles` — two profiles of one second: the other one is built on.
-/

import Nvoy.Broker.Approval
import Nvoy.Broker.Limits

namespace Nvoy.Broker

open Memory (Version trim)

/-! ### The host and the request -/

/-- A parsed `URL`. -/
structure Url where
  protocol : String
  username : String
  password : String
  hostname : String
  port : String

/-- What the actuator rests on. -/
structure ProfileHost where
  host : Host
  getEventHash : Unsigned → String
  /-- `credentialIn`: a credential that a text gives away. -/
  credentialIn : String → Option String
  /-- `new URL(value)`, where it does not throw. -/
  url : String → Option Url
  /-- `fetchJson` of the directory for a name. -/
  directory : String → Except String Json

structure ProfileRefusal where
  code : String
  message : String
  deriving DecidableEq

/-- `may_set_profile` of a manifest, and the key that it is for. -/
structure ProfileManifest where
  pubkey : String
  perDay : Int
  pictureHosts : List String

structure ProfileRequest where
  id : String
  fields : Json
  dryRun : Bool

/-- One answer of a public relay. -/
structure PublicRead where
  answered : Bool
  events : List Event

section Profile

variable (broker : ProfileHost)

/-! ### The profile to build on -/

structure CurrentProfile where
  profile : Json
  event : Option Event
  first : Bool

/-- A kind 0 event of the seat that verifies. -/
def isOwnProfile (pubkey : String) (event : Event) : Bool :=
  event.kind = 0 && event.pubkey = pubkey && broker.host.verifyEvent event

/-- The later second first, and within a second the greater id. -/
def profileOrder (left right : Event) : Bool :=
  right.createdAt < left.createdAt || (right.createdAt = left.createdAt && right.id ≤ left.id)

def profilesOf (pubkey : String) (events : List Event) : List Event := events.filter (isOwnProfile broker pubkey)

def currentProfile (pubkey : String) (buzzEvents : List Event) (outside : List PublicRead) :
    Except ProfileRefusal CurrentProfile :=
  let all := buzzEvents ++ outside.flatMap (·.events)
  match ((profilesOf broker pubkey all).insertionSort fun left right => profileOrder left right).head? with
  | some latest => do
    let profile ← require (Json.parse latest.content.toList)
      ⟨"NVOY_PROFILE_INVALID_CURRENT", "current kind-0 content is invalid JSON"⟩
    return ⟨profile, some latest, false⟩
  | none => do
    ensure (all = []) ⟨"NVOY_PROFILE_INVALID_CURRENT", "relays returned only invalid kind-0 events"⟩
    ensure (outside.length ≠ 0 && outside.all (·.answered)) ⟨"NVOY_PROFILE_INVALID_CURRENT",
      "no current kind-0 event on Buzz, and not every public relay answered to confirm there is none"⟩
    return ⟨.obj [], none, true⟩

/-! ### The merge -/

def PROFILE_FIELDS : List String := ["name", "display_name", "about", "picture", "website", "nip05"]

/-- `MAX_LENGTH` -/
def maxLength : String → Nat
  | "name" => 64
  | "display_name" => 128
  | "about" => 1024
  | "picture" => 2048
  | "website" => 2048
  | _ => 128

def jsonBytes (value : Json) : Nat := (utf8 (Json.stringify value)).length

def profileObject (value : Json) : Except ProfileRefusal Unit := do
  ensure value.isObj ⟨"NVOY_PROFILE_INVALID_CURRENT", "current profile is not a JSON object"⟩
  ensure (jsonBytes value ≤ 16384) ⟨"NVOY_PROFILE_INVALID_CURRENT", "current profile exceeds 16 KiB"⟩

def httpsUrl (value field : String) (hosts : List String) : Except ProfileRefusal Unit := do
  let code := "NVOY_PROFILE_BAD_" ++ field.toUpper
  let url ← require (broker.url value) ⟨code, field ++ " must be an HTTPS URL"⟩
  ensure (url.protocol = "https:" && url.username = "" && url.password = "" && url.hostname ≠ "" && url.port = "" &&
    hosts.contains (broker.host.toLowerCase url.hostname)) ⟨code, field ++ " must be HTTPS on an allowed host"⟩

/-- `/^([a-z0-9._-]+)@nave\.pub$/` -/
def navePubName (text : String) : Option String :=
  let chars := text.toList
  let suffix := "@nave.pub".toList
  let name := chars.take (chars.length - suffix.length)
  if name ≠ [] && name ++ suffix = chars && name.all (fun c => c.isLower || c.isDigit || "._-".toList.contains c) then
    some (String.ofList name)
  else none

/-- The checks of one field of the merged profile. -/
def checkProfileField (pubkey : String) (pictureHosts : List String) (profile : Json) (field : String) :
    Except ProfileRefusal Unit := do
  let value ← require ((profile.get field).bind Json.string) ⟨"NVOY_PROFILE_BAD_FIELDS", field ++ " must be a string"⟩
  ensure ((utf8 value).length ≤ maxLength field)
    ⟨"NVOY_PROFILE_FIELD_TOO_LONG", field ++ " exceeds " ++ toString (maxLength field) ++ " bytes"⟩
  if field = "name" then ensure (trim value ≠ "") ⟨"NVOY_PROFILE_BAD_NAME", "name cannot be blank"⟩
  if field = "picture" ∧ value ≠ "" then httpsUrl broker value field pictureHosts
  if field = "nip05" ∧ value ≠ "" then
    let name ← require (navePubName (broker.host.toLowerCase value))
      ⟨"NVOY_PROFILE_BAD_NIP05", "nip05 must be a nave.pub name"⟩
    let directory ← (broker.directory name).mapError fun message =>
      ⟨"NVOY_PROFILE_NIP05_UNAVAILABLE", "nip05 lookup failed: " ++ message⟩
    let listed := ((directory.get "names").bind (·.get name)).getD .null
    ensure (broker.host.toLowerCase listed.text = pubkey)
      ⟨"NVOY_PROFILE_NIP05_MISMATCH", "nip05 does not resolve to this seat"⟩

/-- `{ ...current, ...fields, bot: true }` -/
def mergeFields (current fields : Json) : Json :=
  (fields.keys.foldl (fun profile field => profile.put field ((fields.get field).getD .null)) current).put "bot"
    (.bool true)

/-- `isDeepStrictEqual` with a field that the merge has set: a text, or `true`. -/
def isSameField : Option Json → Option Json → Bool
  | some (.str old), some (.str new) => old = new
  | some (.bool old), some (.bool new) => old = new
  | _, _ => false

def mergedProfile (current fields : Json) (pubkey : String) (pictureHosts : List String) :
    Except ProfileRefusal (Json × Json) := do
  profileObject current
  ensure (isHex64 pubkey) ⟨"NVOY_PROFILE_SCOPE_INVALID", "profile grant scope is invalid"⟩
  ensure (fields.isObj && fields.keys.length ≠ 0 && fields.keys.all fun field =>
      PROFILE_FIELDS.contains field && ((fields.get field).bind Json.string).isSome)
    ⟨"NVOY_PROFILE_BAD_FIELDS", "only the six allowed string fields may be changed"⟩
  let profile := mergeFields current fields
  ensure (jsonBytes profile ≤ 16384) ⟨"NVOY_PROFILE_TOO_LARGE", "merged profile exceeds 16 KiB"⟩
  objection (broker.credentialIn (Json.stringify profile)) fun _ =>
    ⟨"NVOY_WITHHELD_CREDENTIAL", "merged profile contains a credential"⟩
  (PROFILE_FIELDS.filter fun field => (profile.get field).isSome).forM
    (checkProfileField broker pubkey pictureHosts profile)
  let changed := (fields.keys ++ ["bot"]).filter fun field => !isSameField (current.get field) (profile.get field)
  return (profile, .obj (changed.map fun field =>
    (field, .obj [("old", (current.get field).getD .null), ("new", (profile.get field).getD .null)])))

/-! ### The frozen event -/

/-- What the record keeps of a frozen event. -/
structure FrozenProfile where
  unsigned : Unsigned
  fingerprint : String
  current : Option Event
  first : Bool
  profile : Json
  changed : Json

def DAY_MS : Int := 24 * 60 * 60 * 1000

/-- From the answers of the relays to the record of a request; `none` for a dry run. -/
def freeze (manifest : ProfileManifest) (request : ProfileRequest) (buzzEvents : List Event)
    (outside : List PublicRead) (counter : List Entry) (countedAt now : Int) :
    Except ProfileRefusal (Option FrozenProfile) := do
  let current ← currentProfile broker manifest.pubkey buzzEvents outside
  ensure (!current.first || trim (((request.fields.get "name").bind Json.string).getD "") ≠ "")
    ⟨"NVOY_PROFILE_FIRST_NEEDS_NAME", "a first profile must set a name"⟩
  let merged ← mergedProfile broker current.profile request.fields manifest.pubkey manifest.pictureHosts
  if request.dryRun then return none
  let verdict := slideWindow counter "profile" request.id countedAt manifest.perDay DAY_MS
  ensure verdict.allowed ⟨"NVOY_PROFILE_RATE_LIMITED",
    "profile budget " ++ toString verdict.count ++ "/" ++ toString manifest.perDay ++ " in the last day"⟩
  let event : Unsigned := ⟨manifest.pubkey, now / 1000, 0, [], Json.stringify merged.1⟩
  return some ⟨event, broker.getEventHash event, current.event, current.first, merged.1, merged.2⟩

/-! ### What a relay keeps -/

/-- What decides between two profiles at a relay. -/
def profileVersion (event : Event) : Version := ⟨event.createdAt, event.id⟩

def FrozenProfile.version (frozen : FrozenProfile) : Version := ⟨frozen.unsigned.createdAt, frozen.fingerprint⟩

/-- **The profile that is replaced is the one that was merged**: of all that was returned it is the one that
NIP-01 keeps; the frozen event replaces it and everything else there; and what the request does not name is the
newest profile's. -/
structure Replaces (returned : List Event) (fields : Json) (frozen : FrozenProfile) : Prop where
  kept : ∀ event ∈ returned, ∃ selected, frozen.current = some selected ∧ selected ∈ returned ∧
    (event.id ≠ selected.id → (profileVersion selected).Newer (profileVersion event))
  newer : ∀ selected, frozen.current = some selected → frozen.version.Newer (profileVersion selected)
  relays : ∀ event ∈ returned, frozen.version.Newer (profileVersion event)
  fields : ∀ selected, frozen.current = some selected → ∃ base, Json.parse selected.content.toList = some base ∧
    ∀ name, name ∉ fields.keys → name ≠ "bot" → frozen.profile.get name = base.get name

/-- No two profiles of the last second. -/
def Untied (returned : List Event) : Prop :=
  ∀ a ∈ returned, ∀ b ∈ returned, (∀ e ∈ returned, e.createdAt ≤ a.createdAt) → a.createdAt = b.createdAt → a.id = b.id

/-- The clock is past the last second, or in it and the frozen id is the lower one. -/
def Past (returned : List Event) (now : Int) (fingerprint : String) : Prop :=
  ∀ e ∈ returned, e.createdAt < now / 1000 ∨ (e.createdAt = now / 1000 ∧ fingerprint < e.id)

end Profile

section Facts

variable {broker : ProfileHost} {manifest : ProfileManifest} {request : ProfileRequest} {buzzEvents : List Event}
  {outside : List PublicRead} {counter : List Entry} {countedAt now : Int} {frozen : FrozenProfile}
  {pubkey : String} {events returned : List Event} {current fields : Json} {cur : CurrentProfile}

/-- Every verified profile of the seat that was returned. -/
def returnedTo (broker : ProfileHost) (pubkey : String) (buzzEvents : List Event) (outside : List PublicRead) :
    List Event :=
  profilesOf broker pubkey (buzzEvents ++ outside.flatMap (·.events))

/-- `a` sorts before `b`. -/
theorem profileOrder_iff {a b : Event} : profileOrder a b = true ↔
    b.createdAt < a.createdAt ∨ (b.createdAt = a.createdAt ∧ b.id ≤ a.id) := by
  simp [profileOrder]

/-- **The event that is selected** comes before every other by the code's order. -/
theorem head_sorted {selected : Event}
    (head : (events.insertionSort fun left right => profileOrder left right).head? = some selected) :
    selected ∈ events ∧ ∀ e ∈ events, profileOrder selected e = true := by
  have total : Std.Total fun a b : Event => profileOrder a b = true := ⟨fun a b => by
    rw [profileOrder_iff, profileOrder_iff]
    rcases lt_trichotomy a.createdAt b.createdAt with before | same | after
    · exact .inr (.inl before)
    · rcases le_total a.id b.id with low | high
      · exact .inr (.inr ⟨same, low⟩)
      · exact .inl (.inr ⟨same.symm, high⟩)
    · exact .inl (.inl after)⟩
  have trans : IsTrans Event fun a b => profileOrder a b = true := ⟨fun a b c first second => by
    rw [profileOrder_iff] at first second ⊢
    rcases first with lower | ⟨same, low⟩
    · rcases second with lower' | ⟨same', -⟩
      · exact .inl (lower'.trans lower)
      · exact .inl (same' ▸ lower)
    · rcases second with lower' | ⟨same', low'⟩
      · exact .inl (same ▸ lower')
      · exact .inr ⟨same'.trans same, low'.trans low⟩⟩
  have perm := List.perm_insertionSort (fun a b : Event => profileOrder a b = true) events
  have sorted := List.pairwise_insertionSort (fun a b : Event => profileOrder a b = true) events
  cases list : events.insertionSort fun a b => profileOrder a b = true with
  | nil =>
    rw [list] at head
    cases head
  | cons first rest =>
    rw [list] at head perm sorted
    obtain rfl := Option.some_inj.mp head
    refine ⟨perm.mem_iff.mp List.mem_cons_self, fun e member => ?_⟩
    rcases List.mem_cons.mp (perm.mem_iff.mpr member) with rfl | later
    · exact profileOrder_iff.mpr (.inr ⟨rfl, le_rfl⟩)
    · exact (List.pairwise_cons.mp sorted).1 e later

theorem currentProfile_eq_ok (selects : currentProfile broker pubkey buzzEvents outside = .ok cur) :
    (cur.event = none ∧ returnedTo broker pubkey buzzEvents outside = []) ∨
      ∃ selected, cur.event = some selected ∧ selected ∈ returnedTo broker pubkey buzzEvents outside ∧
        (∀ e ∈ returnedTo broker pubkey buzzEvents outside, profileOrder selected e = true) ∧
        Json.parse selected.content.toList = some cur.profile := by
  unfold currentProfile at selects
  dsimp only at selects
  split at selects
  case h_1 selected head =>
    obtain ⟨profile, parsed, made⟩ := bind_eq_ok.mp selects
    obtain rfl := Except.ok.inj made
    obtain ⟨member, before⟩ := head_sorted head
    exact .inr ⟨selected, rfl, member, before, require_eq_ok.mp parsed⟩
  case h_2 none =>
    obtain ⟨_, empty, rest⟩ := bind_eq_ok.mp selects
    obtain ⟨_, -, made⟩ := bind_eq_ok.mp rest
    obtain rfl := Except.ok.inj made
    have none' : buzzEvents ++ outside.flatMap (·.events) = [] := of_decide_eq_true (ensure_eq_ok.mp empty)
    refine .inl ⟨rfl, ?_⟩
    unfold returnedTo profilesOf
    rw [none']
    rfl

/-- What the request does not name stays. -/
theorem get_mergeFields {name : String} (other : name ∉ fields.keys) (human : name ≠ "bot") :
    (mergeFields current fields).get name = current.get name := by
  have kept : ∀ (keys : List String) (profile : Json), name ∉ keys →
      (keys.foldl (fun profile field => profile.put field ((fields.get field).getD .null)) profile).get name =
        profile.get name := by
    intro keys
    induction keys with
    | nil => exact fun _ _ => rfl
    | cons key keys ih =>
      intro profile outside
      rw [List.mem_cons, not_or] at outside
      rw [List.foldl_cons, ih _ outside.2, Json.get_put_of_ne outside.1]
  unfold mergeFields
  rw [Json.get_put_of_ne human, kept fields.keys current other]

theorem freeze_eq_ok
    (froze : freeze broker manifest request buzzEvents outside counter countedAt now = .ok (some frozen)) :
    ∃ cur, currentProfile broker manifest.pubkey buzzEvents outside = .ok cur ∧ frozen.current = cur.event ∧
      frozen.profile = mergeFields cur.profile request.fields ∧ frozen.unsigned.createdAt = now / 1000 := by
  unfold freeze at froze
  obtain ⟨cur, selects, froze⟩ := bind_eq_ok.mp froze
  obtain ⟨_, -, froze⟩ := bind_eq_ok.mp froze
  obtain ⟨merged, merges, froze⟩ := bind_eq_ok.mp froze
  split at froze
  · cases froze
  obtain ⟨_, -, froze⟩ := bind_eq_ok.mp froze
  obtain rfl := Option.some_inj.mp (Except.ok.inj froze)
  unfold mergedProfile at merges
  obtain ⟨_, -, merges⟩ := bind_eq_ok.mp merges
  obtain ⟨_, -, merges⟩ := bind_eq_ok.mp merges
  obtain ⟨_, -, merges⟩ := bind_eq_ok.mp merges
  obtain ⟨_, -, merges⟩ := bind_eq_ok.mp merges
  obtain ⟨_, -, merges⟩ := bind_eq_ok.mp merges
  obtain ⟨_, -, merges⟩ := bind_eq_ok.mp merges
  obtain rfl := Except.ok.inj merges
  exact ⟨cur, selects, rfl, rfl, rfl⟩

theorem past_iff : Past returned now frozen.fingerprint ↔
    ∀ e ∈ returned, (⟨now / 1000, frozen.fingerprint⟩ : Version).Newer (profileVersion e) := by
  refine forall₂_congr fun e _ => ?_
  rw [Memory.Version.newer_iff]
  exact or_congr_right (and_congr_left fun _ => eq_comm)

/-- **A frozen profile really replaces the one it was merged from** if and only if no two profiles of the last
second were returned, and the clock is past it. -/
theorem replaces_iff
    (froze : freeze broker manifest request buzzEvents outside counter countedAt now = .ok (some frozen)) :
    Replaces (returnedTo broker manifest.pubkey buzzEvents outside) request.fields frozen ↔
      Untied (returnedTo broker manifest.pubkey buzzEvents outside) ∧
        Past (returnedTo broker manifest.pubkey buzzEvents outside) now frozen.fingerprint := by
  obtain ⟨cur, selects, current, profile, time⟩ := freeze_eq_ok froze
  have version : frozen.version = ⟨now / 1000, frozen.fingerprint⟩ := by
    unfold FrozenProfile.version
    rw [time]
  rcases currentProfile_eq_ok selects with ⟨none, empty⟩ | ⟨selected, some, member, before, parsed⟩
  · rw [empty]
    refine ⟨fun _ => ⟨nofun, nofun⟩, fun _ => ⟨nofun, ?_, nofun, ?_⟩⟩
    · intro selected found
      rw [current, none] at found
      cases found
    · intro selected found
      rw [current, none] at found
      cases found
  · rw [past_iff]
    constructor
    · intro replaces
      refine ⟨?_, version ▸ replaces.relays⟩
      -- the selected one has the greatest id of its second, and is to have the lowest
      have only : ∀ e ∈ returnedTo broker manifest.pubkey buzzEvents outside,
          e.createdAt = selected.createdAt → e.id = selected.id := by
        intro e inside same
        obtain ⟨other, found, -, lowest⟩ := replaces.kept e inside
        obtain rfl := Option.some_inj.mp (found.symm.trans (current.trans some))
        by_contra differ
        have low : other.id < e.id := by
          rcases Memory.Version.newer_iff.mp (lowest differ) with later | ⟨-, low⟩
          · exact absurd same (ne_of_lt later)
          · exact low
        rcases profileOrder_iff.mp (before e inside) with earlier | ⟨-, high⟩
        · exact absurd same (ne_of_lt earlier)
        · exact absurd low (not_lt.mpr high)
      intro a first b second last same
      have top : a.createdAt = selected.createdAt := by
        refine le_antisymm ?_ (last selected member)
        rcases profileOrder_iff.mp (before a first) with earlier | ⟨tie, -⟩
        · exact earlier.le
        · exact tie.le
      rw [only a first top, only b second (same.symm.trans top)]
    · rintro ⟨untied, past⟩
      have last : ∀ e ∈ returnedTo broker manifest.pubkey buzzEvents outside, e.createdAt ≤ selected.createdAt := by
        intro e inside
        rcases profileOrder_iff.mp (before e inside) with earlier | ⟨tie, -⟩
        · exact earlier.le
        · exact tie.le
      refine ⟨fun e inside => ⟨selected, current.trans some, member, fun differ => ?_⟩, ?_, version ▸ past, ?_⟩
      · refine Memory.Version.newer_iff.mpr (.inl (lt_of_le_of_ne (last e inside) fun tie => differ ?_))
        exact (untied selected member e inside last tie.symm).symm
      · intro other found
        obtain rfl := Option.some_inj.mp (found.symm.trans (current.trans some))
        exact version ▸ past other member
      · intro other found
        obtain rfl := Option.some_inj.mp (found.symm.trans (current.trans some))
        refine ⟨cur.profile, parsed, fun name outside' human => ?_⟩
        rw [profile]
        exact get_mergeFields outside' human

end Facts

/-! ### Two profiles of one second -/

/-- A host that verifies every event with an id, and whose frozen event has an id of sevens. -/
def ProfileHost.sample : ProfileHost where
  host := .sample
  getEventHash _ := String.ofList (List.replicate 64 '7')
  credentialIn _ := none
  url _ := none
  directory _ := .error "offline"

def sampleProfile (digit : Char) (second : Int) (content : String) : Event where
  id := String.ofList (List.replicate 64 digit)
  pubkey := String.ofList (List.replicate 64 'a')
  createdAt := second
  kind := 0
  tags := []
  content := content
  sig := ""

def profileManifest : ProfileManifest := ⟨String.ofList (List.replicate 64 'a'), 3, []⟩

def renames : ProfileRequest := ⟨"r", .obj [("name", .str "n")], false⟩

/-- A profile with that text about itself. -/
def aboutProfile (digit about : Char) : Event :=
  sampleProfile digit 100 (Json.stringify (.obj [("about", .str (String.ofList [about]))]))

theorem exists_of_current {result : Except ProfileRefusal (Option FrozenProfile)} {current : Option Event}
    (froze : result.toOption.join.map (·.current) = some current) :
    ∃ frozen, result = .ok (some frozen) ∧ frozen.current = current := by
  match result with
  | .error _ => cases froze
  | .ok none => cases froze
  | .ok (some frozen) => exact ⟨frozen, rfl, Option.some_inj.mp froze⟩

/-- One profile, and a clock past it. -/
theorem replaces_sample : ∃ frozen,
    freeze .sample profileManifest renames [aboutProfile '1' 'x'] [] [] 200000 200000 = .ok (some frozen) ∧
      Replaces (returnedTo .sample profileManifest.pubkey [aboutProfile '1' 'x'] []) renames.fields frozen := by
  have selects : (freeze .sample profileManifest renames [aboutProfile '1' 'x'] [] [] 200000 200000).toOption.join.map
      (·.current) = some (some (aboutProfile '1' 'x')) := by decide +kernel
  obtain ⟨frozen, froze, -⟩ := exists_of_current selects
  refine ⟨frozen, froze, (replaces_iff froze).mpr ?_⟩
  have only : returnedTo .sample profileManifest.pubkey [aboutProfile '1' 'x'] [] = [aboutProfile '1' 'x'] := by
    decide +kernel
  rw [only]
  constructor
  · intro a first b second _ _
    rw [List.mem_singleton.mp first, List.mem_singleton.mp second]
  · intro e member
    rw [List.mem_singleton.mp member]
    exact .inl (by decide)

/-- **Two profiles of one second**: the one with the greater id is built on, which NIP-01 has replaced. -/
theorem tied_profiles : ∃ frozen,
    freeze .sample profileManifest renames [aboutProfile '1' 'x', aboutProfile 'f' 'y'] [] [] 200000 200000 =
        .ok (some frozen) ∧
      frozen.current = some (aboutProfile 'f' 'y') ∧
      (profileVersion (aboutProfile '1' 'x')).Newer (profileVersion (aboutProfile 'f' 'y')) ∧
      ¬Replaces (returnedTo .sample profileManifest.pubkey [aboutProfile '1' 'x', aboutProfile 'f' 'y'] [])
        renames.fields frozen := by
  have selects : (freeze .sample profileManifest renames [aboutProfile '1' 'x', aboutProfile 'f' 'y'] [] []
      200000 200000).toOption.join.map (·.current) = some (some (aboutProfile 'f' 'y')) := by decide +kernel
  obtain ⟨frozen, froze, current⟩ := exists_of_current selects
  have newer : (profileVersion (aboutProfile '1' 'x')).Newer (profileVersion (aboutProfile 'f' 'y')) :=
    Memory.Version.newer_iff.mpr (.inr ⟨rfl, by decide +kernel⟩)
  refine ⟨frozen, froze, current, newer, fun replaces => ?_⟩
  obtain ⟨selected, found, -, lowest⟩ := replaces.kept (aboutProfile '1' 'x') (by decide +kernel)
  obtain rfl := Option.some_inj.mp (found.symm.trans current)
  exact Memory.Version.Newer.asymm newer (lowest (by decide +kernel))

end Nvoy.Broker
