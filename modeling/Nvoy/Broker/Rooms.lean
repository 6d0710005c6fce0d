/-
**Whom a name names**: the lists an identity matches a written mention with, over every refresh of
its rooms.

A name is matched without case and separators. The manifest's list, the mention grants and the
members of a room each bring names, and four places keep them apart:

* `readRooms`, `recordMentionRooms`, `readMentionRooms` — the members of the rooms with their names,
  and the file they are kept in;
* `roomEntries`, `mentionable` — everyone a message of a channel may mention;
* `OneKey`, `matches_unique` — no two keys of a list have names that fold to one text, so a written
  mention matches one key;
* `NamesOneKey` — it is so for every list that a history of refreshes leads to, and the mention grants
  merge alike in every order;
* `names_one_key_iff` — exactly where the manifest's names fold apart and no refresh without profiles
  brings two last names together (`Carries`);
* `manifest_names_clash`, `carried_names_clash` — the two ways a name comes to name two keys.
-/

import Nvoy.Broker.Mentions
import Nvoy.Lib.Runs

namespace Nvoy.Broker.Rooms

open Admission (isMentionName)
open Memory (isJsSpace isSafeInteger trim)
open Runs (run Meets)

/-! ### The members of the rooms -/

/-- A member of a room, with its name where it has one of its own. -/
structure RoomEntry where
  pubkey : String
  name : Option String
deriving DecidableEq

/-- `replace(/\s+/g, '-')` -/
def dashed : Bool → List Char → List Char
  | _, [] => []
  | inside, c :: rest =>
    if isJsSpace c then (if inside then dashed true rest else '-' :: dashed true rest)
    else c :: dashed false rest

/-- `[a-z0-9]` -/
def isFoldChar (c : Char) : Bool := c.isLower || c.isDigit

/-- `mentionName`: what a profile's name is typed as. -/
def mentionName (host : Host) (content : String) : Option String := do
  let profile ← Json.parse content.toList
  let raw ← [profile.get "name", profile.get "display_name"].findSome? fun value =>
    (value.bind Json.string).filter fun text => trim text ≠ ""
  let typed := (dashed false (host.toLowerCase (trim raw)).toList).filter fun c =>
    isFoldChar c || c = '.' || c = '_' || c = '-'
  let name := String.ofList ((typed.dropWhile fun c => !isFoldChar c).take 32)
  if isMentionName name then some name else none

/-- `namesFrom`: the newest verified profile of each key. -/
def namesFrom (host : Host) (events : List Event) (wanted : List String) :
    JsMap String (Option String) :=
  let newest := events.foldl (fun newest ev =>
    if ev.kind = 0 && wanted.contains ev.pubkey && isSafeInteger ev.createdAt && host.verifyEvent ev
    then
      if (newest.get ev.pubkey).all fun held => held.createdAt < ev.createdAt then
        newest.set ev.pubkey ev
      else newest
    else newest) (JsMap.empty : JsMap String Event)
  newest.mapValues fun ev => mentionName host ev.content

def PROFILE_BATCH : Nat := 100

/-- The relay's answers to one refresh: to the member list of a room and to the profiles of a batch of
keys; `none` where the session throws. -/
structure Reading where
  rooms : List String
  rosters : String → Option (List Event)
  profiles : Nat → Option (List Event)

/-- The members of the rooms that could be read. -/
def Reading.members (reading : Reading) (host : Host) (relaySigner me : String) :
    JsMap String (List String) :=
  JsMap.collect reading.rooms fun room => (reading.rosters room).map fun events =>
    ((rosterFrom host events room relaySigner).getD []).filter (· ≠ me)

def batches (everyone : List String) : List (List String) :=
  (List.range ((everyone.length + PROFILE_BATCH - 1) / PROFILE_BATCH)).map fun i =>
    (everyone.drop (i * PROFILE_BATCH)).take PROFILE_BATCH

/-- The names of the members; `none` where the profiles could not be read. -/
def Reading.names (reading : Reading) (host : Host) (everyone : List String) :
    Option (JsMap String (Option String)) :=
  (batches everyone).zipIdx.foldlM (fun names batch => do
    let events ← reading.profiles batch.2
    return (namesFrom host events batch.1).entries.foldl
      (fun names entry => names.set entry.1 entry.2) names) .empty

/-- The keys whose names fold to this text. -/
def holders (names : JsMap String (Option String)) (folded : String) : List String :=
  names.entries.filterMap fun entry =>
    if entry.2.any (foldName · = folded) then some entry.1 else none

/-- A name two keys reduce to is kept by neither. -/
def nameOf (names : JsMap String (Option String)) (pubkey : String) : Option String :=
  ((names.get pubkey).bind id).filter fun name => (holders names (foldName name)).length = 1

/-- What `readRooms` resolves to; `noProfiles` where `failed` has the entry of the profiles. -/
structure RoomsRead where
  rooms : JsMap String (List RoomEntry)
  noProfiles : Bool

def readRooms (host : Host) (relaySigner me : String) (reading : Reading) : RoomsRead :=
  let read := reading.members host relaySigner me
  let everyone := (JsSet.ofList read.values.flatten).items
  let names := reading.names host everyone
  { rooms := read.mapValues fun keys => keys.map fun pubkey =>
      ⟨pubkey, nameOf (names.getD .empty) pubkey⟩
    noProfiles := names.isNone }

/-! ### The file -/

abbrev RoomLists := JsMap String (List RoomEntry)

def entryOk (e : RoomEntry) : Bool := isHex64 e.pubkey && e.name.all isMentionName

/-- `readMentionRooms`, of a file that can be read whole. -/
def readMentionRooms (m : MayPost) (file : Option RoomLists) : Option RoomLists :=
  file.map fun rooms => JsMap.collect m.channels fun c => (rooms.get c).map (·.filter entryOk)

/-- The last name of each key, over the lists of all rooms. -/
def lastNames (last : RoomLists) : JsMap String String :=
  last.values.flatten.foldl (fun names e =>
    match e.name with
    | some name => names.set e.pubkey name
    | none => names) .empty

/-- A list read without profiles: the members keep their last names. -/
def fresh (last : RoomLists) (read : RoomsRead) (list : List RoomEntry) : List RoomEntry :=
  if read.noProfiles then
    list.map fun e => ⟨e.pubkey, e.name.or ((lastNames last).get e.pubkey)⟩
  else list

/-- The rooms `recordMentionRooms` writes. -/
def merged (m : MayPost) (last : RoomLists) (read : RoomsRead) : RoomLists :=
  JsMap.collect m.channels fun c => ((read.rooms.get c).map (fresh last read)).or (last.get c)

/-- What becomes of the file. -/
inductive Written where
  | whole
  /-- The file cannot be opened. -/
  | refused
  /-- The write is cut short, and no reader can parse what it leaves. -/
  | torn
deriving DecidableEq

/-- One refresh; `reads` where the file could be read before it. -/
structure Refresh where
  reading : Reading
  reads : Bool
  written : Written

def Refresh.last (refresh : Refresh) (m : MayPost) (file : Option RoomLists) : RoomLists :=
  (if refresh.reads then readMentionRooms m file else none).getD .empty

/-- `recordMentionRooms` on what `readRooms` resolved to. -/
def recordMentionRooms (host : Host) (manifest : PostManifest) (m : MayPost) (file : Option RoomLists)
    (refresh : Refresh) : Option RoomLists :=
  if m.mentionRooms then
    match refresh.written with
    | .whole =>
      some (merged m (refresh.last m file)
        (readRooms host manifest.relaySigner manifest.pubkey refresh.reading))
    | .refused => file
    | .torn => none
  else file

/-! ### The lists -/

/-- `roomEntries`: the members a room adds to the list. -/
def roomEntries (m : MayPost) (mention : List Mentionable) (rooms : RoomLists) (channel : String) :
    List Mentionable :=
  if m.mentionRooms && channel ≠ "" then
    let held := (mention.filterMap (·.name)).map foldName
    (((rooms.get channel).getD []).filter fun r =>
      isHex64 r.pubkey && !mention.any (·.pubkey = r.pubkey)).map fun r =>
        ⟨r.pubkey, r.name.filter fun name => isMentionName name && !held.contains (foldName name), []⟩
  else []

/-- `mentionable`, in a view with these mention grants and this file. -/
def mentionable (m : MayPost) (grants : Option Json) (file : Option RoomLists) (channel : String) :
    List Mentionable :=
  let mention := withMentionGrants m grants
  mention ++ roomEntries m mention ((readMentionRooms m file).getD .empty) channel

/-! ### What a name names -/

/-- No two keys of the list have names that fold to one text: a written name names at most one. -/
def OneKey (list : List Mentionable) : Prop :=
  ∀ e ∈ list, ∀ e' ∈ list, ∀ name ∈ e.name, ∀ name' ∈ e'.name, foldName name = foldName name' →
    e.pubkey = e'.pubkey

/-- Does a written mention, lowered, match the entry? By key, or by name. -/
def matchesEntry (value : String) (e : Mentionable) : Bool :=
  e.pubkey = value || e.name.any (foldName · = foldName value)

/-- What `readManifest` lets through of `may_post.mention`: its names are distinct in lower case. -/
structure Accepted (m : MayPost) : Prop where
  names : ∀ e ∈ m.mention, ∀ name ∈ e.name, isMentionName name = true
  pubkeys : (m.mention.map (·.pubkey)).Nodup
  lowered : ((m.mention.filterMap (·.name)).map Memory.lowerAscii).Nodup
  channels : m.channels.Nodup
  ungranted : ∀ e ∈ m.mention, e.grants = []

/-- The names of the list, as they are matched. -/
def foldedNames (list : List Mentionable) : List String := (list.filterMap (·.name)).map foldName

theorem mem_foldedNames {list : List Mentionable} {folded : String} :
    folded ∈ foldedNames list ↔ ∃ e ∈ list, ∃ name ∈ e.name, foldName name = folded := by
  simp only [foldedNames, List.mem_map, List.mem_filterMap, Option.mem_def]
  constructor
  · rintro ⟨name, ⟨e, mem, named⟩, same⟩
    exact ⟨e, mem, name, named, same⟩
  · rintro ⟨e, mem, name, named, same⟩
    exact ⟨name, ⟨e, mem, named⟩, same⟩

/-- Among distinct keys, names that name one key each are distinct names. -/
theorem oneKey_iff_nodup {list : List Mentionable} (pubkeys : (list.map (·.pubkey)).Nodup) :
    OneKey list ↔ (foldedNames list).Nodup := by
  induction list with
  | nil => simp [OneKey, foldedNames]
  | cons e rest ih =>
      rw [List.map_cons, List.nodup_cons] at pubkeys
      have split : OneKey (e :: rest) ↔ OneKey rest ∧
          ∀ name ∈ e.name, foldName name ∉ foldedNames rest := by
        constructor
        · intro one
          refine ⟨fun a mem b mem' => one a (List.mem_cons_of_mem _ mem) b
            (List.mem_cons_of_mem _ mem'), fun name named inside => ?_⟩
          obtain ⟨other, mem, name', named', same⟩ := mem_foldedNames.mp inside
          have key := one e List.mem_cons_self other (List.mem_cons_of_mem _ mem) name named name'
            named' same.symm
          exact pubkeys.1 (key ▸ List.mem_map_of_mem mem)
        · rintro ⟨one, apart⟩ a mem b mem' name named name' named' same
          rcases List.mem_cons.mp mem with here | later
          · rcases List.mem_cons.mp mem' with here' | later'
            · rw [here, here']
            · rw [here] at named
              exact absurd (mem_foldedNames.mpr ⟨b, later', name', named', same.symm⟩)
                (apart name named)
          · rcases List.mem_cons.mp mem' with here' | later'
            · rw [here'] at named'
              exact absurd (mem_foldedNames.mpr ⟨a, later, name, named, same⟩) (apart name' named')
            · exact one a later b later' name named name' named' same
      rw [split, ih pubkeys.2]
      cases named : e.name with
      | none => simp [foldedNames, named]
      | some name => simp [foldedNames, named, and_comm]

/-- Keys and names of the list have their forms. -/
def Formed (list : List Mentionable) : Prop :=
  ∀ e ∈ list, isHex64 e.pubkey = true ∧ ∀ name ∈ e.name, isMentionName name = true

theorem length_foldName_le (name : String) : (foldName name).toList.length ≤ name.toList.length := by
  rw [foldName, String.toList_ofList]
  exact (List.length_filter_le _ _).trans (List.length_map _).le

theorem length_le_of_isMentionName {name : String} (valid : isMentionName name = true) :
    name.toList.length ≤ 32 := by
  unfold isMentionName at valid
  split at valid
  next => cases valid
  next c rest split =>
    rw [split]
    simp only [Bool.and_eq_true, decide_eq_true_eq] at valid
    exact Nat.succ_le_succ valid.1.2

/-- A key folds to itself. -/
theorem foldName_of_isHex64 {key : String} (hex : isHex64 key = true) : foldName key = key := by
  have lowered : key.toList.map Char.toLower = key.toList := by
    have same := congrArg String.toList (Memory.lowerAscii_of_isHex64 hex)
    rwa [Memory.lowerAscii, String.toList_ofList] at same
  have kept : ∀ c ∈ key.toList, (c.isLower || c.isDigit) = true := by
    intro c mem
    have low := List.all_eq_true.mp (Bool.and_eq_true _ _ ▸ hex).2 c mem
    simp only [isLowerHex, Bool.or_eq_true, Bool.and_eq_true, decide_eq_true_eq] at low
    rw [Bool.or_eq_true]
    rcases low with digit | ⟨above, below⟩
    · exact .inr digit
    · refine .inl ?_
      unfold Char.isLower
      simp only [Bool.and_eq_true, decide_eq_true_eq, ge_iff_le]
      exact ⟨above, below.trans (by decide)⟩
  rw [foldName, lowered, List.filter_eq_self.mpr kept, String.ofList_toList]

/-- **A written mention matches one key.** -/
theorem matches_unique {list : List Mentionable} (one : OneKey list) (formed : Formed list)
    {value : String} {e e' : Mentionable} (mem : e ∈ list) (mem' : e' ∈ list)
    (hit : matchesEntry value e = true) (hit' : matchesEntry value e' = true) :
    e.pubkey = e'.pubkey := by
  -- No name is as long as a key.
  have apart : ∀ a ∈ list, ∀ b ∈ list, ∀ name ∈ b.name, foldName name ≠ foldName a.pubkey := by
    intro a listed b listed' name named same
    have long : a.pubkey.toList.length = 64 := by
      have hex := (formed a listed).1
      simp only [isHex64, Bool.and_eq_true, decide_eq_true_eq] at hex
      exact hex.1
    have short := length_le_of_isMentionName ((formed b listed').2 name named)
    have folded := length_foldName_le name
    rw [same, foldName_of_isHex64 (formed a listed).1] at folded
    omega
  simp only [matchesEntry, Bool.or_eq_true, decide_eq_true_eq, Option.any_eq_true] at hit hit'
  rcases hit with rfl | ⟨name, named, same⟩
  · rcases hit' with key | ⟨name', named', same'⟩
    · exact key.symm
    · exact absurd same' (apart e mem e' mem' name' named')
  · rcases hit' with rfl | ⟨name', named', same'⟩
    · exact absurd same (apart e' mem' e mem name named)
    · exact one e mem e' mem' name named name' named' (same.trans same'.symm)

/-! ### The mention grants -/

section Grants

variable {m : MayPost}

theorem oneKey_mergeMention {before : Merged} (one : OneKey before.mention) (g : MentionGrant) :
    OneKey (mergeMention before g).mention := by
  unfold mergeMention
  dsimp only
  split
  next => exact one
  next free =>
    split
    next =>
      intro e mem e' mem' name named name' named' same
      obtain ⟨a, listed, rfl⟩ := List.mem_map.mp mem
      obtain ⟨b, listed', rfl⟩ := List.mem_map.mp mem'
      have keys : ∀ x : Mentionable, (if x.pubkey = g.pubkey then
          { x with grants := x.grants ++ [g.grantId] } else x).pubkey = x.pubkey ∧
          (if x.pubkey = g.pubkey then
          { x with grants := x.grants ++ [g.grantId] } else x).name = x.name := by
        intro x
        split_ifs <;> exact ⟨rfl, rfl⟩
      rw [(keys a).2] at named
      rw [(keys b).2] at named'
      rw [(keys a).1, (keys b).1]
      exact one a listed b listed' name named name' named' same
    next =>
      -- The name of the new key is held by no other.
      have held : ∀ e ∈ before.mention, ∀ name ∈ e.name, foldName name = foldName g.name →
          e.pubkey = g.pubkey := by
        intro e mem name named same
        have unheld := List.find?_eq_none.mp free e mem
        rw [Option.mem_def] at named
        by_contra other
        exact unheld (by simp [other, named, same])
      intro e mem e' mem' name named name' named' same
      rcases List.mem_append.mp mem with old | new
      · rcases List.mem_append.mp mem' with old' | new'
        · exact one e old e' old' name named name' named' same
        · obtain rfl := List.mem_singleton.mp new'
          obtain rfl := Option.mem_some.mp named'
          exact held e old name named same
      · obtain rfl := List.mem_singleton.mp new
        obtain rfl := Option.mem_some.mp named
        rcases List.mem_append.mp mem' with old' | new'
        · exact (held e' old' name' named' same.symm).symm
        · obtain rfl := List.mem_singleton.mp new'
          rfl

/-- The manifest's entries stay, under their names, whatever is attached to them. -/
theorem kept_mergeMention (before : Merged) (g : MentionGrant) :
    before.mention.map (fun e => (e.pubkey, e.name)) <+:
      (mergeMention before g).mention.map fun e => (e.pubkey, e.name) := by
  unfold mergeMention
  dsimp only
  split
  next => exact List.prefix_rfl
  next =>
    split
    next =>
      rw [List.map_map]
      have same : ((fun e : Mentionable => (e.pubkey, e.name)) ∘ fun e =>
          if e.pubkey = g.pubkey then { e with grants := e.grants ++ [g.grantId] } else e) =
          fun e => (e.pubkey, e.name) := by
        funext e
        dsimp only [Function.comp]
        split_ifs <;> rfl
      rw [same]
    next =>
      rw [List.map_append]
      exact List.prefix_append _ _

theorem kept_foldl (grants : List MentionGrant) (before : Merged) :
    before.mention.map (fun e => (e.pubkey, e.name)) <+:
      (grants.foldl mergeMention before).mention.map fun e => (e.pubkey, e.name) := by
  induction grants generalizing before with
  | nil => exact List.prefix_rfl
  | cons g rest ih => exact (kept_mergeMention before g).trans (ih (mergeMention before g))

theorem kept_mergeMentions (entries : List Mentionable) (grants : List Json) :
    entries.map (fun e => (e.pubkey, e.name)) <+:
      (mergeMentions entries grants).mention.map fun e => (e.pubkey, e.name) := by
  rw [mergeMentions]
  refine List.IsPrefix.trans ?_ (kept_foldl _ _)
  rw [List.map_map]
  exact List.prefix_rfl

theorem oneKey_foldl (grants : List MentionGrant) {before : Merged} (one : OneKey before.mention) :
    OneKey (grants.foldl mergeMention before).mention := by
  induction grants generalizing before with
  | nil => exact one
  | cons g rest ih => exact ih (oneKey_mergeMention one g)

theorem oneKey_mergeMentions {entries : List Mentionable} (one : OneKey entries)
    (grants : List Json) : OneKey (mergeMentions entries grants).mention := by
  rw [mergeMentions]
  refine oneKey_foldl _ ?_
  intro e mem e' mem' name named name' named' same
  obtain ⟨a, listed, rfl⟩ := List.mem_map.mp mem
  obtain ⟨b, listed', rfl⟩ := List.mem_map.mp mem'
  exact one a listed b listed' name named name' named' same

theorem formed_mergeMention {before : Merged} (formed : Formed before.mention) {g : MentionGrant}
    (hex : isHex64 g.pubkey = true) (valid : isMentionName g.name = true) :
    Formed (mergeMention before g).mention := by
  unfold mergeMention
  dsimp only
  split
  next => exact formed
  next =>
    split
    next =>
      intro e mem
      obtain ⟨a, listed, rfl⟩ := List.mem_map.mp mem
      split_ifs <;> exact formed a listed
    next =>
      intro e mem
      rcases List.mem_append.mp mem with old | new
      · exact formed e old
      · rw [List.mem_singleton.mp new]
        exact ⟨hex, fun name named => Option.mem_some.mp named ▸ valid⟩

/-- The live grants, each read and in its form. -/
def validGrants (grants : List Json) : List MentionGrant := grants.filterMap mentionGrantOf

theorem formed_of_valid {grants : List Json} {g : MentionGrant} (mem : g ∈ validGrants grants) :
    isHex64 g.pubkey = true ∧ isMentionName g.name = true := by
  obtain ⟨value, -, read⟩ := List.mem_filterMap.mp mem
  unfold mentionGrantOf at read
  simp only [Option.bind_eq_bind, Option.bind_eq_some_iff, Option.guard_eq_some', exists_const,
    Option.pure_def, Option.some.injEq, Bool.and_eq_true] at read
  obtain ⟨pubkey, -, name, -, grantId, -, createdAt, -, forms, rfl⟩ := read
  exact ⟨forms.1.1.1, forms.1.1.2⟩

theorem formed_foldl {grants : List MentionGrant} {before : Merged} (formed : Formed before.mention)
    (each : ∀ g ∈ grants, isHex64 g.pubkey = true ∧ isMentionName g.name = true) :
    Formed (grants.foldl mergeMention before).mention := by
  induction grants generalizing before with
  | nil => exact formed
  | cons g rest ih =>
      have first := each g List.mem_cons_self
      exact ih (formed_mergeMention formed first.1 first.2)
        fun g mem => each g (List.mem_cons_of_mem _ mem)

theorem formed_withMentionGrants (formed : Formed m.mention) (grants : Option Json) :
    Formed (withMentionGrants m grants) := by
  unfold withMentionGrants
  split
  next => exact formed
  next => exact formed
  next items _ _ =>
    rw [mergeMentions]
    refine formed_foldl (fun e mem => ?_) fun g mem => ?_
    · obtain ⟨a, listed, rfl⟩ := List.mem_map.mp mem
      exact formed a listed
    · rw [StableSort.mem_sortBy, (List.perm_insertionSort _ _).mem_iff] at mem
      exact formed_of_valid mem

theorem oneKey_withMentionGrants (one : OneKey m.mention) (grants : Option Json) :
    OneKey (withMentionGrants m grants) := by
  unfold withMentionGrants
  split
  next => exact one
  next => exact one
  next => exact oneKey_mergeMentions one _

theorem kept_withMentionGrants (grants : Option Json) :
    m.mention.map (fun e => (e.pubkey, e.name)) <+:
      (withMentionGrants m grants).map fun e => (e.pubkey, e.name) := by
  unfold withMentionGrants
  split
  next => exact List.prefix_rfl
  next => exact List.prefix_rfl
  next => exact kept_mergeMentions m.mention _

/-- Any order of the grants gives the same list and the same refusals. -/
theorem mergeMentions_perm (entries : List Mentionable) {grants grants' : List Json}
    (ids : ((validGrants grants).map (·.grantId)).Nodup) (perm : grants'.Perm grants) :
    mergeMentions entries grants' = mergeMentions entries grants := by
  have listed : (validGrants grants').Perm (validGrants grants) := perm.filterMap _
  have ids' : ((validGrants grants').map (·.grantId)).Nodup := (listed.map _).nodup_iff.mpr ids
  have same : (validGrants grants').insertionSort (fun a b => a.grantId ≤ b.grantId) =
      (validGrants grants).insertionSort fun a b => a.grantId ≤ b.grantId := by
    refine ((List.perm_insertionSort _ _).trans (listed.trans
      (List.perm_insertionSort _ _).symm)).eq_of_pairwise ?_
      (StableSort.pairwise_insertionSort_lt ids') (StableSort.pairwise_insertionSort_lt ids)
    exact fun a b _ _ less less' => absurd (less.trans less') (lt_irrefl a.grantId)
  rw [validGrants, validGrants] at same
  rw [mergeMentions, same, mergeMentions]

/-- No refused grant is attached to an entry. -/
def Apart (merged : Merged) : Prop :=
  ∀ refusal ∈ merged.refused, ∀ e ∈ merged.mention, refusal.1 ∉ e.grants

/-- The grant has not been met. -/
def Unmet (merged : Merged) (grantId : String) : Prop :=
  (∀ refusal ∈ merged.refused, refusal.1 ≠ grantId) ∧ ∀ e ∈ merged.mention, grantId ∉ e.grants

/-- One grant is refused or attached, and no other. -/
theorem mergeMention_cases (before : Merged) (g : MentionGrant) :
    ((mergeMention before g).mention = before.mention ∧
      ∀ refusal ∈ (mergeMention before g).refused, refusal ∈ before.refused ∨ refusal.1 = g.grantId) ∨
    ((mergeMention before g).refused = before.refused ∧
      ∀ e ∈ (mergeMention before g).mention, ∀ grantId ∈ e.grants,
        grantId = g.grantId ∨ ∃ e' ∈ before.mention, grantId ∈ e'.grants) := by
  unfold mergeMention
  dsimp only
  split
  next =>
    refine .inl ⟨rfl, fun refusal mem => ?_⟩
    rcases List.mem_append.mp mem with old | new
    · exact .inl old
    · exact .inr (by rw [List.mem_singleton.mp new])
  next =>
    split
    next =>
      refine .inr ⟨rfl, fun e mem grantId attached => ?_⟩
      obtain ⟨a, listed, rfl⟩ := List.mem_map.mp mem
      split_ifs at attached
      · rcases List.mem_append.mp attached with old | new
        · exact .inr ⟨a, listed, old⟩
        · exact .inl (List.mem_singleton.mp new)
      · exact .inr ⟨a, listed, attached⟩
    next =>
      refine .inr ⟨rfl, fun e mem grantId attached => ?_⟩
      rcases List.mem_append.mp mem with old | new
      · exact .inr ⟨e, old, attached⟩
      · rw [List.mem_singleton.mp new] at attached
        exact .inl (List.mem_singleton.mp attached)

theorem apart_foldl {grants : List MentionGrant} {before : Merged} (apart : Apart before)
    (ids : (grants.map (·.grantId)).Nodup) (unmet : ∀ g ∈ grants, Unmet before g.grantId) :
    Apart (grants.foldl mergeMention before) := by
  induction grants generalizing before with
  | nil => exact apart
  | cons g rest ih =>
      rw [List.map_cons, List.nodup_cons] at ids
      have met := unmet g List.mem_cons_self
      refine ih ?_ ids.2 fun other mem => ?_
      · intro refusal refused e mem attached
        rcases mergeMention_cases before g with ⟨same, refusals⟩ | ⟨same, attachments⟩
        · rw [same] at mem
          rcases refusals refusal refused with old | new
          · exact apart refusal old e mem attached
          · exact met.2 e mem (new ▸ attached)
        · rw [same] at refused
          rcases attachments e mem refusal.1 attached with new | ⟨e', old, attached'⟩
          · exact met.1 refusal refused new
          · exact apart refusal refused e' old attached'
      · have before' := unmet other (List.mem_cons_of_mem _ mem)
        have differs : other.grantId ≠ g.grantId := fun same =>
          ids.1 (same ▸ List.mem_map_of_mem mem)
        rcases mergeMention_cases before g with ⟨same, refusals⟩ | ⟨same, attachments⟩
        · refine ⟨fun refusal refused other' => ?_, fun e mem => before'.2 e (same ▸ mem)⟩
          rcases refusals refusal refused with old | new
          · exact before'.1 refusal old other'
          · exact differs (other'.symm.trans new)
        · refine ⟨fun refusal refused => before'.1 refusal (same ▸ refused), fun e mem attached => ?_⟩
          rcases attachments e mem other.grantId attached with new | ⟨e', old, attached'⟩
          · exact differs new
          · exact before'.2 e' old attached'

/-- A refused grant is attached to no entry. -/
theorem apart_mergeMentions (entries : List Mentionable) {grants : List Json}
    (ids : ((validGrants grants).map (·.grantId)).Nodup) : Apart (mergeMentions entries grants) := by
  rw [mergeMentions]
  refine apart_foldl (fun refusal refused => absurd refused List.not_mem_nil) ?_ fun g _ => ?_
  · have listed : (StableSort.sortBy (·.createdAt) ((validGrants grants).insertionSort
        fun a b => a.grantId ≤ b.grantId)).Perm (validGrants grants) :=
      (StableSort.sortBy_perm _ _).trans (List.perm_insertionSort _ _)
    exact (listed.map _).nodup_iff.mpr ids
  · refine ⟨fun refusal refused => absurd refused List.not_mem_nil, fun e mem attached => ?_⟩
    obtain ⟨a, -, rfl⟩ := List.mem_map.mp mem
    exact List.not_mem_nil attached

end Grants

/-! ### The rooms -/

section Rooms

variable {host : Host} {manifest : PostManifest} {m : MayPost} {file : Option RoomLists}
  {mention : List Mentionable} {channel : String}

/-- A key that is not on the manifest's list, under a name that is not either. -/
def Outside (m : MayPost) (pubkey name : String) : Prop :=
  pubkey ∉ m.mention.map (·.pubkey) ∧ foldName name ∉ foldedNames m.mention

/-- No two members outside the manifest's list have names that fold to one text. -/
def Clear (m : MayPost) (list : List RoomEntry) : Prop :=
  ∀ r ∈ list, ∀ r' ∈ list, ∀ name ∈ r.name, ∀ name' ∈ r'.name, foldName name = foldName name' →
    Outside m r.pubkey name → Outside m r'.pubkey name' → r.pubkey = r'.pubkey

/-- What a reader of the file finds. -/
def readable (m : MayPost) (file : Option RoomLists) : RoomLists :=
  (readMentionRooms m file).getD .empty

def FileClear (m : MayPost) (file : Option RoomLists) : Prop :=
  ∀ c list, (readable m file).get c = some list → Clear m list

theorem mem_roomEntries {rooms : RoomLists} {e : Mentionable}
    (mem : e ∈ roomEntries m mention rooms channel) :
    ∃ r ∈ (rooms.get channel).getD [], e.pubkey = r.pubkey ∧
      r.pubkey ∉ mention.map (·.pubkey) ∧
      ∀ name ∈ e.name, name ∈ r.name ∧ foldName name ∉ foldedNames mention := by
  unfold roomEntries at mem
  split at mem
  next =>
    obtain ⟨r, kept, rfl⟩ := List.mem_map.mp mem
    obtain ⟨listed, free⟩ := List.mem_filter.mp kept
    simp only [Bool.and_eq_true, Bool.not_eq_true', List.any_eq_false, decide_eq_true_eq] at free
    refine ⟨r, listed, rfl, fun inside => ?_, fun name named => ?_⟩
    · obtain ⟨e, mem', same⟩ := List.mem_map.mp inside
      exact free.2 e mem' same
    · obtain ⟨own, usable⟩ := Option.filter_eq_some_iff.mp named
      simp only [Bool.and_eq_true, Bool.not_eq_true', List.contains_eq_mem,
        decide_eq_false_iff_not] at usable
      exact ⟨own, usable.2⟩
  next => exact absurd mem List.not_mem_nil

/-- A member outside the list is on it under a name that no listed entry holds. -/
theorem roomEntries_of_mem {rooms : RoomLists} {list : List RoomEntry} {r : RoomEntry}
    {name : String} (on : m.mentionRooms = true) (here : channel ≠ "")
    (found : rooms.get channel = some list) (listed : r ∈ list) (hex : isHex64 r.pubkey = true)
    (named : r.name = some name) (valid : isMentionName name = true)
    (unlisted : r.pubkey ∉ mention.map (·.pubkey)) (unheld : foldName name ∉ foldedNames mention) :
    ⟨r.pubkey, some name, []⟩ ∈ roomEntries m mention rooms channel := by
  unfold roomEntries
  rw [if_pos (by simp [on, here])]
  refine List.mem_map.mpr ⟨r, List.mem_filter.mpr ⟨?_, ?_⟩, ?_⟩
  · rw [found]
    exact listed
  · simpa [hex] using unlisted
  · have usable : (isMentionName name &&
        !((mention.filterMap (·.name)).map foldName).contains (foldName name)) = true := by
      rw [Bool.and_eq_true, Bool.not_eq_true', List.contains_eq_mem, decide_eq_false_iff_not]
      exact ⟨valid, unheld⟩
    simp only [named, Option.filter_some, usable, if_true]

theorem pubkey_withMentionGrants {grants : Option Json} {pubkey : String}
    (mem : pubkey ∈ m.mention.map (·.pubkey)) :
    pubkey ∈ (withMentionGrants m grants).map (·.pubkey) := by
  obtain ⟨e, listed, rfl⟩ := List.mem_map.mp mem
  have kept := (kept_withMentionGrants (m := m) grants).subset
    (List.mem_map_of_mem (f := fun e : Mentionable => (e.pubkey, e.name)) listed)
  obtain ⟨e', listed', same⟩ := List.mem_map.mp kept
  exact List.mem_map.mpr ⟨e', listed', congrArg Prod.fst same⟩

theorem foldedNames_withMentionGrants {grants : Option Json} {folded : String}
    (mem : folded ∈ foldedNames m.mention) : folded ∈ foldedNames (withMentionGrants m grants) := by
  obtain ⟨e, listed, name, named, same⟩ := mem_foldedNames.mp mem
  have kept := (kept_withMentionGrants (m := m) grants).subset
    (List.mem_map_of_mem (f := fun e : Mentionable => (e.pubkey, e.name)) listed)
  obtain ⟨e', listed', equal⟩ := List.mem_map.mp kept
  refine mem_foldedNames.mpr ⟨e', listed', name, ?_, same⟩
  have names : e'.name = e.name := congrArg Prod.snd equal
  rw [names]
  exact named

/-- **One list.** Names that fold apart in the manifest and in the room fold apart in the list. -/
theorem oneKey_mentionable (one : OneKey m.mention) (clear : FileClear m file)
    (grants : Option Json) (channel : String) : OneKey (mentionable m grants file channel) := by
  intro e mem e' mem' name named name' named' same
  have outside : ∀ r : RoomEntry, ∀ n, r.pubkey ∉ (withMentionGrants m grants).map (·.pubkey) →
      foldName n ∉ foldedNames (withMentionGrants m grants) → Outside m r.pubkey n :=
    fun r n unlisted unheld => ⟨fun mem => unlisted (pubkey_withMentionGrants mem),
      fun mem => unheld (foldedNames_withMentionGrants mem)⟩
  rcases List.mem_append.mp mem with listed | room
  · rcases List.mem_append.mp mem' with listed' | room'
    · exact oneKey_withMentionGrants one grants e listed e' listed' name named name' named' same
    · obtain ⟨r', -, -, -, free'⟩ := mem_roomEntries room'
      exact absurd (mem_foldedNames.mpr ⟨e, listed, name, named, same⟩) (free' name' named').2
  · obtain ⟨r, inside, key, unlisted, free⟩ := mem_roomEntries room
    rcases List.mem_append.mp mem' with listed' | room'
    · exact absurd (mem_foldedNames.mpr ⟨e', listed', name', named', same.symm⟩) (free name named).2
    · obtain ⟨r', inside', key', unlisted', free'⟩ := mem_roomEntries room'
      rw [key, key']
      cases found : (readable m file).get channel with
      | none =>
          rw [show ((readMentionRooms m file).getD .empty).get channel = none from found] at inside
          exact absurd inside List.not_mem_nil
      | some list =>
          rw [show ((readMentionRooms m file).getD .empty).get channel = some list from found]
            at inside inside'
          exact clear channel list found r inside r' inside' name (free name named).1 name'
            (free' name' named').1 same (outside r name unlisted (free name named).2)
            (outside r' name' unlisted' (free' name' named').2)

/-! ### One refresh -/

theorem formed_mentionable (formed : Formed m.mention) (grants : Option Json) (channel : String) :
    Formed (mentionable m grants file channel) := by
  intro e mem
  rcases List.mem_append.mp mem with listed | room
  · exact formed_withMentionGrants formed grants e listed
  · unfold roomEntries at room
    split at room
    next =>
      obtain ⟨r, kept, rfl⟩ := List.mem_map.mp room
      have free := (List.mem_filter.mp kept).2
      rw [Bool.and_eq_true] at free
      refine ⟨free.1, fun name named => ?_⟩
      have usable := (Option.filter_eq_some_iff.mp named).2
      rw [Bool.and_eq_true] at usable
      exact usable.1
    next => exact absurd room List.not_mem_nil

theorem get_readable {rooms : RoomLists} {c : String} {list : List RoomEntry} :
    (readable m (some rooms)).get c = some list ↔
      c ∈ m.channels ∧ ∃ whole, rooms.get c = some whole ∧ whole.filter entryOk = list := by
  show (JsMap.collect m.channels _).get c = _ ↔ _
  rw [JsMap.get_collect]
  split
  next mem => simp [mem, Option.map_eq_some_iff]
  next out => simp [out]

theorem Clear.sublist {list part : List RoomEntry} (clear : Clear m list)
    (sub : part.Sublist list) : Clear m part := fun r mem r' mem' =>
  clear r (sub.subset mem) r' (sub.subset mem')

/-- Among the names one refresh has read, no two keys share one. -/
theorem nameOf_inj {names : JsMap String (Option String)} {p q name name' : String}
    (own : nameOf names p = some name) (own' : nameOf names q = some name')
    (same : foldName name = foldName name') : p = q := by
  obtain ⟨held, single⟩ := Option.filter_eq_some_iff.mp own
  obtain ⟨held', -⟩ := Option.filter_eq_some_iff.mp own'
  have inside : ∀ {key text : String}, (names.get key).bind id = some text →
      foldName text = foldName name → key ∈ holders names (foldName name) := by
    intro key text found folds
    obtain ⟨value, there, known⟩ := Option.bind_eq_some_iff.mp found
    refine List.mem_filterMap.mpr ⟨(key, value), JsMap.mem_entries.mpr there, ?_⟩
    rw [show value = some text from known]
    simp [folds]
  obtain ⟨key, only⟩ := List.length_eq_one_iff.mp (of_decide_eq_true single)
  have first := inside held rfl
  have second := inside held' same.symm
  rw [only, List.mem_singleton] at first second
  rw [first, second]

def Refresh.read (refresh : Refresh) (host : Host) (manifest : PostManifest) : RoomsRead :=
  readRooms host manifest.relaySigner manifest.pubkey refresh.reading

def Refresh.members (refresh : Refresh) (host : Host) (manifest : PostManifest) :
    JsMap String (List String) :=
  refresh.reading.members host manifest.relaySigner manifest.pubkey

/-- A refresh that writes without profiles reads no room in which two members outside the manifest's
list have last names that fold to one text. -/
def Carries (host : Host) (manifest : PostManifest) (m : MayPost) (file : Option RoomLists)
    (refresh : Refresh) : Prop :=
  m.mentionRooms = true → refresh.written = .whole → (refresh.read host manifest).noProfiles = true →
    ∀ c ∈ m.channels, ∀ keys, (refresh.members host manifest).get c = some keys →
      ∀ p ∈ keys, ∀ q ∈ keys, ∀ name name',
        (lastNames (refresh.last m file)).get p = some name →
        (lastNames (refresh.last m file)).get q = some name' → foldName name = foldName name' →
          Outside m p name → Outside m q name' → p = q

theorem get_read {refresh : Refresh} {c : String} {list : List RoomEntry}
    (found : (refresh.read host manifest).rooms.get c = some list) :
    ∃ keys names, (refresh.members host manifest).get c = some keys ∧
      list = keys.map (fun p => ⟨p, nameOf names p⟩) ∧
      ((refresh.read host manifest).noProfiles = true → names = .empty) := by
  have found' : ((refresh.members host manifest).mapValues _).get c = some list := found
  rw [JsMap.get_mapValues, Option.map_eq_some_iff] at found'
  obtain ⟨keys, members, rfl⟩ := found'
  refine ⟨keys, _, members, rfl, fun none => ?_⟩
  rw [Option.isNone_iff_eq_none.mp none]
  rfl

theorem readable_of_last {refresh : Refresh} {c : String} {list : List RoomEntry}
    (found : (refresh.last m file).get c = some list) : (readable m file).get c = some list := by
  unfold Refresh.last at found
  split at found
  next => exact found
  next => exact absurd found (by simp)

theorem fileClear_record {refresh : Refresh} (clear : FileClear m file)
    (carries : Carries host manifest m file refresh) :
    FileClear m (recordMentionRooms host manifest m file refresh) := by
  unfold recordMentionRooms
  split
  next on =>
    split
    next whole =>
      intro c list found
      obtain ⟨mem, all, there, rfl⟩ := get_readable.mp found
      refine Clear.sublist ?_ List.filter_sublist
      rw [merged, JsMap.get_collect, if_pos mem, Option.or_eq_some_iff] at there
      rcases there with read | ⟨-, last⟩
      · obtain ⟨old, inside, rfl⟩ := Option.map_eq_some_iff.mp read
        obtain ⟨keys, names, members, rfl, unread⟩ :=
          @get_read host manifest refresh c old inside
        rw [fresh]
        split
        next without =>
          obtain rfl := unread without
          intro r listed r' listed' name named name' named' same outside outside'
          simp only [List.map_map, List.mem_map, Function.comp_apply] at listed listed'
          obtain ⟨p, own, rfl⟩ := listed
          obtain ⟨q, own', rfl⟩ := listed'
          have blank : ∀ key, nameOf .empty key = none := fun key => rfl
          simp only [blank, Option.none_or] at named named'
          exact carries on whole without c mem keys members p own q own' name name' named named'
            same outside outside'
        next =>
          intro r listed r' listed' name named name' named' same _ _
          obtain ⟨p, -, rfl⟩ := List.mem_map.mp listed
          obtain ⟨q, -, rfl⟩ := List.mem_map.mp listed'
          exact nameOf_inj named named' same
      · exact clear c all (readable_of_last last)
    next => exact clear
    next => exact fun c list found => absurd found (by simp [readable, readMentionRooms])
  next => exact clear

/-- A last name is the name of a well-formed entry of some room. -/
theorem isMentionName_lastNames {refresh : Refresh} {p name : String}
    (known : (lastNames (refresh.last m file)).get p = some name) : isMentionName name = true := by
  have listed : ∃ e ∈ (refresh.last m file).values.flatten, e.name = some name := by
    unfold lastNames at known
    revert known
    generalize (refresh.last m file).values.flatten = entries
    intro known
    induction entries using List.reverseRecOn with
    | nil => exact absurd known (by simp)
    | append_singleton front e ih =>
        rw [List.foldl_append, List.foldl_cons, List.foldl_nil] at known
        cases named : e.name with
        | none =>
            rw [named] at known
            obtain ⟨e', mem, own⟩ := ih known
            exact ⟨e', List.mem_append_left _ mem, own⟩
        | some own =>
            rw [named] at known
            simp only [JsMap.get_set] at known
            split_ifs at known
            · refine ⟨e, List.mem_append_right _ (List.mem_singleton_self e), ?_⟩
              rw [named, known]
            · obtain ⟨e', mem, own⟩ := ih known
              exact ⟨e', List.mem_append_left _ mem, own⟩
  obtain ⟨e, mem, named⟩ := listed
  obtain ⟨list, value, inside⟩ := List.mem_flatten.mp mem
  obtain ⟨c, found⟩ := JsMap.mem_values.mp value
  have read := readable_of_last found
  cases file with
  | none => exact absurd read (by simp [readable, readMentionRooms])
  | some rooms =>
      obtain ⟨-, all, -, rfl⟩ := get_readable.mp read
      have ok := (List.mem_filter.mp inside).2
      rw [entryOk, Bool.and_eq_true, named] at ok
      exact ok.2

theorem isHex64_member {refresh : Refresh} {c p : String} {keys : List String}
    (members : (refresh.members host manifest).get c = some keys) (mem : p ∈ keys) :
    isHex64 p = true := by
  have members' : (JsMap.collect _ _).get c = some keys := members
  rw [JsMap.get_collect] at members'
  split at members'
  next =>
    obtain ⟨events, -, rfl⟩ := Option.map_eq_some_iff.mp members'
    have listed := (List.mem_filter.mp mem).1
    cases read : rosterFrom host events c manifest.relaySigner with
    | none =>
        rw [read] at listed
        exact absurd listed List.not_mem_nil
    | some roster =>
        rw [read] at listed
        unfold rosterFrom at read
        split_ifs at read
        obtain ⟨newest, -, rfl⟩ := Option.map_eq_some_iff.mp read
        rw [Option.getD_some, ← JsSet.mem_toFinset, JsSet.toFinset_ofList, List.mem_toFinset,
          List.mem_filter] at listed
        exact listed.2
  next => cases members'

/-- Two last names that the refresh brings together stand in the room's list. -/
theorem carries_of_oneKey {refresh : Refresh}
    (one : ∀ channel, OneKey (mentionable m none
      (recordMentionRooms host manifest m file refresh) channel)) :
    Carries host manifest m file refresh := by
  intro on whole without c mem keys members p own q own' name name' known known' same outside outside'
  have found : ∃ list, (readable m (recordMentionRooms host manifest m file refresh)).get c =
      some list ∧ ∀ key ∈ keys, ∀ text, (lastNames (refresh.last m file)).get key = some text →
        ⟨key, some text⟩ ∈ list := by
    rw [recordMentionRooms, if_pos on, whole]
    have read : ∃ old, (refresh.read host manifest).rooms.get c = some old ∧
        ∀ key ∈ keys, ⟨key, none⟩ ∈ old := by
      refine ⟨keys.map fun key => ⟨key, none⟩, ?_, fun key mem => List.mem_map_of_mem mem⟩
      have none := Option.isNone_iff_eq_none.mp without
      show ((refresh.members host manifest).mapValues _).get c = _
      rw [JsMap.get_mapValues, members, none]
      rfl
    obtain ⟨old, read, inside⟩ := read
    refine ⟨_, get_readable.mpr ⟨mem, fresh (refresh.last m file) (refresh.read host manifest) old,
      ?_, rfl⟩, fun key mem' text last => List.mem_filter.mpr ⟨?_, ?_⟩⟩
    · rw [merged, JsMap.get_collect, if_pos mem]
      show (((refresh.read host manifest).rooms.get c).map _).or _ = _
      rw [read]
      rfl
    · rw [fresh, if_pos without]
      refine List.mem_map.mpr ⟨⟨key, none⟩, inside key mem', ?_⟩
      rw [Option.none_or, last]
    · rw [entryOk, isHex64_member members mem']
      simpa using isMentionName_lastNames last
  obtain ⟨list, found, inside⟩ := found
  have uuid := m.isUuid_channels c mem
  have here : c ≠ "" := by
    rintro rfl
    exact absurd uuid (by decide)
  have listed : ∀ key ∈ keys, ∀ text, (lastNames (refresh.last m file)).get key = some text →
      Outside m key text → ⟨key, some text, []⟩ ∈ mentionable m none
        (recordMentionRooms host manifest m file refresh) c :=
    fun key mem' text last free => List.mem_append_right _ (roomEntries_of_mem on here found
      (inside key mem' text last) (isHex64_member members mem') rfl (isMentionName_lastNames last)
      free.1 free.2)
  exact one c _ (listed p own name known outside) _ (listed q own' name' known' outside') name rfl
    name' rfl same

end Rooms

/-! ### Every history -/

/-- The ids of the live grants are distinct. -/
def DistinctIds (grants : List Json) : Prop := ((validGrants grants).map (·.grantId)).Nodup

/-- What a written name should mean, over every history of refreshes. -/
structure NamesOneKey (host : Host) (manifest : PostManifest) (m : MayPost)
    (history : List Refresh) : Prop where
  resolves : ∀ front, front <+: history → ∀ grants channel,
    OneKey (mentionable m grants (run (recordMentionRooms host manifest m) none front) channel)
  matched : ∀ front, front <+: history → ∀ grants channel value,
    ∀ e ∈ mentionable m grants (run (recordMentionRooms host manifest m) none front) channel,
    ∀ e' ∈ mentionable m grants (run (recordMentionRooms host manifest m) none front) channel,
      matchesEntry value e = true → matchesEntry value e' = true → e.pubkey = e'.pubkey
  ordered : ∀ grants grants', DistinctIds grants → grants'.Perm grants →
    mergeMentions m.mention grants' = mergeMentions m.mention grants
  refused : ∀ grants, DistinctIds grants → Apart (mergeMentions m.mention grants)
  kept : ∀ grants, m.mention.map (fun e => (e.pubkey, e.name)) <+:
    (mergeMentions m.mention grants).mention.map fun e => (e.pubkey, e.name)

variable {host : Host} {manifest : PostManifest} {m : MayPost}

theorem fileClear_none : FileClear m none := fun c list found =>
  absurd found (by simp [readable, readMentionRooms])

/-- **A name names one key**, exactly where the manifest's names fold apart and no refresh without
profiles brings two last names together. -/
theorem names_one_key_iff (accepted : Accepted m) (history : List Refresh) :
    NamesOneKey host manifest m history ↔ (foldedNames m.mention).Nodup ∧
      Meets (recordMentionRooms host manifest m) (Carries host manifest m) none history := by
  rw [← oneKey_iff_nodup accepted.pubkeys]
  constructor
  · intro names
    constructor
    · intro e mem e' mem'
      exact names.resolves [] List.nil_prefix none "" e (List.mem_append_left _ mem) e'
        (List.mem_append_left _ mem')
    · have only : ∀ file refresh, (∀ grants channel, OneKey (mentionable m grants file channel)) →
          (∀ grants channel, OneKey (mentionable m grants
            (recordMentionRooms host manifest m file refresh) channel)) →
          Carries host manifest m file refresh :=
        fun _ _ _ after => carries_of_oneKey (after none)
      exact Runs.meets_of_prefixes only names.resolves
  · rintro ⟨one, meets⟩
    have formed : Formed m.mention := fun e mem =>
      ⟨m.isHex64_mention e mem, accepted.names e mem⟩
    have resolves : ∀ front, front <+: history → ∀ grants channel,
        OneKey (mentionable m grants (run (recordMentionRooms host manifest m) none front)
          channel) := by
      rintro front ⟨back, rfl⟩ grants channel
      refine oneKey_mentionable one ?_ grants channel
      exact meets.of_append.keeps (fun _ _ clear carries => fileClear_record clear carries)
        fileClear_none
    refine ⟨resolves, ?_, fun _ _ => mergeMentions_perm m.mention,
      fun _ => apart_mergeMentions m.mention, kept_mergeMentions m.mention⟩
    intro front before grants channel value e mem e' mem' hit hit'
    exact matches_unique (resolves front before grants channel)
      (formed_mentionable formed grants channel) mem mem' hit hit'

/-! ### Two ways a name comes to name two keys -/

def keyOf (c : Char) : String := String.ofList (List.replicate 64 c)

def denRoom : String := "00000000-0000-0000-0000-00000000000a"

def hallRoom : String := "00000000-0000-0000-0000-00000000000b"

theorem one_le_perHour : (1 : Int) ≤ 30 := by decide

/-- An identity that may post in two rooms. -/
def sampleMayPost (mention : List Mentionable)
    (hex : ∀ entry ∈ mention, isHex64 entry.pubkey = true) : MayPost where
  channels := [denRoom, hallRoom]
  perHour := 1
  mention := mention
  mentionRooms := true
  isUuid_channels := by decide
  perHour_pos := by decide
  perHour_le := one_le_perHour
  isHex64_mention := hex

def sampleManifest (m : MayPost) : PostManifest := ⟨"scribe", keyOf 'e', true, some m, keyOf 'd'⟩

/-- Two names that lower-casing keeps apart. -/
def dashedNames : MayPost :=
  sampleMayPost [⟨keyOf 'a', some "mc-claude", []⟩, ⟨keyOf 'b', some "mcclaude", []⟩] (by decide)

theorem accepted_dashedNames : Accepted dashedNames where
  names := by decide
  pubkeys := by decide
  lowered := by decide
  channels := by decide
  ungranted := by decide

theorem isHex64_noOne : ∀ entry ∈ ([] : List Mentionable), isHex64 entry.pubkey = true := by decide

def roomsOnly : MayPost := sampleMayPost [] isHex64_noOne

theorem accepted_roomsOnly : Accepted roomsOnly where
  names := by decide
  pubkeys := by decide
  lowered := by decide
  channels := by decide
  ungranted := by decide

def memberList (room : String) (keys : List String) : Event :=
  ⟨keyOf '1', keyOf 'd', 1, MEMBERS_KIND, ["d", room] :: keys.map (["p", ·]), "", ""⟩

/-- A profile under the name bob. -/
def bobProfile (pubkey : String) : Event :=
  ⟨keyOf '2', pubkey, 1, 0, [], "\x7b\"name\":\"bob\"\x7d", ""⟩

/-- A refresh of one room; the key named here has the name bob. -/
def refreshOf (room : String) (keys : List String) (bob : Option String) : Refresh :=
  ⟨⟨[room], fun _ => some [memberList room keys], fun _ => bob.map fun key => [bobProfile key]⟩,
    true, .whole⟩

/-- Bob is in the den; later another key has taken his name, in the hall. -/
def twoBobs : List Refresh :=
  [refreshOf denRoom [keyOf 'a'] (some (keyOf 'a')),
    refreshOf hallRoom [keyOf 'b'] (some (keyOf 'b'))]

theorem names_one_key_twoBobs :
    NamesOneKey Host.sample (sampleManifest roomsOnly) roomsOnly twoBobs ∧
      (mentionable roomsOnly none (run (recordMentionRooms Host.sample (sampleManifest roomsOnly)
        roomsOnly) none twoBobs) denRoom).map (fun e => (e.pubkey, e.name)) =
        [(keyOf 'a', some "bob")] := by
  refine ⟨(names_one_key_iff accepted_roomsOnly twoBobs).mpr ⟨by decide, ?_, ?_, trivial⟩,
    by decide +kernel⟩
  · intro _ _ without
    exact absurd without (by decide +kernel)
  · intro _ _ without
    exact absurd without (by decide +kernel)

/-- **The manifest's names**: `mc-claude` and `mcclaude` are two names in lower case and one to
whoever writes them. -/
theorem manifest_names_clash :
    Accepted dashedNames ∧
      ¬NamesOneKey Host.sample (sampleManifest dashedNames) dashedNames [] := by
  refine ⟨accepted_dashedNames, fun names => ?_⟩
  have one := names.resolves [] List.nil_prefix none denRoom
  have same := one ⟨keyOf 'a', some "mc-claude", []⟩ (List.mem_append_left _ List.mem_cons_self)
    ⟨keyOf 'b', some "mcclaude", []⟩
    (List.mem_append_left _ (List.mem_cons_of_mem _ List.mem_cons_self)) "mc-claude" rfl "mcclaude"
    rfl (by decide)
  exact absurd same (by decide)

/-- **Carried names**: the new bob walks into the den while no profile can be read, and both keys
keep the name they last had. -/
theorem carried_names_clash :
    Accepted roomsOnly ∧ ¬NamesOneKey Host.sample (sampleManifest roomsOnly) roomsOnly
      (twoBobs ++ [refreshOf denRoom [keyOf 'a', keyOf 'b'] none]) := by
  refine ⟨accepted_roomsOnly, fun names => ?_⟩
  have one := names.resolves _ List.prefix_rfl none denRoom
  have listed : (mentionable roomsOnly none (run (recordMentionRooms Host.sample
      (sampleManifest roomsOnly) roomsOnly) none
        (twoBobs ++ [refreshOf denRoom [keyOf 'a', keyOf 'b'] none])) denRoom).map
      (fun e => (e.pubkey, e.name)) = [(keyOf 'a', some "bob"), (keyOf 'b', some "bob")] := by
    decide +kernel
  generalize mentionable roomsOnly none _ denRoom = entries at one listed
  have first : (keyOf 'a', some "bob") ∈ entries.map fun e => (e.pubkey, e.name) := by
    rw [listed]
    exact List.mem_cons_self
  have second : (keyOf 'b', some "bob") ∈ entries.map fun e => (e.pubkey, e.name) := by
    rw [listed]
    exact List.mem_cons_of_mem _ List.mem_cons_self
  obtain ⟨e, mem, same⟩ := List.mem_map.mp first
  obtain ⟨e', mem', same'⟩ := List.mem_map.mp second
  obtain ⟨key, name⟩ := Prod.mk.inj same
  obtain ⟨key', name'⟩ := Prod.mk.inj same'
  have clash := one e mem e' mem' "bob" name "bob" name' rfl
  rw [key, key'] at clash
  exact absurd clash (by decide)

end Nvoy.Broker.Rooms
