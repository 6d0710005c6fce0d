/-
**Whom a post may mention**: the broker's side of `agent_post.mjs`, and `room_roster.mjs`.

* `mergeMentions`, `offList` — the list of the manifest with the live mention grants, and who is not on
  it;
* `validatePostRequest` — the one shape of a post request;
* `rosterFrom`, `confirmMembers` — the members of a room, by the list its relay signed;
* `mem_withMentionGrants`, `mem_rosterFrom` — why someone is on a list.
-/

import Nvoy.Broker.Limits
import Nvoy.Broker.Reply
import Nvoy.Lib.JsSet

namespace Nvoy.Broker

open Admission (isMentionName)
open Memory (isUuid isSafeInteger trim)
open StableSort (sortBy)

/-! ### The manifest -/

/-- One entry of `may_post.mention`. -/
structure Mentionable where
  pubkey : String
  name : Option String
  /-- The mention grants that cover it. -/
  grants : List String

/-- `may_post` of a manifest. -/
structure MayPost where
  channels : List String
  perHour : Int
  mention : List Mentionable
  mentionRooms : Bool
  isUuid_channels : ∀ channel ∈ channels, isUuid channel = true
  perHour_pos : 1 ≤ perHour
  perHour_le : perHour ≤ 30
  isHex64_mention : ∀ entry ∈ mention, isHex64 entry.pubkey = true

/-- What a post reads of a manifest. -/
structure PostManifest where
  id : String
  pubkey : String
  /-- `brokerMode === 'local'` -/
  localBroker : Bool
  mayPost : Option MayPost
  /-- `buzz.relay_signer` -/
  relaySigner : String

/-! ### Mention grants -/

structure MentionGrant where
  pubkey : String
  name : String
  grantId : String
  createdAt : Int

/-- A grant of the policy, where each of its fields has its form. -/
def mentionGrantOf (value : Json) : Option MentionGrant := do
  let pubkey ← (value.get "pubkey").bind Json.string
  let name ← (value.get "name").bind Json.string
  let grantId ← (value.get "grant_id").bind Json.string
  let createdAt ← (value.get "created_at").bind Json.integer
  guard (isHex64 pubkey && isMentionName name && isHex64 grantId && isSafeInteger createdAt)
  return ⟨pubkey, name, grantId, createdAt⟩

/-- `fold`: a name without case, the `@` or separators. -/
def foldName (name : String) : String :=
  String.ofList ((name.toList.map Char.toLower).filter fun c => c.isLower || c.isDigit)

structure Merged where
  mention : List Mentionable
  /-- The grants that were refused, each with the reason. -/
  refused : List (String × String)

/-- One grant more. -/
def mergeMention (merged : Merged) (g : MentionGrant) : Merged :=
  let holds (e : Mentionable) : Bool :=
    e.pubkey ≠ g.pubkey && e.name.any fun name => foldName name = foldName g.name
  match merged.mention.find? holds with
  | some holder =>
      let reason := "the name " ++ g.name ++ " is held by " ++ short holder.pubkey
      { merged with refused := merged.refused ++ [(g.grantId, reason)] }
  | none =>
      if merged.mention.any fun e => e.pubkey = g.pubkey then
        { merged with
          mention := merged.mention.map fun e =>
            if e.pubkey = g.pubkey then { e with grants := e.grants ++ [g.grantId] } else e }
      else { merged with mention := merged.mention ++ [⟨g.pubkey, some g.name, [g.grantId]⟩] }

/-- `mergeMentions`: by time, and by id where the times are the same. -/
def mergeMentions (entries : List Mentionable) (grants : List Json) : Merged :=
  let valid := (grants.filterMap mentionGrantOf).insertionSort fun a b => a.grantId ≤ b.grantId
  (sortBy (·.createdAt) valid).foldl mergeMention
    ⟨entries.map fun e => { e with grants := [] }, []⟩

/-- `withMentionGrants`: the effective list. -/
def withMentionGrants (mayPost : MayPost) (grants : Option Json) : List Mentionable :=
  match grants.bind Json.items with
  | none | some [] => mayPost.mention
  | some grants => (mergeMentions mayPost.mention grants).mention

/-- The requested keys that the list does not cover. -/
def offList (mention : List Mentionable) (keys : List Json) : List Json :=
  keys.filter fun p => !mention.any fun e => p.string = some e.pubkey

/-! ### The request -/

def POST_KEYS : List String :=
  ["version", "type", "id", "instance", "channel", "mention", "content", "requested_at"]

def MAX_BYTES : Nat := 4000

def POST_ONLY_REPLY : String := "this identity may only reply"

/-- `Buffer.byteLength` within the bound, and more than white space. -/
def isPostText (content : String) : Bool := trim content ≠ "" && (utf8 content).length ≤ MAX_BYTES

/-- `validatePostRequest`: the channel, the content and the keys of a request. -/
def validatePostRequest (manifest : PostManifest) (mention : List Mentionable) (row : Json) :
    Except String (String × String × List Json) := do
  let shape := "post request has an invalid or overbroad shape"
  ensure (row.isObj && keysWithin row POST_KEYS && (row.get "version").bind Json.integer = some 1 &&
    (row.get "type").bind Json.string = some "post-request" &&
    (row.get "instance").bind Json.string = some manifest.id && isHex32 (patternText row "id") &&
    isFiniteNumber (row.get "requested_at")) shape
  let content ← require (((row.get "content").bind Json.string).filter isPostText) shape
  let keys ← require ((row.get "mention").bind Json.items) shape
  let mayPost ← require manifest.mayPost ("post refused: " ++ POST_ONLY_REPLY)
  let channel ← require (((row.get "channel").bind Json.string).filter mayPost.channels.contains)
    "post refused: channel is not in may_post.channels"
  ensure (decide (keys.filterMap Json.string).Nodup && keys.all fun p => isHex64 p.text) shape
  objection (if mayPost.mentionRooms then none else (offList mention keys).head?) fun off =>
    "post refused: " ++ short off.text ++ " is not on may_post.mention"
  return (channel, content, keys)

/-! ### Rosters -/

def MEMBERS_KIND : Int := 39002

/-- A member list of the room, signed by its relay. -/
def isRoster (host : Host) (room relaySigner : String) (ev : Event) : Bool :=
  ev.kind = MEMBERS_KIND && ev.pubkey = relaySigner && isSafeInteger ev.createdAt &&
    ev.tagValues "d" = [some room] && (ev.tagValues "h").all (· = some room) && host.verifyEvent ev

/-- `rosterFrom`: the members by the newest list that passes, or `none` when none does. -/
def rosterFrom (host : Host) (events : List Event) (room relaySigner : String) :
    Option (List String) :=
  if isUuid room && isHex64 relaySigner then
    let passing := (events.filter (isRoster host room relaySigner)).insertionSort fun a b => a.id ≤ b.id
    (sortBy (fun ev => -ev.createdAt) passing).head?.map fun newest =>
      (JsSet.ofList (((newest.tagValues "p").filterMap id).filter isHex64)).items
  else none

/-- `confirmMembers`: the first key that is not in the roster; it throws without a roster. -/
def confirmMembers (host : Host) (events : List Event) (room : String) (keys : List Json)
    (relaySigner : String) : Except String (Option Json) := do
  let roster ← require (rosterFrom host events room relaySigner)
    ("no member list for room " ++ room ++ " passes the pinned relay signer")
  return keys.find? fun key => !key.string.any roster.contains

/-! ### Why someone is on a list -/

section Lists

variable {host : Host} {mayPost : MayPost} {grants : Option Json} {p : String}

/-- A live mention grant for the key, as the policy has it. -/
def Granted (grants : Option Json) (p : String) : Prop :=
  ∃ items, grants.bind Json.items = some items ∧
    ∃ value ∈ items, ∃ g, mentionGrantOf value = some g ∧ g.pubkey = p

theorem mem_mergeMention {merged : Merged} {g : MentionGrant}
    (mem : p ∈ (mergeMention merged g).mention.map (·.pubkey)) :
    p ∈ merged.mention.map (·.pubkey) ∨ p = g.pubkey := by
  unfold mergeMention at mem
  dsimp only at mem
  split at mem
  next => exact .inl mem
  next =>
    split at mem
    next =>
      rw [List.map_map] at mem
      have same : (fun e : Mentionable => e.pubkey) ∘ (fun e => if e.pubkey = g.pubkey then
          { e with grants := e.grants ++ [g.grantId] } else e) = fun e => e.pubkey := by
        funext e
        dsimp only [Function.comp]
        split_ifs <;> rfl
      rw [same] at mem
      exact .inl mem
    next =>
      rw [List.map_append, List.mem_append] at mem
      exact mem.imp_right List.mem_singleton.mp

theorem mem_foldl_mergeMention {grants : List MentionGrant} {merged : Merged}
    (mem : p ∈ (grants.foldl mergeMention merged).mention.map (·.pubkey)) :
    p ∈ merged.mention.map (·.pubkey) ∨ ∃ g ∈ grants, p = g.pubkey := by
  induction grants generalizing merged with
  | nil => exact .inl mem
  | cons g rest ih =>
    rcases ih mem with mem | ⟨other, mem, same⟩
    · exact (mem_mergeMention mem).imp_right fun same => ⟨g, List.mem_cons_self, same⟩
    · exact .inr ⟨other, List.mem_cons_of_mem g mem, same⟩

/-- **Who is on the effective list is on the manifest's, or has a live mention grant.** -/
theorem mem_withMentionGrants (mem : p ∈ (withMentionGrants mayPost grants).map (·.pubkey)) :
    p ∈ mayPost.mention.map (·.pubkey) ∨ Granted grants p := by
  unfold withMentionGrants at mem
  split at mem
  next => exact .inl mem
  next => exact .inl mem
  next items filled =>
    rcases mem_foldl_mergeMention mem with mem | ⟨g, taken, rfl⟩
    · rw [List.map_map] at mem
      exact .inl mem
    · rw [StableSort.mem_sortBy, (List.perm_insertionSort _ _).mem_iff] at taken
      obtain ⟨value, inside, read⟩ := List.mem_filterMap.mp taken
      exact .inr ⟨_, filled, value, inside, g, read, rfl⟩

theorem mem_of_offList {mention : List Mentionable} {keys : List Json} {key : Json}
    (mem : key ∈ keys) (covered : key ∉ offList mention keys) :
    ∃ p, key.string = some p ∧ p ∈ mention.map (·.pubkey) := by
  by_contra free
  refine covered (List.mem_filter.mpr ⟨mem, ?_⟩)
  rw [Bool.not_eq_true', List.any_eq_false]
  intro e listed
  rw [decide_eq_true_eq]
  exact fun same => free ⟨e.pubkey, same, List.mem_map_of_mem listed⟩

/-- A list signed by the relay of the room names the key. -/
def Rostered (host : Host) (events : List Event) (room relaySigner p : String) : Prop :=
  ∃ ev ∈ events, isRoster host room relaySigner ev = true ∧ some p ∈ ev.tagValues "p"

/-- **Who is in the roster is named by a list that the relay signed.** -/
theorem mem_rosterFrom {events : List Event} {room relaySigner : String} {roster : List String}
    (read : rosterFrom host events room relaySigner = some roster) (mem : p ∈ roster) :
    Rostered host events room relaySigner p := by
  unfold rosterFrom at read
  split_ifs at read
  obtain ⟨newest, first, rfl⟩ := Option.map_eq_some_iff.mp read
  have listed := List.mem_of_mem_head? first
  rw [StableSort.mem_sortBy, (List.perm_insertionSort _ _).mem_iff] at listed
  obtain ⟨listed, passes⟩ := List.mem_filter.mp listed
  rw [← JsSet.mem_toFinset, JsSet.toFinset_ofList, List.mem_toFinset, List.mem_filter,
    List.mem_filterMap] at mem
  obtain ⟨⟨value, named, same⟩, -⟩ := mem
  obtain rfl : value = some p := same
  exact ⟨newest, listed, passes, named⟩

theorem rostered_of_confirmMembers {events : List Event} {room relaySigner : String}
    {keys : List Json} {key : Json}
    (confirmed : confirmMembers host events room keys relaySigner = .ok none) (mem : key ∈ keys) :
    ∃ p, key.string = some p ∧ Rostered host events room relaySigner p := by
  unfold confirmMembers at confirmed
  simp only [bind_eq_ok, require_eq_ok] at confirmed
  obtain ⟨roster, read, all⟩ := confirmed
  have inside := List.find?_eq_none.mp (Except.ok.inj all) key mem
  rw [Bool.not_eq_true', Bool.not_eq_false] at inside
  obtain ⟨p, own, listed⟩ := (Option.any_eq_true _ _).mp inside
  exact ⟨p, own, mem_rosterFrom read (List.contains_iff_mem.mp listed)⟩

end Lists

end Nvoy.Broker
