/-
**The Buzz relay's events, read and written as the agent's own key**: the pure part of
`buzz_native.mjs`.

* `channelReply`, `channelPost` — the two messages a broker builds;
* `nativeMention` — that an event is a signed message to this identity in one of its channels;
* `dmChannels` — the DMs the identity is in, from the relay's own notices;
* `contextFilters`, `channelContext` — the conversation around a message;
* `nativeMention_eq_some`, `isUuid_of_dmChannels` — what the readers answer.
-/

import Nvoy.Admission.Invocation
import Nvoy.Broker.AdmittedTask
import Nvoy.Lib.JsMap
import Nvoy.Lib.StableSort

namespace Nvoy.Broker

open Admission (HOP_TAG)
open Memory (isUuid isSafeInteger trim)
open StableSort (sortBy)

/-! ### Writing -/

/-- An event before it is signed. -/
structure Template where
  kind : Int
  createdAt : Int
  content : String
  tags : List (List String)
  deriving DecidableEq

/-- What is read of the event a reply answers. -/
structure Parent where
  id : String
  pubkey : String
  tags : List (List String)

/-- `String(hop)` -/
def hopText (hop : Int) : String := String.ofList (Json.renderInt hop)

/-- The event of the first `e` tag with that marker. -/
def marked (tags : List (List String)) (marker : String) : Option String :=
  (tags.find? fun t => t[0]? = some "e" && t[3]? = some marker && t[1]?.any isHex64).bind (·[1]?)

def rootOf (id : String) (tags : List (List String)) : String :=
  ((marked tags "root").or (marked tags "reply")).getD id

/-- Distinct keys. -/
def areMentions (mentions : List String) : Bool := mentions.all isHex64 && decide mentions.Nodup

section Writers

variable (channel content : String) (mentions : List String) (now : Int)

def channelReply (parent : Parent) (hop : Int) : Except String Template := do
  ensure (isUuid channel) "channel must be a UUID"
  ensure (isHex64 parent.id && isHex64 parent.pubkey) "reply needs the verified parent event"
  ensure (trim content ≠ "") "empty reply"
  ensure (isSafeInteger hop && 1 ≤ hop) "hop must be a positive integer"
  ensure (areMentions mentions) "mentions must be distinct hex pubkeys"
  let root := rootOf parent.id parent.tags
  return {
    kind := 9
    createdAt := now
    content := content
    tags := [["h", channel]] ++ (if root = parent.id then [] else [["e", root, "", "root"]]) ++
      [["e", parent.id, "", "reply"], ["p", parent.pubkey]] ++
      (mentions.filter (· ≠ parent.pubkey)).map (fun p => ["p", p]) ++ [[HOP_TAG, hopText hop]] }

def channelPost : Except String Template := do
  ensure (isUuid channel) "channel must be a UUID"
  ensure (trim content ≠ "") "empty post"
  ensure (areMentions mentions) "mentions must be distinct hex pubkeys"
  return {
    kind := 9
    createdAt := now
    content := content
    tags := [["h", channel]] ++ mentions.map (fun p => ["p", p]) ++ [[HOP_TAG, "1"]] }

end Writers

/-! ### Reading -/

def CHANNEL_KINDS : List Int := [9, 40002]

/-- Added, and removed. -/
def MEMBERSHIP_KINDS : List Int := [44100, 44101]

structure Mention where
  channel : String
  author : String
  eventId : String
  createdAt : Int
  deriving DecidableEq

/-- The channel of an event with one `h` tag. -/
def soleChannel (ev : Event) : Option String :=
  match ev.tagValues "h" with
  | [channel] => channel
  | _ => none

section Readers

variable (host : Host) (me : String)

/-- `nativeMention`; `now` is in seconds. -/
def nativeMention (channels : List String) (now : Int) (ev : Event) : Option Mention := do
  guard (CHANNEL_KINDS.contains ev.kind ∧ isHex64 ev.pubkey ∧ ev.pubkey ≠ me)
  guard (isSafeInteger ev.createdAt ∧ ev.createdAt ≤ now + 900)
  let h ← soleChannel ev
  guard (channels.contains h)
  guard ((ev.tagValues "p" ++ ev.tagValues "mention").contains (some me))
  guard (host.verifyEvent ev)
  return ⟨h, ev.pubkey, ev.id, ev.createdAt⟩

/-- The channel of a membership notice about a DM, if it is one for this identity. -/
def dmNoticeOf (ev : Event) : Option String := do
  guard (MEMBERSHIP_KINDS.contains ev.kind ∧ isSafeInteger ev.createdAt)
  guard ((ev.tagValues "p").contains (some me) ∧ (ev.tagValues "t").head? = some (some "dm"))
  let h ← soleChannel ev
  guard (isUuid h)
  guard (host.verifyEvent ev)
  return h

/-- `dmChannels`: by channel, the newest notice counts, and a removal counts as newer than an
addition of the same second. -/
def dmChannels (notices : List Event) : List String :=
  let usable := notices.filter fun ev => (dmNoticeOf host me ev).isSome
  let latest := (sortBy (·.createdAt) (sortBy (·.kind) usable)).foldl
    (fun latest ev => latest.set ((dmNoticeOf host me ev).getD "") (decide (ev.kind = 44100)))
    (JsMap.empty : JsMap String Bool)
  ((latest.entries.filter (·.2)).map (·.1)).insertionSort (· ≤ ·)

/-! ### The conversation around a message -/

def CONTEXT_LIMIT : Nat := 30

def CONTEXT_MESSAGE_BYTES : Nat := 4000

def CONTEXT_BYTES : Nat := 48 * 1024

def threadRoot (ev : Event) : String := rootOf ev.id ev.tags

/-- What `contextFilters` asks for: the recent messages, the root and the replies to it. -/
structure ContextFilters where
  channel : String
  upTo : Int
  root : Option String
  thread : String

def contextFilters (source : Event) : Option ContextFilters := do
  let h ← soleChannel source
  guard (isUuid h ∧ isSafeInteger source.createdAt)
  let root := threadRoot source
  return ⟨h, source.createdAt, if root = source.id then none else some root, root⟩

/-- A content past its limit is cut, a character that was cut in two is dropped. -/
def clipped (content : String) : String :=
  if CONTEXT_MESSAGE_BYTES < (utf8 content).length then
    String.ofList ((utf8Decode ((utf8 content).take CONTEXT_MESSAGE_BYTES)).toList.reverse.dropWhile
      (· = replacement)).reverse ++ "…"
  else content

def contextEntry (names : String → Option String) (ev : Event) : Json :=
  .obj ([("from", .str ev.pubkey)] ++
    (names ev.pubkey).toList.map (fun name => ("name", .str name)) ++
    [("at", .num ev.createdAt 0), ("content", .str (clipped ev.content)), ("event_id", .str ev.id)] ++
    (marked ev.tags "reply").toList.map (fun id => ("reply_to", .str id)))

/-- The first messages that the count and the bytes left allow. -/
def keptWithin : Nat → Nat → List Event → List Event
  | 0, _, _ => []
  | _, _, [] => []
  | limit + 1, bytes, ev :: rest =>
      let bytes := bytes + (utf8 (clipped ev.content)).length
      if CONTEXT_BYTES < bytes then [] else ev :: keptWithin limit bytes rest

/-- An earlier message of the same channel. -/
def isBackground (channel : String) (source ev : Event) : Bool :=
  ev.kind = 9 && ev.id ≠ source.id && isHex64 ev.id && isHex64 ev.pubkey &&
    isSafeInteger ev.createdAt && ev.createdAt ≤ source.createdAt &&
    ev.tagValues "h" = [some channel] && host.verifyEvent ev

/-- `channelContext`: the thread first, then the newest, in order of time. -/
def channelContext (events : List Event) (channel : String) (source : Event)
    (names : String → Option String) (now : Int) : Json :=
  let root := threadRoot source
  let byId := (events.filter (isBackground host channel source)).foldl
    (fun byId ev => if byId.has ev.id then byId else byId.set ev.id ev)
    (JsMap.empty : JsMap String Event)
  let inThread := fun ev : Event => ev.id = root || threadRoot ev = root
  let ranked := sortBy (fun ev => if inThread ev then 0 else 1)
    (sortBy (fun ev => -ev.createdAt) byId.values)
  .obj [("channel", .str channel), ("fetched_at", .num now 0),
    ("messages", .arr ((sortBy (·.createdAt) (keptWithin CONTEXT_LIMIT 0 ranked)).map
      (contextEntry names)))]

end Readers

/-! ### What the readers answer -/

section Answers

variable {host : Host} {me channel : String} {channels : List String} {notices : List Event}
  {ev : Event} {now : Int}

/-- **A native mention**: a signed message of another key, in one of the channels, that names this
identity. -/
theorem nativeMention_eq_some {mention : Mention} :
    nativeMention host me channels now ev = some mention ↔
      ev.kind ∈ CHANNEL_KINDS ∧ isHex64 ev.pubkey = true ∧ ev.pubkey ≠ me ∧
        isSafeInteger ev.createdAt = true ∧ ev.createdAt ≤ now + 900 ∧
        soleChannel ev = some mention.channel ∧ mention.channel ∈ channels ∧
        some me ∈ ev.tagValues "p" ++ ev.tagValues "mention" ∧ host.verifyEvent ev = true ∧
        mention.author = ev.pubkey ∧ mention.eventId = ev.id ∧ mention.createdAt = ev.createdAt := by
  unfold nativeMention
  simp only [Admission.bind_eq_some_iff, Option.guard_eq_some', exists_const, Option.pure_def,
    Option.some.injEq, List.contains_iff_mem]
  constructor
  · rintro ⟨⟨kind, hex, other⟩, ⟨safe, early⟩, h, sole, listed, named, signed, rfl⟩
    exact ⟨kind, hex, other, safe, early, sole, listed, named, signed, rfl, rfl, rfl⟩
  · rintro ⟨kind, hex, other, safe, early, sole, listed, named, signed, author, id, time⟩
    refine ⟨⟨kind, hex, other⟩, ⟨safe, early⟩, mention.channel, sole, listed, named, signed, ?_⟩
    rw [← author, ← id, ← time]

theorem dmNoticeOf_eq_some :
    dmNoticeOf host me ev = some channel ↔
      ev.kind ∈ MEMBERSHIP_KINDS ∧ isSafeInteger ev.createdAt = true ∧ some me ∈ ev.tagValues "p" ∧
        (ev.tagValues "t").head? = some (some "dm") ∧ soleChannel ev = some channel ∧
        isUuid channel = true ∧ host.verifyEvent ev = true := by
  unfold dmNoticeOf
  simp only [Admission.bind_eq_some_iff, Option.guard_eq_some', exists_const, Option.pure_def,
    Option.some.injEq, List.contains_iff_mem]
  constructor
  · rintro ⟨⟨kind, safe⟩, ⟨named, dm⟩, h, sole, uuid, signed, rfl⟩
    exact ⟨kind, safe, named, dm, sole, uuid, signed⟩
  · rintro ⟨kind, safe, named, dm, sole, uuid, signed⟩
    exact ⟨⟨kind, safe⟩, ⟨named, dm⟩, channel, sole, uuid, signed, rfl⟩

/-- The keys of a map that was filled entry by entry. -/
theorem mem_keys_foldl_set {ε κ ν : Type} [DecidableEq κ] (entries : List ε) (keyOf : ε → κ)
    (valueOf : ε → ν) (m : JsMap κ ν) {key : κ} :
    key ∈ (entries.foldl (fun m entry => m.set (keyOf entry) (valueOf entry)) m).keys ↔
      key ∈ m.keys ∨ ∃ entry ∈ entries, keyOf entry = key := by
  induction entries generalizing m with
  | nil => simp
  | cons entry entries ih =>
      have one : key ∈ (m.set (keyOf entry) (valueOf entry)).keys ↔ key ∈ m.keys ∨ keyOf entry = key := by
        rw [JsMap.mem_keys, JsMap.mem_keys, JsMap.get_set]
        by_cases same : key = keyOf entry
        · rw [if_pos same]
          exact iff_of_true ⟨_, rfl⟩ (.inr same.symm)
        · rw [if_neg same]
          exact ⟨.inl, fun either => either.resolve_right fun eq => same eq.symm⟩
      rw [List.foldl_cons, ih, one, List.exists_mem_cons_iff, or_assoc]

theorem isUuid_of_dmChannels (member : channel ∈ dmChannels host me notices) :
    isUuid channel = true := by
  unfold dmChannels at member
  rw [(List.perm_insertionSort _ _).mem_iff] at member
  obtain ⟨entry, kept, rfl⟩ := List.mem_map.mp member
  have key := List.mem_map_of_mem (f := Prod.fst) (List.mem_filter.mp kept).1
  rcases (mem_keys_foldl_set _ _ _ _).mp key with none | ⟨ev, listed, same⟩
  · cases none
  · rw [StableSort.mem_sortBy, StableSort.mem_sortBy] at listed
    obtain ⟨channel, read⟩ := Option.isSome_iff_exists.mp (List.mem_filter.mp listed).2
    rw [← same, read]
    exact (dmNoticeOf_eq_some.mp read).2.2.2.2.2.1

end Answers

end Nvoy.Broker
