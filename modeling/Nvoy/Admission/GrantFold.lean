/-
The two readings of the grant events: `admission.mjs`.

* `foldGrantsWith` — who may task this identity, and whom it may mention: kinds 440 and 441 in the
  order of `created_at`, one pass, each 441 dropping the grant it names when it comes.
* `foldMemoryGrantsWith` — who may write shared memory: the same events of one owner, in the order
  of `(created_at, id)`, with every 441 applied after all the grants.

The loop body of the first is `foldEvent`: `readGrant` is its validation of a 440, `put` the write
into the map the grant belongs to, `drop` the inner function of the source.
-/

import Nvoy.Lib.JsMap
import Nvoy.Lib.StableSort
import Nvoy.Nostr.Event

namespace Nvoy.Admission

open StableSort

def TASK_CAPS : List String := ["task", "task+act", "task-relay"]

def MEMORY_WRITE_CAP : String := "memory-write"

/-- One character of a mention name after the first. -/
def isNameChar (c : Char) : Bool := c.isAlphanum || c = '.' || c = '_' || c = '-'

/-- `MENTION_NAME`, `/^[a-z0-9][a-z0-9._-]{0,31}$/i` -/
def isMentionName (name : String) : Bool :=
  match name.toList with
  | [] => false
  | c :: rest => c.isAlphanum && rest.length ≤ 31 && rest.all isNameChar

/-- A malformed expiration is an expired one. -/
def grantExpired (ev : Event) (nowSec : Int) : Bool :=
  match ev.tag "expiration" with
  | none => false
  | some tag =>
      match tag[1]? with
      | some expiry => !isSeconds expiry || numberOf expiry ≤ nowSec
      | none => true

/-! ### The state of the fold -/

structure Grant where
  grantId : String
  grantor : String
  cap : String
  shadow : Bool
  deriving DecidableEq, Repr

@[ext] structure Voice where
  grantId : String
  grantor : String
  deriving DecidableEq, Repr

structure Mention where
  pubkey : String
  name : String
  grantId : String
  grantor : String
  createdAt : Int
  deriving DecidableEq, Repr

inductive EndReason
  | revoked
  | expired
  deriving DecidableEq, Repr

abbrev Live := JsMap String (JsMap String Grant)

structure FoldState where
  live : Live
  voices : JsMap String Voice
  ended : JsMap String EndReason
  named : JsMap String Mention
  rejected : Nat
  deriving DecidableEq

/-- The four empty maps the fold starts from. -/
def FoldState.start : FoldState := ⟨.empty, .empty, .empty, .empty, 0⟩

/-- Ends every grant of that id, and notes why for the keys that held one. -/
def FoldState.drop (st : FoldState) (id : String) (why : EndReason) : FoldState :=
  { st with
    live := (st.live.mapValues fun caps => caps.filter fun _ g => g.grantId ≠ id).filter
      fun _ caps => caps.size ≠ 0
    voices := st.voices.filter fun _ s => s.grantId ≠ id
    ended :=
      let ended := st.live.entries.foldl (fun ended entry =>
        if entry.2.values.any (·.grantId = id) then ended.set entry.1 why else ended) st.ended
      st.voices.entries.foldl (fun ended entry =>
        if entry.2.grantId = id then ended.set entry.1 why else ended) ended
    named := st.named.delete id }

/-! ### One event -/

/-- What a 440 that passes every check asks for. -/
inductive ReadGrant
  | shadow (grantee : String)
  | mention (grantee name : String)
  | task (grantee cap : String)
  deriving DecidableEq, Repr

structure FoldOptions where
  me : String
  grantors : List String
  scopeHash : String → String → String

section Fold

variable (host : Host) (opts : FoldOptions) (nowSec : Int)

/-- `scope[1] === scopeHash(subject, scope[2] || '')` -/
def scopedTo (scope : List String) (subject : String) : Bool :=
  scope[1]? = some (opts.scopeHash subject (scope[2]?.getD ""))

/-- The checks on a 440 by `author`; `none` is the `continue` of the loop. -/
def readGrant (ev : Event) (author : String) : Option ReadGrant :=
  let grantee := host.toLowerCase ((ev.tagValue "p").getD "")
  match ev.tag "da-scope", ev.tagValue "da-cap" with
  | some scope, some cap =>
      if grantee = "" ∨ cap = "" then none
      else if cap = "shadow" then
        if !scopedTo opts scope author ∨ grantee = author then none else some (.shadow grantee)
      else if cap = "mention" then
        match ev.tagValue "name" with
        | some name =>
            if !isHex64 grantee ∨ !isMentionName name ∨ !scopedTo opts scope opts.me then none
            else some (.mention grantee name)
        | none => none
      else
        if cap ∉ TASK_CAPS ∨ !scopedTo opts scope opts.me then none
        else some (.task grantee cap)
  | _, _ => none

/-- Writes a grant into the map it belongs to. -/
def FoldState.put (st : FoldState) (ev : Event) (author : String) : ReadGrant → FoldState
  | .shadow grantee =>
      { st with voices := st.voices.set grantee { grantId := ev.id, grantor := author } }
  | .mention grantee name =>
      { st with
        named := st.named.set ev.id
          { pubkey := grantee, name, grantId := ev.id, grantor := author,
            createdAt := ev.createdAt } }
  | .task grantee cap =>
      { st with
        live := st.live.set grantee (((st.live.get grantee).getD .empty).set cap
          { grantId := ev.id, grantor := author, cap, shadow := false }) }

def isGrantor (author : String) : Bool := (opts.grantors.map host.toLowerCase).contains author

/-- The body of the loop. -/
def foldEvent (st : FoldState) (ev : Event) : FoldState :=
  let author := host.toLowerCase ev.pubkey
  if !isGrantor host opts author then st
  else if !host.verifyEvent ev then { st with rejected := st.rejected + 1 }
  else if ev.kind = 441 then
    match ev.tagValue "e" with
    | some id => if id = "" then st else st.drop id .revoked
    | none => st
  else if ev.kind ≠ 440 then st
  else
    match readGrant host opts ev author with
    | none => st
    | some grant =>
        let st := st.put ev author grant
        if grantExpired ev nowSec then st.drop ev.id .expired else st

/-! ### The fold -/

/-- A voice takes each cap its grantor holds itself and it does not hold already. -/
def inheritVoice (own : Live) (live : Live) (voice : String) (s : Voice) : Live :=
  ((own.get s.grantor).getD .empty).keys.foldl (fun live cap =>
    let caps := (live.get voice).getD .empty
    if caps.has cap then live
    else live.set voice
      (caps.set cap { grantId := s.grantId, grantor := s.grantor, cap, shadow := true })) live

structure Folded where
  live : Live
  ended : JsMap String EndReason
  rejected : Nat
  mentions : List Mention
  deriving DecidableEq

/-- The comparator of the mention list; no two mentions share a grant id. -/
def mentionBefore (a b : Mention) : Prop :=
  a.createdAt < b.createdAt ∨ a.createdAt = b.createdAt ∧ a.grantId ≤ b.grantId

instance : DecidableRel mentionBefore := fun _ _ => inferInstanceAs (Decidable (_ ∨ _))

/-- What the fold returns once every event is read. -/
def FoldState.finish (st : FoldState) : Folded :=
  let live := st.voices.entries.foldl (fun live entry =>
    inheritVoice st.live live entry.1 entry.2) st.live
  { live
    ended := live.keys.foldl (fun ended pk => ended.delete pk) st.ended
    rejected := st.rejected
    mentions := st.named.values.insertionSort mentionBefore }

/-- The state after every event, in the order of `created_at`. -/
def foldState (events : List Event) : FoldState :=
  (sortBy Event.createdAt events).foldl (foldEvent host opts nowSec) .start

def foldGrantsWith (events : List Event) : Folded := (foldState host opts nowSec events).finish

end Fold

/-! ### The memory fold -/

structure MemoryGrant where
  grantId : String
  grantee : String
  grantor : String
  cap : String
  createdAt : Int
  deriving DecidableEq, Repr

structure MemoryOptions where
  owner : String
  allowMemoryWrite : Bool
  scopeHash : String → String → String

structure MemoryState where
  activeById : JsMap String MemoryGrant
  /-- Grantee to the reasons its grants ended for. -/
  endedReasons : JsMap String (List EndReason)
  revocations : List Event
  rejected : Nat

def MemoryState.start : MemoryState := ⟨.empty, .empty, [], 0⟩

def markEnded (reasons : JsMap String (List EndReason)) (grantee : String) (why : EndReason) :
    JsMap String (List EndReason) :=
  let held := (reasons.get grantee).getD []
  reasons.set grantee (if why ∈ held then held else held ++ [why])

/-- Whether `id` names the newer of two grants of one cap. -/
def memoryNewer (g prev : MemoryGrant) : Bool :=
  g.createdAt > prev.createdAt || (g.createdAt = prev.createdAt && prev.grantId < g.grantId)

structure MemoryFolded where
  writers : JsMap String (JsMap String MemoryGrant)
  ended : JsMap String EndReason
  rejected : Nat

section MemoryFold

variable (host : Host) (opts : MemoryOptions) (nowSec : Int)

/-- The comparator of the memory fold. -/
def createdBefore (a b : Event) : Prop :=
  a.createdAt < b.createdAt ∨ a.createdAt = b.createdAt ∧ a.id ≤ b.id

instance : DecidableRel createdBefore := fun _ _ => inferInstanceAs (Decidable (_ ∨ _))

/-- The checks on a 440 by the owner; `none` is the `continue` of the loop. -/
def readMemoryGrant (ownerHex : String) (ev : Event) : Option (String × String) :=
  let grantee := host.toLowerCase ((ev.tagValue "p").getD "")
  match ev.tag "da-scope", ev.tagValue "da-cap" with
  | some scope, some cap =>
      if !isHex64 grantee ∨ cap = "" then none
      else if ¬ (cap = "shadow" ∨ opts.allowMemoryWrite ∧ cap = MEMORY_WRITE_CAP) then none
      else if scope[1]? ≠ some (opts.scopeHash ownerHex (scope[2]?.getD "")) ∨
          cap = "shadow" ∧ grantee = ownerHex then none
      else some (grantee, cap)
  | _, _ => none

/-- The body of the first loop; `ownerHex` is the owner in lower case. -/
def memoryEvent (ownerHex : String) (st : MemoryState) (ev : Event) : MemoryState :=
  if host.toLowerCase ev.pubkey ≠ ownerHex then st
  else if !host.verifyEvent ev then { st with rejected := st.rejected + 1 }
  else if ev.kind = 441 then { st with revocations := st.revocations ++ [ev] }
  else if ev.kind ≠ 440 then st
  else
    match readMemoryGrant host opts ownerHex ev with
    | none => st
    | some (grantee, cap) =>
        if grantExpired ev nowSec then
          { st with endedReasons := markEnded st.endedReasons grantee .expired }
        else
          { st with
            activeById := st.activeById.set ev.id
              { grantId := ev.id, grantee, grantor := ownerHex, cap, createdAt := ev.createdAt } }

/-- The body of the loop over the revocations. -/
def memoryRevoke (st : MemoryState) (rev : Event) : MemoryState :=
  match rev.tagValue "e" with
  | none => st
  | some id =>
      match if id = "" then none else st.activeById.get id with
      | none => st
      | some held =>
          { st with
            activeById := st.activeById.delete id
            endedReasons := markEnded st.endedReasons held.grantee .revoked }

/-- The body of the loop that gathers the writers: the newest grant of each cap. -/
def addWriter (writers : JsMap String (JsMap String MemoryGrant)) (g : MemoryGrant) :
    JsMap String (JsMap String MemoryGrant) :=
  let caps := (writers.get g.grantee).getD .empty
  let newest := match caps.get g.cap with
    | none => true
    | some prev => memoryNewer g prev
  writers.set g.grantee (if newest then caps.set g.cap g else caps)

def MemoryState.finish (st : MemoryState) : MemoryFolded :=
  let writers := st.activeById.values.foldl addWriter .empty
  { writers
    ended := st.endedReasons.entries.foldl (fun ended entry =>
      if writers.has entry.1 then ended
      else ended.set entry.1 (if .revoked ∈ entry.2 then .revoked else .expired)) .empty
    rejected := st.rejected }

def foldMemoryGrantsWith (events : List Event) : MemoryFolded :=
  let ownerHex := host.toLowerCase opts.owner
  if !isHex64 ownerHex then ⟨.empty, .empty, 0⟩
  else
    let st := (events.insertionSort createdBefore).foldl (memoryEvent host opts nowSec ownerHex)
      .start
    (st.revocations.foldl memoryRevoke st).finish

end MemoryFold

/-! ### One grant and its revocation, for runs on fixed inputs -/

def sampleId (digit : Char) : String := String.ofList (List.replicate 64 digit)

def sampleOptions : FoldOptions where
  me := "agent"
  grantors := ["owner"]
  scopeHash subject _ := subject

/-- A task grant of `owner` for `dennis` on `agent`. -/
def sampleGrant (createdAt : Int) : Event where
  id := sampleId 'a'
  pubkey := "owner"
  createdAt
  kind := 440
  tags := [["p", "dennis"], ["da-scope", "agent"], ["da-cap", "task"]]
  content := ""
  sig := ""

def sampleRevocation (createdAt : Int) : Event where
  id := sampleId 'b'
  pubkey := "owner"
  createdAt
  kind := 441
  tags := [["e", sampleId 'a']]
  content := ""
  sig := ""

end Nvoy.Admission
