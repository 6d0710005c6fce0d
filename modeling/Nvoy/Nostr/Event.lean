/-
Nostr events as the tools read them, and the library calls they rest on.

* `Event` — one event off a relay or out of a request, after `JSON.parse`.
* `tag`, `tagValue`, `tagValues` — the tag readers that `admission.mjs` and `memory.mjs` share.
* `Host` — what the tools rest on and this development takes as given: the signature check of
  `nostr-tools`, the engine's Unicode lower-casing and the credential patterns.
-/

import Mathlib.Init

namespace Nvoy

structure Event where
  id : String
  pubkey : String
  createdAt : Int
  kind : Int
  tags : List (List String)
  content : String
  sig : String
  deriving DecidableEq, Repr

/-! ### Patterns -/

def isLowerHex (c : Char) : Bool := c.isDigit || ('a' ≤ c && c ≤ 'f')

/-- `/^[0-9a-f]{64}$/` -/
def isHex64 (text : String) : Bool := text.toList.length = 64 && text.toList.all isLowerHex

/-- `/^[0-9]{1,12}$/` -/
def isSeconds (text : String) : Bool :=
  1 ≤ text.toList.length && text.toList.length ≤ 12 && text.toList.all Char.isDigit

/-- `Number(text)` of a text of digits. -/
def numberOf (text : String) : Int := Int.ofNat (Nat.ofDigitChars 10 text.toList 0)

/-! ### Tags -/

namespace Event

/-- The first tag of that name. -/
def tag (ev : Event) (name : String) : Option (List String) :=
  ev.tags.find? fun t => t[0]? = some name

def tagValue (ev : Event) (name : String) : Option String := (ev.tag name).bind (·[1]?)

/-- The values of every tag of that name; a tag without a value gives `none`. -/
def tagValues (ev : Event) (name : String) : List (Option String) :=
  (ev.tags.filter fun t => t[0]? = some name).map (·[1]?)

end Event

structure Host where
  /-- `verifyEvent` of `nostr-tools/pure`; a throw counts as `false`. -/
  verifyEvent : Event → Bool
  /-- A verified id is the hash of the event, in hex. -/
  verifyEvent_id : ∀ {ev}, verifyEvent ev = true → isHex64 ev.id = true
  /-- `String.prototype.toLowerCase` -/
  toLowerCase : String → String
  toLowerCase_empty : toLowerCase "" = ""
  /-- `checkMemorySecrets`: the name of the first credential pattern a text matches. Its patterns
  read the NFKC form of the text and the entropy of its runs. -/
  checkMemorySecrets : String → Option String

/-- A host for runs on fixed inputs: it verifies every event whose id has the form of one, and
lowers ASCII letters. -/
def Host.sample : Host where
  verifyEvent ev := isHex64 ev.id
  verifyEvent_id verified := verified
  toLowerCase text := String.ofList (text.toList.map Char.toLower)
  toLowerCase_empty := rfl
  checkMemorySecrets _ := none

end Nvoy
