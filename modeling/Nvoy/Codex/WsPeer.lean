/-
**The WebSocket peer of the app-server**: `connectWsPeer` of `codex_ws_peer.mjs`, over the bytes its
socket brings, with the frames of `codex_app_server.mjs`.

* `readFrame`, `frameBytes` — one frame off the buffer, and one as the client writes it;
* `step` — bytes that come, requests, timers, the end of the stream;
* `fate` — what a request made of the peer comes to, by what happened after it;
* `Follows` — the peer has handed on the JSON messages of the frames it was sent, has answered their
  pings, and has settled its requests once each.
-/

import Nvoy.Broker.Outbound
import Nvoy.Lib.Runs
import Nvoy.Lib.Utf8
import Nvoy.Lib.WebSocket
import Nvoy.Memory.Claim

namespace Nvoy.Codex.WsPeer

open Broker (isTruthy)
open Memory (isJsSpace)
open WebSocket

/-! ### Frames -/

/-- `MAX_FRAME` of `codex_ws_peer.mjs`. -/
def MAX_FRAME : Nat := 16 * 1024 * 1024

/-- A frame as a client writes it; past the bound it throws. -/
def frameBytes (bound : Nat) (key : Fin 4 → UInt8) (opcode : Nat) (body : List UInt8) : Option (List UInt8) :=
  if bound < body.length then none
  else
    let n := body.length
    let head :=
      if n < 126 then [UInt8.ofNat (128 + opcode), UInt8.ofNat (128 + n)]
      else if n < 65536 then [UInt8.ofNat (128 + opcode), 0xfe, UInt8.ofNat (n / 256), UInt8.ofNat n]
      else UInt8.ofNat (128 + opcode) :: 0xff :: bigEndian 8 n
    some (head ++ List.ofFn key ++ mask key body)

inductive Read where
  /-- More must come first. -/
  | waits
  | tooLarge
  | frame (opcode : Nat) (body rest : List UInt8)
  deriving DecidableEq, Repr

/-- Where the payload stands, and its length. -/
def lengthOf (initial : Nat) (buffer : List UInt8) : Option (Nat × Nat) :=
  if initial = 126 then
    if buffer.length < 4 then none else some (4, readBigEndian ((buffer.drop 2).take 2))
  else if initial = 127 then
    if buffer.length < 10 then none else some (10, readBigEndian ((buffer.drop 2).take 8))
  else some (2, initial)

/-- One turn of `readFrames`. -/
def readFrame (bound : Nat) (buffer : List UInt8) : Read :=
  match buffer with
  | first :: second :: _ =>
      match lengthOf (second.toNat % 128) buffer with
      | none => .waits
      | some (offset, length) =>
          if bound < length then .tooLarge
          else if buffer.length < offset + length then .waits
          else .frame (first.toNat % 16) ((buffer.drop offset).take length) (buffer.drop (offset + length))
  | _ => .waits

/-- `JSON.parse(String(body))` -/
def parseBody (body : List UInt8) : Option Json := Json.parse (utf8Decode body).toList

/-! ### The upgrade -/

/-- `'\r\n\r\n'` -/
def BLANK_LINE : List UInt8 := [13, 10, 13, 10]

def indexOf (needle bytes : List UInt8) : Option Nat :=
  (List.range (bytes.length + 1)).find? fun i => needle.isPrefixOf (bytes.drop i)

/-- What `Sec-WebSocket-Accept` must say: base64, so nothing of it is white space. -/
structure Accept where
  text : List Char
  filled : text ≠ []
  solid : ∀ c ∈ text, isJsSpace c = false

def isLineEnd (c : Char) : Bool := c = '\n' || c = '\r' || c.toNat = 0x2028 || c.toNat = 0x2029

/-- `\s*$` -/
def endsLine (rest : List Char) : Bool :=
  (rest.dropWhile isJsSpace).isEmpty || (rest.takeWhile isJsSpace).any isLineEnd

/-- The pattern at the start of a line, in any case. -/
def acceptsLine (accept : Accept) (line : List Char) : Bool :=
  let name := "sec-websocket-accept:".toList
  if name.isPrefixOf (line.map Char.toLower) then
    let rest := (line.drop name.length).dropWhile isJsSpace
    (accept.text.map Char.toLower).isPrefixOf (rest.map Char.toLower) && endsLine (rest.drop accept.text.length)
  else false

/-- The pattern at the start of some line. -/
def acceptsAt (accept : Accept) (start : Bool) : List Char → Bool
  | [] => start && acceptsLine accept []
  | c :: rest => (start && acceptsLine accept (c :: rest)) || acceptsAt accept (isLineEnd c) rest

def upgrades (accept : Accept) (head : List Char) : Bool :=
  "HTTP/1.1 101".toList.isPrefixOf head && acceptsAt accept true head

/-! ### The peer -/

/-- What the code around the peer asks of it. -/
inductive Ask where
  | request (method : String) (params : Option Json)
  | notify (method : String) (params : Json)
  | respond (id : Json) (body : List (String × Json))
  | stop

/-- What a request comes to. -/
inductive Settled where
  | answered (message : Json)
  | timedOut (method : String)
  | closed (reason : String)
  | tooLarge

/-- Why the connection closed. -/
inductive Ending where
  /-- The answer to the upgrade was too long, or was not one. -/
  | refused (reason : String)
  /-- A close frame came. -/
  | closedByCodex
  | tooLarge
  /-- The caller stopped, the stream ended, or no upgrade came in time. -/
  | left (reason : String)
  deriving DecidableEq, Repr

def Ending.reason : Ending → String
  | .refused reason => reason
  | .closedByCodex => "closed by Codex"
  | .tooLarge => "frame exceeds its bound"
  | .left reason => reason

inductive Entry where
  | asked (id : Nat) (method : String) (isOpen : Bool)
  | refused (id : Nat)
  /-- `dispatch` was given the message. -/
  | handed (message : Json)
  | fired (id : Nat)
  | closes (reason : String)

structure Peer where
  upgraded : Bool := false
  closed : Option Ending := none
  /-- An exception left the handler of the socket's data. -/
  thrown : Bool := false
  buffer : List UInt8 := []
  nextId : Nat := 1
  pending : Nat → Option String := fun _ => none
  written : List (List UInt8) := []
  /-- How the promise of a request settled. -/
  settled : Nat → List Settled := fun _ => []
  received : List UInt8 := []
  /-- How long the text of each request was. -/
  sizes : List Nat := []
  log : List Entry := []

structure Env where
  accept : Accept
  /-- The random mask of each frame. -/
  key : Nat → Fin 4 → UInt8
  /-- What `onServerRequest` and the listeners ask while a message is handed to them. -/
  reacts : Peer → Json → List Ask

/-- A promise settles once. -/
def settle (settled : Nat → List Settled) (id : Nat) (how : Settled) : Nat → List Settled :=
  Function.update settled id (if (settled id).isEmpty then [how] else settled id)

def close (p : Peer) (why : Ending) : Peer :=
  if p.closed.isSome then p
  else { p with
    closed := some why
    settled := fun id => if (p.pending id).isSome then settle p.settled id (.closed why.reason) id else p.settled id
    pending := fun _ => none
    log := p.log ++ [.closes why.reason] }

/-- `frame`: `none` where it throws. -/
def frame (env : Env) (p : Peer) (opcode : Nat) (body : List UInt8) : Option Peer :=
  if p.closed.isSome then some p
  else (frameBytes MAX_FRAME (env.key p.written.length) opcode body).map fun bytes =>
    { p with written := p.written ++ [bytes] }

def send (env : Env) (p : Peer) (message : Json) : Option Peer := frame env p 1 (utf8 (Json.stringify message))

/-- `{ method, id, params }` -/
def requestMessage (method : String) (id : Nat) (params : Option Json) : Json :=
  .obj (("method", .str method) :: ("id", .num id 0) :: (params.map fun value => ("params", value)).toList)

def request (env : Env) (p : Peer) (method : String) (params : Option Json) : Peer :=
  let id := p.nextId
  let message := requestMessage method id params
  let asked : Peer := { p with
    nextId := id + 1
    sizes := p.sizes ++ [(utf8 (Json.stringify message)).length]
    log := p.log ++ [.asked id method p.closed.isNone] }
  if p.closed.isSome then { asked with settled := settle p.settled id (.closed "") }
  else
    let waiting : Peer := { asked with pending := Function.update p.pending id (some method) }
    match send env waiting message with
    | some sent => sent
    -- the executor of the promise throws: the entry and its timer stay
    | none => { waiting with settled := settle p.settled id .tooLarge, log := waiting.log ++ [.refused id] }

def perform (env : Env) (p : Peer) : Ask → Peer
  | .request method params => request env p method params
  | .notify method params => (send env p (.obj [("method", .str method), ("params", params)])).getD p
  | .respond id body =>
      (send env p (body.foldl (fun message field => message.put field.1 field.2) (.obj [("id", id)]))).getD p
  | .stop => close ((frame env p 8 []).getD p) (.left "stopped")

/-- A property that is there and is not `null`. -/
def present (message : Json) (key : String) : Option Json :=
  (message.get key).filter fun value => match value with
    | .null => false
    | _ => true

/-- The pending request a message answers. -/
def bears (message : Json) : Option Nat :=
  if isTruthy (message.get "method") then none
  else ((present message "id").bind Json.integer).bind Int.toNat?

def dispatch (env : Env) (p : Peer) (message : Json) : Peer :=
  let p := { p with log := p.log ++ [.handed message] }
  match message with
  -- `null` has no properties
  | .null => { p with thrown := true }
  | message =>
      match bears message with
      | some id =>
          if (p.pending id).isSome then
            { p with pending := Function.update p.pending id none, settled := settle p.settled id (.answered message) }
          else p
      | none => if isTruthy (message.get "method") then (env.reacts p message).foldl (perform env) p else p

/-- One frame off the buffer. -/
def handle (env : Env) (p : Peer) (opcode : Nat) (body : List UInt8) : Peer :=
  if opcode = 8 then close p .closedByCodex
  else if opcode = 9 then (frame env p 10 body).getD { p with thrown := true }
  else if opcode = 1 then
    match parseBody body with
    | some message => dispatch env p message
    | none => p
  else p

/-- The turns of `readFrames`; a close frame and an exception end them. -/
def readTurns (env : Env) : Nat → Peer → Peer
  | 0, p => p
  | fuel + 1, p =>
      match readFrame MAX_FRAME p.buffer with
      | .waits => p
      | .tooLarge => close p .tooLarge
      | .frame opcode body rest =>
          let next := handle env { p with buffer := rest } opcode body
          if opcode = 8 ∨ next.thrown then next else readTurns env fuel next

def readFrames (env : Env) (p : Peer) : Peer := readTurns env p.buffer.length p

/-- Bytes from the socket. -/
def data (env : Env) (p : Peer) (bytes : List UInt8) : Peer :=
  let p := { p with buffer := p.buffer ++ bytes, received := p.received ++ bytes }
  if p.upgraded then readFrames env p
  else match indexOf BLANK_LINE p.buffer with
    | none => if 16384 < p.buffer.length then close p (.refused "oversized upgrade response") else p
    | some index =>
        if upgrades env.accept (utf8Decode (p.buffer.take index)).toList then
          readFrames env { p with buffer := p.buffer.drop (index + 4), upgraded := true }
        else close p (.refused "WebSocket upgrade refused")

inductive Action where
  | data (bytes : List UInt8)
  | ask (ask : Ask)
  /-- The timer of a request. -/
  | fires (id : Nat)
  /-- The timer of the upgrade. -/
  | timeout
  /-- The stream fails, or ends. -/
  | ends (reason : String)

/-- An exception out of the handler ends the process; a closed stream brings no bytes. -/
def step (env : Env) (p : Peer) (action : Action) : Peer :=
  if p.thrown then p
  else match action with
  | .data bytes => if p.closed.isSome then p else data env p bytes
  | .ask ask => if p.upgraded then perform env p ask else p
  | .fires id =>
      match p.pending id with
      | some method => { p with
          pending := Function.update p.pending id none
          settled := settle p.settled id (.timedOut method)
          log := p.log ++ [.fired id] }
      | none => p
  | .timeout => if p.upgraded then p else close p (.left "no WebSocket upgrade within the timeout")
  | .ends reason => close p (.left reason)

def run (env : Env) (actions : List Action) : Peer := Runs.run (step env) {} actions

/-! ### What the peer is for -/

/-- What became of a request: nobody made it, it waits, or it is settled. -/
inductive Fate where
  | unasked
  | waiting (method : String)
  | settled (how : Settled)

/-- What settles a request that waits. -/
def settledBy (id : Nat) (method : String) : Entry → Option Settled
  | .asked _ _ _ => none
  | .refused other => if other = id then some .tooLarge else none
  | .handed message => if bears message = some id then some (.answered message) else none
  | .fired other => if other = id then some (.timedOut method) else none
  | .closes reason => some (.closed reason)

def Fate.next (id : Nat) : Fate → Entry → Fate
  | .unasked, .asked other method isOpen =>
      if other = id then (if isOpen then .waiting method else .settled (.closed "")) else .unasked
  | .unasked, _ => .unasked
  | .waiting method, entry => ((settledBy id method entry).map Fate.settled).getD (.waiting method)
  | .settled how, _ => .settled how

/-- **What a request comes to**: the first response that bears its id after it was made, its timer or the close,
whichever came first. -/
def fate (id : Nat) (log : List Entry) : Fate := log.foldl (Fate.next id) .unasked

def Entry.message : Entry → Option Json
  | .handed message => some message
  | _ => none

def Peer.handed (p : Peer) : List Json := p.log.filterMap Entry.message

/-- The payload of a pong. -/
def pongOf (bytes : List UInt8) : Option (List UInt8) :=
  (decode bytes).bind fun (frame, _, _) => if frame.opcode = 10 then some frame.payload else none

def Peer.pongs (p : Peer) : List (List UInt8) := p.written.filterMap pongOf

/-- A server: its answer to the upgrade, and the frames it sends then. -/
structure Server where
  head : List UInt8
  frames : List (Form × Frame)

def Server.bytes (server : Server) : List UInt8 := server.head ++ stream server.frames

/-- A text that switches protocols and names what the key asks for in a header of its own line. -/
def Agrees (accept : Accept) (text : List Char) : Prop :=
  ∃ before name front back after, text = "HTTP/1.1 101".toList ++ before ++ '\n' :: (name ++ front ++ accept.text ++ back ++ after) ∧
    name.map Char.toLower = "sec-websocket-accept:".toList ∧ (∀ c ∈ front ++ back, c = ' ' ∨ c = '\t') ∧
      ∀ c ∈ after.head?, c = '\r'

/-- **What a conforming server sends.** -/
structure Server.Conforms (accept : Accept) (server : Server) : Prop where
  /-- The blank line that ends the head is its first. -/
  blank : indexOf BLANK_LINE server.head = some (server.head.length - 4)
  agrees : Agrees accept (utf8Decode (server.head.take (server.head.length - 4))).toList
  sends : Sends MAX_FRAME none (server.frames.map Prod.snd)
  fits : ∀ one ∈ server.frames, one.1.Fits one.2.payload.length

/-- The frames whose last byte the peer has. -/
def Server.heard (server : Server) (p : Peer) : List Frame :=
  within server.frames (p.received.length - server.head.length)

/-- The JSON among the messages of frames. -/
def messagesOf (frames : List Frame) : List Json := (assemble frames).messages.filterMap parseBody

/-- The peer has read what it was sent. -/
structure Follows (env : Env) (server : Server) (p : Peer) : Prop where
  handed : p.handed = messagesOf (server.heard p)
  answers : p.pongs <+: (assemble (server.heard p)).pings
  answered : (∀ reason, p.closed ≠ some (.left reason)) → p.pongs = (assemble (server.heard p)).pings
  stays : p.thrown = false
  closes : ∀ why, p.closed = some why → (∃ reason, why = .left reason) ∨
    why = .closedByCodex ∧ (assemble (server.heard p)).closed = true
  /-- A request that was made waits, with its timer set, or is settled once, as it should be. -/
  settles : ∀ id, 0 < id → id < p.nextId →
    (∃ method, fate id p.log = .waiting method ∧ p.settled id = [] ∧ p.closed = none ∧
      (step env p (.fires id)).settled id = [.timedOut method]) ∨
    ∃ how, fate id p.log = .settled how ∧ p.settled id = [how] ∧ how ≠ .tooLarge

end Nvoy.Codex.WsPeer
