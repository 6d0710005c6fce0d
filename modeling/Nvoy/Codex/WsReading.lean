/-
**What the peer reads**: frame by frame, over any cut of the bytes.

* `Reading.next` — what `readFrames` makes of one frame more;
* `Matches` — the peer stands where a reading of the frames stands; handling a frame, and the turns of
  `readFrames`, carry it on;
* `upgrades_of_agrees` — a conforming answer upgrades, wherever it is cut;
* `Along.run` — in every run the peer stands behind the frames whose last byte it has.
-/

import Nvoy.Codex.WsRequests

namespace Nvoy.Codex.WsPeer

open Broker (isTruthy)
open Memory (isJsSpace)
open WebSocket

/-! ### What the code reads in frames -/

/-- What `readFrames` makes of frames. -/
structure Reading where
  handed : List Json := []
  pongs : List (List UInt8) := []
  closed : Bool := false
  thrown : Bool := false

def isNull : Json → Bool
  | .null => true
  | _ => false

def Reading.next (read : Reading) (frame : Frame) : Reading :=
  if read.closed || read.thrown then read
  else if frame.opcode = 8 then { read with closed := true }
  else if frame.opcode = 9 then { read with pongs := read.pongs ++ [frame.payload] }
  else if frame.opcode = 1 then
    match parseBody frame.payload with
    | some message => { read with handed := read.handed ++ [message], thrown := isNull message }
    | none => read
  else read

def Reading.over (read : Reading) : Bool := read.closed || read.thrown

section Reads

variable {env : Env} {p q : Peer} {read : Reading}

/-- The peer stands where the reading stands; once the caller left it answers no more pings. -/
structure Matches (p : Peer) (read : Reading) : Prop where
  handed : p.handed = read.handed
  thrown : p.thrown = read.thrown
  prefix_pongs : p.pongs <+: read.pongs
  pongs : (∀ reason, p.closed ≠ some (.left reason)) → p.pongs = read.pongs
  closed : ∀ why, p.closed = some why → (∃ reason, why = .left reason) ∨ why = .closedByCodex ∧ read.closed = true
  ended : read.closed = true → p.closed.isSome = true
  sized : Sized p
  promised : ∀ id, Promised p id

theorem Matches.quiet (m : Matches p read) (quiet : Quiet p q) : Matches q read where
  handed := quiet.handed.trans m.handed
  thrown := quiet.thrown.trans m.thrown
  prefix_pongs := quiet.pongs ▸ m.prefix_pongs
  pongs := fun stays => by
    rw [quiet.pongs]
    rcases quiet.closed with same | ⟨_, reason, left⟩
    · exact m.pongs (same ▸ stays)
    · exact absurd left (stays reason)
  closed := fun why shut => by
    rcases quiet.closed with same | ⟨_, reason, left⟩
    · exact m.closed why (same ▸ shut)
    · exact .inl ⟨reason, Option.some_inj.mp (shut.symm.trans left)⟩
  ended := fun ended => by
    rcases quiet.closed with same | ⟨_, reason, left⟩
    · exact same ▸ m.ended ended
    · rw [left]
      rfl
  sized := quiet.sized m.sized
  promised := quiet.promised m.promised

theorem Matches.entry (m : Matches p read) {message : Json} {thrown : Bool}
    (log : q.log = p.log ++ [.handed message]) (threw : q.thrown = thrown) (written : q.written = p.written)
    (closed : q.closed = p.closed) (sizes : q.sizes = p.sizes) (promised : ∀ id, Promised q id) :
    Matches q { read with handed := read.handed ++ [message], thrown := thrown } where
  handed := by
    rw [handed_append log, m.handed]
    rfl
  thrown := threw
  prefix_pongs := by
    unfold Peer.pongs
    rw [written]
    exact m.prefix_pongs
  pongs := fun stays => by
    unfold Peer.pongs
    rw [written]
    exact m.pongs (closed ▸ stays)
  closed := fun why shut => m.closed why (closed ▸ shut)
  ended := fun ended => closed ▸ m.ended ended
  sized := m.sized.mono (sizes ▸ List.prefix_refl _) fun id member => .inl (by
    rw [log] at member
    simpa using member)
  promised := promised

theorem Matches.goes (m : Matches p read) (opened : p.closed = none) (stays : p.thrown = false) :
    read.over = false := by
  unfold Reading.over
  rw [← m.thrown, stays, Bool.or_false]
  by_contra closed
  have gone := m.ended (by simpa using closed)
  rw [opened] at gone
  cases gone

/-- What stays as it is while a frame is handled. -/
def Still (p q : Peer) : Prop := q.buffer = p.buffer ∧ q.received = p.received ∧ q.upgraded = p.upgraded

theorem dispatch_of_not_null {message : Json} (there : isNull message = false) : dispatch env p message =
    match bears message with
    | some id =>
        if (p.pending id).isSome then
          { p with
            pending := Function.update p.pending id none
            settled := settle p.settled id (.answered message)
            log := p.log ++ [.handed message] }
        else { p with log := p.log ++ [.handed message] }
    | none =>
        if isTruthy (message.get "method") then
          (env.reacts { p with log := p.log ++ [.handed message] } message).foldl (perform env)
            { p with log := p.log ++ [.handed message] }
        else { p with log := p.log ++ [.handed message] } := by
  cases message with
  | null => cases there
  | _ => rfl

/-- **A message is dispatched.** -/
theorem Matches.dispatch (m : Matches p read) (goes : read.over = false) (message : Json) :
    Matches (dispatch env p message)
      { read with handed := read.handed ++ [message], thrown := isNull message } ∧
      Still p (dispatch env p message) := by
  have stays : p.thrown = false := by
    rw [m.thrown]
    simp only [Reading.over, Bool.or_eq_false_iff] at goes
    exact goes.2
  have answered := fun id => (m.promised id).answered message
  cases null : isNull message with
  | true =>
    cases message with
    | null => exact ⟨m.entry rfl rfl rfl rfl rfl answered, rfl, rfl, rfl⟩
    | _ => cases null
  | false =>
    rw [dispatch_of_not_null null]
    cases bearing : bears message with
    | some id =>
      rw [bearing] at answered
      dsimp only at answered ⊢
      split
      next pending =>
        rw [if_pos pending] at answered
        exact ⟨m.entry rfl stays rfl rfl rfl answered, rfl, rfl, rfl⟩
      next idle =>
        rw [if_neg idle] at answered
        exact ⟨m.entry rfl stays rfl rfl rfl answered, rfl, rfl, rfl⟩
    | none =>
      rw [bearing] at answered
      have handed := m.entry (q := { p with log := p.log ++ [.handed message] }) rfl stays rfl rfl rfl answered
      dsimp only
      split
      next =>
        have quiet := quiet_foldl env (env.reacts { p with log := p.log ++ [.handed message] } message)
          { p with log := p.log ++ [.handed message] }
        exact ⟨handed.quiet quiet, quiet.buffer, quiet.received, quiet.upgraded⟩
      next => exact ⟨handed, rfl, rfl, rfl⟩

/-- **One frame is handled**, as the reading of it. -/
theorem Matches.handle (m : Matches p read) (goes : read.over = false) {frame : Frame}
    (small : frame.payload.length ≤ MAX_FRAME) : Matches (handle env p frame.opcode frame.payload) (read.next frame) ∧
      Still p (handle env p frame.opcode frame.payload) := by
  have running : (read.closed || read.thrown) = false := goes
  unfold WsPeer.handle Reading.next
  rw [running, if_neg Bool.false_ne_true]
  by_cases closing : frame.opcode = 8
  · rw [if_pos closing, if_pos closing]
    have still : Still p (close p .closedByCodex) := by
      unfold close
      split
      · exact ⟨rfl, rfl, rfl⟩
      · exact ⟨rfl, rfl, rfl⟩
    refine ⟨?_, still⟩
    by_cases gone : p.closed.isSome = true
    · rw [close_of_closed gone]
      exact { m with closed := fun why shut => (m.closed why shut).imp_right fun by_ => ⟨by_.1, rfl⟩, ended := fun _ => gone }
    · have opened : p.closed = none := by simpa using gone
      have shut := close_of_open opened .closedByCodex
      constructor
      case promised => exact fun id => (m.promised id).close _
      case sized => exact m.sized.close _
      case handed =>
        rw [shut, handed_append rfl]
        exact (List.append_nil _).trans m.handed
      case closed =>
        intro why closed
        rw [shut] at closed
        exact .inr ⟨(Option.some_inj.mp closed).symm, rfl⟩
      case pongs => exact fun _ => shut ▸ m.pongs fun reason => by rw [opened]; exact nofun
      all_goals rw [shut]
      · exact m.thrown
      · exact m.prefix_pongs
      · exact fun _ => rfl
  rw [if_neg closing, if_neg closing]
  by_cases ping : frame.opcode = 9
  · rw [if_pos ping, if_pos ping]
    cases wrote : WsPeer.frame env p 10 frame.payload with
    | none => exact absurd (frame_eq_none wrote) (Nat.not_lt.mpr small)
    | some sent =>
      obtain ⟨same, written⟩ := frame_eq wrote
      rw [Option.getD_some, same]
      refine ⟨?_, rfl, rfl, rfl⟩
      rcases written with ⟨gone, kept⟩ | ⟨opened, -, added⟩
      · rw [kept]
        refine { m with prefix_pongs := m.prefix_pongs.trans (List.prefix_append _ _), pongs := fun stays => ?_ }
        obtain ⟨why, shut⟩ := Option.isSome_iff_exists.mp gone
        rcases m.closed why shut with ⟨reason, rfl⟩ | ⟨-, ended⟩
        · exact absurd shut (stays reason)
        · rw [ended] at running
          cases running
      · have pongs : Peer.pongs { p with written := sent.written } = read.pongs ++ [frame.payload] := by
          have before := m.pongs fun reason => by rw [opened]; exact nofun
          unfold Peer.pongs at before ⊢
          rw [added, List.filterMap_append, before, List.filterMap_cons, pongOf_maskedWire _ (by decide) small]
          rfl
        exact { m with prefix_pongs := pongs ▸ List.prefix_refl _, pongs := fun _ => pongs }
  rw [if_neg ping, if_neg ping]
  by_cases text : frame.opcode = 1
  · rw [if_pos text, if_pos text]
    cases parseBody frame.payload with
    | none => exact ⟨m, rfl, rfl, rfl⟩
    | some message => exact m.dispatch goes message
  · rw [if_neg text, if_neg text]
    exact ⟨m, rfl, rfl, rfl⟩

theorem next_over (ended : read.over = true) (frame : Frame) : read.next frame = read := if_pos ended

theorem foldl_over (ended : read.over = true) (frames : List Frame) : frames.foldl Reading.next read = read := by
  induction frames with
  | nil => rfl
  | cons frame frames ih => rw [List.foldl_cons, next_over ended, ih]

/-- A reading ends with a close frame or an exception. -/
theorem over_next (goes : read.over = false) (frame : Frame) :
    (read.next frame).over = (decide (frame.opcode = 8) || (read.next frame).thrown) := by
  have running : (read.closed || read.thrown) = false := goes
  simp only [Bool.or_eq_false_iff] at running
  unfold Reading.next Reading.over
  rw [running.1, running.2]
  by_cases closing : frame.opcode = 8
  · simp [closing]
  · simp only [closing, decide_false, Bool.or_self, Bool.false_eq_true, if_false, Bool.false_or]
    split
    · rfl
    · split
      · split
        · rfl
        · simp [running.1]
      · simp [running.1]

/-- A frame of a server the peer can read. -/
def Plain (one : Form × Frame) : Prop :=
  one.1.Fits one.2.payload.length ∧ one.2.payload.length ≤ MAX_FRAME ∧ one.2.opcode < 16

/-- **The turns of `readFrames`** read the frames that are whole in the buffer. -/
theorem Matches.readTurns (env : Env) {rest : List (Form × Frame)} {fuel : Nat} (m : Matches p read) (goes : read.over = false)
    (enough : p.buffer.length ≤ fuel) (front : p.buffer <+: stream rest) (plain : ∀ one ∈ rest, Plain one) :
    ∃ done more torn, rest = done ++ more ∧ p.buffer = stream done ++ torn ∧ Torn torn more ∧
      Matches (readTurns env fuel p) ((done.map Prod.snd).foldl Reading.next read) ∧
      (readTurns env fuel p).received = p.received ∧ (readTurns env fuel p).upgraded = p.upgraded ∧
      (((done.map Prod.snd).foldl Reading.next read).over = false → (readTurns env fuel p).buffer = torn) := by
  induction rest generalizing p read fuel with
  | nil =>
    have empty : p.buffer = [] := List.prefix_nil.mp front
    have waits : WsPeer.readTurns env fuel p = p := by
      cases fuel with
      | zero => rfl
      | succ fuel =>
        unfold WsPeer.readTurns
        rw [empty]
        rfl
    rw [waits]
    exact ⟨[], [], [], rfl, empty, torn_nil [], m, rfl, rfl, fun _ => empty⟩
  | cons one rest ih =>
    obtain ⟨fits, small, known⟩ := plain one List.mem_cons_self
    have plainer : ∀ one ∈ rest, Plain one := fun other member => plain other (List.mem_cons_of_mem _ member)
    by_cases whole : (wire one.1 one.2).length ≤ p.buffer.length
    · obtain ⟨later, cut⟩ := List.prefix_of_prefix_length_le
        (List.prefix_append (wire one.1 one.2) (stream rest)) front whole
      have front' : later <+: stream rest := by
        rw [← cut] at front
        exact (List.prefix_append_right_inj _).mp front
      have waiting : Matches { p with buffer := later } read := { m with }
      obtain ⟨next, buffer, received, upgraded⟩ :
        Matches (WsPeer.handle env { p with buffer := later } one.2.opcode one.2.payload) (read.next one.2) ∧
          Still { p with buffer := later } _ := waiting.handle goes small
      obtain ⟨fuel, rfl⟩ : ∃ n, fuel = n + 1 := by
        have filled : 0 < (wire one.1 one.2).length := Nat.succ_pos _
        exact ⟨fuel - 1, by omega⟩
      have turn : WsPeer.readTurns env (fuel + 1) p =
          if one.2.opcode = 8 ∨ (WsPeer.handle env { p with buffer := later } one.2.opcode one.2.payload).thrown then
            WsPeer.handle env { p with buffer := later } one.2.opcode one.2.payload
          else WsPeer.readTurns env fuel (WsPeer.handle env { p with buffer := later } one.2.opcode one.2.payload) := by
        have read := readFrame_wire fits small known later
        rw [cut] at read
        rw [WsPeer.readTurns, read]
      rw [turn, next.thrown]
      have ends := over_next goes one.2
      by_cases ended : (read.next one.2).over = true
      · rw [if_pos (by rw [ended] at ends; simpa using ends.symm)]
        obtain ⟨done, more, torn, rfl, rfl, short⟩ := exists_torn front'
        refine ⟨one :: done, more, torn, rfl, by rw [← cut, ← List.append_assoc]; rfl, short, ?_, received, upgraded, ?_⟩
        · rw [List.map_cons, List.foldl_cons, foldl_over ended]
          exact next
        · rw [List.map_cons, List.foldl_cons, foldl_over ended, ended]
          exact nofun
      · have goes' : (read.next one.2).over = false := by simpa using ended
        rw [if_neg (by rw [goes'] at ends; simpa using ends.symm)]
        have enough' : (WsPeer.handle env { p with buffer := later } one.2.opcode one.2.payload).buffer.length ≤ fuel := by
          rw [buffer]
          have length := congrArg List.length cut
          rw [List.length_append, show (wire one.1 one.2).length = _ + 1 from rfl] at length
          dsimp only
          omega
        obtain ⟨done, more, torn, rfl, whole, short, matched, received', upgraded', left⟩ :=
          ih next goes' enough' (buffer ▸ front') plainer
        rw [buffer] at whole
        refine ⟨one :: done, more, torn, rfl, ?_, short, matched, received'.trans received, upgraded'.trans upgraded, left⟩
        rw [← cut, show later = stream done ++ torn from whole, ← List.append_assoc]
        rfl
    · have waits : WsPeer.readTurns env fuel p = p := by
        cases fuel with
        | zero => rfl
        | succ fuel =>
          unfold WsPeer.readTurns
          rw [readFrame_torn fits small front (Nat.lt_of_not_le whole)]
      rw [waits]
      refine ⟨[], one :: rest, p.buffer, rfl, rfl, ⟨front, fun other same => ?_⟩, m, rfl, rfl, fun _ => rfl⟩
      obtain rfl := Option.some_inj.mp same
      exact Nat.lt_of_not_le whole

end Reads

/-! ### The head -/

section Head

variable {accept : Accept} {needle bytes head more : List UInt8} {index : Nat}

theorem indexOf_eq_some : indexOf needle bytes = some index ↔
    needle <+: bytes.drop index ∧ index ≤ bytes.length ∧ ∀ before < index, ¬needle <+: bytes.drop before := by
  unfold indexOf
  rw [List.find?_range_eq_some]
  simp only [List.isPrefixOf_iff_prefix, List.mem_range, Nat.lt_succ_iff, Bool.not_eq_true', Bool.eq_false_iff, ne_eq]

theorem indexOf_eq_none : indexOf needle bytes = none ↔ ∀ index ≤ bytes.length, ¬needle <+: bytes.drop index := by
  unfold indexOf
  simp only [List.find?_eq_none, List.mem_range, Nat.lt_succ_iff, List.isPrefixOf_iff_prefix]

/-- Where the blank line of the head stands. -/
theorem length_head (blank : indexOf BLANK_LINE head = some (head.length - 4)) : 4 ≤ head.length := by
  have long := (indexOf_eq_some.mp blank).1.length_le
  rw [List.length_drop, show BLANK_LINE.length = 4 from rfl] at long
  omega

theorem indexOf_early (blank : indexOf BLANK_LINE head = some (head.length - 4)) (front : bytes <+: head)
    (short : bytes.length < head.length) : indexOf BLANK_LINE bytes = none := by
  rw [indexOf_eq_none]
  intro index _ found
  obtain ⟨rest, rfl⟩ := front
  have four := found.length_le
  rw [List.length_drop, show BLANK_LINE.length = 4 from rfl] at four
  rw [List.length_append] at blank short
  have inside : BLANK_LINE <+: (bytes ++ rest).drop index := by
    rw [List.drop_append_of_le_length (by omega)]
    exact found.trans (List.prefix_append _ _)
  exact (indexOf_eq_some.mp blank).2.2 index (by omega) inside

theorem indexOf_head (blank : indexOf BLANK_LINE head = some (head.length - 4)) (more : List UInt8) :
    indexOf BLANK_LINE (head ++ more) = some (head.length - 4) := by
  have long := length_head blank
  obtain ⟨found, -, first⟩ := indexOf_eq_some.mp blank
  refine indexOf_eq_some.mpr ⟨?_, by rw [List.length_append]; omega, fun before early found' => first before early ?_⟩
  · rw [List.drop_append_of_le_length (by omega)]
    exact found.trans (List.prefix_append _ _)
  · rw [List.drop_append_of_le_length (by omega)] at found'
    refine List.prefix_of_prefix_length_le found' (List.prefix_append _ more) ?_
    rw [List.length_drop, show BLANK_LINE.length = 4 from rfl]
    omega

theorem acceptsAt_line {line : List Char} (accepted : acceptsLine accept line = true) (front : List Char)
    (start : Bool) : acceptsAt accept start (front ++ '\n' :: line) = true := by
  induction front generalizing start with
  | nil =>
    have next : acceptsAt accept true line = true := by
      cases line with
      | nil => exact accepted
      | cons c rest =>
        unfold acceptsAt
        rw [accepted]
        rfl
    show (_ || acceptsAt accept true line) = true
    rw [next, Bool.or_true]
  | cons c front ih =>
    show (_ || acceptsAt accept (isLineEnd c) (front ++ '\n' :: line)) = true
    rw [ih, Bool.or_true]

theorem acceptsLine_of {name front back after : List Char}
    (named : name.map Char.toLower = "sec-websocket-accept:".toList)
    (blank : ∀ c ∈ front ++ back, c = ' ' ∨ c = '\t') (ends : ∀ c ∈ after.head?, c = '\r') :
    acceptsLine accept (name ++ front ++ accept.text ++ back ++ after) = true := by
  have spaces : ∀ c ∈ front ++ back, isJsSpace c = true := by
    intro c member
    rcases blank c member with rfl | rfl
    · rfl
    · rfl
  have starts : "sec-websocket-accept:".toList.isPrefixOf
      ((name ++ front ++ accept.text ++ back ++ after).map Char.toLower) = true := by
    rw [List.isPrefixOf_iff_prefix, ← named, List.append_assoc, List.append_assoc, List.append_assoc, List.map_append]
    exact List.prefix_append _ _
  have length : "sec-websocket-accept:".toList.length = name.length := by
    rw [← named, List.length_map]
  have skipped : ((name ++ front ++ accept.text ++ back ++ after).drop name.length).dropWhile isJsSpace =
      accept.text ++ (back ++ after) := by
    rw [List.append_assoc, List.append_assoc, List.append_assoc, List.drop_left' rfl, List.dropWhile_append_of_pos
      (fun c member => spaces c (List.mem_append_left _ member))]
    cases text : accept.text with
    | nil => exact absurd text accept.filled
    | cons c rest =>
      have solid := accept.solid c (by rw [text]; exact List.mem_cons_self)
      rw [List.cons_append, List.dropWhile_cons_of_neg (by rw [solid]; exact Bool.false_ne_true)]
  have last : endsLine (back ++ after) = true := by
    have inside : ∀ c ∈ back, isJsSpace c = true := fun c member => spaces c (List.mem_append_right _ member)
    unfold endsLine
    cases after with
    | nil =>
      rw [List.append_nil, List.dropWhile_eq_nil_iff.mpr inside]
      rfl
    | cons c rest =>
      obtain rfl := ends c rfl
      rw [List.takeWhile_append_of_pos inside, List.takeWhile_cons_of_pos (by rfl), List.any_append, List.any_cons]
      simp [isLineEnd]
  unfold acceptsLine
  dsimp only
  rw [if_pos starts, length, skipped, List.map_append, List.drop_left' rfl, last, Bool.and_true,
    List.isPrefixOf_iff_prefix]
  exact List.prefix_append _ _

/-- **A conforming answer upgrades.** -/
theorem upgrades_of_agrees {text : List Char} (agrees : Agrees accept text) : upgrades accept text = true := by
  obtain ⟨before, name, front, back, after, rfl, named, blank, ends⟩ := agrees
  unfold upgrades
  rw [Bool.and_eq_true, List.isPrefixOf_iff_prefix]
  refine ⟨?_, ?_⟩
  · rw [List.append_assoc]
    exact List.prefix_append _ _
  · exact acceptsAt_line (acceptsLine_of named blank ends) _ _

end Head

/-! ### Runs -/

section Along

variable {env : Env} {server : Server} {p q : Peer} {actions : List Action}

/-- What `readFrames` makes of all frames so far. -/
def readingOf (frames : List Frame) : Reading := frames.foldl Reading.next {}

theorem readingOf_append (front back : List Frame) :
    readingOf (front ++ back) = back.foldl Reading.next (readingOf front) := List.foldl_append

/-- **Where the peer stands** in the bytes of the server: before the head is whole, or behind some frames. -/
inductive Along (server : Server) (p : Peer) : Prop where
  | waits (fresh : p.upgraded = false) (short : p.received.length < server.head.length)
      (buffer : p.closed = none → p.buffer = p.received) (reading : Matches p {})
  | reads (upgraded : p.upgraded = true) (done more : List (Form × Frame)) (torn : List UInt8)
      (frames : server.frames = done ++ more) (received : p.received = server.head ++ (stream done ++ torn))
      (short : Torn torn more) (reading : Matches p (readingOf (done.map Prod.snd)))
      (buffer : p.closed = none → p.thrown = false → p.buffer = torn)

theorem Along.quiet (along : Along server p) (quiet : Quiet p q) : Along server q := by
  have opened : q.closed = none → p.closed = none := by
    intro opened
    rcases quiet.closed with same | ⟨was, -⟩
    · exact same ▸ opened
    · exact was
  cases along with
  | waits fresh short buffer reading =>
    refine .waits (quiet.upgraded.trans fresh) (quiet.received ▸ short) (fun open_ => ?_) (reading.quiet quiet)
    rw [quiet.buffer, quiet.received, buffer (opened open_)]
  | reads upgraded done more torn frames received short reading buffer =>
    refine .reads (quiet.upgraded.trans upgraded) done more torn frames (quiet.received.trans received) short
      (reading.quiet quiet) fun open_ stays => ?_
    rw [quiet.buffer]
    exact buffer (opened open_) (quiet.thrown ▸ stays)

/-- The timer of a request. -/
theorem quiet_fires {id : Nat} {method : String} (waiting : p.pending id = some method) : Quiet p { p with
    pending := Function.update p.pending id none
    settled := settle p.settled id (.timedOut method)
    log := p.log ++ [.fired id] } := by
  refine ⟨?_, rfl, rfl, rfl, rfl, rfl, .inl rfl, ?_, ?_⟩
  · rw [handed_append rfl]
    exact List.append_nil _
  · intro sized
    refine sized.mono (List.prefix_refl _) fun id member => .inl ?_
    simpa using member
  · intro promised other
    refine (promised other).entry (.fired id) nofun rfl rfl (fun named how waits by_ nil => ?_)
      (fun named waits by_ opened => ?_) (fun free => ?_) (fun how was => settle_settled was _ _)
    · unfold settledBy at by_
      dsimp only at by_
      split at by_
      next same =>
        subst same
        obtain rfl := Option.some_inj.mp (waiting.symm.trans waits)
        obtain rfl := Option.some_inj.mp by_
        exact settle_nil nil _
      next => cases by_
    · unfold settledBy at by_
      dsimp only at by_
      split at by_
      · cases by_
      next apart =>
        exact ⟨(Function.update_of_ne (Ne.symm apart) _ _).trans waits, settle_of_ne (Ne.symm apart) _ _, opened⟩
    · have apart : other ≠ id := fun same => by
        rw [same, waiting] at free
        cases free
      exact ⟨(Function.update_of_ne apart _ _).trans free, settle_of_ne apart _ _⟩

/-- The server is one the peer can follow as far as the sizes go. -/
structure Server.Plain (accept : Accept) (server : Server) : Prop where
  blank : indexOf BLANK_LINE server.head = some (server.head.length - 4)
  agrees : Agrees accept (utf8Decode (server.head.take (server.head.length - 4))).toList
  short : server.head.length ≤ 16385
  plain : ∀ one ∈ server.frames, WsPeer.Plain one

/-- **Bytes come.** -/
theorem Along.data (along : Along server p) (good : server.Plain env.accept) (opened : p.closed = none)
    (stays : p.thrown = false) {bytes : List UInt8} (front : p.received ++ bytes <+: server.bytes) :
    Along server (data env p bytes) ∧ (data env p bytes).received = p.received ++ bytes := by
  unfold WsPeer.data
  dsimp only
  cases along with
  | waits fresh short buffer reading =>
    have four := length_head good.blank
    rw [fresh, if_neg Bool.false_ne_true, buffer opened]
    by_cases whole : server.head.length ≤ (p.received ++ bytes).length
    · obtain ⟨later, cut⟩ := List.prefix_of_prefix_length_le (List.prefix_append server.head _) front whole
      have front' : later <+: stream server.frames := by
        rw [← cut] at front
        exact (List.prefix_append_right_inj _).mp front
      rw [← cut, indexOf_head good.blank later]
      dsimp only
      rw [List.take_append_of_le_length (by omega), upgrades_of_agrees good.agrees, if_pos rfl,
        Nat.sub_add_cancel four, List.drop_left' rfl]
      have waiting : Matches { p with buffer := later, received := server.head ++ later, upgraded := true } {} :=
        { reading with }
      obtain ⟨done, more, torn, frames, cut', short', matched, received, upgraded, left⟩ :=
        waiting.readTurns env rfl (Nat.le_refl _) front' good.plain
      refine ⟨.reads upgraded done more torn frames (received.trans ?_) short' matched fun open_ stays' =>
        left (matched.goes open_ stays'), received⟩
      exact congrArg (server.head ++ ·) cut'
    · have early : p.received ++ bytes <+: server.head :=
        List.prefix_of_prefix_length_le front (List.prefix_append _ _) (Nat.le_of_not_le whole)
      rw [indexOf_early good.blank early (Nat.lt_of_not_le whole)]
      dsimp only
      have short' := good.short
      rw [if_neg (by omega)]
      exact ⟨.waits rfl (Nat.lt_of_not_le whole) (fun _ => rfl) { reading with }, rfl⟩
  | reads upgraded done more torn frames received short reading buffer =>
    rw [upgraded, if_pos rfl, buffer opened stays]
    have front' : torn ++ bytes <+: stream more := by
      rw [received, Server.bytes, frames, stream_append, List.append_assoc, List.append_assoc] at front
      exact (List.prefix_append_right_inj _).mp ((List.prefix_append_right_inj _).mp front)
    have plain : ∀ one ∈ more, WsPeer.Plain one := fun one member =>
      good.plain one (by rw [frames]; exact List.mem_append_right _ member)
    have waiting : Matches { p with buffer := torn ++ bytes, received := p.received ++ bytes, upgraded := true }
        (readingOf (done.map Prod.snd)) := { reading with }
    obtain ⟨done', more', torn', frames', cut, short', matched, received', upgraded', left⟩ :=
      waiting.readTurns env (reading.goes opened stays) (Nat.le_refl _) front' plain
    rw [← readingOf_append, ← List.map_append] at matched left
    refine ⟨.reads upgraded' (done ++ done') more' torn' (by rw [frames, frames', List.append_assoc])
      (received'.trans ?_) short' matched fun open_ stays' => left (matched.goes open_ stays'), received'⟩
    rw [received, stream_append, List.append_assoc, List.append_assoc, List.append_assoc,
      show torn ++ bytes = stream done' ++ torn' from cut]

/-- What a run still brings. -/
def chunks (actions : List Action) : List UInt8 := actions.flatMap fun | .data bytes => bytes | _ => []

/-- A step that brings no bytes. -/
theorem quiet_step (env : Env) {action : Action} (other : ∀ bytes, action ≠ .data bytes) : Quiet p (step env p action) := by
  unfold step
  split
  · exact Quiet.refl p
  cases action with
  | data bytes => exact absurd rfl (other bytes)
  | ask ask =>
    dsimp only
    split
    · exact quiet_perform env p ask
    · exact Quiet.refl p
  | fires id =>
    dsimp only
    split
    next method waiting => exact quiet_fires waiting
    · exact Quiet.refl p
  | timeout =>
    dsimp only
    split
    · exact Quiet.refl p
    · exact quiet_close p _
  | ends reason => exact quiet_close p reason

/-- **The run**: as long as the peer reads, what it has and what comes are the server's bytes. -/
theorem Along.run (good : server.Plain env.accept) (along : Along server p)
    (front : p.closed = none → p.thrown = false → p.received ++ chunks actions <+: server.bytes) :
    Along server (Runs.run (step env) p actions) := by
  induction actions generalizing p with
  | nil => exact along
  | cons action actions ih =>
    rw [Runs.run_cons]
    by_cases brings : ∃ bytes, action = .data bytes
    · obtain ⟨bytes, rfl⟩ := brings
      have chunks : chunks (.data bytes :: actions) = bytes ++ chunks actions := rfl
      by_cases reads : p.closed = none ∧ p.thrown = false
      · obtain ⟨opened, stays⟩ := reads
        have stepped : step env p (.data bytes) = WsPeer.data env p bytes := by
          unfold step
          rw [stays, opened]
          rfl
        have whole := front opened stays
        rw [chunks, ← List.append_assoc] at whole
        obtain ⟨next, received⟩ := along.data good opened stays ((List.prefix_append _ _).trans whole)
        rw [stepped]
        exact ih next fun _ _ => received ▸ whole
      · have stepped : step env p (.data bytes) = p := by
          unfold step
          cases thrown : p.thrown with
          | true => rfl
          | false =>
            have gone : p.closed.isSome = true := by
              rw [Option.isSome_iff_ne_none]
              exact fun opened => reads ⟨opened, thrown⟩
            dsimp only
            rw [if_neg Bool.false_ne_true, if_pos gone]
        rw [stepped]
        exact ih along fun opened stays => absurd ⟨opened, stays⟩ reads
    · have other : ∀ bytes, action ≠ .data bytes := fun bytes same => brings ⟨bytes, same⟩
      have quiet := quiet_step (p := p) env other
      have chunks : chunks (action :: actions) = chunks actions := by
        cases action with
        | data bytes => exact absurd rfl (other bytes)
        | _ => rfl
      refine ih (along.quiet quiet) fun opened stays => ?_
      rw [quiet.received, ← chunks]
      refine front ?_ (quiet.thrown ▸ stays)
      rcases quiet.closed with same | ⟨was, -⟩
      · exact same ▸ opened
      · exact was

/-- **The frames heard** are those the peer stands behind. -/
theorem Along.heard (along : Along server p) : Matches p (readingOf (server.heard p)) := by
  unfold Server.heard
  cases along with
  | waits fresh short buffer reading =>
    rw [Nat.sub_eq_zero_of_le short.le]
    have none : within server.frames 0 = [] := by
      cases server.frames with
      | nil => rfl
      | cons one rest => exact if_neg (Nat.not_succ_le_zero _)
    rw [none]
    exact reading
  | reads upgraded done more torn frames received short reading buffer =>
    rw [received, List.length_append, List.length_append, Nat.add_sub_cancel_left, frames, within_append short.2]
    exact reading

end Along

end Nvoy.Codex.WsPeer
