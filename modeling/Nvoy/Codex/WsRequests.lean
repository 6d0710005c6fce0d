/-
**The requests of the peer**: what settles them, and the frames they are written in.

* `frameBytes_eq`, `readFrame_wire`, `readFrame_torn` — the frames of either client, and one off the wire;
* `Promised` — what the peer holds of a request is what the log says of it; every step keeps it;
* `Sized` — a request is refused only for its length;
* `Quiet` — what a step that reads nothing changes: whatever the callers ask, the timers and the end.
-/

import Nvoy.Codex.WsPeer

namespace Nvoy.Codex.WsPeer

open Broker (isTruthy)
open WebSocket

/-! ### Frames off the wire -/

section Frames

variable {form : Form} {sent : Frame} {bound : Nat} {rest torn : List UInt8}

/-- **What the client writes is a masked frame**, whichever client. -/
theorem frameBytes_eq {key : Fin 4 → UInt8} {opcode : Nat} {body : List UInt8} (small : body.length ≤ bound) :
    frameBytes bound key opcode body = some (maskedWire key ⟨true, opcode, body⟩) := by
  unfold frameBytes
  rw [if_neg (Nat.not_lt.mpr small)]
  unfold maskedWire Form.least Frame.first
  dsimp only
  split
  · rfl
  · split
    · have bytes : bigEndian 2 body.length = [UInt8.ofNat (body.length / 256), UInt8.ofNat body.length] := by
        simp [bigEndian]
      simp only [Form.bytes, bytes]
      rfl
    · rfl

theorem lengthOf_wire (fits : form.Fits sent.payload.length) (rest : List UInt8) : ∃ second more offset,
    wire form sent ++ rest = sent.first :: second :: more ∧
      lengthOf (second.toNat % 128) (wire form sent ++ rest) = some (offset, sent.payload.length) ∧
      offset + sent.payload.length = (wire form sent).length ∧
      (wire form sent ++ rest).drop offset = sent.payload ++ rest := by
  cases form with
  | short =>
    have short : sent.payload.length < 126 := fits
    have initial : (UInt8.ofNat sent.payload.length).toNat % 128 = sent.payload.length := by
      rw [UInt8.toNat_ofNat']
      omega
    refine ⟨UInt8.ofNat sent.payload.length, sent.payload ++ rest, 2, ?_, ?_, ?_, ?_⟩
    · simp [wire, Form.bytes]
    · unfold lengthOf
      rw [initial, if_neg (by omega), if_neg (by omega)]
    · simp [wire, Form.bytes]
      omega
    · simp [wire, Form.bytes]
  | medium =>
    have medium : sent.payload.length < 65536 := fits
    have whole : wire .medium sent ++ rest =
        sent.first :: 126 :: (bigEndian 2 sent.payload.length ++ (sent.payload ++ rest)) := by
      simp only [wire, Form.bytes, List.cons_append, List.append_assoc]
      rfl
    refine ⟨126, _, 4, whole, ?_, ?_, ?_⟩
    · rw [whole]
      unfold lengthOf
      rw [if_pos (by decide), if_neg (by simp), List.drop_succ_cons, List.drop_succ_cons, List.drop_zero,
        List.take_left' (length_bigEndian 2 _), readBigEndian_bigEndian medium]
    · simp [wire, Form.bytes]
      omega
    · rw [whole]
      exact List.drop_left' (length_bigEndian 2 _)
  | long =>
    have long : sent.payload.length < 2 ^ 63 := fits
    have whole : wire .long sent ++ rest =
        sent.first :: 127 :: (bigEndian 8 sent.payload.length ++ (sent.payload ++ rest)) := by
      simp only [wire, Form.bytes, List.cons_append, List.append_assoc]
      rfl
    refine ⟨127, _, 10, whole, ?_, ?_, ?_⟩
    · rw [whole]
      unfold lengthOf
      rw [if_neg (by decide), if_pos (by decide), if_neg (by simp), List.drop_succ_cons, List.drop_succ_cons,
        List.drop_zero, List.take_left' (length_bigEndian 8 _), readBigEndian_bigEndian (long.trans (by decide))]
    · simp [wire, Form.bytes]
      omega
    · rw [whole]
      exact List.drop_left' (length_bigEndian 8 _)

/-- **A whole frame is read off the buffer.** -/
theorem readFrame_wire (fits : form.Fits sent.payload.length) (small : sent.payload.length ≤ bound)
    (known : sent.opcode < 16) (rest : List UInt8) :
    readFrame bound (wire form sent ++ rest) = .frame sent.opcode sent.payload rest := by
  obtain ⟨second, more, offset, whole, length, ends, payload⟩ := lengthOf_wire fits rest
  have long : ¬(wire form sent ++ rest).length < offset + sent.payload.length := by
    rw [ends, List.length_append]
    omega
  unfold readFrame
  rw [whole]
  dsimp only
  rw [← whole, length]
  dsimp only
  rw [if_neg (Nat.not_lt.mpr small), if_neg long, (first_bits known).2.1, payload, List.take_left' rfl, ends,
    List.drop_left' rfl]

/-- The bytes in front of a frame's length do not change when more come. -/
theorem lengthOf_prefix {first second : UInt8} {more : List UInt8} {found : Nat × Nat}
    (early : torn <+: more) (read : lengthOf (second.toNat % 128) (first :: second :: torn) = some found) :
    lengthOf (second.toNat % 128) (first :: second :: more) = some found := by
  obtain ⟨later, rfl⟩ := early
  unfold lengthOf at read ⊢
  by_cases medium : second.toNat % 128 = 126
  · rw [if_pos medium] at read ⊢
    split at read
    · cases read
    next long =>
      have enough : 2 ≤ torn.length := by simpa using long
      rw [if_neg (by simp; omega), ← read]
      simp [List.take_append_of_le_length enough]
  rw [if_neg medium] at read ⊢
  by_cases long : second.toNat % 128 = 127
  · rw [if_pos long] at read ⊢
    split at read
    · cases read
    next long =>
      have enough : 8 ≤ torn.length := by simpa using long
      rw [if_neg (by simp; omega), ← read]
      simp [List.take_append_of_le_length enough]
  · rw [if_neg long] at read ⊢
    exact read

/-- **A torn frame waits.** -/
theorem readFrame_torn (fits : form.Fits sent.payload.length) (small : sent.payload.length ≤ bound)
    (early : torn <+: wire form sent ++ rest) (short : torn.length < (wire form sent).length) :
    readFrame bound torn = .waits := by
  obtain ⟨second, more, offset, whole, length, ends, -⟩ := lengthOf_wire fits rest
  match torn with
  | [] => rfl
  | [_] => rfl
  | first :: second' :: torn =>
    rw [whole] at early
    obtain ⟨rfl, later⟩ := List.cons_prefix_cons.mp early
    obtain ⟨rfl, payload⟩ := List.cons_prefix_cons.mp later
    unfold readFrame
    dsimp only
    cases read : lengthOf (second'.toNat % 128) (sent.first :: second' :: torn) with
    | none => rfl
    | some found =>
      have same := lengthOf_prefix payload read
      rw [← whole, length] at same
      obtain rfl := Option.some_inj.mp same
      dsimp only
      rw [if_neg (Nat.not_lt.mpr small), if_pos (by omega)]

end Frames

/-! ### Promises -/

section Promises

variable {env : Env} {p q : Peer} {id : Nat}

/-- What the peer holds of a request is what the log says of it. -/
def Promised (p : Peer) (id : Nat) : Prop :=
  match fate id p.log with
  | .unasked => (0 < id → p.nextId ≤ id) ∧ p.pending id = none ∧ p.settled id = []
  | .waiting method => id < p.nextId ∧ p.pending id = some method ∧ p.settled id = [] ∧ p.closed = none
  | .settled how => id < p.nextId ∧ p.settled id = [how]

theorem fate_append (id : Nat) (log : List Entry) (entry : Entry) :
    fate id (log ++ [entry]) = (fate id log).next id entry := by
  unfold fate
  rw [List.foldl_append]
  rfl

/-- **One more entry**, other than a request: it settles what waits and it is meant for. -/
theorem Promised.entry (promised : Promised p id) (entry : Entry) (other : ∀ n m o, entry ≠ .asked n m o)
    (log : q.log = p.log ++ [entry]) (nextId : q.nextId = p.nextId)
    (settles : ∀ method how, p.pending id = some method → settledBy id method entry = some how →
      p.settled id = [] → q.settled id = [how])
    (waits : ∀ method, p.pending id = some method → settledBy id method entry = none → p.closed = none →
      q.pending id = some method ∧ q.settled id = p.settled id ∧ q.closed = none)
    (idle : p.pending id = none → q.pending id = none ∧ q.settled id = p.settled id)
    (still : ∀ how, p.settled id = [how] → q.settled id = [how]) : Promised q id := by
  unfold Promised at promised ⊢
  rw [log, fate_append, nextId]
  cases was : fate id p.log with
  | unasked =>
    rw [was] at promised
    obtain ⟨fresh, none, nil⟩ := promised
    have next : Fate.unasked.next id entry = .unasked := by
      cases entry with
      | asked n m o => exact absurd rfl (other n m o)
      | _ => rfl
    rw [next]
    obtain ⟨pending, settled⟩ := idle none
    exact ⟨fresh, pending, settled.trans nil⟩
  | waiting method =>
    rw [was] at promised
    obtain ⟨known, waiting, nil, opened⟩ := promised
    cases by_ : settledBy id method entry with
    | none =>
      obtain ⟨pending, settled, closed⟩ := waits method waiting by_ opened
      rw [show (Fate.waiting method).next id entry = .waiting method by simp only [Fate.next, by_]; rfl]
      exact ⟨known, pending, settled.trans nil, closed⟩
    | some how =>
      rw [show (Fate.waiting method).next id entry = .settled how by simp only [Fate.next, by_]; rfl]
      exact ⟨known, settles method how waiting by_ nil⟩
  | settled how =>
    rw [was] at promised
    exact ⟨promised.1, still how promised.2⟩

theorem settle_self (settled : Nat → List Settled) (id : Nat) (how : Settled) :
    settle settled id how id = if (settled id).isEmpty then [how] else settled id :=
  Function.update_self _ _ _

theorem settle_of_ne {other : Nat} (apart : id ≠ other) (settled : Nat → List Settled) (how : Settled) :
    settle settled other how id = settled id :=
  Function.update_of_ne apart _ _

/-- A promise that is settled stays as it is. -/
theorem settle_settled {settled : Nat → List Settled} {done : Settled} (was : settled id = [done]) (other : Nat)
    (how : Settled) : settle settled other how id = [done] := by
  by_cases same : id = other
  · subst same
    rw [settle_self, was]
    rfl
  · rw [settle_of_ne same, was]

theorem settle_nil {settled : Nat → List Settled} (was : settled id = []) (how : Settled) :
    settle settled id how id = [how] := by
  rw [settle_self, was]
  rfl

theorem Promised.close (promised : Promised p id) (why : Ending) : Promised (close p why) id := by
  unfold WsPeer.close
  split
  · exact promised
  refine promised.entry (.closes why.reason) nofun rfl rfl (fun method how waiting by_ nil => ?_)
    (fun _ _ by_ _ => nomatch by_) (fun none => ⟨rfl, ?_⟩) (fun how was => ?_)
  · obtain rfl := Option.some_inj.mp by_
    dsimp only
    rw [waiting, Option.isSome_some, if_pos rfl, settle_nil nil]
  · dsimp only
    rw [none, Option.isSome_none, if_neg Bool.false_ne_true]
  · dsimp only
    split
    · exact settle_settled was id _
    · exact was

/-- A frame touches no request. -/
theorem frame_eq {sent : Peer} {opcode : Nat} {body : List UInt8} (wrote : frame env p opcode body = some sent) :
    sent = { p with written := sent.written } ∧
      (p.closed.isSome = true ∧ sent.written = p.written ∨
        p.closed = none ∧ body.length ≤ MAX_FRAME ∧
          sent.written = p.written ++ [maskedWire (env.key p.written.length) ⟨true, opcode, body⟩]) := by
  unfold frame at wrote
  split at wrote
  next gone =>
    obtain rfl := Option.some_inj.mp wrote
    exact ⟨rfl, .inl ⟨gone, rfl⟩⟩
  next opened =>
    obtain ⟨bytes, framed, rfl⟩ := Option.map_eq_some_iff.mp wrote
    have small : body.length ≤ MAX_FRAME := by
      by_contra large
      rw [frameBytes, if_pos (Nat.lt_of_not_le large)] at framed
      cases framed
    rw [frameBytes_eq small] at framed
    obtain rfl := Option.some_inj.mp framed
    exact ⟨rfl, .inr ⟨by simpa using opened, small, rfl⟩⟩

theorem frame_eq_none {opcode : Nat} {body : List UInt8} (threw : frame env p opcode body = none) :
    MAX_FRAME < body.length := by
  by_contra small
  unfold frame at threw
  rw [frameBytes_eq (Nat.le_of_not_lt small)] at threw
  split at threw
  · cases threw
  · cases threw

theorem fate_fresh (promised : Promised p p.nextId) :
    fate p.nextId p.log = .unasked ∧ p.pending p.nextId = none ∧ p.settled p.nextId = [] := by
  unfold Promised at promised
  cases was : fate p.nextId p.log with
  | unasked =>
    rw [was] at promised
    exact ⟨rfl, promised.2⟩
  | waiting method =>
    rw [was] at promised
    exact absurd promised.1 (Nat.lt_irrefl _)
  | settled how =>
    rw [was] at promised
    exact absurd promised.1 (Nat.lt_irrefl _)

/-- **A request is made**: the others stay as they are. -/
theorem Promised.asked (promised : Promised p id) {method : String} {isOpen : Bool}
    (log : q.log = p.log ++ [.asked p.nextId method isOpen]) (nextId : q.nextId = p.nextId + 1)
    (closed : q.closed = p.closed) (apart : id ≠ p.nextId → q.pending id = p.pending id ∧ q.settled id = p.settled id)
    (own : id = p.nextId → fate id p.log = .unasked ∧
      if isOpen then q.pending id = some method ∧ q.settled id = [] ∧ q.closed = none
      else q.settled id = [.closed ""]) : Promised q id := by
  unfold Promised at promised ⊢
  rw [log, fate_append, nextId]
  by_cases same : id = p.nextId
  · obtain ⟨was, now⟩ := own same
    rw [was]
    have next : Fate.unasked.next id (.asked p.nextId method isOpen) =
        if isOpen then .waiting method else .settled (.closed "") := if_pos same.symm
    rw [next]
    cases isOpen with
    | true => exact ⟨same ▸ Nat.lt_succ_self _, now⟩
    | false => exact ⟨same ▸ Nat.lt_succ_self _, now⟩
  · obtain ⟨pending, settled⟩ := apart same
    rw [pending, settled, closed]
    have next : (fate id p.log).next id (.asked p.nextId method isOpen) = fate id p.log := by
      cases fate id p.log with
      | unasked => exact if_neg (Ne.symm same)
      | waiting _ => rfl
      | settled _ => rfl
    rw [next]
    cases was : fate id p.log with
    | unasked =>
      rw [was] at promised
      exact ⟨fun known => Nat.succ_le_of_lt (Nat.lt_of_le_of_ne (promised.1 known) (Ne.symm same)), promised.2⟩
    | waiting _ =>
      rw [was] at promised
      exact ⟨promised.1.trans (Nat.lt_succ_self _), promised.2⟩
    | settled _ =>
      rw [was] at promised
      exact ⟨promised.1.trans (Nat.lt_succ_self _), promised.2⟩

theorem Promised.request (promised : ∀ id, Promised p id) (method : String)
    (params : Option Json) (id : Nat) : Promised (request env p method params) id := by
  obtain ⟨unasked, free, nil⟩ := fate_fresh (promised p.nextId)
  unfold WsPeer.request
  dsimp only
  split
  next gone =>
    refine (promised id).asked rfl rfl rfl (fun apart => ⟨rfl, settle_of_ne apart _ _⟩) fun same => ?_
    subst same
    obtain ⟨why, shut⟩ := Option.isSome_iff_exists.mp gone
    rw [shut]
    exact ⟨unasked, settle_nil nil _⟩
  next opened =>
    have opened : p.closed = none := by simpa using opened
    have waits : ∀ id, Promised { p with
        nextId := p.nextId + 1
        sizes := p.sizes ++ [(utf8 (Json.stringify (requestMessage method p.nextId params))).length]
        log := p.log ++ [.asked p.nextId method p.closed.isNone]
        pending := Function.update p.pending p.nextId (some method) } id := fun id => by
      refine (promised id).asked rfl rfl rfl (fun apart => ⟨Function.update_of_ne apart _ _, rfl⟩) fun same => ?_
      subst same
      rw [opened]
      exact ⟨unasked, Function.update_self _ _ _, nil, rfl⟩
    split
    next sent wrote =>
      rw [(frame_eq wrote).1]
      exact waits id
    next =>
      refine (waits id).entry (.refused p.nextId) nofun rfl rfl (fun other how waiting by_ nil' => ?_)
        (fun other waiting by_ _ => ?_) (fun idle => ⟨idle, ?_⟩) (fun how was => settle_settled was _ _)
      · unfold settledBy at by_
        dsimp only at by_
        split at by_
        next same =>
          obtain rfl := Option.some_inj.mp by_
          subst same
          exact settle_nil nil' _
        next => cases by_
      · unfold settledBy at by_
        dsimp only at by_
        split at by_
        · cases by_
        next apart => exact ⟨waiting, settle_of_ne (Ne.symm apart) _ _, opened⟩
      · have apart : id ≠ p.nextId := fun same => by
          subst same
          cases (Function.update_self p.nextId (some method) p.pending).symm.trans idle
        exact settle_of_ne apart _ _

/-- **A message is handed on**: it settles the request whose id it bears. -/
theorem Promised.answered (promised : Promised p id) (message : Json) : Promised
    (match bears message with
      | some other =>
          if (p.pending other).isSome then
            { p with
              pending := Function.update p.pending other none
              settled := settle p.settled other (.answered message)
              log := p.log ++ [.handed message] }
          else { p with log := p.log ++ [.handed message] }
      | none => { p with log := p.log ++ [.handed message] }) id := by
  cases bearing : bears message with
  | none =>
    refine promised.entry (.handed message) nofun rfl rfl (fun method how _ by_ _ => ?_)
      (fun method waiting _ opened => ⟨waiting, rfl, opened⟩) (fun none => ⟨none, rfl⟩) (fun how was => was)
    rw [settledBy, bearing, if_neg nofun] at by_
    cases by_
  | some other =>
    dsimp only
    split
    next pending =>
      refine promised.entry (.handed message) nofun rfl rfl (fun method how _ by_ nil => ?_)
        (fun method waiting by_ opened => ?_) (fun none => ?_) (fun how was => settle_settled was _ _)
      · rw [settledBy, bearing] at by_
        split at by_
        next same =>
          obtain rfl := Option.some_inj.mp same
          obtain rfl := Option.some_inj.mp by_
          exact settle_nil nil _
        next => cases by_
      · rw [settledBy, bearing] at by_
        split at by_
        · cases by_
        next apart =>
          have apart : id ≠ other := fun same => apart (congrArg some same.symm)
          exact ⟨(Function.update_of_ne apart _ _).trans waiting, settle_of_ne apart _ _, opened⟩
      · have apart : id ≠ other := fun same => by
          rw [← same, none] at pending
          cases pending
        exact ⟨(Function.update_of_ne apart _ _).trans none, settle_of_ne apart _ _⟩
    next idle =>
      refine promised.entry (.handed message) nofun rfl rfl (fun method how waiting by_ _ => ?_)
        (fun method waiting _ opened => ⟨waiting, rfl, opened⟩) (fun none => ⟨none, rfl⟩) (fun how was => was)
      rw [settledBy, bearing] at by_
      split at by_
      next same =>
        rw [Option.some_inj.mp same, waiting] at idle
        exact absurd rfl idle
      next => cases by_

/-- A request is refused only for its length. -/
def Sized (p : Peer) : Prop := ∀ id, .refused id ∈ p.log → ∃ n ∈ p.sizes, MAX_FRAME < n

theorem Sized.mono (sized : Sized p) (sizes : p.sizes <+: q.sizes)
    (log : ∀ id, .refused id ∈ q.log → .refused id ∈ p.log ∨ ∃ n ∈ q.sizes, MAX_FRAME < n) : Sized q := by
  intro id refused
  rcases log id refused with before | large
  · obtain ⟨n, member, large⟩ := sized id before
    exact ⟨n, sizes.subset member, large⟩
  · exact large

end Promises

/-! ### What is asked of the peer -/

section Asks

variable {env : Env} {p q r : Peer}

/-- What a step that reads nothing changes: requests, frames that are no pongs, and the end. -/
structure Quiet (p q : Peer) : Prop where
  handed : q.handed = p.handed
  thrown : q.thrown = p.thrown
  pongs : q.pongs = p.pongs
  buffer : q.buffer = p.buffer
  received : q.received = p.received
  upgraded : q.upgraded = p.upgraded
  closed : q.closed = p.closed ∨ p.closed = none ∧ ∃ reason, q.closed = some (.left reason)
  sized : Sized p → Sized q
  promised : (∀ id, Promised p id) → ∀ id, Promised q id

theorem Quiet.refl (p : Peer) : Quiet p p := ⟨rfl, rfl, rfl, rfl, rfl, rfl, .inl rfl, id, id⟩

theorem Quiet.trans (first : Quiet p q) (second : Quiet q r) : Quiet p r where
  handed := second.handed.trans first.handed
  thrown := second.thrown.trans first.thrown
  pongs := second.pongs.trans first.pongs
  buffer := second.buffer.trans first.buffer
  received := second.received.trans first.received
  upgraded := second.upgraded.trans first.upgraded
  closed := by
    rcases second.closed with same | ⟨opened, left⟩
    · rw [same]
      exact first.closed
    · rcases first.closed with same | ⟨_, _, gone⟩
      · exact .inr ⟨same ▸ opened, left⟩
      · rw [opened] at gone
        cases gone
  sized := second.sized ∘ first.sized
  promised := second.promised ∘ first.promised

theorem handed_append {entry : Entry} (log : q.log = p.log ++ [entry]) :
    q.handed = p.handed ++ entry.message.toList := by
  unfold Peer.handed
  rw [log, List.filterMap_append]
  cases entry with
  | handed _ => rfl
  | _ => rfl

theorem close_of_open (opened : p.closed = none) (why : Ending) : close p why = { p with
    closed := some why
    settled := fun id => if (p.pending id).isSome then settle p.settled id (.closed why.reason) id else p.settled id
    pending := fun _ => none
    log := p.log ++ [.closes why.reason] } := by
  unfold close
  rw [if_neg (by rw [opened]; exact Bool.false_ne_true)]

theorem close_of_closed (gone : p.closed.isSome = true) (why : Ending) : close p why = p := if_pos gone

theorem Sized.close (sized : Sized p) (why : Ending) : Sized (close p why) := by
  unfold WsPeer.close
  split
  · exact sized
  · refine sized.mono (List.prefix_refl _) fun id member => .inl ?_
    simpa using member

theorem quiet_close (p : Peer) (reason : String) : Quiet p (close p (.left reason)) := by
  by_cases gone : p.closed.isSome = true
  · rw [close_of_closed gone]
    exact Quiet.refl p
  · have opened : p.closed = none := by simpa using gone
    have shut := close_of_open opened (.left reason)
    constructor
    case promised => exact fun promised id => (promised id).close _
    case sized => exact fun sized => sized.close _
    case handed =>
      rw [shut, handed_append rfl]
      exact List.append_nil _
    case closed => exact .inr ⟨opened, reason, by rw [shut]⟩
    all_goals rw [shut]
    rfl

theorem pongOf_maskedWire (key : Fin 4 → UInt8) {opcode : Nat} {body : List UInt8} (known : opcode < 16)
    (small : body.length ≤ MAX_FRAME) :
    pongOf (maskedWire key ⟨true, opcode, body⟩) = if opcode = 10 then some body else none := by
  have length : body.length < 2 ^ 63 := small.trans_lt (by decide)
  have read : decode (maskedWire key ⟨true, opcode, body⟩ ++ []) = some (⟨true, opcode, body⟩, true, []) :=
    decode_maskedWire key known length []
  rw [List.append_nil] at read
  rw [pongOf, read]
  rfl

/-- A frame that is no pong. -/
theorem quiet_frame {opcode : Nat} {body : List UInt8} (known : opcode < 16) (other : opcode ≠ 10) :
    Quiet p ((frame env p opcode body).getD p) := by
  cases wrote : frame env p opcode body with
  | none => exact Quiet.refl p
  | some sent =>
    obtain ⟨same, written⟩ := frame_eq wrote
    rw [Option.getD_some, same]
    refine ⟨rfl, rfl, ?_, rfl, rfl, rfl, .inl rfl, id, id⟩
    rcases written with ⟨-, kept⟩ | ⟨-, small, added⟩
    · unfold Peer.pongs
      rw [kept]
    · unfold Peer.pongs
      rw [added, List.filterMap_append, List.filterMap_cons, pongOf_maskedWire _ known small, if_neg other]
      exact List.append_nil _

theorem quiet_request (env : Env) (p : Peer) (method : String) (params : Option Json) :
    Quiet p (request env p method params) := by
  have promised : (∀ id, Promised p id) → ∀ id, Promised (request env p method params) id :=
    fun promised id => Promised.request promised method params id
  revert promised
  unfold request
  dsimp only
  split
  next =>
    intro promised
    refine ⟨?_, rfl, rfl, rfl, rfl, rfl, .inl rfl, ?_, promised⟩
    · rw [handed_append rfl]
      exact List.append_nil _
    · intro sized
      refine sized.mono (List.prefix_append _ _) fun id member => .inl ?_
      simpa using member
  next opened =>
    split
    next sent wrote =>
      intro promised
      obtain ⟨same, written⟩ := frame_eq wrote
      rw [same] at promised ⊢
      refine ⟨?_, rfl, ?_, rfl, rfl, rfl, .inl rfl, ?_, promised⟩
      · rw [handed_append rfl]
        exact List.append_nil _
      · rcases written with ⟨gone, -⟩ | ⟨-, small, added⟩
        · exact absurd gone opened
        · unfold Peer.pongs
          rw [added, List.filterMap_append, List.filterMap_cons, pongOf_maskedWire _ (by decide) small, if_neg (by decide)]
          exact List.append_nil _
      · intro sized
        refine sized.mono (List.prefix_append _ _) fun id member => .inl ?_
        simpa using member
    next threw =>
      intro promised
      refine ⟨?_, rfl, rfl, rfl, rfl, rfl, .inl rfl, ?_, promised⟩
      · rw [handed_append (p := { p with log := p.log ++ [.asked p.nextId method p.closed.isNone] }) rfl,
          handed_append (p := p) rfl]
        simp [Entry.message]
      · intro sized
        refine sized.mono (List.prefix_append _ _) fun id _ => .inr ?_
        exact ⟨_, List.mem_append_right _ (List.mem_singleton_self _), frame_eq_none threw⟩

theorem quiet_perform (env : Env) (p : Peer) (ask : Ask) : Quiet p (perform env p ask) := by
  cases ask with
  | request method params => exact quiet_request env p method params
  | notify method params => exact quiet_frame (by decide) (by decide)
  | respond id body => exact quiet_frame (by decide) (by decide)
  | stop => exact (quiet_frame (by decide) (by decide)).trans (quiet_close _ _)

theorem quiet_foldl (env : Env) (asks : List Ask) (p : Peer) : Quiet p (asks.foldl (perform env) p) := by
  induction asks generalizing p with
  | nil => exact Quiet.refl p
  | cons ask asks ih => exact (quiet_perform env p ask).trans (ih _)

end Asks

end Nvoy.Codex.WsPeer
