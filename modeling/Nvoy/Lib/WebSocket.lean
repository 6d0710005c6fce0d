/-
**Frames of a WebSocket stream**, after RFC 6455.

* `wire` — a frame that is not masked, under any of the three encodings of a length;
* `decode` — one frame off the front of a stream, masked or not, as the other end reads it: no reserved
  bit, and no length in more bytes than it needs;
* `Assembly.next` — what a reader of the frames has when one more came: messages in one frame or in
  several, with control frames between them, up to a close;
* `Sends` — the frames a server may send, no message longer than a bound;
* `within` — the frames that are whole in the first bytes of a stream.
-/

import Mathlib.Data.List.OfFn
import Mathlib.Data.Nat.Basic
import Mathlib.Tactic.NormNum
import Mathlib.Tactic.Ring

namespace Nvoy.WebSocket

/-! ### Numbers in big-endian bytes -/

def bigEndian : Nat → Nat → List UInt8
  | 0, _ => []
  | width + 1, n => UInt8.ofNat (n / 256 ^ width) :: bigEndian width n

def readBigEndian (bytes : List UInt8) : Nat := bytes.foldl (fun n b => n * 256 + b.toNat) 0

@[simp]
theorem length_bigEndian (width n : Nat) : (bigEndian width n).length = width := by
  induction width with
  | zero => rfl
  | succ width ih => rw [bigEndian, List.length_cons, ih]

theorem foldl_bigEndian (width n start : Nat) :
    (bigEndian width n).foldl (fun n b => n * 256 + b.toNat) start = start * 256 ^ width + n % 256 ^ width := by
  induction width generalizing start with
  | zero => simp [bigEndian, Nat.mod_one]
  | succ width ih =>
    have split : n % 256 ^ (width + 1) = n / 256 ^ width % 256 * 256 ^ width + n % 256 ^ width := by
      rw [pow_succ, Nat.mod_mul, Nat.add_comm, Nat.mul_comm (n / 256 ^ width % 256)]
    rw [bigEndian, List.foldl_cons, ih, split, UInt8.toNat_ofNat']
    ring

theorem readBigEndian_bigEndian {width n : Nat} (small : n < 256 ^ width) :
    readBigEndian (bigEndian width n) = n := by
  rw [readBigEndian, foldl_bigEndian, Nat.zero_mul, Nat.zero_add, Nat.mod_eq_of_lt small]

/-! ### One frame -/

structure Frame where
  fin : Bool
  opcode : Nat
  payload : List UInt8
  deriving DecidableEq, Repr

/-- The three encodings of a length: in the second byte, in two bytes after it, in eight. -/
inductive Form where
  | short
  | medium
  | long
  deriving DecidableEq, Repr

def Form.Fits : Form → Nat → Prop
  | .short, n => n < 126
  | .medium, n => n < 65536
  | .long, n => n < 2 ^ 63

instance (form : Form) (n : Nat) : Decidable (form.Fits n) := by
  cases form <;> exact inferInstanceAs (Decidable (_ < _))

/-- The second byte and what extends it. -/
def Form.bytes (masked : Bool) : Form → Nat → List UInt8
  | .short, n => [UInt8.ofNat ((if masked then 128 else 0) + n)]
  | .medium, n => UInt8.ofNat ((if masked then 128 else 0) + 126) :: bigEndian 2 n
  | .long, n => UInt8.ofNat ((if masked then 128 else 0) + 127) :: bigEndian 8 n

def Frame.first (frame : Frame) : UInt8 := UInt8.ofNat ((if frame.fin then 128 else 0) + frame.opcode)

/-- A frame as a server writes it. -/
def wire (form : Form) (frame : Frame) : List UInt8 :=
  frame.first :: (form.bytes false frame.payload.length ++ frame.payload)

/-- A payload under a masking key; the same again takes the mask off. -/
def mask (key : Fin 4 → UInt8) (payload : List UInt8) : List UInt8 :=
  payload.mapIdx fun i b => b ^^^ key (Fin.ofNat 4 i)

@[simp]
theorem length_mask (key : Fin 4 → UInt8) (payload : List UInt8) : (mask key payload).length = payload.length :=
  List.length_mapIdx

@[simp]
theorem mask_mask (key : Fin 4 → UInt8) (payload : List UInt8) : mask key (mask key payload) = payload := by
  unfold mask
  rw [List.mapIdx_mapIdx]
  apply List.ext_getElem
  · rw [List.length_mapIdx]
  · intro i _ _
    rw [List.getElem_mapIdx]
    dsimp only [Function.comp]
    rw [UInt8.xor_assoc, UInt8.xor_self, UInt8.xor_zero]

/-- A length in bytes of its own, which must need them. -/
def extended (width least above : Nat) (rest : List UInt8) : Option (Nat × List UInt8) :=
  if rest.length < width then none
  else if least ≤ readBigEndian (rest.take width) ∧ readBigEndian (rest.take width) < above then
    some (readBigEndian (rest.take width), rest.drop width)
  else none

/-- The length of a payload, and what follows it. -/
def decodeLength (initial : Nat) (rest : List UInt8) : Option (Nat × List UInt8) :=
  if initial < 126 then some (initial, rest)
  else if initial = 126 then extended 2 126 65536 rest
  else extended 8 65536 (2 ^ 63) rest

/-- The payload, and what follows it. -/
def decodePayload (masked : Bool) (n : Nat) (rest : List UInt8) : Option (List UInt8 × List UInt8) :=
  if masked then
    if rest.length < 4 + n then none
    else some (mask (fun i => rest.getD i 0) ((rest.drop 4).take n), rest.drop (4 + n))
  else if rest.length < n then none
  else some (rest.take n, rest.drop n)

/-- One frame off the front of a stream: with it, whether it was masked and what follows. -/
def decode : List UInt8 → Option (Frame × Bool × List UInt8)
  | first :: second :: rest =>
      -- no extension has given the reserved bits a meaning
      if first.toNat / 16 % 8 ≠ 0 then none
      else do
        let (n, rest) ← decodeLength (second.toNat % 128) rest
        let (payload, rest) ← decodePayload (decide (128 ≤ second.toNat)) n rest
        some (⟨decide (128 ≤ first.toNat), first.toNat % 16, payload⟩, decide (128 ≤ second.toNat), rest)
  | _ => none

/-- The encoding in the fewest bytes. -/
def Form.least (n : Nat) : Form := if n < 126 then .short else if n < 65536 then .medium else .long

/-- A frame as a client writes it. -/
def maskedWire (key : Fin 4 → UInt8) (frame : Frame) : List UInt8 :=
  frame.first :: ((Form.least frame.payload.length).bytes true frame.payload.length ++
    (List.ofFn key ++ mask key frame.payload))

theorem first_bits {frame : Frame} (small : frame.opcode < 16) :
    frame.first.toNat / 16 % 8 = 0 ∧ frame.first.toNat % 16 = frame.opcode ∧
      decide (128 ≤ frame.first.toNat) = frame.fin := by
  unfold Frame.first
  rw [UInt8.toNat_ofNat']
  cases frame.fin with
  | true =>
    simp only [if_true, decide_eq_true_eq]
    omega
  | false =>
    simp only [Bool.false_eq_true, if_false, decide_eq_false_iff_not]
    omega

theorem extended_bigEndian {width least above n : Nat} (rest : List UInt8) (least_le : least ≤ n) (below : n < above)
    (small : n < 256 ^ width) : extended width least above (bigEndian width n ++ rest) = some (n, rest) := by
  have long : ¬(bigEndian width n ++ rest).length < width := by
    rw [List.length_append, length_bigEndian]
    omega
  unfold extended
  rw [if_neg long, List.take_left' (length_bigEndian width n), List.drop_left' (length_bigEndian width n),
    readBigEndian_bigEndian small, if_pos ⟨least_le, below⟩]

/-- **A length in its least encoding is read back.** -/
theorem decodeLength_least {n : Nat} (small : n < 2 ^ 63) (rest : List UInt8) : ∃ second more,
    (Form.least n).bytes true n ++ rest = second :: more ∧ 128 ≤ second.toNat ∧
      decodeLength (second.toNat % 128) more = some (n, rest) := by
  unfold Form.least
  by_cases short : n < 126
  · rw [if_pos short]
    have byte : (UInt8.ofNat (128 + n)).toNat = 128 + n := by
      rw [UInt8.toNat_ofNat']
      omega
    refine ⟨UInt8.ofNat (128 + n), rest, rfl, by omega, ?_⟩
    have initial : (UInt8.ofNat (128 + n)).toNat % 128 = n := by omega
    unfold decodeLength
    rw [initial, if_pos short]
  rw [if_neg short]
  by_cases medium : n < 65536
  · rw [if_pos medium]
    refine ⟨254, bigEndian 2 n ++ rest, rfl, by decide, ?_⟩
    have least : 126 ≤ n := by omega
    have initial : (254 : UInt8).toNat % 128 = 126 := by decide
    rw [decodeLength, initial, if_neg (by decide), if_pos rfl]
    exact extended_bigEndian rest least medium medium
  · rw [if_neg medium]
    refine ⟨255, bigEndian 8 n ++ rest, rfl, by decide, ?_⟩
    have least : 65536 ≤ n := by omega
    have initial : (255 : UInt8).toNat % 128 = 127 := by decide
    rw [decodeLength, initial, if_neg (by decide), if_neg (by decide)]
    exact extended_bigEndian rest least small (small.trans (by decide))

/-- **What a client writes is read back**, with its mask taken off. -/
theorem decode_maskedWire (key : Fin 4 → UInt8) {frame : Frame} (known : frame.opcode < 16)
    (small : frame.payload.length < 2 ^ 63) (rest : List UInt8) :
    decode (maskedWire key frame ++ rest) = some (frame, true, rest) := by
  obtain ⟨reserved, opcode, fin⟩ := first_bits known
  obtain ⟨second, more, bytes, masked, length⟩ :=
    decodeLength_least small (List.ofFn key ++ (mask key frame.payload ++ rest))
  have keyed : (fun i : Fin 4 => (List.ofFn key ++ (mask key frame.payload ++ rest)).getD i 0) = key := by
    funext i
    have inside : i.val < (List.ofFn key).length := by
      rw [List.length_ofFn]
      exact i.isLt
    rw [List.getD_eq_getElem?_getD, List.getElem?_append_left inside, List.getElem?_eq_getElem inside,
      List.getElem_ofFn, Option.getD_some]
  have long : ¬(List.ofFn key ++ (mask key frame.payload ++ rest)).length < 4 + frame.payload.length := by
    rw [List.length_append, List.length_append, List.length_ofFn, length_mask]
    omega
  have payload : decodePayload true frame.payload.length (List.ofFn key ++ (mask key frame.payload ++ rest)) =
      some (frame.payload, rest) := by
    unfold decodePayload
    rw [if_pos rfl, keyed, if_neg long, ← List.drop_drop, List.drop_left' List.length_ofFn,
      List.take_left' (length_mask key _), List.drop_left' (length_mask key _), mask_mask]
  have wire : maskedWire key frame ++ rest = frame.first :: second :: more := by
    rw [← bytes]
    simp only [maskedWire, List.cons_append, List.append_assoc]
  rw [wire]
  unfold decode
  dsimp only
  rw [if_neg (by omega), length, Option.bind_eq_bind, Option.bind_some]
  dsimp only
  rw [decide_eq_true masked, payload, Option.bind_eq_bind, Option.bind_some]
  dsimp only
  rw [opcode, fin]

/-! ### The frames of a stream -/

/-- What a reader of frames has. -/
structure Assembly where
  /-- The message that is not whole yet. -/
  part : Option (List UInt8) := none
  messages : List (List UInt8) := []
  pings : List (List UInt8) := []
  closed : Bool := false

/-- One more frame. -/
def Assembly.next (read : Assembly) (frame : Frame) : Assembly :=
  if read.closed then read
  else match frame.opcode with
  | 0 =>
      let whole := read.part.getD [] ++ frame.payload
      if frame.fin then { read with part := none, messages := read.messages ++ [whole] }
      else { read with part := some whole }
  | 1 =>
      if frame.fin then { read with messages := read.messages ++ [frame.payload] }
      else { read with part := some frame.payload }
  | 8 => { read with closed := true }
  | 9 => { read with pings := read.pings ++ [frame.payload] }
  | _ => read

def assemble (frames : List Frame) : Assembly := frames.foldl Assembly.next {}

/-- **What a server may send**: texts, whole or in parts, none longer than a bound, with control frames
between any two frames, and nothing after a close. -/
def Sends (bound : Nat) : Option Nat → List Frame → Prop
  | _, [] => True
  | part, frame :: rest =>
      match frame.opcode with
      | 0 => ∃ n, part = some n ∧ n + frame.payload.length ≤ bound ∧
          Sends bound (if frame.fin then none else some (n + frame.payload.length)) rest
      | 1 => part = none ∧ frame.payload.length ≤ bound ∧
          Sends bound (if frame.fin then none else some frame.payload.length) rest
      | 8 => frame.fin = true ∧ frame.payload.length ≤ 125 ∧ rest = []
      | 9 => frame.fin = true ∧ frame.payload.length ≤ 125 ∧ Sends bound part rest
      | 10 => frame.fin = true ∧ frame.payload.length ≤ 125 ∧ Sends bound part rest
      | _ => False

/-- The bytes of frames, each under its encoding. -/
def stream (frames : List (Form × Frame)) : List UInt8 := frames.flatMap fun one => wire one.1 one.2

/-- The frames that are whole in the first bytes of their stream. -/
def within : List (Form × Frame) → Nat → List Frame
  | [], _ => []
  | (form, frame) :: rest, n =>
      if (wire form frame).length ≤ n then frame :: within rest (n - (wire form frame).length) else []

section Stream

variable {form : Form} {frame : Frame} {done rest : List (Form × Frame)} {bytes torn : List UInt8}

theorem stream_cons (form : Form) (frame : Frame) (rest : List (Form × Frame)) :
    stream ((form, frame) :: rest) = wire form frame ++ stream rest := rfl

theorem stream_append (done rest : List (Form × Frame)) : stream (done ++ rest) = stream done ++ stream rest :=
  List.flatMap_append

/-- Bytes that begin a stream and hold none of its frames whole. -/
def Torn (torn : List UInt8) (rest : List (Form × Frame)) : Prop :=
  torn <+: stream rest ∧ ∀ one ∈ rest.head?, torn.length < (wire one.1 one.2).length

theorem torn_nil (rest : List (Form × Frame)) : Torn [] rest :=
  ⟨List.nil_prefix, fun _ _ => Nat.succ_pos _⟩

/-- **The front of a stream** is frames and a torn one. -/
theorem exists_torn (front : bytes <+: stream rest) : ∃ done more torn,
    rest = done ++ more ∧ bytes = stream done ++ torn ∧ Torn torn more := by
  induction rest generalizing bytes with
  | nil =>
    have empty : bytes = [] := List.prefix_nil.mp front
    exact ⟨[], [], [], rfl, empty, torn_nil []⟩
  | cons one rest ih =>
    by_cases whole : (wire one.1 one.2).length ≤ bytes.length
    · obtain ⟨later, rfl⟩ := List.prefix_of_prefix_length_le
        (List.prefix_append (wire one.1 one.2) (stream rest)) front whole
      obtain ⟨done, more, torn, rfl, rfl, short⟩ := ih ((List.prefix_append_right_inj _).mp front)
      exact ⟨one :: done, more, torn, rfl, (List.append_assoc _ _ _).symm, short⟩
    · refine ⟨[], one :: rest, bytes, rfl, rfl, front, fun other same => ?_⟩
      obtain rfl := Option.some_inj.mp same
      exact Nat.lt_of_not_le whole

theorem within_append (short : ∀ one ∈ rest.head?, torn.length < (wire one.1 one.2).length) :
    within (done ++ rest) ((stream done).length + torn.length) = done.map Prod.snd := by
  induction done with
  | nil =>
    cases rest with
    | nil => rfl
    | cons one rest =>
      have long : ¬(wire one.1 one.2).length ≤ torn.length := Nat.not_le.mpr (short one rfl)
      rw [List.nil_append, List.map_nil, show (stream []).length = 0 from rfl, Nat.zero_add]
      exact if_neg long
  | cons one done ih =>
    have length : (stream (one :: done)).length + torn.length =
        (wire one.1 one.2).length + ((stream done).length + torn.length) := by
      rw [stream_cons, List.length_append, Nat.add_assoc]
    rw [length]
    have whole : (wire one.1 one.2).length ≤ (wire one.1 one.2).length + ((stream done).length + torn.length) :=
      Nat.le_add_right _ _
    have left : within (done ++ rest) ((wire one.1 one.2).length + ((stream done).length + torn.length) -
        (wire one.1 one.2).length) = done.map Prod.snd := by rw [Nat.add_sub_cancel_left, ih]
    exact (if_pos whole).trans (congrArg (one.2 :: ·) left)

end Stream

end Nvoy.WebSocket
