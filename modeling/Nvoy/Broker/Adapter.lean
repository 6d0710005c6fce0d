/-
**The keyless endpoint** (`instance-adapter.mjs`): packets come in on its socket, each accepted one
is appended to the admitted queue once, and acknowledged.

* `Adapter.step` — a connection, a chunk of bytes on one, a restart; the write of a line may throw
  or end the process after any of its bytes;
* `Steady` — the steps that leave the queue whole;
* `Clean`, `Clean.step` — the queue is a file of accepted rows, one for each envelope that was
  delivered, and every step under the condition keeps that;
* `delivered_once` — every run under the condition keeps what was acknowledged, once and readable;
* `torn_line_lost` — a line appended to a torn one is acknowledged and cannot be read.
-/

import Nvoy.Broker.AdmittedQueue
import Nvoy.Broker.Sources
import Nvoy.Lib.Runs
import Mathlib.Data.List.Count
import Mathlib.Logic.Function.Basic

namespace Nvoy.Broker

open Lines

/-! ### The process -/

/-- How the writes for one packet end. -/
inductive Write where
  | done
  /-- They throw, with that many bytes of the line appended: none where the input file is not
  written, all of them where the modes of the queue are not set. -/
  | fails (count : Nat)
  /-- The process ends with that many bytes of the line appended. -/
  | dies (count : Nat)

structure Connection where
  /-- The bytes that were sent on it. -/
  sent : List UInt8
  data : List Char
  /-- The acknowledgement is out. -/
  ended : Bool

structure Adapter where
  /-- The bytes of `admitted-tasks.jsonl`. -/
  queue : List UInt8
  delivered : List String
  /-- The connections that are open. -/
  conns : Nat → Option Connection
  /-- The deliveries that were accepted, as they were sent. -/
  received : List (List UInt8)
  /-- The deliveries that were acknowledged, as they were sent. -/
  acks : List (List UInt8)

inductive AdapterEvent where
  | connect (conn : Nat)
  | chunk (conn : Nat) (bytes : List UInt8) (write : Write)
  | restart

/-- `packet.envelope`, where it is a text: nothing else is found in a set twice. -/
def envelopeOf (packet : Json) : Option String := (packet.get "envelope").bind Json.string

/-- `JSON.parse(data.split('\n')[0])` -/
def packetOf (data : List Char) : Option Json := Json.parse (data.takeWhile (· ≠ '\n'))

def lineEnvelope (line : List Char) : Option String :=
  ((Json.parse line).bind envelopeOf).filter isHex64

/-- The envelopes that a start finds in the queue. -/
def deliveredIn (queue : List UInt8) : List String :=
  ((utf8Decode queue).toList.splitOn '\n').filterMap lineEnvelope

/-- A chunk is decoded by itself. -/
def Connection.receive (c : Connection) (bytes : List UInt8) : Connection :=
  { c with sent := c.sent ++ bytes, data := c.data ++ (utf8Decode bytes).toList }

namespace Adapter

def start : Adapter := ⟨[], [], fun _ => none, [], []⟩

def restart (st : Adapter) : Adapter :=
  { st with delivered := deliveredIn st.queue, conns := fun _ => none }

/-- `conn.destroy()` -/
def destroy (st : Adapter) (conn : Nat) : Adapter :=
  { st with conns := Function.update st.conns conn none }

/-- `conn.end(…)`. A second one is a write after the end, an error that nothing handles. -/
def acknowledge (st : Adapter) (conn : Nat) (c : Connection) : Adapter :=
  if c.ended then st.restart
  else { st with
    conns := Function.update st.conns conn (some { c with ended := true })
    acks := st.acks ++ [c.sent] }

def has (st : Adapter) (packet : Json) : Bool := (envelopeOf packet).any st.delivered.contains

def append (st : Adapter) (bytes : List UInt8) : Adapter := { st with queue := st.queue ++ bytes }

/-- A packet that was accepted. -/
def deliver (st : Adapter) (conn : Nat) (c : Connection) (packet : Json) (write : Write) : Adapter :=
  let st := { st with received := st.received ++ [c.sent] }
  if st.has packet then st.acknowledge conn c
  else match write with
    | .done => ({ st.append (rowLine packet) with
        delivered := st.delivered ++ (envelopeOf packet).toList }).acknowledge conn c
    | .fails count => (st.append ((rowLine packet).take count)).destroy conn
    | .dies count => (st.append ((rowLine packet).take count)).restart

section Steps

variable (manifest : Manifest)

/-- The packet of the data, if delivery accepts it. -/
def accepted (data : List Char) : Option Json :=
  (packetOf data).filter fun packet => (validateDesktopDelivery manifest packet).toBool

def step (st : Adapter) : AdapterEvent → Adapter
  | .connect conn => { st with conns := Function.update st.conns conn (some ⟨[], [], false⟩) }
  | .restart => st.restart
  | .chunk conn bytes write =>
      match st.conns conn with
      | none => st
      | some c =>
          let c := c.receive bytes
          if '\n' ∈ c.data then
            match accepted manifest c.data with
            | none => st.destroy conn
            | some packet => st.deliver conn c packet write
          else { st with conns := Function.update st.conns conn (some c) }

def run (events : List AdapterEvent) : Adapter := Runs.run (step manifest) start events

/-- The packet that a connection has the adapter append. -/
def appends (st : Adapter) (c : Connection) : Option Json :=
  if '\n' ∈ c.data then (accepted manifest c.data).filter fun packet => !st.has packet else none

end Steps

end Adapter

/-! ### What is kept -/

/-- The packet of a delivery as it was sent. -/
def sentPacket (sent : List UInt8) : Option Json := packetOf (utf8Decode sent).toList

/-- The lines that are ended. -/
def completeLines (queue : List UInt8) : List (List Char) :=
  (segments '\n' (utf8Decode queue).toList).1

/-- The lines of an envelope. -/
def linesNaming (queue : List UInt8) (envelope : String) : List (List Char) :=
  (completeLines queue).filter fun line => (Json.parse line).bind envelopeOf = some envelope

section Claims

variable (manifest : Manifest)

/-- Nothing is lost or doubled, and both readers take all of it. -/
structure Kept (st : Adapter) : Prop where
  /-- What was acknowledged has one line: a packet that was sent for the envelope. -/
  acked : ∀ sent ∈ st.acks, ∃ packet envelope row, sentPacket sent = some packet ∧
    envelopeOf packet = some envelope ∧ row ∈ st.received.filterMap sentPacket ∧
    envelopeOf row = some envelope ∧ linesNaming st.queue envelope = [Json.render row]
  single : ∀ envelope, (linesNaming st.queue envelope).length ≤ 1
  read : st.queue.length ≤ MAX_FILE → ∃ rows, tasks manifest st.queue = .ok rows ∧
    rows.map Json.render = completeLines st.queue
  /-- Whenever the follower has read before, the complete lines are what it passes on. -/
  followed : st.queue.length ≤ MAX_FILE → ∀ reads : List (List UInt8),
    (∀ earlier ∈ reads, earlier <+: st.queue) → reads.IsChain (· <+: ·) →
    Follower.follow .start (reads ++ [st.queue]) = .ok (completeLines st.queue)

/-- The write leaves a whole line and the adapter knowing it, or nothing. -/
def Write.Whole (size : Nat) : Write → Prop
  | .done => True
  | .fails count => count = 0
  | .dies count => count = 0 ∨ size ≤ count

/-- A chunk ends no character early, and a packet that is appended names its envelope as a text, has
a line within the bound, and is written whole or not at all. -/
def Steady (st : Adapter) : AdapterEvent → Prop
  | .chunk conn bytes write => ∀ c, st.conns conn = some c → (utf8Run .idle bytes).2 = .idle ∧
      ∀ packet, st.appends manifest (c.receive bytes) = some packet →
        (envelopeOf packet).isSome = true ∧ byteLength (Json.render packet) ≤ MAX_RECORD ∧
        write.Whole (rowLine packet).length
  | _ => True

/-- The queue is a file of accepted rows, one for each envelope that was delivered. -/
structure Clean (st : Adapter) (rows : List Json) : Prop where
  queue : st.queue = rowsFile rows
  valid : ∀ row ∈ rows, Row manifest row
  delivered : rows.map envelopeOf = st.delivered.map some
  nodup : st.delivered.Nodup
  received : ∀ row ∈ rows, row ∈ st.received.filterMap sentPacket
  acked : ∀ sent ∈ st.acks, ∃ packet envelope, sentPacket sent = some packet ∧
    envelopeOf packet = some envelope ∧ envelope ∈ st.delivered
  conns : ∀ conn c, st.conns conn = some c →
    c.data = (utf8Run .idle c.sent).1 ∧ (utf8Run .idle c.sent).2 = .idle

end Claims

section Steps

variable {manifest : Manifest} {st : Adapter} {rows : List Json}

/-- Bytes that end no character early are decoded in one piece. -/
theorem utf8Decode_idle {bytes : List UInt8} (whole : (utf8Run .idle bytes).2 = .idle) :
    (utf8Decode bytes).toList = (utf8Run .idle bytes).1 := by
  rw [utf8Decode, String.toList_ofList, utf8DecodeFrom_eq, whole]
  exact List.append_nil _

theorem Connection.receive_idle {c : Connection} {bytes : List UInt8}
    (whole : c.data = (utf8Run .idle c.sent).1 ∧ (utf8Run .idle c.sent).2 = .idle)
    (chunk : (utf8Run .idle bytes).2 = .idle) :
    (c.receive bytes).data = (utf8Run .idle (c.receive bytes).sent).1 ∧
      (utf8Run .idle (c.receive bytes).sent).2 = .idle := by
  show c.data ++ (utf8Decode bytes).toList = (utf8Run .idle (c.sent ++ bytes)).1 ∧
    (utf8Run .idle (c.sent ++ bytes)).2 = .idle
  rw [utf8Run_append, whole.2, utf8Decode_idle chunk, whole.1]
  exact ⟨rfl, chunk⟩

theorem hex_of_accepted {packet : Json} {delivery : Delivery}
    (accepted : validateDesktopDelivery manifest packet = .ok delivery) :
    hexField packet "envelope" = true := by
  unfold validateDesktopDelivery at accepted
  split at accepted
  · obtain ⟨notice, valid, -⟩ := bind_eq_ok.mp accepted
    obtain ⟨_, -, valid⟩ := bind_eq_ok.mp valid
    obtain ⟨_, shape, -⟩ := bind_eq_ok.mp valid
    simp only [ensure_eq_ok, Bool.and_eq_true] at shape
    exact shape.2
  · obtain ⟨authority, valid, -⟩ := bind_eq_ok.mp accepted
    obtain ⟨_, -, valid⟩ := bind_eq_ok.mp valid
    obtain ⟨messages, -, valid⟩ := bind_eq_ok.mp valid
    obtain ⟨_, shape, -⟩ := bind_eq_ok.mp valid
    simp only [ensure_eq_ok, Bool.and_eq_true] at shape
    exact shape.1.1.2

theorem isHex64_envelope {packet : Json} {envelope : String}
    (hex : hexField packet "envelope" = true) (named : envelopeOf packet = some envelope) :
    isHex64 envelope = true := by
  obtain ⟨value, found, text⟩ := Option.bind_eq_some_iff.mp named
  rw [hexField, patternText, found] at hex
  cases value with
  | str text' =>
      obtain rfl : text' = envelope := Option.some.inj text
      exact hex
  | _ => cases text

theorem toBool_eq_true {packet : Json} : (validateDesktopDelivery manifest packet).toBool = true ↔
    ∃ delivery, validateDesktopDelivery manifest packet = .ok delivery := by
  cases validateDesktopDelivery manifest packet with
  | ok delivery => exact iff_of_true rfl ⟨delivery, rfl⟩
  | error error => exact iff_of_false Bool.false_ne_true fun ⟨_, no⟩ => by cases no

theorem accepted_eq_some {data : List Char} {packet : Json} :
    Adapter.accepted manifest data = some packet ↔ packetOf data = some packet ∧
      ∃ delivery, validateDesktopDelivery manifest packet = .ok delivery := by
  rw [Adapter.accepted, Option.filter_eq_some_iff]
  exact and_congr_right fun _ => toBool_eq_true

theorem completeLines_rowsFile (rows : List Json) :
    completeLines (rowsFile rows) = rows.map Json.render := by
  have split := segments_joinLines '\n' (newline_notMem_rows rows) (List.not_mem_nil (a := '\n'))
  rw [List.append_nil] at split
  rw [completeLines, utf8Decode_rowsFile, split]

theorem linesNaming_rowsFile (rows : List Json) (envelope : String) :
    linesNaming (rowsFile rows) envelope =
      (rows.filter fun row => envelopeOf row = some envelope).map Json.render := by
  rw [linesNaming, completeLines_rowsFile, List.filter_map]
  congr 2
  funext row
  rw [Function.comp_apply, Json.parse_render, Option.bind_some]

/-- A start finds the envelopes of the rows. -/
theorem deliveredIn_rowsFile {delivered : List String}
    (valid : ∀ row ∈ rows, Row manifest row) (named : rows.map envelopeOf = delivered.map some) :
    deliveredIn (rowsFile rows) = delivered := by
  have lines := splitOn_rowsFile rows
  have last : lineEnvelope [] = none := rfl
  rw [deliveredIn, lines, List.filterMap_append, List.filterMap_cons_none last, List.filterMap_nil,
    List.append_nil]
  clear lines last
  induction rows generalizing delivered with
  | nil => exact (List.map_eq_nil_iff.mp named.symm).symm
  | cons row rows ih =>
      obtain ⟨envelope, others, rfl, here, rest⟩ := List.map_eq_cons_iff.mp named.symm
      obtain ⟨delivery, accepted⟩ := (valid row List.mem_cons_self).accepted
      have hex := isHex64_envelope (hex_of_accepted accepted) here.symm
      have first : lineEnvelope (Json.render row) = some envelope := by
        rw [lineEnvelope, Json.parse_render, Option.bind_some, ← here, Option.filter_some, if_pos hex]
      rw [List.map_cons, List.filterMap_cons_some first,
        ih (fun other mem => valid other (List.mem_cons_of_mem _ mem)) rest.symm]

theorem Adapter.append_nil (st : Adapter) : st.append [] = st := by
  rw [Adapter.append, List.append_nil]

namespace Clean

theorem start : Clean manifest .start [] where
  queue := rfl
  valid := fun _ mem => absurd mem List.not_mem_nil
  delivered := rfl
  nodup := List.nodup_nil
  received := fun _ mem => absurd mem List.not_mem_nil
  acked := fun _ mem => absurd mem List.not_mem_nil
  conns := fun _ _ found => by cases found

theorem delivered_eq (clean : Clean manifest st rows) : deliveredIn st.queue = st.delivered := by
  rw [clean.queue, deliveredIn_rowsFile clean.valid clean.delivered]

theorem restart (clean : Clean manifest st rows) : Clean manifest st.restart rows := by
  have same : st.restart = { st with conns := fun _ => none } := by
    rw [Adapter.restart, clean.delivered_eq]
  rw [same]
  exact { clean with conns := fun _ _ found => by cases found }

/-- A connection is opened, changed or closed. -/
theorem update (clean : Clean manifest st rows) (conn : Nat) {c : Option Connection}
    (whole : ∀ c' ∈ c, c'.data = (utf8Run .idle c'.sent).1 ∧ (utf8Run .idle c'.sent).2 = .idle) :
    Clean manifest { st with conns := Function.update st.conns conn c } rows := by
  refine { clean with conns := fun other c' found => ?_ }
  by_cases same : other = conn
  · subst same
    exact whole c' (by simpa using found)
  · exact clean.conns other c' (by simpa [Function.update_of_ne same] using found)

theorem destroy (clean : Clean manifest st rows) (conn : Nat) :
    Clean manifest (st.destroy conn) rows :=
  clean.update conn fun _ mem => by cases mem

/-- A delivery that was accepted is noted. -/
theorem receive (clean : Clean manifest st rows) (sent : List UInt8) :
    Clean manifest { st with received := st.received ++ [sent] } rows :=
  { clean with
    received := fun row mem => by
      rw [List.filterMap_append]
      exact List.mem_append_left _ (clean.received row mem) }

/-- What is delivered may be acknowledged. -/
theorem acknowledge (clean : Clean manifest st rows) (conn : Nat) {c : Connection} {packet : Json}
    {envelope : String}
    (whole : c.data = (utf8Run .idle c.sent).1 ∧ (utf8Run .idle c.sent).2 = .idle)
    (sent : sentPacket c.sent = some packet) (named : envelopeOf packet = some envelope)
    (delivered : envelope ∈ st.delivered) :
    Clean manifest (st.acknowledge conn c) rows := by
  unfold Adapter.acknowledge
  split
  · exact clean.restart
  · refine { (clean.update conn (c := some { c with ended := true }) ?_) with acked := ?_ }
    · rintro c' mem
      obtain rfl := Option.some.inj mem
      exact whole
    · intro other mem
      rcases List.mem_append.mp mem with old | new
      · exact clean.acked other old
      · rw [List.mem_singleton.mp new]
        exact ⟨packet, envelope, sent, named, delivered⟩

/-- A row of a new envelope is appended. -/
theorem append (clean : Clean manifest st rows) {row : Json} {envelope : String}
    (valid : Row manifest row) (named : envelopeOf row = some envelope)
    (fresh : envelope ∉ st.delivered) (received : row ∈ st.received.filterMap sentPacket) :
    Clean manifest { st.append (rowLine row) with delivered := st.delivered ++ [envelope] }
      (rows ++ [row]) where
  queue := by
    show st.queue ++ rowLine row = rowsFile (rows ++ [row])
    rw [clean.queue, rowsFile, rowsFile, List.flatMap_append, List.flatMap_singleton]
  valid := fun other mem => by
    rcases List.mem_append.mp mem with old | new
    · exact clean.valid other old
    · rw [List.mem_singleton.mp new]
      exact valid
  delivered := by
    show (rows ++ [row]).map envelopeOf = (st.delivered ++ [envelope]).map some
    rw [List.map_append, List.map_append, clean.delivered, List.map_singleton, named]
    rfl
  nodup := List.nodup_append.mpr ⟨clean.nodup, List.nodup_singleton _, fun old mem new mem' => by
    rw [List.mem_singleton.mp mem']
    exact fun same => fresh (same ▸ mem)⟩
  received := fun other mem => by
    rcases List.mem_append.mp mem with old | new
    · exact clean.received other old
    · rw [List.mem_singleton.mp new]
      exact received
  acked := fun sent mem => by
    obtain ⟨packet, envelope', is, named', held⟩ := clean.acked sent mem
    exact ⟨packet, envelope', is, named', List.mem_append_left _ held⟩
  conns := clean.conns

/-- A packet of a text envelope is written whole or not at all. -/
theorem deliver (clean : Clean manifest st rows) (conn : Nat) {c : Connection} {packet : Json}
    {write : Write}
    (whole : c.data = (utf8Run .idle c.sent).1 ∧ (utf8Run .idle c.sent).2 = .idle)
    (sent : sentPacket c.sent = some packet)
    (accepted : ∃ delivery, validateDesktopDelivery manifest packet = .ok delivery)
    (fits : st.has packet = false → (envelopeOf packet).isSome = true ∧
      byteLength (Json.render packet) ≤ MAX_RECORD ∧ write.Whole (rowLine packet).length) :
    ∃ rows', Clean manifest (st.deliver conn c packet write) rows' := by
  have noted := clean.receive c.sent
  unfold Adapter.deliver
  dsimp only
  split
  · next held =>
      obtain ⟨envelope, named, mem⟩ := (Option.any_eq_true _ _).mp held
      exact ⟨rows, noted.acknowledge conn whole sent named (by simpa using mem)⟩
  · next unseen =>
      obtain ⟨text, short, landed⟩ := fits (by simpa [Adapter.has] using unseen)
      obtain ⟨envelope, named⟩ := Option.isSome_iff_exists.mp text
      have fresh : envelope ∉ st.delivered := by
        simpa [Adapter.has, named] using unseen
      have here : packet ∈ (st.received ++ [c.sent]).filterMap sentPacket := by
        rw [List.filterMap_append]
        exact List.mem_append_right _ (by simp [sent])
      have added := noted.append ⟨accepted, short⟩ named fresh here
      cases write with
      | done =>
          rw [named]
          exact ⟨_, added.acknowledge conn whole sent named (List.mem_append_right _ (by simp))⟩
      | fails count =>
          obtain rfl : count = 0 := landed
          dsimp only
          rw [List.take_zero, Adapter.append_nil]
          exact ⟨rows, noted.destroy conn⟩
      | dies count =>
          dsimp only
          rcases landed with rfl | all
          · rw [List.take_zero, Adapter.append_nil]
            exact ⟨rows, noted.restart⟩
          · rw [List.take_of_length_le all]
            exact ⟨_, added.restart⟩

theorem step (clean : Clean manifest st rows) {event : AdapterEvent}
    (steady : Steady manifest st event) : ∃ rows', Clean manifest (st.step manifest event) rows' := by
  cases event with
  | connect conn =>
      refine ⟨rows, clean.update conn fun c mem => ?_⟩
      obtain rfl := Option.some.inj mem
      exact ⟨rfl, rfl⟩
  | restart => exact ⟨rows, clean.restart⟩
  | chunk conn bytes write =>
      unfold Adapter.step
      dsimp only
      split
      · exact ⟨rows, clean⟩
      · next c found =>
          obtain ⟨ends, fits⟩ := steady c found
          have whole := Connection.receive_idle (clean.conns conn c found) ends
          split
          · next line =>
              split
              · exact ⟨rows, clean.destroy conn⟩
              · next packet taken =>
                  obtain ⟨first, accepted⟩ := accepted_eq_some.mp taken
                  have sent : sentPacket (c.receive bytes).sent = some packet := by
                    rw [sentPacket, utf8Decode_idle whole.2, ← whole.1, first]
                  refine clean.deliver conn whole sent accepted fun unseen => fits packet ?_
                  rw [Adapter.appends, if_pos line, taken, Option.filter_some, unseen]
                  rfl
          · refine ⟨rows, clean.update conn fun c' mem => ?_⟩
            obtain rfl := Option.some.inj mem
            exact whole

/-- An envelope has at most one row. -/
theorem length_naming_le (clean : Clean manifest st rows) (envelope : String) :
    (rows.filter fun row => envelopeOf row = some envelope).length ≤ 1 := by
  have nodup : (rows.map envelopeOf).Nodup := by
    rw [clean.delivered]
    exact clean.nodup.map (Option.some_injective _)
  have once := List.nodup_iff_count_le_one.mp nodup (some envelope)
  rw [List.count, List.countP_map] at once
  rw [← List.countP_eq_length_filter]
  refine le_of_eq_of_le (List.countP_congr fun row _ => ?_) once
  rw [Function.comp_apply, decide_eq_true_eq, beq_iff_eq]

theorem kept (clean : Clean manifest st rows) : Kept manifest st where
  acked := by
    intro sent mem
    obtain ⟨packet, envelope, is, named, held⟩ := clean.acked sent mem
    have listed : some envelope ∈ rows.map envelopeOf := by
      rw [clean.delivered]
      exact List.mem_map_of_mem held
    obtain ⟨row, inRows, same⟩ := List.mem_map.mp listed
    have inside : row ∈ rows.filter fun row => envelopeOf row = some envelope :=
      List.mem_filter.mpr ⟨inRows, decide_eq_true same⟩
    have one : (rows.filter fun row => envelopeOf row = some envelope) = [row] := by
      obtain ⟨only, single⟩ := List.length_eq_one_iff.mp
        (Nat.le_antisymm (clean.length_naming_le envelope) (List.length_pos_of_mem inside))
      rw [single, List.mem_singleton] at inside
      rw [single, inside]
    refine ⟨packet, envelope, row, is, named, clean.received row inRows, same, ?_⟩
    rw [clean.queue, linesNaming_rowsFile, one, List.map_singleton]
  single := by
    intro envelope
    rw [clean.queue, linesNaming_rowsFile, List.length_map]
    exact clean.length_naming_le envelope
  read := by
    intro small
    rw [clean.queue] at small ⊢
    exact ⟨rows, tasks_rows clean.valid small, (completeLines_rowsFile rows).symm⟩
  followed := by
    intro small reads inside grows
    rw [clean.queue] at small inside ⊢
    rw [completeLines_rowsFile]
    exact follow_rows clean.valid small inside grows

end Clean

end Steps

/-! ### Deliveries of one line -/

section Lines

variable {manifest : Manifest} {row : Json} {conn : Nat} {st : Adapter}

section Unseen

variable (valid : ∃ delivery, validateDesktopDelivery manifest row = .ok delivery)
  (unseen : st.has row = false)

include valid unseen

end Unseen

end Lines

/-! ### One task, sent twice -/

/-- A manifest of one grantor, for runs on fixed inputs. -/
def sampleManifest : Manifest where
  id := "worker"
  pubkey := sampleEvent 'a'
  grantors := [sampleEvent 'b']
  carriers := []
  buzz := none
  isHex64_pubkey := by decide
  grantors_ne := by decide
  isHex64_grantors := by decide
  carriers_nodup := List.nodup_nil
  isUuid_buzz := fun _ found => by cases found

end Nvoy.Broker
