/-
**The replay boundary of the signed sources** (`channel_source_dedup.mjs`).

The broker claims a signed source for one envelope before it makes a receipt. The claims are an
append-only index; a call reads all of it, and the last row of a source counts.

* `claimChannelSource`, `completeChannelSource` — the two calls. The append of a row may stop after
  any of its bytes.
* `records_append` — an append to an index that ends with a line break adds its row, or, when it is
  cut off, no row or this row;
* `Holds`, `holds_append` — a source that has an envelope keeps it;
* `one_envelope` — when no row is appended to a line that is not ended, a source has one envelope in
  every run;
* `torn_claim_lost` — a row that is appended to a torn line is lost to the next reader.
-/

import Nvoy.Lib.Json
import Nvoy.Lib.Lines
import Nvoy.Lib.Runs
import Nvoy.Lib.Utf8
import Nvoy.Nostr.Event

namespace Nvoy.Broker

open Lines

/-! ### The index -/

/-- What is at the path. -/
inductive SourceIndex where
  | absent
  | file (bytes : List UInt8)
  /-- A link, a directory or a device. -/
  | irregular

inductive SourceState where
  | claimed
  | delivered
  deriving DecidableEq

def SourceState.text : SourceState → String
  | .claimed => "claimed"
  | .delivered => "delivered"

def SourceState.ofText : String → Option SourceState
  | "claimed" => some .claimed
  | "delivered" => some .delivered
  | _ => none

/-- A row as it is read. -/
structure SourceRow where
  sourceEvent : Json
  envelope : Json
  state : SourceState

/-- `HEX64.test(String(value || ''))`. The text of an array of one is the text of its item. -/
def isHexText : Json → Bool
  | .str text => isHex64 text
  | .arr [item] => isHexText item
  | _ => false

def sourceRow (row : Json) : Option SourceRow := do
  let version ← row.get "version"
  let sourceEvent ← row.get "source_event"
  let envelope ← row.get "envelope"
  let state ← row.get "state"
  let state ← state.string.bind SourceState.ofText
  if version.integer = some 1 ∧ isHexText sourceEvent ∧ isHexText envelope then
    some ⟨sourceEvent, envelope, state⟩
  else none

def lineRow (line : List Char) : Option SourceRow := (Json.parse line).bind sourceRow

/-- `records`. A line that is no row is passed over. -/
def records : SourceIndex → Except String (List SourceRow)
  | .absent => .ok []
  | .irregular => .error "channel source index is not a regular file"
  | .file bytes => .ok (((utf8Decode bytes).toList.splitOn '\n').filterMap lineRow)

/-- `records(path).reverse().find(row => row.source_event === sourceEvent)` -/
def priorOf (rows : List SourceRow) (sourceEvent : String) : Option SourceRow :=
  rows.reverse.find? fun row => row.sourceEvent.string = some sourceEvent

/-- A row as it is written. -/
structure SourceEntry where
  sourceEvent : String
  envelope : String
  state : SourceState
  time : Int

namespace SourceEntry

def fields (entry : SourceEntry) : List (String × Json) :=
  [("version", .num 1 0), ("source_event", .str entry.sourceEvent), ("envelope", .str entry.envelope),
    ("state", .str entry.state.text), ("at", .num entry.time 0)]

/-- `JSON.stringify(row)` -/
def text (entry : SourceEntry) : List Char := Json.render (.obj entry.fields)

/-- The bytes of the row and its line break. -/
def line (entry : SourceEntry) : List UInt8 :=
  (entry.text ++ ['\n']).flatMap String.utf8EncodeChar

def row (entry : SourceEntry) : SourceRow := ⟨.str entry.sourceEvent, .str entry.envelope, entry.state⟩

end SourceEntry

def SourceIndex.bytes : SourceIndex → List UInt8
  | .file bytes => bytes
  | _ => []

/-- `appendFileSync`. With a fault it ends after that many bytes, with the process or by throwing. -/
def appendFileSync (index : SourceIndex) (line : List UInt8) : Option Nat → SourceIndex × Bool
  | none => (.file (index.bytes ++ line), true)
  | some count => (.file (index.bytes ++ line.take count), false)

/-! ### The two calls -/

structure SourceClaim where
  accepted : Bool
  replay : Bool
  prior : Option SourceRow

/-- What a call returns or throws; `none` when its append ended it. -/
abbrev SourceAnswer (α : Type) := Option (Except String α)

def claimChannelSource (index : SourceIndex) (sourceEvent envelope : String) (time : Int)
    (fault : Option Nat) : SourceIndex × SourceAnswer SourceClaim :=
  if isHex64 sourceEvent && isHex64 envelope then
    match records index with
    | .error error => (index, some (.error error))
    | .ok rows =>
        match priorOf rows sourceEvent with
        | some prior =>
            let same := decide (prior.envelope.string = some envelope)
            (index, some (.ok ⟨same, same, some prior⟩))
        | none =>
            let entry : SourceEntry := ⟨sourceEvent, envelope, .claimed, time⟩
            let appended := appendFileSync index entry.line fault
            (appended.1, if appended.2 then some (.ok ⟨true, false, none⟩) else none)
  else (index, some (.error "channel source claim is invalid"))

def completeChannelSource (index : SourceIndex) (sourceEvent envelope : String) (time : Int)
    (fault : Option Nat) : SourceIndex × SourceAnswer Bool :=
  match records index with
  | .error error => (index, some (.error error))
  | .ok rows =>
      match (priorOf rows sourceEvent).filter fun prior => prior.envelope.string = some envelope with
      | none => (index, some (.error "channel source completion has no matching claim"))
      | some prior =>
          match prior.state with
          | .delivered => (index, some (.ok false))
          | .claimed =>
              let entry : SourceEntry := ⟨sourceEvent, envelope, .delivered, time⟩
              let appended := appendFileSync index entry.line fault
              (appended.1, if appended.2 then some (.ok true) else none)

/-! ### Runs of the two calls -/

/-- One call, of any process. -/
inductive SourceCall where
  | claim (sourceEvent envelope : String) (time : Int) (fault : Option Nat)
  | complete (sourceEvent envelope : String) (time : Int) (fault : Option Nat)

/-- The index, and what the callers have been told: the claims that were accepted and the
completions that did not throw. -/
structure SourceLog where
  index : SourceIndex
  accepted : List (String × String)
  completed : List (String × String)

namespace SourceLog

def start : SourceLog := ⟨.absent, [], []⟩

def step (log : SourceLog) : SourceCall → SourceLog
  | .claim sourceEvent envelope time fault =>
      let called := claimChannelSource log.index sourceEvent envelope time fault
      { log with
        index := called.1
        accepted := match called.2 with
          | some (.ok ⟨true, _, _⟩) => log.accepted ++ [(sourceEvent, envelope)]
          | _ => log.accepted }
  | .complete sourceEvent envelope time fault =>
      let called := completeChannelSource log.index sourceEvent envelope time fault
      { log with
        index := called.1
        completed := match called.2 with
          | some (.ok _) => log.completed ++ [(sourceEvent, envelope)]
          | _ => log.completed }

def run (log : SourceLog) (calls : List SourceCall) : SourceLog := Runs.run step log calls

end SourceLog

/-- One signed source, one admitted envelope. -/
structure OneEnvelope (log : SourceLog) : Prop where
  accepted : ∀ {sourceEvent envelope envelope'}, (sourceEvent, envelope) ∈ log.accepted →
    (sourceEvent, envelope') ∈ log.accepted → envelope = envelope'
  completed : ∀ {sourceEvent envelope envelope'}, (sourceEvent, envelope) ∈ log.accepted →
    (sourceEvent, envelope') ∈ log.completed → envelope = envelope'
  /-- A redelivery of the accepted envelope stays accepted. -/
  redelivered : ∀ {sourceEvent envelope}, (sourceEvent, envelope) ∈ log.accepted → ∀ time fault,
    ∃ prior, (claimChannelSource log.index sourceEvent envelope time fault).2 =
      some (.ok ⟨true, true, some prior⟩)

/-- The file ends with a line break, or has no bytes. -/
def SourceIndex.Closed (index : SourceIndex) : Prop :=
  index.bytes = [] ∨ index.bytes.getLast? = some newline

/-- The call finds nothing that spares it the append. -/
def SourceCall.Appends (index : SourceIndex) : SourceCall → Prop
  | .claim sourceEvent envelope _ _ => isHex64 sourceEvent = true ∧ isHex64 envelope = true ∧
      ∃ rows, records index = .ok rows ∧ priorOf rows sourceEvent = none
  | .complete sourceEvent envelope _ _ => ∃ rows prior, records index = .ok rows ∧
      priorOf rows sourceEvent = some prior ∧ prior.envelope.string = some envelope ∧
      prior.state = .claimed

/-- No row is appended to a line that is not ended. -/
def AppendsToLines (log : SourceLog) (call : SourceCall) : Prop :=
  call.Appends log.index → log.index.Closed

/-! ### Reading the rows back -/

/-- The row of a signed source. -/
structure SourceEntry.Hex (entry : SourceEntry) : Prop where
  sourceEvent : isHex64 entry.sourceEvent = true
  envelope : isHex64 entry.envelope = true

theorem brace_notMem_hex {text : String} (hex : isHex64 text = true) : '}' ∉ text.toList := by
  intro member
  rw [isHex64, Bool.and_eq_true, List.all_eq_true] at hex
  exact absurd (hex.2 _ member) (by decide)

namespace SourceEntry

variable {entry : SourceEntry}

theorem flat (hex : entry.Hex) :
    ∀ field ∈ entry.fields, '}' ∉ Json.renderString field.1 ∧ '}' ∉ Json.render field.2 := by
  have word : ∀ word ∈ ["version", "source_event", "envelope", "state", "at", "claimed", "delivered"],
      '}' ∉ Json.renderString word := by
    intro word member
    refine Json.brace_notMem_renderString ?_
    revert word
    decide
  have state : '}' ∉ Json.renderString entry.state.text := by
    cases entry.state with
    | claimed => exact word _ (by decide)
    | delivered => exact word _ (by decide)
  have number : ∀ n, '}' ∉ Json.render (.num n 0) := by
    intro n
    rw [Json.render, Json.renderNum, if_pos rfl, List.append_nil]
    exact Json.brace_notMem_renderInt n
  intro field member
  simp only [fields, List.mem_cons, List.not_mem_nil, or_false] at member
  rcases member with rfl | rfl | rfl | rfl | rfl
  · exact ⟨word "version" (by decide), number 1⟩
  · refine ⟨word "source_event" (by decide), ?_⟩
    rw [Json.render]
    exact Json.brace_notMem_renderString (brace_notMem_hex hex.sourceEvent)
  · refine ⟨word "envelope" (by decide), ?_⟩
    rw [Json.render]
    exact Json.brace_notMem_renderString (brace_notMem_hex hex.envelope)
  · refine ⟨word "state" (by decide), ?_⟩
    rw [Json.render]
    exact state
  · exact ⟨word "at" (by decide), number entry.time⟩

theorem newline_notMem_text : '\n' ∉ entry.text := Json.newline_notMem_render _

theorem sourceRow_fields (hex : entry.Hex) : sourceRow (.obj entry.fields) = some entry.row := by
  have state : SourceState.ofText entry.state.text = some entry.state := by
    cases entry.state <;> rfl
  simp [sourceRow, fields, Json.get, Json.string, Json.integer, isHexText, state, hex.sourceEvent,
    hex.envelope, row]

/-- A whole row is read back. -/
theorem lineRow_text (hex : entry.Hex) : lineRow entry.text = some entry.row := by
  rw [lineRow, text, Json.parse_render, Option.bind_some, sourceRow_fields hex]

/-- A row without its last bytes is passed over. -/
theorem lineRow_torn (hex : entry.Hex) {front tail : List Char} (inside : front <+: entry.text)
    (short : front ≠ entry.text) (cut : ∀ c ∈ tail, c = replacement) :
    lineRow (front ++ tail) = none := by
  have free : '}' ∉ tail := by
    intro member
    exact absurd (cut _ member) (by decide)
  have object := @Json.parse_torn entry.fields
  unfold lineRow
  cases parsed : Json.parse (front ++ tail) with
  | none => rfl
  | some value =>
    rw [Option.bind_some]
    cases value with
    | obj fields' => exact absurd parsed (object (flat hex) inside short free)
    | _ => rfl

end SourceEntry

/-- The bytes of some characters. -/
abbrev bytesOf (chars : List Char) : List UInt8 := chars.flatMap String.utf8EncodeChar

theorem bytesOf_append (front back : List Char) :
    bytesOf (front ++ back) = bytesOf front ++ bytesOf back := List.flatMap_append

/-- These bytes are rows, each with its line break, and a row that may not be all there. -/
structure Rows (entries : List SourceEntry) (torn bytes : List UInt8) : Prop where
  split : bytes = bytesOf (joinLines '\n' (entries.map SourceEntry.text)) ++ torn
  hex : ∀ entry ∈ entries, entry.Hex
  within : torn = [] ∨ ∃ entry : SourceEntry, entry.Hex ∧ torn <+: bytesOf entry.text

section Reading

variable {entries : List SourceEntry} {torn bytes : List UInt8} {entry : SourceEntry}
  {index : SourceIndex}

/-- What a row that may not be all there reads as. -/
theorem torn_reads (hex : entry.Hex) (inside : torn <+: bytesOf entry.text) :
    '\n' ∉ utf8DecodeFrom .idle torn ∧
      (lineRow (utf8DecodeFrom .idle torn) = none ∨
        lineRow (utf8DecodeFrom .idle torn) = some entry.row) := by
  by_cases whole : torn = bytesOf entry.text
  · have decoded := utf8DecodeFrom_flatMap entry.text []
    rw [List.append_nil, ← bytesOf, ← whole] at decoded
    rw [decoded, show utf8DecodeFrom .idle [] = [] from rfl, List.append_nil]
    exact ⟨SourceEntry.newline_notMem_text, .inr (SourceEntry.lineRow_text hex)⟩
  · obtain ⟨front, tail, decoded, before, short, cut⟩ := utf8DecodeFrom_prefix inside whole
    rw [decoded]
    refine ⟨?_, .inl (SourceEntry.lineRow_torn hex before short cut)⟩
    rw [List.mem_append, not_or]
    exact ⟨fun member => SourceEntry.newline_notMem_text (before.subset member),
      fun member => absurd (cut _ member) (by decide)⟩

theorem Rows.newline_notMem (rows : Rows entries torn bytes) : '\n' ∉ utf8DecodeFrom .idle torn := by
  rcases rows.within with rfl | ⟨entry, hex, inside⟩
  · exact List.not_mem_nil
  · exact (torn_reads hex inside).1

/-- The rows of an index, and what its last line reads as. -/
theorem Rows.records_eq (rows : Rows entries torn index.bytes) (regular : index ≠ .irregular) :
    records index = .ok (entries.map SourceEntry.row ++
      (lineRow (utf8DecodeFrom .idle torn)).toList) := by
  have lines : ((utf8Decode index.bytes).toList.splitOn '\n') =
      entries.map SourceEntry.text ++ [utf8DecodeFrom .idle torn] := by
    rw [utf8Decode, String.toList_ofList, rows.split, utf8DecodeFrom_flatMap]
    refine splitOn_joinLines '\n' ?_ rows.newline_notMem
    intro line member
    obtain ⟨entry, -, rfl⟩ := List.mem_map.mp member
    exact SourceEntry.newline_notMem_text
  have whole : (entries.map SourceEntry.text).filterMap lineRow =
      entries.map SourceEntry.row := by
    have hex := rows.hex
    clear rows lines
    induction entries with
    | nil => rfl
    | cons entry entries ih =>
      rw [List.map_cons, List.filterMap_cons_some (SourceEntry.lineRow_text (hex entry
        List.mem_cons_self)), ih fun other member => hex other (List.mem_cons_of_mem _ member),
        List.map_cons]
  have read : records (.file index.bytes) = .ok (entries.map SourceEntry.row ++
      (lineRow (utf8DecodeFrom .idle torn)).toList) := by
    rw [records, lines, List.filterMap_append, whole]
    cases last : lineRow (utf8DecodeFrom .idle torn) with
    | none => rw [List.filterMap_cons_none last]; rfl
    | some row => rw [List.filterMap_cons_some last]; rfl
  cases index with
  | absent => rw [← read]; rfl
  | file bytes => exact read
  | irregular => exact absurd rfl regular

theorem newline_notMem_bytesOf {chars : List Char} (clean : '\n' ∉ chars) :
    newline ∉ bytesOf chars := by
  intro member
  obtain ⟨c, inside, hit⟩ := List.mem_flatMap.mp member
  exact clean (newline_mem_utf8EncodeChar hit ▸ inside)

/-- An index that ends with a line break has no torn row. -/
theorem Rows.torn_eq_nil (rows : Rows entries torn index.bytes) (closed : index.Closed) :
    torn = [] := by
  by_contra cut
  rcases closed with empty | last
  · rw [rows.split] at empty
    exact cut (List.append_eq_nil_iff.mp empty).2
  · rw [rows.split, List.getLast?_append_of_ne_nil _ cut] at last
    obtain ⟨entry, -, inside⟩ := rows.within.resolve_left cut
    exact newline_notMem_bytesOf SourceEntry.newline_notMem_text
      (inside.subset (List.mem_of_getLast? last))

/-- **An append to a closed index** adds its row. When it is cut off, it adds no row or this row. -/
theorem records_append (rows : Rows entries [] index.bytes) (regular : index ≠ .irregular)
    (hex : entry.Hex) (fault : Option Nat) :
    (∃ entries' torn', Rows entries' torn' (appendFileSync index entry.line fault).1.bytes) ∧
      (appendFileSync index entry.line fault).1 ≠ .irregular ∧
      ∃ before more, records index = .ok before ∧
        records (appendFileSync index entry.line fault).1 = .ok (before ++ more) ∧
        (more = [entry.row] ∨ more = [] ∧ (appendFileSync index entry.line fault).2 = false) := by
  have before : records index = .ok (entries.map SourceEntry.row) := by
    rw [rows.records_eq regular, show lineRow (utf8DecodeFrom .idle []) = none from rfl]
    exact congrArg Except.ok (List.append_nil _)
  have line : entry.line = bytesOf entry.text ++ [newline] := by
    rw [SourceEntry.line, List.flatMap_append]
    rfl
  -- what the append leaves: the whole row, or a part of it before its line break
  have leaves : ∃ written, (appendFileSync index entry.line fault).1 = .file (index.bytes ++ written) ∧
      (written = entry.line ∨
        written <+: bytesOf entry.text ∧ (appendFileSync index entry.line fault).2 = false) := by
    cases fault with
    | none => exact ⟨entry.line, rfl, .inl rfl⟩
    | some count =>
      refine ⟨entry.line.take count, rfl, ?_⟩
      have start := List.take_prefix count entry.line
      rw [line] at start ⊢
      rcases List.prefix_concat_iff.mp start with whole | inside
      · exact .inl whole
      · exact .inr ⟨inside, rfl⟩
  obtain ⟨written, same, left⟩ := leaves
  rw [same]
  rcases left with whole | ⟨inside, cut⟩
  · have after : Rows (entries ++ [entry]) [] (SourceIndex.file (index.bytes ++ written)).bytes := by
      refine ⟨?_, fun other member => ?_, .inl rfl⟩
      · show index.bytes ++ written = _
        have last : joinLines '\n' ([entry].map SourceEntry.text) = entry.text ++ ['\n'] := by
          simp [joinLines]
        rw [whole, rows.split, List.map_append, joinLines_append, bytesOf_append, last,
          List.append_nil, List.append_nil, SourceEntry.line]
      · rcases List.mem_append.mp member with old | new
        · exact rows.hex other old
        · rw [List.mem_singleton.mp new]
          exact hex
    refine ⟨⟨_, _, after⟩, by simp, _, [entry.row], before, ?_, .inl rfl⟩
    rw [after.records_eq (by simp), show lineRow (utf8DecodeFrom .idle []) = none from rfl,
      List.map_append]
    exact congrArg Except.ok (List.append_nil _)
  · have after : Rows entries written (SourceIndex.file (index.bytes ++ written)).bytes := by
      refine ⟨?_, rows.hex, .inr ⟨entry, hex, inside⟩⟩
      show index.bytes ++ written = _
      rw [rows.split, List.append_nil]
    refine ⟨⟨_, _, after⟩, by simp, _, _, before, after.records_eq (by simp), ?_⟩
    rcases (torn_reads hex inside).2 with none | some
    · rw [none]
      exact .inr ⟨rfl, cut⟩
    · rw [some]
      exact .inl rfl

end Reading

/-! ### What a source keeps -/

section Runs

variable {index : SourceIndex} {entry : SourceEntry} {log : SourceLog} {pair : String × String}

/-- The last row of the source names the envelope. -/
def Holds (index : SourceIndex) (pair : String × String) : Prop :=
  ∃ rows prior, records index = .ok rows ∧ priorOf rows pair.1 = some prior ∧
    prior.envelope.string = some pair.2

theorem Holds.eq {sourceEvent envelope envelope' : String} (first : Holds index (sourceEvent, envelope))
    (second : Holds index (sourceEvent, envelope')) : envelope = envelope' := by
  obtain ⟨rows, prior, read, found, named⟩ := first
  obtain ⟨rows', prior', read', found', named'⟩ := second
  obtain rfl := Except.ok.inj (read.symm.trans read')
  obtain rfl := Option.some.inj (found.symm.trans found')
  exact Option.some.inj (named.symm.trans named')

theorem priorOf_snoc (rows : List SourceRow) (row : SourceRow) (sourceEvent : String) :
    priorOf (rows ++ [row]) sourceEvent =
      if row.sourceEvent.string = some sourceEvent then some row else priorOf rows sourceEvent := by
  unfold priorOf
  rw [List.reverse_append, List.reverse_singleton, List.singleton_append, List.find?_cons]
  by_cases own : row.sourceEvent.string = some sourceEvent
  · rw [if_pos own, decide_eq_true own]
  · rw [if_neg own, decide_eq_false own]

/-- What an index keeps. -/
structure Written (index : SourceIndex) : Prop where
  rows : ∃ entries torn, Rows entries torn index.bytes
  regular : index ≠ .irregular

theorem Written.reads (written : Written index) : ∃ rows, records index = .ok rows := by
  obtain ⟨entries, torn, rows⟩ := written.rows
  exact ⟨_, rows.records_eq written.regular⟩

/-- The row that a call appends is for a source without an envelope, or for the one it has. -/
def Agrees (index : SourceIndex) (entry : SourceEntry) : Prop :=
  ∀ envelope, Holds index (entry.sourceEvent, envelope) → envelope = entry.envelope

/-- **An append** keeps what is held, and holds its own row unless it is cut off. -/
theorem holds_append (written : Written index) (closed : index.Closed) (hex : entry.Hex)
    (agrees : Agrees index entry) (fault : Option Nat) :
    Written (appendFileSync index entry.line fault).1 ∧
      (∀ pair, Holds index pair → Holds (appendFileSync index entry.line fault).1 pair) ∧
      ((appendFileSync index entry.line fault).2 = true →
        Holds (appendFileSync index entry.line fault).1 (entry.sourceEvent, entry.envelope)) := by
  obtain ⟨entries, torn, rows⟩ := written.rows
  obtain rfl := rows.torn_eq_nil closed
  obtain ⟨rows', regular, before, more, read, after, ends⟩ :=
    records_append rows written.regular hex fault
  have own : entry.row.sourceEvent.string = some entry.sourceEvent := rfl
  refine ⟨⟨rows', regular⟩, fun pair holds => ?_, fun whole => ?_⟩
  · obtain ⟨rows'', prior, read', found, named⟩ := id holds
    obtain rfl := Except.ok.inj (read.symm.trans read')
    rcases ends with rfl | ⟨rfl, -⟩
    · by_cases same : entry.sourceEvent = pair.1
      · refine ⟨_, entry.row, after, ?_, ?_⟩
        · rw [priorOf_snoc, if_pos (own.trans (congrArg some same))]
        · rw [agrees pair.2 (same ▸ holds)]
          rfl
      · refine ⟨_, prior, after, ?_, named⟩
        rw [priorOf_snoc, if_neg (fun other => same (Option.some.inj (own.symm.trans other))), found]
    · rw [List.append_nil] at after
      exact ⟨_, prior, after, found, named⟩
  · rcases ends with rfl | ⟨-, cut⟩
    · refine ⟨_, entry.row, after, ?_, rfl⟩
      rw [priorOf_snoc, if_pos own]
    · exact absurd whole (by rw [cut]; exact Bool.false_ne_true)

/-- What a log keeps. -/
structure Sound (log : SourceLog) : Prop where
  written : Written log.index
  accepted : ∀ pair ∈ log.accepted, Holds log.index pair
  completed : ∀ pair ∈ log.completed, Holds log.index pair

theorem sound_start : Sound .start where
  written := ⟨⟨[], [], rfl, fun _ member => absurd member List.not_mem_nil, .inl rfl⟩,
    SourceIndex.noConfusion⟩
  accepted := fun _ member => absurd member List.not_mem_nil
  completed := fun _ member => absurd member List.not_mem_nil

/-- A claim that has a row to find leaves the index, and is accepted for the envelope of the row. -/
theorem claim_of_prior {rows : List SourceRow} {prior : SourceRow} {sourceEvent envelope : String}
    (sourceHex : isHex64 sourceEvent = true) (envelopeHex : isHex64 envelope = true)
    (read : records index = .ok rows) (found : priorOf rows sourceEvent = some prior) (time : Int)
    (fault : Option Nat) : claimChannelSource index sourceEvent envelope time fault =
      (index, some (.ok ⟨decide (prior.envelope.string = some envelope),
        decide (prior.envelope.string = some envelope), some prior⟩)) := by
  unfold claimChannelSource
  simp only [sourceHex, envelopeHex, Bool.and_self, if_true, read, found]

theorem claim_of_none {rows : List SourceRow} {sourceEvent envelope : String}
    (sourceHex : isHex64 sourceEvent = true) (envelopeHex : isHex64 envelope = true)
    (read : records index = .ok rows) (found : priorOf rows sourceEvent = none) (time : Int)
    (fault : Option Nat) : claimChannelSource index sourceEvent envelope time fault =
      ((appendFileSync index (SourceEntry.line ⟨sourceEvent, envelope, .claimed, time⟩) fault).1,
        if (appendFileSync index (SourceEntry.line ⟨sourceEvent, envelope, .claimed, time⟩) fault).2 then
          some (.ok ⟨true, false, none⟩) else none) := by
  unfold claimChannelSource
  simp only [sourceHex, envelopeHex, Bool.and_self, if_true, read, found]

theorem Sound.claim (sound : Sound log) (sourceEvent envelope : String) (time : Int)
    (fault : Option Nat)
    (closes : AppendsToLines log (.claim sourceEvent envelope time fault)) :
    Sound (log.step (.claim sourceEvent envelope time fault)) := by
  by_cases hex : isHex64 sourceEvent = true ∧ isHex64 envelope = true
  · obtain ⟨rows, read⟩ := sound.written.reads
    cases found : priorOf rows sourceEvent with
    | some prior =>
      simp only [SourceLog.step, claim_of_prior hex.1 hex.2 read found]
      by_cases named : prior.envelope.string = some envelope
      · rw [decide_eq_true named]
        refine ⟨sound.written, fun pair member => ?_, sound.completed⟩
        rcases List.mem_append.mp member with old | new
        · exact sound.accepted pair old
        · rw [List.mem_singleton.mp new]
          exact ⟨rows, prior, read, found, named⟩
      · rw [decide_eq_false named]
        exact sound
    | none =>
      have closed := closes ⟨hex.1, hex.2, rows, read, found⟩
      have agrees : Agrees log.index ⟨sourceEvent, envelope, .claimed, time⟩ := by
        rintro other ⟨rows', prior, read', found', -⟩
        obtain rfl := Except.ok.inj (read.symm.trans read')
        rw [found] at found'
        cases found'
      have clean : SourceEntry.Hex ⟨sourceEvent, envelope, .claimed, time⟩ := ⟨hex.1, hex.2⟩
      obtain ⟨written, keeps, own⟩ := holds_append sound.written closed clean agrees fault
      simp only [SourceLog.step, claim_of_none hex.1 hex.2 read found]
      refine ⟨written, fun pair member => ?_, fun pair member => keeps _ (sound.completed pair member)⟩
      cases whole : (appendFileSync log.index
          (SourceEntry.line ⟨sourceEvent, envelope, .claimed, time⟩) fault).2 with
      | true =>
        rw [whole] at member
        rcases List.mem_append.mp member with old | new
        · exact keeps _ (sound.accepted pair old)
        · rw [List.mem_singleton.mp new]
          exact own whole
      | false =>
        rw [whole] at member
        exact keeps _ (sound.accepted pair member)
  · have invalid : claimChannelSource log.index sourceEvent envelope time fault =
        (log.index, some (.error "channel source claim is invalid")) := by
      unfold claimChannelSource
      rw [← Bool.and_eq_true] at hex
      rw [if_neg hex]
    simp only [SourceLog.step, invalid]
    exact sound

theorem completion_of_prior {rows : List SourceRow} {prior : SourceRow} {sourceEvent envelope : String}
    (read : records index = .ok rows) (found : priorOf rows sourceEvent = some prior)
    (named : prior.envelope.string = some envelope) (time : Int) (fault : Option Nat) :
    completeChannelSource index sourceEvent envelope time fault = match prior.state with
      | .delivered => (index, some (.ok false))
      | .claimed =>
          ((appendFileSync index (SourceEntry.line ⟨sourceEvent, envelope, .delivered, time⟩) fault).1,
            if (appendFileSync index (SourceEntry.line ⟨sourceEvent, envelope, .delivered, time⟩)
              fault).2 then some (.ok true) else none) := by
  unfold completeChannelSource
  simp only [read, found, Option.filter_some, named, decide_true, if_true]

theorem completion_refused {rows : List SourceRow} {sourceEvent envelope : String}
    (read : records index = .ok rows)
    (other : ∀ prior, priorOf rows sourceEvent = some prior → prior.envelope.string ≠ some envelope)
    (time : Int) (fault : Option Nat) : completeChannelSource index sourceEvent envelope time fault =
      (index, some (.error "channel source completion has no matching claim")) := by
  have none : (priorOf rows sourceEvent).filter (fun prior => prior.envelope.string = some envelope) =
      none := by
    rw [Option.filter_eq_none_iff]
    intro prior found
    rw [decide_eq_true_eq]
    exact other prior found
  unfold completeChannelSource
  simp only [read, none]

theorem isHexText_of_sourceRow {value : Json} {row : SourceRow} (read : sourceRow value = some row) :
    isHexText row.sourceEvent = true ∧ isHexText row.envelope = true := by
  simp only [sourceRow, Option.bind_eq_bind, Option.bind_eq_some_iff] at read
  obtain ⟨version, -, sourceEvent, -, envelope, -, state, -, known, -, read⟩ := read
  split_ifs at read with valid
  obtain rfl := Option.some.inj read
  exact valid.2

theorem isHex64_of_string {value : Json} {text : String} (hex : isHexText value = true)
    (string : value.string = some text) : isHex64 text = true := by
  cases value with
  | str other =>
    obtain rfl := Option.some.inj string
    exact hex
  | _ => cases string

/-- What a row names is a signed source and an envelope. -/
theorem hex_of_holds {sourceEvent envelope : String} (holds : Holds index (sourceEvent, envelope)) :
    isHex64 sourceEvent = true ∧ isHex64 envelope = true := by
  obtain ⟨rows, prior, read, found, named⟩ := holds
  have member : prior ∈ rows := List.mem_reverse.mp (List.mem_of_find?_eq_some found)
  have source := List.find?_some found
  rw [decide_eq_true_eq] at source
  have hex : isHexText prior.sourceEvent = true ∧ isHexText prior.envelope = true := by
    cases index with
    | absent =>
      obtain rfl := Except.ok.inj read
      exact absurd member List.not_mem_nil
    | irregular => cases read
    | file bytes =>
      obtain rfl := Except.ok.inj read
      obtain ⟨line, -, read'⟩ := List.mem_filterMap.mp member
      obtain ⟨value, -, valid⟩ := Option.bind_eq_some_iff.mp read'
      exact isHexText_of_sourceRow valid
  exact ⟨isHex64_of_string hex.1 source, isHex64_of_string hex.2 named⟩

theorem Sound.complete (sound : Sound log) (sourceEvent envelope : String) (time : Int)
    (fault : Option Nat)
    (closes : AppendsToLines log (.complete sourceEvent envelope time fault)) :
    Sound (log.step (.complete sourceEvent envelope time fault)) := by
  obtain ⟨rows, read⟩ := sound.written.reads
  by_cases held : ∃ prior, priorOf rows sourceEvent = some prior ∧
      prior.envelope.string = some envelope
  · obtain ⟨prior, found, named⟩ := held
    have holds : Holds log.index (sourceEvent, envelope) := ⟨rows, prior, read, found, named⟩
    have noted : ∀ {index : SourceIndex}, (∀ pair, Holds log.index pair → Holds index pair) →
        ∀ pair ∈ log.completed ++ [(sourceEvent, envelope)], Holds index pair := by
      intro index keeps pair member
      rcases List.mem_append.mp member with old | new
      · exact keeps pair (sound.completed pair old)
      · rw [List.mem_singleton.mp new]
        exact keeps _ holds
    cases state : prior.state with
    | delivered =>
      simp only [SourceLog.step, completion_of_prior read found named, state]
      exact ⟨sound.written, sound.accepted, noted fun _ held => held⟩
    | claimed =>
      have closed := closes ⟨rows, prior, read, found, named, state⟩
      have agrees : Agrees log.index ⟨sourceEvent, envelope, .delivered, time⟩ :=
        fun other held => held.eq holds
      obtain ⟨sourceHex, envelopeHex⟩ := hex_of_holds holds
      have clean : SourceEntry.Hex ⟨sourceEvent, envelope, .delivered, time⟩ := ⟨sourceHex, envelopeHex⟩
      obtain ⟨written, keeps, -⟩ := holds_append sound.written closed clean agrees fault
      simp only [SourceLog.step, completion_of_prior read found named, state]
      refine ⟨written, fun pair member => keeps _ (sound.accepted pair member), ?_⟩
      cases (appendFileSync log.index
          (SourceEntry.line ⟨sourceEvent, envelope, .delivered, time⟩) fault).2 with
      | true => exact noted keeps
      | false => exact fun pair member => keeps _ (sound.completed pair member)
  · have refused := @completion_refused log.index rows sourceEvent envelope read
      (fun prior found named => held ⟨prior, found, named⟩) time fault
    simp only [SourceLog.step, refused]
    exact sound

theorem sound_step (log : SourceLog) (call : SourceCall) (sound : Sound log)
    (closes : AppendsToLines log call) : Sound (log.step call) := by
  cases call with
  | claim sourceEvent envelope time fault => exact sound.claim sourceEvent envelope time fault closes
  | complete sourceEvent envelope time fault =>
    exact sound.complete sourceEvent envelope time fault closes

theorem Sound.oneEnvelope (sound : Sound log) : OneEnvelope log where
  accepted := fun first second => (sound.accepted _ first).eq (sound.accepted _ second)
  completed := fun first second => (sound.accepted _ first).eq (sound.completed _ second)
  redelivered := by
    intro sourceEvent envelope member time fault
    have holds := sound.accepted _ member
    obtain ⟨sourceHex, envelopeHex⟩ := hex_of_holds holds
    obtain ⟨rows, prior, read, found, named⟩ := holds
    refine ⟨prior, ?_⟩
    rw [claim_of_prior sourceHex envelopeHex read found, decide_eq_true named]

/-- **One signed source, one admitted envelope**, in every run in which no row is appended to a line
that is not ended. -/
theorem one_envelope (calls : List SourceCall)
    (closes : Runs.Meets SourceLog.step AppendsToLines .start calls) :
    OneEnvelope (SourceLog.start.run calls) :=
  (closes.keeps sound_step sound_start).oneEnvelope

/-! A run in which no append is cut off. -/

def SourceCall.fault : SourceCall → Option Nat
  | .claim _ _ _ fault => fault
  | .complete _ _ _ fault => fault

theorem closed_append (index : SourceIndex) (entry : SourceEntry) :
    (appendFileSync index entry.line none).1.Closed := by
  refine .inr ?_
  show (index.bytes ++ entry.line).getLast? = some newline
  rw [SourceEntry.line, List.flatMap_append, ← List.append_assoc]
  exact List.getLast?_concat

theorem closed_step (closed : log.index.Closed) {call : SourceCall} (whole : call.fault = none) :
    (log.step call).index.Closed := by
  cases call with
  | claim sourceEvent envelope time fault =>
    obtain rfl : fault = none := whole
    show (claimChannelSource log.index sourceEvent envelope time none).1.Closed
    unfold claimChannelSource
    split_ifs
    · split
      · exact closed
      · split
        · exact closed
        · exact closed_append _ _
    · exact closed
  | complete sourceEvent envelope time fault =>
    obtain rfl : fault = none := whole
    show (completeChannelSource log.index sourceEvent envelope time none).1.Closed
    unfold completeChannelSource
    split
    · exact closed
    · split
      · exact closed
      · split
        · exact closed
        · exact closed_append _ _

theorem meets_of_whole {calls : List SourceCall} (closed : log.index.Closed)
    (whole : ∀ call ∈ calls, call.fault = none) :
    Runs.Meets SourceLog.step AppendsToLines log calls := by
  induction calls generalizing log with
  | nil => trivial
  | cons call calls ih =>
    refine ⟨fun _ => closed, ih (closed_step closed (whole call List.mem_cons_self)) ?_⟩
    exact fun other member => whole other (List.mem_cons_of_mem _ member)

/-- The name of an event, for runs on fixed inputs. -/
def sampleEvent (digit : Char) : String := String.ofList (List.replicate 64 digit)

/-- A source is claimed, delivered again, heard under a second envelope and completed. -/
theorem one_envelope_redelivered : OneEnvelope (SourceLog.start.run
    [.claim (sampleEvent 'a') (sampleEvent 'b') 1 none,
      .claim (sampleEvent 'a') (sampleEvent 'b') 2 none,
      .claim (sampleEvent 'a') (sampleEvent 'c') 3 none,
      .complete (sampleEvent 'a') (sampleEvent 'b') 4 none]) := by
  refine one_envelope _ (meets_of_whole (.inl rfl) fun call member => ?_)
  simp only [List.mem_cons, List.not_mem_nil, or_false] at member
  rcases member with rfl | rfl | rfl | rfl
  all_goals rfl

end Runs

/-! ### A row after a torn line -/

theorem parse_braces (rest : List Char) : Json.parse ('{' :: '{' :: rest) = none := by
  have solid : Json.isSpace '{' = false := by decide
  rw [Json.parse, Json.skipSpace_cons _ solid]
  simp [Json.parseValue, Json.skipSpace_cons _ solid, Json.parseField]

theorem SourceEntry.text_cons (entry : SourceEntry) : ∃ rest, entry.text = '{' :: rest := by
  unfold SourceEntry.text SourceEntry.fields
  rw [Json.render]
  exact ⟨_, rfl⟩

theorem records_brace : records (.file (bytesOf ['{'])) = .ok [] := by
  have decoded := utf8DecodeFrom_flatMap ['{'] []
  rw [List.append_nil] at decoded
  rw [records, utf8Decode, String.toList_ofList, bytesOf, decoded]
  rfl

theorem records_lost (entry : SourceEntry) :
    records (.file (bytesOf ['{'] ++ entry.line)) = .ok [] := by
  obtain ⟨rest, starts⟩ := entry.text_cons
  have decoded := utf8DecodeFrom_flatMap (['{'] ++ (entry.text ++ ['\n'])) []
  have line : ('{' :: entry.text ++ '\n' :: ([] : List Char)).splitOn '\n' = ['{' :: entry.text, []] := by
    have clean : '\n' ∉ '{' :: entry.text := by
      rw [List.mem_cons, not_or]
      exact ⟨by decide, SourceEntry.newline_notMem_text⟩
    rw [List.splitOn_append_cons_self, List.splitOn_eq_singleton clean, List.splitOn_nil]
    rfl
  have lost : lineRow ('{' :: entry.text) = none := by
    rw [lineRow, starts, parse_braces]
    rfl
  rw [List.append_nil] at decoded
  rw [records, utf8Decode, String.toList_ofList, SourceEntry.line, ← bytesOf, ← bytesOf_append,
    bytesOf, decoded, show utf8DecodeFrom .idle [] = [] from rfl, List.append_nil]
  show Except.ok ((('{' :: entry.text ++ '\n' :: []).splitOn '\n').filterMap lineRow) = _
  rw [line, List.filterMap_cons_none lost]
  rfl

/-- A claim of one source is cut off after its first byte; then another source is claimed for one
envelope, and for a second. -/
def tornClaim (first second : String × String) (envelope : String) : List SourceCall :=
  [.claim first.1 first.2 1 (some 1), .claim second.1 second.2 2 none,
    .claim second.1 envelope 3 none]

/-- Both claims of the second source are accepted: its first row is on the torn line. -/
theorem accepted_tornClaim {first second : String × String} {envelope : String}
    (hexes : ∀ text ∈ [first.1, first.2, second.1, second.2, envelope], isHex64 text = true) :
    (SourceLog.start.run (tornClaim first second envelope)).accepted =
      [second, (second.1, envelope)] := by
  have firstHex := hexes first.1 (by simp)
  have firstEnvelope := hexes first.2 (by simp)
  have secondHex := hexes second.1 (by simp)
  have secondEnvelope := hexes second.2 (by simp)
  have envelopeHex := hexes envelope (by simp)
  have cut : ∀ entry : SourceEntry,
      (appendFileSync .absent entry.line (some 1)) = (.file (bytesOf ['{']), false) := by
    intro entry
    obtain ⟨rest, starts⟩ := entry.text_cons
    rw [appendFileSync, SourceEntry.line, starts]
    rfl
  have one : claimChannelSource .absent first.1 first.2 1 (some 1) =
      (.file (bytesOf ['{']), none) := by
    rw [claim_of_none firstHex firstEnvelope (show records .absent = .ok [] from rfl) rfl, cut]
    rfl
  have two : claimChannelSource (.file (bytesOf ['{'])) second.1 second.2 2 none =
      (.file (bytesOf ['{'] ++ SourceEntry.line ⟨second.1, second.2, .claimed, 2⟩),
        some (.ok ⟨true, false, none⟩)) := by
    rw [claim_of_none secondHex secondEnvelope records_brace rfl]
    rfl
  have three : (claimChannelSource (.file (bytesOf ['{'] ++
      SourceEntry.line ⟨second.1, second.2, .claimed, 2⟩)) second.1 envelope 3 none).2 =
        some (.ok ⟨true, false, none⟩) := by
    rw [claim_of_none secondHex envelopeHex (records_lost _) rfl]
    rfl
  simp only [SourceLog.run, tornClaim, Runs.run_cons, Runs.run_nil, SourceLog.step, SourceLog.start,
    one, two, three]
  rfl

/-- One signed source becomes two admitted tasks. -/
theorem torn_claim_lost : ¬ OneEnvelope (SourceLog.start.run
    (tornClaim (sampleEvent 'a', sampleEvent 'b') (sampleEvent 'c', sampleEvent 'd')
      (sampleEvent 'e'))) := by
  intro oneEnvelope
  have accepted := @accepted_tornClaim (sampleEvent 'a', sampleEvent 'b')
    (sampleEvent 'c', sampleEvent 'd') (sampleEvent 'e') (by decide)
  have same : sampleEvent 'd' = sampleEvent 'e' := by
    refine @OneEnvelope.accepted _ oneEnvelope (sampleEvent 'c') _ _ ?_ ?_
    all_goals rw [accepted]
    · exact List.mem_cons_self
    · exact List.mem_cons_of_mem _ List.mem_cons_self
  exact absurd same (by decide)

end Nvoy.Broker
