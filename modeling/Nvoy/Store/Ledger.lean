/-
The accepted-write ledger: its records, the reader and the fold.

A ledger is a file of JSON lines. `readLedger` cuts it back to its complete lines and accepts them
one after the other; `foldLedger` says which events the lines leave expected and which purged.

* `ledgerLine`, `Payload` — the lines the store writes.
* `Chain` — lines the reader accepts, each at its place.
* `Chain.snoc_ledgerLine` — a line the store writes next is accepted.
* `readLedger_prefix` — from any prefix of the file of a chain the reader returns its first lines,
  as many as are complete, and the bytes a repair keeps are those of these lines.
-/

import Nvoy.Lib.JsSet
import Nvoy.Lib.Lines
import Nvoy.Lib.Utf8
import Nvoy.Memory.Claim

namespace Nvoy.Store

open Lines Memory

/-! ### Records -/

structure HiveMemoryError where
  code : String
  message : String
  deriving DecidableEq, Repr

inductive LedgerOp where
  | init
  | cutover
  | submit
  | purge
  | restoreGapAck
  deriving DecidableEq, Repr

def LedgerOp.text : LedgerOp → String
  | .init => "init"
  | .cutover => "cutover"
  | .submit => "submit"
  | .purge => "purge"
  | .restoreGapAck => "restore-gap-ack"

/-- `LEDGER_OPS` -/
def LEDGER_OPS : List LedgerOp := [.init, .cutover, .submit, .purge, .restoreGapAck]

def LedgerOp.ofText (text : String) : Option LedgerOp := LEDGER_OPS.find? fun op => op.text = text

/-- The two ops a ledger begins with. -/
def LedgerOp.isGenesis (op : LedgerOp) : Bool := op = .init || op = .cutover

theorem LedgerOp.eq_init (op : LedgerOp) (genesis : op.isGenesis = true) (other : op ≠ .cutover) :
    op = .init := by
  cases op with
  | init => rfl
  | cutover => exact absurd rfl other
  | submit => nomatch genesis
  | purge => nomatch genesis
  | restoreGapAck => nomatch genesis

/-- What the store reads of a ledger record: `ids` are the events its op names. -/
structure Record where
  seq : Nat
  op : LedgerOp
  storeId : String
  ids : List String
  deriving DecidableEq, Repr

/-- The text a template writes for a value. -/
def display : Option Json → String
  | none => "undefined"
  | some (.str text) => text
  | some (.obj _) => "[object Object]"
  | some value => Json.stringify value

/-- The property that holds the events of an op. -/
def LedgerOp.ids (op : LedgerOp) (rec : Json) : Option (List String) :=
  match op with
  | .submit => ((rec.get "id").bind Json.string).map fun id => [id]
  | .purge => ((rec.get "purged_ids").bind Json.items).bind fun ids => ids.mapM Json.string
  | .restoreGapAck => ((rec.get "acked_ids").bind Json.items).bind fun ids => ids.mapM Json.string
  | .init | .cutover => ((rec.get "event_ids").bind Json.items).bind fun ids => ids.mapM Json.string

/-- `ledgerShapeError`: the record, or what is wrong with it at that place of the ledger. -/
def ledgerShape (rec : Json) (index : Nat) (storeId : Option String) : Except String Record := do
  ensure rec.isObj "not an object"
  ensure ((rec.get "seq").bind Json.integer = some (Int.ofNat (index + 1)))
    ("seq " ++ display (rec.get "seq") ++ " where " ++ toString (index + 1) ++ " was expected")
  let op ← require (((rec.get "op").bind Json.string).bind LedgerOp.ofText)
    ("unknown op " ++ display (rec.get "op"))
  let recStoreId ← require (((rec.get "store_id").bind Json.string).filter (· ≠ ""))
    "missing store_id"
  ensure (index = 0 || some recStoreId = storeId) "store_id changes mid-ledger"
  ensure (decide (index = 0) = op.isGenesis) "init and cutover come first, and only first"
  let ids ← require ((op.ids rec).filter fun ids => ids.all isHex64) "malformed event ids"
  ensure (op ≠ .init || ids = []) "init carries event ids"
  .ok ⟨index + 1, op, recStoreId, ids⟩

/-! ### The lines the store writes -/

/-- What one line says beside its number, its store and its time. -/
inductive Payload where
  | init
  | cutover (eventIds : List String)
  | submit (id pubkey d scope : String) (status : Status)
  | purge (purgedIds : List String) (reason : String)
  | restoreGapAck (ackedIds : List String)
  deriving DecidableEq, Repr

namespace Payload

def op : Payload → LedgerOp
  | init => .init
  | cutover _ => .cutover
  | submit .. => .submit
  | purge .. => .purge
  | restoreGapAck _ => .restoreGapAck

def ids : Payload → List String
  | init => []
  | cutover eventIds => eventIds
  | submit id .. => [id]
  | purge purgedIds _ => purgedIds
  | restoreGapAck ackedIds => ackedIds

def fields : Payload → List (String × Json)
  | init => [("event_ids", .arr [])]
  | cutover eventIds => [("event_ids", .arr (eventIds.map .str))]
  | submit id pubkey d scope status =>
      [("id", .str id), ("pubkey", .str pubkey), ("d", .str d), ("scope", .str scope),
        ("status", .str status.text)]
  | purge purgedIds reason => [("purged_ids", .arr (purgedIds.map .str)), ("reason", .str reason)]
  | restoreGapAck ackedIds => [("acked_ids", .arr (ackedIds.map .str))]

end Payload

def ledgerJson (seq : Nat) (storeId : String) (payload : Payload) (nowSec : Int) : Json :=
  .obj ([("seq", .num seq 0), ("op", .str payload.op.text), ("store_id", .str storeId)] ++
    payload.fields ++ [("at", .num nowSec 0)])

/-- The line of one write. -/
def ledgerLine (seq : Nat) (storeId : String) (payload : Payload) (nowSec : Int) : String :=
  Json.stringify (ledgerJson seq storeId payload nowSec)

/-- What the line of a write says to a reader. -/
def Payload.record (payload : Payload) (seq : Nat) (storeId : String) : Record :=
  ⟨seq, payload.op, storeId, payload.ids⟩

/-! ### The fold -/

structure Fold where
  storeId : Option String
  maxSeq : Nat
  expected : JsSet String
  purged : JsSet String
  lastPurgeSeq : Nat
  lastRaw : Option String

def Fold.start : Fold := ⟨none, 0, .empty, .empty, 0, none⟩

def applyLedgerRecord (fold : Fold) (rec : Record) : Fold :=
  let fold := { fold with storeId := fold.storeId <|> some rec.storeId, maxSeq := rec.seq }
  match rec.op with
  | .init => fold
  | .cutover | .submit => { fold with expected := rec.ids.foldl .add fold.expected }
  | .purge =>
      { fold with
        expected := rec.ids.foldl .delete fold.expected
        purged := rec.ids.foldl .add fold.purged
        lastPurgeSeq := rec.seq }
  | .restoreGapAck => { fold with expected := rec.ids.foldl .delete fold.expected }

/-- One line of a ledger, as text and as a record. -/
structure Line where
  raw : String
  record : Record
  deriving DecidableEq, Repr

def foldStep (fold : Fold) (line : Line) : Fold :=
  { applyLedgerRecord fold line.record with lastRaw := some line.raw }

def foldLedger (lines : List Line) : Fold := lines.foldl foldStep .start

/-! ### Reading -/

structure LedgerRead where
  missing : Bool
  lines : List Line
  /-- What a repair leaves of the file. -/
  kept : List UInt8
  truncated : Bool
  deriving DecidableEq

/-- The complete lines of a ledger, accepted one after the other. `tail` says whether anything
follows the last of them; if nothing does, a last line that is not JSON is a torn one. -/
def readLines (tail : Bool) : Nat → Option String → List (List UInt8) →
    Except HiveMemoryError (List Line)
  | _, _, [] => .ok []
  | index, storeId, segment :: segments =>
      match Json.parse (utf8Decode segment).toList with
      | none =>
          if segments.isEmpty && !tail then .ok []
          else .error ⟨"LEDGER_CORRUPT", "ledger line " ++ toString (index + 1) ++ " is not JSON"⟩
      | some json =>
          match ledgerShape json index storeId with
          | .error bad =>
              .error ⟨"LEDGER_CORRUPT", "ledger line " ++ toString (index + 1) ++ ": " ++ bad⟩
          | .ok record => do
              let lines ← readLines tail (index + 1) (storeId <|> some record.storeId) segments
              .ok (⟨utf8Decode segment, record⟩ :: lines)

/-- `readLedger`; a file that does not exist is `none`. -/
def readLedger : Option (List UInt8) → Except HiveMemoryError LedgerRead
  | none => .ok ⟨true, [], [], false⟩
  | some buf => do
      let (complete, tail) := segments newline buf
      let lines ← readLines (!tail.isEmpty) 0 none complete
      let kept := joinLines newline (complete.take lines.length)
      .ok ⟨false, lines, kept, kept.length < buf.length⟩

/-- The bytes of a file of lines. -/
def fileBytes (lines : List Line) : List UInt8 := joinLines newline (lines.map fun line => utf8 line.raw)

/-- The bytes an append writes: the line, or lines joined by line breaks, and one more. -/
def appendBytes (line : String) : List UInt8 := utf8 line ++ [newline]

/-! ### Chains -/

/-- The line is accepted at that place, under that store. -/
structure Accepted (index : Nat) (storeId : Option String) (line : Line) : Prop where
  clean : '\n' ∉ line.raw.toList
  reads : ∃ json, Json.parse line.raw.toList = some json ∧
    ledgerShape json index storeId = .ok line.record

/-- Lines accepted one after the other, the first at `index`. -/
def ChainFrom : Nat → Option String → List Line → Prop
  | _, _, [] => True
  | index, storeId, line :: lines =>
      Accepted index storeId line ∧ ChainFrom (index + 1) (storeId <|> some line.record.storeId) lines

/-- A well-formed ledger. -/
def Chain (lines : List Line) : Prop := ChainFrom 0 none lines

/-- The store a ledger belongs to. -/
def storeOf (lines : List Line) : Option String := lines.head?.map fun line => line.record.storeId

section Chains

variable {index : Nat} {storeId : Option String} {lines more : List Line} {line : Line}

theorem chainFrom_append : ChainFrom index storeId (lines ++ more) ↔
    ChainFrom index storeId lines ∧
      ChainFrom (index + lines.length) (storeId <|> storeOf lines) more := by
  induction lines generalizing index storeId with
  | nil => simp [ChainFrom, storeOf]
  | cons line lines ih =>
      rw [List.cons_append, ChainFrom, ChainFrom, ih, and_assoc]
      have place : index + 1 + lines.length = index + (line :: lines).length := by
        rw [List.length_cons]
        omega
      have store : ((storeId <|> some line.record.storeId) <|> storeOf lines) =
          (storeId <|> storeOf (line :: lines)) := by
        cases storeId <;> rfl
      rw [place, store]

theorem chain_snoc : Chain (lines ++ [line]) ↔
    Chain lines ∧ Accepted lines.length (storeOf lines) line := by
  rw [Chain, chainFrom_append]
  simp [ChainFrom, Chain]

theorem Chain.take (chain : Chain lines) (count : Nat) : Chain (lines.take count) := by
  rw [← List.take_append_drop count lines] at chain
  exact (chainFrom_append.mp chain).1

theorem Chain.clean (chain : Chain lines) (member : line ∈ lines) : '\n' ∉ line.raw.toList := by
  obtain ⟨before, after, rfl⟩ := List.append_of_mem member
  exact (chainFrom_append.mp chain).2.1.clean

theorem Chain.newline_notMem (chain : Chain lines) :
    ∀ bytes ∈ lines.map fun line => utf8 line.raw, newline ∉ bytes := by
  intro bytes member
  obtain ⟨line, inside, rfl⟩ := List.mem_map.mp member
  exact newline_notMem_utf8 (chain.clean inside)

/-- An accepted line carries its own place, and the store of the lines before it. -/
theorem Accepted.record_eq (accepted : Accepted index storeId line) :
    line.record.seq = index + 1 ∧ (index = 0 ∨ some line.record.storeId = storeId) ∧
      (index = 0 ↔ line.record.op.isGenesis = true) ∧ (∀ id ∈ line.record.ids, isHex64 id = true) ∧
      line.record.storeId ≠ "" := by
  obtain ⟨json, -, shape⟩ := accepted.reads
  unfold ledgerShape at shape
  simp only [bind_eq_ok, ensure_eq_ok, require_eq_ok, exists_const, Bool.or_eq_true,
    decide_eq_true_eq] at shape
  obtain ⟨-, -, op, -, store, named, same, genesis, ids, hex, -, built⟩ := shape
  rw [← Except.ok.inj built]
  refine ⟨rfl, same, ?_, ?_, ?_⟩
  · rw [← genesis, decide_eq_true_iff]
  · exact fun id member => List.all_eq_true.mp (Option.filter_eq_some_iff.mp hex).2 id member
  · exact of_decide_eq_true (Option.filter_eq_some_iff.mp named).2

theorem Accepted.init_ids (accepted : Accepted index storeId line) (op : line.record.op = .init) :
    line.record.ids = [] := by
  obtain ⟨json, -, shape⟩ := accepted.reads
  unfold ledgerShape at shape
  simp only [bind_eq_ok, ensure_eq_ok, require_eq_ok, exists_const] at shape
  obtain ⟨-, -, kind, -, store, -, -, -, ids, -, none, built⟩ := shape
  rw [← Except.ok.inj built] at op ⊢
  simpa [show kind = .init from op] using none

/-- The lines of a chain, read back from their bytes. -/
theorem readLines_chain (tail : Bool) (chain : ChainFrom index storeId lines) :
    readLines tail index storeId (lines.map fun line => utf8 line.raw) = .ok lines := by
  induction lines generalizing index storeId with
  | nil => rfl
  | cons line lines ih =>
      obtain ⟨⟨-, json, parsed, shape⟩, rest⟩ := chain
      rw [List.map_cons, readLines, utf8Decode_utf8, parsed]
      dsimp only
      rw [shape]
      dsimp only
      rw [ih rest]
      rfl

/-- What a repair keeps of any prefix of the file of a chain: its first lines, all those the prefix
holds whole. -/
theorem readLedger_prefix {file : List UInt8} (chain : Chain lines) (inside : file <+: fileBytes lines) :
    ∃ count, count ≤ lines.length ∧
      readLedger (some file) =
        .ok ⟨false, lines.take count, fileBytes (lines.take count),
          (fileBytes (lines.take count)).length < file.length⟩ ∧
      fileBytes (lines.take count) <+: file ∧
      ∀ landed ≤ lines.length, fileBytes (lines.take landed) <+: file → landed ≤ count := by
  obtain ⟨count, torn, cut⟩ := cut_of_prefix newline inside
  have bounded : count ≤ lines.length := by simpa using cut.bounded
  have complete : (lines.map fun line => utf8 line.raw).take count =
      (lines.take count).map fun line => utf8 line.raw := List.map_take.symm
  have split := cut.segments_eq chain.newline_notMem
  rw [complete] at split
  have whole : (lines.take count).length = count := by
    rw [List.length_take, min_eq_left bounded]
  refine ⟨count, bounded, ?_, ?_, ?_⟩
  · rw [readLedger]
    dsimp only
    rw [split]
    dsimp only
    rw [readLines_chain _ (chain.take count)]
    change Except.ok _ = _
    have all : ((lines.take count).map fun line => utf8 line.raw).take (lines.take count).length =
        (lines.take count).map fun line => utf8 line.raw :=
      List.take_of_length_le (by rw [List.length_map])
    rw [all]
    rfl
  · rw [cut.split, complete]
    exact List.prefix_append _ _
  · intro landed inRange kept
    refine cut.le_of_joinLines_prefix chain.newline_notMem (by simpa using inRange) ?_
    rwa [fileBytes, List.map_take] at kept

/-- The file of a chain is read back whole. -/
theorem readLedger_fileBytes (chain : Chain lines) :
    readLedger (some (fileBytes lines)) = .ok ⟨false, lines, fileBytes lines, false⟩ := by
  obtain ⟨count, bounded, read, -, all⟩ := readLedger_prefix chain List.prefix_rfl
  have full : lines.take count = lines := List.take_of_length_le
    (all lines.length le_rfl (by rw [List.take_length]))
  rw [read, full]
  simp

end Chains

/-! ### The lines the store writes are accepted -/

section Written

theorem mapM_string (ids : List String) : (ids.map Json.str).mapM Json.string = some ids := by
  induction ids with
  | nil => rfl
  | cons id ids ih => simp [List.mapM_cons, ih, Json.string]

variable {index : Nat} {storeId : String} {payload : Payload} {nowSec : Int}

theorem Payload.get_seq : (ledgerJson (index + 1) storeId payload nowSec).get "seq" =
    some (.num (index + 1) 0) := by
  cases payload <;> rfl

theorem Payload.get_op : (ledgerJson index storeId payload nowSec).get "op" =
    some (.str payload.op.text) := by
  cases payload <;> rfl

theorem Payload.get_store : (ledgerJson index storeId payload nowSec).get "store_id" =
    some (.str storeId) := by
  cases payload <;> rfl

theorem Payload.get_ids :
    payload.op.ids (ledgerJson index storeId payload nowSec) = some payload.ids := by
  cases payload with
  | init => rfl
  | submit id pubkey d scope status => rfl
  | cutover ids => exact mapM_string ids
  | purge ids reason => exact mapM_string ids
  | restoreGapAck ids => exact mapM_string ids

/-- The line of a write is accepted at its place. -/
theorem accepted_ledgerLine {owner : Option String} (named : storeId ≠ "")
    (hex : ∀ id ∈ payload.ids, isHex64 id = true) (same : index = 0 ∨ some storeId = owner)
    (place : index = 0 ↔ payload.op.isGenesis = true) :
    Accepted index owner
      ⟨ledgerLine (index + 1) storeId payload nowSec, payload.record (index + 1) storeId⟩ where
  clean := Json.newline_notMem_stringify _
  reads := by
    refine ⟨_, Json.parse_stringify _, ?_⟩
    have known : LedgerOp.ofText payload.op.text = some payload.op := by
      cases payload.op <;> decide
    have empty : payload.op ≠ .init ∨ payload.ids = [] := by
      cases payload <;> simp [Payload.op, Payload.ids]
    unfold ledgerShape
    simp only [bind_eq_ok, ensure_eq_ok, require_eq_ok, exists_const]
    refine ⟨rfl, ?_, payload.op, ?_, storeId, ?_, ?_, ?_, payload.ids, ?_, ?_, rfl⟩
    · rw [Payload.get_seq]
      simp [Json.integer]
    · rw [Payload.get_op]
      exact known
    · rw [Payload.get_store]
      simp [Json.string, named]
    · simpa using same
    · rw [decide_eq_true_iff, Bool.eq_iff_iff, decide_eq_true_iff]
      exact place
    · rw [Payload.get_ids]
      simpa [List.all_eq_true] using hex
    · simpa using empty

end Written

end Nvoy.Store
