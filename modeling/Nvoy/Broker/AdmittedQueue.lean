/-
**The readers of the admitted queue**: `tasks` of `claude-channel.mjs` and `lineFollower` of
`admitted_queue.mjs`.

The queue is a file of JSON lines that only grows. One reader takes all of it at once and throws at
the first line it does not accept; the other reads what was added since its last read, in chunks,
and drops a line over its bound.

* `tasks_rows` — a file of accepted rows is read whole;
* `read_placed` — what a read adds, wherever the last one stopped;
* `follow_rows` — over any growing reads of a file of rows, each row is yielded once, in order.
-/

import Nvoy.Broker.AdmittedTask
import Nvoy.Lib.Lines
import Mathlib.Data.List.Chain
import Mathlib.Data.List.TakeWhile

namespace Nvoy.Broker

open Lines
open Memory (trim isJsSpace)

def MAX_RECORD : Nat := 1024 * 1024

def MAX_FILE : Nat := 64 * 1024 * 1024

/-- `Buffer.byteLength` of a line. -/
def byteLength (line : List Char) : Nat := (utf8 (String.ofList line)).length

/-! ### All at once -/

section Tasks

variable (manifest : Manifest)

def taskOf (line : List Char) : Except String Json := do
  ensure (byteLength line ≤ MAX_RECORD) "admitted record exceeds its 1 MiB bound"
  let record ← require (Json.parse line) "admitted queue contains malformed JSON"
  let _ ← validateDesktopDelivery manifest record
  return record

/-- `tasks`, of a queue that is there. -/
def tasks (queue : List UInt8) : Except String (List Json) := do
  ensure (queue.length ≤ MAX_FILE) "admitted queue exceeds its 64 MiB bound"
  (((utf8Decode queue).toList.splitOn '\n').filter (· ≠ [])).mapM (taskOf manifest)

end Tasks

/-! ### As it grows -/

/-- `lineFollower`, between two reads. -/
structure Follower where
  offset : Nat
  /-- `partial` -/
  part : List Char
  skipping : Bool
  decoder : Utf8State

namespace Follower

def start : Follower := ⟨0, [], false, .idle⟩

/-- A line is passed on if it is not blank and within the bound. -/
def shown (line : List Char) : Bool :=
  trim (String.ofList line) ≠ "" && byteLength line ≤ MAX_RECORD

/-- One chunk of the file. -/
def take (st : Follower) (chunk : List UInt8) : List (List Char) × Follower :=
  let run := utf8Run st.decoder chunk
  let parts := segments '\n' (st.part ++ run.1)
  let lines := (if st.skipping then parts.1.drop 1 else parts.1).filter shown
  if MAX_RECORD < byteLength parts.2 then
    (lines, ⟨st.offset + chunk.length, [], true, run.2⟩)
  else (lines, ⟨st.offset + chunk.length, parts.2, st.skipping && parts.1 = [], run.2⟩)

/-- The loop of one read, with a buffer of that size. -/
def loop (buffer : Nat) (file : List UInt8) : Nat → Follower → List (List Char) × Follower
  | 0, st => ([], st)
  | fuel + 1, st =>
      if st.offset < file.length then
        let taken := st.take ((file.drop st.offset).take (min buffer (file.length - st.offset)))
        let more := loop buffer file fuel taken.2
        (taken.1 ++ more.1, more.2)
      else ([], st)

/-- One read: the lines since the last one, and whether the file had shrunk. -/
def read (st : Follower) (file : List UInt8) :
    Except String (List (List Char) × Bool × Follower) := do
  ensure (file.length ≤ MAX_FILE) "admitted queue exceeds its 64 MiB bound"
  let reset : Bool := file.length < st.offset
  let st := if reset then start else st
  let more := loop (min (file.length - st.offset) MAX_RECORD) file (file.length - st.offset) st
  return (more.1, reset, more.2)

/-- Reads of one file after another: every line that was passed on. -/
def follow : Follower → List (List UInt8) → Except String (List (List Char))
  | _, [] => .ok []
  | st, file :: files => do
      let (lines, _, next) ← st.read file
      let more ← follow next files
      return lines ++ more

/-! ### Where a read stops -/

/-- The follower that has read these bytes, none of them skipped. -/
def placed (bytes : List UInt8) : Follower :=
  ⟨bytes.length, (segments '\n' (utf8Run .idle bytes).1).2, false, (utf8Run .idle bytes).2⟩

/-- The complete lines among the bytes, as far as they are passed on. -/
def linesOf (bytes : List UInt8) : List (List Char) :=
  (segments '\n' (utf8Run .idle bytes).1).1.filter shown

/-- Wherever a read stops, the line it is in is within the bound. -/
def ShortParts (file : List UInt8) : Prop :=
  ∀ bytes, bytes <+: file → byteLength (segments '\n' (utf8Run .idle bytes).1).2 ≤ MAX_RECORD

theorem ShortParts.of_prefix {front file : List UInt8} (short : ShortParts file)
    (inside : front <+: file) : ShortParts front :=
  fun bytes before => short bytes (before.trans inside)

theorem start_eq : start = placed [] := rfl

theorem take_placed {bytes chunk : List UInt8} (short : ShortParts (bytes ++ chunk)) :
    ∃ lines, (placed bytes).take chunk = (lines, placed (bytes ++ chunk)) ∧
      linesOf (bytes ++ chunk) = linesOf bytes ++ lines := by
  have within := short _ (List.prefix_refl _)
  have parts : segments '\n' (utf8Run .idle (bytes ++ chunk)).1 =
      ((segments '\n' (utf8Run .idle bytes).1).1 ++ (segments '\n' ((placed bytes).part ++
        (utf8Run (placed bytes).decoder chunk).1)).1, (segments '\n' ((placed bytes).part ++
        (utf8Run (placed bytes).decoder chunk).1)).2) := by
    rw [utf8Run_append, segments_append]
    rfl
  refine ⟨(segments '\n' ((placed bytes).part ++
    (utf8Run (placed bytes).decoder chunk).1)).1.filter shown, ?_, ?_⟩
  · rw [parts] at within
    unfold take
    dsimp only
    rw [if_neg (Nat.not_lt.mpr within)]
    unfold placed
    rw [parts, utf8Run_append, List.length_append]
    rfl
  · rw [linesOf, parts, List.filter_append]
    rfl

theorem loop_placed (buffer : Nat) (some : 0 < buffer) {bytes rest : List UInt8}
    (short : ShortParts (bytes ++ rest)) {fuel : Nat} (enough : rest.length ≤ fuel) :
    ∃ lines, loop buffer (bytes ++ rest) fuel (placed bytes) = (lines, placed (bytes ++ rest)) ∧
      linesOf (bytes ++ rest) = linesOf bytes ++ lines := by
  induction fuel generalizing bytes rest with
  | zero =>
      obtain rfl := List.eq_nil_of_length_eq_zero (Nat.le_zero.mp enough)
      exact ⟨[], by rw [List.append_nil]; rfl, by rw [List.append_nil, List.append_nil]⟩
  | succ fuel ih =>
      have place : (placed bytes).offset = bytes.length := rfl
      by_cases done : rest = []
      · subst done
        refine ⟨[], ?_, by rw [List.append_nil, List.append_nil]⟩
        rw [loop, place, List.append_nil, if_neg (Nat.lt_irrefl _)]
      · have more := List.length_pos_of_ne_nil done
        have size : (bytes ++ rest).length - bytes.length = rest.length := by
          rw [List.length_append]
          omega
        have chunk : ((bytes ++ rest).drop bytes.length).take (min buffer rest.length) =
            rest.take (min buffer rest.length) := by
          rw [List.drop_left]
        have split : bytes ++ rest = (bytes ++ rest.take (min buffer rest.length)) ++
            rest.drop (min buffer rest.length) := by
          rw [List.append_assoc, List.take_append_drop]
        obtain ⟨first, took, added⟩ := take_placed (short.of_prefix
          (split ▸ List.prefix_append (bytes ++ rest.take (min buffer rest.length)) _))
        obtain ⟨others, looped, added'⟩ := ih (split ▸ short) (by rw [List.length_drop]; omega)
        refine ⟨first ++ others, ?_, ?_⟩
        · rw [loop, place, size, chunk, if_pos (by rw [List.length_append]; omega), took]
          dsimp only
          rw [split, looped]
        · rw [split, added', added, List.append_assoc]

/-- **What a read adds**, wherever the last one stopped. -/
theorem read_placed {bytes rest : List UInt8} (short : ShortParts (bytes ++ rest))
    (small : (bytes ++ rest).length ≤ MAX_FILE) :
    ∃ lines, (placed bytes).read (bytes ++ rest) = .ok (lines, false, placed (bytes ++ rest)) ∧
      linesOf (bytes ++ rest) = linesOf bytes ++ lines := by
  have place : (placed bytes).offset = bytes.length := rfl
  have size : (bytes ++ rest).length - bytes.length = rest.length := by
    rw [List.length_append]
    omega
  have grown : decide ((bytes ++ rest).length < bytes.length) = false := by simp
  have once : (placed bytes).read (bytes ++ rest) =
      .ok ((loop (min rest.length MAX_RECORD) (bytes ++ rest) rest.length (placed bytes)).1, false,
        (loop (min rest.length MAX_RECORD) (bytes ++ rest) rest.length (placed bytes)).2) := by
    unfold read
    rw [ensure_of (by simpa using small), ok_bind, place]
    simp only [grown, Bool.false_eq_true, if_false, place, size]
    rfl
  by_cases done : rest = []
  · subst done
    refine ⟨[], ?_, by rw [List.append_nil, List.append_nil]⟩
    rw [once, List.append_nil]
    rfl
  · have more := List.length_pos_of_ne_nil done
    obtain ⟨lines, looped, added⟩ := loop_placed (min rest.length MAX_RECORD)
      (by rw [MAX_RECORD]; omega) short (Nat.le_refl _)
    exact ⟨lines, by rw [once, looped], added⟩

/-- Reads of a growing file pass on its complete lines. -/
theorem follow_placed {file : List UInt8} (short : ShortParts file) (small : file.length ≤ MAX_FILE)
    (reads : List (List UInt8)) {bytes : List UInt8} (begun : bytes <+: file)
    (inside : ∀ later ∈ reads, later <+: file)
    (grows : (bytes :: reads).IsChain (· <+: ·)) :
    ∃ lines, follow (placed bytes) reads = .ok lines ∧
      linesOf ((bytes :: reads).getLast (List.cons_ne_nil _ _)) = linesOf bytes ++ lines := by
  induction reads generalizing bytes with
  | nil => exact ⟨[], rfl, (List.append_nil _).symm⟩
  | cons later reads ih =>
      obtain ⟨⟨rest, rfl⟩, chain⟩ := List.isChain_cons_cons.mp grows
      have before := inside _ (List.mem_cons_self ..)
      obtain ⟨first, read, added⟩ :=
        read_placed (short.of_prefix before) (before.length_le.trans small)
      obtain ⟨others, followed, added'⟩ :=
        ih before (fun later mem => inside later (List.mem_cons_of_mem _ mem)) chain
      refine ⟨first ++ others, ?_, ?_⟩
      · rw [follow, read, ok_bind]
        dsimp only
        rw [followed]
        rfl
      · rw [List.getLast_cons (List.cons_ne_nil _ _), added', added, List.append_assoc]

end Follower

/-! ### Files of rows -/

/-- The line of a row. -/
def rowLine (row : Json) : List UInt8 := utf8 (Json.stringify row) ++ [newline]

/-- The file of the rows. -/
def rowsFile (rows : List Json) : List UInt8 := rows.flatMap rowLine

/-- A row that both readers take: accepted, and short enough. -/
structure Row (manifest : Manifest) (row : Json) : Prop where
  accepted : ∃ delivery, validateDesktopDelivery manifest row = .ok delivery
  short : byteLength (Json.render row) ≤ MAX_RECORD

section Rows

variable {manifest : Manifest} {rows : List Json}

theorem utf8_ofList (chars : List Char) :
    utf8 (String.ofList chars) = chars.flatMap String.utf8EncodeChar := by
  rw [utf8, String.toList_ofList]

theorem rowsFile_eq (rows : List Json) :
    rowsFile rows = utf8 (String.ofList (joinLines '\n' (rows.map Json.render))) := by
  rw [utf8_ofList]
  induction rows with
  | nil => rfl
  | cons row rows ih =>
      rw [rowsFile, List.flatMap_cons, List.map_cons, joinLines_cons, List.flatMap_append,
        List.flatMap_cons, ← ih, rowLine, Json.stringify, utf8_ofList, List.append_assoc]
      rfl

theorem isObj_of_accepted {row : Json} {delivery : Delivery}
    (accepted : validateDesktopDelivery manifest row = .ok delivery) : row.isObj = true := by
  unfold validateDesktopDelivery at accepted
  split at accepted
  · obtain ⟨notice, valid, -⟩ := bind_eq_ok.mp accepted
    obtain ⟨_, object, -⟩ := bind_eq_ok.mp valid
    exact ensure_eq_ok.mp object
  · obtain ⟨authority, valid, -⟩ := bind_eq_ok.mp accepted
    obtain ⟨_, object, -⟩ := bind_eq_ok.mp valid
    exact ensure_eq_ok.mp object

/-- The line of an object opens with a brace. -/
theorem render_of_isObj {row : Json} (object : row.isObj = true) :
    ∃ rest, Json.render row = '{' :: rest := by
  cases row with
  | obj fields =>
      cases fields with
      | nil => exact ⟨_, rfl⟩
      | cons field fields => exact ⟨_, rfl⟩
  | _ => cases object

theorem trim_ne_empty {first : Char} {rest : List Char} (solid : isJsSpace first = false) :
    trim (String.ofList (first :: rest)) ≠ "" := by
  intro empty
  have chars := congrArg String.toList empty
  rw [trim, String.toList_ofList, String.toList_ofList, List.dropWhile_cons_of_neg (by simp [solid])]
    at chars
  have blank := List.dropWhile_eq_nil_iff.mp (List.reverse_eq_nil_iff.mp chars) first (by simp)
  rw [solid] at blank
  cases blank

theorem Row.shown {row : Json} (valid : Row manifest row) :
    Follower.shown (Json.render row) = true := by
  obtain ⟨delivery, accepted⟩ := valid.accepted
  obtain ⟨rest, line⟩ := render_of_isObj (isObj_of_accepted accepted)
  rw [Follower.shown, Bool.and_eq_true, decide_eq_true_eq, decide_eq_true_eq]
  refine ⟨?_, valid.short⟩
  rw [line]
  exact trim_ne_empty (by decide)

theorem newline_notMem_rows (rows : List Json) : ∀ line ∈ rows.map Json.render, '\n' ∉ line := by
  intro line mem
  obtain ⟨row, -, rfl⟩ := List.mem_map.mp mem
  exact Json.newline_notMem_render row

/-- A file of rows is its lines. -/
theorem utf8Decode_rowsFile (rows : List Json) :
    (utf8Decode (rowsFile rows)).toList = joinLines '\n' (rows.map Json.render) := by
  rw [rowsFile_eq, utf8Decode_utf8, String.toList_ofList]

theorem utf8Decode_rowLine (row : Json) :
    (utf8Decode (rowLine row)).toList = Json.render row ++ ['\n'] := by
  have file : rowsFile [row] = rowLine row := List.append_nil _
  rw [← file, utf8Decode_rowsFile]
  simp [joinLines]

theorem splitOn_rowsFile (rows : List Json) :
    (utf8Decode (rowsFile rows)).toList.splitOn '\n' = rows.map Json.render ++ [[]] := by
  have split := splitOn_joinLines '\n' (newline_notMem_rows rows) (List.not_mem_nil (a := '\n'))
  rw [List.append_nil] at split
  rw [utf8Decode_rowsFile, split]

/-- **A file of accepted rows is read whole.** -/
theorem tasks_rows (valid : ∀ row ∈ rows, Row manifest row)
    (small : (rowsFile rows).length ≤ MAX_FILE) : tasks manifest (rowsFile rows) = .ok rows := by
  have lines := splitOn_rowsFile rows
  have each : ∀ row ∈ rows, taskOf manifest (Json.render row) = .ok row := by
    intro row mem
    obtain ⟨delivery, accepted⟩ := (valid row mem).accepted
    unfold taskOf
    rw [ensure_of (by simpa using (valid row mem).short), ok_bind, Json.parse_render]
    show validateDesktopDelivery manifest row >>= _ = _
    rw [accepted]
    rfl
  have solid : ∀ line ∈ rows.map Json.render, line ≠ [] := by
    intro line mem
    obtain ⟨row, listed, rfl⟩ := List.mem_map.mp mem
    obtain ⟨delivery, accepted⟩ := (valid row listed).accepted
    obtain ⟨rest, line⟩ := render_of_isObj (isObj_of_accepted accepted)
    rw [line]
    exact List.cons_ne_nil _ _
  unfold tasks
  rw [ensure_of (by simpa using small), ok_bind, lines, List.filter_append,
    List.filter_eq_self.mpr (by simpa using solid)]
  show (rows.map Json.render ++ []).mapM (taskOf manifest) = .ok rows
  rw [List.append_nil]
  clear small lines solid valid
  induction rows with
  | nil => rfl
  | cons row rows ih =>
      rw [List.map_cons, List.mapM_cons, each row (List.mem_cons_self ..), ok_bind,
        ih fun row mem => each row (List.mem_cons_of_mem _ mem)]
      rfl

/-- What a read has of the file is its first rows, and a front of the next line. -/
theorem shortParts_rows (valid : ∀ row ∈ rows, Row manifest row) :
    Follower.ShortParts (rowsFile rows) := by
  rintro bytes ⟨rest, whole⟩
  have text := utf8Run_utf8 (String.ofList (joinLines '\n' (rows.map Json.render)))
  rw [← rowsFile_eq, ← whole, utf8Run_append, String.toList_ofList, Prod.mk.injEq] at text
  obtain ⟨count, torn, cut⟩ := cut_of_prefix '\n' ⟨_, text.1⟩
  have clean := newline_notMem_rows rows
  rw [cut.segments_eq clean]
  rcases cut.within with rfl | ⟨line, next, inside⟩
  · exact Nat.zero_le _
  · obtain ⟨row, mem, rfl⟩ := List.mem_map.mp (List.mem_of_getElem? next)
    obtain ⟨tail, same⟩ := inside
    have short := (valid row mem).short
    rw [← same, byteLength, String.ofList_append, utf8_append, List.length_append] at short
    show (utf8 (String.ofList torn)).length ≤ MAX_RECORD
    omega

theorem linesOf_rows (valid : ∀ row ∈ rows, Row manifest row) :
    Follower.linesOf (rowsFile rows) = rows.map Json.render := by
  have split := segments_joinLines '\n' (newline_notMem_rows rows) (List.not_mem_nil (a := '\n'))
  rw [List.append_nil] at split
  rw [Follower.linesOf, rowsFile_eq, utf8Run_utf8, String.toList_ofList, split]
  refine List.filter_eq_self.mpr fun line mem => ?_
  obtain ⟨row, listed, rfl⟩ := List.mem_map.mp mem
  exact (valid row listed).shown

/-- **Every row is followed**: reads of a growing file of accepted rows pass on each row once. -/
theorem follow_rows (valid : ∀ row ∈ rows, Row manifest row)
    (small : (rowsFile rows).length ≤ MAX_FILE) {reads : List (List UInt8)}
    (inside : ∀ later ∈ reads, later <+: rowsFile rows) (grows : reads.IsChain (· <+: ·)) :
    Follower.follow .start (reads ++ [rowsFile rows]) = .ok (rows.map Json.render) := by
  have chain : ([] :: (reads ++ [rowsFile rows])).IsChain (· <+: ·) := by
    have joined : (reads ++ [rowsFile rows]).IsChain (· <+: ·) :=
      List.isChain_append.mpr ⟨grows, List.isChain_singleton _, fun last mem next mem' => by
        obtain rfl : rowsFile rows = next := by simpa using mem'
        exact inside last (List.mem_of_mem_getLast? mem)⟩
    exact List.isChain_cons.mpr ⟨fun later _ => List.nil_prefix, joined⟩
  obtain ⟨lines, followed, added⟩ := Follower.follow_placed (shortParts_rows valid) small
    (reads ++ [rowsFile rows]) List.nil_prefix (fun later mem => by
      rcases List.mem_append.mp mem with early | last
      · exact inside later early
      · rw [List.mem_singleton.mp last]) chain
  rw [List.getLast_cons (by simp), List.getLast_append_singleton, linesOf_rows valid] at added
  rw [Follower.start_eq, followed, added]
  rfl

end Rows

end Nvoy.Broker
