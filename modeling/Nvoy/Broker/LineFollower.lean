/-
**`lineFollower` does not depend on when or how it reads**: `admitted_queue.mjs`.

The file may grow between the `lstatSync` and the `fstatSync` of a read, and a `readSync` may give less than
was asked for; a line may be over the bound.

* `linesIn` — the complete lines of a file, as bytes;
* `Reads` — a follower that has read these bytes;
* `Reads.take` — one chunk; `Reads.pull` — one read; `follow_lines` — every run of reads.
-/

import Nvoy.Broker.AdmittedQueue

namespace Nvoy.Broker

open Lines
open Memory (trim)

namespace Follower

/-! ### One read -/

/-- What one read meets: the file at its `lstatSync`, where it is there, the file it opens, and how many
bytes each `readSync` gives. -/
structure Reading where
  seen : Option (List UInt8)
  opened : List UInt8
  given : List Nat

/-- The loop of one read, which ends where a `readSync` gives nothing. -/
def pull (file : List UInt8) (buffer : Nat) : List Nat → Follower → List (List Char) × Follower
  | [], st => ([], st)
  | n :: given, st =>
    if st.offset < file.length then
      let asked := min buffer (file.length - st.offset)
      let chunk := (file.drop st.offset).take (min n asked)
      if chunk = [] then ([], st)
      else
        let taken := st.take chunk
        let more := pull file buffer given taken.2
        (taken.1 ++ more.1, more.2)
    else ([], st)

/-- `read`: the lines, whether the file had shrunk, and the follower after it. -/
def readOver (label : String) (st : Follower) (reading : Reading) :
    Except String (List (List Char) × Bool × Follower) :=
  match reading.seen with
  | none => return ([], false, st)
  | some seen => do
    ensure (seen.length ≤ MAX_FILE) (label ++ " exceeds its 64 MiB bound")
    let reset : Bool := seen.length < st.offset
    let st := if reset then start else st
    if seen.length = st.offset then return ([], reset, st)
    let file := reading.opened.take MAX_FILE
    let more := pull file (min (file.length - st.offset) MAX_RECORD) reading.given st
    return (more.1, reset, more.2)

/-- Reads one after another: every line that was passed on, and the follower after them. -/
def followOver (label : String) : Follower → List Reading → Except String (List (List Char) × Follower)
  | st, [] => .ok ([], st)
  | st, reading :: readings => do
    let (lines, _, next) ← st.readOver label reading
    let more ← followOver label next readings
    return (lines ++ more.1, more.2)

/-- The files that the reads meet, in their order. -/
def met (readings : List Reading) : List (List UInt8) :=
  readings.flatMap fun reading => [reading.seen.getD [], reading.opened]

/-- The complete non-blank lines of the bytes that are within the bound. -/
def linesIn (bytes : List UInt8) : List (List Char) :=
  (((segments newline bytes).1.filter fun line => line.length ≤ MAX_RECORD).map fun line =>
    (utf8Decode line).toList).filter fun line => trim (String.ofList line) ≠ ""

/-! ### The follower and the bytes it has read -/

/-- A follower that has read these bytes: it holds the line they end in, or skips it, being over the bound. -/
structure Reads (bytes : List UInt8) (st : Follower) : Prop where
  offset : st.offset = bytes.length
  decoder : st.decoder = (utf8Run .idle bytes).2
  held : (st.skipping = false ∧ st.part = (segments '\n' (utf8Run .idle bytes).1).2) ∨
    (st.skipping = true ∧ '\n' ∉ st.part ∧ MAX_RECORD < byteLength (segments '\n' (utf8Run .idle bytes).1).2)

section Steps

variable {bytes chunk rest file seen opened : List UInt8} {st : Follower} {label : String}
  {reading : Reading} {readings : List Reading} {text : String}

theorem byteLength_append (front back : List Char) :
    byteLength (front ++ back) = byteLength front + byteLength back := by
  rw [byteLength, String.ofList_append, utf8_append, List.length_append]
  rfl

theorem reads_start : Reads [] start := ⟨rfl, rfl, .inl ⟨rfl, rfl⟩⟩

/-- **One chunk** adds the lines that it completes, and no piece of one over the bound. -/
theorem Reads.take (reads : Reads bytes st) (chunk : List UInt8) :
    Reads (bytes ++ chunk) (st.take chunk).2 ∧
      linesOf (bytes ++ chunk) = linesOf bytes ++ (st.take chunk).1 := by
  obtain ⟨offset, decoder, held⟩ := reads
  have state : (utf8Run st.decoder chunk).2 = (utf8Run .idle (bytes ++ chunk)).2 := by
    rw [utf8Run_append, decoder]
  have place : st.offset + chunk.length = (bytes ++ chunk).length := by rw [offset, List.length_append]
  have whole : segments '\n' (utf8Run .idle (bytes ++ chunk)).1 =
      ((segments '\n' (utf8Run .idle bytes).1).1 ++
        (segments '\n' ((segments '\n' (utf8Run .idle bytes).1).2 ++ (utf8Run st.decoder chunk).1)).1,
        (segments '\n' ((segments '\n' (utf8Run .idle bytes).1).2 ++ (utf8Run st.decoder chunk).1)).2) := by
    rw [utf8Run_append, segments_append, decoder]
  have clean := segments_tail_clean '\n' (utf8Run .idle bytes).1
  unfold linesOf Follower.take
  dsimp only
  rcases held with ⟨idle, part⟩ | ⟨skips, solid, long⟩
  · rw [idle, part, whole, List.filter_append]
    by_cases past : MAX_RECORD <
        byteLength (segments '\n' ((segments '\n' (utf8Run .idle bytes).1).2 ++ (utf8Run st.decoder chunk).1)).2
    · rw [if_pos past]
      refine ⟨⟨place, state, .inr ⟨rfl, List.not_mem_nil, ?_⟩⟩, rfl⟩
      rw [whole]
      exact past
    · rw [if_neg past]
      refine ⟨⟨place, state, .inl ⟨rfl, ?_⟩⟩, rfl⟩
      rw [whole]
  · -- the line that is skipped goes on to the first line break of the chunk
    rw [segments_clean_append '\n' _ clean] at whole
    rw [segments_clean_append '\n' _ solid, skips]
    cases ended : (segments '\n' (utf8Run st.decoder chunk).1).1 with
    | nil =>
      rw [ended] at whole
      dsimp only at whole ⊢
      have longer : MAX_RECORD < byteLength (segments '\n' (utf8Run .idle (bytes ++ chunk)).1).2 := by
        rw [whole, byteLength_append]
        omega
      have same : (segments '\n' (utf8Run .idle (bytes ++ chunk)).1).1 =
          (segments '\n' (utf8Run .idle bytes).1).1 := by
        rw [whole, List.append_nil]
      rw [same]
      split
      · exact ⟨⟨place, state, .inr ⟨rfl, List.not_mem_nil, longer⟩⟩, (List.append_nil _).symm⟩
      · refine ⟨⟨place, state, .inr ⟨rfl, ?_, longer⟩⟩, (List.append_nil _).symm⟩
        exact fun member => (List.mem_append.mp member).elim solid (segments_tail_clean '\n' _)
    | cons line lines =>
      rw [ended] at whole
      dsimp only at whole ⊢
      have hidden : ¬shown ((segments '\n' (utf8Run .idle bytes).1).2 ++ line) = true := by
        unfold shown
        rw [byteLength_append, decide_eq_false (p := _ ≤ MAX_RECORD) (by omega), Bool.and_false]
        exact Bool.false_ne_true
      have same : (segments '\n' (utf8Run .idle (bytes ++ chunk)).1).1.filter shown =
          (segments '\n' (utf8Run .idle bytes).1).1.filter shown ++ lines.filter shown := by
        rw [whole, List.filter_append, List.filter_cons_of_neg hidden]
      rw [same]
      split
      case isTrue past =>
        refine ⟨⟨place, state, .inr ⟨rfl, List.not_mem_nil, ?_⟩⟩, rfl⟩
        rw [whole]
        exact past
      case isFalse =>
        refine ⟨⟨place, state, .inl ⟨rfl, ?_⟩⟩, rfl⟩
        rw [whole]

/-- **One read** goes on through the file that it opens. -/
theorem Reads.pull (reads : Reads bytes st) (begun : bytes <+: file) (buffer : Nat) (given : List Nat) :
    ∃ later, bytes <+: later ∧ later <+: file ∧ Reads later (Follower.pull file buffer given st).2 ∧
      linesOf later = linesOf bytes ++ (Follower.pull file buffer given st).1 := by
  have still : ∃ later, bytes <+: later ∧ later <+: file ∧ Reads later st ∧ linesOf later = linesOf bytes ++ [] :=
    ⟨bytes, List.prefix_refl _, begun, reads, (List.append_nil _).symm⟩
  induction given generalizing bytes st with
  | nil => exact still
  | cons n given ih =>
    unfold Follower.pull
    split
    · dsimp only
      split
      · exact still
      · obtain ⟨rest, rfl⟩ := begun
        obtain ⟨next, added⟩ := reads.take
          (((bytes ++ rest).drop st.offset).take (min n (min buffer ((bytes ++ rest).length - st.offset))))
        have inside : bytes ++ (((bytes ++ rest).drop st.offset).take
            (min n (min buffer ((bytes ++ rest).length - st.offset)))) <+: bytes ++ rest := by
          rw [reads.offset, List.drop_left, List.prefix_append_right_inj]
          exact List.take_prefix _ _
        obtain ⟨later, after, within, read, lines⟩ := ih next inside
          ⟨_, List.prefix_refl _, inside, next, (List.append_nil _).symm⟩
        refine ⟨later, (List.prefix_append _ _).trans after, within, read, ?_⟩
        rw [lines, added, List.append_assoc]
    · exact still

/-- **One read** of a file that only grows. -/
theorem Reads.readOver (reads : Reads bytes st) (grown : bytes <+: reading.seen.getD [])
    (grows : reading.seen.getD [] <+: reading.opened) (small : reading.opened.length ≤ MAX_FILE) :
    ∃ later, bytes <+: later ∧ later <+: reading.opened ∧ ∃ lines next,
      st.readOver label reading = .ok (lines, false, next) ∧ Reads later next ∧
        linesOf later = linesOf bytes ++ lines := by
  have begun := grown.trans grows
  have still := (List.append_nil (linesOf bytes)).symm
  unfold Follower.readOver
  cases there : reading.seen with
  | none => exact ⟨bytes, List.prefix_refl _, begun, [], st, rfl, reads, still⟩
  | some seen =>
    rw [there, Option.getD_some] at grown grows
    have kept : decide (seen.length < st.offset) = false := by
      rw [decide_eq_false_iff_not, reads.offset]
      exact Nat.not_lt.mpr grown.length_le
    dsimp only
    rw [ensure_of (by simpa using grows.length_le.trans small), ok_bind, kept,
      List.take_of_length_le small]
    simp only [Bool.false_eq_true, if_false]
    split
    · exact ⟨bytes, List.prefix_refl _, begun, [], st, rfl, reads, still⟩
    · obtain ⟨later, after, within, read, lines⟩ := reads.pull begun
        (min (reading.opened.length - st.offset) MAX_RECORD) reading.given
      exact ⟨later, after, within, _, _, rfl, read, lines⟩

/-- **Every run of reads** of a file that only grows. -/
theorem Reads.followOver (reads : Reads bytes st) (small : file.length ≤ MAX_FILE)
    (inside : ∀ one ∈ met readings, one <+: file) (grows : (bytes :: met readings).IsChain (· <+: ·))
    (begun : bytes <+: file) :
    ∃ later, bytes <+: later ∧ later <+: file ∧ ∃ lines next,
      followOver label st readings = .ok (lines, next) ∧ Reads later next ∧
        linesOf later = linesOf bytes ++ lines := by
  induction readings generalizing bytes st with
  | nil => exact ⟨bytes, List.prefix_refl _, begun, [], st, rfl, reads, (List.append_nil _).symm⟩
  | cons reading readings ih =>
    obtain ⟨grown, chain⟩ := List.isChain_cons_cons.mp grows
    obtain ⟨opens, chain⟩ := List.isChain_cons_cons.mp chain
    have there := inside reading.opened (by simp [met])
    obtain ⟨middle, after, within, lines, next, read, reads, added⟩ :=
      reads.readOver grown opens (there.length_le.trans small)
    have goes : (middle :: met readings).IsChain (· <+: ·) := by
      obtain ⟨first, chain⟩ := List.isChain_cons.mp chain
      exact List.isChain_cons.mpr ⟨fun one next => within.trans (first one next), chain⟩
    obtain ⟨later, after', within', more, final, followed, reads', added'⟩ := ih reads
      (fun one member => inside one (List.mem_cons_of_mem _ (List.mem_cons_of_mem _ member))) goes
      (within.trans there)
    refine ⟨later, after.trans after', within', lines ++ more, final, ?_, reads', ?_⟩
    · unfold Follower.followOver
      rw [read, ok_bind]
      dsimp only
      rw [followed]
      rfl
    · rw [added', added, List.append_assoc]

/-- A whole read, as one that is given all it asks for. -/
theorem loop_eq_pull (buffer fuel : Nat) (some : 0 < buffer) (st : Follower) :
    loop buffer file fuel st = Follower.pull file buffer (List.replicate fuel buffer) st := by
  induction fuel generalizing st with
  | zero => rfl
  | succ fuel ih =>
    rw [List.replicate_succ]
    unfold Follower.pull loop
    split
    case isFalse => rfl
    case isTrue more =>
      have least : min buffer (min buffer (file.length - st.offset)) = min buffer (file.length - st.offset) := by
        omega
      dsimp only
      rw [least, if_neg fun empty => ?_, ih]
      have none := congrArg List.length empty
      rw [List.length_take, List.length_drop, List.length_nil] at none
      omega

/-- `read` of a file that does not grow meanwhile. -/
theorem read_eq (st : Follower) (file : List UInt8) :
    ∃ given, st.read file = st.readOver "admitted queue" ⟨some file, file, given⟩ := by
  unfold read readOver
  by_cases small : file.length ≤ MAX_FILE
  · rw [ensure_of (by simpa using small)]
    dsimp only
    rw [List.take_of_length_le small, show "admitted queue" ++ " exceeds its 64 MiB bound" =
      "admitted queue exceeds its 64 MiB bound" from rfl, ensure_of (by simpa using small)]
    simp only [ok_bind]
    generalize (if decide (file.length < st.offset) = true then start else st) = begun
    by_cases whole : file.length = begun.offset
    · refine ⟨[], ?_⟩
      rw [if_pos whole, whole, Nat.sub_self]
      rfl
    · by_cases ahead : begun.offset < file.length
      · refine ⟨List.replicate (file.length - begun.offset) (min (file.length - begun.offset) MAX_RECORD), ?_⟩
        rw [if_neg whole, loop_eq_pull _ _ (by rw [MAX_RECORD]; omega)]
      · refine ⟨[], ?_⟩
        rw [if_neg whole, Nat.sub_eq_zero_of_le (not_lt.mp ahead)]
        rfl
  · refine ⟨[], ?_⟩
    dsimp only
    rw [ensure, decide_eq_false small]
    rfl

/-! ### The lines, as bytes -/

/-- The lines of a text are those of its bytes. -/
theorem segments_flatMap (chars : List Char) :
    segments newline (chars.flatMap String.utf8EncodeChar) =
      ((segments '\n' chars).1.map fun line => line.flatMap String.utf8EncodeChar,
        (segments '\n' chars).2.flatMap String.utf8EncodeChar) := by
  induction chars with
  | nil => rfl
  | cons c chars ih =>
    rw [List.flatMap_cons]
    by_cases here : c = '\n'
    · rw [here, show String.utf8EncodeChar '\n' = [newline] from rfl, List.singleton_append, segments, if_pos rfl, ih,
        segments, if_pos rfl]
      rfl
    · rw [segments_clean_append newline _ fun member => here (newline_mem_utf8EncodeChar member), ih, segments,
        if_neg here]
      cases (segments '\n' chars).1 <;> rfl

/-- **What a follower passes on** is the complete lines of the bytes it has read. -/
theorem linesOf_eq (isPrefix : bytes <+: utf8 text) : linesOf bytes = linesIn bytes := by
  obtain ⟨front, torn, rfl, nothing, clean⟩ := exists_whole isPrefix
  have decoded : (utf8Run .idle (front.flatMap String.utf8EncodeChar ++ torn)).1 = front := by
    have read := utf8Run_utf8 (String.ofList front)
    rw [utf8_ofList, String.toList_ofList] at read
    rw [utf8Run_append, read, nothing, List.append_nil]
  have lines : (segments newline (front.flatMap String.utf8EncodeChar ++ torn)).1 =
      (segments '\n' front).1.map fun line => line.flatMap String.utf8EncodeChar := by
    have tail := segments_tail_clean newline (front.flatMap String.utf8EncodeChar)
    rw [segments_append, segments_torn newline fun member => (List.mem_append.mp member).elim tail clean,
      segments_flatMap, List.append_nil]
  unfold linesOf linesIn
  rw [decoded, lines]
  induction (segments '\n' front).1 with
  | nil => rfl
  | cons line lines ih =>
    have size : (line.flatMap String.utf8EncodeChar).length = byteLength line := by
      rw [byteLength, utf8_ofList]
    have text : (utf8Decode (line.flatMap String.utf8EncodeChar)).toList = line := by
      rw [← utf8_ofList, utf8Decode_utf8, String.toList_ofList]
    rw [List.map_cons, List.filter_cons, List.filter_cons, size]
    by_cases short : byteLength line ≤ MAX_RECORD
    · by_cases blank : trim (String.ofList line) = ""
      · simp [shown, short, text, blank, ih]
      · simp [shown, short, text, blank, ih]
    · simp [shown, short, ih]

end Steps

/-- **`lineFollower` does not depend on when or how it reads.** Over a file that only grows towards a text within
the bound, however its growth falls between and inside the reads and however little each `readSync` gives, no read
throws or starts again, and what the reads passed on is the complete non-blank lines within the bound of what they
have read: of the whole file, where they have reached its end. -/
theorem follow_lines (label : String) (text : String) (small : (utf8 text).length ≤ MAX_FILE)
    (readings : List Reading) (inside : ∀ file ∈ met readings, file <+: utf8 text)
    (grows : (met readings).IsChain (· <+: ·)) :
    ∃ lines st, followOver label start readings = .ok (lines, st) ∧
      lines = linesIn ((utf8 text).take st.offset) ∧
      ∀ file ∈ met readings, st.offset = file.length → lines = linesIn file := by
  have chain : ([] :: met readings).IsChain (· <+: ·) :=
    List.isChain_cons.mpr ⟨fun later _ => List.nil_prefix, grows⟩
  obtain ⟨bytes, -, read, lines, st, followed, reads, added⟩ :=
    reads_start.followOver small inside chain List.nil_prefix
  have passed : lines = linesIn bytes := by
    rw [← linesOf_eq read, added]
    rfl
  have same : ∀ file, file <+: utf8 text → st.offset = file.length → bytes = file := by
    intro file front size
    have length := reads.offset.symm.trans size
    exact (List.prefix_of_prefix_length_le read front length.le).eq_of_length length
  refine ⟨lines, st, followed, ?_, fun file member size => ?_⟩
  · rw [reads.offset, ← List.prefix_iff_eq_take.mp read, passed]
  · rw [passed, same file (inside file member) size]

/-- Reads that end inside a character, between two bytes of a growing file, and at its end. -/
theorem follow_lines_sample :
    let text := "aé\n \nb\nc"
    let file := utf8 text
    let readings : List Reading := [⟨none, [], []⟩, ⟨some (file.take 2), file.take 2, [5]⟩,
      ⟨some (file.take 3), file.take 7, [1, 1]⟩, ⟨some file, file, [1, 9]⟩]
    (∃ lines st, followOver "queue" start readings = .ok (lines, st) ∧
        lines = linesIn (file.take st.offset)) ∧
      ((followOver "queue" start readings).toOption.map fun run => (run.1, run.2.offset)) =
        some ([['a', 'é'], ['b']], file.length) ∧
      linesIn file = [['a', 'é'], ['b']] := by
  intro text file readings
  refine ⟨?_, by decide +kernel, by decide +kernel⟩
  obtain ⟨lines, st, followed, cut, -⟩ := follow_lines "queue" text (by decide +kernel) readings
    (by
      intro one member
      simp only [met, readings, List.flatMap_cons, List.flatMap_nil, List.append_nil, List.mem_append, List.mem_cons,
        List.not_mem_nil, or_false, Option.getD_none, Option.getD_some] at member
      rcases member with (rfl | rfl) | (rfl | rfl) | (rfl | rfl) | rfl | rfl
      · exact List.nil_prefix
      · exact List.nil_prefix
      · exact List.take_prefix _ _
      · exact List.take_prefix _ _
      · exact List.take_prefix _ _
      · exact List.take_prefix _ _
      · exact List.prefix_refl _
      · exact List.prefix_refl _)
    (by decide +kernel)
  exact ⟨lines, st, followed, cut⟩

end Follower

end Nvoy.Broker
