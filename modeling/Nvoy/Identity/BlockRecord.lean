/-
**The record of blocks, and an append cut at any character.**

* `recordLine` — the line that `reserveBlock` appends;
* `parse_append` — what a record that was read is after the first characters of such a line: itself, or
  itself with the block; or it cannot be read;
* `parse_line` — a record that ends with a line break has the block after the whole line.
-/

import Nvoy.Identity.Allocation
import Nvoy.Lib.Lines
import Nvoy.Lib.Torn

namespace Nvoy.Identity

open Lines
open Memory (isJsSpace)

/-- `{ id, ...block, recorded_at }` -/
def entryFields (b : Block) (recordedAt : Int) : List (String × Json) :=
  ("id", .str b.id) :: NUMERIC_FIELDS.map (fun f => (f.name, .num (b.number f) 0)) ++
    [("recorded_at", .num recordedAt 0)]

def entryText (b : Block) (recordedAt : Int) : List Char := Json.render (.obj (entryFields b recordedAt))

def recordLine (b : Block) (recordedAt : Int) : List Char := entryText b recordedAt ++ ['\n']

/-! ### An entry read back -/

section Entries

variable {b : Block} {recordedAt : Int} {n : Nat}

theorem get_id : (Json.obj (entryFields b recordedAt)).get "id" = some (.str b.id) := rfl

theorem get_number (f : Field) :
    (Json.obj (entryFields b recordedAt)).get f.name = some (.num (b.number f) 0) := by
  cases f <;> rfl

theorem numberIn_entry (f : Field) : numberIn (.obj (entryFields b recordedAt)) f =
    if 1 ≤ b.number f then some (b.number f) else none := by
  unfold numberIn
  rw [get_number, Option.bind_some]
  simp only [Json.integer, pow_zero, mul_one, Option.filter_some, decide_eq_true_eq]

/-- **The entry is read as its block**, where it is read. -/
theorem parse_entry {b' : Block} (read : parseBlockLine (entryText b recordedAt) n = .ok b') : b' = b := by
  unfold parseBlockLine entryText at read
  rw [Json.parse_render] at read
  dsimp only at read
  rw [get_id, Option.bind_some] at read
  dsimp only [Json.string] at read
  rw [dif_pos b.valid] at read
  split at read
  · cases read
  next whole =>
    obtain rfl := Except.ok.inj read
    refine Block.ext rfl (funext fun f => ?_)
    have there := List.find?_eq_none.mp whole f (mem_numericFields f)
    dsimp only
    rw [numberIn_entry] at there ⊢
    split
    next => rfl
    next small => simp [small] at there

theorem parse_positive (positive : ∀ f, 1 ≤ b.number f) : parseBlockLine (entryText b recordedAt) n = .ok b := by
  unfold parseBlockLine entryText
  rw [Json.parse_render]
  dsimp only
  rw [get_id, Option.bind_some]
  dsimp only [Json.string]
  rw [dif_pos b.valid]
  have all : NUMERIC_FIELDS.find? (fun f => (numberIn (.obj (entryFields b recordedAt)) f).isNone) = none := by
    refine List.find?_eq_none.mpr fun f _ => ?_
    rw [numberIn_entry, if_pos (positive f)]
    simp
  rw [all]
  refine congrArg Except.ok (Block.ext rfl (funext fun f => ?_))
  dsimp only
  rw [numberIn_entry, if_pos (positive f), Option.getD_some]

theorem isObj_of_parse {line : List Char} {b : Block} (read : parseBlockLine line n = .ok b) :
    ∃ value, Json.parse line = some value ∧ value.isObj = true := by
  unfold parseBlockLine at read
  split at read
  · cases read
  next value parsed =>
    refine ⟨value, parsed, ?_⟩
    split at read
    · cases read
    next id named =>
      obtain ⟨field, found, -⟩ := Option.bind_eq_some_iff.mp named
      cases value with
      | obj fields => rfl
      | _ => cases found

end Entries

/-! ### The last line of a record -/

/-- What the last line holds. -/
def lastBlocks (tail : List Char) (n : Nat) : Except String (List Block) :=
  (numbered n [tail]).mapM fun line => parseBlockLine line.1 line.2

section LastLine

variable {tail front : List Char} {n : Nat} {blocks blocks' : List Block} {b : Block} {recordedAt : Int}

theorem lastBlocks_eq (tail : List Char) (n : Nat) : lastBlocks tail n =
    if trimLine tail = [] then .ok [] else (parseBlockLine (trimLine tail) (n + 1)).map fun b => [b] := by
  unfold lastBlocks numbered
  simp only [List.zipIdx_singleton, List.map_cons, List.map_nil]
  by_cases blank : trimLine tail = []
  · rw [if_pos blank, List.filter_cons_of_neg (by simp [blank])]
    rfl
  · rw [if_neg blank, List.filter_cons_of_pos (by simpa using blank), List.filter_nil]
    rw [List.mapM_cons, List.mapM_nil]
    cases parseBlockLine (trimLine tail) (n + 1) <;> rfl

theorem entryText_head (b : Block) (recordedAt : Int) : ∃ inside, entryText b recordedAt = '{' :: inside :=
  Json.render_obj _

theorem entryText_ne_nil : entryText b recordedAt ≠ [] := by
  obtain ⟨inside, same⟩ := entryText_head b recordedAt
  rw [same]
  exact List.cons_ne_nil _ _

theorem entryText_last (b : Block) (recordedAt : Int) : ∃ inside, entryText b recordedAt = inside ++ ['}'] := by
  unfold entryText
  have ends : ∀ fields, ∃ inside, Json.renderFields fields = inside ++ ['}'] := by
    intro fields
    induction fields with
    | nil => exact ⟨[], rfl⟩
    | cons field fields ih =>
      obtain ⟨inside, same⟩ := ih
      refine ⟨',' :: (Json.renderString field.1 ++ ':' :: (Json.render field.2 ++ inside)), ?_⟩
      rw [Json.renderFields, same]
      simp
  obtain ⟨inside, same⟩ := ends (entryFields b recordedAt).tail
  refine ⟨'{' :: (Json.renderString "id" ++ ':' :: (Json.render (.str b.id) ++ inside)), ?_⟩
  show '{' :: (Json.renderString "id" ++ ':' :: (Json.render (.str b.id) ++
    Json.renderFields (entryFields b recordedAt).tail)) = _
  rw [same]
  simp

/-- The first characters of an entry, trimmed: some of its first characters, with its brace. -/
theorem trim_front (inside : front <+: entryText b recordedAt) (filled : front ≠ []) :
    front.rdropWhile isJsSpace <+: front ∧ ∃ rest, front.rdropWhile isJsSpace = '{' :: rest := by
  refine ⟨List.rdropWhile_prefix _ _, ?_⟩
  obtain ⟨c, rest, rfl⟩ := List.exists_cons_of_ne_nil filled
  obtain ⟨text, same⟩ := entryText_head b recordedAt
  rw [same] at inside
  obtain rfl := (List.cons_prefix_cons.mp inside).1
  have left : List.rdropWhile isJsSpace ('{' :: rest) ≠ [] := fun none => by
    have all := List.rdropWhile_eq_nil_iff.mp none '{' List.mem_cons_self
    exact absurd all (by decide)
  obtain ⟨d, kept, split⟩ := List.exists_cons_of_ne_nil left
  have before := List.rdropWhile_prefix isJsSpace ('{' :: rest)
  rw [split] at before
  obtain rfl := (List.cons_prefix_cons.mp before).1
  exact ⟨kept, split⟩

/-- An entry has nothing to trim. -/
theorem trim_entry : (entryText b recordedAt).rdropWhile isJsSpace = entryText b recordedAt := by
  obtain ⟨inside, same⟩ := entryText_last b recordedAt
  rw [same, List.rdropWhile_concat_neg _ _ _ (by decide)]

theorem rdropWhile_append {more : List Char} (left : more.rdropWhile isJsSpace ≠ []) (text : List Char) :
    (text ++ more).rdropWhile isJsSpace = text ++ more.rdropWhile isJsSpace := by
  unfold List.rdropWhile at left ⊢
  rw [List.reverse_append, List.dropWhile_append, if_neg (by simpa using left), List.reverse_append, List.reverse_reverse]

/-- **The last line goes on with the first characters of an entry.** It is read after that only where it was blank and
the entry is whole. -/
theorem last_append (inside : front <+: entryText b recordedAt) (filled : front ≠ [])
    (before : lastBlocks tail n = .ok blocks) (after : lastBlocks (tail ++ front) n = .ok blocks') :
    blocks = [] ∧ blocks' = [b] := by
  obtain ⟨first, rest, brace⟩ := trim_front inside filled
  have left : front.rdropWhile isJsSpace ≠ [] := by
    rw [brace]
    exact List.cons_ne_nil _ _
  rw [lastBlocks_eq] at before after
  by_cases blank : tail.dropWhile isJsSpace = []
  · have none : trimLine tail = [] := by
      unfold trimLine
      rw [blank, List.rdropWhile_nil]
    rw [if_pos none] at before
    obtain rfl := Except.ok.inj before
    have trimmed : trimLine (tail ++ front) = front.rdropWhile isJsSpace := by
      unfold trimLine
      have head : front.dropWhile isJsSpace = front := by
        obtain ⟨c, inner, rfl⟩ := List.exists_cons_of_ne_nil filled
        rw [brace] at first
        obtain rfl := (List.cons_prefix_cons.mp first).1
        rw [List.dropWhile_cons_of_neg (by decide)]
      rw [List.dropWhile_append, if_pos (by rw [blank]; rfl), head]
    rw [trimmed, if_neg left] at after
    cases read : parseBlockLine (front.rdropWhile isJsSpace) (n + 1) with
    | error e =>
      rw [read] at after
      cases after
    | ok b' =>
      rw [read] at after
      obtain rfl := Except.ok.inj after
      obtain ⟨value, parsed, -⟩ := isObj_of_parse read
      have whole : front.rdropWhile isJsSpace = entryText b recordedAt := by
        by_contra short
        have torn := Json.parse_front (first.trans inside) short
        rw [torn] at parsed
        cases parsed
      rw [whole] at read
      exact ⟨rfl, by rw [parse_entry read]⟩
  · exfalso
    have kept : trimLine tail ≠ [] := by
      intro none
      have spaces := List.rdropWhile_eq_nil_iff.mp none
      obtain ⟨c, inner, split⟩ := List.exists_cons_of_ne_nil blank
      have solid := List.head_dropWhile_not isJsSpace blank
      have space := spaces _ (List.head_mem blank)
      rw [solid] at space
      cases space
    rw [if_neg kept] at before
    cases read : parseBlockLine (trimLine tail) (n + 1) with
    | error e =>
      rw [read] at before
      cases before
    | ok b' =>
      obtain ⟨value, parsed, object⟩ := isObj_of_parse read
      have spoiled : trimLine (tail ++ front) =
          trimLine tail ++ ((tail.dropWhile isJsSpace).rtakeWhile isJsSpace ++ front.rdropWhile isJsSpace) := by
        unfold trimLine
        rw [List.dropWhile_append, if_neg (by simpa using blank), rdropWhile_append left, ← List.append_assoc,
          List.rdropWhile_append_rtakeWhile]
      have none : Json.parse (trimLine (tail ++ front)) = none := by
        rw [spoiled]
        refine Json.parse_followed object parsed (c := '{') ?_ (by decide)
        rw [brace]
        simp
      have some : trimLine (tail ++ front) ≠ [] := by
        rw [spoiled, brace]
        simp
      rw [if_neg some] at after
      unfold parseBlockLine at after
      rw [none] at after
      cases after

end LastLine

/-! ### The record -/

section Records

variable {text front : List Char} {record record' : List Block} {b : Block} {recordedAt : Int}

theorem numbered_append (first : Nat) (lines more : List (List Char)) :
    numbered first (lines ++ more) = numbered first lines ++ numbered (first + lines.length) more := by
  unfold numbered
  rw [List.zipIdx_append, List.map_append, List.filter_append]

theorem mapM_append_ok {α β ε : Type} {f : α → Except ε β} {xs ys : List α} {answers : List β} :
    (xs ++ ys).mapM f = .ok answers ↔
      ∃ first second, xs.mapM f = .ok first ∧ ys.mapM f = .ok second ∧ answers = first ++ second := by
  rw [List.mapM_append, bind_eq_ok]
  constructor
  · rintro ⟨first, done, rest⟩
    obtain ⟨second, done', same⟩ := bind_eq_ok.mp rest
    exact ⟨first, second, done, done', (Except.ok.inj same).symm⟩
  · rintro ⟨first, second, done, done', rfl⟩
    exact ⟨first, done, bind_eq_ok.mpr ⟨second, done', rfl⟩⟩

/-- A record is what its closed lines hold, and its last line. -/
theorem parse_eq_ok : parseBlockRecord text = .ok record ↔ ∃ first last,
    (numbered 0 (segments '\n' text).1).mapM (fun line => parseBlockLine line.1 line.2) = .ok first ∧
      lastBlocks (segments '\n' text).2 (segments '\n' text).1.length = .ok last ∧ record = first ++ last := by
  unfold parseBlockRecord
  rw [splitOn_eq_segments, numbered_append, mapM_append_ok, Nat.zero_add]
  rfl

theorem newline_notMem_entry : '\n' ∉ entryText b recordedAt := Json.newline_notMem_render _

/-- **A record goes on with the first characters of a line.** Where both can be read, it is the same record, or the
record with the block; and the same only where nothing was written. -/
theorem parse_append (inside : front <+: recordLine b recordedAt) (before : parseBlockRecord text = .ok record)
    (after : parseBlockRecord (text ++ front) = .ok record') :
    record' = record ∧ front = [] ∨ record' = record ++ [b] := by
  by_cases filled : front = []
  · subst filled
    rw [List.append_nil] at after
    exact .inl ⟨Except.ok.inj (after.symm.trans before), rfl⟩
  obtain ⟨first, last, head, end_, rfl⟩ := parse_eq_ok.mp before
  obtain ⟨first', last', head', end', rfl⟩ := parse_eq_ok.mp after
  have tail := segments_tail_clean '\n' text
  rw [segments_append] at head' end'
  right
  rcases List.prefix_concat_iff.mp inside with rfl | inside
  · -- the whole line, with its break
    have clean : '\n' ∉ (segments '\n' text).2 ++ entryText b recordedAt := by
      rw [List.mem_append, not_or]
      exact ⟨tail, newline_notMem_entry⟩
    have line : segments '\n' ((segments '\n' text).2 ++ recordLine b recordedAt) =
        ([(segments '\n' text).2 ++ entryText b recordedAt], []) := by
      unfold recordLine
      rw [← List.append_assoc, segments_line '\n' [] clean]
      rfl
    unfold recordLine at line
    rw [line] at head' end'
    rw [numbered_append, mapM_append_ok] at head'
    obtain ⟨start, closed, started, closes, rfl⟩ := head'
    obtain rfl := Except.ok.inj (started.symm.trans head)
    rw [Nat.zero_add] at closes
    obtain ⟨rfl, rfl⟩ := last_append (List.prefix_refl _) entryText_ne_nil end_ closes
    have blank : lastBlocks [] _ = .ok last' := end'
    rw [lastBlocks_eq, if_pos (show trimLine [] = [] from rfl)] at blank
    obtain rfl := Except.ok.inj blank
    simp
  · have clean : '\n' ∉ (segments '\n' text).2 ++ front := by
      rw [List.mem_append, not_or]
      exact ⟨tail, fun member => newline_notMem_entry (inside.subset member)⟩
    rw [segments_torn '\n' clean, List.append_nil] at head' end'
    obtain rfl := Except.ok.inj (head'.symm.trans head)
    obtain ⟨rfl, rfl⟩ := last_append inside filled end_ end'
    simp

/-- The whole line after a line break. -/
theorem parse_line (before : parseBlockRecord text = .ok record) (closed : (segments '\n' text).2 = [])
    (positive : ∀ f, 1 ≤ b.number f) : parseBlockRecord (text ++ recordLine b recordedAt) = .ok (record ++ [b]) ∧
      (segments '\n' (text ++ recordLine b recordedAt)).2 = [] := by
  have line : segments '\n' (text ++ recordLine b recordedAt) =
      ((segments '\n' text).1 ++ [entryText b recordedAt], []) := by
    unfold recordLine
    rw [segments_append, closed, List.nil_append, segments_line '\n' [] newline_notMem_entry]
    rfl
  refine ⟨?_, by rw [line]⟩
  obtain ⟨first, last, head, end_, rfl⟩ := parse_eq_ok.mp before
  rw [closed, lastBlocks_eq, if_pos (show trimLine [] = [] from rfl)] at end_
  obtain rfl := Except.ok.inj end_
  have trimmed : trimLine (entryText b recordedAt) = entryText b recordedAt := by
    unfold trimLine
    obtain ⟨inside, same⟩ := entryText_head b recordedAt
    rw [show (entryText b recordedAt).dropWhile isJsSpace = entryText b recordedAt by
      rw [same, List.dropWhile_cons_of_neg (by decide)], trim_entry]
  refine parse_eq_ok.mpr ⟨first ++ [b], [], ?_, ?_, by simp⟩
  · rw [line, numbered_append, mapM_append_ok]
    refine ⟨first, [b], head, ?_, rfl⟩
    have own : lastBlocks (entryText b recordedAt) (0 + (segments '\n' text).1.length) = .ok [b] := by
      rw [lastBlocks_eq, trimmed, if_neg entryText_ne_nil, parse_positive positive]
      rfl
    exact own
  · rw [line, lastBlocks_eq, if_pos (show trimLine [] = [] from rfl)]

end Records

end Nvoy.Identity
