/-
Append-only line files, and what a crash may leave of them.

A line file is the concatenation of its lines, each closed by a separator (`joinLines`). A reader
cuts the file back into its complete lines and the tail after the last separator (`segments`).
An append interrupted at any point leaves a prefix of the intended file:

* `segments_joinLines` — the reader recovers exactly the lines that were written, whatever
  unterminated tail follows them;
* `cut_of_prefix` — every prefix of a line file is some of its first lines, complete, followed by
  a strict prefix of the next line: a torn tail is never mistaken for a line;
* `le_of_joinLines_prefix` — lines that had reached the file before the interruption are still
  among the complete ones.

Nothing here fixes the alphabet: `sep` is the separator, and a line is any list without it.
-/

import Mathlib.Data.List.Infix
import Mathlib.Data.List.TakeDrop

namespace Nvoy.Lines

variable {β : Type}

/-- The file holding these lines, each closed by the separator. -/
def joinLines (sep : β) (lines : List (List β)) : List β :=
  lines.flatMap fun line => line ++ [sep]

section Joining

variable (sep : β)

@[simp] theorem joinLines_nil : joinLines sep [] = [] := rfl

@[simp] theorem joinLines_cons (line : List β) (lines : List (List β)) :
    joinLines sep (line :: lines) = line ++ sep :: joinLines sep lines := by
  simp [joinLines]

theorem joinLines_append (first second : List (List β)) :
    joinLines sep (first ++ second) = joinLines sep first ++ joinLines sep second := by
  simp [joinLines]

/-- The first lines of a file are a prefix of it. -/
theorem joinLines_take_prefix (lines : List (List β)) (count : Nat) :
    joinLines sep (lines.take count) <+: joinLines sep lines := by
  conv_rhs => rw [← List.take_append_drop count lines, joinLines_append]
  exact List.prefix_append _ _

/-- A file with no bytes has no lines. -/
theorem joinLines_eq_nil {lines : List (List β)} : joinLines sep lines = [] ↔ lines = [] := by
  cases lines <;> simp

end Joining

/-! ### Reading a line file back -/

section Reading

variable [DecidableEq β] (sep : β)

/-- The complete lines of a buffer and the tail after its last separator. -/
def segments : List β → List (List β) × List β
  | [] => ([], [])
  | b :: rest =>
      if b = sep then ([] :: (segments rest).1, (segments rest).2)
      else match (segments rest).1 with
        | [] => ([], b :: (segments rest).2)
        | line :: lines => ((b :: line) :: lines, (segments rest).2)

/-- A buffer without a separator holds no complete line. -/
theorem segments_torn {torn : List β} (clean : sep ∉ torn) : segments sep torn = ([], torn) := by
  induction torn with
  | nil => rfl
  | cons b rest ih =>
      rw [List.mem_cons, not_or] at clean
      rw [segments, if_neg (Ne.symm clean.1), ih clean.2]

/-- What holds no separator goes before the first line, or before the tail where there is none. -/
theorem segments_clean_append {torn : List β} (rest : List β) (clean : sep ∉ torn) :
    segments sep (torn ++ rest) =
      match (segments sep rest).1 with
      | [] => ([], torn ++ (segments sep rest).2)
      | line :: lines => ((torn ++ line) :: lines, (segments sep rest).2) := by
  induction torn with
  | nil => cases split : (segments sep rest).1 <;> simp [← split]
  | cons b torn ih =>
      rw [List.mem_cons, not_or] at clean
      rw [List.cons_append, segments, if_neg (Ne.symm clean.1), ih clean.2]
      cases (segments sep rest).1 <;> rfl

/-- The tail holds no separator. -/
theorem segments_tail_clean (buffer : List β) : sep ∉ (segments sep buffer).2 := by
  induction buffer with
  | nil => exact List.not_mem_nil
  | cons b rest ih =>
      rw [segments]
      by_cases here : b = sep
      · rw [if_pos here]
        exact ih
      · rw [if_neg here]
        cases lines : (segments sep rest).1 with
        | nil => exact fun member => (List.mem_cons.mp member).elim (fun same => here same.symm) ih
        | cons line lines => exact ih

/-- The first line of a buffer is everything before its first separator. -/
theorem segments_line {line : List β} (rest : List β) (clean : sep ∉ line) :
    segments sep (line ++ sep :: rest) =
      (line :: (segments sep rest).1, (segments sep rest).2) := by
  induction line with
  | nil => rw [List.nil_append, segments, if_pos rfl]
  | cons b line ih =>
      rw [List.mem_cons, not_or] at clean
      rw [List.cons_append, segments, if_neg (Ne.symm clean.1), ih clean.2]

/-- Written lines are read back whatever follows them. -/
theorem segments_joinLines_append {lines : List (List β)} (rest : List β)
    (clean : ∀ line ∈ lines, sep ∉ line) :
    segments sep (joinLines sep lines ++ rest) =
      (lines ++ (segments sep rest).1, (segments sep rest).2) := by
  induction lines with
  | nil => rw [joinLines_nil, List.nil_append, List.nil_append]
  | cons line lines ih =>
      have others := ih fun other member => clean other (List.mem_cons_of_mem _ member)
      rw [joinLines_cons, List.append_assoc, List.cons_append,
        segments_line sep _ (clean line List.mem_cons_self), others, List.cons_append]

/-- A split at the separator gives the written lines, and the unterminated tail as the last part. -/
theorem splitOn_joinLines {lines : List (List β)} {torn : List β}
    (clean : ∀ line ∈ lines, sep ∉ line) (tornClean : sep ∉ torn) :
    (joinLines sep lines ++ torn).splitOn sep = lines ++ [torn] := by
  induction lines with
  | nil => rw [joinLines_nil, List.nil_append, List.nil_append, List.splitOn_eq_singleton tornClean]
  | cons line lines ih =>
      have others := ih fun other member => clean other (List.mem_cons_of_mem _ member)
      rw [joinLines_cons, List.append_assoc, List.cons_append, List.splitOn_append_cons_self,
        List.splitOn_eq_singleton (clean line List.mem_cons_self), others, List.singleton_append,
        List.cons_append]

/-- Reading returns exactly the written lines and the unterminated tail. -/
theorem segments_joinLines {lines : List (List β)} {torn : List β}
    (clean : ∀ line ∈ lines, sep ∉ line) (tornClean : sep ∉ torn) :
    segments sep (joinLines sep lines ++ torn) = (lines, torn) := by
  rw [segments_joinLines_append sep torn clean, segments_torn sep tornClean, List.append_nil]

/-- A split is the complete lines and the tail. -/
theorem splitOn_eq_segments (buffer : List β) :
    buffer.splitOn sep = (segments sep buffer).1 ++ [(segments sep buffer).2] := by
  induction buffer with
  | nil => rfl
  | cons b rest ih =>
      rw [List.splitOn_cons_eq_if_modifyHead, ih, segments]
      by_cases here : b = sep
      · rw [if_pos here, if_pos (beq_iff_eq.mpr here)]
        rfl
      · rw [if_neg here, if_neg (mt beq_iff_eq.mp here)]
        cases (segments sep rest).1 <;> rfl

/-- What is in a buffer and no separator is in a part of it. -/
theorem mem_splitOn {buffer : List β} {b : β} (mem : b ∈ buffer) :
    b = sep ∨ ∃ part ∈ buffer.splitOn sep, b ∈ part := by
  induction buffer with
  | nil => exact absurd mem List.not_mem_nil
  | cons first rest ih =>
      rw [List.splitOn_cons_eq_if_modifyHead]
      by_cases here : first = sep
      · rw [if_pos (beq_iff_eq.mpr here)]
        rcases List.mem_cons.mp mem with rfl | later
        · exact .inl here
        · exact (ih later).imp_right fun ⟨part, listed, inside⟩ =>
            ⟨part, List.mem_cons_of_mem _ listed, inside⟩
      · rw [if_neg (mt beq_iff_eq.mp here)]
        cases parts : rest.splitOn sep with
        | nil => exact (List.splitOn_ne_nil sep rest parts).elim
        | cons part others =>
            rw [parts] at ih
            rcases List.mem_cons.mp mem with rfl | later
            · exact .inr ⟨b :: part, List.mem_cons_self, List.mem_cons_self⟩
            · refine (ih later).imp_right fun ⟨other, listed, inside⟩ => ?_
              rcases List.mem_cons.mp listed with rfl | more
              · exact ⟨first :: other, List.mem_cons_self, List.mem_cons_of_mem _ inside⟩
              · exact ⟨other, List.mem_cons_of_mem _ more, inside⟩

/-- No part has the separator in it. -/
theorem notMem_of_mem_splitOn {buffer part : List β} (listed : part ∈ buffer.splitOn sep) :
    sep ∉ part := by
  induction buffer generalizing part with
  | nil =>
      rw [List.splitOn_nil, List.mem_singleton] at listed
      rw [listed]
      exact List.not_mem_nil
  | cons first rest ih =>
      rw [List.splitOn_cons_eq_if_modifyHead] at listed
      by_cases here : first = sep
      · rw [if_pos (beq_iff_eq.mpr here)] at listed
        rcases List.mem_cons.mp listed with rfl | later
        · exact List.not_mem_nil
        · exact ih later
      · rw [if_neg (mt beq_iff_eq.mp here)] at listed
        cases parts : rest.splitOn sep with
        | nil => exact (List.splitOn_ne_nil sep rest parts).elim
        | cons head others =>
            rw [parts] at ih listed
            rcases List.mem_cons.mp listed with rfl | more
            · intro inside
              rcases List.mem_cons.mp inside with rfl | later
              · exact here rfl
              · exact ih List.mem_cons_self later
            · exact ih (List.mem_cons_of_mem _ more)

/-- A text of two clean parts is made of no other two. -/
theorem append_separator_inj {front back front' back' : List β} (clean : sep ∉ front)
    (clean' : sep ∉ back) (same : front' ++ sep :: back' = front ++ sep :: back) :
    front' = front ∧ back' = back := by
  have parts := congrArg (List.splitOn sep) same
  rw [List.splitOn_append_cons_self, List.splitOn_append_cons_self, List.splitOn_eq_singleton clean,
    List.splitOn_eq_singleton clean'] at parts
  have whole : ∀ list : List β, [sep].intercalate (list.splitOn sep) = list :=
    fun list => List.intercalate_splitOn sep
  cases head : front'.splitOn sep with
  | nil => exact (List.splitOn_ne_nil sep front' head).elim
  | cons part others =>
      cases tail : back'.splitOn sep with
      | nil => exact (List.splitOn_ne_nil sep back' tail).elim
      | cons part' others' =>
          rw [head, tail] at parts
          obtain ⟨rfl, rest⟩ := List.cons.inj parts
          obtain ⟨rfl, back⟩ : others = [] ∧ part' :: others' = [back] := by
            cases others with
            | nil => exact ⟨rfl, rest⟩
            | cons _ _ => simp at rest
          have first := whole front'
          have second := whole back'
          rw [head] at first
          rw [tail, back] at second
          simp only [List.intercalate, List.intersperse_singleton, List.flatten_cons, List.flatten_nil,
            List.append_nil] at first second
          exact ⟨first.symm, second.symm⟩

/-- A buffer that goes on: its complete lines, and those that the tail becomes. -/
theorem segments_append (front back : List β) :
    segments sep (front ++ back) =
      ((segments sep front).1 ++ (segments sep ((segments sep front).2 ++ back)).1,
        (segments sep ((segments sep front).2 ++ back)).2) := by
  induction front with
  | nil => rfl
  | cons b rest ih =>
      by_cases here : b = sep
      · rw [List.cons_append, segments, if_pos here, ih, segments, if_pos here]
        rfl
      · rw [List.cons_append, segments, if_neg here, ih, segments, if_neg here]
        cases lines : (segments sep rest).1 with
        | nil =>
            simp only [List.nil_append, List.cons_append]
            rw [segments, if_neg here]
        | cons line lines => rfl

end Reading

/-! ### Prefixes of a line file -/

section Prefixes

variable (sep : β)

/-- Where an interrupted append stopped: `count` lines are complete, and `torn` is what had been
written of the next one. -/
structure Cut (lines : List (List β)) (file : List β) (count : Nat) (torn : List β) : Prop where
  bounded : count ≤ lines.length
  split : file = joinLines sep (lines.take count) ++ torn
  /-- The tail is a prefix of the next line, short of its separator; after the last line there
  is none. -/
  within : torn = [] ∨ ∃ line, lines[count]? = some line ∧ torn <+: line

/-- Every prefix of a line file is a cut of it. -/
theorem cut_of_prefix {lines : List (List β)} {file : List β}
    (isPrefix : file <+: joinLines sep lines) : ∃ count torn, Cut sep lines file count torn := by
  induction lines generalizing file with
  | nil =>
      have empty : file = [] := List.prefix_nil.mp isPrefix
      exact ⟨0, [], Nat.le_refl _, by simp [empty], Or.inl rfl⟩
  | cons line lines ih =>
      rw [joinLines_cons] at isPrefix
      rcases Nat.lt_or_ge line.length file.length with long | short
      · -- the first line is complete, and the rest of the file is a prefix of the other lines
        have first : line ++ [sep] <+: file := by
          have whole : line ++ [sep] <+: line ++ sep :: joinLines sep lines := by
            simp
          exact List.prefix_of_prefix_length_le whole isPrefix (by simp; omega)
        obtain ⟨rest, rfl⟩ := first
        have restPrefix : rest <+: joinLines sep lines := by
          simpa [List.prefix_append_right_inj] using isPrefix
        obtain ⟨count, torn, cut⟩ := ih restPrefix
        refine ⟨count + 1, torn, ?_, ?_, ?_⟩
        · simpa using cut.bounded
        · rw [cut.split]
          simp
        · simpa using cut.within
      · have tail : file <+: line :=
          List.prefix_of_prefix_length_le isPrefix (List.prefix_append _ _) short
        exact ⟨0, file, Nat.zero_le _, by simp, Or.inr ⟨line, by simp, tail⟩⟩

variable {sep}

/-- The torn tail of a cut holds no separator when the lines hold none. -/
theorem Cut.clean {lines : List (List β)} {file torn : List β} {count : Nat}
    (cut : Cut sep lines file count torn) (clean : ∀ line ∈ lines, sep ∉ line) : sep ∉ torn := by
  rcases cut.within with empty | ⟨line, next, inside⟩
  · simp [empty]
  · exact fun member => clean line (List.mem_of_getElem? next) (inside.subset member)

/-- A cut has the complete lines and the tail that reading finds. -/
theorem Cut.segments_eq [DecidableEq β] {lines : List (List β)} {file torn : List β} {count : Nat}
    (cut : Cut sep lines file count torn) (clean : ∀ line ∈ lines, sep ∉ line) :
    segments sep file = (lines.take count, torn) := by
  rw [cut.split]
  exact segments_joinLines sep (fun line member => clean line (List.mem_of_mem_take member))
    (cut.clean clean)

/-- Lines wholly in the file before an interruption are among its complete lines. -/
theorem Cut.le_of_joinLines_prefix {lines : List (List β)} {file torn : List β} {count landed : Nat}
    (cut : Cut sep lines file count torn) (clean : ∀ line ∈ lines, sep ∉ line)
    (inRange : landed ≤ lines.length) (kept : joinLines sep (lines.take landed) <+: file) :
    landed ≤ count := by
  by_contra short
  push Not at short
  -- otherwise line `count` would be complete in the file, and its separator in the torn tail
  have next : count < lines.length := lt_of_lt_of_le short inRange
  have upTo : joinLines sep (lines.take (count + 1)) <+: file :=
    List.IsPrefix.trans (by
      have := joinLines_take_prefix sep (lines.take landed) (count + 1)
      rwa [List.take_take, min_eq_left (by omega)] at this) kept
  have oneMore : lines.take (count + 1) = lines.take count ++ [lines[count]] := by
    rw [List.take_succ_eq_append_getElem next]
  rw [oneMore, joinLines_append, cut.split, List.prefix_append_right_inj] at upTo
  have member : sep ∈ torn := upTo.subset (by simp)
  exact cut.clean clean member

end Prefixes

end Nvoy.Lines
