/-
**What a verified principal line confines.**

The check takes an installed line apart with one pattern and a split at commas; sshd reads the same
line with its own rules.

* `mem_commandPattern` — what the pattern takes, whatever the order;
* `Verified` — what a line that verifies is made of: its first `command="` opens the forced command,
  and its last key stands before the comment;
* `confines_iff` — a line that verifies confines its key just where it is `Clear`;
* `built_verifies`, `built_present` — the lines that are built;
* `principal_confines` — both together.
-/

import Nvoy.Identity.Principal
import Nvoy.Lib.Checks
import Mathlib.Data.Bool.AllAny

namespace Nvoy.Principal

open Memory (isJsSpace)
open Identity (isId trimLine)
open AuthorizedKeys (Key Entry Session Setting Capability COMMAND)

/-! ### What the pattern takes -/

def KEY_TYPES : List (List Char) := ["ssh-ed25519".toList, "ecdsa-sha2-nistp256".toList]

/-- A text of one kind of character, with at least one. -/
def Run (p : Char → Bool) (text : List Char) : Prop := text ≠ [] ∧ ∀ c ∈ text, p c = true

def IsBody (text : List Char) : Prop :=
  ∃ body padding, text = body ++ padding ∧ Run isBase64 body ∧ padding.length ≤ 2 ∧
    ∀ c ∈ padding, c = '='

/-- What stands after the key: a comment of one word, or none. -/
def CommentText (text : List Char) : Option (List Char) → Prop
  | none => ∀ c ∈ text, isJsSpace c = true
  | some comment => ∃ gap trail, text = gap ++ (comment ++ trail) ∧ Run isJsSpace gap ∧
      Run (!isJsSpace ·) comment ∧ ∀ c ∈ trail, isJsSpace c = true

/-- The key of a line, with what stands before and after it. -/
structure KeyText (text after type body : List Char) (comment : Option (List Char)) : Prop where
  parts : ∃ gap gap' tail, text = after ++ (gap ++ (type ++ (gap' ++ (body ++ tail)))) ∧
    Run isJsSpace gap ∧ Run isJsSpace gap' ∧ CommentText tail comment
  dots : ∀ c ∈ after, isDot c = true
  type : type ∈ KEY_TYPES
  body : IsBody body

section Taking

variable {text rest before command : List Char} {groups : Groups}

theorem mem_keyType {x : List Char} :
    (x, rest) ∈ keyType text ↔ text = x ++ rest ∧ x ∈ KEY_TYPES := by
  unfold keyType KEY_TYPES
  simp only [Pattern.mem_either, Pattern.mem_bind, Pattern.mem_word, Pattern.mem_pure,
    Prod.mk.injEq, List.mem_cons, List.not_mem_nil, or_false]
  grind

theorem mem_keyBody {x : List Char} : (x, rest) ∈ keyBody text ↔ text = x ++ rest ∧ IsBody x := by
  unfold keyBody IsBody Run
  simp only [Pattern.mem_bind, Pattern.mem_many1, Pattern.mem_atMost, Pattern.mem_pure,
    Prod.mk.injEq, decide_eq_true_eq]
  constructor
  · rintro ⟨body, _, ⟨nonempty, rfl, all⟩, padding, _, ⟨rfl, short, pads⟩, rfl, rfl⟩
    exact ⟨(List.append_assoc ..).symm, body, padding, rfl, ⟨nonempty, all⟩, short, pads⟩
  · rintro ⟨rfl, body, padding, rfl, ⟨nonempty, all⟩, short, pads⟩
    exact ⟨body, padding ++ rest, ⟨nonempty, List.append_assoc .., all⟩, padding, rest,
      ⟨rfl, short, pads⟩, rfl, rfl⟩

theorem mem_keyPattern :
    (groups, rest) ∈ keyPattern before command text ↔
      KeyText text groups.after groups.keyType groups.keyBody groups.comment ∧
        groups.before = before ∧ groups.command = command ∧ rest = [] := by
  unfold keyPattern
  simp only [Pattern.mem_bind, Pattern.mem_lazy, Pattern.mem_many1, mem_keyType, mem_keyBody,
    Pattern.mem_opt, Pattern.mem_many, Pattern.mem_done, Pattern.mem_pure, Prod.mk.injEq]
  constructor
  · rintro ⟨after, _, ⟨rfl, dots⟩, gap, _, ⟨left, rfl, spaces⟩, type, _, ⟨rfl, listed⟩, gap', _,
      ⟨left', rfl, spaces'⟩, body, tail, ⟨rfl, isBody⟩, comment, trail, comments, trail', _,
      ⟨rfl, spaces''⟩, _, _, ⟨rfl, rfl⟩, rfl, rfl⟩
    refine ⟨⟨⟨gap, gap', tail, rfl, ⟨left, spaces⟩, ⟨left', spaces'⟩, ?_⟩, dots, listed, isBody⟩,
      rfl, rfl, rfl⟩
    rcases comments with ⟨word, rfl, gap'', _, ⟨left'', rfl, spaces₃⟩, solid, rfl, all⟩ | ⟨rfl, same⟩
    · exact ⟨gap'', trail', by simp, ⟨left'', spaces₃⟩, ⟨solid, all⟩, spaces''⟩
    · subst same
      show ∀ c ∈ trail' ++ [], isJsSpace c = true
      rwa [List.append_nil]
  · rintro ⟨⟨⟨gap, gap', tail, rfl, ⟨left, spaces⟩, ⟨left', spaces'⟩, comments⟩, dots, listed, isBody⟩,
      rfl, rfl, rfl⟩
    refine ⟨groups.after, _, ⟨rfl, dots⟩, gap, _, ⟨left, rfl, spaces⟩, groups.keyType, _,
      ⟨rfl, listed⟩, gap', _, ⟨left', rfl, spaces'⟩, groups.keyBody, tail, ⟨rfl, isBody⟩, ?_⟩
    obtain ⟨before, command, after, type, body, comment⟩ := groups
    cases comment with
    | none =>
        exact ⟨none, tail, .inr ⟨rfl, rfl⟩, tail, [], ⟨(List.append_nil _).symm, comments⟩, (), [],
          ⟨rfl, rfl⟩, rfl, rfl⟩
    | some word =>
        obtain ⟨gap'', trail, rfl, ⟨left'', spaces''⟩, ⟨solid, all⟩, last⟩ := comments
        exact ⟨some word, trail, .inl ⟨word, rfl, gap'', _, ⟨left'', rfl, spaces''⟩, solid, rfl, all⟩,
          trail, [], ⟨(List.append_nil _).symm, last⟩, (), [], ⟨rfl, rfl⟩, rfl, rfl⟩

theorem mem_commandPattern :
    (groups, rest) ∈ commandPattern before text ↔
      (∃ keyText, text = COMMAND ++ (groups.command ++ '"' :: keyText) ∧
        KeyText keyText groups.after groups.keyType groups.keyBody groups.comment) ∧
      '"' ∉ groups.command ∧ groups.before = before ∧ rest = [] := by
  unfold commandPattern
  simp only [Pattern.mem_bind, Pattern.mem_word, Pattern.mem_many, mem_keyPattern]
  constructor
  · rintro ⟨_, _, rfl, command, _, ⟨rfl, plain⟩, _, keyText, rfl, parts, rfl, rfl, rfl⟩
    exact ⟨⟨keyText, rfl, parts⟩, fun listed => by simpa using plain _ listed, rfl, rfl⟩
  · rintro ⟨⟨keyText, rfl, parts⟩, plain, rfl, rfl⟩
    refine ⟨(), _, rfl, groups.command, _, ⟨rfl, fun c listed => ?_⟩, (), keyText, rfl, parts, rfl,
      rfl, rfl⟩
    exact decide_eq_true fun same => plain (same ▸ listed)

end Taking

/-! ### The words of a line -/

/-- `line.trim().split(/\s+/)` -/
def words (line : List Char) : List (List Char) := (line.splitOnP isJsSpace).filter (· ≠ [])

/-- The two words before the last. -/
def lastKey (line : List Char) : Option Key :=
  match (words line).reverse with
  | _ :: body :: type :: _ => some ⟨type, body⟩
  | _ => none

section Words

variable {front back gap word : List Char} {c : Char}

theorem words_space (front back : List Char) (space : isJsSpace c = true) :
    words (front ++ c :: back) = words front ++ words back := by
  unfold words
  rw [List.splitOnP_append_cons _ _ space, List.filter_append]

theorem words_spaces (spaces : ∀ c ∈ gap, isJsSpace c = true) : words (gap ++ back) = words back := by
  induction gap with
  | nil => rfl
  | cons c gap ih =>
      obtain ⟨space, spaces⟩ := List.forall_mem_cons.mp spaces
      exact (words_space [] _ space).trans (ih spaces)

theorem words_gap (front back : List Char) (spaces : Run isJsSpace gap) :
    words (front ++ (gap ++ back)) = words front ++ words back := by
  obtain ⟨nonempty, all⟩ := spaces
  cases gap with
  | nil => exact absurd rfl nonempty
  | cons c gap =>
      obtain ⟨space, spaces⟩ := List.forall_mem_cons.mp all
      rw [List.cons_append, words_space _ _ space, words_spaces spaces]

theorem words_trail (spaces : ∀ c ∈ gap, isJsSpace c = true) : words (front ++ gap) = words front := by
  cases gap with
  | nil => rw [List.append_nil]
  | cons c gap =>
      have whole := words_gap front [] ⟨List.cons_ne_nil c gap, spaces⟩
      rw [List.append_nil] at whole
      rw [whole]
      exact List.append_nil _

theorem words_word (solid : Run (!isJsSpace ·) word) : words word = [word] := by
  unfold words
  rw [List.splitOnP_eq_singleton fun c listed => by simpa using solid.2 c listed]
  simpa using solid.1

/-- A text without words is blank. -/
theorem spaces_of_words (none : words word = []) : ∀ c ∈ word, isJsSpace c = true := by
  induction word with
  | nil => exact fun _ listed => absurd listed List.not_mem_nil
  | cons c word ih =>
      by_cases space : isJsSpace c = true
      · have same : words (c :: word) = words word := words_space [] word space
        exact List.forall_mem_cons.mpr ⟨space, ih (same.symm.trans none)⟩
      · unfold words at none
        rw [List.splitOnP_cons_eq_if_modifyHead, if_neg space] at none
        cases parts : word.splitOnP isJsSpace with
        | nil => exact absurd parts (List.splitOnP_ne_nil _ _)
        | cons first others => simp [parts] at none

end Words

/-! ### A line that verifies -/

/-- A character that stands for itself, to the pattern and inside sshd's quotes. -/
structure PlainChar (c : Char) : Prop where
  quote : c ≠ '"'
  escape : c ≠ '\\'
  dot : isDot c = true

theorem plainChar_of_check {text : List Char}
    (check : (text.all fun c => c ≠ '"' && c ≠ '\\' && isDot c) = true) :
    ∀ c ∈ text, PlainChar c := by
  intro c listed
  have all := List.all_eq_true.mp check c listed
  simp only [Bool.and_eq_true, decide_eq_true_eq] at all
  exact ⟨all.1.1, all.1.2, all.2⟩

theorem plainChar_of_toNat {c : Char} (low : c.toNat < 128) (printed : 32 ≤ c.toNat)
    (quote : c ≠ '"') (escape : c ≠ '\\') : PlainChar c := by
  refine ⟨quote, escape, ?_⟩
  unfold isDot
  have line : c ≠ '\n' := by rintro rfl; simp at printed
  have back : c ≠ '\r' := by rintro rfl; simp at printed
  simp only [line, back, ne_eq, not_false_eq_true, decide_true, Bool.true_and, Bool.and_eq_true,
    decide_eq_true_eq]
  omega

theorem alphanum_range {c : Char} (alphanum : c.isAlphanum = true) :
    48 ≤ c.toNat ∧ c.toNat ≤ 122 := by
  unfold Char.isAlphanum Char.isAlpha Char.isUpper Char.isLower Char.isDigit at alphanum
  simp only [Bool.or_eq_true, Bool.and_eq_true, decide_eq_true_eq, UInt32.le_iff_toNat_le] at alphanum
  simp only [Char.toNat]
  have : ('A' : Char).val.toNat = 65 := rfl
  have : ('Z' : Char).val.toNat = 90 := rfl
  have : ('a' : Char).val.toNat = 97 := rfl
  have : ('z' : Char).val.toNat = 122 := rfl
  have : ('0' : Char).val.toNat = 48 := rfl
  have : ('9' : Char).val.toNat = 57 := rfl
  omega

theorem plainChar_alphanum {c : Char} (alphanum : c.isAlphanum = true) : PlainChar c := by
  have range := alphanum_range alphanum
  refine plainChar_of_toNat (by omega) (by omega) ?_ ?_
  · rintro rfl
    revert alphanum
    decide
  · rintro rfl
    revert alphanum
    decide

section Command

variable (m : Manifest)

theorem plainChar_userText : ∀ c ∈ userText m, PlainChar c := by
  have numeral : ∀ {c : Char}, JsNumber.isNumeral c = true → PlainChar c := by
    intro c isNumeral
    simp only [JsNumber.isNumeral, Bool.or_eq_true, decide_eq_true_eq] at isNumeral
    obtain ((digit | rfl) | rfl) | rfl := isNumeral
    · exact plainChar_alphanum (by simp [Char.isAlphanum, digit])
    all_goals exact ⟨by decide, by decide, by decide⟩
  intro c listed
  rcases List.mem_append.mp listed with uid | gid
  · exact numeral (JsNumber.wholeText_numeral uid)
  · rcases List.mem_cons.mp gid with rfl | gid
    · exact ⟨by decide, by decide, by decide⟩
    · exact numeral (JsNumber.wholeText_numeral gid)

theorem plainChar_container : ∀ c ∈ m.adapterContainer.toList, PlainChar c := by
  have valid := m.validContainer
  unfold isContainer at valid
  split at valid
  case h_1 => cases valid
  case h_2 first rest text =>
    rw [text]
    simp only [Bool.and_eq_true, decide_eq_true_eq, List.all_eq_true, Bool.or_eq_true] at valid
    obtain ⟨⟨alphanum, -⟩, others⟩ := valid
    refine List.forall_mem_cons.mpr ⟨plainChar_alphanum alphanum, fun c listed => ?_⟩
    obtain ((alphanum | rfl) | rfl) | rfl := others c listed
    · exact plainChar_alphanum alphanum
    all_goals exact ⟨by decide, by decide, by decide⟩

theorem plainChar_id : ∀ c ∈ m.id.toList, PlainChar c := by
  have valid := m.validId
  unfold isId at valid
  split at valid
  case h_1 => cases valid
  case h_2 first rest text =>
    rw [text]
    simp only [Bool.and_eq_true, decide_eq_true_eq, List.all_eq_true, Bool.or_eq_true] at valid
    obtain ⟨⟨⟨alphanum, -⟩, -⟩, others⟩ := valid
    refine List.forall_mem_cons.mpr ⟨plainChar_alphanum alphanum, fun c listed => ?_⟩
    obtain ((alphanum | rfl) | rfl) | rfl := others c listed
    · exact plainChar_alphanum alphanum
    all_goals exact ⟨by decide, by decide, by decide⟩

theorem forcedCommand_eq : forcedCommand m =
    "/usr/bin/docker exec -i --user ".toList ++ (userText m ++ (' ' :: (m.adapterContainer.toList ++
      (" /usr/local/bin/node /srv/nvoy/mcp/tools/claude-channel.mjs --instance ".toList ++
        m.id.toList)))) := by
  rw [← List.append_nil m.id.toList]
  rfl

theorem plainChar_command : ∀ c ∈ forcedCommand m, PlainChar c := by
  intro c listed
  rw [forcedCommand_eq] at listed
  simp only [List.mem_append, List.mem_cons] at listed
  rcases listed with first | user | rfl | container | tool | id
  · exact plainChar_of_check (by decide) c first
  · exact plainChar_userText m c user
  · exact ⟨by decide, by decide, by decide⟩
  · exact plainChar_container m c container
  · exact plainChar_of_check (by decide) c tool
  · exact plainChar_id m c id

theorem command_user : " --user ".toList ++ userText m ++ [' '] <:+: forcedCommand m := by
  have first : "/usr/bin/docker exec -i --user ".toList =
      "/usr/bin/docker exec -i".toList ++ " --user ".toList := by decide
  rw [forcedCommand_eq, first]
  exact ⟨"/usr/bin/docker exec -i".toList, m.adapterContainer.toList ++
    (" /usr/local/bin/node /srv/nvoy/mcp/tools/claude-channel.mjs --instance ".toList ++ m.id.toList),
    by simp⟩

theorem command_container : ' ' :: m.adapterContainer.toList ++ [' '] <:+: forcedCommand m := by
  have tool : " /usr/local/bin/node /srv/nvoy/mcp/tools/claude-channel.mjs --instance ".toList =
      ' ' :: "/usr/local/bin/node /srv/nvoy/mcp/tools/claude-channel.mjs --instance ".toList := by decide
  rw [forcedCommand_eq, tool]
  exact ⟨"/usr/bin/docker exec -i --user ".toList ++ userText m,
    "/usr/local/bin/node /srv/nvoy/mcp/tools/claude-channel.mjs --instance ".toList ++ m.id.toList,
    by simp⟩

theorem command_tool : TOOL.toList <:+: forcedCommand m := by
  have tool : " /usr/local/bin/node /srv/nvoy/mcp/tools/claude-channel.mjs --instance ".toList =
      " /usr/local/bin/node ".toList ++ (TOOL.toList ++ " --instance ".toList) := by decide
  rw [forcedCommand_eq, tool]
  exact ⟨"/usr/bin/docker exec -i --user ".toList ++ (userText m ++ (' ' :: (m.adapterContainer.toList ++
    " /usr/local/bin/node ".toList))), " --instance ".toList ++ m.id.toList, by simp⟩

theorem command_id : " --instance ".toList ++ m.id.toList <:+ forcedCommand m := by
  have tool : " /usr/local/bin/node /srv/nvoy/mcp/tools/claude-channel.mjs --instance ".toList =
      " /usr/local/bin/node /srv/nvoy/mcp/tools/claude-channel.mjs".toList ++ " --instance ".toList := by
    decide
  rw [forcedCommand_eq, tool]
  exact ⟨"/usr/bin/docker exec -i --user ".toList ++ (userText m ++ (' ' :: (m.adapterContainer.toList ++
    " /usr/local/bin/node /srv/nvoy/mcp/tools/claude-channel.mjs".toList))), by simp⟩

theorem command_slash : ∃ rest, forcedCommand m = '/' :: rest := ⟨_, forcedCommand_eq m⟩

end Command

section Trimming

variable {line : List Char}

theorem trim_parts (line : List Char) : ∃ lead trail, line = lead ++ (trimLine line ++ trail) ∧
    (∀ c ∈ lead, isJsSpace c = true) ∧ ∀ c ∈ trail, isJsSpace c = true := by
  refine ⟨line.takeWhile isJsSpace, (line.dropWhile isJsSpace).rtakeWhile isJsSpace, ?_,
    fun c listed => List.mem_takeWhile_imp listed, fun c listed => List.mem_rtakeWhile_imp listed⟩
  rw [trimLine, List.rdropWhile_append_rtakeWhile, List.takeWhile_append_dropWhile]

/-- The first command of the trimmed line is the first of the line. -/
theorem afterFirst_trim {found : List Char} (first : afterFirst COMMAND (trimLine line) = some found) :
    ∃ more, afterFirst COMMAND line = some (found ++ more) := by
  obtain ⟨lead, trail, same, spaces, -⟩ := trim_parts line
  refine ⟨trail, ?_⟩
  rw [same, afterFirst_passes]
  · exact afterFirst_append first trail
  · rintro front back rfl left ⟨more, occurs⟩
    cases back with
    | nil => exact left rfl
    | cons c back =>
        obtain ⟨rfl, -⟩ := List.cons.inj occurs
        have space := spaces 'c' (List.mem_append_right _ List.mem_cons_self)
        revert space
        decide

theorem words_trim : words line = words (trimLine line) := by
  obtain ⟨lead, trail, same, spaces, spaces'⟩ := trim_parts line
  conv_lhs => rw [same]
  rw [words_spaces spaces, words_trail spaces']

/-- sshd's line, and what it leaves out of the text. -/
theorem start_parts (line : List Char) : ∃ lead rest,
    line = lead ++ (AuthorizedKeys.start line ++ rest) ∧
      (∀ c ∈ lead, AuthorizedKeys.isBlank c = true) ∧ (rest = [] ∨ ∃ more, rest = '\n' :: more) := by
  refine ⟨(line.takeWhile (· ≠ '\n')).takeWhile AuthorizedKeys.isBlank, line.dropWhile (· ≠ '\n'), ?_,
    fun c listed => List.mem_takeWhile_imp listed, ?_⟩
  · rw [AuthorizedKeys.start, ← List.append_assoc, List.takeWhile_append_dropWhile,
      List.takeWhile_append_dropWhile]
  · cases left : line.dropWhile (· ≠ '\n') with
    | nil => exact .inl rfl
    | cons c more =>
        have stops := List.head_dropWhile_not (· ≠ '\n') (l := line) (by rw [left]; exact List.cons_ne_nil _ _)
        refine .inr ⟨more, ?_⟩
        simp only [left, List.head_cons] at stops
        simpa using stops

end Trimming

section Key

variable {text after type body front comment : List Char} {word : Option (List Char)}

theorem KeyText.longer (key : KeyText text after type body word) (dots : ∀ c ∈ front, isDot c = true) :
    KeyText (front ++ text) (front ++ after) type body word := by
  obtain ⟨⟨gap, gap', tail, same, parts⟩, dots', listed, isBody⟩ := key
  refine ⟨⟨gap, gap', tail, by rw [same, List.append_assoc], parts⟩, fun c inside => ?_, listed, isBody⟩
  exact (List.mem_append.mp inside).elim (dots c) (dots' c)

theorem not_space_of_alphanum {c : Char} (alphanum : c.isAlphanum = true) : isJsSpace c = false := by
  have range := alphanum_range alphanum
  unfold isJsSpace
  simp only [Bool.or_eq_false_iff, Bool.and_eq_false_iff, decide_eq_false_iff_not]
  omega

theorem run_type (listed : type ∈ KEY_TYPES) : Run (!isJsSpace ·) type := by
  have types : ∀ type ∈ KEY_TYPES, type ≠ [] ∧ (type.all fun c => !isJsSpace c) = true := by decide
  obtain ⟨nonempty, all⟩ := types type listed
  exact ⟨nonempty, List.all_eq_true.mp all⟩

theorem run_body (isBody : IsBody body) : Run (!isJsSpace ·) body := by
  obtain ⟨digits, padding, rfl, ⟨nonempty, all⟩, -, pads⟩ := isBody
  refine ⟨fun none => nonempty (List.append_eq_nil_iff.mp none).1, fun c listed => ?_⟩
  rcases List.mem_append.mp listed with inside | pad
  · have base := all c inside
    simp only [isBase64, Bool.or_eq_true, decide_eq_true_eq] at base
    obtain (alphanum | rfl) | rfl := base
    · exact congrArg Bool.not (not_space_of_alphanum alphanum)
    all_goals decide
  · rw [pads c pad]
    decide

/-- The last three words, where there is a comment. -/
theorem KeyText.words_eq (key : KeyText text after type body (some comment)) (front : List Char) :
    words (front ++ text) = words (front ++ after) ++ [type, body, comment] := by
  obtain ⟨⟨gap, gap', tail, rfl, spaces, spaces', gap'', trail, rfl, spaces'', solid, last⟩, -,
    listed, isBody⟩ := key
  rw [← List.append_assoc, words_gap _ _ spaces, words_gap _ _ spaces', words_gap _ _ spaces'', words_trail last,
    words_word (run_type listed), words_word (run_body isBody), words_word solid]
  rfl

/-- The last two, where there is none. -/
theorem KeyText.words_eq_none (key : KeyText text after type body none) :
    words text = words after ++ [type, body] := by
  obtain ⟨⟨gap, gap', tail, rfl, spaces, spaces', last⟩, -, listed, isBody⟩ := key
  rw [words_gap _ _ spaces, words_gap _ _ spaces', words_trail last, words_word (run_type listed),
    words_word (run_body isBody)]
  rfl

theorem lastKey_of_words {line : List Char} {before : List (List Char)}
    (same : words line = before ++ [type, body, comment]) : lastKey line = some ⟨type, body⟩ := by
  unfold lastKey
  rw [same]
  simp

end Key

section Checked

variable {m : Manifest} {line : List Char} {v : Verdict} {groups : Groups}

/-- What a match of the whole pattern comes from. -/
theorem principalPattern_some {text : List Char}
    (matched : Pattern.exec principalPattern text = some groups) :
    ∃ keyText, text = groups.before ++ (COMMAND ++ (groups.command ++ '"' :: keyText)) ∧
      KeyText keyText groups.after groups.keyType groups.keyBody groups.comment ∧
      '"' ∉ groups.command ∧ (∀ c ∈ groups.before, isDot c = true) ∧
      ∀ x y, text = x ++ (COMMAND ++ y) → (∀ c ∈ x, isDot c = true) →
        x.length < groups.before.length → commandPattern x (COMMAND ++ y) = [] := by
  obtain ⟨before, rest, rfl, dots, found, shortest⟩ := Pattern.exec_lazy_bind matched
  obtain ⟨left, taken⟩ := Pattern.mem_of_exec found
  obtain ⟨⟨keyText, rfl, key⟩, plain, rfl, -⟩ := mem_commandPattern.mp taken
  exact ⟨keyText, rfl, key, plain, dots, fun x y same dots' shorter => shortest x _ same dots' shorter⟩

/-- An earlier occurrence of the word, as far as its quote. -/
theorem earlier_occurrence {before rest x y : List Char}
    (same : before ++ (COMMAND ++ rest) = x ++ (COMMAND ++ y)) (shorter : x.length < before.length) :
    (∀ c ∈ x, c ∈ before) ∧
      ∃ between, y = between ++ '"' :: rest ∧ ∀ c ∈ between, c ∈ before ++ COMMAND := by
  rcases List.append_eq_append_iff.mp same with ⟨u, rfl, -⟩ | ⟨u, rfl, tail⟩
  · simp at shorter
  · refine ⟨fun c listed => List.mem_append_left _ listed, ?_⟩
    -- the two words end in their quotes, and the earlier one is shorter
    have split : (u ++ "command=".toList) ++ '"' :: rest = COMMAND ++ y := by
      rw [tail, List.append_assoc]
      rfl
    have long : COMMAND.length ≤ (u ++ "command=".toList).length := by
      rw [List.length_append] at shorter ⊢
      have size : "command=".toList.length + 1 = COMMAND.length := rfl
      omega
    rcases List.append_eq_append_iff.mp split with ⟨z, whole, follows⟩ | ⟨between, whole, rfl⟩
    · have size := congrArg List.length whole
      rw [List.length_append] at size
      obtain rfl : z = [] := List.length_eq_zero_iff.mp (by omega)
      exact ⟨[], follows.symm, fun _ listed => absurd listed List.not_mem_nil⟩
    · refine ⟨between, rfl, fun c listed => ?_⟩
      have inside : c ∈ u ++ "command=".toList := by
        rw [whole]
        exact List.mem_append_right _ listed
      rcases List.mem_append.mp inside with front | word
      · exact List.mem_append_left _ (List.mem_append_right _ front)
      · have both : ∀ c ∈ "command=".toList, c ∈ COMMAND := List.all_iff_forall_prop.mp (by decide)
        exact List.mem_append_right _ (both c word)

/-- Of a match, the word is the first in the text. -/
theorem first_of_match {text : List Char} (m : Manifest)
    (matched : Pattern.exec principalPattern text = some groups)
    (forced : groups.command = forcedCommand m) :
    ∃ keyText, afterFirst COMMAND text = some (forcedCommand m ++ '"' :: keyText) := by
  obtain ⟨keyText, same, key, -, dots, shortest⟩ := principalPattern_some matched
  rw [forced] at same
  refine ⟨keyText, ?_⟩
  rw [same]
  refine afterFirst_of_shortest (by decide) fun x y early => ?_
  by_contra shorter
  obtain ⟨front, between, rfl, inside⟩ := earlier_occurrence early (not_le.mp shorter)
  -- the pattern would have matched at the earlier one, up to the first quote after it
  have dot : ∀ c ∈ between, isDot c = true := fun c listed => by
    have word : ∀ c ∈ COMMAND, isDot c = true := List.all_iff_forall_prop.mp (by decide)
    exact (List.mem_append.mp (inside c listed)).elim (dots c) (word c)
  have plain := plainChar_command m
  have rest : ∀ c ∈ forcedCommand m ++ ['"'], isDot c = true := fun c listed =>
    (List.mem_append.mp listed).elim (fun inside => (plain c inside).dot)
      fun quote => by rw [List.mem_singleton.mp quote]; decide
  obtain ⟨command, more, cut, first⟩ := List.eq_append_cons_of_mem
    (List.mem_append_right between (List.mem_singleton.mpr rfl) : '"' ∈ between ++ ['"'])
  have dot' : ∀ c ∈ more ++ (forcedCommand m ++ ['"']), isDot c = true := fun c listed => by
    rcases List.mem_append.mp listed with inside | inside
    · have listed' : c ∈ between ++ ['"'] := by
        rw [cut]
        exact List.mem_append_right _ (List.mem_cons_of_mem _ inside)
      exact (List.mem_append.mp listed').elim (dot c)
        fun quote => by rw [List.mem_singleton.mp quote]; decide
    · exact rest c inside
  have taken : ((⟨x, command, more ++ (forcedCommand m ++ ['"']) ++ groups.after, groups.keyType,
      groups.keyBody, groups.comment⟩, []) : Groups × List Char) ∈
      commandPattern x (COMMAND ++ (between ++ '"' :: (forcedCommand m ++ '"' :: keyText))) := by
    refine mem_commandPattern.mpr ⟨⟨_, ?_, key.longer dot'⟩, first, rfl, rfl⟩
    have whole : between ++ '"' :: (forcedCommand m ++ '"' :: keyText) =
        between ++ ['"'] ++ (forcedCommand m ++ '"' :: keyText) := by simp
    rw [whole, cut]
    simp
  rw [shortest x _ (same.trans early) (fun c listed => dots c (front c listed)) (not_le.mp shorter)] at taken
  cases taken

/-- What a line that verifies is made of. -/
structure Verified (m : Manifest) (line : List Char) (v : Verdict) : Prop where
  first : ∃ more, afterFirst COMMAND line = some (forcedCommand m ++ '"' :: more)
  key : lastKey line = some ⟨v.parsed.keyType, v.parsed.keyBody⟩
  uncommented : (AuthorizedKeys.start line).head? ≠ some '#'

theorem parsePrincipal_some {parsed : Parsed} (read : parsePrincipal line = some parsed) :
    (trimLine line).head? ≠ some '#' ∧
      ∃ groups, Pattern.exec principalPattern (trimLine line) = some groups ∧
        parsed.command = groups.command ∧ parsed.keyType = groups.keyType ∧
        parsed.keyBody = groups.keyBody ∧ parsed.comment = groups.comment.getD [] := by
  unfold parsePrincipal at read
  simp only at read
  split at read
  case isTrue => cases read
  case isFalse kept =>
    obtain ⟨groups, matched, rfl⟩ := Option.map_eq_some_iff.mp read
    exact ⟨fun comment => kept (.inr comment), groups, matched, rfl, rfl, rfl, rfl⟩

theorem findings_ok {parsed : Parsed} (ok : (findings m parsed).all Finding.ok = true) :
    parsed.command = forcedCommand m ∧ parsed.comment = principalComment m := by
  unfold findings at ok
  simp only [List.all_cons, List.all_nil, Bool.and_true, Bool.and_eq_true, decide_eq_true_eq] at ok
  exact ⟨ok.2.2.1, ok.2.2.2.2.2.2.2⟩

theorem head_rdropWhile {c : Char} {text : List Char} (solid : isJsSpace c = false) :
    ((c :: text).rdropWhile isJsSpace).head? = some c := by
  have front := List.rdropWhile_prefix isJsSpace (c :: text)
  cases left : (c :: text).rdropWhile isJsSpace with
  | nil =>
      have space := List.rdropWhile_eq_nil_iff.mp left c List.mem_cons_self
      rw [solid] at space
      cases space
  | cons d rest =>
      rw [left] at front
      obtain ⟨more, same⟩ := front
      rw [List.head?_cons, (List.cons.inj same).1]

/-- sshd passes over the blanks that the trimming takes away. -/
theorem uncommented_of_trim (kept : (trimLine line).head? ≠ some '#') :
    (AuthorizedKeys.start line).head? ≠ some '#' := by
  intro comment
  obtain ⟨lead, rest, same, blanks, -⟩ := start_parts line
  cases text : AuthorizedKeys.start line with
  | nil => rw [text] at comment; cases comment
  | cons c more =>
      rw [text] at comment same
      obtain rfl : c = '#' := by simpa using comment
      have spaces : ∀ c ∈ lead, isJsSpace c = true := fun c listed => by
        have blank := blanks c listed
        simp only [AuthorizedKeys.isBlank, Bool.or_eq_true, decide_eq_true_eq] at blank
        obtain rfl | rfl := blank <;> decide
      refine kept ?_
      unfold trimLine
      rw [same, List.dropWhile_append_of_pos spaces, List.cons_append,
        List.dropWhile_cons_of_neg (by decide)]
      exact head_rdropWhile (by decide)

theorem verified_of_ok (checked : verifyPrincipal m line = some v) (ok : v.ok = true) :
    Verified m line v := by
  obtain ⟨parsed, read, rfl⟩ := Option.map_eq_some_iff.mp checked
  obtain ⟨kept, groups, matched, command, type, body, comment⟩ := parsePrincipal_some read
  obtain ⟨forced, named⟩ := findings_ok ok
  obtain ⟨keyText, first⟩ := first_of_match m matched (command.symm.trans forced)
  refine ⟨?_, ?_, uncommented_of_trim kept⟩
  · obtain ⟨more, whole⟩ := afterFirst_trim first
    exact ⟨keyText ++ more, by rw [whole, List.append_assoc]; rfl⟩
  · obtain ⟨keyText, same, key, -⟩ := principalPattern_some matched
    have some_ : ∃ word, groups.comment = some word := by
      cases had : groups.comment with
      | some word => exact ⟨word, rfl⟩
      | none =>
          rw [had, named] at comment
          cases comment
    obtain ⟨word, had⟩ := some_
    rw [had] at key
    have all : words line = words (groups.before ++ (COMMAND ++ (groups.command ++ '"' :: groups.after))) ++
        [groups.keyType, groups.keyBody, word] := by
      rw [words_trim, same]
      have tail := key.words_eq (groups.before ++ (COMMAND ++ (groups.command ++ ['"'])))
      simpa using tail
    show lastKey line = some ⟨parsed.keyType, parsed.keyBody⟩
    rw [lastKey_of_words all, type, body]

end Checked

/-! ### What sshd makes of it -/

section Confines

variable (isKey : Key → Bool) (takes : List (List Char × List Char) → Bool)

/-- sshd lets in exactly the key that was checked, runs exactly the forced command and leaves all
five capabilities off. -/
def Confines (m : Manifest) (line : List Char) (v : Verdict) : Prop :=
  ∃ e, AuthorizedKeys.read isKey takes line = some e ∧
    e.key = ⟨v.parsed.keyType, v.parsed.keyBody⟩ ∧ e.session.command = some (forcedCommand m) ∧
    (∀ c, e.session.permits c = false) ∧ e.session.signer = false

/-- The line does not begin with a key; after its options stands the last key of the line; every
option is known, with a value that is taken; each capability is turned off by one of them and by
none after it on again; none makes the key a signer; and one is a command, whose keyword is in lower
case or whose text is the forced one. -/
def Clear (m : Manifest) (line : List Char) : Prop :=
  AuthorizedKeys.readKey isKey (AuthorizedKeys.start line) = none ∧
    ∃ pieces rest key settings, AuthorizedKeys.cut false (AuthorizedKeys.start line) = some (pieces, rest) ∧
      AuthorizedKeys.readKey isKey (rest.dropWhile AuthorizedKeys.isBlank) = some key ∧
      lastKey line = some key ∧ AuthorizedKeys.readSettings pieces = some settings ∧
      takes (AuthorizedKeys.values settings) = true ∧
      (∀ c, AuthorizedKeys.TurnedOff c settings) ∧ Setting.certAuthority ∉ settings ∧
      (∃ command, AuthorizedKeys.commands settings = [command]) ∧
      ∀ piece ∈ pieces, ∀ command, AuthorizedKeys.readSetting piece = some (.command command) →
        COMMAND <+: piece ∨ command = forcedCommand m

variable {m : Manifest} {line : List Char} {v : Verdict} {isKey takes}

theorem readSettings_known {pieces : List (List Char)} {settings : List Setting}
    (all : AuthorizedKeys.readSettings pieces = some settings) :
    ∀ piece ∈ pieces, piece ≠ [] → ∃ x, AuthorizedKeys.readSetting piece = some x := by
  intro piece listed left
  have known := (mapM_eq_some.mp all).1 piece (List.mem_filter.mpr ⟨listed, decide_eq_true left⟩)
  exact Option.isSome_iff_exists.mp known

theorem mem_settings {pieces : List (List Char)} {settings : List Setting} {x : Setting}
    (all : AuthorizedKeys.readSettings pieces = some settings) :
    x ∈ settings ↔ ∃ piece ∈ pieces, piece ≠ [] ∧ AuthorizedKeys.readSetting piece = some x := by
  rw [← (mapM_eq_some.mp all).2, List.mem_filterMap]
  constructor
  · rintro ⟨piece, listed, read⟩
    obtain ⟨listed, left⟩ := List.mem_filter.mp listed
    exact ⟨piece, listed, of_decide_eq_true left, read⟩
  · rintro ⟨piece, listed, left, read⟩
    exact ⟨piece, List.mem_filter.mpr ⟨listed, decide_eq_true left⟩, read⟩

theorem mem_commands {settings : List Setting} {command : List Char} :
    command ∈ AuthorizedKeys.commands settings ↔ Setting.command command ∈ settings := by
  unfold AuthorizedKeys.commands
  rw [List.mem_filterMap]
  constructor
  · rintro ⟨x, listed, same⟩
    cases x <;> simp_all
  · exact fun listed => ⟨_, listed, rfl⟩

/-- The one command is the forced one. -/
theorem forced_of_clear (verified : Verified m line v) {pieces : List (List Char)} {rest command : List Char}
    {settings : List Setting}
    (cut : AuthorizedKeys.cut false (AuthorizedKeys.start line) = some (pieces, rest))
    (all : AuthorizedKeys.readSettings pieces = some settings)
    (single : AuthorizedKeys.commands settings = [command])
    (spelled : ∀ piece ∈ pieces, ∀ command, AuthorizedKeys.readSetting piece = some (.command command) →
      COMMAND <+: piece ∨ command = forcedCommand m) : command = forcedCommand m := by
  have listed : Setting.command command ∈ settings := by
    rw [← mem_commands, single]
    exact List.mem_singleton.mpr rfl
  obtain ⟨piece, inPieces, left, read⟩ := (mem_settings all).mp listed
  rcases spelled piece inPieces command read with opens | forced
  · obtain ⟨after, found, opened⟩ :=
      AuthorizedKeys.command_of_first cut (readSettings_known all) ⟨piece, inPieces, opens⟩
    -- both readings begin at the first command of the line
    obtain ⟨more, forced⟩ := verified.first
    obtain ⟨lead, tail, same, blanks, ends⟩ := start_parts line
    have first : afterFirst COMMAND line = some (after ++ tail) := by
      rw [same, afterFirst_passes]
      · exact afterFirst_append found tail
      · rintro front back rfl left ⟨z, occurs⟩
        cases back with
        | nil => exact left rfl
        | cons c back =>
            obtain ⟨rfl, -⟩ := List.cons.inj occurs
            have blank := blanks 'c' (List.mem_append_right _ List.mem_cons_self)
            revert blank
            decide
    have whole : after ++ tail = forcedCommand m ++ '"' :: more :=
      Option.some.inj (first.symm.trans forced)
    obtain ⟨slashed, slash⟩ := command_slash m
    have plain : ∀ c ∈ forcedCommand m, c ≠ '"' ∧ c ≠ '\\' := fun c listed =>
      ⟨(plainChar_command m c listed).quote, (plainChar_command m c listed).escape⟩
    rcases opened with (rfl | ⟨c, rest', rfl, closes⟩) | ⟨value, left, dequoted, piece', inPieces', read'⟩
    · -- the text would end here, and the command begins with a slash
      rw [slash] at whole
      obtain rfl | ⟨more', rfl⟩ := ends
      · cases whole
      · cases whole
    · rw [slash] at whole
      obtain ⟨rfl, -⟩ := List.cons.inj whole
      exact absurd closes (by decide)
    · have both : some (value, left ++ tail) = some (forcedCommand m, more) := by
        rw [← AuthorizedKeys.dequote_append dequoted tail, whole, AuthorizedKeys.dequote_plain plain]
      obtain ⟨isForced, -⟩ := Prod.mk.inj (Option.some.inj both)
      have inside : value ∈ AuthorizedKeys.commands settings := by
        refine mem_commands.mpr ((mem_settings all).mpr ⟨piece', inPieces', ?_, read'⟩)
        rintro rfl
        rw [AuthorizedKeys.readSetting_nil] at read'
        cases read'
      rw [single] at inside
      rw [← isForced, List.mem_singleton.mp inside]
  · exact forced

/-- **A line that verifies confines its key exactly when it is clear.** -/
theorem confines_iff (verified : Verified m line v) :
    Confines isKey takes m line v ↔ Clear isKey takes m line := by
  constructor
  · rintro ⟨e, read, key, command, off, plain⟩
    unfold AuthorizedKeys.read at read
    simp only at read
    split at read
    case isTrue => cases read
    case isFalse =>
      split at read
      case h_1 => 
        -- a line that begins with its key has no options, and so no command
        obtain rfl := Option.some.inj read
        cases command
      case h_2 optionsFirst =>
        obtain ⟨⟨pieces, rest⟩, cut, read⟩ := Option.bind_eq_some_iff.mp read
        obtain ⟨key', keyed, read⟩ := Option.bind_eq_some_iff.mp read
        obtain ⟨session, options, rfl⟩ := Option.map_eq_some_iff.mp read
        obtain ⟨settings, all, performed⟩ := Option.bind_eq_some_iff.mp options
        split at performed
        case isFalse => cases performed
        case isTrue taken =>
          obtain ⟨commands, signs, permits⟩ := AuthorizedKeys.perform_eq performed
          obtain rfl : key' = _ := key
          have single : AuthorizedKeys.commands settings = [forcedCommand m] := by
            rw [← commands, command]
            rfl
          refine ⟨optionsFirst, pieces, rest, _, settings, cut, keyed, verified.key, all, taken,
            fun c => (permits c).mp (off c), fun listed => ?_, ⟨_, single⟩, ?_⟩
          · rw [signs.mpr listed] at plain
            cases plain
          · intro piece listed command' read'
            have left : piece ≠ [] := by
              rintro rfl
              rw [AuthorizedKeys.readSetting_nil] at read'
              cases read'
            have inside := mem_commands.mpr ((mem_settings all).mpr ⟨piece, listed, left, read'⟩)
            rw [single] at inside
            exact .inr (List.mem_singleton.mp inside)
  · rintro ⟨optionsFirst, pieces, rest, key, settings, cut, keyed, last, all, taken, off, plain,
      ⟨command, single⟩, spelled⟩
    have forced := forced_of_clear verified cut all single spelled
    have once : (AuthorizedKeys.commands settings).length ≤ 1 := by
      rw [single]
      exact le_rfl
    obtain ⟨s, ran⟩ := AuthorizedKeys.perform_some once
    obtain ⟨commands, signs, permits⟩ := AuthorizedKeys.perform_eq ran
    have same : key = ⟨v.parsed.keyType, v.parsed.keyBody⟩ :=
      Option.some.inj (last.symm.trans verified.key)
    have kept : ¬ (AuthorizedKeys.start line = [] ∨ (AuthorizedKeys.start line).head? = some '#') := by
      rintro (none | comment)
      · rw [none] at cut
        obtain ⟨rfl, -⟩ := Prod.mk.inj (Option.some.inj cut)
        obtain rfl := Option.some.inj all
        cases single
      · exact verified.uncommented comment
    have options : AuthorizedKeys.readOptions takes pieces = some s := by
      unfold AuthorizedKeys.readOptions
      rw [all, Option.bind_some, if_pos taken, ran]
    refine ⟨⟨key, s⟩, ?_, same, ?_, fun c => (permits c).mpr (off c), ?_⟩
    · unfold AuthorizedKeys.read
      simp only
      rw [if_neg kept, optionsFirst, cut]
      simp only [Option.bind_some, keyed, options, Option.map_some]
    · rw [single, forced] at commands
      exact Option.toList_eq_singleton_iff.mp commands
    · exact Bool.eq_false_iff.mpr fun signer => plain (signs.mp signer)

end Confines

/-! ### The lines that are built -/

/-- A key that `readPublicKey` accepts. -/
structure Accepted (key : Key) : Prop where
  type : key.type ∈ KEY_TYPES
  body : IsBody key.body

theorem accepted_of_read {file : List Char} {key : Key} (read : readPublicKey file = .ok key) :
    Accepted key := by
  unfold readPublicKey at read
  simp only at read
  split at read
  case isTrue => cases read
  split at read
  case isTrue => cases read
  split at read
  case h_1 => cases read
  case h_2 found matched =>
    obtain rfl := Except.ok.inj read
    obtain ⟨left, taken⟩ := Pattern.mem_of_exec matched
    unfold keyLine at taken
    simp only [Pattern.mem_bind, mem_keyType, mem_keyBody, Pattern.mem_pure, Prod.mk.injEq] at taken
    obtain ⟨type, _, ⟨-, listed⟩, _, _, _, body, _, ⟨-, isBody⟩, _, _, _, _, _, _, rfl, -⟩ := taken
    exact ⟨listed, isBody⟩

/-- What the built line says after its options. -/
def keyTail (m : Manifest) (key : Key) : List Char :=
  ' ' :: (key.type ++ ' ' :: (key.body ++ ' ' :: principalComment m))

section Built

variable {m : Manifest} {key : Key}

theorem principalLine_eq : principalLine m key =
    "restrict,".toList ++ (COMMAND ++ (forcedCommand m ++ '"' :: keyTail m key)) := by
  have options : "restrict,command=\"".toList = "restrict,".toList ++ COMMAND := by decide
  have closes : "\" ".toList = ['"', ' '] := by decide
  unfold principalLine keyTail
  rw [options, closes]
  simp

theorem solid_id : Run (!isJsSpace ·) m.id.toList := by
  have valid := m.validId
  unfold isId at valid
  split at valid
  case h_1 => cases valid
  case h_2 first rest text =>
    rw [text]
    simp only [Bool.and_eq_true, decide_eq_true_eq, List.all_eq_true, Bool.or_eq_true] at valid
    obtain ⟨⟨⟨alphanum, -⟩, -⟩, others⟩ := valid
    have letter : ∀ {c : Char}, c.isAlphanum = true → (!isJsSpace c) = true := fun alphanum =>
      congrArg Bool.not (not_space_of_alphanum alphanum)
    refine ⟨List.cons_ne_nil _ _, List.forall_mem_cons.mpr ⟨letter alphanum, fun c listed => ?_⟩⟩
    obtain ((alphanum | rfl) | rfl) | rfl := others c listed
    · exact letter alphanum
    all_goals decide

theorem solid_comment : Run (!isJsSpace ·) (principalComment m) := by
  refine ⟨List.cons_ne_nil _ _, fun c listed => ?_⟩
  rcases List.mem_append.mp listed with front | id
  · have all : ("nvoy-claude-channel-".toList.all fun c => !isJsSpace c) = true := by decide
    exact List.all_eq_true.mp all c front
  · exact solid_id.2 c id

theorem trim_built : trimLine (principalLine m key) = principalLine m key := by
  have head : (principalLine m key).dropWhile isJsSpace = principalLine m key := by
    rw [principalLine_eq]
    exact List.dropWhile_cons_of_neg (by decide)
  rw [trimLine, head, List.rdropWhile_eq_self_iff]
  intro nonempty space
  have whole : principalLine m key = "restrict,command=\"".toList ++ forcedCommand m ++ "\" ".toList ++
      key.type ++ ' ' :: key.body ++ ' ' :: "nvoy-claude-channel-".toList ++ m.id.toList := by
    unfold principalLine principalComment
    simp
  have last : (principalLine m key).getLast nonempty = m.id.toList.getLast solid_id.1 := by
    rw [List.getLast_congr nonempty (by simp) whole]
    exact List.getLast_append_of_ne_nil _ solid_id.1
  have solid := solid_id.2 _ (List.getLast_mem (solid_id (m := m)).1)
  rw [← last] at solid
  simp [space] at solid

theorem words_tail (accepted : Accepted key) :
    words (keyTail m key) = [key.type, key.body, principalComment m] := by
  have space : isJsSpace ' ' = true := by decide
  unfold keyTail
  rw [← List.nil_append (' ' :: _), words_space _ _ space, words_space _ _ space, words_space _ _ space,
    words_word (run_type accepted.type), words_word (run_body accepted.body), words_word solid_comment]
  rfl

/-- No key is the comment: that one holds dashes. -/
theorem not_body_comment : ¬ IsBody (principalComment m) := by
  rintro ⟨digits, padding, same, ⟨-, all⟩, -, pads⟩
  have dash : '-' ∈ digits ++ padding := by
    rw [← same]
    exact List.mem_append_left _ (by decide)
  rcases List.mem_append.mp dash with inside | pad
  · exact absurd (all _ inside) (by decide)
  · exact absurd (pads _ pad) (by decide)

/-- The key and the comment of the built line can be read in one way only. -/
theorem keyTail_inj (accepted : Accepted key) {after type body : List Char} {word : Option (List Char)}
    (read : KeyText (keyTail m key) after type body word) :
    after = [] ∧ type = key.type ∧ body = key.body ∧ word = some (principalComment m) := by
  cases word with
  | none =>
      have all := (words_tail accepted).symm.trans read.words_eq_none
      have parts : [key.type] ++ [key.body, principalComment m] = words after ++ [type, body] := all
      obtain ⟨-, ends⟩ := List.append_inj' parts rfl
      have same : principalComment m = body := by simpa using congrArg List.getLast? ends
      exact absurd (same ▸ read.body) not_body_comment
  | some comment =>
      have all := (words_tail accepted).symm.trans (read.words_eq [])
      have parts : [] ++ [key.type, key.body, principalComment m] = words after ++ [type, body, comment] :=
        all
      obtain ⟨none, ends⟩ := List.append_inj' parts rfl
      simp only [List.cons.injEq] at ends
      obtain ⟨rfl, rfl, rfl, -⟩ := ends
      refine ⟨?_, rfl, rfl, rfl⟩
      -- one blank stands before the type, and the gap is not empty
      have blank := spaces_of_words none.symm
      obtain ⟨gap, gap', tail, same, ⟨left, spaces⟩, -⟩ := read.parts
      obtain ⟨nonempty, solid⟩ := run_type accepted.type
      have two : ∀ c rest, after ++ gap = ' ' :: c :: rest → False := by
        intro c rest front
        rw [← List.append_assoc, front] at same
        have second := (List.cons.inj same).2
        cases first : key.type with
        | nil => exact nonempty first
        | cons d more =>
            rw [first] at second
            obtain rfl : d = c := (List.cons.inj second).1
            have inside : d ∈ after ++ gap := by rw [front]; simp
            have space := (List.mem_append.mp inside).elim (blank d) (spaces d)
            have := solid d (by rw [first]; exact List.mem_cons_self)
            simp [space] at this
      cases after with
      | nil => rfl
      | cons c after =>
          obtain rfl : ' ' = c := (List.cons.inj same).1
          cases whole : after ++ gap with
          | nil => exact absurd (List.append_eq_nil_iff.mp whole).2 left
          | cons d rest => exact absurd (by rw [List.cons_append, whole]) (two d rest)

theorem keyText_built (accepted : Accepted key) :
    KeyText (keyTail m key) [] key.type key.body (some (principalComment m)) := by
  have blank : Run isJsSpace [' '] := ⟨List.cons_ne_nil _ _, List.all_iff_forall_prop.mp (by decide)⟩
  refine ⟨⟨[' '], [' '], ' ' :: principalComment m, rfl, blank, blank, [' '], [], ?_, blank,
    solid_comment, fun _ listed => absurd listed List.not_mem_nil⟩,
    fun _ listed => absurd listed List.not_mem_nil, accepted.type, accepted.body⟩
  rw [List.append_nil]
  rfl

/-- No quote stands in the built line but the two around its command. -/
theorem quote_keyTail (accepted : Accepted key) : '"' ∉ keyTail m key := by
  have types : ∀ type ∈ KEY_TYPES, '"' ∉ type := by decide
  obtain ⟨digits, padding, same, ⟨-, all⟩, -, pads⟩ := accepted.body
  have body : '"' ∉ key.body := by
    rw [same]
    intro listed
    rcases List.mem_append.mp listed with inside | pad
    · exact absurd (all _ inside) (by decide)
    · exact absurd (pads _ pad) (by decide)
  have comment : '"' ∉ principalComment m := by
    intro listed
    rcases List.mem_append.mp listed with front | id
    · revert front
      decide
    · exact (plainChar_id m '"' id).quote rfl
  unfold keyTail
  simp only [List.mem_cons, List.mem_append, not_or]
  exact ⟨by decide, types _ accepted.type, by decide, body, by decide, comment⟩

/-- The built line parses to what it was built from. -/
theorem parse_built (accepted : Accepted key) : parsePrincipal (principalLine m key) =
    some ⟨["restrict".toList], forcedCommand m, key.type, key.body, principalComment m⟩ := by
  have quote : '"' ∉ forcedCommand m := fun listed => (plainChar_command m _ listed).quote rfl
  -- the pattern takes the line as it was built
  have taken : ((⟨"restrict,".toList, forcedCommand m, [], key.type, key.body,
      some (principalComment m)⟩, []) : Groups × List Char) ∈
      principalPattern (principalLine m key) := by
    refine Pattern.mem_bind.mpr ⟨"restrict,".toList, _, Pattern.mem_lazy.mpr ⟨principalLine_eq, List.all_iff_forall_prop.mp (by decide)⟩,
      mem_commandPattern.mpr ⟨⟨_, rfl, keyText_built accepted⟩, quote, rfl, rfl⟩⟩
  obtain ⟨groups, matched⟩ := Pattern.exec_of_mem taken
  obtain ⟨keyText, same, read, plain, -, -⟩ := principalPattern_some matched
  -- and in no other way, as it holds two quotes
  rw [principalLine_eq] at same
  have none : '"' ∉ groups.before := by
    intro listed
    have counts := congrArg (List.count '"') same
    have once : List.count '"' COMMAND = 1 := by decide
    have front : List.count '"' "restrict,".toList = 0 := by decide
    simp only [List.count_append, List.count_cons_self, once, front,
      List.count_eq_zero.mpr quote, List.count_eq_zero.mpr plain,
      List.count_eq_zero.mpr (quote_keyTail accepted)] at counts
    have := List.count_pos_iff.mpr listed
    omega
  have split : "restrict,command=".toList ++ '"' :: (forcedCommand m ++ '"' :: keyTail m key) =
      groups.before ++ "command=".toList ++ '"' :: (groups.command ++ '"' :: keyText) := by
    rw [List.append_assoc]
    exact same
  have clean : '"' ∉ "restrict,command=".toList := by decide
  have clean' : '"' ∉ groups.before ++ "command=".toList := fun listed =>
    (List.mem_append.mp listed).elim none (by decide)
  obtain ⟨before, rest⟩ := AuthorizedKeys.separated_inj clean clean' split
  obtain ⟨command, tail⟩ := AuthorizedKeys.separated_inj quote plain rest
  have before' : groups.before = "restrict,".toList :=
    (List.append_cancel_right (before : "restrict,".toList ++ "command=".toList = _)).symm
  rw [← tail] at read
  obtain ⟨after, type, body, comment⟩ := keyTail_inj accepted read
  have kept : ¬ (principalLine m key = [] ∨ (principalLine m key).head? = some '#') := by
    rw [principalLine_eq]
    rintro (none | comment)
    · cases none
    · revert comment
      simp
  unfold parsePrincipal
  simp only
  rw [trim_built, if_neg kept, matched, Option.map_some, before', after, type, body, comment, ← command]
  rfl

theorem built_verifies (accepted : Accepted key) :
    ∃ v, verifyPrincipal m (principalLine m key) = some v ∧ v.ok = true ∧
      v.parsed.keyType = key.type ∧ v.parsed.keyBody = key.body := by
  refine ⟨_, by rw [verifyPrincipal, parse_built accepted]; rfl, ?_, rfl, rfl⟩
  have user := command_user m
  have container := command_container m
  have bound := command_id m
  have tool := command_tool m
  have restricted : "restrict".toList ∈ ["restrict".toList] := List.mem_singleton.mpr rfl
  have off : (reEnabled ["restrict".toList]).isEmpty = true := by decide
  show (findings m _).all Finding.ok = true
  unfold findings
  simp only [List.all_cons, List.all_nil, Bool.and_true, Bool.and_eq_true, decide_eq_true_eq]
  exact ⟨restricted, off, trivial, user, container, bound, tool, trivial⟩

/-! ### sshd on the built line -/

theorem start_built (accepted : Accepted key) :
    AuthorizedKeys.start (principalLine m key) = principalLine m key := by
  have types : ∀ type ∈ KEY_TYPES, '\n' ∉ type := by decide
  have body : '\n' ∉ key.body := fun listed => by
    have solid := (run_body accepted.body).2 _ listed
    revert solid
    decide
  have comment : '\n' ∉ principalComment m := fun listed => by
    have solid := solid_comment.2 _ listed
    revert solid
    decide
  have command : '\n' ∉ forcedCommand m := fun listed => by
    have dot := (plainChar_command m _ listed).dot
    revert dot
    decide
  have whole : '\n' ∉ principalLine m key := by
    rw [principalLine_eq]
    unfold keyTail
    simp only [List.mem_append, List.mem_cons, not_or]
    exact ⟨by decide, by decide, command, by decide, by decide, types _ accepted.type, by decide, body,
      by decide, comment⟩
  have all : (principalLine m key).takeWhile (· ≠ '\n') = principalLine m key :=
    List.takeWhile_eq_self_iff.mpr fun c listed => decide_eq_true fun same => whole (same ▸ listed)
  unfold AuthorizedKeys.start
  rw [all, principalLine_eq]
  exact List.dropWhile_cons_of_neg (by decide)

theorem cut_built : AuthorizedKeys.cut false (principalLine m key) =
    some (["restrict".toList, COMMAND ++ (forcedCommand m ++ ['"'])], keyTail m key) := by
  have quoted : ∀ text : List Char, (∀ c ∈ text, c ≠ '"' ∧ c ≠ '\\') →
      AuthorizedKeys.cut true (text ++ '"' :: keyTail m key) = some ([text ++ ['"']], keyTail m key) := by
    intro text plain
    induction text with
    | nil => rfl
    | cons c text ih =>
        obtain ⟨⟨quote, back⟩, plain⟩ := List.forall_mem_cons.mp plain
        rw [List.cons_append, AuthorizedKeys.cut.eq_3 true c _ fun _ same _ => back same, if_neg quote,
          if_pos rfl, ih plain]
        rfl
  have options : ∀ text : List Char, AuthorizedKeys.cut false ("restrict,".toList ++ (COMMAND ++ text)) =
      (AuthorizedKeys.cut true text).map fun found =>
        ("restrict".toList :: COMMAND.foldr AuthorizedKeys.pushFirst found.1, found.2) := by
    intro text
    cases found : AuthorizedKeys.cut true text with
    | none => simp [AuthorizedKeys.cut, COMMAND, found, AuthorizedKeys.isBlank]
    | some found' =>
        simp [AuthorizedKeys.cut, COMMAND, found, AuthorizedKeys.isBlank]
        rfl
  rw [principalLine_eq, options, quoted _ fun c listed =>
    ⟨(plainChar_command m c listed).quote, (plainChar_command m c listed).escape⟩]
  rfl

theorem readSetting_built :
    AuthorizedKeys.readSetting (COMMAND ++ (forcedCommand m ++ ['"'])) =
      some (.command (forcedCommand m)) := by
  have quoted : AuthorizedKeys.dequote (forcedCommand m ++ ['"']) = some (forcedCommand m, []) :=
    AuthorizedKeys.dequote_plain (fun c listed =>
      ⟨(plainChar_command m c listed).quote, (plainChar_command m c listed).escape⟩) []
  have value : AuthorizedKeys.readValued (COMMAND ++ (forcedCommand m ++ ['"'])) =
      some ("command".toList, forcedCommand m) := by
    unfold AuthorizedKeys.readValued
    have rest : (COMMAND ++ (forcedCommand m ++ ['"'])).dropWhile (· ≠ '=') =
        '=' :: '"' :: (forcedCommand m ++ ['"']) := rfl
    rw [rest]
    simp only [quoted]
    rfl
  unfold AuthorizedKeys.readSetting
  rw [value]
  rfl

theorem not_blank {c : Char} (solid : (!isJsSpace c) = true) : AuthorizedKeys.isBlank c = false := by
  cases blank : AuthorizedKeys.isBlank c with
  | false => rfl
  | true =>
      simp only [AuthorizedKeys.isBlank, Bool.or_eq_true, decide_eq_true_eq] at blank
      obtain rfl | rfl := blank <;> revert solid <;> decide

theorem dropWhile_word {word rest : List Char} (solid : Run (!isJsSpace ·) word) :
    (word ++ rest).dropWhile AuthorizedKeys.isBlank = word ++ rest := by
  cases word with
  | nil => exact absurd rfl solid.1
  | cons c word =>
      have plain := not_blank (solid.2 c List.mem_cons_self)
      exact List.dropWhile_cons_of_neg (by rw [plain]; exact Bool.false_ne_true)

theorem readKey_words (isKey : Key → Bool) {type body : List Char} (rest : List Char)
    (solid : Run (!isJsSpace ·) type) (solid' : Run (!isJsSpace ·) body) :
    AuthorizedKeys.readKey isKey (type ++ ' ' :: (body ++ ' ' :: rest)) =
      if isKey ⟨type, body⟩ then some ⟨type, body⟩ else none := by
  have plain : ∀ word : List Char, Run (!isJsSpace ·) word →
      ∀ c ∈ word, (!AuthorizedKeys.isBlank c) = true := fun word solid c listed =>
    congrArg Bool.not (not_blank (solid.2 c listed))
  have first : ∀ word rest : List Char, Run (!isJsSpace ·) word →
      (word ++ ' ' :: rest).takeWhile (!AuthorizedKeys.isBlank ·) = word := fun word rest solid => by
    rw [List.takeWhile_append_of_pos (plain word solid)]
    exact List.append_nil _
  have after : ((type ++ ' ' :: (body ++ ' ' :: rest)).dropWhile (!AuthorizedKeys.isBlank ·)).dropWhile
      AuthorizedKeys.isBlank = body ++ ' ' :: rest := by
    rw [List.dropWhile_append_of_pos (plain type solid)]
    exact dropWhile_word solid'
  unfold AuthorizedKeys.readKey
  simp only [after, first type _ solid, first body _ solid']

/-- The lines that are built are clear, where sshd takes their key for one and no option for a key. -/
theorem built_clear {isKey : Key → Bool} {takes : List (List Char × List Char) → Bool}
    (accepted : Accepted key) (keyed : isKey key = true)
    (options : isKey ⟨"restrict,command=\"/usr/bin/docker".toList, "exec".toList⟩ = false)
    (none : takes [] = true) : Clear isKey takes m (principalLine m key) := by
  have type := run_type accepted.type
  have body := run_body accepted.body
  unfold Clear
  rw [start_built accepted]
  refine ⟨?_, _, _, key, [.restrict, .command (forcedCommand m)], cut_built, ?_, ?_, ?_, none,
    fun c => ⟨[], _, _, rfl, .inl rfl, by simp⟩, by simp, ⟨_, rfl⟩, ?_⟩
  · have whole : ∃ rest, principalLine m key =
        "restrict,command=\"/usr/bin/docker".toList ++ ' ' :: ("exec".toList ++ ' ' :: rest) := by
      have first : "restrict,".toList ++ (COMMAND ++ "/usr/bin/docker exec -i --user ".toList) =
          "restrict,command=\"/usr/bin/docker".toList ++
            ' ' :: ("exec".toList ++ ' ' :: "-i --user ".toList) := by decide
      rw [principalLine_eq, forcedCommand_eq]
      refine ⟨"-i --user ".toList ++ (userText m ++ ' ' :: (m.adapterContainer.toList ++
        (" /usr/local/bin/node /srv/nvoy/mcp/tools/claude-channel.mjs --instance ".toList ++
          m.id.toList)) ++ '"' :: keyTail m key), ?_⟩
      have front := congrArg (· ++ (userText m ++ ' ' :: (m.adapterContainer.toList ++
        (" /usr/local/bin/node /srv/nvoy/mcp/tools/claude-channel.mjs --instance ".toList ++
          m.id.toList)) ++ '"' :: keyTail m key)) first
      simpa using front
    obtain ⟨rest, whole⟩ := whole
    have words := readKey_words isKey rest
      (⟨List.cons_ne_nil _ _, List.all_iff_forall_prop.mp (by decide)⟩ :
        Run (!isJsSpace ·) "restrict,command=\"/usr/bin/docker".toList)
      (⟨List.cons_ne_nil _ _, List.all_iff_forall_prop.mp (by decide)⟩ :
        Run (!isJsSpace ·) "exec".toList)
    rw [whole, words, options]
    rfl
  · have drop : (keyTail m key).dropWhile AuthorizedKeys.isBlank =
        key.type ++ ' ' :: (key.body ++ ' ' :: principalComment m) :=
      dropWhile_word type
    rw [drop, readKey_words isKey _ type body, if_pos keyed]
  · have all := (keyText_built (m := m) accepted).words_eq
      ("restrict,".toList ++ (COMMAND ++ (forcedCommand m ++ ['"'])))
    refine lastKey_of_words (Eq.trans ?_ all)
    rw [principalLine_eq]
    simp
  · unfold AuthorizedKeys.readSettings
    have kept : ["restrict".toList, COMMAND ++ (forcedCommand m ++ ['"'])].filter (· ≠ []) =
        ["restrict".toList, COMMAND ++ (forcedCommand m ++ ['"'])] := rfl
    rw [kept, mapM_eq_some]
    have restrict : AuthorizedKeys.readSetting "restrict".toList = some .restrict := by decide
    refine ⟨List.forall_mem_cons.mpr ⟨by rw [restrict]; rfl, List.forall_mem_cons.mpr
      ⟨by rw [readSetting_built]; rfl, fun _ listed => absurd listed List.not_mem_nil⟩⟩, ?_⟩
    rw [List.filterMap_cons_some restrict, List.filterMap_cons_some readSetting_built]
    rfl
  · intro piece listed command read
    rcases List.mem_cons.mp listed with rfl | listed
    · have restrict : AuthorizedKeys.readSetting "restrict".toList = some .restrict := by decide
      rw [restrict] at read
      cases read
    · rw [List.mem_singleton.mp listed]
      exact .inl (List.prefix_append _ _)

/-! ### The file -/

/-- A line of the file that the plan counts as this identity's. -/
def carries (m : Manifest) (line : List Char) : Bool :=
  (trimLine line ≠ [] && (trimLine line).head? ≠ some '#') && isOurs m (trimLine line)

theorem ours_eq (text : List Char) :
    ours m text = ((text.splitOn '\n').filter (carries m)).map trimLine := by
  unfold ours
  rw [List.filter_map, List.filter_map, List.filter_filter]
  congr 2
  funext line
  simp [carries, Bool.and_comm]

theorem carries_built (accepted : Accepted key) {line : List Char}
    (built : trimLine line = principalLine m key) : carries m line = true := by
  unfold carries isOurs
  rw [built, parse_built accepted, principalLine_eq]
  simp

theorem built_present (accepted : Accepted key) {text : List Char}
    (listed : principalLine m key ∈ (text.splitOn '\n').map trimLine) :
    (∀ line, principalPlan text m key ≠ .append line) ∧
      ((∀ front line back, text.splitOn '\n' = front ++ line :: back →
        trimLine line = principalLine m key → (∀ other ∈ front ++ back, carries m other = false) →
        principalPlan text m key = .present (principalLine m key))) := by
  constructor
  · obtain ⟨line, inFile, built⟩ := List.mem_map.mp listed
    have inside : principalLine m key ∈ ours m text := by
      rw [ours_eq]
      exact List.mem_map.mpr ⟨line, List.mem_filter.mpr ⟨inFile, carries_built accepted built⟩, built⟩
    intro want appends
    unfold principalPlan at appends
    simp only at appends
    split at appends
    case h_1 none => rw [none] at inside; cases inside
    case h_2 => split at appends <;> cases appends
    case h_3 => cases appends
  · intro front line back same built others
    have none : ∀ lines : List (List Char), (∀ other ∈ lines, carries m other = false) →
        lines.filter (carries m) = [] := fun lines all =>
      List.filter_eq_nil_iff.mpr fun other listed => Bool.not_eq_true _ ▸ all other listed
    have single : ours m text = [principalLine m key] := by
      rw [ours_eq, same, List.filter_append, List.filter_cons_of_pos (carries_built accepted built),
        none front fun other listed => others other (List.mem_append_left _ listed),
        none back fun other listed => others other (List.mem_append_right _ listed)]
      rw [List.nil_append, List.map_singleton, built]
    unfold principalPlan
    simp only [single, if_true]

end Built

/-- **A line that verifies confines its key exactly when it is clear, and a line that was built for
a key that `readPublicKey` accepts verifies, is found present where no other line carries the
identity's comment, and is never one to append.** -/
theorem principal_confines (isKey : Key → Bool) (takes : List (List Char × List Char) → Bool)
    (m : Manifest) :
    (∀ line v, verifyPrincipal m line = some v → v.ok = true →
      (Confines isKey takes m line v ↔ Clear isKey takes m line)) ∧
    ∀ file key, readPublicKey file = .ok key →
      (∃ v, verifyPrincipal m (principalLine m key) = some v ∧ v.ok = true) ∧
      ∀ text, principalLine m key ∈ (text.splitOn '\n').map trimLine →
        (∀ line, principalPlan text m key ≠ .append line) ∧
        ∀ front line back, text.splitOn '\n' = front ++ line :: back →
          trimLine line = principalLine m key → (∀ other ∈ front ++ back, carries m other = false) →
          principalPlan text m key = .present (principalLine m key) := by
  refine ⟨fun line v checked ok => confines_iff (verified_of_ok checked ok), fun file key read => ?_⟩
  have accepted := accepted_of_read read
  obtain ⟨v, checked, ok, -, -⟩ := built_verifies (m := m) accepted
  exact ⟨⟨v, checked, ok⟩, fun text listed => built_present accepted listed⟩

/-! ### One identity -/

theorem isId_oliver : isId "oliver" = true := by decide

def oliver : Manifest where
  id := "oliver"
  validId := isId_oliver
  workerUid := 1013
  positive := by decide
  workerHandoffGid := 1024
  adapterContainer := "nvoy-oliver-adapter-1"
  validContainer := by decide

def oliverKey : Key := ⟨"ssh-ed25519".toList, "AAAAC3NzaC1lZDI1NTE5AAAAIE9saXZlcg".toList⟩

attribute [local instance] lawful_chars

/-- The words of a key of one of the two types. -/
def knownKey (key : Key) : Bool := decide (key.type ∈ KEY_TYPES) && decide (key.body ≠ [])

theorem principal_confines_oliver :
    (∃ v, verifyPrincipal oliver (principalLine oliver oliverKey) = some v ∧
      Confines knownKey (fun _ => true) oliver (principalLine oliver oliverKey) v) ∧
    principalPlan (principalLine oliver oliverKey ++ ['\n']) oliver oliverKey =
      .present (principalLine oliver oliverKey) := by
  have read : readPublicKey (oliverKey.type ++ ' ' :: oliverKey.body ++ " oliver".toList) =
      .ok oliverKey := by decide +kernel
  obtain ⟨iff, built⟩ := principal_confines knownKey (fun _ => true) oliver
  obtain ⟨⟨v, checked, ok⟩, inFile⟩ := built _ oliverKey read
  have lines : (principalLine oliver oliverKey ++ ['\n']).splitOn '\n' =
      [principalLine oliver oliverKey, []] := by decide +kernel
  refine ⟨⟨v, checked, (iff _ v checked ok).mpr
    (built_clear (accepted_of_read read) (by decide) (by decide) rfl)⟩, ?_⟩
  refine (inFile _ ?_).2 [] (principalLine oliver oliverKey) [[]] lines trim_built ?_
  · rw [lines]
    exact List.mem_map.mpr ⟨_, List.mem_cons_self, trim_built⟩
  · intro other listed
    rw [List.mem_singleton.mp listed]
    decide

/-- `user-rc`, put after `restrict`. -/
def userRcLine : List Char :=
  "restrict,user-rc,command=\"".toList ++ forcedCommand oliver ++ "\" ".toList ++ oliverKey.type ++
    ' ' :: oliverKey.body ++ ' ' :: principalComment oliver

/-- The line verifies, and sshd runs the account's rc file before the forced command. -/
theorem user_rc_verifies :
    ¬ ∀ line v, verifyPrincipal oliver line = some v → v.ok = true →
      Confines knownKey (fun _ => true) oliver line v := by
  intro confines
  have checked : (verifyPrincipal oliver userRcLine).map Verdict.ok = some true := by decide +kernel
  obtain ⟨v, verified, ok⟩ := Option.map_eq_some_iff.mp checked
  obtain ⟨e, read, -, -, off, -⟩ := confines userRcLine v verified ok
  have on : (AuthorizedKeys.read knownKey (fun _ => true) userRcLine).map
      (fun e => e.session.permits .userRc) = some true := by decide +kernel
  rw [read, Option.map_some, off .userRc] at on
  cases on

end Nvoy.Principal
