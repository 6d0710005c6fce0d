/-
**A line of `authorized_keys`, as sshd reads it.**

Options come first, cut at the commas outside double quotes, up to the first blank outside them; a
keyword is compared without case; `restrict` turns the five capabilities off, a later option of one
of their names turns that one on again; `cert-authority` makes the key a signer of other keys; a
second command, or a word that is no option, refuses the line. Which two words are a public key, and
which values the other options take, are parameters.

* `read` — the key a line lets in, what it runs and what it may do;
* `perform_eq` — what a list of options comes to;
* `command_of_first` — the first `command="` of a line whose options are all known opens a command,
  unless it closes a quoted text.
-/

import Nvoy.Lib.Pattern
import Mathlib.Data.Bool.AllAny
import Mathlib.Data.List.Infix
import Mathlib.Data.List.TakeWhile
import Mathlib.Logic.Function.Basic
import Mathlib.Data.Option.Basic

namespace Nvoy.AuthorizedKeys

/-! ### Options -/

inductive Capability
  | pty
  | agentForwarding
  | portForwarding
  | x11Forwarding
  | userRc
  deriving DecidableEq, Repr

def Capability.keyword : Capability → String
  | .pty => "pty"
  | .agentForwarding => "agent-forwarding"
  | .portForwarding => "port-forwarding"
  | .x11Forwarding => "x11-forwarding"
  | .userRc => "user-rc"

def CAPABILITIES : List Capability :=
  [.pty, .agentForwarding, .portForwarding, .x11Forwarding, .userRc]

/-- What an option says of the key itself, nothing of the session. -/
def KEY_FLAGS : List String :=
  ["touch-required", "no-touch-required", "verify-required", "no-verify-required"]

/-- The other options that take a value. -/
def VALUED : List String :=
  ["principals", "from", "expiry-time", "environment", "permitopen", "permitlisten", "tunnel"]

inductive Setting
  | restrict
  | certAuthority
  | permit (c : Capability) (on : Bool)
  | keyFlag
  | command (text : List Char)
  | valued (keyword value : List Char)
  deriving DecidableEq

def lower (text : List Char) : List Char := text.map Char.toLower

/-- A quoted text after its first quote, and what follows it; a backslash quotes a quote. -/
def dequote : List Char → Option (List Char × List Char)
  | [] => none
  | '\\' :: '"' :: rest => (dequote rest).map fun read => ('"' :: read.1, read.2)
  | c :: rest =>
      if c = '"' then some ([], rest)
      else (dequote rest).map fun read => (c :: read.1, read.2)

/-- `name="value"`, all of it. -/
def readValued (piece : List Char) : Option (List Char × List Char) :=
  match piece.dropWhile (· ≠ '=') with
  | '=' :: '"' :: quoted =>
      match dequote quoted with
      | some (value, []) => some (piece.takeWhile (· ≠ '='), value)
      | _ => none
  | _ => none

def readFlag (piece : List Char) : Option Setting :=
  let flag := lower piece
  if flag = "restrict".toList then some .restrict
  else if flag = "cert-authority".toList then some .certAuthority
  else if flag ∈ KEY_FLAGS.map String.toList then some .keyFlag
  else match CAPABILITIES.find? (fun c => c.keyword.toList = flag) with
  | some c => some (.permit c true)
  | none =>
      (CAPABILITIES.find? fun c => ("no-" ++ c.keyword).toList = flag).map fun c => .permit c false

def readSetting (piece : List Char) : Option Setting :=
  match readValued piece with
  | some (name, value) =>
      if lower name = "command".toList then some (.command value)
      else if lower name ∈ VALUED.map String.toList then some (.valued (lower name) value)
      else none
  | none => readFlag piece

/-! ### The line -/

def isBlank (c : Char) : Bool := c = ' ' || c = '\t'

def pushFirst (c : Char) : List (List Char) → List (List Char)
  | [] => [[c]]
  | piece :: pieces => (c :: piece) :: pieces

/-- The pieces of the options, and the text from the blank that ends them. -/
def cut : Bool → List Char → Option (List (List Char) × List Char)
  | quoted, [] => if quoted then none else some ([[]], [])
  | quoted, '\\' :: '"' :: rest =>
      (cut quoted rest).map fun found => (pushFirst '\\' (pushFirst '"' found.1), found.2)
  | quoted, c :: rest =>
      if c = '"' then (cut (!quoted) rest).map fun found => (pushFirst c found.1, found.2)
      else if quoted then (cut true rest).map fun found => (pushFirst c found.1, found.2)
      else if isBlank c then some ([[]], c :: rest)
      else if c = ',' then (cut false rest).map fun found => ([] :: found.1, found.2)
      else (cut false rest).map fun found => (pushFirst c found.1, found.2)

/-- The line itself, from its first character that is no blank. -/
def start (text : List Char) : List Char := (text.takeWhile (· ≠ '\n')).dropWhile isBlank

/-- What a session that the key opens may do. -/
structure Session where
  permits : Capability → Bool := fun _ => true
  command : Option (List Char) := none
  signer : Bool := false

def Session.take (s : Session) : Setting → Option Session
  | .restrict => some { s with permits := fun _ => false }
  | .certAuthority => some { s with signer := true }
  | .permit c on => some { s with permits := Function.update s.permits c on }
  | .command text => if s.command = none then some { s with command := some text } else none
  | .keyFlag | .valued .. => some s

def perform (settings : List Setting) : Option Session := settings.foldlM Session.take {}

/-- The other options, with their values. -/
def values (settings : List Setting) : List (List Char × List Char) := settings.filterMap fun
  | .valued name value => some (name, value)
  | _ => none

def readSettings (pieces : List (List Char)) : Option (List Setting) :=
  (pieces.filter (· ≠ [])).mapM readSetting

structure Key where
  type : List Char
  body : List Char
  deriving DecidableEq

structure Entry where
  key : Key
  session : Session

section Reading

-- Whether the two words are a public key, and whether the values of the other options are taken.
variable (isKey : Key → Bool) (takes : List (List Char × List Char) → Bool)

/-- The two words the text begins with, where they are a key. -/
def readKey (text : List Char) : Option Key :=
  let after := (text.dropWhile (!isBlank ·)).dropWhile isBlank
  let key : Key := ⟨text.takeWhile (!isBlank ·), after.takeWhile (!isBlank ·)⟩
  if isKey key then some key else none

def readOptions (pieces : List (List Char)) : Option Session :=
  (readSettings pieces).bind fun settings =>
    if takes (values settings) then perform settings else none

/-- The options stand before the key, where the line does not begin with one. -/
def read (text : List Char) : Option Entry :=
  let line := start text
  if line = [] ∨ line.head? = some '#' then none
  else match readKey isKey line with
  | some key => some ⟨key, {}⟩
  | none =>
      (cut false line).bind fun found =>
        (readKey isKey (found.2.dropWhile isBlank)).bind fun key =>
          (readOptions takes found.1).map fun session => ⟨key, session⟩

end Reading

/-! ### What a list of options comes to -/

def commands (settings : List Setting) : List (List Char) := settings.filterMap fun
  | .command text => some text
  | _ => none

/-- Turned off by one option, and by none after it turned on again. -/
def TurnedOff (c : Capability) (settings : List Setting) : Prop :=
  ∃ before off after, settings = before ++ off :: after ∧
    (off = .restrict ∨ off = .permit c false) ∧ Setting.permit c true ∉ after

section Perform

variable {s s' : Session} {x : Setting} {c : Capability} {settings : List Setting}

theorem turnedOff_cons : TurnedOff c (x :: settings) ↔
    TurnedOff c settings ∨
      ((x = .restrict ∨ x = .permit c false) ∧ Setting.permit c true ∉ settings) := by
  constructor
  · rintro ⟨before, off, after, same, turns, last⟩
    cases before with
    | nil =>
        obtain ⟨rfl, rfl⟩ := List.cons.inj same
        exact .inr ⟨turns, last⟩
    | cons y before =>
        obtain ⟨rfl, rfl⟩ := List.cons.inj same
        exact .inl ⟨before, off, after, rfl, turns, last⟩
  · rintro (⟨before, off, after, rfl, turns, last⟩ | ⟨turns, last⟩)
    · exact ⟨x :: before, off, after, rfl, turns, last⟩
    · exact ⟨[], x, settings, rfl, turns, last⟩

theorem permits_take (taken : s.take x = some s') :
    s'.permits c = false ↔
      (x = .restrict ∨ x = .permit c false) ∨ (s.permits c = false ∧ x ≠ .permit c true) := by
  cases x with
  | permit c' on =>
      obtain rfl := Option.some.inj taken
      by_cases same : c = c'
      · subst same
        cases on <;> simp
      · simp [Function.update_of_ne same, Ne.symm same]
  | command text =>
      simp only [Session.take] at taken
      split at taken
      · obtain rfl := Option.some.inj taken
        simp
      · cases taken
  | restrict | certAuthority | keyFlag | valued =>
      obtain rfl := Option.some.inj taken
      simp

theorem signer_take (taken : s.take x = some s') :
    s'.signer = true ↔ x = .certAuthority ∨ s.signer = true := by
  cases x with
  | command text =>
      simp only [Session.take] at taken
      split at taken
      · obtain rfl := Option.some.inj taken
        simp
      · cases taken
  | restrict | certAuthority | permit | keyFlag | valued =>
      obtain rfl := Option.some.inj taken
      simp

theorem command_take (taken : s.take x = some s') :
    s'.command.toList = s.command.toList ++ commands [x] := by
  cases x with
  | command text =>
      simp only [Session.take] at taken
      split at taken
      case isTrue none =>
        obtain rfl := Option.some.inj taken
        rw [none]
        rfl
      · cases taken
  | restrict | certAuthority | permit | keyFlag | valued =>
      obtain rfl := Option.some.inj taken
      simp [commands]

theorem commands_cons : commands (x :: settings) = commands [x] ++ commands settings := by
  rw [commands, commands, commands, ← List.filterMap_append]
  rfl

/-- What the options make of a session. -/
theorem foldlM_take (ran : settings.foldlM Session.take s = some s') :
    s'.command.toList = s.command.toList ++ commands settings ∧
      (s'.signer = true ↔ s.signer = true ∨ .certAuthority ∈ settings) ∧
      ∀ c, s'.permits c = false ↔
        TurnedOff c settings ∨ (s.permits c = false ∧ Setting.permit c true ∉ settings) := by
  induction settings generalizing s with
  | nil =>
      obtain rfl := Option.some.inj ran
      refine ⟨by simp [commands], by simp, fun c => ?_⟩
      simp [TurnedOff]
  | cons x settings ih =>
      obtain ⟨s₁, taken, ran⟩ := Option.bind_eq_some_iff.mp ran
      obtain ⟨command, signer, permits⟩ := ih ran
      refine ⟨?_, ?_, fun c => ?_⟩
      · rw [command, command_take taken, List.append_assoc, ← commands_cons]
      · rw [signer, signer_take taken, List.mem_cons]
        tauto
      · rw [permits c, permits_take taken, turnedOff_cons, List.mem_cons, not_or]
        have flip : x ≠ .permit c true ↔ Setting.permit c true ≠ x := ne_comm
        tauto

theorem foldlM_take_some (single : (s.command.toList ++ commands settings).length ≤ 1) :
    ∃ s', settings.foldlM Session.take s = some s' := by
  induction settings generalizing s with
  | nil => exact ⟨s, rfl⟩
  | cons x settings ih =>
      have first : ∃ s₁, s.take x = some s₁ := by
        cases x with
        | command text =>
            have none : s.command = none := by
              cases had : s.command with
              | none => rfl
              | some t =>
                  rw [had, commands_cons] at single
                  simp [commands] at single
            exact ⟨{ s with command := some text }, by simp [Session.take, none]⟩
        | restrict | certAuthority | permit | keyFlag | valued => exact ⟨_, rfl⟩
      obtain ⟨s₁, taken⟩ := first
      obtain ⟨s', ran⟩ := ih (s := s₁) (by
        rwa [command_take taken, List.append_assoc, ← commands_cons])
      exact ⟨s', by rw [List.foldlM_cons, taken]; exact ran⟩

/-- A list of options comes to a session just where it has at most one command, and then to one
that runs it, that signs where some option says so, and that may do what was not last turned off. -/
theorem perform_eq : perform settings = some s' →
    s'.command.toList = commands settings ∧ (s'.signer = true ↔ .certAuthority ∈ settings) ∧
      ∀ c, s'.permits c = false ↔ TurnedOff c settings := by
  intro ran
  obtain ⟨command, signer, permits⟩ := foldlM_take ran
  exact ⟨command, by simpa using signer, fun c => by simpa using permits c⟩

theorem perform_some (single : (commands settings).length ≤ 1) :
    ∃ s', perform settings = some s' := foldlM_take_some single

end Perform

/-! ### The pieces of a line -/

section Cutting

variable {text rest quoted value : List Char} {pieces : List (List Char)}

/-- The text ends, or goes on with the comma or the blank that ends a piece. -/
def PieceEnd (text : List Char) : Prop :=
  text = [] ∨ ∃ c rest, text = c :: rest ∧ (c = ',' ∨ isBlank c = true)

/-- The first piece and what follows it: the rest of the line, or a comma and the other pieces. -/
def Follows (pieces : List (List Char)) (rest after : List Char) : Prop :=
  (pieces = [] ∧ after = rest) ∨ ∃ text, after = ',' :: text ∧ cut false text = some (pieces, rest)

theorem cut_first {inside : Bool} (found : cut inside text = some (pieces, rest)) :
    ∃ piece others after, pieces = piece :: others ∧ text = piece ++ after ∧
      Follows others rest after ∧ PieceEnd after := by
  fun_induction cut inside text generalizing pieces rest with
  | case1 => cases found
  | case2 =>
      obtain ⟨rfl, rfl⟩ := Prod.mk.inj (Option.some.inj found)
      exact ⟨[], [], [], rfl, rfl, .inl ⟨rfl, rfl⟩, .inl rfl⟩
  | case3 inside text ih =>
      obtain ⟨⟨pieces', rest'⟩, inner, same⟩ := Option.map_eq_some_iff.mp found
      obtain ⟨rfl, rfl⟩ := Prod.mk.inj same
      obtain ⟨piece, others, after, rfl, rfl, follows, ends⟩ := ih inner
      exact ⟨'\\' :: '"' :: piece, others, after, rfl, rfl, follows, ends⟩
  | case4 inside text _ ih =>
      obtain ⟨⟨pieces', rest'⟩, inner, same⟩ := Option.map_eq_some_iff.mp found
      obtain ⟨rfl, rfl⟩ := Prod.mk.inj same
      obtain ⟨piece, others, after, rfl, rfl, follows, ends⟩ := ih inner
      exact ⟨'"' :: piece, others, after, rfl, rfl, follows, ends⟩
  | case5 c text _ _ ih =>
      obtain ⟨⟨pieces', rest'⟩, inner, same⟩ := Option.map_eq_some_iff.mp found
      obtain ⟨rfl, rfl⟩ := Prod.mk.inj same
      obtain ⟨piece, others, after, rfl, rfl, follows, ends⟩ := ih inner
      exact ⟨c :: piece, others, after, rfl, rfl, follows, ends⟩
  | case6 inside c text _ _ _ blank =>
      obtain ⟨rfl, rfl⟩ := Prod.mk.inj (Option.some.inj found)
      exact ⟨[], [], c :: text, rfl, rfl, .inl ⟨rfl, rfl⟩, .inr ⟨c, text, rfl, .inr blank⟩⟩
  | case7 inside text _ _ _ _ _ =>
      obtain ⟨⟨pieces', rest'⟩, inner, same⟩ := Option.map_eq_some_iff.mp found
      obtain ⟨rfl, rfl⟩ := Prod.mk.inj same
      exact ⟨[], pieces', ',' :: text, rfl, rfl, .inr ⟨text, rfl, inner⟩,
        .inr ⟨',', text, rfl, .inl rfl⟩⟩
  | case8 inside c text _ _ _ _ _ ih =>
      obtain ⟨⟨pieces', rest'⟩, inner, same⟩ := Option.map_eq_some_iff.mp found
      obtain ⟨rfl, rfl⟩ := Prod.mk.inj same
      obtain ⟨piece, others, after, rfl, rfl, follows, ends⟩ := ih inner
      exact ⟨c :: piece, others, after, rfl, rfl, follows, ends⟩

theorem dequote_append (read : dequote quoted = some (value, rest)) (more : List Char) :
    dequote (quoted ++ more) = some (value, rest ++ more) := by
  fun_induction dequote quoted generalizing value rest with
  | case1 => cases read
  | case2 quoted ih =>
      obtain ⟨⟨value', rest'⟩, inner, same⟩ := Option.map_eq_some_iff.mp read
      obtain ⟨rfl, rfl⟩ := Prod.mk.inj same
      show (dequote (quoted ++ more)).map _ = _
      rw [ih inner]
      rfl
  | case3 quoted escape =>
      obtain ⟨rfl, rfl⟩ := Prod.mk.inj (Option.some.inj read)
      rfl
  | case4 c quoted escape other ih =>
      obtain ⟨⟨value', rest'⟩, inner, same⟩ := Option.map_eq_some_iff.mp read
      obtain ⟨rfl, rfl⟩ := Prod.mk.inj same
      have plain : ∀ tail, c = '\\' → quoted ++ more = '"' :: tail → False := by
        intro tail back same
        cases quoted with
        | nil => cases inner
        | cons d quoted => exact escape quoted back (by rw [(List.cons.inj same).1])
      rw [List.cons_append, dequote.eq_3 c _ plain, if_neg other, ih inner]
      rfl

/-- A text without quotes and backslashes stands for itself. -/
theorem dequote_plain {text : List Char} (plain : ∀ c ∈ text, c ≠ '"' ∧ c ≠ '\\')
    (rest : List Char) : dequote (text ++ '"' :: rest) = some (text, rest) := by
  induction text with
  | nil => rfl
  | cons c text ih =>
      obtain ⟨⟨quote, back⟩, plain⟩ := List.forall_mem_cons.mp plain
      rw [List.cons_append, dequote.eq_3 c _ fun _ same _ => back same, if_neg quote, ih plain]
      rfl

end Cutting

/-! ### The first command of a line -/

/-- The word that opens a command, in lower case. -/
def COMMAND : List Char := ['c', 'o', 'm', 'm', 'a', 'n', 'd', '=', '"']

section First

variable {text rest piece name quoted value after : List Char} {pieces : List (List Char)}
  {x : Setting}

/-- Two texts up to their first separator. -/
theorem separated_inj {front front' back back' : List Char} {c : Char} (clean : c ∉ front)
    (clean' : c ∉ front') (same : front ++ c :: back = front' ++ c :: back') :
    front = front' ∧ back = back' := by
  rcases List.append_eq_append_iff.mp same with ⟨z, rfl, tail⟩ | ⟨z, rfl, tail⟩
  all_goals
    cases z with
    | nil => simp_all
    | cons d z =>
        obtain ⟨rfl, -⟩ := List.cons.inj tail
        simp at clean clean'

theorem readValued_some (read : readValued piece = some (name, value)) :
    ∃ quoted, piece = name ++ '=' :: '"' :: quoted ∧ '=' ∉ name ∧ dequote quoted = some (value, []) := by
  unfold readValued at read
  split at read
  case h_1 quoted front =>
    split at read
    case h_1 value' dequoted =>
      obtain ⟨rfl, rfl⟩ := Prod.mk.inj (Option.some.inj read)
      refine ⟨quoted, ?_, fun listed => ?_, dequoted⟩
      · rw [← front, List.takeWhile_append_dropWhile]
      · simpa using List.mem_takeWhile_imp listed
    case h_2 => cases read
  case h_2 => cases read

theorem quote_of_readFlag (read : readFlag piece = some x) : '"' ∉ piece := by
  intro listed
  have lowered : '"' ∈ lower piece := List.mem_map.mpr ⟨'"', listed, rfl⟩
  unfold readFlag at read
  simp only at read
  split at read
  case isTrue same => rw [same] at lowered; revert lowered; decide
  split at read
  case isTrue same => rw [same] at lowered; revert lowered; decide
  split at read
  case isTrue flag =>
    have clean : ∀ flag ∈ KEY_FLAGS.map String.toList, '"' ∉ flag := by decide
    exact clean _ flag lowered
  split at read
  case h_1 c found =>
    have clean : ∀ c : Capability, '"' ∉ c.keyword.toList := by rintro (_ | _) <;> decide
    have same : c.keyword.toList = lower piece := by simpa using List.find?_some found
    exact clean c (same ▸ lowered)
  case h_2 =>
    obtain ⟨c, found, -⟩ := Option.map_eq_some_iff.mp read
    have clean : ∀ c : Capability, '"' ∉ ("no-" ++ c.keyword).toList := by
      rintro (_ | _) <;> decide
    have same : ("no-" ++ c.keyword).toList = lower piece := by simpa using List.find?_some found
    exact clean c (same ▸ lowered)

theorem passes_flag (flag : '"' ∉ piece) (ends : PieceEnd rest) :
    afterFirst COMMAND (piece ++ rest) = afterFirst COMMAND rest := by
  refine afterFirst_passes ?_
  rintro front back rfl left ⟨more, occurs⟩
  rcases List.append_eq_append_iff.mp occurs with ⟨z, same, -⟩ | ⟨z, same, rfl⟩
  · exact flag (by rw [same]; simp [COMMAND])
  · cases z with
    | nil =>
        rw [List.append_nil] at same
        exact flag (by rw [← same]; simp [COMMAND])
    | cons c z =>
        obtain none | ⟨d, rest', cons, closes⟩ := ends
        · cases none
        · obtain ⟨rfl, -⟩ := List.cons.inj cons
          have listed : c ∈ COMMAND := by rw [same]; simp
          have clean : ∀ c ∈ COMMAND, ¬ (c = ',' ∨ isBlank c = true) :=
            List.all_iff_forall_prop.mp (by decide)
          exact clean c listed closes

theorem passes_name (apart : '=' ∉ name)
    (other : ∀ front, name ≠ front ++ "command".toList) :
    afterFirst COMMAND (name ++ ['=', '"'] ++ quoted) = afterFirst COMMAND quoted := by
  refine afterFirst_passes fun front back same left occurs => ?_
  rcases List.append_eq_append_iff.mp same with ⟨z, -, tail⟩ | ⟨z, same, rfl⟩
  · -- it would begin with one of the last two characters
    match z, tail with
    | [], tail =>
        obtain rfl : ['=', '"'] = back := tail
        revert occurs
        simp [COMMAND]
    | [_], tail =>
        obtain ⟨-, tail⟩ := List.cons.inj tail
        obtain rfl : ['"'] = back := tail
        revert occurs
        simp [COMMAND]
    | _ :: _ :: z, tail =>
        obtain ⟨-, tail⟩ := List.cons.inj tail
        obtain ⟨-, tail⟩ := List.cons.inj tail
        exact left (List.append_eq_nil_iff.mp tail.symm).2
  · obtain ⟨more, occurs⟩ := occurs
    have named : name = front ++ z :=
      List.append_cancel_right (same.trans (List.append_assoc ..).symm)
    have clean : '=' ∉ "command".toList := by decide
    have bare : '=' ∉ z := fun listed => apart (by rw [named]; exact List.mem_append_right _ listed)
    have split : "command".toList ++ '=' :: ('"' :: more) = z ++ '=' :: ('"' :: quoted) := by
      rw [show "command".toList ++ '=' :: ('"' :: more) = COMMAND ++ more from rfl, occurs]
      simp
    exact other front (by rw [named, (separated_inj clean bare split).1])

/-- Inside a quoted text the word begins nowhere, unless its quote closes the text. -/
theorem passes_quoted (read : dequote text = some (value, rest)) :
    afterFirst COMMAND text = some rest ∨ afterFirst COMMAND text = afterFirst COMMAND rest := by
  have skips : ∀ {c : Char} {text : List Char}, ¬ COMMAND <+: c :: text →
      afterFirst COMMAND (c :: text) = afterFirst COMMAND text := fun none => if_neg none
  fun_induction dequote text generalizing value rest with
  | case1 => cases read
  | case2 text ih =>
      obtain ⟨⟨value', rest'⟩, inner, same⟩ := Option.map_eq_some_iff.mp read
      obtain ⟨rfl, rfl⟩ := Prod.mk.inj same
      rw [skips (by simp [COMMAND]), skips (by simp [COMMAND])]
      exact ih inner
  | case3 text escape =>
      obtain ⟨rfl, rfl⟩ := Prod.mk.inj (Option.some.inj read)
      exact .inr (skips (by simp [COMMAND]))
  | case4 c text escape other ih =>
      by_cases here : COMMAND <+: c :: text
      · obtain ⟨z, same⟩ := here
        have plain : ∀ c ∈ "command=".toList, c ≠ '"' ∧ c ≠ '\\' :=
          List.all_iff_forall_prop.mp (by decide)
        have closes : dequote (COMMAND ++ z) = some ("command=".toList, z) := dequote_plain plain z
        have whole : dequote (c :: text) = some (value, rest) := by
          rw [dequote.eq_3 c text escape, if_neg other]
          exact read
        rw [← same, closes] at whole
        obtain ⟨-, rfl⟩ := Prod.mk.inj (Option.some.inj whole)
        refine .inl ?_
        rw [← same, afterFirst_front (List.prefix_append _ _) (by decide), List.drop_left]
      · obtain ⟨⟨value', rest'⟩, inner, same⟩ := Option.map_eq_some_iff.mp read
        obtain ⟨rfl, rfl⟩ := Prod.mk.inj same
        rw [skips here]
        exact ih inner

/-- A name that is known and ends in the word is the word. -/
theorem name_known (known : lower name ∈ ("command" :: VALUED).map String.toList)
    (other : name ≠ "command".toList) (front : List Char) : name ≠ front ++ "command".toList := by
  rintro rfl
  have lowered : lower (front ++ "command".toList) = lower front ++ "command".toList := by
    rw [lower, List.map_append]
    rfl
  rw [lowered] at known
  have alone : ∀ n ∈ ("command" :: VALUED).map String.toList, "command".toList <:+ n →
      n = "command".toList := by decide
  have same := alone _ known (List.suffix_append _ _)
  have none : lower front = [] := List.append_left_eq_self.mp same
  exact other (by rw [List.map_eq_nil_iff.mp none, List.nil_append])

theorem readSetting_nil : readSetting [] = none := by decide

theorem readSetting_cases (read : readSetting piece = some x) :
    (∃ name value quoted, piece = name ++ '=' :: '"' :: quoted ∧ '=' ∉ name ∧
      dequote quoted = some (value, []) ∧
      (lower name = "command".toList ∧ x = .command value ∨
        lower name ∈ VALUED.map String.toList ∧ x = .valued (lower name) value)) ∨
    '"' ∉ piece := by
  unfold readSetting at read
  split at read
  case h_1 name value valued =>
    obtain ⟨quoted, same, apart, dequoted⟩ := readValued_some valued
    refine .inl ⟨name, value, quoted, same, apart, dequoted, ?_⟩
    split at read
    case isTrue isCommand => exact .inl ⟨isCommand, (Option.some.inj read).symm⟩
    split at read
    case isTrue isValued => exact .inr ⟨isValued, (Option.some.inj read).symm⟩
    case isFalse => cases read
  case h_2 => exact .inr (quote_of_readFlag read)

/-- A piece that does not open with the word is passed over, or the word closes it. -/
theorem passes_piece (known : piece ≠ [] → ∃ x, readSetting piece = some x)
    (other : ¬ COMMAND <+: piece) (ends : PieceEnd after) :
    afterFirst COMMAND (piece ++ after) = some after ∨
      afterFirst COMMAND (piece ++ after) = afterFirst COMMAND after := by
  by_cases left : piece = []
  · subst left
    exact .inr rfl
  · obtain ⟨x, read⟩ := known left
    obtain ⟨name, value, quoted, rfl, apart, dequoted, option⟩ | flag := readSetting_cases read
    · have listed : lower name ∈ ("command" :: VALUED).map String.toList := by
        rw [List.map_cons, List.mem_cons]
        exact option.imp And.left And.left
      have unlike : name ≠ "command".toList := by
        rintro rfl
        exact other ⟨quoted, rfl⟩
      have whole : name ++ '=' :: '"' :: quoted ++ after = name ++ ['=', '"'] ++ (quoted ++ after) := by
        simp
      rw [whole, passes_name apart (name_known listed unlike)]
      simpa using passes_quoted (dequote_append dequoted after)
    · exact .inr (passes_flag flag ends)

/-- **The first `command="` of a line whose options are known** opens one of them, unless it closes
a quoted text. -/
theorem command_of_first (found : cut false text = some (pieces, rest))
    (known : ∀ piece ∈ pieces, piece ≠ [] → ∃ x, readSetting piece = some x)
    (opens : ∃ piece ∈ pieces, COMMAND <+: piece) :
    ∃ after, afterFirst COMMAND text = some after ∧
      (PieceEnd after ∨ ∃ value rest, dequote after = some (value, rest) ∧
        ∃ piece ∈ pieces, readSetting piece = some (.command value)) := by
  induction pieces generalizing text with
  | nil =>
      obtain ⟨_, listed, _⟩ := opens
      cases listed
  | cons piece others ih =>
      obtain ⟨_, _, after, same, rfl, follows, ends⟩ := cut_first found
      obtain ⟨rfl, rfl⟩ := List.cons.inj same
      by_cases here : COMMAND <+: piece
      · -- this piece is the command
        obtain ⟨quoted, rfl⟩ := here
        obtain ⟨x, read⟩ := known _ List.mem_cons_self (by simp [COMMAND])
        obtain ⟨name, value, quoted', same, apart, dequoted, option⟩ | flag := readSetting_cases read
        · have split : "command".toList ++ '=' :: ('"' :: quoted) = name ++ '=' :: ('"' :: quoted') :=
            same
          have clean : '=' ∉ "command".toList := by decide
          obtain ⟨rfl, tail⟩ := separated_inj clean apart split
          obtain ⟨-, rfl⟩ := List.cons.inj tail
          have isCommand : x = .command value := by
            obtain ⟨-, same⟩ | ⟨listed, -⟩ := option
            · exact same
            · exact absurd listed (by decide)
          subst isCommand
          refine ⟨quoted ++ after, ?_, .inr ⟨value, after, dequote_append dequoted after, _,
            List.mem_cons_self, read⟩⟩
          rw [List.append_assoc, afterFirst_front (List.prefix_append _ _) (by decide), List.drop_left]
        · exact absurd (by simp [COMMAND]) flag
      · -- it is passed over, and the command is one of the others
        have later : ∃ piece ∈ others, COMMAND <+: piece := by
          obtain ⟨q, listed, front⟩ := opens
          obtain rfl | listed := List.mem_cons.mp listed
          · exact absurd front here
          · exact ⟨q, listed, front⟩
        obtain ⟨rfl, rfl⟩ | ⟨text, rfl, found'⟩ := follows
        · obtain ⟨_, listed, _⟩ := later
          cases listed
        · obtain ⟨z, first, opened⟩ :=
            ih found' (fun q listed => known q (List.mem_cons_of_mem _ listed)) later
          have comma : afterFirst COMMAND (',' :: text) = some z :=
            (if_neg (by simp [COMMAND])).trans first
          have passed : afterFirst COMMAND (piece ++ ',' :: text) = some (',' :: text) ∨
              afterFirst COMMAND (piece ++ ',' :: text) = afterFirst COMMAND (',' :: text) :=
            passes_piece (fun left => known _ List.mem_cons_self left) here ends
          obtain closed | passed := passed
          · exact ⟨',' :: text, closed, .inl ends⟩
          · refine ⟨z, passed.trans comma, opened.imp_right ?_⟩
            rintro ⟨value, rest, dequoted, q, listed, read⟩
            exact ⟨value, rest, dequoted, q, List.mem_cons_of_mem _ listed, read⟩

end First

end Nvoy.AuthorizedKeys
