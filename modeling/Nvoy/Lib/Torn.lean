/-
**The beginning of an object's text is not an object.**

What a reader has read off a text, it reads off every longer one, except for a number at its end.

* `Longer` — a reader that leaves more where more follows;
* `longer` — the readers of `Lib.Json`;
* `parse_front` — no proper beginning of a printed object is read as anything;
* `parse_ends` — nor is a text an object that ends in neither a brace nor a space;
* `parse_followed` — an object with something after it is not read as anything;
* `parse_torn_bytes` — the first bytes of a printed object are no object.
-/

import Nvoy.Lib.Json
import Nvoy.Lib.Utf8
import Mathlib.Data.List.TakeWhile

namespace Nvoy.Json

/-! ### Strings and numbers -/

theorem skipSpace_append {text : List Char} (more : List Char) (left : skipSpace text ≠ []) :
    skipSpace (text ++ more) = skipSpace text ++ more := by
  unfold skipSpace at left ⊢
  rw [List.dropWhile_append, if_neg]
  rwa [List.isEmpty_iff]

/-- A reader that puts a character before what the rest reads. -/
theorem before_append {more : List Char} {c : Char} {inner later : Option (List Char × List Char)}
    {read : List Char × List Char}
    (ih : ∀ {read : List Char × List Char}, inner = some read →
      later = some (read.1, read.2 ++ more))
    (bound : (inner.bind fun read => some (c :: read.1, read.2)) = some read) :
    (later.bind fun read => some (c :: read.1, read.2)) = some (read.1, read.2 ++ more) := by
  obtain ⟨read', same, bound⟩ := Option.bind_eq_some_iff.mp bound
  obtain rfl := Option.some.inj bound
  rw [ih same]
  rfl

/-- A character that stands for itself. -/
theorem parseString_plain {c : Char} (rest : List Char) (inside : c = '"' → False)
    (plain : ¬(c.toNat < 32 ∨ c = '\\')) :
    parseString (c :: rest) = (parseString rest).map fun read => (c :: read.1, read.2) := by
  rw [parseString.eq_def]
  split <;> simp_all

theorem parseString_append {text : List Char} {read : List Char × List Char} (more : List Char)
    (parsed : parseString text = some read) :
    parseString (text ++ more) = some (read.1, read.2 ++ more) := by
  fun_induction parseString text generalizing read with
  | case1 rest =>
      obtain rfl := Option.some.inj parsed
      simp [parseString]
  | case2 a b c d e f g h rest far near =>
      obtain ⟨high, value, parsed⟩ := Option.bind_eq_some_iff.mp parsed
      simp only [List.cons_append, parseString, value, Option.bind_eq_bind, Option.bind_some]
      split_ifs at parsed with first second
      · obtain ⟨low, value', parsed⟩ := Option.bind_eq_some_iff.mp parsed
        split_ifs at parsed with inside
        simp only [if_pos first, value', Option.bind_some, if_pos inside]
        exact before_append far parsed
      · simp only [if_neg first, if_neg second]
        exact before_append near parsed
  | case3 a b c d rest _ ih =>
      obtain ⟨code, value, parsed⟩ := Option.bind_eq_some_iff.mp parsed
      split_ifs at parsed with surrogate
      simp only [List.cons_append]
      rw [parseString_unicode (rest ++ more) value surrogate, Option.map_eq_bind]
      exact before_append ih parsed
  | case12 => cases parsed
  | case13 => cases parsed
  | case14 c rest _ _ _ _ plain ih =>
      rw [List.cons_append, parseString_plain (rest ++ more) (by assumption) plain,
        Option.map_eq_bind]
      rw [Option.map_eq_bind] at parsed
      exact before_append ih parsed
  | case15 => cases parsed
  -- an escaped character
  | _ =>
      simp only [List.cons_append, parseString]
      exact before_append (by assumption) parsed

theorem span_append {p : Char → Bool} {text : List Char} (more : List Char)
    (left : text.dropWhile p ≠ []) :
    (text ++ more).takeWhile p = text.takeWhile p ∧
      (text ++ more).dropWhile p = text.dropWhile p ++ more := by
  have short : (text.takeWhile p).length ≠ text.length := by
    intro same
    have lengths := congrArg List.length (List.takeWhile_append_dropWhile (p := p) (l := text))
    rw [List.length_append, same] at lengths
    exact left (List.eq_nil_of_length_eq_zero (by omega))
  rw [List.takeWhile_append, if_neg short, List.dropWhile_append, if_neg]
  · exact ⟨rfl, rfl⟩
  · rwa [List.isEmpty_iff]

theorem parseSign_append {text : List Char} (more : List Char) (some : text ≠ []) :
    parseSign (text ++ more) = ((parseSign text).1, (parseSign text).2 ++ more) := by
  obtain ⟨c, rest, rfl⟩ := List.exists_cons_of_ne_nil some
  unfold parseSign
  rw [List.cons_append]
  split <;> simp_all

theorem parseExponent_append {text : List Char} {read : Int × List Char} (more : List Char)
    (parsed : parseExponent text = some read) (left : read.2 ≠ []) :
    parseExponent (text ++ more) = some (read.1, read.2 ++ more) := by
  unfold parseExponent at parsed
  split at parsed
  next c rest =>
    rw [List.cons_append]
    unfold parseExponent
    dsimp only at parsed ⊢
    by_cases marked : c = 'e' ∨ c = 'E'
    · rw [if_pos marked] at parsed ⊢
      by_cases none : (parseSign rest).2.takeWhile Char.isDigit = []
      · rw [if_pos none] at parsed
        cases parsed
      · rw [if_neg none] at parsed
        obtain rfl := Option.some.inj parsed
        have filled : rest ≠ [] := by
          rintro rfl
          exact none rfl
        have digits := span_append more left
        rw [parseSign_append more filled, digits.1, digits.2, if_neg none]
    · rw [if_neg marked] at parsed ⊢
      obtain rfl := Option.some.inj parsed
      rfl
  next =>
    obtain rfl := Option.some.inj parsed
    exact absurd rfl left

theorem parseFraction_append {text : List Char} {read : List Char × List Char} (more : List Char)
    (parsed : parseFraction text = some read) (left : read.2 ≠ []) :
    parseFraction (text ++ more) = some (read.1, read.2 ++ more) := by
  unfold parseFraction at parsed
  split at parsed
  next rest =>
    by_cases bare : rest.takeWhile Char.isDigit = []
    · rw [if_pos bare] at parsed
      cases parsed
    · rw [if_neg bare] at parsed
      obtain rfl := Option.some.inj parsed
      have digits := span_append more left
      show (if (rest ++ more).takeWhile Char.isDigit = [] then none
        else some ((rest ++ more).takeWhile Char.isDigit, (rest ++ more).dropWhile Char.isDigit)) = _
      rw [digits.1, digits.2, if_neg bare]
  next whole =>
    obtain rfl := Option.some.inj parsed
    obtain ⟨c, rest, rfl⟩ := List.exists_cons_of_ne_nil left
    exact parseFraction_stop fun c' head same => whole rest (by simp_all)

theorem parseUnsigned_append {text : List Char} {read : Nat × Int × List Char} (more : List Char)
    (parsed : parseUnsigned text = some read) (left : read.2.2 ≠ []) :
    parseUnsigned (text ++ more) = some (read.1, read.2.1, read.2.2 ++ more) := by
  unfold parseUnsigned at parsed ⊢
  dsimp only at parsed ⊢
  split_ifs at parsed with canonical
  obtain ⟨fraction, first, parsed⟩ := Option.bind_eq_some_iff.mp parsed
  obtain ⟨exponent, second, parsed⟩ := Option.bind_eq_some_iff.mp parsed
  obtain rfl := Option.some.inj parsed
  have behind : fraction.2 ≠ [] := by
    intro none
    have inside := suffix_parseExponent second
    rw [none] at inside
    exact left (List.suffix_nil.mp inside)
  have after : text.dropWhile Char.isDigit ≠ [] := by
    intro none
    have inside := suffix_parseFraction first
    rw [none] at inside
    exact behind (List.suffix_nil.mp inside)
  have digits := span_append more after
  rw [digits.1, digits.2, if_neg canonical, parseFraction_append more first behind]
  dsimp only [Option.bind_eq_bind, Option.bind_some]
  rw [parseExponent_append more second left]
  rfl

theorem parseNumber_append {text : List Char} {read : Json × List Char} (more : List Char)
    (parsed : parseNumber text = some read) (left : read.2 ≠ []) :
    parseNumber (text ++ more) = some (read.1, read.2 ++ more) := by
  unfold parseNumber at parsed
  split at parsed
  next rest =>
    obtain ⟨inner, first, parsed⟩ := Option.bind_eq_some_iff.mp parsed
    obtain rfl := Option.some.inj parsed
    have longer := parseUnsigned_append more first left
    show ((parseUnsigned (rest ++ more)).bind fun read =>
      some (Json.num (-(read.1 : Int)) read.2.1, read.2.2)) = _
    rw [longer]
    rfl
  next unsigned =>
    obtain ⟨inner, first, parsed⟩ := Option.bind_eq_some_iff.mp parsed
    obtain rfl := Option.some.inj parsed
    have longer := parseUnsigned_append more first left
    have filled : text ≠ [] := by
      rintro rfl
      exact left (List.suffix_nil.mp (suffix_parseUnsigned first))
    obtain ⟨c, rest, rfl⟩ := List.exists_cons_of_ne_nil filled
    rw [List.cons_append] at longer ⊢
    unfold parseNumber
    split
    next rest' same =>
      obtain ⟨rfl, -⟩ := List.cons.inj same
      exact absurd rfl (unsigned rest)
    next =>
      rw [longer]
      rfl

/-! ### Values -/

/-- What is read with some fuel is read off a longer text, with at least that fuel. -/
structure Longer (fuel : Nat) : Prop where
  value : ∀ {fuel' text value rest} (more), fuel ≤ fuel' →
    parseValue fuel text = some (value, rest) → rest ≠ [] ∨ value.isObj = true →
      parseValue fuel' (text ++ more) = some (value, rest ++ more)
  items : ∀ {fuel' text items rest} (more), fuel ≤ fuel' →
    parseItems fuel text = some (items, rest) →
      parseItems fuel' (text ++ more) = some (items, rest ++ more)
  field : ∀ {fuel' text field rest} (more), fuel ≤ fuel' →
    parseField fuel text = some (field, rest) → rest ≠ [] →
      parseField fuel' (text ++ more) = some (field, rest ++ more)
  fields : ∀ {fuel' text fields rest} (more), fuel ≤ fuel' →
    parseFields fuel text = some (fields, rest) →
      parseFields fuel' (text ++ more) = some (fields, rest ++ more)

theorem parseValue_ne_nil {fuel : Nat} {text : List Char} {read : Json × List Char}
    (parsed : parseValue fuel text = some read) : text ≠ [] := by
  rintro rfl
  cases fuel <;> cases parsed

theorem parseItems_ne_nil {fuel : Nat} {text : List Char} {read : List Json × List Char}
    (parsed : parseItems fuel text = some read) : text ≠ [] := by
  rintro rfl
  cases fuel <;> cases parsed

theorem parseField_ne_nil {fuel : Nat} {text : List Char} {read : (String × Json) × List Char}
    (parsed : parseField fuel text = some read) : text ≠ [] := by
  rintro rfl
  cases fuel <;> cases parsed

theorem parseFields_ne_nil {fuel : Nat} {text : List Char}
    {read : List (String × Json) × List Char} (parsed : parseFields fuel text = some read) :
    text ≠ [] := by
  rintro rfl
  cases fuel <;> cases parsed

theorem ne_nil_of_skipSpace {text : List Char} (left : skipSpace text ≠ []) : text ≠ [] := by
  rintro rfl
  exact left rfl

theorem parseValue_array {fuel : Nat} {inside : List Char}
    (filled : ∀ rest, skipSpace inside = ']' :: rest → False) :
    parseValue (fuel + 1) ('[' :: inside) =
      (parseValue fuel (skipSpace inside)).bind fun item =>
        (parseItems fuel (skipSpace item.2)).bind fun items =>
          some (.arr (item.1 :: items.1), items.2) := by
  rw [parseValue]
  split
  next rest closed => exact (filled rest closed).elim
  next => rfl

theorem parseValue_object {fuel : Nat} {inside : List Char}
    (filled : ∀ rest, skipSpace inside = '}' :: rest → False) :
    parseValue (fuel + 1) ('{' :: inside) =
      (parseField fuel (skipSpace inside)).bind fun field =>
        (parseFields fuel (skipSpace field.2)).bind fun fields =>
          some (.obj (field.1 :: fields.1), fields.2) := by
  rw [parseValue]
  split
  next rest closed => exact (filled rest closed).elim
  next => rfl

theorem parseNumber_head {c : Char} {rest : List Char} {read : Json × List Char}
    (parsed : parseNumber (c :: rest) = some read) : c = '-' ∨ c.isDigit = true := by
  unfold parseNumber at parsed
  split at parsed
  next same => exact .inl (List.cons.inj same).1
  next =>
    obtain ⟨inner, first, -⟩ := Option.bind_eq_some_iff.mp parsed
    unfold parseUnsigned at first
    dsimp only at first
    by_cases digit : c.isDigit = true
    · exact .inr digit
    · rw [List.takeWhile_cons_of_neg digit, if_pos (.inl rfl)] at first
      cases first

theorem parseValue_number {fuel : Nat} {c : Char} {rest : List Char}
    (head : c = '-' ∨ c.isDigit = true) :
    parseValue (fuel + 1) (c :: rest) = parseNumber (c :: rest) := by
  have plain : c ≠ 'n' ∧ c ≠ 't' ∧ c ≠ 'f' ∧ c ≠ '"' ∧ c ≠ '[' ∧ c ≠ '{' := by
    refine ⟨?_, ?_, ?_, ?_, ?_, ?_⟩ <;> rintro rfl <;> exact absurd head (by decide)
  rw [parseValue]
  all_goals simp_all

/-- The first character of a longer text, where the shorter has one. -/
theorem head_append {text : List Char} {c : Char} (more : List Char) (filled : text ≠ [])
    (free : ∀ rest, text = c :: rest → False) : ∀ rest, text ++ more = c :: rest → False := by
  obtain ⟨d, tail, rfl⟩ := List.exists_cons_of_ne_nil filled
  intro rest same
  obtain ⟨rfl, -⟩ := List.cons.inj same
  exact free tail rfl

theorem longer (fuel : Nat) : Longer fuel := by
  induction fuel with
  | zero =>
    refine ⟨fun _ _ parsed => ?_, fun _ _ parsed => ?_, fun _ _ parsed => ?_,
      fun _ _ parsed => ?_⟩
    all_goals cases parsed
  | succ fuel ih =>
    refine ⟨fun {fuel' text value rest} more le parsed left => ?_,
      fun {fuel' text items rest} more le parsed => ?_,
      fun {fuel' text field rest} more le parsed left => ?_,
      fun {fuel' text fields rest} more le parsed => ?_⟩
    all_goals
      obtain ⟨fuel', rfl⟩ : ∃ n, fuel' = n + 1 := ⟨fuel' - 1, by omega⟩
      replace le : fuel ≤ fuel' := by omega
    · unfold parseValue at parsed
      dsimp only at parsed
      split at parsed
      · obtain ⟨rfl, rfl⟩ := Prod.mk.inj (Option.some.inj parsed)
        simp [parseValue]
      · obtain ⟨rfl, rfl⟩ := Prod.mk.inj (Option.some.inj parsed)
        simp [parseValue]
      · obtain ⟨rfl, rfl⟩ := Prod.mk.inj (Option.some.inj parsed)
        simp [parseValue]
      · obtain ⟨read, first, same⟩ := Option.map_eq_some_iff.mp parsed
        obtain ⟨rfl, rfl⟩ := Prod.mk.inj same
        simp [parseValue, parseString_append more first]
      next inside =>
        split at parsed
        next behind closed =>
          obtain ⟨rfl, rfl⟩ := Prod.mk.inj (Option.some.inj parsed)
          have follows : skipSpace (inside ++ more) = skipSpace inside ++ more :=
            skipSpace_append more (by rw [closed]; simp)
          rw [closed, List.cons_append] at follows
          simp [parseValue, follows]
        next opened =>
          obtain ⟨item, first, parsed⟩ := Option.bind_eq_some_iff.mp parsed
          obtain ⟨items, second, parsed⟩ := Option.bind_eq_some_iff.mp parsed
          obtain ⟨rfl, rfl⟩ := Prod.mk.inj (Option.some.inj parsed)
          have after := parseItems_ne_nil second
          have behind := ih.value more le first (.inl (ne_nil_of_skipSpace after))
          have follows := skipSpace_append more (parseValue_ne_nil first)
          have filled := head_append more (parseValue_ne_nil first) opened
          rw [← follows] at filled
          rw [List.cons_append, parseValue_array filled, follows, behind, Option.bind_some,
            skipSpace_append more after, ih.items more le second]
          rfl
      next inside =>
        split at parsed
        next behind closed =>
          obtain ⟨rfl, rfl⟩ := Prod.mk.inj (Option.some.inj parsed)
          have follows : skipSpace (inside ++ more) = skipSpace inside ++ more :=
            skipSpace_append more (by rw [closed]; simp)
          rw [closed, List.cons_append] at follows
          simp [parseValue, follows]
        next opened =>
          obtain ⟨field, first, parsed⟩ := Option.bind_eq_some_iff.mp parsed
          obtain ⟨fields, second, parsed⟩ := Option.bind_eq_some_iff.mp parsed
          obtain ⟨rfl, rfl⟩ := Prod.mk.inj (Option.some.inj parsed)
          have after := parseFields_ne_nil second
          have behind := ih.field more le first (ne_nil_of_skipSpace after)
          have follows := skipSpace_append more (parseField_ne_nil first)
          have filled := head_append more (parseField_ne_nil first) opened
          rw [← follows] at filled
          rw [List.cons_append, parseValue_object filled, follows, behind, Option.bind_some,
            skipSpace_append more after, ih.fields more le second]
          rfl
      next =>
        have behind : rest ≠ [] := left.resolve_right fun obj => by
          unfold parseNumber at parsed
          split at parsed
          all_goals
            obtain ⟨inner, -, parsed⟩ := Option.bind_eq_some_iff.mp parsed
            obtain ⟨rfl, -⟩ := Prod.mk.inj (Option.some.inj parsed)
            cases obj
        have filled : text ≠ [] := by
          rintro rfl
          cases parsed
        obtain ⟨c, tail, rfl⟩ := List.exists_cons_of_ne_nil filled
        rw [List.cons_append, parseValue_number (parseNumber_head parsed), ← List.cons_append]
        exact parseNumber_append more parsed behind
    · unfold parseItems at parsed
      dsimp only at parsed
      split at parsed
      · obtain ⟨rfl, rfl⟩ := Prod.mk.inj (Option.some.inj parsed)
        simp [parseItems]
      next rest' =>
        obtain ⟨item, first, parsed⟩ := Option.bind_eq_some_iff.mp parsed
        obtain ⟨items, second, parsed⟩ := Option.bind_eq_some_iff.mp parsed
        obtain ⟨rfl, rfl⟩ := Prod.mk.inj (Option.some.inj parsed)
        have after := parseItems_ne_nil second
        have behind := ih.value more le first (.inl (ne_nil_of_skipSpace after))
        simp only [List.cons_append, parseItems, skipSpace_append more (parseValue_ne_nil first),
          behind, Option.bind_eq_bind, Option.bind_some, skipSpace_append more after,
          ih.items more le second, Option.pure_def]
      · cases parsed
    · unfold parseField at parsed
      dsimp only at parsed
      split at parsed
      next rest' =>
        obtain ⟨key, first, parsed⟩ := Option.bind_eq_some_iff.mp parsed
        split at parsed
        next behind colon =>
          obtain ⟨value, second, parsed⟩ := Option.bind_eq_some_iff.mp parsed
          obtain ⟨rfl, rfl⟩ := Prod.mk.inj (Option.some.inj parsed)
          have after : skipSpace key.2 ≠ [] := by
            rw [colon]
            exact List.cons_ne_nil _ _
          have follows := skipSpace_append more after
          rw [colon, List.cons_append] at follows
          simp only [List.cons_append, parseField, parseString_append more first, follows,
            Option.bind_eq_bind, Option.bind_some,
            skipSpace_append more (parseValue_ne_nil second),
            ih.value more le second (.inl left), Option.pure_def]
        next => cases parsed
      · cases parsed
    · unfold parseFields at parsed
      dsimp only at parsed
      split at parsed
      · obtain ⟨rfl, rfl⟩ := Prod.mk.inj (Option.some.inj parsed)
        simp [parseFields]
      next rest' =>
        obtain ⟨field, first, parsed⟩ := Option.bind_eq_some_iff.mp parsed
        obtain ⟨fields, second, parsed⟩ := Option.bind_eq_some_iff.mp parsed
        obtain ⟨rfl, rfl⟩ := Prod.mk.inj (Option.some.inj parsed)
        have after := parseFields_ne_nil second
        have behind := ih.field more le first (ne_nil_of_skipSpace after)
        simp only [List.cons_append, parseFields, skipSpace_append more (parseField_ne_nil first),
          behind, Option.bind_eq_bind, Option.bind_some, skipSpace_append more after,
          ih.fields more le second, Option.pure_def]
      · cases parsed

/-! ### Torn objects -/

theorem isObj_of_parseValue {fuel : Nat} {inside rest : List Char} {value : Json}
    (parsed : parseValue fuel ('{' :: inside) = some (value, rest)) : value.isObj = true := by
  cases fuel with
  | zero => cases parsed
  | succ fuel =>
    rw [parseValue] at parsed
    split at parsed
    next =>
      obtain ⟨rfl, -⟩ := Prod.mk.inj (Option.some.inj parsed)
      rfl
    next =>
      obtain ⟨field, -, parsed⟩ := Option.bind_eq_some_iff.mp parsed
      obtain ⟨fields, -, parsed⟩ := Option.bind_eq_some_iff.mp parsed
      obtain ⟨rfl, -⟩ := Prod.mk.inj (Option.some.inj parsed)
      rfl

theorem render_obj (fields : List (String × Json)) :
    ∃ inside, render (.obj fields) = '{' :: inside := by
  cases fields with
  | nil => exact ⟨_, rfl⟩
  | cons field fields => exact ⟨_, rfl⟩

/-- **No proper beginning of a printed object is read as anything.** -/
theorem parse_front {fields : List (String × Json)} {front : List Char}
    (inside : front <+: render (.obj fields)) (short : front ≠ render (.obj fields)) :
    parse front = none := by
  obtain ⟨tail, whole⟩ := inside
  have left : tail ≠ [] := by
    rintro rfl
    exact short (by rw [← whole, List.append_nil])
  by_contra reads
  obtain ⟨value, parsed⟩ := Option.ne_none_iff_exists'.mp reads
  unfold parse at parsed
  split at parsed
  next value' rest read =>
    obtain ⟨body, opens⟩ := render_obj fields
    have filled := ne_nil_of_skipSpace (parseValue_ne_nil read)
    obtain ⟨c, front, rfl⟩ := List.exists_cons_of_ne_nil filled
    rw [opens, List.cons_append] at whole
    obtain ⟨rfl, whole⟩ := List.cons.inj whole
    rw [skipSpace_cons front (by decide)] at read
    -- The whole text is read with the same fields, and what is left then ends with the tail.
    have first := (longer _).value tail (Nat.le_max_left _ (weight (.obj fields))) read
      (.inr (isObj_of_parseValue read))
    have second := (readsBack (max (2 * ('{' :: front).length + 2) (weight (.obj fields)))).value
      (.obj fields) [] (Nat.le_max_right _ _) (by intro c head; cases head)
    rw [List.append_nil, opens, ← whole, ← List.cons_append] at second
    have same := (Prod.mk.inj (Option.some.inj (first.symm.trans second))).2
    exact left (List.append_eq_nil_iff.mp same).2
  next => cases parsed

theorem last_parseFields {fuel : Nat} {text rest : List Char} {fields : List (String × Json)}
    (parsed : parseFields fuel text = some (fields, rest)) : '}' :: rest <:+ text := by
  induction fuel generalizing text fields rest with
  | zero => cases parsed
  | succ fuel ih =>
    unfold parseFields at parsed
    dsimp only at parsed
    split at parsed
    · obtain ⟨-, rfl⟩ := Prod.mk.inj (Option.some.inj parsed)
      exact List.suffix_refl _
    · obtain ⟨field, first, parsed⟩ := Option.bind_eq_some_iff.mp parsed
      obtain ⟨fields, second, parsed⟩ := Option.bind_eq_some_iff.mp parsed
      obtain ⟨-, rfl⟩ := Prod.mk.inj (Option.some.inj parsed)
      have left := (suffix_skipSpace _).trans (((leaves fuel).field first).trans (suffix_skipSpace _))
      exact ((ih second).trans left).trans (List.suffix_cons _ _)
    · cases parsed

/-- What is read as an object ends with its closing brace. -/
theorem last_parseValue {fuel : Nat} {text rest : List Char} {fields : List (String × Json)}
    (parsed : parseValue fuel text = some (.obj fields, rest)) : '}' :: rest <:+ text := by
  cases fuel with
  | zero => cases parsed
  | succ fuel =>
    unfold parseValue at parsed
    dsimp only at parsed
    split at parsed
    next => cases parsed
    next => cases parsed
    next => cases parsed
    next =>
      obtain ⟨read, -, same⟩ := Option.map_eq_some_iff.mp parsed
      cases same
    next =>
      split at parsed
      · cases parsed
      · obtain ⟨item, -, parsed⟩ := Option.bind_eq_some_iff.mp parsed
        obtain ⟨items, -, parsed⟩ := Option.bind_eq_some_iff.mp parsed
        cases parsed
    next inside =>
      split at parsed
      next rest' closed =>
        obtain ⟨-, rfl⟩ := Prod.mk.inj (Option.some.inj parsed)
        have left := suffix_skipSpace inside
        rw [closed] at left
        exact left.trans (List.suffix_cons _ _)
      next =>
        obtain ⟨field, first, parsed⟩ := Option.bind_eq_some_iff.mp parsed
        obtain ⟨fields, second, parsed⟩ := Option.bind_eq_some_iff.mp parsed
        obtain ⟨-, rfl⟩ := Prod.mk.inj (Option.some.inj parsed)
        have left := (suffix_skipSpace _).trans (((leaves fuel).field first).trans (suffix_skipSpace _))
        exact ((last_parseFields second).trans left).trans (List.suffix_cons _ _)
    next =>
      unfold parseNumber at parsed
      split at parsed
      all_goals
        obtain ⟨inner, -, parsed⟩ := Option.bind_eq_some_iff.mp parsed
        cases parsed

/-- **A text that ends in another character than a brace or a space is no object.** -/
theorem parse_ends {front : List Char} {c : Char} {fields : List (String × Json)}
    (brace : c ≠ '}') (solid : isSpace c = false) : parse (front ++ [c]) ≠ some (.obj fields) := by
  intro parsed
  unfold parse at parsed
  split at parsed
  next value rest read =>
    split_ifs at parsed with space
    obtain rfl := Option.some.inj parsed
    have ends := (last_parseValue read).trans (suffix_skipSpace _)
    obtain ⟨before, split⟩ := ends
    have last := congrArg List.getLast? split
    rw [List.getLast?_append, List.getLast?_concat] at last
    cases rest with
    | nil => exact brace (Option.some.inj last).symm
    | cons d rest =>
      rw [List.getLast?_cons_cons, Option.or_of_isSome (by simp)] at last
      have mem := List.mem_of_getLast? last
      rw [List.dropWhile_eq_nil_iff.mp space c mem] at solid
      cases solid
  next => cases parsed

/-- **What follows an object on its line spoils it.** -/
theorem parse_followed {text more : List Char} {value : Json} (object : value.isObj = true)
    (parsed : parse text = some value) {c : Char} (follows : c ∈ more) (solid : isSpace c = false) :
    parse (text ++ more) = none := by
  unfold parse at parsed ⊢
  split at parsed
  next value' rest read =>
    split_ifs at parsed
    obtain rfl := Option.some.inj parsed
    have fuel : 2 * text.length + 2 ≤ 2 * (text ++ more).length + 2 := by
      rw [List.length_append]
      omega
    rw [skipSpace_append more (parseValue_ne_nil read), (longer _).value more fuel read (.inr object)]
    dsimp only
    rw [if_neg]
    intro blank
    have spaces := List.dropWhile_eq_nil_iff.mp blank c (List.mem_append_right _ follows)
    rw [solid] at spaces
    cases spaces
  next => cases parsed

/-- **A torn file.** The first bytes of a printed object, as they are decoded, are no object. -/
theorem parse_torn_bytes {fields fields' : List (String × Json)} {bytes : List UInt8}
    (inside : bytes <+: utf8 (stringify (.obj fields)))
    (short : bytes ≠ utf8 (stringify (.obj fields))) :
    parse (utf8DecodeFrom .idle bytes) ≠ some (.obj fields') := by
  rw [utf8, stringify, String.toList_ofList] at inside short
  obtain ⟨front, tail, decoded, before, torn, cut⟩ := utf8DecodeFrom_prefix inside short
  rw [decoded]
  rcases List.eq_nil_or_concat tail with rfl | ⟨tail, c, rfl⟩
  · rw [List.append_nil, parse_front before torn]
    exact Option.some_ne_none _ ∘ Eq.symm
  · obtain rfl := cut c (by simp)
    rw [List.concat_eq_append, ← List.append_assoc]
    exact parse_ends (by decide) (by decide)

end Nvoy.Json
