/-
JSON text: `JSON.stringify` and `JSON.parse`, and the round trip between them.

A value is a `Json`; a number is a mantissa and a decimal exponent, so integers are exact.
`render` writes the text `JSON.stringify` writes (no spaces, the same string escapes; a number with
a zero exponent is its decimal digits), and `parse` reads any JSON text: white space, every escape,
fractions and exponents.

* `parse_render` — every value is read back from its own text;
* `brace_mem_parse`, `parse_torn` — a text that is read as an object has a closing brace, so an
  object that was cut off is not read as one;
* `keysText_eq_iff` — the joined keys of an object that has all the wanted ones are the wanted text
  exactly where it has no others;
* `newline_notMem_render` — the text of a value never holds a line break, so values can be stored
  one a line.
-/

import Mathlib.Data.List.Dedup
import Mathlib.Data.List.Infix
import Mathlib.Data.List.Sort
import Mathlib.Data.String.Basic
import Mathlib.Tactic.IntervalCases

namespace Nvoy

/-- A JSON value. The number `num m e` is `m · 10 ^ e`. -/
inductive Json where
  | null
  | bool (value : Bool)
  | num (mantissa exponent : Int)
  | str (text : String)
  | arr (items : List Json)
  | obj (fields : List (String × Json))

namespace Json

/-! ## Writing -/

/-- The lower-case hexadecimal digit of a number below 16. -/
def hexDigit (n : Nat) : Char :=
  if n < 10 then Char.ofNat (48 + n) else Char.ofNat (87 + n)

/-- One character inside a string literal, as `JSON.stringify` escapes it. -/
def escapeChar (c : Char) : List Char :=
  if c = '"' then ['\\', '"']
  else if c = '\\' then ['\\', '\\']
  else if c = '\n' then ['\\', 'n']
  else if c = '\r' then ['\\', 'r']
  else if c = '\t' then ['\\', 't']
  else if c.toNat = 8 then ['\\', 'b']
  else if c.toNat = 12 then ['\\', 'f']
  else if c.toNat < 32 then ['\\', 'u', '0', '0', hexDigit (c.toNat / 16), hexDigit (c.toNat % 16)]
  else [c]

def renderString (text : String) : List Char :=
  '"' :: (text.toList.flatMap escapeChar ++ ['"'])

def renderInt : Int → List Char
  | .ofNat n => Nat.toDigits 10 n
  | .negSucc n => '-' :: Nat.toDigits 10 (n + 1)

def renderNum (mantissa exponent : Int) : List Char :=
  renderInt mantissa ++ (if exponent = 0 then [] else 'e' :: renderInt exponent)

mutual

/-- The text of a value, without white space. -/
def render : Json → List Char
  | .null => ['n', 'u', 'l', 'l']
  | .bool true => ['t', 'r', 'u', 'e']
  | .bool false => ['f', 'a', 'l', 's', 'e']
  | .num mantissa exponent => renderNum mantissa exponent
  | .str text => renderString text
  | .arr [] => ['[', ']']
  | .arr (item :: items) => '[' :: (render item ++ renderItems items)
  | .obj [] => ['{', '}']
  | .obj ((key, value) :: fields) =>
      '{' :: (renderString key ++ ':' :: (render value ++ renderFields fields))

/-- The items after the first, up to the closing bracket. -/
def renderItems : List Json → List Char
  | [] => [']']
  | item :: items => ',' :: (render item ++ renderItems items)

/-- The fields after the first, up to the closing brace. -/
def renderFields : List (String × Json) → List Char
  | [] => ['}']
  | (key, value) :: fields =>
      ',' :: (renderString key ++ ':' :: (render value ++ renderFields fields))

end

/-- `JSON.stringify`. -/
def stringify (value : Json) : String := String.ofList (render value)

/-! ## Reading -/

def isSpace (c : Char) : Bool := c = ' ' || c = '\t' || c = '\n' || c = '\r'

def skipSpace (text : List Char) : List Char := text.dropWhile isSpace

/-- The value of a hexadecimal digit of either case. -/
def hexValue (c : Char) : Option Nat :=
  if 48 ≤ c.toNat ∧ c.toNat ≤ 57 then some (c.toNat - 48)
  else if 97 ≤ c.toNat ∧ c.toNat ≤ 102 then some (c.toNat - 87)
  else if 65 ≤ c.toNat ∧ c.toNat ≤ 70 then some (c.toNat - 55)
  else none

/-- The value of the four digits of a `\u` escape. -/
def hex4 (a b c d : Char) : Option Nat := do
  return (((← hexValue a) * 16 + (← hexValue b)) * 16 + (← hexValue c)) * 16 + (← hexValue d)

/-- The characters of a string literal after its opening quote, and the text after it. A `\u` pair
of surrogates is one character; a lone surrogate is no character and is refused. -/
def parseString : List Char → Option (List Char × List Char)
  | '"' :: rest => some ([], rest)
  | '\\' :: 'u' :: a :: b :: c :: d :: '\\' :: 'u' :: e :: f :: g :: h :: rest => do
      let high ← hex4 a b c d
      if 0xD800 ≤ high ∧ high < 0xDC00 then
        let low ← hex4 e f g h
        if 0xDC00 ≤ low ∧ low < 0xE000 then
          let (text, rest) ← parseString rest
          return (Char.ofNat (0x10000 + (high - 0xD800) * 0x400 + (low - 0xDC00)) :: text, rest)
        else none
      else if 0xDC00 ≤ high ∧ high < 0xE000 then none
      else
        let (text, rest) ← parseString ('\\' :: 'u' :: e :: f :: g :: h :: rest)
        return (Char.ofNat high :: text, rest)
  | '\\' :: 'u' :: a :: b :: c :: d :: rest => do
      let code ← hex4 a b c d
      if 0xD800 ≤ code ∧ code < 0xE000 then none
      else
        let (text, rest) ← parseString rest
        return (Char.ofNat code :: text, rest)
  | '\\' :: c :: rest => do
      let decoded ← match c with
        | '"' => some '"'
        | '\\' => some '\\'
        | '/' => some '/'
        | 'b' => some (Char.ofNat 8)
        | 'f' => some (Char.ofNat 12)
        | 'n' => some '\n'
        | 'r' => some '\r'
        | 't' => some '\t'
        | _ => none
      let (text, rest) ← parseString rest
      return (decoded :: text, rest)
  | c :: rest =>
      if c.toNat < 32 ∨ c = '\\' then none
      else (parseString rest).map fun read => (c :: read.1, read.2)
  | [] => none

/-- The sign of an exponent, and the text after it. -/
def parseSign : List Char → Bool × List Char
  | '-' :: rest => (true, rest)
  | '+' :: rest => (false, rest)
  | rest => (false, rest)

/-- An optional exponent: its value and the text after it. -/
def parseExponent : List Char → Option (Int × List Char)
  | c :: rest =>
      if c = 'e' ∨ c = 'E' then
        let digits := (parseSign rest).2.takeWhile Char.isDigit
        if digits = [] then none
        else
          let size : Int := (Nat.ofDigitChars 10 digits 0 : Nat)
          some (if (parseSign rest).1 then -size else size,
            (parseSign rest).2.dropWhile Char.isDigit)
      else some (0, c :: rest)
  | [] => some (0, [])

/-- An optional fraction: its digits and the text after it. -/
def parseFraction : List Char → Option (List Char × List Char)
  | '.' :: rest =>
      if rest.takeWhile Char.isDigit = [] then none
      else some (rest.takeWhile Char.isDigit, rest.dropWhile Char.isDigit)
  | rest => some ([], rest)

/-- An unsigned number: mantissa, exponent and the text after it. -/
def parseUnsigned (text : List Char) : Option (Nat × Int × List Char) := do
  let whole := text.takeWhile Char.isDigit
  if whole = [] ∨ (whole.head? = some '0' ∧ whole ≠ ['0']) then none
  else
    let (fraction, rest) ← parseFraction (text.dropWhile Char.isDigit)
    let (exponent, rest) ← parseExponent rest
    return (Nat.ofDigitChars 10 (whole ++ fraction) 0, exponent - fraction.length, rest)

def parseNumber : List Char → Option (Json × List Char)
  | '-' :: rest => do
      let (mantissa, exponent, rest) ← parseUnsigned rest
      return (.num (-(mantissa : Int)) exponent, rest)
  | text => do
      let (mantissa, exponent, rest) ← parseUnsigned text
      return (.num mantissa exponent, rest)

mutual

/-- One value at the front of the text. The fuel bounds the nesting and the items. -/
def parseValue : Nat → List Char → Option (Json × List Char)
  | 0, _ => none
  | fuel + 1, text => match text with
    | 'n' :: 'u' :: 'l' :: 'l' :: rest => some (.null, rest)
    | 't' :: 'r' :: 'u' :: 'e' :: rest => some (.bool true, rest)
    | 'f' :: 'a' :: 'l' :: 's' :: 'e' :: rest => some (.bool false, rest)
    | '"' :: rest => (parseString rest).map fun read => (.str (String.ofList read.1), read.2)
    | '[' :: rest => match skipSpace rest with
      | ']' :: rest => some (.arr [], rest)
      | rest => do
          let (item, rest) ← parseValue fuel rest
          let (items, rest) ← parseItems fuel (skipSpace rest)
          return (.arr (item :: items), rest)
    | '{' :: rest => match skipSpace rest with
      | '}' :: rest => some (.obj [], rest)
      | rest => do
          let (field, rest) ← parseField fuel rest
          let (fields, rest) ← parseFields fuel (skipSpace rest)
          return (.obj (field :: fields), rest)
    | text => parseNumber text

/-- The items after the first, from a comma or the closing bracket on. -/
def parseItems : Nat → List Char → Option (List Json × List Char)
  | 0, _ => none
  | fuel + 1, text => match text with
    | ']' :: rest => some ([], rest)
    | ',' :: rest => do
        let (item, rest) ← parseValue fuel (skipSpace rest)
        let (items, rest) ← parseItems fuel (skipSpace rest)
        return (item :: items, rest)
    | _ => none

/-- One key, its colon and its value. -/
def parseField : Nat → List Char → Option ((String × Json) × List Char)
  | 0, _ => none
  | fuel + 1, text => match text with
    | '"' :: rest => do
        let (key, rest) ← parseString rest
        match skipSpace rest with
        | ':' :: rest =>
            let (value, rest) ← parseValue fuel (skipSpace rest)
            return ((String.ofList key, value), rest)
        | _ => none
    | _ => none

/-- The fields after the first, from a comma or the closing brace on. -/
def parseFields : Nat → List Char → Option (List (String × Json) × List Char)
  | 0, _ => none
  | fuel + 1, text => match text with
    | '}' :: rest => some ([], rest)
    | ',' :: rest => do
        let (field, rest) ← parseField fuel (skipSpace rest)
        let (fields, rest) ← parseFields fuel (skipSpace rest)
        return (field :: fields, rest)
    | _ => none

end

/-- `JSON.parse`: one value, with nothing but white space around it. -/
def parse (text : List Char) : Option Json :=
  match parseValue (2 * text.length + 2) (skipSpace text) with
  | some (value, rest) => if skipSpace rest = [] then some value else none
  | none => none

/-! ## The round trip: strings -/

theorem hexValue_hexDigit {n : Nat} (small : n < 16) : hexValue (hexDigit n) = some n := by
  interval_cases n <;> decide

/-- An escape that is no surrogate is one character, whatever follows it. -/
theorem parseString_unicode {a b c d : Char} {code : Nat} (rest : List Char)
    (value : hex4 a b c d = some code) (single : ¬(0xD800 ≤ code ∧ code < 0xE000)) :
    parseString ('\\' :: 'u' :: a :: b :: c :: d :: rest) =
      (parseString rest).map fun read => (Char.ofNat code :: read.1, read.2) := by
  have notHigh : ¬(0xD800 ≤ code ∧ code < 0xDC00) := by omega
  have notLow : ¬(0xDC00 ≤ code ∧ code < 0xE000) := by omega
  rw [parseString.eq_def]
  split
  case h_2 same =>
    simp only [List.cons.injEq, true_and] at same
    obtain ⟨rfl, rfl, rfl, rfl, rfl⟩ := same
    simp only [value, Option.bind_eq_bind, Option.bind_some, if_neg notHigh, if_neg notLow]
    cases parseString _ <;> rfl
  case h_3 _ same =>
    simp only [List.cons.injEq, true_and] at same
    obtain ⟨rfl, rfl, rfl, rfl, rfl⟩ := same
    simp only [value, Option.bind_eq_bind, Option.bind_some, if_neg single]
    cases parseString _ <;> rfl
  case h_4 _ other same =>
    simp only [List.cons.injEq, true_and] at same
    exact absurd same.2.symm (other a b c d rest same.1.symm)
  case h_5 _ other same =>
    simp only [List.cons.injEq] at same
    exact absurd same.2.symm (other 'u' (a :: b :: c :: d :: rest) same.1.symm)
  all_goals simp_all

/-- Each escaped character is read back as itself. -/
theorem parseString_escapeChar (c : Char) (rest : List Char) :
    parseString (escapeChar c ++ rest) =
      (parseString rest).map fun read => (c :: read.1, read.2) := by
  unfold escapeChar
  split_ifs with quote slash newline carriage tab back form control
  · subst quote; simp [parseString]; cases parseString rest <;> rfl
  · subst slash; simp [parseString]; cases parseString rest <;> rfl
  · subst newline; simp [parseString]; cases parseString rest <;> rfl
  · subst carriage; simp [parseString]; cases parseString rest <;> rfl
  · subst tab; simp [parseString]; cases parseString rest <;> rfl
  · have same : c = Char.ofNat 8 := by rw [← back, Char.ofNat_toNat]
    subst same; simp [parseString]; cases parseString rest <;> rfl
  · have same : c = Char.ofNat 12 := by rw [← form, Char.ofNat_toNat]
    subst same; simp [parseString]; cases parseString rest <;> rfl
  · have value : hex4 '0' '0' (hexDigit (c.toNat / 16)) (hexDigit (c.toNat % 16))
        = some c.toNat := by
      simp only [hex4, hexValue_hexDigit (show c.toNat / 16 < 16 by omega),
        hexValue_hexDigit (show c.toNat % 16 < 16 by omega), show hexValue '0' = some 0 by decide]
      simp only [Option.bind_eq_bind, Option.bind_some, Option.pure_def, Option.some.injEq]
      omega
    have read := parseString_unicode rest value (by omega)
    rw [Char.ofNat_toNat] at read
    exact read
  · rw [List.singleton_append, parseString.eq_def]
    split <;> simp_all

theorem parseString_flatMap (text rest : List Char) :
    parseString (text.flatMap escapeChar ++ '"' :: rest) = some (text, rest) := by
  induction text with
  | nil => simp [parseString]
  | cons c text ih =>
      rw [List.flatMap_cons, List.append_assoc, parseString_escapeChar, ih, Option.map_some]

/-! ## The round trip: numbers -/

/-- A text that cannot continue a number. -/
def Stops (rest : List Char) : Prop :=
  ∀ c, rest.head? = some c → c.isDigit = false ∧ c ≠ '.' ∧ c ≠ 'e' ∧ c ≠ 'E'

theorem stops_cons {c : Char} (rest : List Char)
    (stop : c.isDigit = false ∧ c ≠ '.' ∧ c ≠ 'e' ∧ c ≠ 'E') : Stops (c :: rest) := by
  intro other same
  simp only [List.head?_cons, Option.some.injEq] at same
  exact same ▸ stop

/-- A run of digits ends where no digit follows. -/
theorem takeWhile_digits {digits rest : List Char} (all : ∀ c ∈ digits, c.isDigit = true)
    (stop : ∀ c, rest.head? = some c → c.isDigit = false) :
    (digits ++ rest).takeWhile Char.isDigit = digits ∧
      (digits ++ rest).dropWhile Char.isDigit = rest := by
  have none : rest.takeWhile Char.isDigit = [] ∧ rest.dropWhile Char.isDigit = rest := by
    cases rest with
    | nil => exact ⟨rfl, rfl⟩
    | cons c rest => simp [stop c rfl]
  rw [List.takeWhile_append_of_pos all, List.dropWhile_append_of_pos all, none.1, none.2]
  exact ⟨List.append_nil _, rfl⟩

theorem isDigit_toDigits (n : Nat) : ∀ c ∈ Nat.toDigits 10 n, c.isDigit = true :=
  fun _ member => Nat.isDigit_of_mem_toDigits (by decide) (by decide) member

/-- Decimal digits carry no leading zero. -/
theorem toDigits_head (n : Nat) (zero : (Nat.toDigits 10 n).head? = some '0') :
    Nat.toDigits 10 n = ['0'] := by
  have positive : ∀ m : Nat, 0 < m → (Nat.toDigits 10 m).head? ≠ some '0' := by
    intro m
    induction m using Nat.strong_induction_on with
    | _ m ih =>
        intro pos
        rcases Nat.lt_or_ge m 10 with small | large
        · rw [Nat.toDigits_of_lt_base small]
          interval_cases m <;> decide
        · rw [Nat.toDigits_of_base_le (by decide) large, List.head?_append_of_ne_nil _
            Nat.toDigits_ne_nil]
          exact ih (m / 10) (by omega) (by omega)
  rcases Nat.eq_zero_or_pos n with rfl | pos
  · decide
  · exact absurd zero (positive n pos)

theorem parseExponent_stop {rest : List Char} (stop : Stops rest) :
    parseExponent rest = some (0, rest) := by
  cases rest with
  | nil => rfl
  | cons c rest =>
      obtain ⟨-, -, small, capital⟩ := stop c rfl
      simp only [parseExponent, small, capital, or_self, if_false]

/-- A digit is neither sign, so a run of digits is read without one. -/
theorem toDigits_cons (n : Nat) : ∃ c digits, Nat.toDigits 10 n = c :: digits ∧ c ≠ '-' ∧ c ≠ '+' := by
  cases same : Nat.toDigits 10 n with
  | nil => exact absurd same Nat.toDigits_ne_nil
  | cons c digits =>
      have digit : c.isDigit = true := isDigit_toDigits n c (by simp [same])
      refine ⟨c, digits, rfl, ?_, ?_⟩ <;> rintro rfl <;> exact absurd digit (by decide)

theorem parseExponent_renderInt (exponent : Int) {rest : List Char} (stop : Stops rest) :
    parseExponent ('e' :: (renderInt exponent ++ rest)) = some (exponent, rest) := by
  have stopDigit : ∀ c, rest.head? = some c → c.isDigit = false := fun c same => (stop c same).1
  cases exponent with
  | ofNat n =>
      obtain ⟨takes, drops⟩ := takeWhile_digits (isDigit_toDigits n) stopDigit
      have unsigned : parseSign (Nat.toDigits 10 n ++ rest) = (false, Nat.toDigits 10 n ++ rest) := by
        obtain ⟨c, digits, split, noMinus, noPlus⟩ := toDigits_cons n
        rw [split, List.cons_append]
        unfold parseSign
        split <;> simp_all
      simp only [renderInt, parseExponent, true_or, if_true, unsigned, takes, drops,
        if_neg Nat.toDigits_ne_nil, Nat.ofDigitChars_ten_toDigits]
      rfl
  | negSucc n =>
      obtain ⟨takes, drops⟩ := takeWhile_digits (isDigit_toDigits (n + 1)) stopDigit
      simp only [renderInt, parseExponent, true_or, if_true, List.cons_append, parseSign, takes,
        drops, if_neg Nat.toDigits_ne_nil, Nat.ofDigitChars_ten_toDigits]
      rfl

theorem parseFraction_stop {rest : List Char} (stop : ∀ c, rest.head? = some c → c ≠ '.') :
    parseFraction rest = some ([], rest) := by
  unfold parseFraction
  split
  · exact absurd rfl (stop '.' rfl)
  · rfl

/-- The digits of a number, with the exponent `renderNum` writes, are read back. -/
theorem parseUnsigned_toDigits (n : Nat) (exponent : Int) {rest : List Char} (stop : Stops rest) :
    parseUnsigned (Nat.toDigits 10 n ++
      ((if exponent = 0 then [] else 'e' :: renderInt exponent) ++ rest)) =
      some (n, exponent, rest) := by
  obtain ⟨tail, tailEq⟩ : ∃ tail,
      tail = (if exponent = 0 then [] else 'e' :: renderInt exponent) ++ rest := ⟨_, rfl⟩
  rw [← tailEq]
  have stopTail : ∀ c, tail.head? = some c → c.isDigit = false ∧ c ≠ '.' := by
    intro c same
    by_cases zero : exponent = 0
    · rw [tailEq, if_pos zero, List.nil_append] at same
      exact ⟨(stop c same).1, (stop c same).2.1⟩
    · rw [tailEq, if_neg zero, List.cons_append, List.head?_cons, Option.some.injEq] at same
      subst same
      decide
  have exponentRead : parseExponent tail = some (exponent, rest) := by
    by_cases zero : exponent = 0
    · rw [tailEq, if_pos zero, List.nil_append, parseExponent_stop stop, zero]
    · rw [tailEq, if_neg zero, List.cons_append]
      exact parseExponent_renderInt exponent stop
  obtain ⟨takes, drops⟩ := takeWhile_digits (isDigit_toDigits n) fun c same => (stopTail c same).1
  have whole : ¬ (Nat.toDigits 10 n = [] ∨
      ((Nat.toDigits 10 n).head? = some '0' ∧ Nat.toDigits 10 n ≠ ['0'])) := by
    rintro (empty | ⟨zero, more⟩)
    · exact Nat.toDigits_ne_nil empty
    · exact more (toDigits_head n zero)
  rw [parseUnsigned, takes, drops, if_neg whole,
    parseFraction_stop fun c same => (stopTail c same).2]
  simp only [Option.bind_eq_bind, Option.bind_some, exponentRead, List.append_nil,
    Nat.ofDigitChars_ten_toDigits, List.length_nil, Option.pure_def]
  simp

theorem parseNumber_renderNum (mantissa exponent : Int) {rest : List Char} (stop : Stops rest) :
    parseNumber (renderNum mantissa exponent ++ rest) = some (.num mantissa exponent, rest) := by
  rw [renderNum, List.append_assoc]
  cases mantissa with
  | ofNat n =>
      have read := parseUnsigned_toDigits n exponent stop
      obtain ⟨c, digits, split, noMinus, -⟩ := toDigits_cons n
      rw [renderInt]
      rw [split] at read ⊢
      rw [List.cons_append] at read ⊢
      unfold parseNumber
      split
      · simp_all
      · rw [read]
        rfl
  | negSucc n =>
      have read := parseUnsigned_toDigits (n + 1) exponent stop
      rw [renderInt, List.cons_append, parseNumber, read]
      rfl

/-! ## The round trip: values -/

mutual

/-- The fuel a value needs. -/
def weight : Json → Nat
  | .arr items => 1 + weightItems items
  | .obj fields => 1 + weightFields fields
  | _ => 1

def weightItems : List Json → Nat
  | [] => 1
  | item :: items => 1 + max (weight item) (weightItems items)

def weightFields : List (String × Json) → Nat
  | [] => 1
  | (_, value) :: fields => 2 + max (weight value) (weightFields fields)

end

/-- The text of a value starts with a character that closes nothing and is no white space. -/
theorem render_cons (value : Json) : ∃ c text, render value = c :: text ∧ isSpace c = false ∧
    c ≠ ']' ∧ c ≠ '}' := by
  cases value with
  | null => exact ⟨'n', _, by rw [render], by decide⟩
  | bool b => cases b <;> [exact ⟨'f', _, by rw [render], by decide⟩;
      exact ⟨'t', _, by rw [render], by decide⟩]
  | num mantissa exponent =>
      cases mantissa with
      | ofNat n =>
          obtain ⟨c, digits, split, -, -⟩ := toDigits_cons n
          have digit : c.isDigit = true := isDigit_toDigits n c (by simp [split])
          refine ⟨c, _, by rw [render, renderNum, renderInt, split]; rfl, ?_, ?_, ?_⟩
          · by_contra space
            simp only [isSpace, Bool.not_eq_false, Bool.or_eq_true, decide_eq_true_eq] at space
            rcases space with ((rfl | rfl) | rfl) | rfl <;> exact absurd digit (by decide)
          · rintro rfl; exact absurd digit (by decide)
          · rintro rfl; exact absurd digit (by decide)
      | negSucc n => exact ⟨'-', _, by rw [render, renderNum, renderInt]; rfl, by decide⟩
  | str text => exact ⟨'"', _, by rw [render, renderString], by decide⟩
  | arr items => cases items <;> exact ⟨'[', _, by rw [render], by decide⟩
  | obj fields =>
      rcases fields with _ | ⟨⟨key, value⟩, fields⟩ <;> exact ⟨'{', _, by rw [render], by decide⟩

theorem skipSpace_cons {c : Char} (text : List Char) (solid : isSpace c = false) :
    skipSpace (c :: text) = c :: text := by
  simp [skipSpace, solid]

theorem skipSpace_render (value : Json) (rest : List Char) :
    skipSpace (render value ++ rest) = render value ++ rest := by
  obtain ⟨c, text, split, solid, -, -⟩ := render_cons value
  rw [split, List.cons_append, skipSpace_cons _ solid]

theorem skipSpace_renderItems (items : List Json) (rest : List Char) :
    skipSpace (renderItems items ++ rest) = renderItems items ++ rest := by
  cases items <;> rw [renderItems, List.cons_append, skipSpace_cons _ (by decide)]

theorem skipSpace_renderFields (fields : List (String × Json)) (rest : List Char) :
    skipSpace (renderFields fields ++ rest) = renderFields fields ++ rest := by
  rcases fields with _ | ⟨⟨key, value⟩, fields⟩ <;>
    rw [renderFields, List.cons_append, skipSpace_cons _ (by decide)]

theorem stops_renderItems (items : List Json) (rest : List Char) :
    Stops (renderItems items ++ rest) := by
  cases items <;> rw [renderItems, List.cons_append] <;> exact stops_cons _ (by decide)

theorem stops_renderFields (fields : List (String × Json)) (rest : List Char) :
    Stops (renderFields fields ++ rest) := by
  rcases fields with _ | ⟨⟨key, value⟩, fields⟩ <;>
    rw [renderFields, List.cons_append] <;> exact stops_cons _ (by decide)

/-- A number is not mistaken for a literal, a string or a container. -/
theorem parseValue_num (fuel : Nat) (mantissa exponent : Int) {rest : List Char}
    (stop : Stops rest) :
    parseValue (fuel + 1) (renderNum mantissa exponent ++ rest) =
      some (.num mantissa exponent, rest) := by
  have read := parseNumber_renderNum mantissa exponent stop
  have head : ∃ c text, renderNum mantissa exponent ++ rest = c :: text ∧
      (c.isDigit = true ∨ c = '-') := by
    cases mantissa with
    | ofNat n =>
        obtain ⟨c, digits, split, -, -⟩ := toDigits_cons n
        exact ⟨c, _, by rw [renderNum, renderInt, split]; rfl,
          Or.inl (isDigit_toDigits n c (by simp [split]))⟩
    | negSucc n => exact ⟨'-', _, by rw [renderNum, renderInt]; rfl, Or.inr rfl⟩
  obtain ⟨c, text, split, numeric⟩ := head
  rw [split] at read ⊢
  have notLiteral : c ≠ 'n' ∧ c ≠ 't' ∧ c ≠ 'f' ∧ c ≠ '"' ∧ c ≠ '[' ∧ c ≠ '{' := by
    refine ⟨?_, ?_, ?_, ?_, ?_, ?_⟩ <;> rintro rfl <;> exact absurd numeric (by decide)
  rw [parseValue]
  · exact read
  all_goals simp_all

/-- Each of the four readers reads back what the writer wrote, at one fuel. -/
structure ReadsBack (fuel : Nat) : Prop where
  value : ∀ (value : Json) (rest : List Char), weight value ≤ fuel → Stops rest →
    parseValue fuel (render value ++ rest) = some (value, rest)
  items : ∀ (items : List Json) (rest : List Char), weightItems items ≤ fuel →
    parseItems fuel (renderItems items ++ rest) = some (items, rest)
  field : ∀ (key : String) (value : Json) (rest : List Char), weight value + 1 ≤ fuel →
    Stops rest →
      parseField fuel (renderString key ++ ':' :: (render value ++ rest)) =
        some ((key, value), rest)
  fields : ∀ (fields : List (String × Json)) (rest : List Char), weightFields fields ≤ fuel →
    parseFields fuel (renderFields fields ++ rest) = some (fields, rest)

section ReadsBackStep

variable {fuel : Nat} (smaller : ReadsBack fuel)

include smaller

theorem parseValue_render (value : Json) (rest : List Char)
    (enough : weight value ≤ fuel + 1) (stop : Stops rest) :
    parseValue (fuel + 1) (render value ++ rest) = some (value, rest) := by
  match value with
  | .null => simp [render, parseValue]
  | .bool true => simp [render, parseValue]
  | .bool false => simp [render, parseValue]
  | .num mantissa exponent =>
      rw [render]
      exact parseValue_num fuel mantissa exponent stop
  | .str text =>
      simp only [render, renderString, List.cons_append, List.append_assoc, parseValue]
      rw [List.nil_append, parseString_flatMap]
      simp
  | .arr [] => simp [render, parseValue, skipSpace, isSpace]
  | .arr (item :: items) =>
      simp only [weight, weightItems] at enough
      have first := smaller.value item (renderItems items ++ rest) (by omega)
        (stops_renderItems items rest)
      have others := smaller.items items rest (by omega)
      obtain ⟨c, text, split, solid, notClose, -⟩ := render_cons item
      have same : render (.arr (item :: items)) ++ rest =
          '[' :: (render item ++ (renderItems items ++ rest)) := by
        simp [render]
      rw [same, parseValue, skipSpace_render]
      rw [split, List.cons_append] at first ⊢
      split
      · rename_i closed
        exact absurd (List.cons.inj closed).1 notClose
      · rw [first]
        simp only [Option.bind_eq_bind, Option.bind_some, skipSpace_renderItems, others,
          Option.pure_def]
  | .obj [] => simp [render, parseValue, skipSpace, isSpace]
  | .obj ((key, value) :: fields) =>
      simp only [weight, weightFields] at enough
      have first := smaller.field key value (renderFields fields ++ rest) (by omega)
        (stops_renderFields fields rest)
      have others := smaller.fields fields rest (by omega)
      have same : render (.obj ((key, value) :: fields)) ++ rest =
          '{' :: (renderString key ++ ':' :: (render value ++ (renderFields fields ++ rest))) := by
        simp [render]
      rw [same, parseValue]
      rw [renderString, List.cons_append, skipSpace_cons _ (by decide)]
      rw [renderString, List.cons_append] at first
      split
      · rename_i closed
        exact absurd (List.cons.inj closed).1 (by decide)
      · rw [first]
        simp only [Option.bind_eq_bind, Option.bind_some, skipSpace_renderFields, others,
          Option.pure_def]

theorem parseItems_renderItems (items : List Json) (rest : List Char)
    (enough : weightItems items ≤ fuel + 1) :
    parseItems (fuel + 1) (renderItems items ++ rest) = some (items, rest) := by
  match items with
  | [] => simp [renderItems, parseItems]
  | item :: items =>
      simp only [weightItems] at enough
      have first := smaller.value item (renderItems items ++ rest) (by omega)
        (stops_renderItems items rest)
      have others := smaller.items items rest (by omega)
      rw [renderItems, List.cons_append, List.append_assoc, parseItems, skipSpace_render, first]
      simp only [Option.bind_eq_bind, Option.bind_some, skipSpace_renderItems, others,
        Option.pure_def]

theorem parseField_render (key : String) (value : Json) (rest : List Char)
    (enough : weight value + 1 ≤ fuel + 1) (stop : Stops rest) :
    parseField (fuel + 1) (renderString key ++ ':' :: (render value ++ rest)) =
      some ((key, value), rest) := by
  have inner := smaller.value value rest (by omega) stop
  simp only [renderString, List.cons_append, List.append_assoc, parseField]
  rw [List.nil_append, parseString_flatMap]
  simp only [Option.bind_eq_bind, Option.bind_some, skipSpace_cons _ (show isSpace ':' = false by
    decide), skipSpace_render, inner, Option.pure_def, String.ofList_toList]

theorem parseFields_renderFields (fields : List (String × Json)) (rest : List Char)
    (enough : weightFields fields ≤ fuel + 1) :
    parseFields (fuel + 1) (renderFields fields ++ rest) = some (fields, rest) := by
  match fields with
  | [] => simp [renderFields, parseFields]
  | (key, value) :: fields =>
      simp only [weightFields] at enough
      have first := smaller.field key value (renderFields fields ++ rest) (by omega)
        (stops_renderFields fields rest)
      have others := smaller.fields fields rest (by omega)
      have same : renderFields ((key, value) :: fields) ++ rest =
          ',' :: (renderString key ++ ':' :: (render value ++ (renderFields fields ++ rest))) := by
        simp [renderFields]
      rw [same, parseFields]
      rw [renderString, List.cons_append, skipSpace_cons _ (by decide)]
      rw [renderString, List.cons_append] at first
      rw [first]
      simp only [Option.bind_eq_bind, Option.bind_some, skipSpace_renderFields, others,
        Option.pure_def]

end ReadsBackStep

theorem readsBack (fuel : Nat) : ReadsBack fuel := by
  induction fuel with
  | zero =>
      refine ⟨fun value _ enough => ?_, fun items _ enough => ?_, fun _ _ _ enough => ?_,
        fun fields _ enough => ?_⟩
      · exact absurd enough (by cases value <;> simp only [weight] <;> omega)
      · exact absurd enough (by cases items <;> simp only [weightItems] <;> omega)
      · exact absurd enough (by omega)
      · exact absurd enough (by
          rcases fields with _ | ⟨⟨key, value⟩, fields⟩ <;> simp only [weightFields] <;> omega)
  | succ fuel smaller =>
      exact ⟨parseValue_render smaller, parseItems_renderItems smaller,
        parseField_render smaller, parseFields_renderFields smaller⟩

mutual

/-- The text is long enough to pay for its own fuel. -/
theorem weight_le (value : Json) : weight value ≤ 2 * (render value).length := by
  obtain ⟨c, text, split, -, -, -⟩ := render_cons value
  have positive : 1 ≤ (render value).length := by rw [split]; simp
  match value with
  | .null | .bool _ | .num _ _ | .str _ => simp only [weight]; omega
  | .arr [] => simp [weight, weightItems, render]
  | .arr (item :: items) =>
      have first := weight_le item
      have others := weightItems_le items
      simp only [weight, weightItems, render, List.length_cons, List.length_append]
      omega
  | .obj [] => simp [weight, weightFields, render]
  | .obj ((key, value) :: fields) =>
      have first := weight_le value
      have others := weightFields_le fields
      simp only [weight, weightFields, render, renderString, List.length_cons, List.length_append]
      omega

theorem weightItems_le (items : List Json) :
    weightItems items ≤ 2 * (renderItems items).length := by
  match items with
  | [] => simp [weightItems, renderItems]
  | item :: items =>
      have first := weight_le item
      have others := weightItems_le items
      simp only [weightItems, renderItems, List.length_cons, List.length_append]
      omega

theorem weightFields_le (fields : List (String × Json)) :
    weightFields fields ≤ 2 * (renderFields fields).length := by
  match fields with
  | [] => simp [weightFields, renderFields]
  | (key, value) :: fields =>
      have first := weight_le value
      have others := weightFields_le fields
      simp only [weightFields, renderFields, renderString, List.length_cons, List.length_append]
      omega

end

/-- The round trip: `JSON.parse (JSON.stringify value)` is the value. -/
theorem parse_render (value : Json) : parse (render value) = some value := by
  have whole := (readsBack (2 * (render value).length + 2)).value value []
    (by have := weight_le value; omega) (fun c same => by simp at same)
  have space := skipSpace_render value []
  rw [List.append_nil] at whole space
  rw [parse, space, whole]
  rfl

theorem parse_stringify (value : Json) : parse (stringify value).toList = some value := by
  rw [stringify, String.toList_ofList, parse_render]

/-- A value with the end of its line. -/
theorem parse_line (value : Json) : parse (render value ++ ['\n']) = some value := by
  have enough : weight value ≤ 2 * (render value ++ ['\n']).length + 2 := by
    have := weight_le value
    rw [List.length_append]
    omega
  have whole := (readsBack (2 * (render value ++ ['\n']).length + 2)).value value ['\n'] enough
    (stops_cons [] (by decide : ('\n').isDigit = false ∧ '\n' ≠ '.' ∧ '\n' ≠ 'e' ∧ '\n' ≠ 'E'))
  rw [parse, skipSpace_render, whole]
  rfl

/-! ## What a reader leaves -/

/-- A reader that puts a character before what the rest reads leaves what the rest leaves. -/
theorem suffix_before (front : List Char) {rest : List Char} {c : Char}
    {inner : Option (List Char × List Char)} {read : List Char × List Char}
    (ih : ∀ {read : List Char × List Char}, inner = some read → read.2 <:+ rest)
    (bound : (inner.bind fun read => some (c :: read.1, read.2)) = some read) :
    read.2 <:+ front ++ rest := by
  obtain ⟨read', same, bound⟩ := Option.bind_eq_some_iff.mp bound
  obtain rfl := Option.some.inj bound
  have left := ih same
  exact left.trans (List.suffix_append _ _)

theorem suffix_parseString {text : List Char} {read : List Char × List Char}
    (parsed : parseString text = some read) : read.2 <:+ text := by
  fun_induction parseString text generalizing read with
  | case1 rest =>
      obtain rfl := Option.some.inj parsed
      exact List.suffix_cons _ _
  | case2 a b c d e f g h rest far near =>
      obtain ⟨high, -, parsed⟩ := Option.bind_eq_some_iff.mp parsed
      split_ifs at parsed
      · obtain ⟨low, -, parsed⟩ := Option.bind_eq_some_iff.mp parsed
        split_ifs at parsed
        exact suffix_before ['\\', 'u', a, b, c, d, '\\', 'u', e, f, g, h] far parsed
      · exact suffix_before ['\\', 'u', a, b, c, d] near parsed
  | case3 a b c d rest _ ih =>
      obtain ⟨code, -, parsed⟩ := Option.bind_eq_some_iff.mp parsed
      split_ifs at parsed
      exact suffix_before ['\\', 'u', a, b, c, d] ih parsed
  | case12 => cases parsed
  | case13 => cases parsed
  | case14 c rest _ _ _ _ _ ih =>
      obtain ⟨read', same, rfl⟩ := Option.map_eq_some_iff.mp parsed
      have left := ih same
      exact left.trans (List.suffix_cons _ _)
  | case15 => cases parsed
  -- an escaped character
  | _ => exact suffix_before ['\\', _] (by assumption) parsed

theorem suffix_skipSpace (text : List Char) : skipSpace text <:+ text := List.dropWhile_suffix _

theorem suffix_parseSign (text : List Char) : (parseSign text).2 <:+ text := by
  unfold parseSign
  split
  · exact List.suffix_cons _ _
  · exact List.suffix_cons _ _
  · exact List.suffix_refl _

theorem suffix_parseExponent {text : List Char} {read : Int × List Char}
    (parsed : parseExponent text = some read) : read.2 <:+ text := by
  unfold parseExponent at parsed
  split at parsed
  next c rest =>
    dsimp only at parsed
    split_ifs at parsed
    all_goals obtain rfl := Option.some.inj parsed
    · exact ((List.dropWhile_suffix _).trans (suffix_parseSign rest)).trans (List.suffix_cons _ _)
    · exact ((List.dropWhile_suffix _).trans (suffix_parseSign rest)).trans (List.suffix_cons _ _)
    · exact List.suffix_refl _
  next =>
    obtain rfl := Option.some.inj parsed
    exact List.suffix_refl _

theorem suffix_parseFraction {text : List Char} {read : List Char × List Char}
    (parsed : parseFraction text = some read) : read.2 <:+ text := by
  unfold parseFraction at parsed
  split at parsed
  · split_ifs at parsed
    obtain rfl := Option.some.inj parsed
    exact (List.dropWhile_suffix _).trans (List.suffix_cons _ _)
  · obtain rfl := Option.some.inj parsed
    exact List.suffix_refl _

theorem suffix_parseUnsigned {text : List Char} {read : Nat × Int × List Char}
    (parsed : parseUnsigned text = some read) : read.2.2 <:+ text := by
  unfold parseUnsigned at parsed
  dsimp only at parsed
  split_ifs at parsed
  obtain ⟨fraction, first, parsed⟩ := Option.bind_eq_some_iff.mp parsed
  obtain ⟨exponent, second, parsed⟩ := Option.bind_eq_some_iff.mp parsed
  obtain rfl := Option.some.inj parsed
  exact (suffix_parseExponent second).trans
    ((suffix_parseFraction first).trans (List.dropWhile_suffix _))

theorem suffix_parseNumber {text : List Char} {read : Json × List Char}
    (parsed : parseNumber text = some read) : read.2 <:+ text := by
  unfold parseNumber at parsed
  split at parsed
  all_goals
    obtain ⟨inner, first, parsed⟩ := Option.bind_eq_some_iff.mp parsed
    obtain rfl := Option.some.inj parsed
  · exact (suffix_parseUnsigned first).trans (List.suffix_cons _ _)
  · exact suffix_parseUnsigned first

/-- Each of the four readers leaves a suffix of what it was given, at one fuel. -/
structure Leaves (fuel : Nat) : Prop where
  value : ∀ {text value rest}, parseValue fuel text = some (value, rest) → rest <:+ text
  items : ∀ {text items rest}, parseItems fuel text = some (items, rest) → rest <:+ text
  field : ∀ {text field rest}, parseField fuel text = some (field, rest) → rest <:+ text
  fields : ∀ {text fields rest}, parseFields fuel text = some (fields, rest) → rest <:+ text

theorem leaves (fuel : Nat) : Leaves fuel := by
  induction fuel with
  | zero => 
    refine ⟨fun parsed => ?_, fun parsed => ?_, fun parsed => ?_, fun parsed => ?_⟩
    all_goals cases parsed
  | succ fuel ih =>
    refine ⟨fun {text value rest} parsed => ?_, fun {text items rest} parsed => ?_,
       fun {text field rest} parsed => ?_, fun {text fields rest} parsed => ?_⟩
    · unfold parseValue at parsed
      dsimp only at parsed
      split at parsed
      · obtain ⟨-, rfl⟩ := Prod.mk.inj (Option.some.inj parsed)
        exact List.suffix_append ['n', 'u', 'l', 'l'] _
      · obtain ⟨-, rfl⟩ := Prod.mk.inj (Option.some.inj parsed)
        exact List.suffix_append ['t', 'r', 'u', 'e'] _
      · obtain ⟨-, rfl⟩ := Prod.mk.inj (Option.some.inj parsed)
        exact List.suffix_append ['f', 'a', 'l', 's', 'e'] _
      · obtain ⟨read, first, same⟩ := Option.map_eq_some_iff.mp parsed
        obtain ⟨-, rfl⟩ := Prod.mk.inj same
        exact (suffix_parseString first).trans (List.suffix_cons _ _)
      next inside =>
        split at parsed
        next rest' closed =>
          obtain ⟨-, rfl⟩ := Prod.mk.inj (Option.some.inj parsed)
          have left := suffix_skipSpace inside
          rw [closed] at left
          exact ((List.suffix_cons _ _).trans left).trans (List.suffix_cons _ _)
        next =>
          obtain ⟨item, first, parsed⟩ := Option.bind_eq_some_iff.mp parsed
          obtain ⟨items, second, parsed⟩ := Option.bind_eq_some_iff.mp parsed
          obtain ⟨-, rfl⟩ := Prod.mk.inj (Option.some.inj parsed)
          exact (((ih.items second).trans (suffix_skipSpace _)).trans
            ((ih.value first).trans (suffix_skipSpace _))).trans (List.suffix_cons _ _)
      next inside =>
        split at parsed
        next rest' closed =>
          obtain ⟨-, rfl⟩ := Prod.mk.inj (Option.some.inj parsed)
          have left := suffix_skipSpace inside
          rw [closed] at left
          exact ((List.suffix_cons _ _).trans left).trans (List.suffix_cons _ _)
        next =>
          obtain ⟨field, first, parsed⟩ := Option.bind_eq_some_iff.mp parsed
          obtain ⟨fields, second, parsed⟩ := Option.bind_eq_some_iff.mp parsed
          obtain ⟨-, rfl⟩ := Prod.mk.inj (Option.some.inj parsed)
          exact (((ih.fields second).trans (suffix_skipSpace _)).trans
            ((ih.field first).trans (suffix_skipSpace _))).trans (List.suffix_cons _ _)
      · exact suffix_parseNumber parsed
    · unfold parseItems at parsed
      dsimp only at parsed
      split at parsed
      · obtain ⟨-, rfl⟩ := Prod.mk.inj (Option.some.inj parsed)
        exact List.suffix_cons _ _
      · obtain ⟨item, first, parsed⟩ := Option.bind_eq_some_iff.mp parsed
        obtain ⟨items, second, parsed⟩ := Option.bind_eq_some_iff.mp parsed
        obtain ⟨-, rfl⟩ := Prod.mk.inj (Option.some.inj parsed)
        exact (((ih.items second).trans (suffix_skipSpace _)).trans
          ((ih.value first).trans (suffix_skipSpace _))).trans (List.suffix_cons _ _)
      · cases parsed
    · unfold parseField at parsed
      dsimp only at parsed
      split at parsed
      · obtain ⟨key, first, parsed⟩ := Option.bind_eq_some_iff.mp parsed
        split at parsed
        next rest' colon =>
          obtain ⟨value, second, parsed⟩ := Option.bind_eq_some_iff.mp parsed
          obtain ⟨-, rfl⟩ := Prod.mk.inj (Option.some.inj parsed)
          have left := suffix_skipSpace key.2
          rw [colon] at left
          exact ((((ih.value second).trans (suffix_skipSpace _)).trans (List.suffix_cons _ _)).trans
            (left.trans (suffix_parseString first))).trans (List.suffix_cons _ _)
        next => cases parsed
      · cases parsed
    · unfold parseFields at parsed
      dsimp only at parsed
      split at parsed
      · obtain ⟨-, rfl⟩ := Prod.mk.inj (Option.some.inj parsed)
        exact List.suffix_cons _ _
      · obtain ⟨field, first, parsed⟩ := Option.bind_eq_some_iff.mp parsed
        obtain ⟨fields, second, parsed⟩ := Option.bind_eq_some_iff.mp parsed
        obtain ⟨-, rfl⟩ := Prod.mk.inj (Option.some.inj parsed)
        exact (((ih.fields second).trans (suffix_skipSpace _)).trans
          ((ih.field first).trans (suffix_skipSpace _))).trans (List.suffix_cons _ _)
      · cases parsed

/-- What follows the first field of an object has its closing brace. -/
theorem brace_mem_parseFields {fuel : Nat} {text rest : List Char} {fields : List (String × Json)}
    (parsed : parseFields fuel text = some (fields, rest)) : '}' ∈ text := by
  induction fuel generalizing text fields rest with
  | zero => cases parsed
  | succ fuel ih =>
    unfold parseFields at parsed
    dsimp only at parsed
    split at parsed
    · exact List.mem_cons_self
    · obtain ⟨field, first, parsed⟩ := Option.bind_eq_some_iff.mp parsed
      obtain ⟨⟨others, rest'⟩, second, -⟩ := Option.bind_eq_some_iff.mp parsed
      have left := (suffix_skipSpace _).trans (((leaves fuel).field first).trans (suffix_skipSpace _))
      exact List.mem_cons_of_mem _ (left.subset (ih second))
    · cases parsed

theorem brace_mem_parseValue {fuel : Nat} {text rest : List Char} {fields : List (String × Json)}
    (parsed : parseValue fuel text = some (.obj fields, rest)) : '}' ∈ text := by
  cases fuel with
  | zero => cases parsed
  | succ fuel =>
    unfold parseValue at parsed
    dsimp only at parsed
    split at parsed
    next => cases parsed
    next => cases parsed
    next => cases parsed
    next =>
      obtain ⟨read, -, same⟩ := Option.map_eq_some_iff.mp parsed
      cases same
    next =>
      split at parsed
      · cases parsed
      · obtain ⟨item, -, parsed⟩ := Option.bind_eq_some_iff.mp parsed
        obtain ⟨items, -, parsed⟩ := Option.bind_eq_some_iff.mp parsed
        cases parsed
    next inside =>
      split at parsed
      next rest' closed =>
        have left := suffix_skipSpace inside
        rw [closed] at left
        exact List.mem_cons_of_mem _ (left.subset List.mem_cons_self)
      next =>
        obtain ⟨field, first, parsed⟩ := Option.bind_eq_some_iff.mp parsed
        obtain ⟨⟨others, rest'⟩, second, -⟩ := Option.bind_eq_some_iff.mp parsed
        have left := (suffix_skipSpace _).trans (((leaves fuel).field first).trans (suffix_skipSpace _))
        exact List.mem_cons_of_mem _ (left.subset (brace_mem_parseFields second))
    next =>
      unfold parseNumber at parsed
      split at parsed
      all_goals
        obtain ⟨inner, -, parsed⟩ := Option.bind_eq_some_iff.mp parsed
        cases parsed

/-- A text that is read as an object has a closing brace. -/
theorem brace_mem_parse {text : List Char} {fields : List (String × Json)}
    (parsed : parse text = some (.obj fields)) : '}' ∈ text := by
  unfold parse at parsed
  split at parsed
  next value rest read =>
    split_ifs at parsed
    obtain rfl := Option.some.inj parsed
    exact (suffix_skipSpace text).subset (brace_mem_parseValue read)
  next => cases parsed
/-- The closing brace is written as itself only. -/
theorem brace_notMem_renderString {text : String} (free : '}' ∉ text.toList) :
    '}' ∉ renderString text := by
  have digit : ∀ n < 16, hexDigit n ≠ '}' := by decide
  have char : ∀ c ∈ text.toList, '}' ∉ escapeChar c := by
    intro c member
    have other : c ≠ '}' := fun same => free (same ▸ member)
    unfold escapeChar
    split_ifs with quote slash newline carriage tab back form control
    all_goals simp only [List.mem_cons, List.not_mem_nil, or_false, not_or]
    any_goals decide
    · have small : c.toNat / 16 < 16 ∧ c.toNat % 16 < 16 := by omega
      exact ⟨by decide, by decide, by decide, by decide, (digit _ small.1).symm,
        (digit _ small.2).symm⟩
    · exact other.symm
  simp only [renderString, List.mem_cons, List.mem_append, List.mem_flatMap, List.not_mem_nil,
    or_false, not_or, not_exists, not_and]
  exact ⟨by decide, char, by decide⟩

theorem brace_notMem_renderInt (n : Int) : '}' ∉ renderInt n := by
  have digits : ∀ n, '}' ∉ Nat.toDigits 10 n := fun n member =>
    absurd (isDigit_toDigits n _ member) (by decide)
  cases n with
  | ofNat n => exact digits n
  | negSucc n =>
      rw [renderInt, List.mem_cons, not_or]
      exact ⟨by decide, digits (n + 1)⟩

theorem renderFields_flat {fields : List (String × Json)}
    (flat : ∀ field ∈ fields, '}' ∉ renderString field.1 ∧ '}' ∉ render field.2) :
    ∃ body, renderFields fields = body ++ ['}'] ∧ '}' ∉ body := by
  induction fields with
  | nil => exact ⟨[], rfl, List.not_mem_nil⟩
  | cons field fields ih =>
    obtain ⟨key, value⟩ := field
    obtain ⟨body, rest, free⟩ := ih fun field member => flat field (List.mem_cons_of_mem _ member)
    obtain ⟨freeKey, freeValue⟩ := flat _ List.mem_cons_self
    refine ⟨',' :: (renderString key ++ ':' :: (render value ++ body)), ?_, ?_⟩
    · simp [renderFields, rest]
    · simp only [List.mem_cons, List.mem_append, not_or]
      exact ⟨by decide, freeKey, by decide, freeValue, free⟩

/-- An object whose keys and values have no closing brace has one at its end only. -/
theorem render_flat {fields : List (String × Json)}
    (flat : ∀ field ∈ fields, '}' ∉ renderString field.1 ∧ '}' ∉ render field.2) :
    ∃ body, render (.obj fields) = body ++ ['}'] ∧ '}' ∉ body := by
  cases fields with
  | nil => exact ⟨['{'], rfl, by decide⟩
  | cons field fields =>
    obtain ⟨key, value⟩ := field
    obtain ⟨body, rest, free⟩ := renderFields_flat fun field member =>
      flat field (List.mem_cons_of_mem _ member)
    obtain ⟨freeKey, freeValue⟩ := flat _ List.mem_cons_self
    refine ⟨'{' :: (renderString key ++ ':' :: (render value ++ body)), ?_, ?_⟩
    · simp [render, rest]
    · simp only [List.mem_cons, List.mem_append, not_or]
      exact ⟨by decide, freeKey, by decide, freeValue, free⟩

/-- **A torn object.** The start of such an object's text, whatever follows it without a closing
brace, is not read as an object. -/
theorem parse_torn {fields fields' : List (String × Json)} {front tail : List Char}
    (flat : ∀ field ∈ fields, '}' ∉ renderString field.1 ∧ '}' ∉ render field.2)
    (inside : front <+: render (.obj fields)) (short : front ≠ render (.obj fields))
    (free : '}' ∉ tail) : parse (front ++ tail) ≠ some (.obj fields') := by
  obtain ⟨body, whole, freeBody⟩ := render_flat flat
  rw [whole] at inside short
  have before := (List.prefix_concat_iff.mp inside).resolve_left short
  intro parsed
  rcases List.mem_append.mp (brace_mem_parse parsed) with member | member
  · exact freeBody (before.subset member)
  · exact free member

/-! ## One value a line -/

theorem newline_notMem_escapeChar (c : Char) : '\n' ∉ escapeChar c := by
  have digit : ∀ n < 16, hexDigit n ≠ '\n' := by decide
  unfold escapeChar
  split_ifs with quote slash newline carriage tab back form control
  all_goals simp only [List.mem_cons, List.not_mem_nil, or_false, not_or]
  any_goals decide
  · have small : c.toNat / 16 < 16 ∧ c.toNat % 16 < 16 := by omega
    exact ⟨by decide, by decide, by decide, by decide, (digit _ small.1).symm, (digit _ small.2).symm⟩
  · exact fun same => newline same.symm

theorem newline_notMem_renderString (text : String) : '\n' ∉ renderString text := by
  simp only [renderString, List.mem_cons, List.mem_append, List.mem_flatMap, List.not_mem_nil,
    or_false, not_or, not_exists, not_and]
  exact ⟨by decide, fun c _ => newline_notMem_escapeChar c, by decide⟩

theorem newline_notMem_toDigits (n : Nat) : '\n' ∉ Nat.toDigits 10 n :=
  fun member => absurd (isDigit_toDigits n _ member) (by decide)

theorem newline_notMem_renderInt (n : Int) : '\n' ∉ renderInt n := by
  cases n with
  | ofNat n => exact newline_notMem_toDigits n
  | negSucc n =>
      rw [renderInt, List.mem_cons, not_or]
      exact ⟨by decide, newline_notMem_toDigits (n + 1)⟩

mutual

/-- The text of a value holds no line break. -/
theorem newline_notMem_render (value : Json) : '\n' ∉ render value := by
  match value with
  | .null => simp [render]
  | .bool true => simp [render]
  | .bool false => simp [render]
  | .num mantissa exponent =>
      rw [render, renderNum, List.mem_append, not_or]
      refine ⟨newline_notMem_renderInt mantissa, ?_⟩
      split_ifs
      · exact List.not_mem_nil
      · rw [List.mem_cons, not_or]
        exact ⟨by decide, newline_notMem_renderInt exponent⟩
  | .str text => rw [render]; exact newline_notMem_renderString text
  | .arr [] => simp [render]
  | .arr (item :: items) =>
      simp only [render, List.mem_cons, List.mem_append, not_or]
      exact ⟨by decide, newline_notMem_render item, newline_notMem_renderItems items⟩
  | .obj [] => simp [render]
  | .obj ((key, value) :: fields) =>
      simp only [render, List.mem_cons, List.mem_append, not_or]
      exact ⟨by decide, newline_notMem_renderString key, by decide, newline_notMem_render value,
        newline_notMem_renderFields fields⟩

theorem newline_notMem_renderItems (items : List Json) : '\n' ∉ renderItems items := by
  match items with
  | [] => simp [renderItems]
  | item :: items =>
      simp only [renderItems, List.mem_cons, List.mem_append, not_or]
      exact ⟨by decide, newline_notMem_render item, newline_notMem_renderItems items⟩

theorem newline_notMem_renderFields (fields : List (String × Json)) :
    '\n' ∉ renderFields fields := by
  match fields with
  | [] => simp [renderFields]
  | (key, value) :: fields =>
      simp only [renderFields, List.mem_cons, List.mem_append, not_or]
      exact ⟨by decide, newline_notMem_renderString key, by decide, newline_notMem_render value,
        newline_notMem_renderFields fields⟩

end

theorem newline_notMem_stringify (value : Json) : '\n' ∉ (stringify value).toList := by
  rw [stringify, String.toList_ofList]
  exact newline_notMem_render value

/-! ## Reading a value -/

/-- A property of an object; of a repeated key, the last. -/
def get : Json → String → Option Json
  | .obj fields, key => (fields.reverse.find? fun field => field.1 = key).map Prod.snd
  | _, _ => none

def isObj : Json → Bool
  | .obj _ => true
  | _ => false

def string : Json → Option String
  | .str text => some text
  | _ => none

/-- The items of an array. -/
def items : Json → Option (List Json)
  | .arr items => some items
  | _ => none

/-- The integer a number stands for. -/
def integer : Json → Option Int
  | .num mantissa (.ofNat e) => some (mantissa * 10 ^ e)
  | .num mantissa (.negSucc e) =>
      if mantissa % 10 ^ (e + 1) = 0 then some (mantissa / 10 ^ (e + 1)) else none
  | _ => none

/-- `String(value || '')`, as far as it can match a pattern of letters, digits and hyphens: of a
text, or of what stands in arrays of one item. -/
def text : Json → String
  | .str text => text
  | .arr [item] => item.text
  | _ => ""

/-- `value[key] = field` -/
def put : Json → String → Json → Json
  | .obj fields, key, field =>
      if key ∈ fields.map Prod.fst then
        .obj (fields.map fun old => if old.1 = key then (key, field) else old)
      else .obj (fields ++ [(key, field)])
  | value, _, _ => value

@[simp]
theorem isObj_put (value : Json) (key : String) (field : Json) :
    (value.put key field).isObj = value.isObj := by
  cases value with
  | obj fields =>
      unfold put
      dsimp only
      split_ifs <;> rfl
  | _ => rfl

theorem get_obj (fields : List (String × Json)) (key : String) :
    (Json.obj fields).get key = (fields.reverse.find? fun field => field.1 = key).map Prod.snd :=
  rfl

theorem find?_replace {fields : List (String × Json)} (key name : String) (field : Json) :
    (fields.map fun old => if old.1 = key then (key, field) else old).find? (·.1 = name) =
      (fields.find? (·.1 = name)).map fun old => if old.1 = key then (key, field) else old := by
  rw [List.find?_map]
  congr 2
  funext old
  by_cases same : old.1 = key
  · simp [same]
  · simp [same]

theorem get_put_self {value : Json} (obj : value.isObj = true) (key : String) (field : Json) :
    (value.put key field).get key = some field := by
  cases value with
  | obj fields =>
      unfold put
      dsimp only
      split_ifs with member
      · rw [get_obj, ← List.map_reverse, find?_replace]
        obtain ⟨old, mem, own⟩ := List.mem_map.mp member
        obtain ⟨found, is⟩ : ∃ found, fields.reverse.find? (·.1 = key) = some found := by
          rw [← Option.isSome_iff_exists, List.find?_isSome]
          exact ⟨old, List.mem_reverse.mpr mem, decide_eq_true own⟩
        have named : found.1 = key := by simpa using List.find?_some is
        rw [is, Option.map_some, if_pos named, Option.map_some]
      · simp [get]
  | _ => cases obj

theorem get_put_of_ne {value : Json} {key name : String} (other : name ≠ key) (field : Json) :
    (value.put key field).get name = value.get name := by
  cases value with
  | obj fields =>
      unfold put
      dsimp only
      split_ifs with member
      · rw [get_obj, get_obj, ← List.map_reverse, find?_replace]
        cases is : fields.reverse.find? (·.1 = name) with
        | none => rfl
        | some found =>
          have named : found.1 = name := by simpa using List.find?_some is
          rw [Option.map_some, if_neg (named ▸ other)]
      · simp [get, other.symm]
  | _ => rfl

/-! ## Exact keys -/

/-- The keys of an object, each once. -/
def keys : Json → List String
  | .obj fields => (fields.map Prod.fst).dedup
  | _ => []

/-- `Object.keys(value).sort().join(',')` -/
def keysText (value : Json) : List Char :=
  [','].intercalate ((value.keys.insertionSort (· ≤ ·)).map String.toList)

theorem nodup_keys (value : Json) : value.keys.Nodup := by
  cases value with
  | obj fields => exact List.nodup_dedup _
  | _ => exact List.nodup_nil

theorem isSome_get {value : Json} {key : String} :
    (value.get key).isSome = true ↔ key ∈ value.keys := by
  cases value with
  | obj fields =>
      rw [get, Option.isSome_map, List.find?_isSome, keys, List.mem_dedup, List.mem_map]
      simp only [List.mem_reverse, decide_eq_true_eq]
  | _ => simp [get, keys]

theorem mem_keys_of_get {value field : Json} {key : String} (found : value.get key = some field) :
    key ∈ value.keys :=
  isSome_get.mp (Option.isSome_of_eq_some found)

theorem length_intercalate (parts : List (List Char)) :
    ([','].intercalate parts).length = (parts.map List.length).sum + (parts.length - 1) := by
  induction parts with
  | nil => rfl
  | cons part rest ih =>
      cases rest with
      | nil => simp
      | cons next rest =>
          rw [List.intercalate_cons_cons]
          simp only [List.length_append, ih, List.map_cons, List.sum_cons, List.length_cons,
            List.length_nil]
          omega

/-- An object that has the wanted keys has their text exactly where it has no others: another key
makes the text longer, even one that holds commas. -/
theorem keysText_eq_iff {value : Json} {want : List String} (some : want ≠ [])
    (sorted : want.Pairwise (· < ·)) (present : ∀ key ∈ want, key ∈ value.keys) :
    value.keysText = [','].intercalate (want.map String.toList) ↔
      ∀ key ∈ value.keys, key ∈ want := by
  have perm := List.perm_insertionSort (· ≤ ·) value.keys
  have nodup : want.Nodup := sorted.imp fun lt => lt.ne
  constructor
  · intro same
    obtain ⟨front, own, inside⟩ := List.subperm_of_subset nodup present
    obtain ⟨others, split⟩ := inside.exists_perm_append
    replace split := split.trans (own.append_right others)
    have lengths := congrArg List.length same
    have whole := perm.trans split
    have sums := (whole.map fun key => key.toList.length).sum_nat
    have counts := whole.length_eq
    rw [keysText, length_intercalate, length_intercalate] at lengths
    simp only [List.map_map, List.length_map, List.map_append, List.sum_append, List.length_append,
      Function.comp_def] at lengths sums counts
    have none : others = [] := by
      have wanted := List.length_pos_of_ne_nil some
      refine List.eq_nil_of_length_eq_zero ?_
      omega
    rw [none, List.append_nil] at split
    exact fun key mem => split.mem_iff.mp mem
  · intro only
    have same : value.keys.Perm want :=
      (List.perm_ext_iff_of_nodup value.nodup_keys nodup).mpr fun key => ⟨only key, present key⟩
    have order : value.keys.insertionSort (· ≤ ·) = want :=
      (perm.trans same).eq_of_pairwise' (List.pairwise_insertionSort _ _) (sorted.imp fun lt => lt.le)
    rw [keysText, order]
end Json

end Nvoy
