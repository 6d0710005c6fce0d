/-
**How long a written JSON value is**, from the lengths of its texts and numbers.

* `length_renderString_le`, `length_renderNum_le`, `length_renderItems_le` — texts, numbers and arrays;
* `length_utf8_le` — four bytes for each character at most;
* `escapedBytes`, `twiceEscapedBytes` — the exact bytes of a text inside a string literal, and inside one
  that is written inside another;
* `bytes_render_obj`, `bytes_render_arr`, `bytes_escape_render_obj` — the exact bytes of a value from those of
  its parts.
-/

import Mathlib.Algebra.Order.BigOperators.Group.List
import Mathlib.Data.Nat.Digits.Defs
import Nvoy.Lib.Json
import Nvoy.Lib.Utf8

namespace Nvoy

theorem length_flatMap_le {α β : Type} {f : α → List β} {bound : Nat} {list : List α}
    (each : ∀ a ∈ list, (f a).length ≤ bound) : (list.flatMap f).length ≤ bound * list.length := by
  induction list with
  | nil => exact Nat.zero_le _
  | cons a list ih =>
      have head := each a List.mem_cons_self
      have tail := ih fun a member => each a (List.mem_cons_of_mem _ member)
      rw [List.flatMap_cons, List.length_append, List.length_cons, Nat.mul_succ]
      omega

/-- A character takes four bytes at most. -/
theorem length_utf8_le (text : String) : (utf8 text).length ≤ 4 * text.toList.length := by
  refine length_flatMap_le fun c _ => ?_
  rw [String.length_utf8EncodeChar]
  exact Char.utf8Size_le_four c

namespace Json

theorem length_escapeChar_le (c : Char) : (escapeChar c).length ≤ 6 := by
  unfold escapeChar
  split_ifs <;> simp

theorem length_renderString_le (text : String) :
    (renderString text).length ≤ 6 * text.toList.length + 2 := by
  have escaped : (text.toList.flatMap escapeChar).length ≤ 6 * text.toList.length :=
    length_flatMap_le fun c _ => length_escapeChar_le c
  rw [renderString, List.length_cons, List.length_append, List.length_singleton]
  omega

theorem length_renderInt_le {n : Int} {digits : Nat} (some : 0 < digits)
    (small : n.natAbs < 10 ^ digits) : (renderInt n).length ≤ digits + 1 := by
  cases n with
  | ofNat n => exact Nat.le_succ_of_le (Nat.toDigits_length 10 n digits some small)
  | negSucc n =>
      rw [renderInt, List.length_cons]
      exact Nat.succ_le_succ (Nat.toDigits_length 10 (n + 1) digits some small)

theorem length_renderNum_le {mantissa exponent : Int} {digits places : Nat} (some : 0 < digits)
    (small : mantissa.natAbs < 10 ^ digits) (placed : 0 < places) (near : exponent.natAbs < 10 ^ places) :
    (renderNum mantissa exponent).length ≤ digits + places + 3 := by
  have whole := length_renderInt_le some small
  have power := length_renderInt_le placed near
  rw [renderNum, List.length_append]
  split_ifs
  · simp
    omega
  · rw [List.length_cons]
    omega

theorem length_renderItems_le {items : List Json} {bound : Nat}
    (each : ∀ item ∈ items, (render item).length ≤ bound) :
    (renderItems items).length ≤ (bound + 1) * items.length + 1 := by
  induction items with
  | nil => exact Nat.le_add_left _ _
  | cons item items ih =>
      have head := each item List.mem_cons_self
      have tail := ih fun item member => each item (List.mem_cons_of_mem _ member)
      rw [renderItems, List.length_cons, List.length_append, List.length_cons, Nat.mul_succ]
      omega

theorem length_render_arr_le {items : List Json} {bound : Nat}
    (each : ∀ item ∈ items, (render item).length ≤ bound) :
    (render (.arr items)).length ≤ (bound + 1) * items.length + 2 := by
  cases items with
  | nil => simp [render]
  | cons item items =>
      have whole := length_renderItems_le each
      rw [renderItems] at whole
      rw [render]
      simp only [List.length_cons] at whole ⊢
      omega

/-! ## Exact bytes -/

/-- A character with a letter of its own after the backslash. -/
def isNamed (c : Char) : Bool := c = '\n' || c = '\r' || c = '\t' || c.toNat = 8 || c.toNat = 12

/-- The bytes of a character inside a string literal. -/
def escapedSize (c : Char) : Nat :=
  if c = '"' ∨ c = '\\' then 2 else if isNamed c then 2 else if c.toNat < 32 then 6 else c.utf8Size

/-- The bytes of a character inside a string literal that is written inside another. -/
def twiceEscapedSize (c : Char) : Nat :=
  if c = '"' ∨ c = '\\' then 4 else if isNamed c then 3 else if c.toNat < 32 then 7 else c.utf8Size

def escapedBytes (text : String) : Nat := (text.toList.map escapedSize).sum

def twiceEscapedBytes (text : String) : Nat := (text.toList.map twiceEscapedSize).sum

/-- The bytes of a list of characters. -/
def bytes (text : List Char) : Nat := (text.map Char.utf8Size).sum

/-- A text as it stands inside a string literal. -/
def escape (text : List Char) : List Char := text.flatMap escapeChar

section Bytes

variable {c : Char} {text : List Char} {key : String} {value : Json} {items : List Json}
  {fields : List (String × Json)}

theorem bytes_nil : bytes [] = 0 := rfl

theorem bytes_cons : bytes (c :: text) = c.utf8Size + bytes text := by
  rw [bytes, List.map_cons, List.sum_cons, bytes]

theorem bytes_append (first second : List Char) : bytes (first ++ second) = bytes first + bytes second := by
  rw [bytes, List.map_append, List.sum_append, bytes, bytes]

theorem bytes_flatMap {α : Type} (f : α → List Char) (list : List α) :
    bytes (list.flatMap f) = (list.map fun a => bytes (f a)).sum := by
  induction list with
  | nil => rfl
  | cons a list ih => rw [List.flatMap_cons, bytes_append, ih, List.map_cons, List.sum_cons]

theorem length_utf8 (text : String) : (utf8 text).length = bytes text.toList := by
  rw [utf8, List.length_flatMap, bytes]
  simp only [String.length_utf8EncodeChar]

theorem escape_nil : escape [] = [] := rfl

theorem escape_cons : escape (c :: text) = escapeChar c ++ escape text := List.flatMap_cons

theorem escape_append (first second : List Char) : escape (first ++ second) = escape first ++ escape second :=
  List.flatMap_append

/-- A character of one byte that stands for itself. -/
def Plain (c : Char) : Prop := c.utf8Size = 1 ∧ escapeChar c = [c]

theorem plain_hexDigit {n : Nat} (small : n < 16) : Plain (hexDigit n) := by
  interval_cases n <;> exact ⟨by decide, by decide⟩

/-- What `JSON.stringify` writes for a character of each kind. -/
inductive Escaped (c : Char) : Prop
  | quoted (special : c = '"' ∨ c = '\\') (written : escapeChar c = ['\\', c])
  | named (plain : ¬ (c = '"' ∨ c = '\\')) (named : isNamed c = true) (letter : Char) (ascii : Plain letter)
      (written : escapeChar c = ['\\', letter])
  | control (plain : ¬ (c = '"' ∨ c = '\\')) (named : ¬ isNamed c = true) (low : c.toNat < 32)
      (written : escapeChar c = ['\\', 'u', '0', '0', hexDigit (c.toNat / 16), hexDigit (c.toNat % 16)])
  | itself (plain : ¬ (c = '"' ∨ c = '\\')) (named : ¬ isNamed c = true) (low : ¬ c.toNat < 32)
      (written : escapeChar c = [c])

theorem escaped (c : Char) : Escaped c := by
  by_cases quote : c = '"'
  · subst quote
    exact .quoted (.inl rfl) rfl
  by_cases slash : c = '\\'
  · subst slash
    exact .quoted (.inr rfl) rfl
  have plain : ¬ (c = '"' ∨ c = '\\') := not_or.mpr ⟨quote, slash⟩
  have letter : ∀ letter, letter ∈ ['n', 'r', 't', 'b', 'f'] → Plain letter := by
    intro letter member
    simp only [List.mem_cons, List.not_mem_nil, or_false] at member
    rcases member with rfl | rfl | rfl | rfl | rfl <;> exact ⟨by decide, by decide⟩
  by_cases named : isNamed c = true
  · unfold isNamed at named
    simp only [Bool.or_eq_true, decide_eq_true_eq, or_assoc] at named
    rcases named with rfl | rfl | rfl | back | form
    · exact .named plain rfl 'n' (letter _ (by simp)) rfl
    · exact .named plain rfl 'r' (letter _ (by simp)) rfl
    · exact .named plain rfl 't' (letter _ (by simp)) rfl
    · obtain rfl : c = Char.ofNat 8 := by rw [← back, Char.ofNat_toNat]
      exact .named plain rfl 'b' (letter _ (by simp)) rfl
    · obtain rfl : c = Char.ofNat 12 := by rw [← form, Char.ofNat_toNat]
      exact .named plain rfl 'f' (letter _ (by simp)) rfl
  · have others := named
    simp only [isNamed, Bool.or_eq_true, decide_eq_true_eq, not_or] at others
    obtain ⟨⟨⟨⟨newline, carriage⟩, tab⟩, back⟩, form⟩ := others
    by_cases low : c.toNat < 32
    · refine .control plain named low ?_
      rw [escapeChar, if_neg quote, if_neg slash, if_neg newline, if_neg carriage, if_neg tab, if_neg back,
        if_neg form, if_pos low]
    · refine .itself plain named low ?_
      rw [escapeChar, if_neg quote, if_neg slash, if_neg newline, if_neg carriage, if_neg tab, if_neg back,
        if_neg form, if_neg low]

theorem bytes_escapeChar (c : Char) : bytes (escapeChar c) = escapedSize c := by
  cases escaped c with
  | quoted special written =>
      rw [written, escapedSize, if_pos special]
      rcases special with rfl | rfl <;> rfl
  | named plain named letter ascii written =>
      rw [written, escapedSize, if_neg plain, if_pos named, bytes_cons, bytes_cons, ascii.1]
      rfl
  | control plain named low written =>
      have high := (plain_hexDigit (show c.toNat / 16 < 16 by omega)).1
      have low' := (plain_hexDigit (show c.toNat % 16 < 16 by omega)).1
      rw [written, escapedSize, if_neg plain, if_neg named, if_pos low]
      simp only [bytes_cons, bytes_nil, high, low']
      rfl
  | itself plain named low written =>
      rw [written, escapedSize, if_neg plain, if_neg named, if_neg low]
      rfl

theorem bytes_escape_escapeChar (c : Char) : bytes (escape (escapeChar c)) = twiceEscapedSize c := by
  have slash : escapeChar '\\' = ['\\', '\\'] := rfl
  cases escaped c with
  | quoted special written =>
      rw [written, twiceEscapedSize, if_pos special]
      rcases special with rfl | rfl <;> rfl
  | named plain named letter ascii written =>
      rw [written, twiceEscapedSize, if_neg plain, if_pos named, escape_cons, escape_cons, slash, ascii.2]
      simp only [escape_nil, List.cons_append, List.nil_append, bytes_cons, bytes_nil, ascii.1]
      rfl
  | control plain named low written =>
      have high := plain_hexDigit (show c.toNat / 16 < 16 by omega)
      have low' := plain_hexDigit (show c.toNat % 16 < 16 by omega)
      rw [written, twiceEscapedSize, if_neg plain, if_neg named, if_pos low]
      simp only [escape_cons, slash, high.2, low'.2, escape_nil, List.cons_append, List.nil_append, bytes_cons,
        bytes_append, bytes_nil, high.1, low'.1]
      rfl
  | itself plain named low written =>
      rw [written, escape_cons, written, twiceEscapedSize, if_neg plain, if_neg named, if_neg low]
      rfl

/-- The bytes of a text inside a string literal. -/
theorem bytes_escape (text : String) : bytes (escape text.toList) = escapedBytes text := by
  rw [escape, bytes_flatMap, escapedBytes]
  simp only [bytes_escapeChar]

/-- The bytes of a text inside a string literal that is written inside another. -/
theorem bytes_escape_escape (text : String) : bytes (escape (escape text.toList)) = twiceEscapedBytes text := by
  have whole : escape (escape text.toList) = text.toList.flatMap fun c => escape (escapeChar c) := by
    rw [escape, escape, List.flatMap_assoc]
    rfl
  rw [whole, bytes_flatMap, twiceEscapedBytes]
  simp only [bytes_escape_escapeChar]

/-! ### Values -/

theorem bytes_renderString (text : String) : bytes (renderString text) = escapedBytes text + 2 := by
  rw [renderString, bytes_cons, bytes_append, ← bytes_escape, escape]
  show 1 + (_ + 1) = _ + 2
  omega

theorem bytes_escape_renderString (text : String) :
    bytes (escape (renderString text)) = twiceEscapedBytes text + 4 := by
  rw [renderString, escape_cons, escape_append, bytes_append, bytes_append]
  rw [show text.toList.flatMap escapeChar = escape text.toList from rfl, bytes_escape_escape]
  show 2 + (_ + 2) = _ + 4
  omega

theorem bytes_renderItems (items : List Json) :
    bytes (renderItems items) = (items.map fun item => bytes (render item) + 1).sum + 1 := by
  induction items with
  | nil => rfl
  | cons item items ih =>
      rw [renderItems, bytes_cons, bytes_append, ih, List.map_cons, List.sum_cons]
      show 1 + (_ + (_ + 1)) = _
      omega

theorem bytes_render_arr (some : items ≠ []) :
    bytes (render (.arr items)) = (items.map fun item => bytes (render item) + 1).sum + 1 := by
  rw [← bytes_renderItems]
  cases items with
  | nil => exact absurd rfl some
  | cons item items => rfl

theorem bytes_escape_renderItems (items : List Json) : bytes (escape (renderItems items)) =
    (items.map fun item => bytes (escape (render item)) + 1).sum + 1 := by
  induction items with
  | nil => rfl
  | cons item items ih =>
      rw [renderItems, escape_cons, escape_append, bytes_append, bytes_append, ih, List.map_cons, List.sum_cons]
      show 1 + (_ + (_ + 1)) = _
      omega

theorem bytes_escape_render_arr (some : items ≠ []) : bytes (escape (render (.arr items))) =
    (items.map fun item => bytes (escape (render item)) + 1).sum + 1 := by
  rw [← bytes_escape_renderItems]
  cases items with
  | nil => exact absurd rfl some
  | cons item items => rfl

theorem bytes_renderFields (fields : List (String × Json)) : bytes (renderFields fields) =
    (fields.map fun field => escapedBytes field.1 + bytes (render field.2) + 4).sum + 1 := by
  induction fields with
  | nil => rfl
  | cons field fields ih =>
      rw [renderFields, bytes_cons, bytes_append, bytes_cons, bytes_append, bytes_renderString, ih,
        List.map_cons, List.sum_cons]
      show 1 + (_ + 2 + (1 + (_ + (_ + 1)))) = _
      omega

theorem bytes_render_obj (some : fields ≠ []) : bytes (render (.obj fields)) =
    (fields.map fun field => escapedBytes field.1 + bytes (render field.2) + 4).sum + 1 := by
  rw [← bytes_renderFields]
  cases fields with
  | nil => exact absurd rfl some
  | cons field fields => rfl

theorem bytes_escape_renderFields (fields : List (String × Json)) : bytes (escape (renderFields fields)) =
    (fields.map fun field => twiceEscapedBytes field.1 + bytes (escape (render field.2)) + 6).sum + 1 := by
  induction fields with
  | nil => rfl
  | cons field fields ih =>
      rw [renderFields, escape_cons, bytes_append, escape_append, bytes_append, escape_cons, bytes_append,
        escape_append, bytes_append, bytes_escape_renderString, ih, List.map_cons, List.sum_cons]
      show 1 + (_ + 4 + (1 + (_ + (_ + 1)))) = _
      omega

theorem bytes_escape_render_obj (some : fields ≠ []) : bytes (escape (render (.obj fields))) =
    (fields.map fun field => twiceEscapedBytes field.1 + bytes (escape (render field.2)) + 6).sum + 1 := by
  rw [← bytes_escape_renderFields]
  cases fields with
  | nil => exact absurd rfl some
  | cons field fields => rfl

/-- The bytes of an array of texts that is written inside a string literal. -/
theorem bytes_escape_render_texts {texts : List String} (filled : texts ≠ []) :
    bytes (escape (render (.arr (texts.map .str)))) =
      (texts.map fun text => twiceEscapedBytes text + 5).sum + 1 := by
  rw [bytes_escape_render_arr (by simpa using filled), List.map_map]
  congr 2
  refine List.map_congr_left fun text _ => ?_
  rw [Function.comp_apply, render, bytes_escape_renderString]

/-- The digits of a number take a byte each. -/
theorem bytes_renderInt (n : Int) : bytes (renderInt n) = (renderInt n).length := by
  have digits : ∀ m : Nat, bytes (Nat.toDigits 10 m) = (Nat.toDigits 10 m).length := by
    intro m
    have each : (Nat.toDigits 10 m).map Char.utf8Size = (Nat.toDigits 10 m).map fun _ => 1 := by
      refine List.map_congr_left fun c member => ?_
      have digit := isDigit_toDigits m c member
      rw [Char.isDigit, Bool.and_eq_true, decide_eq_true_eq, decide_eq_true_eq] at digit
      exact if_pos (UInt32.le_trans digit.2 (by decide))
    rw [bytes, each, List.map_const', List.sum_replicate_nat, Nat.mul_one]
  cases n with
  | ofNat m => exact digits m
  | negSucc m =>
      rw [renderInt, bytes_cons, digits, List.length_cons]
      show 1 + _ = _
      omega

theorem escapedBytes_le (text : String) : escapedBytes text ≤ 6 * text.toList.length := by
  rw [escapedBytes, Nat.mul_comm, ← List.length_map escapedSize]
  refine List.sum_le_card_nsmul _ 6 fun size listed => ?_
  obtain ⟨c, -, rfl⟩ := List.mem_map.mp listed
  have four := Char.utf8Size_le_four c
  unfold escapedSize
  split_ifs <;> omega

theorem twiceEscapedBytes_le (text : String) : twiceEscapedBytes text ≤ 7 * text.toList.length := by
  rw [twiceEscapedBytes, Nat.mul_comm, ← List.length_map twiceEscapedSize]
  refine List.sum_le_card_nsmul _ 7 fun size listed => ?_
  obtain ⟨c, -, rfl⟩ := List.mem_map.mp listed
  have four := Char.utf8Size_le_four c
  unfold twiceEscapedSize
  split_ifs <;> omega

/-- A text of characters that stand for themselves takes a byte for each. -/
theorem escapedBytes_of_plain {text : String} (plain : ∀ c ∈ text.toList, Plain c) :
    escapedBytes text = text.toList.length := by
  have each : text.toList.map escapedSize = text.toList.map fun _ => 1 := by
    refine List.map_congr_left fun c member => ?_
    rw [← bytes_escapeChar, (plain c member).2, bytes_cons, (plain c member).1]
    rfl
  rw [escapedBytes, each, List.map_const', List.sum_replicate_nat, Nat.mul_one]

end Bytes

end Json

end Nvoy
