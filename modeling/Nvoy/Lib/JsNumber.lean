/-
**Numbers with `NaN` and the infinities**, compared as the language compares them: a comparison with
`NaN` is false, and everything else is a linear order.

* `JsNumber`, `le`, `lt` — the numbers and their two comparisons;
* `le_trans`, `lt_iff_not_le` — the order, off `NaN`;
* `wholeText` — the text of a whole number.
-/

import Mathlib.Algebra.Order.Ring.Rat
import Mathlib.Algebra.Order.AbsoluteValue.Basic
import Mathlib.Order.WithBot

namespace Nvoy

/-- A number of the language; `none` is `NaN`. -/
abbrev JsNumber := Option (WithBot (WithTop ℚ))

namespace JsNumber

variable {a b c : JsNumber}

/-- `a <= b` -/
def le : JsNumber → JsNumber → Bool
  | some a, some b => a ≤ b
  | _, _ => false

/-- `a < b` -/
def lt : JsNumber → JsNumber → Bool
  | some a, some b => a < b
  | _, _ => false

def isNaN (a : JsNumber) : Bool := a.isNone

def finite (value : ℚ) : JsNumber := some ((value : WithTop ℚ) : WithBot (WithTop ℚ))

/-- The number of a decimal text, which is infinite from the range of a double on. -/
def ofRat (value : ℚ) : JsNumber :=
  if |value| < 2 ^ 1024 - 2 ^ 970 then finite value
  else if 0 < value then some (((⊤ : WithTop ℚ)) : WithBot (WithTop ℚ)) else some ⊥

theorem le_refl (number : a.isNaN = false) : le a a = true := by
  cases a with
  | none => cases number
  | some a => simp [le]

theorem le_trans (first : le a b = true) (second : le b c = true) : le a c = true := by
  cases a with
  | none => cases first
  | some a =>
    cases b with
    | none => cases first
    | some b =>
      cases c with
      | none => cases second
      | some c =>
        simp only [le, decide_eq_true_eq] at first second ⊢
        exact first.trans second

theorem numbers_of_le (compared : le a b = true) : a.isNaN = false ∧ b.isNaN = false := by
  cases a with
  | none => cases compared
  | some a =>
    cases b with
    | none => cases compared
    | some b => exact ⟨rfl, rfl⟩

/-- Off `NaN` the comparisons exclude each other. -/
theorem lt_iff_not_le (number : a.isNaN = false) (number' : b.isNaN = false) :
    lt b a = true ↔ ¬ le a b = true := by
  cases a with
  | none => cases number
  | some a =>
    cases b with
    | none => cases number'
    | some b => simp [le, lt]

theorem le_of_lt (compared : lt a b = true) : le a b = true := by
  cases a with
  | none => cases compared
  | some a =>
    cases b with
    | none => cases compared
    | some b =>
      simp only [le, lt, decide_eq_true_eq] at compared ⊢
      exact compared.le

/-! ### The text of a whole number -/

/-- The double nearest to a whole number, the even one of two as near. -/
def nearest (n : ℕ) : ℕ :=
  let unit := 2 ^ (n.log2 + 1 - 53)
  let left := 2 * (n % unit)
  (if left < unit ∨ (left = unit ∧ n / unit % 2 = 0) then n / unit else n / unit + 1) * unit

/-- The digits before that many zeros that read as this double, the nearer where two do. -/
def digitsAt (n zeros : ℕ) : Option ℕ :=
  let unit := 10 ^ zeros
  let low := n / unit
  let fits := fun digits => decide (digits ≠ 0 ∧ nearest (digits * unit) = n)
  let nearer := 2 * (n % unit) < unit ∨ (2 * (n % unit) = unit ∧ low % 2 = 0)
  if fits low ∧ (nearer ∨ ¬ fits (low + 1)) then some low
  else if fits (low + 1) then some (low + 1) else none

/-- The fewest digits, and the zeros after them. -/
def shortest (n : ℕ) : ℕ × ℕ :=
  (((List.range (n.log2 + 1)).reverse.findSome? fun zeros =>
    (digitsAt n zeros).map fun digits => (digits, zeros))).getD (n, 0)

/-- `String(n)` of a double that is a whole number and not negative. -/
def wholeText (n : ℕ) : List Char :=
  let digits := Nat.toDigits 10 (shortest n).1
  let places := digits.length + (shortest n).2
  if places ≤ 21 then digits ++ List.replicate (shortest n).2 '0'
  else digits.take 1 ++ (if digits.length = 1 then [] else '.' :: digits.drop 1) ++
    'e' :: '+' :: Nat.toDigits 10 (places - 1)

def isNumeral (c : Char) : Bool := c.isDigit || c = '.' || c = 'e' || c = '+'

theorem wholeText_numeral {n : ℕ} {c : Char} (listed : c ∈ wholeText n) : isNumeral c = true := by
  have digit : ∀ {m : ℕ} {d : Char}, d ∈ Nat.toDigits 10 m → isNumeral d = true := fun inside => by
    have isDigit := Nat.isDigit_of_mem_toDigits (by decide) (by decide) inside
    rw [isNumeral, isDigit]
    rfl
  unfold wholeText at listed
  simp only at listed
  split at listed
  · rcases List.mem_append.mp listed with inside | zeros
    · exact digit inside
    · obtain ⟨-, rfl⟩ := List.mem_replicate.mp zeros
      rfl
  · rcases List.mem_append.mp listed with front | exponent
    · rcases List.mem_append.mp front with first | fraction
      · exact digit (List.mem_of_mem_take first)
      · split at fraction
        · cases fraction
        · rcases List.mem_cons.mp fraction with rfl | inside
          · rfl
          · exact digit (List.mem_of_mem_drop inside)
    · rcases List.mem_cons.mp exponent with rfl | exponent
      · rfl
      · rcases List.mem_cons.mp exponent with rfl | inside
        · rfl
        · exact digit inside

example : String.ofList (wholeText 1152921504606846976) = "1152921504606847000" ∧
    String.ofList (wholeText (nearest (123 * 10 ^ 20))) = "1.23e+22" := by decide

end JsNumber

end Nvoy
