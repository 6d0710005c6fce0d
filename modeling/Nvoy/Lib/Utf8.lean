/-
UTF-8 bytes of a text, and text files of lines over them.

* `utf8_append`, `newline_notMem_utf8` — a line without a line break has no 0x0A byte: the one byte
  of a line break occurs in no other character;
* `utf8Decode_utf8` — decoding gives back the text its bytes were made from. Bytes that are no text
  decode to U+FFFD, one for each ill-formed part;
* `utf8DecodeFrom_prefix` — bytes that were cut off decode to a prefix of the text, and U+FFFD.
-/

import Mathlib.Data.List.Basic

namespace Nvoy

/-- `Buffer.from(text)` -/
def utf8 (text : String) : List UInt8 := text.toList.flatMap String.utf8EncodeChar

/-- The byte of a line break. -/
def newline : UInt8 := 0x0a

theorem utf8_append (first second : String) : utf8 (first ++ second) = utf8 first ++ utf8 second := by
  simp [utf8]

@[simp] theorem utf8_newline : utf8 "\n" = [newline] := by decide

/-- The byte of a line break occurs in the encoding of no other character. -/
theorem newline_mem_utf8EncodeChar {c : Char} (member : newline ∈ String.utf8EncodeChar c) :
    c = '\n' := by
  have ascii : c.val.toNat = 10 := by
    have byte : ∀ n, newline = UInt8.ofNat n → n % 256 = 10 := by
      intro n same
      have := congrArg UInt8.toNat same
      simpa [newline] using this.symm
    unfold String.utf8EncodeChar at member
    dsimp only at member
    split_ifs at member
    · have := byte _ (List.mem_singleton.mp member)
      omega
    · simp only [List.mem_cons, List.not_mem_nil, or_false] at member
      rcases member with same | same
      all_goals have := byte _ same; omega
    · simp only [List.mem_cons, List.not_mem_nil, or_false] at member
      rcases member with same | same | same
      all_goals have := byte _ same; omega
    · simp only [List.mem_cons, List.not_mem_nil, or_false] at member
      rcases member with same | same | same | same
      all_goals have := byte _ same; omega
  exact Char.ext (UInt32.toNat_inj.mp ascii)

theorem newline_notMem_utf8 {text : String} (clean : '\n' ∉ text.toList) :
    newline ∉ utf8 text := by
  intro member
  obtain ⟨c, inside, hit⟩ := List.mem_flatMap.mp member
  exact clean (newline_mem_utf8EncodeChar hit ▸ inside)

/-! ### Decoding -/

def replacement : Char := Char.ofNat 0xfffd

/-- What the decoder expects: `needed` more bytes of a character whose leading bits are `point`, the
next of them within the bounds. -/
structure Utf8State where
  needed : Nat
  point : Nat
  lower : Nat
  upper : Nat

def Utf8State.idle : Utf8State := ⟨0, 0, 0x80, 0xbf⟩

/-- The first byte of a character: what it completes at once, and what must follow it. -/
def utf8Lead (b : Nat) : List Char × Utf8State :=
  if b ≤ 0x7f then ([Char.ofNat b], .idle)
  else if 0xc2 ≤ b ∧ b ≤ 0xdf then ([], ⟨1, b - 0xc0, 0x80, 0xbf⟩)
  else if 0xe0 ≤ b ∧ b ≤ 0xef then
    ([], ⟨2, b - 0xe0, if b = 0xe0 then 0xa0 else 0x80, if b = 0xed then 0x9f else 0xbf⟩)
  else if 0xf0 ≤ b ∧ b ≤ 0xf4 then
    ([], ⟨3, b - 0xf0, if b = 0xf0 then 0x90 else 0x80, if b = 0xf4 then 0x8f else 0xbf⟩)
  else ([replacement], .idle)

def utf8DecodeFrom (st : Utf8State) : List UInt8 → List Char
  | [] => if st.needed = 0 then [] else [replacement]
  | b :: rest =>
      if st.needed = 0 then (utf8Lead b.toNat).1 ++ utf8DecodeFrom (utf8Lead b.toNat).2 rest
      else if st.lower ≤ b.toNat ∧ b.toNat ≤ st.upper then
        let point := st.point * 64 + b.toNat % 64
        if st.needed = 1 then Char.ofNat point :: utf8DecodeFrom .idle rest
        else utf8DecodeFrom ⟨st.needed - 1, point, 0x80, 0xbf⟩ rest
      -- the part so far is ill-formed, and this byte is read again as a first byte
      else replacement :: ((utf8Lead b.toNat).1 ++ utf8DecodeFrom (utf8Lead b.toNat).2 rest)

/-- `buffer.toString('utf8')` -/
def utf8Decode (bytes : List UInt8) : String := String.ofList (utf8DecodeFrom .idle bytes)

section Steps

variable {n point lower upper : Nat} {rest : List UInt8}

theorem toNat_ofNat_byte (small : n < 256) : (UInt8.ofNat n).toNat = n := by
  rw [UInt8.toNat_ofNat']
  omega

theorem utf8DecodeFrom_idle (small : n < 256) :
    utf8DecodeFrom .idle (UInt8.ofNat n :: rest) =
      (utf8Lead n).1 ++ utf8DecodeFrom (utf8Lead n).2 rest := by
  rw [utf8DecodeFrom, if_pos (show Utf8State.idle.needed = 0 from rfl), toNat_ofNat_byte small]

theorem utf8DecodeFrom_last (small : n < 256) (above : lower ≤ n) (below : n ≤ upper) :
    utf8DecodeFrom ⟨1, point, lower, upper⟩ (UInt8.ofNat n :: rest) =
      Char.ofNat (point * 64 + n % 64) :: utf8DecodeFrom .idle rest := by
  rw [utf8DecodeFrom, if_neg Nat.one_ne_zero, toNat_ofNat_byte small, if_pos ⟨above, below⟩]
  exact if_pos rfl

theorem utf8DecodeFrom_more {needed : Nat} (small : n < 256) (above : lower ≤ n)
    (below : n ≤ upper) :
    utf8DecodeFrom ⟨needed + 2, point, lower, upper⟩ (UInt8.ofNat n :: rest) =
      utf8DecodeFrom ⟨needed + 1, point * 64 + n % 64, 0x80, 0xbf⟩ rest := by
  rw [utf8DecodeFrom, if_neg (Nat.succ_ne_zero _), toNat_ofNat_byte small, if_pos ⟨above, below⟩]
  exact if_neg (by simp)

/-! The first byte of a character of two, three and four bytes. -/

theorem utf8Lead_two (one : ¬n ≤ 0x7f) (two : n ≤ 0x7ff) :
    utf8Lead (n / 64 % 32 + 192) = ([], ⟨1, n / 64 % 32, 0x80, 0xbf⟩) := by
  rw [utf8Lead, if_neg (by omega), if_pos (by omega), Nat.add_sub_cancel]

theorem utf8Lead_three (two : ¬n ≤ 0x7ff) (three : n ≤ 0xffff) (valid : n < 0xd800 ∨ 0xdfff < n) :
    ∃ lower upper, utf8Lead (n / 4096 % 16 + 224) = ([], ⟨2, n / 4096 % 16, lower, upper⟩) ∧
      lower ≤ n / 64 % 64 + 128 ∧ n / 64 % 64 + 128 ≤ upper := by
  rw [utf8Lead, if_neg (by omega), if_neg (by omega), if_pos (by omega), Nat.add_sub_cancel]
  exact ⟨_, _, rfl, by split_ifs <;> omega, by split_ifs <;> omega⟩

theorem utf8Lead_four (three : ¬n ≤ 0xffff) (valid : n < 0x110000) :
    ∃ lower upper, utf8Lead (n / 262144 % 8 + 240) = ([], ⟨3, n / 262144 % 8, lower, upper⟩) ∧
      lower ≤ n / 4096 % 64 + 128 ∧ n / 4096 % 64 + 128 ≤ upper := by
  rw [utf8Lead, if_neg (by omega), if_neg (by omega), if_neg (by omega), if_pos (by omega),
    Nat.add_sub_cancel]
  exact ⟨_, _, rfl, by split_ifs <;> omega, by split_ifs <;> omega⟩

theorem utf8DecodeFrom_short {needed : Nat} :
    utf8DecodeFrom ⟨needed + 1, point, lower, upper⟩ [] = [replacement] := by
  rw [utf8DecodeFrom, if_neg (Nat.succ_ne_zero _)]

end Steps

/-- A character is read back from its own bytes. -/
theorem utf8DecodeFrom_utf8EncodeChar (c : Char) (rest : List UInt8) :
    utf8DecodeFrom .idle (String.utf8EncodeChar c ++ rest) = c :: utf8DecodeFrom .idle rest := by
  have whole : ∀ n, n = c.val.toNat → Char.ofNat n = c := fun n same => by
    rw [same]
    exact Char.ofNat_toNat c
  have valid : c.val.toNat < 0xd800 ∨ (0xdfff < c.val.toNat ∧ c.val.toNat < 0x110000) := c.valid
  unfold String.utf8EncodeChar
  dsimp only
  split_ifs with one two three
  · rw [List.singleton_append, utf8DecodeFrom_idle (by omega), utf8Lead, if_pos one, whole _ rfl]
    rfl
  · rw [List.cons_append, List.singleton_append, utf8DecodeFrom_idle (by omega), utf8Lead_two one two,
      List.nil_append, utf8DecodeFrom_last (by omega) (by omega) (by omega), whole _ (by omega)]
  · obtain ⟨lower, upper, lead, above, below⟩ := utf8Lead_three two three (by omega)
    rw [List.cons_append, List.cons_append, List.singleton_append, utf8DecodeFrom_idle (by omega),
      lead, List.nil_append, utf8DecodeFrom_more (by omega) above below,
      utf8DecodeFrom_last (by omega) (by omega) (by omega), whole _ (by omega)]
  · obtain ⟨lower, upper, lead, above, below⟩ := utf8Lead_four three (by omega)
    rw [List.cons_append, List.cons_append, List.cons_append, List.singleton_append,
      utf8DecodeFrom_idle (by omega), lead, List.nil_append,
      utf8DecodeFrom_more (by omega) above below,
      utf8DecodeFrom_more (by omega) (by omega) (by omega),
      utf8DecodeFrom_last (by omega) (by omega) (by omega), whole _ (by omega)]

/-- Whole characters are read back, whatever follows them. -/
theorem utf8DecodeFrom_flatMap (chars : List Char) (rest : List UInt8) :
    utf8DecodeFrom .idle (chars.flatMap String.utf8EncodeChar ++ rest) =
      chars ++ utf8DecodeFrom .idle rest := by
  induction chars with
  | nil => rfl
  | cons c chars ih =>
    rw [List.flatMap_cons, List.append_assoc, utf8DecodeFrom_utf8EncodeChar, ih, List.cons_append]

/-- Decoding gives back the text. -/
@[simp] theorem utf8Decode_utf8 (text : String) : utf8Decode (utf8 text) = text := by
  have chars := utf8DecodeFrom_flatMap text.toList []
  rw [List.append_nil] at chars
  rw [utf8Decode, utf8, chars]
  exact (congrArg String.ofList (List.append_nil _)).trans String.ofList_toList

/-! ### Cut bytes -/

/-- The bytes of a character that are not all there decode to U+FFFD. -/
theorem utf8DecodeFrom_torn {c : Char} {front back : List UInt8}
    (split : String.utf8EncodeChar c = front ++ back) (begun : front ≠ []) (torn : back ≠ []) :
    utf8DecodeFrom .idle front = [replacement] := by
  obtain ⟨first, front, rfl⟩ := List.exists_cons_of_ne_nil begun
  obtain ⟨last, back, rfl⟩ := List.exists_cons_of_ne_nil torn
  have valid : c.val.toNat < 0xd800 ∨ (0xdfff < c.val.toNat ∧ c.val.toNat < 0x110000) := c.valid
  unfold String.utf8EncodeChar at split
  dsimp only at split
  split_ifs at split with one two three
  · have := congrArg List.length split
    simp at this
  · obtain ⟨rfl, after⟩ := List.cons.inj split
    rcases front with _ | ⟨second, front⟩
    · rw [utf8DecodeFrom_idle (by omega), utf8Lead_two one two, List.nil_append,
        utf8DecodeFrom_short]
    · have := congrArg List.length after
      simp at this
  · obtain ⟨lower, upper, lead, above, below⟩ := utf8Lead_three two three (by omega)
    obtain ⟨rfl, after⟩ := List.cons.inj split
    rw [utf8DecodeFrom_idle (by omega), lead, List.nil_append]
    rcases front with _ | ⟨second, _ | ⟨third, front⟩⟩
    · rw [utf8DecodeFrom_short]
    · obtain ⟨rfl, -⟩ := List.cons.inj after
      rw [utf8DecodeFrom_more (by omega) above below, utf8DecodeFrom_short]
    · have := congrArg List.length after
      simp at this
  · obtain ⟨lower, upper, lead, above, below⟩ := utf8Lead_four three (by omega)
    obtain ⟨rfl, after⟩ := List.cons.inj split
    rw [utf8DecodeFrom_idle (by omega), lead, List.nil_append]
    rcases front with _ | ⟨second, _ | ⟨third, _ | ⟨fourth, front⟩⟩⟩
    · rw [utf8DecodeFrom_short]
    · obtain ⟨rfl, -⟩ := List.cons.inj after
      rw [utf8DecodeFrom_more (by omega) above below, utf8DecodeFrom_short]
    · obtain ⟨rfl, after'⟩ := List.cons.inj after
      obtain ⟨rfl, -⟩ := List.cons.inj after'
      rw [utf8DecodeFrom_more (by omega) above below,
        utf8DecodeFrom_more (by omega) (by omega) (by omega), utf8DecodeFrom_short]
    · have := congrArg List.length after
      simp at this

/-- **A strict prefix of a text's bytes** decodes to a strict prefix of the text, and U+FFFD where a
character is not all there. -/
theorem utf8DecodeFrom_prefix {chars : List Char} {bytes : List UInt8}
    (isPrefix : bytes <+: chars.flatMap String.utf8EncodeChar)
    (torn : bytes ≠ chars.flatMap String.utf8EncodeChar) :
    ∃ front tail, utf8DecodeFrom .idle bytes = front ++ tail ∧ front <+: chars ∧ front ≠ chars ∧
      ∀ c ∈ tail, c = replacement := by
  induction chars generalizing bytes with
  | nil => exact absurd (List.prefix_nil.mp isPrefix) torn
  | cons c chars ih =>
    rw [List.flatMap_cons] at isPrefix torn
    by_cases whole : String.utf8EncodeChar c <+: bytes
    · obtain ⟨rest, rfl⟩ := whole
      obtain ⟨front, tail, decoded, inside, short, cut⟩ :=
        ih ((List.prefix_append_right_inj _).mp isPrefix) fun same => torn (by rw [same])
      refine ⟨c :: front, tail, ?_, List.cons_prefix_cons.mpr ⟨rfl, inside⟩, ?_, cut⟩
      · rw [utf8DecodeFrom_utf8EncodeChar, decoded, List.cons_append]
      · exact fun same => short (List.cons.inj same).2
    · obtain ⟨back, split⟩ : bytes <+: String.utf8EncodeChar c :=
        (List.prefix_or_prefix_of_prefix isPrefix (List.prefix_append _ _)).resolve_right whole
      have missing : back ≠ [] := by
        rintro rfl
        rw [List.append_nil] at split
        exact whole (split ▸ List.prefix_refl _)
      by_cases begun : bytes = []
      · exact ⟨[], [], by rw [begun]; rfl, List.nil_prefix, (List.cons_ne_nil _ _).symm,
          fun c' member => absurd member List.not_mem_nil⟩
      · exact ⟨[], [replacement], utf8DecodeFrom_torn split.symm begun missing, List.nil_prefix,
          (List.cons_ne_nil _ _).symm, fun c' => List.mem_singleton.mp⟩

/-! ### Decoding in pieces -/

/-- What one byte completes, and the state after it. -/
def utf8Step (st : Utf8State) (b : UInt8) : List Char × Utf8State :=
  if st.needed = 0 then utf8Lead b.toNat
  else if st.lower ≤ b.toNat ∧ b.toNat ≤ st.upper then
    let point := st.point * 64 + b.toNat % 64
    if st.needed = 1 then ([Char.ofNat point], .idle) else ([], ⟨st.needed - 1, point, 0x80, 0xbf⟩)
  else (replacement :: (utf8Lead b.toNat).1, (utf8Lead b.toNat).2)

/-- `StringDecoder.write`: what the bytes complete, and what is held back of a character that goes
on. -/
def utf8Run (st : Utf8State) : List UInt8 → List Char × Utf8State
  | [] => ([], st)
  | b :: rest =>
      ((utf8Step st b).1 ++ (utf8Run (utf8Step st b).2 rest).1, (utf8Run (utf8Step st b).2 rest).2)

theorem utf8Run_append (st : Utf8State) (front back : List UInt8) :
    utf8Run st (front ++ back) =
      ((utf8Run st front).1 ++ (utf8Run (utf8Run st front).2 back).1,
        (utf8Run (utf8Run st front).2 back).2) := by
  induction front generalizing st with
  | nil => rfl
  | cons b front ih => rw [List.cons_append, utf8Run, ih, utf8Run, List.append_assoc]

/-- Decoding at once: what the pieces complete, and U+FFFD for what is left. -/
theorem utf8DecodeFrom_eq (st : Utf8State) (bytes : List UInt8) :
    utf8DecodeFrom st bytes = (utf8Run st bytes).1 ++
      (if (utf8Run st bytes).2.needed = 0 then [] else [replacement]) := by
  induction bytes generalizing st with
  | nil => rfl
  | cons b rest ih =>
      rw [utf8DecodeFrom, utf8Run, utf8Step]
      by_cases fresh : st.needed = 0
      · simp only [if_pos fresh]
        rw [ih, List.append_assoc]
      · simp only [if_neg fresh]
        by_cases inside : st.lower ≤ b.toNat ∧ b.toNat ≤ st.upper
        · simp only [if_pos inside]
          by_cases last : st.needed = 1
          · simp only [if_pos last]
            rw [ih]
            rfl
          · simp only [if_neg last]
            rw [ih]
            rfl
        · simp only [if_neg inside]
          rw [ih, List.cons_append, List.cons_append, List.append_assoc]

section Pieces

variable {n point lower upper : Nat} {rest : List UInt8}

theorem utf8Run_idle (small : n < 256) :
    utf8Run .idle (UInt8.ofNat n :: rest) =
      ((utf8Lead n).1 ++ (utf8Run (utf8Lead n).2 rest).1, (utf8Run (utf8Lead n).2 rest).2) := by
  rw [utf8Run, utf8Step, if_pos (show Utf8State.idle.needed = 0 from rfl), toNat_ofNat_byte small]

theorem utf8Run_last (small : n < 256) (above : lower ≤ n) (below : n ≤ upper) :
    utf8Run ⟨1, point, lower, upper⟩ [UInt8.ofNat n] =
      ([Char.ofNat (point * 64 + n % 64)], .idle) := by
  rw [utf8Run, utf8Step, if_neg Nat.one_ne_zero, toNat_ofNat_byte small, if_pos ⟨above, below⟩]
  rfl

theorem utf8Run_more {needed : Nat} (small : n < 256) (above : lower ≤ n) (below : n ≤ upper) :
    utf8Run ⟨needed + 2, point, lower, upper⟩ (UInt8.ofNat n :: rest) =
      utf8Run ⟨needed + 1, point * 64 + n % 64, 0x80, 0xbf⟩ rest := by
  rw [utf8Run, utf8Step, if_neg (Nat.succ_ne_zero _), toNat_ofNat_byte small,
    if_pos ⟨above, below⟩]
  dsimp only
  rw [if_neg (show ¬needed + 2 = 1 by omega)]
  rfl

end Pieces

/-- A character's bytes complete it and leave nothing. -/
theorem utf8Run_utf8EncodeChar (c : Char) :
    utf8Run .idle (String.utf8EncodeChar c) = ([c], .idle) := by
  have whole : ∀ n, n = c.val.toNat → Char.ofNat n = c := fun n same => by
    rw [same]
    exact Char.ofNat_toNat c
  have valid : c.val.toNat < 0xd800 ∨ (0xdfff < c.val.toNat ∧ c.val.toNat < 0x110000) := c.valid
  unfold String.utf8EncodeChar
  dsimp only
  split_ifs with one two three
  · rw [utf8Run_idle (by omega), utf8Lead, if_pos one, whole _ rfl]
    rfl
  · rw [utf8Run_idle (by omega), utf8Lead_two one two,
      utf8Run_last (by omega) (by omega) (by omega), whole _ (by omega)]
    rfl
  · obtain ⟨lower, upper, lead, above, below⟩ := utf8Lead_three two three (by omega)
    rw [utf8Run_idle (by omega), lead, utf8Run_more (by omega) above below,
      utf8Run_last (by omega) (by omega) (by omega), whole _ (by omega)]
    rfl
  · obtain ⟨lower, upper, lead, above, below⟩ := utf8Lead_four three (by omega)
    rw [utf8Run_idle (by omega), lead, utf8Run_more (by omega) above below,
      utf8Run_more (by omega) (by omega) (by omega),
      utf8Run_last (by omega) (by omega) (by omega), whole _ (by omega)]
    rfl

/-- The bytes of a text complete it and leave nothing. -/
theorem utf8Run_utf8 (text : String) : utf8Run .idle (utf8 text) = (text.toList, .idle) := by
  unfold utf8
  induction text.toList with
  | nil => rfl
  | cons c chars ih =>
      rw [List.flatMap_cons, utf8Run_append, utf8Run_utf8EncodeChar, ih]
      rfl

/-- The bytes of a character that are not all there complete nothing. -/
theorem utf8Run_torn {c : Char} {front back : List UInt8}
    (split : String.utf8EncodeChar c = front ++ back) (torn : back ≠ []) :
    (utf8Run .idle front).1 = [] := by
  rcases front with _ | ⟨first, front⟩
  · rfl
  obtain ⟨last, back, rfl⟩ := List.exists_cons_of_ne_nil torn
  have valid : c.val.toNat < 0xd800 ∨ (0xdfff < c.val.toNat ∧ c.val.toNat < 0x110000) := c.valid
  unfold String.utf8EncodeChar at split
  dsimp only at split
  split_ifs at split with one two three
  · have := congrArg List.length split
    simp at this
  · obtain ⟨rfl, after⟩ := List.cons.inj split
    rcases front with _ | ⟨second, front⟩
    · rw [utf8Run_idle (by omega), utf8Lead_two one two]
      rfl
    · have := congrArg List.length after
      simp at this
  · obtain ⟨lower, upper, lead, above, below⟩ := utf8Lead_three two three (by omega)
    obtain ⟨rfl, after⟩ := List.cons.inj split
    rw [utf8Run_idle (by omega), lead, List.nil_append]
    rcases front with _ | ⟨second, _ | ⟨third, front⟩⟩
    · rfl
    · obtain ⟨rfl, -⟩ := List.cons.inj after
      rw [utf8Run_more (by omega) above below]
      rfl
    · have := congrArg List.length after
      simp at this
  · obtain ⟨lower, upper, lead, above, below⟩ := utf8Lead_four three (by omega)
    obtain ⟨rfl, after⟩ := List.cons.inj split
    rw [utf8Run_idle (by omega), lead, List.nil_append]
    rcases front with _ | ⟨second, _ | ⟨third, _ | ⟨fourth, front⟩⟩⟩
    · rfl
    · obtain ⟨rfl, -⟩ := List.cons.inj after
      rw [utf8Run_more (by omega) above below]
      rfl
    · obtain ⟨rfl, after'⟩ := List.cons.inj after
      obtain ⟨rfl, -⟩ := List.cons.inj after'
      rw [utf8Run_more (by omega) above below, utf8Run_more (by omega) (by omega) (by omega)]
      rfl
    · have := congrArg List.length after
      simp at this

/-- **Cut bytes of a text** are whole characters, and a part of the next that completes nothing. -/
theorem exists_whole {chars : List Char} {bytes : List UInt8}
    (isPrefix : bytes <+: chars.flatMap String.utf8EncodeChar) :
    ∃ (front : List Char) (torn : List UInt8), bytes = front.flatMap String.utf8EncodeChar ++ torn ∧
      (utf8Run .idle torn).1 = [] ∧ newline ∉ torn := by
  induction chars generalizing bytes with
  | nil =>
    obtain rfl := List.prefix_nil.mp isPrefix
    exact ⟨[], [], rfl, rfl, List.not_mem_nil⟩
  | cons c chars ih =>
    rw [List.flatMap_cons] at isPrefix
    by_cases whole : String.utf8EncodeChar c <+: bytes
    · obtain ⟨rest, rfl⟩ := whole
      obtain ⟨front, torn, rfl, nothing, clean⟩ := ih ((List.prefix_append_right_inj _).mp isPrefix)
      exact ⟨c :: front, torn, by rw [List.flatMap_cons, List.append_assoc], nothing, clean⟩
    · obtain ⟨back, split⟩ : bytes <+: String.utf8EncodeChar c :=
        (List.prefix_or_prefix_of_prefix isPrefix (List.prefix_append _ _)).resolve_right whole
      have missing : back ≠ [] := by
        rintro rfl
        rw [List.append_nil] at split
        exact whole (split ▸ List.prefix_refl _)
      refine ⟨[], bytes, rfl, utf8Run_torn split.symm missing, fun member => ?_⟩
      have broken := newline_mem_utf8EncodeChar (split ▸ List.mem_append_left _ member)
      rw [broken, show String.utf8EncodeChar '\n' = [newline] from rfl] at split
      have size := congrArg List.length split
      have := List.length_pos_of_mem member
      have := List.length_pos_of_ne_nil missing
      rw [List.length_append, List.length_singleton] at size
      omega

end Nvoy
