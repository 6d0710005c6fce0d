/-
**The estate's hash, in two languages.** `estateHash` of `instance_apply.mjs` and the second part of the
runner's `attempt`, which is `json.dumps` with sorted keys.

* `estateHash`, `digestsHash` — the two, each with its own sorting and its own string literals;
* `estateHash_eq` — they are equal on the same files, in whatever order each language lists them;
* `objectText_inj` — the text names every manifest and its digest.
-/

import Nvoy.Identity.Allocation
import Nvoy.Lib.Lines
import Nvoy.Lib.StableSort
import Nvoy.Nostr.Event

namespace Nvoy.Deploy

open Identity (isId)

/-- The files of a directory, in the order it lists them. -/
abbrev Directory := List (String × String)

def Directory.contents (dir : Directory) (name : String) : String :=
  ((dir.find? (·.1 = name)).map Prod.snd).getD ""

def isJsonName (name : String) : Bool := ".json".toList.isSuffixOf name.toList

/-! ### The two texts -/

/-- The text of an object, for the string literals of a language. -/
def objectText (quote : String → List Char) (items : List (String × String)) : List Char :=
  '{' :: ([',', ' '].intercalate (items.map fun item => quote item.1 ++ ':' :: ' ' :: quote item.2) ++ ['}'])

/-- The UTF-16 code units. -/
def utf16 (text : String) : List Nat :=
  text.toList.flatMap fun c =>
    if c.toNat < 0x10000 then [c.toNat]
    else [0xd800 + (c.toNat - 0x10000) / 0x400, 0xdc00 + (c.toNat - 0x10000) % 0x400]

/-- `names.sort()` -/
def jsSort (names : List String) : List String := names.insertionSort fun a b => utf16 a ≤ utf16 b

/-- `f.slice(0, -5)` -/
def sliceJson (name : String) : String := String.ofList (name.toList.take (name.toList.length - 5))

def estateHash (sha256 : String → String) (dir : Directory) : String :=
  let names := jsSort (((dir.map Prod.fst).filter isJsonName).map sliceJson)
  sha256 (String.ofList (objectText Json.renderString
    (names.map fun k => (k, sha256 (dir.contents (k ++ ".json"))))))

/-- `\uXXXX` -/
def escapeUnit (unit : Nat) : List Char :=
  ['\\', 'u', Json.hexDigit (unit / 4096), Json.hexDigit (unit / 256 % 16), Json.hexDigit (unit / 16 % 16),
    Json.hexDigit (unit % 16)]

/-- A character as `json.dumps` writes it: nothing but ASCII. -/
def pyEscapeChar (c : Char) : List Char :=
  if c = '"' then ['\\', '"']
  else if c = '\\' then ['\\', '\\']
  else if 0x20 ≤ c.toNat ∧ c.toNat ≤ 0x7e then [c]
  else if c = '\n' then ['\\', 'n']
  else if c = '\r' then ['\\', 'r']
  else if c = '\t' then ['\\', 't']
  else if c.toNat = 8 then ['\\', 'b']
  else if c.toNat = 12 then ['\\', 'f']
  else (utf16 (String.singleton c)).flatMap escapeUnit

def pyString (text : String) : List Char := '"' :: (text.toList.flatMap pyEscapeChar ++ ['"'])

def codePoints (text : String) : List Nat := text.toList.map Char.toNat

/-- `json.dumps(digests, sort_keys=True)` -/
def jsonDumps (digests : List (String × String)) : List Char :=
  objectText pyString (digests.insertionSort fun a b => codePoints a.1 ≤ codePoints b.1)

/-- `path.stem` -/
def stem (name : String) : String :=
  let chars := name.toList
  let ext := chars.rtakeWhile (· ≠ '.')
  if ext.length + 1 < chars.length ∧ ext ≠ [] then String.ofList (chars.take (chars.length - (ext.length + 1))) else name

/-- `manifest_digests()` -/
def manifestDigests (sha256 : String → String) (dir : Directory) : List (String × String) :=
  let paths := ((dir.map Prod.fst).filter isJsonName).insertionSort fun a b => codePoints a ≤ codePoints b
  paths.map fun name => (stem name, sha256 (dir.contents name))

/-- `hashlib.sha256(json.dumps(digests, sort_keys=True).encode()).hexdigest()` -/
def digestsHash (sha256 : String → String) (digests : List (String × String)) : String :=
  sha256 (String.ofList (jsonDumps digests))

/-! ### Texts without anything to escape -/

/-- A character of both languages' literals that stands for itself. -/
def Plain (c : Char) : Prop := 0x20 ≤ c.toNat ∧ c.toNat ≤ 0x7e ∧ c ≠ '"' ∧ c ≠ '\\'

def PlainText (text : String) : Prop := ∀ c ∈ text.toList, Plain c

section PlainTexts

variable {c : Char} {text : String}

theorem plain_of_alphanum (letter : c.isAlphanum = true) : Plain c := by
  have range : 48 ≤ c.toNat ∧ c.toNat ≤ 122 ∧ c.toNat ≠ 92 := by
    unfold Char.isAlphanum Char.isAlpha Char.isUpper Char.isLower Char.isDigit at letter
    simp only [ge_iff_le, Bool.or_eq_true, Bool.and_eq_true, decide_eq_true_eq, UInt32.le_iff_toNat_le] at letter
    have : '0'.val.toNat = 48 := rfl
    have : '9'.val.toNat = 57 := rfl
    have : 'A'.val.toNat = 65 := rfl
    have : 'Z'.val.toNat = 90 := rfl
    have : 'a'.val.toNat = 97 := rfl
    have : 'z'.val.toNat = 122 := rfl
    have : c.toNat = c.val.toNat := rfl
    omega
  refine ⟨by omega, by omega, ?_, ?_⟩
  · rintro rfl
    exact absurd range.1 (by decide)
  · rintro rfl
    exact range.2.2 rfl

theorem plain_of_isLowerHex (hex : isLowerHex c = true) : Plain c := by
  refine plain_of_alphanum ?_
  unfold isLowerHex at hex
  unfold Char.isAlphanum Char.isAlpha Char.isLower
  rcases Bool.or_eq_true_iff.mp hex with digit | letter
  · simp [digit]
  · simp only [Bool.and_eq_true, decide_eq_true_eq] at letter
    have last : c ≤ 'z' := letter.2.trans (by decide)
    simp only [Bool.or_eq_true, Bool.and_eq_true, decide_eq_true_eq]
    exact .inl (.inr ⟨letter.1, last⟩)

theorem plain_of_isId (id : isId text = true) : PlainText text := by
  intro c member
  unfold isId at id
  split at id
  · cases id
  next first rest same =>
    simp only [Bool.and_eq_true, List.all_eq_true, Bool.or_eq_true, decide_eq_true_eq] at id
    rw [same] at member
    rcases List.mem_cons.mp member with rfl | later
    · exact plain_of_alphanum id.1.1.1
    · rcases id.2 c later with ((letter | rfl) | rfl) | rfl
      · exact plain_of_alphanum letter
      · exact ⟨by decide, by decide, by decide, by decide⟩
      · exact ⟨by decide, by decide, by decide, by decide⟩
      · exact ⟨by decide, by decide, by decide, by decide⟩

theorem pyEscapeChar_plain (plain : Plain c) : pyEscapeChar c = [c] := by
  unfold pyEscapeChar
  rw [if_neg plain.2.2.1, if_neg plain.2.2.2, if_pos ⟨plain.1, plain.2.1⟩]

theorem escapeChar_plain (plain : Plain c) : Json.escapeChar c = [c] := by
  obtain ⟨low, high, quote, back⟩ := plain
  have special : ∀ d : Char, d.toNat < 0x20 → c ≠ d := by
    rintro d small rfl
    omega
  unfold Json.escapeChar
  rw [if_neg quote, if_neg back, if_neg (special _ (by decide)), if_neg (special _ (by decide)), if_neg (special _ (by decide)),
    if_neg (by omega), if_neg (by omega), if_neg (by omega)]

/-- A text between quotes. -/
def quoted (text : String) : List Char := '"' :: (text.toList ++ ['"'])

theorem flatMap_plain {escape : Char → List Char} {chars : List Char} (itself : ∀ c ∈ chars, escape c = [c]) :
    chars.flatMap escape = chars := by
  induction chars with
  | nil => rfl
  | cons c chars ih =>
    rw [List.flatMap_cons, itself c List.mem_cons_self, ih fun d member => itself d (List.mem_cons_of_mem _ member)]
    rfl

theorem renderString_plain (plain : PlainText text) : Json.renderString text = quoted text := by
  unfold Json.renderString quoted
  rw [flatMap_plain fun c member => escapeChar_plain (plain c member)]

theorem pyString_plain (plain : PlainText text) : pyString text = quoted text := by
  unfold pyString quoted
  rw [flatMap_plain fun c member => pyEscapeChar_plain (plain c member)]

theorem utf16_plain (plain : PlainText text) : utf16 text = codePoints text := by
  unfold utf16 codePoints
  rw [← List.flatMap_singleton' (text.toList.map Char.toNat), List.flatMap_map]
  refine List.flatMap_congr fun c member => ?_
  rw [if_pos (by have := (plain c member).2.1; omega)]

theorem codePoints_inj {text text' : String} (same : codePoints text = codePoints text') : text = text' := by
  have injective : Function.Injective Char.toNat := fun c d same => Char.ext (UInt32.toNat_inj.mp same)
  exact String.toList_inj.mp (List.map_injective_iff.mpr injective same)

/-- Both literals of a plain object. -/
theorem objectText_plain {quote : String → List Char} {items : List (String × String)}
    (plain : ∀ item ∈ items, quote item.1 = quoted item.1 ∧ quote item.2 = quoted item.2) :
    objectText quote items = objectText quoted items := by
  unfold objectText
  rw [List.map_congr_left fun item member => by rw [(plain item member).1, (plain item member).2]]

end PlainTexts

/-! ### The same files -/

section Files

variable {sha256 : String → String} {dir dir' : Directory}

/-- A directory as the installer and the runner leave it: what ends like a manifest is one, under a valid id. -/
structure Named (dir : Directory) : Prop where
  distinct : (dir.map Prod.fst).Nodup
  valid : ∀ file ∈ dir, isJsonName file.1 = true → ∃ id, isId id = true ∧ file.1 = id ++ ".json"

/-- Every manifest with the digest of its file. -/
def manifestItems (sha256 : String → String) (dir : Directory) : List (String × String) :=
  (dir.filter fun file => isJsonName file.1).map fun file => (sliceJson file.1, sha256 file.2)

theorem sliceJson_append (id : String) : sliceJson (id ++ ".json") = id := by
  unfold sliceJson
  rw [String.toList_append, List.length_append, show ".json".toList.length = 5 from rfl, Nat.add_sub_cancel,
    List.take_left, String.ofList_toList]

theorem stem_append {id : String} (valid : isId id = true) : stem (id ++ ".json") = id := by
  have filled : id.toList ≠ [] := by
    intro none
    unfold isId at valid
    rw [none] at valid
    cases valid
  have ext : (id ++ ".json").toList.rtakeWhile (· ≠ '.') = "json".toList := by
    rw [String.toList_append]
    unfold List.rtakeWhile
    rw [List.reverse_append]
    rfl
  have some : 0 < id.toList.length := List.length_pos_iff.mpr filled
  unfold stem
  dsimp only
  rw [ext, if_pos ⟨by rw [String.toList_append, List.length_append]; simp; omega, by decide⟩, String.toList_append, List.length_append,
    show ".json".toList.length = "json".toList.length + 1 from rfl, Nat.add_sub_cancel, List.take_left, String.ofList_toList]

theorem Named.perm (named : Named dir) (same : dir.Perm dir') : Named dir' :=
  ⟨(same.map Prod.fst).nodup_iff.mp named.distinct, fun file member => named.valid file (same.mem_iff.mpr member)⟩

theorem Named.contents (named : Named dir) {file : String × String} (member : file ∈ dir) :
    dir.contents file.1 = file.2 := by
  unfold Directory.contents
  have found : dir.find? (·.1 = file.1) = some file := by
    cases first : dir.find? (·.1 = file.1) with
    | none => exact absurd (List.find?_eq_none.mp first file member) (by simp)
    | some other =>
      have there := List.mem_of_find?_eq_some first
      have named' : other.1 = file.1 := by simpa using List.find?_some first
      rw [List.inj_on_of_nodup_map named.distinct there member named']
  rw [found]
  rfl

theorem Named.item (named : Named dir) {file : String × String} (member : file ∈ dir) (json : isJsonName file.1 = true) :
    isId (sliceJson file.1) = true ∧ sliceJson file.1 ++ ".json" = file.1 ∧ stem file.1 = sliceJson file.1 := by
  obtain ⟨id, valid, same⟩ := named.valid file member json
  rw [same, sliceJson_append]
  exact ⟨valid, rfl, stem_append valid⟩

theorem names_eq (dir : Directory) : (dir.map Prod.fst).filter isJsonName =
    (dir.filter fun file => isJsonName file.1).map Prod.fst := by
  rw [List.filter_map]
  rfl

theorem Named.ids_nodup (named : Named dir) : ((manifestItems sha256 dir).map Prod.fst).Nodup := by
  unfold manifestItems
  rw [List.map_map]
  refine List.Nodup.map_on ?_ (List.Nodup.filter _ (List.Nodup.of_map _ named.distinct))
  intro file member file' member' same
  obtain ⟨there, json⟩ := List.mem_filter.mp member
  obtain ⟨there', json'⟩ := List.mem_filter.mp member'
  refine List.inj_on_of_nodup_map named.distinct there there' ?_
  rw [← (named.item there json).2.1, ← (named.item there' json').2.1]
  exact congrArg (· ++ ".json") same

theorem Named.valid_items (named : Named dir) : ∀ item ∈ manifestItems sha256 dir, isId item.1 = true := by
  intro item member
  obtain ⟨file, kept, rfl⟩ := List.mem_map.mp member
  obtain ⟨there, json⟩ := List.mem_filter.mp kept
  exact (named.item there json).1

/-- Sorted by name. -/
def Sorted (items : List (String × String)) : Prop := items.Pairwise fun a b => codePoints a.1 < codePoints b.1

theorem eq_of_sorted {items items' : List (String × String)} (sorted : Sorted items) (sorted' : Sorted items')
    (same : items'.Perm items) : items' = items :=
  StableSort.eq_of_perm sorted sorted' (fun _ _ _ _ before after => absurd (before.trans after) (lt_irrefl _)) same

/-- What the installer hashes: the manifests by name. -/
theorem Named.js_items (sha256 : String → String) (named : Named dir) :
    Sorted ((jsSort (((dir.map Prod.fst).filter isJsonName).map sliceJson)).map fun k => (k, sha256 (dir.contents (k ++ ".json")))) ∧
      ((jsSort (((dir.map Prod.fst).filter isJsonName).map sliceJson)).map fun k =>
        (k, sha256 (dir.contents (k ++ ".json")))).Perm (manifestItems sha256 dir) := by
  have keys : ((dir.map Prod.fst).filter isJsonName).map sliceJson = (manifestItems sha256 dir).map Prod.fst := by
    rw [names_eq, List.map_map]
    unfold manifestItems
    rw [List.map_map]
    rfl
  have plain : ∀ k ∈ (manifestItems sha256 dir).map Prod.fst, PlainText k := by
    intro k member
    obtain ⟨item, there, rfl⟩ := List.mem_map.mp member
    exact plain_of_isId (named.valid_items item there)
  have perm : (jsSort ((manifestItems sha256 dir).map Prod.fst)).Perm ((manifestItems sha256 dir).map Prod.fst) :=
    List.perm_insertionSort _ _
  rw [keys]
  constructor
  · have distinct : (((manifestItems sha256 dir).map Prod.fst).map utf16).Nodup := by
      refine List.Nodup.map_on (fun k member k' member' same => ?_) named.ids_nodup
      rw [utf16_plain (plain k member), utf16_plain (plain k' member')] at same
      exact codePoints_inj same
    have sorted := StableSort.pairwise_insertionSort_lt distinct
    refine List.pairwise_map.mpr (sorted.imp_of_mem fun {k k'} member member' before => ?_)
    rwa [utf16_plain (plain k (perm.mem_iff.mp member)), utf16_plain (plain k' (perm.mem_iff.mp member'))] at before
  · refine (perm.map _).trans ?_
    rw [List.map_map]
    refine List.Perm.of_eq ?_
    conv_rhs => rw [← List.map_id (manifestItems sha256 dir)]
    refine List.map_congr_left fun item member => ?_
    obtain ⟨file, kept, rfl⟩ := List.mem_map.mp member
    obtain ⟨there, json⟩ := List.mem_filter.mp kept
    show (sliceJson file.1, sha256 (dir.contents (sliceJson file.1 ++ ".json"))) = _
    rw [(named.item there json).2.1, named.contents there]
    rfl

/-- What the runner hashes: the same. -/
theorem Named.py_items (sha256 : String → String) (named : Named dir) :
    Sorted ((manifestDigests sha256 dir).insertionSort fun a b => codePoints a.1 ≤ codePoints b.1) ∧
      ((manifestDigests sha256 dir).insertionSort fun a b => codePoints a.1 ≤ codePoints b.1).Perm (manifestItems sha256 dir) := by
  have perm : (manifestDigests sha256 dir).Perm (manifestItems sha256 dir) := by
    unfold manifestDigests
    refine ((List.perm_insertionSort _ _).map _).trans ?_
    rw [names_eq, List.map_map]
    unfold manifestItems
    refine List.Perm.of_eq (List.map_congr_left fun file member => ?_)
    obtain ⟨there, json⟩ := List.mem_filter.mp member
    show (stem file.1, sha256 (dir.contents file.1)) = _
    rw [(named.item there json).2.2, named.contents there]
  refine ⟨StableSort.pairwise_insertionSort_lt ?_, (List.perm_insertionSort _ _).trans perm⟩
  have ids : ((manifestDigests sha256 dir).map Prod.fst).Nodup := (perm.map Prod.fst).nodup_iff.mpr named.ids_nodup
  rw [show (fun item : String × String => codePoints item.1) = codePoints ∘ Prod.fst from rfl, ← List.map_map]
  exact ids.map fun _ _ same => codePoints_inj same

/-- **The installer's hash is the runner's**, of the same files in whatever order each lists them. -/
theorem estateHash_eq (hex : ∀ text, ∀ c ∈ (sha256 text).toList, isLowerHex c = true) (named : Named dir)
    (same : dir.Perm dir') : estateHash sha256 dir = digestsHash sha256 (manifestDigests sha256 dir') := by
  obtain ⟨sorted, perm⟩ := named.js_items sha256
  obtain ⟨sorted', perm'⟩ := (named.perm same).py_items sha256
  have items : (manifestItems sha256 dir).Perm (manifestItems sha256 dir') := (same.filter _).map _
  have equal := eq_of_sorted sorted' sorted (perm.trans (items.trans perm'.symm))
  have plain : ∀ item ∈ manifestItems sha256 dir', PlainText item.1 ∧ PlainText item.2 := by
    intro item member
    refine ⟨plain_of_isId ((named.perm same).valid_items item member), fun c there => ?_⟩
    obtain ⟨file, -, rfl⟩ := List.mem_map.mp member
    exact plain_of_isLowerHex (hex _ c there)
  unfold estateHash digestsHash jsonDumps
  dsimp only
  rw [equal]
  refine congrArg (fun text => sha256 (String.ofList text)) ?_
  refine (objectText_plain fun item member => ?_).trans (objectText_plain fun item member => ?_).symm
  · obtain ⟨name, digest⟩ := plain item (perm'.mem_iff.mp member)
    exact ⟨renderString_plain name, renderString_plain digest⟩
  · obtain ⟨name, digest⟩ := plain item (perm'.mem_iff.mp member)
    exact ⟨pyString_plain name, pyString_plain digest⟩

end Files

/-! ### The text names the manifests -/

section Naming

variable {items items' : List (String × String)}

/-- The items after the first, and the closing brace. -/
def restText : List (String × String) → List Char
  | [] => ['}']
  | item :: items => ',' :: ' ' :: (quoted item.1 ++ ':' :: ' ' :: quoted item.2 ++ restText items)

theorem objectText_cons (item : String × String) (items : List (String × String)) :
    objectText quoted (item :: items) = '{' :: (quoted item.1 ++ ':' :: ' ' :: quoted item.2 ++ restText items) := by
  induction items generalizing item with
  | nil => simp [objectText, restText, List.intercalate]
  | cons next items ih =>
    have later := List.cons.inj (ih next)
    unfold objectText at later ⊢
    rw [List.map_cons] at later ⊢
    rw [List.map_cons, List.intercalate_cons_cons, List.append_assoc, List.append_assoc, later.2]
    simp [restText]

/-- What a quote closes. -/
theorem quote_inj {front front' rest rest' : List Char} (clean : '"' ∉ front) (clean' : '"' ∉ front')
    (same : front ++ '"' :: rest = front' ++ '"' :: rest') : front = front' ∧ rest = rest' := by
  induction front generalizing front' with
  | nil =>
    cases front' with
    | nil => exact ⟨rfl, (List.cons.inj same).2⟩
    | cons c front' => exact absurd ((List.cons.inj same).1 ▸ List.mem_cons_self) clean'
  | cons c front ih =>
    cases front' with
    | nil => exact absurd ((List.cons.inj same).1 ▸ List.mem_cons_self) clean
    | cons c' front' =>
      obtain ⟨rfl, later⟩ := List.cons.inj same
      obtain ⟨rfl, rest⟩ := ih (fun member => clean (List.mem_cons_of_mem _ member))
        (fun member => clean' (List.mem_cons_of_mem _ member)) later
      exact ⟨rfl, rest⟩

theorem quoted_inj {text text' : String} {rest rest' : List Char} (plain : PlainText text) (plain' : PlainText text')
    (same : quoted text ++ rest = quoted text' ++ rest') : text = text' ∧ rest = rest' := by
  unfold quoted at same
  simp only [List.cons_append, List.append_assoc, List.nil_append] at same
  have clean : ∀ {text : String}, PlainText text → '"' ∉ text.toList := fun plain member => (plain _ member).2.2.1 rfl
  obtain ⟨texts, rests⟩ := quote_inj (clean plain) (clean plain') (List.cons.inj same).2
  exact ⟨String.toList_inj.mp texts, rests⟩

theorem item_inj {item item' : String × String} {rest rest' : List Char} (plain : PlainText item.1 ∧ PlainText item.2)
    (plain' : PlainText item'.1 ∧ PlainText item'.2)
    (same : quoted item.1 ++ ':' :: ' ' :: quoted item.2 ++ rest = quoted item'.1 ++ ':' :: ' ' :: quoted item'.2 ++ rest') :
    item = item' ∧ rest = rest' := by
  simp only [List.append_assoc, List.cons_append] at same
  obtain ⟨names, same⟩ := quoted_inj plain.1 plain'.1 same
  obtain ⟨digests, same⟩ := quoted_inj plain.2 plain'.2 (List.cons.inj (List.cons.inj same).2).2
  exact ⟨Prod.ext names digests, same⟩

theorem restText_inj (plain : ∀ item ∈ items, PlainText item.1 ∧ PlainText item.2)
    (plain' : ∀ item ∈ items', PlainText item.1 ∧ PlainText item.2) (same : restText items = restText items') :
    items = items' := by
  induction items generalizing items' with
  | nil =>
    cases items' with
    | nil => rfl
    | cons item' items' => exact absurd (List.cons.inj same).1 (by decide)
  | cons item items ih =>
    cases items' with
    | nil => exact absurd (List.cons.inj same).1 (by decide)
    | cons item' items' =>
      obtain ⟨rfl, later⟩ := item_inj (plain item List.mem_cons_self) (plain' item' List.mem_cons_self)
        (List.cons.inj (List.cons.inj same).2).2
      rw [ih (fun item member => plain item (List.mem_cons_of_mem _ member))
        (fun item member => plain' item (List.mem_cons_of_mem _ member)) later]

/-- **The text names every manifest and its digest.** -/
theorem objectText_inj (plain : ∀ item ∈ items, PlainText item.1 ∧ PlainText item.2)
    (plain' : ∀ item ∈ items', PlainText item.1 ∧ PlainText item.2) (same : objectText quoted items = objectText quoted items') :
    items = items' := by
  cases items with
  | nil =>
    cases items' with
    | nil => rfl
    | cons item' items' =>
      rw [objectText_cons] at same
      exact absurd (List.cons.inj (List.cons.inj same).2).1 (by decide)
  | cons item items =>
    cases items' with
    | nil =>
      rw [objectText_cons] at same
      exact absurd (List.cons.inj (List.cons.inj same).2).1 (by decide)
    | cons item' items' =>
      rw [objectText_cons, objectText_cons] at same
      obtain ⟨rfl, later⟩ := item_inj (plain item List.mem_cons_self) (plain' item' List.mem_cons_self) (List.cons.inj same).2
      rw [restText_inj (fun item member => plain item (List.mem_cons_of_mem _ member))
        (fun item member => plain' item (List.mem_cons_of_mem _ member)) later]

end Naming

end Nvoy.Deploy
