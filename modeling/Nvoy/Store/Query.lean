/-
Reading the memory store: `query` of `hive_memory_store.mjs`.

* `canRead` keeps a reader to the rows of its scopes; `targetHidden`, `lineage` — a target that is
  hidden, and what supersedes an event, at most `MAX_LINK_HOPS` hops back;
* `consolidatedBy`, `verificationOf`, `verdictOf` — what a row is worth now;
* `selected`, `itemsOf`, `matched`, `query` — the rows that pass the filters, those that pass the text
  as well, and the answer: one page of them, conflicts first;
* `isConflict` — the flag of a record; `wakeItems`, `wakeClaims` — the rows of `wake`, and the claims
  it compares;
* `lineage_iff` — the lineage of an event is the rows at the end of a path of readable rows.

A row's text and its evidence are what its author signed: only an active claim's were checked, and
the reader throws on evidence that is no list.
-/

import Mathlib.Data.Prod.Lex
import Mathlib.Data.Rat.Defs
import Mathlib.Data.String.Basic
import Nvoy.Lib.Levels
import Nvoy.Store.Effects
import Nvoy.Store.System

namespace Nvoy.Store

open Memory

def MAX_QUERY_LIMIT : Nat := 100
def DEFAULT_QUERY_LIMIT : Nat := 50
def MAX_LINK_HOPS : Nat := 3

/-! ### Links -/

section Links

variable (config : Config) (db : Database) (readerPubkey : String)

/-- `#targetHidden`: the target is a stored row the reader may not read. -/
def targetHidden (target : String) : Bool :=
  isHex64 target && (db.events.find target).any fun row => !canRead readerPubkey row config

/-- The rows with a `supersedes` link to the target. -/
def edge (target : String) : List Row :=
  db.links.filterMap fun link =>
    if link.relation = "supersedes" ∧ link.target = target then db.events.find link.fromId else none

/-- Of these, the ids of the rows the reader may read. -/
def readableEdge (target : String) : List String :=
  ((edge db target).filter fun row => canRead readerPubkey row config).map Row.id

/-- `#lineage`: the ids reached from `start` along `supersedes` links, both ends readable. -/
def lineage (start : String) : JsSet String :=
  if targetHidden config db readerPubkey start then .empty
  else Levels.levels (readableEdge config db readerPubkey) MAX_LINK_HOPS .empty [start]

end Links

/-! ### What a row is worth now -/

/-- A live, newer claim in the same scope, and the event it names. -/
def consolidates (nowSec : Int) (c s : Row) : Bool :=
  c.isCurrent && c.status = .active && !c.exp.any (· ≤ nowSec) && c.scope = s.scope &&
    s.createdAt ≤ c.createdAt && c.id ≠ s.id && s.scopeType ≠ .hiveCanon

/-- The rows of the join, the newest claim first. -/
def consolidations (db : Database) (nowSec : Int) : List (Row × Row) :=
  (db.links.filterMap fun link =>
    match db.events.find link.fromId, db.events.find link.target with
    | some c, some s =>
        if link.relation = "supersedes" ∧ consolidates nowSec c s = true then some (c, s) else none
    | _, _ => none).insertionSort fun a b =>
      b.1.createdAt < a.1.createdAt ∨ (b.1.createdAt = a.1.createdAt ∧ a.1.id ≤ b.1.id)

/-- `#consolidatedBy`: the workflow checkpoints that a live claim replaces, and that claim. -/
def consolidatedBy (db : Database) (nowSec : Int) : JsMap String String :=
  (consolidations db nowSec).foldl
    (fun out pair =>
      if !out.has pair.2.id && (parseFactKey pair.2.d).any fun key => isWorkflowSlug key.slug then
        out.set pair.2.id pair.1.id
      else out)
    .empty

inductive Verification where
  | withdrawn
  | superseded
  | expired
  | consolidated
  | accepted
  deriving DecidableEq, Repr

def verificationOf (consolidated : JsMap String String) (nowSec : Int) (row : Row) : Verification :=
  if row.status = .withdrawn then .withdrawn
  else if !row.isCurrent then .superseded
  else if row.exp.any (· ≤ nowSec) then .expired
  else if consolidated.has row.id then .consolidated
  else .accepted

/-- The rank of the scope of an accepted row. -/
def rankOf (consolidated : JsMap String String) (nowSec : Int) (row : Row) : Option Nat :=
  if verificationOf consolidated nowSec row = .accepted then
    match row.scopeType with
    | .hiveCanon => some 2
    | .hiveOps | .room => some 3
    | .self => none
  else none

def topicOf (row : Row) : String := (normalizeMemoryTopic row.topic).getD row.topic

section Texts

-- `String(number)` of a number, given as its mantissa and decimal exponent.
variable (numberText : Int → Int → String)

mutual

/-- `String(value)`; `none` where it throws, as an object does that hides `toString`. -/
def asText : Json → Option String
  | .null => some "null"
  | .bool value => some (if value then "true" else "false")
  | .num mantissa exponent => some (numberText mantissa exponent)
  | .str text => some text
  | .arr items => (asTexts items).map (",".intercalate ·)
  | .obj fields => if "toString" ∈ fields.map Prod.fst then none else some "[object Object]"

/-- The texts that `join` puts together; a `null` leaves its place empty. -/
def asTexts : List Json → Option (List String)
  | [] => some []
  | .null :: items => (asTexts items).map ("" :: ·)
  | item :: items => do
      let text ← asText item
      return text :: (← asTexts items)

end

/-- `${value}` -/
def template : Option Json → Option String
  | none => some "undefined"
  | some value => asText numberText value

/-- `body.evidence || []`, which the reader takes for a list; `none` where it is something else. -/
def evidenceList (body : Json) : Option (List Json) :=
  match body.get "evidence" with
  | none | some .null | some (.bool false) => some []
  | some (.num mantissa _) => if mantissa = 0 then some [] else none
  | some (.str text) => if text = "" then some [] else none
  | some (.arr items) => some items
  | some (.bool true) | some (.obj _) => none

/-- A reference of the evidence changed since the commit the claim was made at. -/
def refersToStale (staleFiles : JsSet String) (asOfGit : String) : List Json → Option Bool
  | [] => some false
  | item :: items =>
      if item.string.any staleFiles.has then some true
      else do
        let text ← asText numberText item
        if staleFiles.has (asOfGit ++ ":" ++ text) then return true
        else refersToStale staleFiles asOfGit items

structure Verdict where
  verification : Verification
  computedRank : Option Nat
  staleWarning : Option String
  consolidatedBy : Option String
  deriving DecidableEq, Repr

/-- `JSON.parse(JSON.parse(row.raw_json).content)` -/
def bodyOf (row : Row) : Option Json := Json.parse row.raw.content.toList

def staleWarningOf (staleFiles : JsSet String) (row : Row) : Option (Option String) :=
  match nonEmpty row.asOfGit with
  | none => some none
  | some asOfGit => do
      let evidence ← (bodyOf row).bind evidenceList
      let stale ← refersToStale numberText staleFiles asOfGit evidence
      return if stale then some ("[STALE: evidence file changed since " ++ asOfGit ++ "]") else none

def verdictOf (consolidated : JsMap String String) (nowSec : Int) (staleFiles : JsSet String)
    (row : Row) : Option Verdict := do
  let staleWarning ← staleWarningOf numberText staleFiles row
  return {
    verification := verificationOf consolidated nowSec row
    computedRank := rankOf consolidated nowSec row
    staleWarning
    consolidatedBy := consolidated.get row.id }

/-- A row, what it is worth, and what its author wrote. -/
structure Item where
  row : Row
  verdict : Verdict
  body : Json

def itemOf (consolidated : JsMap String String) (nowSec : Int) (staleFiles : JsSet String) (row : Row) :
    Option Item := do
  let verdict ← verdictOf numberText consolidated nowSec staleFiles row
  let body ← bodyOf row
  return ⟨row, verdict, body⟩

/-- The text that the text filter searches. -/
def searchText (row : Row) (body : Json) : Option String := do
  let claim ← template numberText (body.get "claim")
  let because ← template numberText (body.get "because")
  let evidence ← asTexts numberText (← evidenceList body)
  return row.d ++ " " ++ row.topic ++ " " ++ claim ++ " " ++ because ++ " " ++ " ".intercalate evidence

end Texts

/-! ### The query -/

/-- A number of the engine. -/
inductive Number where
  | nan
  | infinite (negative : Bool)
  | finite (value : ℚ)
  deriving DecidableEq

namespace Number

/-- `created_at >= ?`; the database reads `NaN` as `NULL`. -/
def atMost (n : Number) (time : Int) : Bool :=
  match n with
  | .nan => false
  | .infinite negative => negative
  | .finite value => value ≤ time

/-- `created_at <= ?` -/
def atLeast (n : Number) (time : Int) : Bool :=
  match n with
  | .nan => false
  | .infinite negative => !negative
  | .finite value => (time : ℚ) ≤ value

/-- A number that `Number.isSafeInteger` takes. -/
def safeInteger (n : Number) : Option Int :=
  match n with
  | .finite value => if value.den = 1 ∧ isSafeInteger value.num = true then some value.num else none
  | _ => none

end Number

inductive Format where
  | index
  | full
  deriving DecidableEq, Repr

structure QueryArgs where
  readerPubkey : String := ""
  scope : Option String := none
  roomId : Option String := none
  topic : Option String := none
  d : Option String := none
  author : Option String := none
  since : Option Number := none
  untilTime : Option Number := none
  text : Option String := none
  linkedTo : Option String := none
  supersedesOf : Option String := none
  includeHistory : Bool := false
  limit : Option Number := none
  cursor : Number := .finite 0
  staleFiles : JsSet String := .empty
  format : Option String := none
  nowSec : Int

namespace QueryArgs

def pageLimit (args : QueryArgs) : Nat :=
  min MAX_QUERY_LIMIT
    (((args.limit.bind Number.safeInteger).filter (0 < ·)).map Int.toNat |>.getD DEFAULT_QUERY_LIMIT)

def startIdx (args : QueryArgs) : Nat :=
  ((args.cursor.safeInteger.filter (0 ≤ ·)).map Int.toNat).getD 0

/-- The format asked for; else the whole claims of one fact key, and index cards of more. -/
def fmt (args : QueryArgs) : Format :=
  match args.format with
  | some "index" => .index
  | some "full" => .full
  | _ => if (nonEmpty args.d).isSome then .full else .index

def wantTopic (args : QueryArgs) : Option String :=
  (nonEmpty args.topic).map fun topic => (normalizeMemoryTopic topic).getD topic

end QueryArgs

section Query

variable (host : Host) (config : Config) (db : Database) (args : QueryArgs)

/-- The filters that the fact key of a row decides. -/
def keyFilter (row : Row) : Bool :=
  (nonEmpty args.scope).all (row.scope = ·) &&
    (nonEmpty args.roomId).all (fun roomId => row.roomId = some (host.toLowerCase roomId)) &&
    (nonEmpty args.d).all (row.d = ·)

/-- The filters that tell the rows of one fact key apart. -/
def rowFilter (row : Row) : Bool :=
  (nonEmpty args.author).all (fun author => row.pubkey = host.toLowerCase author) &&
    args.since.all (·.atMost row.createdAt) && args.untilTime.all (·.atLeast row.createdAt) &&
    (nonEmpty args.linkedTo).all (fun target =>
      db.links.any fun link => link.fromId = row.id ∧ link.target = target) &&
    (nonEmpty args.supersedesOf).all (fun start =>
      (lineage config db args.readerPubkey start).has row.id) &&
    args.wantTopic.all (topicOf row = ·)

/-- The rows of the statement that the reader may read. -/
def selected : List Row :=
  db.events.rows.filter fun row => (args.includeHistory || row.isCurrent) && keyFilter host args row &&
    rowFilter host config db args row && canRead args.readerPubkey row config

end Query

section Answers

variable (host : Host) (numberText : Int → Int → String) (config : Config) (db : Database)
  (args : QueryArgs)

/-- The rows of the answer before the text filter. -/
def itemsOf : Option (List Item) := do
  let items ← (selected host config db args).mapM
    (itemOf numberText (consolidatedBy db args.nowSec) args.nowSec args.staleFiles)
  return items.filter fun x => args.includeHistory || x.verdict.verification = .accepted

/-- The accepted current claims of the rows. -/
def currentClaims (items : List Item) : List Item :=
  items.filter fun x => x.verdict.verification = .accepted && x.row.isCurrent

/-- What an item claims; an accepted claim is a text. -/
def Item.claim (x : Item) : Option String := (x.body.get "claim").bind Json.string

/-- `byFactKey` at one fact key: the texts that are claimed there. -/
def textsAt (claims : List Item) (d : String) : JsSet (Option String) :=
  .ofList ((claims.filter fun x => x.row.d = d).map Item.claim)

/-- `conflict`: more than one text is claimed at the fact key. -/
def isConflict (claims : List Item) (d : String) : Bool := 1 < (textsAt claims d).size

/-- The text filter. -/
def matchesText (x : Item) : Option Bool :=
  match nonEmpty args.text with
  | none => some true
  | some text => do
      let searched ← searchText numberText x.row x.body
      return decide ((host.toLowerCase text).toList <:+: (host.toLowerCase searched).toList)

/-- The rows that pass it. -/
def matched : List Item → Option (List Item)
  | [] => some []
  | x :: items => do
      let hit ← matchesText host numberText args x
      let found ← matched items
      return if hit then x :: found else found

/-- The order of an answer: conflicts, then the rank, then the newest, then the lower id. -/
def orderOf (claims : List Item) (x : Item) : Bool ×ₗ Nat ×ₗ Int ×ₗ String :=
  toLex (!isConflict claims x.row.d, toLex (x.verdict.computedRank.getD 9,
    toLex (-x.row.createdAt, x.row.id)))

/-- A record of an answer. An index card and a whole claim both show the item, and its flag. -/
structure Shown where
  item : Item
  conflict : Bool

structure Answer where
  answer : String
  format : Option Format
  records : List Shown
  totalMatched : Nat
  returned : Nat
  omitted : Nat
  nextCursor : Option Nat
  scopeCounts : JsMap String Nat

/-- The answer that holds nothing. -/
def Answer.empty : Answer := ⟨"none", none, [], 0, 0, 0, none, .empty⟩

/-- The rows that passed the text, in the order of an answer. -/
def sorted (claims found : List Item) : List Item :=
  found.insertionSort fun a b => orderOf claims a ≤ orderOf claims b

/-- The page of an answer. -/
def Answer.page (claims found : List Item) : Answer :=
  let page := ((sorted claims found).drop args.startIdx).take args.pageLimit
  let omitted := found.length - (args.startIdx + page.length)
  { answer := if found = [] then "none" else "found"
    format := some args.fmt
    records := page.map fun x => ⟨x, isConflict claims x.row.d⟩
    totalMatched := found.length
    returned := page.length
    omitted
    nextCursor := if 0 < omitted then some (args.startIdx + page.length) else none
    scopeCounts := (sorted claims found).foldl
      (fun counts x => counts.set x.row.scope ((counts.get x.row.scope).getD 0 + 1)) .empty }

/-- `query` of a ready store; `none` where it throws. -/
def query : Option Answer :=
  if (nonEmpty args.linkedTo).any (targetHidden config db args.readerPubkey) then
    some Answer.empty
  else do
    let items ← itemsOf host numberText config db args
    let found ← matched host numberText args items
    return Answer.page args (currentClaims items) found

end Answers

/-! ### The rows of a wake -/

/-- `#activeRows`: the current, active, unexpired rows that the reader may read. -/
def activeRows (config : Config) (db : Database) (readerPubkey : String) (nowSec : Int) : List Row :=
  db.events.rows.filter fun row => row.isCurrent && row.status = .active &&
    !row.exp.any (· ≤ nowSec) && canRead readerPubkey row config

structure WakeArgs where
  readerPubkey : String := ""
  roomId : Option String := none
  staleFiles : JsSet String := .empty
  nowSec : Int

/-- The rows of a wake: of the rooms, only the one that is named, if any. -/
def wakeItems (host : Host) (numberText : Int → Int → String) (config : Config) (db : Database)
    (args : WakeArgs) : Option (List Item) :=
  ((activeRows config db args.readerPubkey args.nowSec).filter fun row =>
    row.scopeType ≠ .room ||
      (nonEmpty args.roomId).all fun roomId => row.roomId = some (host.toLowerCase roomId)).mapM
    (itemOf numberText (consolidatedBy db args.nowSec) args.nowSec args.staleFiles)

/-- `factKeyClaims`: the claims that a wake compares. -/
def wakeClaims (items : List Item) : List Item :=
  items.filter fun x => x.verdict.verification = .accepted

/-! ### The lineage of an event -/

section Lineage

variable (config : Config) (db : Database) (readerPubkey : String)

/-- A stored row that the reader may read. -/
def Readable (row : Row) : Prop := row ∈ db.events.rows ∧ canRead readerPubkey row config = true

/-- The rows a number of `supersedes` links back to an event, by way of readable rows. The event
itself need not be stored. -/
inductive Supersedes (start : String) : Nat → Row → Prop where
  | link {row : Row} (readable : Readable config db readerPubkey row)
      (link : ⟨row.id, "supersedes", start⟩ ∈ db.links) : Supersedes start 1 row
  | step {hops : Nat} {row other : Row} (path : Supersedes start hops other)
      (readable : Readable config db readerPubkey row)
      (link : ⟨row.id, "supersedes", other.id⟩ ∈ db.links) : Supersedes start (hops + 1) row

/-- The event is stored, and the reader may not read it. -/
def Hidden (start : String) : Prop :=
  ∃ row ∈ db.events.rows, row.id = start ∧ canRead readerPubkey row config = false

/-- The rows that reach an event by at most `MAX_LINK_HOPS` links. -/
def InLineage (start : String) (row : Row) : Prop :=
  ¬ Hidden config db readerPubkey start ∧
    ∃ hops, 1 ≤ hops ∧ hops ≤ MAX_LINK_HOPS ∧ Supersedes config db readerPubkey start hops row

variable {config db readerPubkey} {start id target : String} {hops : Nat} {row : Row}

theorem targetHidden_iff (hex : ∀ row ∈ db.events.rows, isHex64 row.id = true) :
    targetHidden config db readerPubkey target = true ↔ Hidden config db readerPubkey target := by
  rw [targetHidden, Bool.and_eq_true, Option.any_eq_true]
  constructor
  · rintro ⟨-, row, found, hidden⟩
    obtain ⟨stored, same⟩ := Events.find_eq_some.mp found
    exact ⟨row, stored, same, by simpa using hidden⟩
  · rintro ⟨row, stored, rfl, hidden⟩
    exact ⟨hex row stored, row, Events.find_eq_some.mpr ⟨stored, rfl⟩, by simpa using hidden⟩

theorem mem_edge : row ∈ edge db target ↔
    row ∈ db.events.rows ∧ ⟨row.id, "supersedes", target⟩ ∈ db.links := by
  rw [edge, List.mem_filterMap]
  constructor
  · rintro ⟨⟨fromId, relation, aim⟩, listed, found⟩
    rw [Option.ite_none_right_eq_some] at found
    obtain ⟨⟨rfl, rfl⟩, found⟩ := found
    obtain ⟨stored, rfl⟩ := Events.find_eq_some.mp found
    exact ⟨stored, listed⟩
  · rintro ⟨stored, listed⟩
    exact ⟨_, listed, (if_pos ⟨rfl, rfl⟩).trans (Events.find_eq_some.mpr ⟨stored, rfl⟩)⟩

theorem mem_readableEdge : id ∈ readableEdge config db readerPubkey target ↔
    ∃ row, Readable config db readerPubkey row ∧ row.id = id ∧
      ⟨row.id, "supersedes", target⟩ ∈ db.links := by
  rw [readableEdge, List.mem_map]
  constructor
  · rintro ⟨row, member, rfl⟩
    obtain ⟨joined, readable⟩ := List.mem_filter.mp member
    obtain ⟨stored, listed⟩ := mem_edge.mp joined
    exact ⟨row, ⟨stored, readable⟩, rfl, listed⟩
  · rintro ⟨row, ⟨stored, readable⟩, rfl, listed⟩
    exact ⟨row, List.mem_filter.mpr ⟨mem_edge.mpr ⟨stored, listed⟩, readable⟩, rfl⟩

/-- A path of the search is a path of links. -/
theorem path_iff : Levels.Path (readableEdge config db readerPubkey) start (hops + 1) id ↔
    ∃ row, row.id = id ∧ Supersedes config db readerPubkey start (hops + 1) row := by
  constructor
  · intro path
    induction hops generalizing id with
    | zero =>
        cases path with
        | step path edge =>
            cases path
            obtain ⟨row, readable, same, listed⟩ := mem_readableEdge.mp edge
            exact ⟨row, same, .link readable listed⟩
    | succ hops ih =>
        cases path with
        | step path edge =>
            obtain ⟨other, rfl, before⟩ := ih path
            obtain ⟨row, readable, same, listed⟩ := mem_readableEdge.mp edge
            exact ⟨row, same, before.step readable listed⟩
  · rintro ⟨row, rfl, path⟩
    generalize length : hops + 1 = k at path
    induction path generalizing hops with
    | link readable listed =>
        obtain rfl : hops = 0 := by omega
        exact Levels.Path.start.step (mem_readableEdge.mpr ⟨_, readable, rfl, listed⟩)
    | @step k row other path readable listed ih =>
        obtain rfl : hops = k := by omega
        have positive : 1 ≤ hops := by cases path <;> omega
        obtain ⟨before, rfl⟩ := Nat.exists_eq_succ_of_ne_zero (Nat.one_le_iff_ne_zero.mp positive)
        exact (ih rfl).step (mem_readableEdge.mpr ⟨_, readable, rfl, listed⟩)

theorem mem_lineage (hex : ∀ row ∈ db.events.rows, isHex64 row.id = true) :
    id ∈ (lineage config db readerPubkey start).toFinset ↔
      ∃ row, row.id = id ∧ InLineage config db readerPubkey start row := by
  rw [JsSet.mem_toFinset, lineage]
  by_cases hidden : targetHidden config db readerPubkey start = true
  · rw [if_pos hidden]
    constructor
    · exact fun member => absurd member List.not_mem_nil
    · rintro ⟨row, -, shown, -⟩
      exact absurd ((targetHidden_iff hex).mp hidden) shown
  · rw [if_neg hidden, Levels.mem_levels]
    have shown : ¬ Hidden config db readerPubkey start := fun stored =>
      hidden ((targetHidden_iff hex).mpr stored)
    constructor
    · rintro ⟨k, positive, bounded, path⟩
      obtain ⟨before, rfl⟩ := Nat.exists_eq_succ_of_ne_zero (Nat.one_le_iff_ne_zero.mp positive)
      obtain ⟨row, same, links⟩ := path_iff.mp path
      exact ⟨row, same, shown, _, positive, bounded, links⟩
    · rintro ⟨row, same, -, k, positive, bounded, links⟩
      obtain ⟨before, rfl⟩ := Nat.exists_eq_succ_of_ne_zero (Nat.one_le_iff_ne_zero.mp positive)
      exact ⟨_, positive, bounded, path_iff.mpr ⟨row, same, links⟩⟩

theorem Supersedes.readable (path : Supersedes config db readerPubkey start hops row) :
    Readable config db readerPubkey row := by
  cases path with
  | link readable => exact readable
  | step _ readable => exact readable

theorem mem_selected {host : Host} {args : QueryArgs} : row ∈ selected host config db args ↔
    row ∈ db.events.rows ∧ (args.includeHistory = true ∨ row.isCurrent = true) ∧
      keyFilter host args row = true ∧ rowFilter host config db args row = true ∧
      canRead args.readerPubkey row config = true := by
  rw [selected, List.mem_filter, Bool.and_eq_true, Bool.and_eq_true, Bool.and_eq_true,
    Bool.or_eq_true, and_assoc, and_assoc]

theorem nonEmpty_some {text : String} (named : text ≠ "") : nonEmpty (some text) = some text := by
  rw [nonEmpty, Option.filter_some, if_pos (decide_eq_true named)]

theorem rowFilter_supersedesOf {host : Host} {args : QueryArgs} (named : start ≠ "") :
    rowFilter host config db { args with supersedesOf := some start } row = true ↔
      rowFilter host config db { args with supersedesOf := none } row = true ∧
        (lineage config db args.readerPubkey start).has row.id = true := by
  unfold rowFilter
  rw [nonEmpty_some named, Option.all_some, show nonEmpty none = none from rfl, Option.all_none]
  generalize (lineage config db args.readerPubkey start).has row.id = among
  cases among
  · simp
  · simp [QueryArgs.wantTopic]

/-- **The lineage of an event.** Where every stored id has the form of one, as the check of every
event sees to, the search below an event finds the ids of the readable rows that reach it by one to
`MAX_LINK_HOPS` links, all readable on the way, and none when the event is stored and hidden; a query
for what supersedes the event answers with these rows and no others. -/
theorem lineage_iff (host : Host) (config : Config) (db : Database) (start : String)
    (hex : ∀ row ∈ db.events.rows, isHex64 row.id = true) :
    (∀ readerPubkey id, id ∈ (lineage config db readerPubkey start).toFinset ↔
      ∃ row, row.id = id ∧ InLineage config db readerPubkey start row) ∧
    ∀ (args : QueryArgs) (row : Row), start ≠ "" →
      (row ∈ selected host config db { args with supersedesOf := some start } ↔
        row ∈ selected host config db { args with supersedesOf := none } ∧
          InLineage config db args.readerPubkey start row) := by
  refine ⟨fun _ _ => mem_lineage hex, fun args row named => ?_⟩
  have restricts : row ∈ selected host config db { args with supersedesOf := some start } ↔
      row ∈ selected host config db { args with supersedesOf := none } ∧
        (lineage config db args.readerPubkey start).has row.id = true := by
    rw [mem_selected, mem_selected, rowFilter_supersedesOf named]
    constructor
    · rintro ⟨stored, shown, key, ⟨rest, among⟩, readable⟩
      exact ⟨⟨stored, shown, key, rest, readable⟩, among⟩
    · rintro ⟨⟨stored, shown, key, rest, readable⟩, among⟩
      exact ⟨stored, shown, key, ⟨rest, among⟩, readable⟩
  rw [restricts, JsSet.has_iff, mem_lineage hex]
  constructor
  · rintro ⟨inside, other, same, reaches⟩
    obtain ⟨k, -, -, path⟩ := reaches.2
    have stored := (mem_selected.mp inside).1
    obtain rfl := Events.eq_of_id path.readable.1 stored same
    exact ⟨inside, reaches⟩
  · rintro ⟨inside, reaches⟩
    exact ⟨inside, row, rfl, reaches⟩

end Lineage

section Samples

/-- The one row left of a key, whose event names an event that was purged. -/
def replacingRow : Row := rowOf (sampleClaim (sampleKey 'b') "deploy" 2000) true 2000

def replacedPurged : Database where
  storeId := sampleUuid
  writeSeq := 1
  pendingLedger := ""
  lastPurgeSeq := 0
  events := ⟨[replacingRow], List.nodup_singleton _, by simp⟩
  links := [⟨sampleKey 'b', "supersedes", sampleKey 'c'⟩]
  rateLog := []

theorem lineage_iff_replacedPurged : replacingRow ∈ selected Host.sample sampleConfig replacedPurged
    { supersedesOf := some (sampleKey 'c'), nowSec := 2000 } := by
  have hex : ∀ row ∈ replacedPurged.events.rows, isHex64 row.id = true := by
    intro row member
    obtain rfl := List.mem_singleton.mp member
    decide
  have stored : Readable sampleConfig replacedPurged "" replacingRow := ⟨List.mem_singleton_self _, by decide⟩
  refine ((lineage_iff Host.sample sampleConfig replacedPurged (sampleKey 'c') hex).2
    { nowSec := 2000 } replacingRow (by decide)).mpr ⟨?_, ?_, 1, le_refl 1, by decide, ?_⟩
  · exact mem_selected.mpr ⟨stored.1, Or.inr rfl, rfl, rfl, stored.2⟩
  · rintro ⟨row, member, same, -⟩
    obtain rfl := List.mem_singleton.mp member
    exact absurd same (by decide)
  · exact .link stored (List.mem_singleton_self _)

end Samples

end Nvoy.Store
