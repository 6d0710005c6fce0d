/-
When the flag of a record tells a conflict.

A fact key is in conflict for a reader who can read two accepted current claims at it with different
texts. `query` compares the claims that passed its filters, `wake` all of the reader's.

* `Derived` — the rows are those of checked events, in every store of every run (`kept_run`), so the fact
  key of a row decides its scope (`Derived.scope_eq`);
* `isConflict_query` — a record is flagged when two differing claims passed the filters of the query;
* `position_iff` — the records of a page are the rows whose place in the order lies on it;
* `flags_iff` — the flags of an answer tell the conflicts exactly when the filters leave two differing
  claims at every key in conflict that the page shows; the flags of a wake always do.
-/

import Nvoy.Store.Heads
import Nvoy.Store.Query
import Nvoy.Lib.StableSort

namespace Nvoy.Store

open Memory

/-! ### The rows of a store -/

/-- Every row is that of an event that was checked. -/
def Derived (host : Host) (db : Database) : Prop :=
  ∀ row ∈ db.events.rows, ∃ config v isCurrent nowSec,
    checkEvent host v.ev config = .ok v ∧ row = rowOf v isCurrent nowSec

section Derived

variable {host : Host} {config : Config} {requireMigratedIds : List String} {db db' : Database}

/-- The fact key of a row decides its scope. -/
theorem Derived.scope_eq (kept : Derived host db) {a b : Row} (memberA : a ∈ db.events.rows)
    (memberB : b ∈ db.events.rows) (same : a.d = b.d) :
    a.scope = b.scope ∧ a.scopeType = b.scopeType ∧ a.roomId = b.roomId := by
  obtain ⟨_, v, _, _, checkedA, rfl⟩ := kept a memberA
  obtain ⟨_, w, _, _, checkedB, rfl⟩ := kept b memberB
  obtain ⟨parsed, key, -, scope, read, scopeA, typeA, roomA⟩ := (checkEvent_eq_ok checkedA).2.2.parsed
  obtain ⟨parsed', key', -, scope', read', scopeB, typeB, roomB⟩ :=
    (checkEvent_eq_ok checkedB).2.2.parsed
  change v.d = w.d at same
  rw [same, key', Option.some.injEq] at key
  subst key
  rw [read', Option.some.injEq] at read
  subst read
  exact ⟨scopeA.symm.trans scopeB, typeA.symm.trans typeB, roomA.symm.trans roomB⟩

theorem Derived.of_subset (kept : Derived host db)
    (subset : ∀ row ∈ db'.events.rows, row ∈ db.events.rows) : Derived host db' :=
  fun row member => kept row (subset row member)

theorem Derived.submitted {event : Event} {v : Checked} {current : Option Row} {nowSec : Int}
    (kept : Derived host db) (submitted : Submitted db v current nowSec db')
    (checked : checkEvent host event config = .ok v) : Derived host db' := by
  intro row member
  rcases submitted.mem_rows.mp member with old | rfl
  · obtain ⟨before, inside, rfl | same⟩ := exists_of_mem_demoted old
    · exact kept _ inside
    · obtain ⟨earlier, w, _, time, passes, rfl⟩ := kept before inside
      refine ⟨earlier, w, false, time, passes, same.trans ?_⟩
      simp only [rowOf]
  · refine ⟨config, v, true, nowSec, ?_, rfl⟩
    rw [checkEvent_ev checked]
    exact checked

theorem kept_genesis {storeId : String} {events : List Checked} {nowSec : Int}
    (made : genesisDatabase storeId events nowSec = some db)
    (checked : ∀ v ∈ events, ∃ event, checkEvent host event config = .ok v) : Derived host db := by
  obtain ⟨-, -, -, -, rows⟩ := genesisDatabase_rows made
  rw [Derived, rows]
  intro row member
  obtain ⟨v, inside, rfl⟩ := List.mem_map.mp member
  obtain ⟨event, passes⟩ := checked v inside
  refine ⟨config, v, _, nowSec, ?_, rfl⟩
  rw [checkEvent_ev passes]
  exact passes

theorem kept_wrote {w : World} {action : Action} (holds : Holds (Derived host) w.disk)
    (wrote : Wrote host config w action db') : Derived host db' := by
  cases wrote with
  | init made =>
      exact (@kept_genesis host config _ _ _ _ made (by simp)).of_subset fun _ member => member
  | migrate checked made =>
      refine (@kept_genesis host config _ _ _ _ made fun v member => ?_).of_subset fun _ member => member
      obtain ⟨event, -, passes⟩ := (checkEntries_eq_ok checked).1 v member
      exact ⟨event, passes⟩
  | @submit store req fault db db' writer v served checks staged committed =>
      obtain ⟨config, passed⟩ := submitChecks_eq_ok.mp checks
      have ends := @submitTx_ends db writer v req.expectedPriorId req.nowSec
      rw [staged] at ends
      cases ends with
      | staged db' absent prior newer active underCap submitted =>
          exact (holds.database passed.database).submitted submitted passed.checked
  | purge current =>
      exact (holds.database current).of_subset fun _ member => (Events.mem_delete.mp member).1

/-- Every operation keeps the rows those of checked events. -/
theorem kept_operations {site : Site} (keeps : Keeps (Derived host) site) (operations : List Operation) :
    Keeps (Derived host) (site.run host config requireMigratedIds operations) := by
  induction operations using List.reverseRecOn with
  | nil => exact keeps
  | append_singleton operations last ih =>
      rw [Site.run, List.foldl_append]
      exact ih.step last (fun _ _ kept subset => kept.of_subset subset)
        fun _ _ _ wrote => kept_wrote ih.disk wrote

/-- Every database of a run with restores, on the disk or in the archive, keeps the rows of checked
events. -/
theorem kept_run (operations : List Operation) :
    Keeps (Derived host) (Site.empty.run host config requireMigratedIds operations) :=
  kept_operations keeps_empty operations

end Derived

/-! ### Fact keys in conflict -/

/-- What a row claims. -/
def claimText (row : Row) : Option String := ((bodyOf row).bind (·.get "claim")).bind Json.string

section Keys

variable (config : Config) (db : Database) (readerPubkey : String) (nowSec : Int)

/-- An accepted current claim at a fact key, which the reader can read. -/
structure Claims (d : String) (row : Row) : Prop where
  readable : Readable config db readerPubkey row
  accepted : verificationOf (consolidatedBy db nowSec) nowSec row = .accepted
  key : row.d = d

/-- The reader can read two such claims with different texts. -/
def InConflict (d : String) : Prop :=
  ∃ a b, Claims config db readerPubkey nowSec d a ∧ Claims config db readerPubkey nowSec d b ∧
    claimText a ≠ claimText b

end Keys

section Answering

variable (host : Host) (numberText : Int → Int → String) (config : Config) (db : Database)
  (args : QueryArgs)

/-- Two such claims pass the filters of the query by author, time, link, lineage and topic. -/
def Told (d : String) : Prop :=
  ∃ a b, Claims config db args.readerPubkey args.nowSec d a ∧
    Claims config db args.readerPubkey args.nowSec d b ∧ claimText a ≠ claimText b ∧
    rowFilter host config db args a = true ∧ rowFilter host config db args b = true

/-- A row as the query reads it. -/
def readRow (row : Row) : Option Item :=
  itemOf numberText (consolidatedBy db args.nowSec) args.nowSec args.staleFiles row

def IsAccepted (row : Row) : Prop :=
  verificationOf (consolidatedBy db args.nowSec) args.nowSec row = .accepted

/-- The row passes the filters and the text filter. -/
structure Hit (row : Row) : Prop where
  selected : row ∈ selected host config db args
  shown : args.includeHistory = true ∨ IsAccepted db args row
  text : ∃ x, readRow numberText db args row = some x ∧
    matchesText host numberText args x = some true

/-- The query answers with rows: its link target is not hidden, and it throws on none that it reads. -/
structure Answers : Prop where
  target : (nonEmpty args.linkedTo).any (targetHidden config db args.readerPubkey) = false
  reads : ∀ row ∈ selected host config db args, (readRow numberText db args row).isSome = true
  searches : ∀ row ∈ selected host config db args, args.includeHistory = true ∨ IsAccepted db args row →
    ∀ x, readRow numberText db args row = some x → (matchesText host numberText args x).isSome = true

open Classical in
/-- The place of a row in the order of the answer. -/
noncomputable def placeOf (row : Row) : Bool ×ₗ Nat ×ₗ Int ×ₗ String :=
  toLex (decide (¬ Told host config db args row.d),
    toLex ((rankOf (consolidatedBy db args.nowSec) args.nowSec row).getD 9,
      toLex (-row.createdAt, row.id)))

open Classical in
/-- The number of rows that come before it. -/
noncomputable def position (row : Row) : Nat :=
  db.events.rows.countP fun other => Hit host numberText config db args other ∧
    placeOf host config db args other < placeOf host config db args row

end Answering

section Reading

variable {host : Host} {numberText : Int → Int → String} {config : Config} {db : Database}
  {args : QueryArgs} {row : Row} {x : Item} {items found : List Item} {d : String}

/-- What a row that is read tells of itself. -/
structure ReadFrom (consolidated : JsMap String String) (nowSec : Int) (row : Row) (x : Item) :
    Prop where
  row_eq : x.row = row
  verification : x.verdict.verification = verificationOf consolidated nowSec row
  rank : x.verdict.computedRank = rankOf consolidated nowSec row
  body : bodyOf row = some x.body

theorem readFrom_of_itemOf {consolidated : JsMap String String} {nowSec : Int}
    {staleFiles : JsSet String} (read : itemOf numberText consolidated nowSec staleFiles row = some x) :
    ReadFrom consolidated nowSec row x := by
  unfold itemOf verdictOf at read
  simp only [Option.bind_eq_bind, Option.bind_eq_some_iff, Option.pure_def, Option.some.injEq] at read
  obtain ⟨verdict, ⟨staleWarning, -, rfl⟩, body, parsed, rfl⟩ := read
  exact ⟨rfl, rfl, rfl, parsed⟩

theorem itemOf_eq {consolidated : JsMap String String} {nowSec : Int} {staleFiles : JsSet String}
    {staleWarning : Option String} {body : Json}
    (warning : staleWarningOf numberText staleFiles row = some staleWarning)
    (parsed : bodyOf row = some body) : itemOf numberText consolidated nowSec staleFiles row =
      some ⟨row, ⟨verificationOf consolidated nowSec row, rankOf consolidated nowSec row, staleWarning,
        consolidated.get row.id⟩, body⟩ := by
  rw [itemOf, verdictOf, warning, parsed]
  rfl

theorem ReadFrom.claim_eq {consolidated : JsMap String String} {nowSec : Int}
    (read : ReadFrom consolidated nowSec row x) : x.claim = claimText row := by
  rw [Item.claim, claimText, read.body, Option.bind_some]

theorem isConflict_iff {claims : List Item} :
    isConflict claims d = true ↔ ∃ x ∈ claims, ∃ y ∈ claims, x.row.d = d ∧ y.row.d = d ∧
      x.claim ≠ y.claim := by
  rw [isConflict, decide_eq_true_eq, JsSet.size_eq_card, Finset.one_lt_card, textsAt,
    JsSet.toFinset_ofList]
  simp only [List.mem_toFinset, List.mem_map, List.mem_filter, decide_eq_true_eq]
  constructor
  · rintro ⟨_, ⟨x, ⟨memberX, keyX⟩, rfl⟩, _, ⟨y, ⟨memberY, keyY⟩, rfl⟩, differ⟩
    exact ⟨x, memberX, y, memberY, keyX, keyY, differ⟩
  · rintro ⟨x, memberX, y, memberY, keyX, keyY, differ⟩
    exact ⟨_, ⟨x, ⟨memberX, keyX⟩, rfl⟩, _, ⟨y, ⟨memberY, keyY⟩, rfl⟩, differ⟩

theorem active_of_accepted {consolidated : JsMap String String} {nowSec : Int}
    (accepted : verificationOf consolidated nowSec row = .accepted) :
    row.isCurrent = true ∧ row.status = .active ∧ row.exp.any (· ≤ nowSec) = false := by
  unfold verificationOf at accepted
  split_ifs at accepted with withdrawn superseded expired consolidated
  refine ⟨by simpa using superseded, ?_, by simpa using expired⟩
  cases status : row.status with
  | active => rfl
  | withdrawn => exact absurd status withdrawn

/-! ### The rows of an answer -/

theorem itemsOf_eq_some : itemsOf host numberText config db args = some items ↔
    (∀ row ∈ selected host config db args, (readRow numberText db args row).isSome = true) ∧
      ((selected host config db args).filterMap (readRow numberText db args)).filter
        (fun x => args.includeHistory || x.verdict.verification = .accepted) = items := by
  unfold itemsOf
  simp only [Option.bind_eq_bind, Option.bind_eq_some_iff, Option.pure_def, Option.some.injEq,
    mapM_eq_some]
  constructor
  · rintro ⟨_, ⟨all, rfl⟩, rfl⟩
    exact ⟨all, rfl⟩
  · rintro ⟨all, rfl⟩
    exact ⟨_, ⟨all, rfl⟩, rfl⟩

theorem mem_itemsOf (built : itemsOf host numberText config db args = some items) :
    x ∈ items ↔ ∃ row ∈ selected host config db args, readRow numberText db args row = some x ∧
      (args.includeHistory = true ∨ IsAccepted db args row) := by
  obtain ⟨-, rfl⟩ := itemsOf_eq_some.mp built
  rw [List.mem_filter, List.mem_filterMap, Bool.or_eq_true, decide_eq_true_eq]
  constructor
  · rintro ⟨⟨row, member, read⟩, shown⟩
    rw [(readFrom_of_itemOf read).verification] at shown
    exact ⟨row, member, read, shown⟩
  · rintro ⟨row, member, read, shown⟩
    refine ⟨⟨row, member, read⟩, ?_⟩
    rw [(readFrom_of_itemOf read).verification]
    exact shown

theorem matched_eq_some : matched host numberText args items = some found ↔
    (∀ x ∈ items, (matchesText host numberText args x).isSome = true) ∧
      items.filter (fun x => matchesText host numberText args x = some true) = found := by
  induction items generalizing found with
  | nil => simp [matched]
  | cons x items ih =>
      rw [matched, List.forall_mem_cons, List.filter_cons]
      cases here : matchesText host numberText args x with
      | none => simp
      | some hit =>
          simp only [Option.bind_eq_bind, Option.bind_some, Option.bind_eq_some_iff, Option.pure_def,
            Option.some.injEq, Option.isSome_some, true_and, ih]
          constructor
          · rintro ⟨_, ⟨all, rfl⟩, rfl⟩
            refine ⟨all, ?_⟩
            cases hit <;> rfl
          · rintro ⟨all, rfl⟩
            refine ⟨_, ⟨all, rfl⟩, ?_⟩
            cases hit <;> rfl

/-- The flag of a fact key tells whether two differing claims at it passed the filters. -/
theorem isConflict_query (kept : Derived host db)
    (built : itemsOf host numberText config db args = some items)
    (member : row ∈ selected host config db args) :
    isConflict (currentClaims items) row.d = true ↔ Told host config db args row.d := by
  have isClaim : ∀ y, y ∈ currentClaims items ↔ ∃ other ∈ selected host config db args,
      readRow numberText db args other = some y ∧ IsAccepted db args other := by
    intro y
    rw [currentClaims, List.mem_filter, mem_itemsOf built, Bool.and_eq_true, decide_eq_true_eq]
    constructor
    · rintro ⟨⟨other, inside, read, -⟩, accepted, -⟩
      exact ⟨other, inside, read, (readFrom_of_itemOf read).verification.symm.trans accepted⟩
    · rintro ⟨other, inside, read, accepted⟩
      have facts := readFrom_of_itemOf read
      refine ⟨⟨other, inside, read, Or.inr accepted⟩, facts.verification.trans accepted, ?_⟩
      rw [facts.row_eq]
      exact (active_of_accepted accepted).1
  obtain ⟨stored, -, keyed, -, -⟩ := mem_selected.mp member
  have passes : ∀ other, Claims config db args.readerPubkey args.nowSec row.d other →
      rowFilter host config db args other = true → other ∈ selected host config db args := by
    intro other claims filtered
    refine mem_selected.mpr ⟨claims.readable.1, Or.inr ((active_of_accepted claims.accepted).1), ?_,
      filtered, claims.readable.2⟩
    obtain ⟨scope, -, room⟩ := kept.scope_eq claims.readable.1 stored claims.key
    unfold keyFilter at keyed ⊢
    rw [scope, room, claims.key]
    exact keyed
  rw [isConflict_iff]
  constructor
  · rintro ⟨x, memberX, y, memberY, keyX, keyY, differ⟩
    obtain ⟨a, insideA, readA, acceptedA⟩ := (isClaim x).mp memberX
    obtain ⟨b, insideB, readB, acceptedB⟩ := (isClaim y).mp memberY
    have factsA := readFrom_of_itemOf readA
    have factsB := readFrom_of_itemOf readB
    obtain ⟨storedA, -, -, filteredA, readableA⟩ := mem_selected.mp insideA
    obtain ⟨storedB, -, -, filteredB, readableB⟩ := mem_selected.mp insideB
    rw [factsA.claim_eq, factsB.claim_eq] at differ
    rw [factsA.row_eq] at keyX
    rw [factsB.row_eq] at keyY
    exact ⟨a, b, ⟨⟨storedA, readableA⟩, acceptedA, keyX⟩, ⟨⟨storedB, readableB⟩, acceptedB, keyY⟩,
      differ, filteredA, filteredB⟩
  · rintro ⟨a, b, claimsA, claimsB, differ, filteredA, filteredB⟩
    have all := (itemsOf_eq_some.mp built).1
    obtain ⟨x, readA⟩ := Option.isSome_iff_exists.mp (all a (passes a claimsA filteredA))
    obtain ⟨y, readB⟩ := Option.isSome_iff_exists.mp (all b (passes b claimsB filteredB))
    have factsA := readFrom_of_itemOf readA
    have factsB := readFrom_of_itemOf readB
    refine ⟨x, (isClaim x).mpr ⟨a, passes a claimsA filteredA, readA, claimsA.accepted⟩, y,
      (isClaim y).mpr ⟨b, passes b claimsB filteredB, readB, claimsB.accepted⟩, ?_, ?_, ?_⟩
    · rw [factsA.row_eq, claimsA.key]
    · rw [factsB.row_eq, claimsB.key]
    · rw [factsA.claim_eq, factsB.claim_eq]
      exact differ

/-! ### The page of an answer -/

theorem Answers.built (answers : Answers host numberText config db args) : ∃ items found,
    itemsOf host numberText config db args = some items ∧
      matched host numberText args items = some found ∧
      query host numberText config db args = some (Answer.page args (currentClaims items) found) := by
  obtain ⟨items, built⟩ : ∃ items, itemsOf host numberText config db args = some items :=
    ⟨_, itemsOf_eq_some.mpr ⟨answers.reads, rfl⟩⟩
  have searched : ∀ x ∈ items, (matchesText host numberText args x).isSome = true := by
    intro x member
    obtain ⟨row, inside, read, shown⟩ := (mem_itemsOf built).mp member
    exact answers.searches row inside shown x read
  have found := matched_eq_some.mpr ⟨searched, rfl⟩
  refine ⟨items, _, built, found, ?_⟩
  rw [query, if_neg (by simp [answers.target]), built]
  simp only [Option.bind_eq_bind, Option.bind_some, found]
  rfl

/-- An answer with a record is the page of rows that were read and searched. -/
theorem answers_of_query {answer : Answer} (answered : query host numberText config db args = some answer)
    (filled : answer.records ≠ []) : Answers host numberText config db args := by
  unfold query at answered
  split_ifs at answered with hidden
  · obtain rfl := Option.some.inj answered
    exact absurd rfl filled
  · simp only [Option.bind_eq_bind, Option.bind_eq_some_iff] at answered
    obtain ⟨items, built, found, searched, -⟩ := answered
    refine ⟨by simpa using hidden, (itemsOf_eq_some.mp built).1, fun row inside shown x read => ?_⟩
    exact (matched_eq_some.mp searched).1 x ((mem_itemsOf built).mpr ⟨row, inside, read, shown⟩)

section Places

variable (built : itemsOf host numberText config db args = some items)
  (searched : matched host numberText args items = some found)

include built searched

theorem mem_found : x ∈ found ↔ ∃ row, readRow numberText db args row = some x ∧
    Hit host numberText config db args row := by
  obtain ⟨-, rfl⟩ := matched_eq_some.mp searched
  rw [List.mem_filter, mem_itemsOf built, decide_eq_true_eq]
  constructor
  · rintro ⟨⟨row, inside, read, shown⟩, text⟩
    exact ⟨row, read, inside, shown, x, read, text⟩
  · rintro ⟨row, read, inside, shown, y, read', text⟩
    obtain rfl : x = y := Option.some.inj (read.symm.trans read')
    exact ⟨⟨row, inside, read, shown⟩, text⟩

theorem hit_of_found (member : x ∈ found) : Hit host numberText config db args x.row := by
  obtain ⟨row, read, hit⟩ := (mem_found built searched).mp member
  rw [(readFrom_of_itemOf read).row_eq]
  exact hit

theorem nodup_found : (found.map Item.row).Nodup := by
  obtain ⟨reads, whole⟩ := itemsOf_eq_some.mp built
  have rows : ((selected host config db args).filterMap (readRow numberText db args)).map Item.row =
      selected host config db args := by
    rw [List.map_filterMap]
    have itself : ∀ row ∈ selected host config db args,
        (readRow numberText db args row).map Item.row = some row := by
      intro row member
      obtain ⟨x, read⟩ := Option.isSome_iff_exists.mp (reads row member)
      rw [read, Option.map_some, (readFrom_of_itemOf read).row_eq]
    rw [List.filterMap_congr itself, List.filterMap_some]
  have fewer : (found.map Item.row).Sublist (selected host config db args) := by
    obtain ⟨-, rfl⟩ := matched_eq_some.mp searched
    subst whole
    conv_rhs => rw [← rows]
    exact (List.filter_sublist.trans List.filter_sublist).map Item.row
  exact db.events.nodup_id.of_map.sublist (fewer.trans List.filter_sublist)

open Classical in
theorem perm_found :
    (found.map Item.row).Perm (db.events.rows.filter fun row => Hit host numberText config db args row) := by
  refine (List.perm_ext_iff_of_nodup (nodup_found built searched)
    (db.events.nodup_id.of_map.filter _)).mpr fun row => ?_
  rw [List.mem_map, List.mem_filter, decide_eq_true_eq]
  constructor
  · rintro ⟨x, member, rfl⟩
    have hit := hit_of_found built searched member
    exact ⟨(mem_selected.mp hit.selected).1, hit⟩
  · rintro ⟨-, hit⟩
    obtain ⟨x, read, -⟩ := hit.text
    exact ⟨x, (mem_found built searched).mpr ⟨row, read, hit⟩, (readFrom_of_itemOf read).row_eq⟩

variable (kept : Derived host db)

include kept

theorem orderOf_eq (member : x ∈ found) :
    orderOf (currentClaims items) x = placeOf host config db args x.row := by
  classical
  obtain ⟨row, read, hit⟩ := (mem_found built searched).mp member
  have facts := readFrom_of_itemOf read
  have flag := isConflict_query kept built hit.selected
  have same : (!isConflict (currentClaims items) row.d) = decide (¬ Told host config db args row.d) := by
    rw [Bool.eq_iff_iff, Bool.not_eq_true', decide_eq_true_eq, ← flag, Bool.not_eq_true]
  rw [orderOf, placeOf, facts.row_eq, facts.rank, same]

/-- A row of the answer stands at its position. -/
theorem position_eq {i : Nat} (there : (sorted (currentClaims items) found)[i]? = some x) :
    position host numberText config db args x.row = i := by
  classical
  have member : x ∈ found := (List.perm_insertionSort _ found).mem_iff.mp (List.mem_of_getElem? there)
  have stored : ∀ y ∈ found, y.row ∈ db.events.rows := fun y inside =>
    (mem_selected.mp (hit_of_found built searched inside).selected).1
  have distinct : (found.map (orderOf (currentClaims items))).Nodup := by
    refine List.pairwise_map.mpr ((List.pairwise_map.mp (nodup_found built searched)).imp_of_mem ?_)
    intro y z insideY insideZ apart same
    rw [orderOf_eq built searched kept insideY, orderOf_eq built searched kept insideZ] at same
    have ids : y.row.id = z.row.id :=
      congrArg (fun place : Bool ×ₗ Nat ×ₗ Int ×ₗ String => (ofLex (ofLex (ofLex place).2).2).2) same
    exact apart (Events.eq_of_id (stored y insideY) (stored z insideZ) ids)
  have strict := StableSort.pairwise_insertionSort_lt distinct
  have counted := StableSort.countP_lt_of_pairwise strict there
  rw [(List.perm_insertionSort _ found).countP_eq] at counted
  rw [← counted, position]
  calc db.events.rows.countP (fun other => decide (Hit host numberText config db args other ∧
          placeOf host config db args other < placeOf host config db args x.row))
      = (db.events.rows.filter fun row => Hit host numberText config db args row).countP (fun other =>
          decide (placeOf host config db args other < placeOf host config db args x.row)) := by
        rw [List.countP_filter]
        refine List.countP_congr fun row _ => ?_
        rw [decide_eq_true_eq, Bool.and_eq_true, decide_eq_true_eq, decide_eq_true_eq, and_comm]
    _ = (found.map Item.row).countP (fun other =>
          decide (placeOf host config db args other < placeOf host config db args x.row)) :=
        ((perm_found built searched).countP_eq _).symm
    _ = found.countP fun y =>
          decide (orderOf (currentClaims items) y < orderOf (currentClaims items) x) := by
        rw [List.countP_map]
        refine List.countP_congr fun y inside => ?_
        rw [orderOf_eq built searched kept inside, orderOf_eq built searched kept member]
        rfl

/-- The rows of a page are those whose position lies on it. -/
theorem mem_page : (∃ shown ∈ (Answer.page args (currentClaims items) found).records,
      shown.item.row = row) ↔ Hit host numberText config db args row ∧
    args.startIdx ≤ position host numberText config db args row ∧
    position host numberText config db args row < args.startIdx + args.pageLimit := by
  have listed : ∀ y, y ∈ sorted (currentClaims items) found ↔ y ∈ found := fun y =>
    (List.perm_insertionSort _ found).mem_iff
  constructor
  · rintro ⟨shown, member, rfl⟩
    obtain ⟨x, inside, rfl⟩ := List.mem_map.mp member
    obtain ⟨i, there⟩ := List.mem_iff_getElem?.mp inside
    rw [List.getElem?_take] at there
    split_ifs at there with small
    rw [List.getElem?_drop] at there
    rw [position_eq built searched kept there]
    exact ⟨hit_of_found built searched ((listed x).mp (List.mem_of_getElem? there)), by omega, by omega⟩
  · rintro ⟨hit, after, before⟩
    obtain ⟨x, read, -⟩ := hit.text
    have same := (readFrom_of_itemOf read).row_eq
    obtain ⟨i, there⟩ := List.mem_iff_getElem?.mp
      ((listed x).mpr ((mem_found built searched).mpr ⟨row, read, hit⟩))
    have place := position_eq built searched kept there
    rw [same] at place
    rw [place] at after before
    refine ⟨⟨x, _⟩, List.mem_map.mpr ⟨x, List.mem_iff_getElem?.mpr ⟨i - args.startIdx, ?_⟩, rfl⟩, same⟩
    rw [List.getElem?_take, if_pos (by omega), List.getElem?_drop, Nat.add_sub_cancel' after]
    exact there

/-- A record carries the flag of its fact key. -/
theorem conflict_iff_told {shown : Shown}
    (member : shown ∈ (Answer.page args (currentClaims items) found).records) :
    shown.conflict = true ↔ Told host config db args shown.item.row.d := by
  have hit := ((mem_page built searched kept).mp ⟨shown, member, rfl⟩).1
  obtain ⟨x, -, rfl⟩ := List.mem_map.mp member
  exact isConflict_query kept built hit.selected

end Places

theorem Told.inConflict (told : Told host config db args d) :
    InConflict config db args.readerPubkey args.nowSec d := by
  obtain ⟨a, b, claimsA, claimsB, differ, -, -⟩ := told
  exact ⟨a, b, claimsA, claimsB, differ⟩

/-! ### The flags of a wake -/

theorem mem_wakeItems {args : WakeArgs} (built : wakeItems host numberText config db args = some items) :
    x ∈ items ↔ ∃ row ∈ activeRows config db args.readerPubkey args.nowSec,
      (row.scopeType = .room → (nonEmpty args.roomId).all
        (fun roomId => row.roomId = some (host.toLowerCase roomId)) = true) ∧
      itemOf numberText (consolidatedBy db args.nowSec) args.nowSec args.staleFiles row = some x := by
  obtain ⟨-, rfl⟩ := mapM_eq_some.mp built
  rw [List.mem_filterMap]
  constructor
  · rintro ⟨row, member, read⟩
    obtain ⟨active, room⟩ := List.mem_filter.mp member
    refine ⟨row, active, fun isRoom => ?_, read⟩
    simpa [isRoom] using room
  · rintro ⟨row, active, room, read⟩
    refine ⟨row, List.mem_filter.mpr ⟨active, ?_⟩, read⟩
    by_cases isRoom : row.scopeType = .room
    · simpa [isRoom] using room isRoom
    · simp [isRoom]

theorem mem_activeRows {readerPubkey : String} {nowSec : Int} :
    row ∈ activeRows config db readerPubkey nowSec ↔ Readable config db readerPubkey row ∧
      row.isCurrent = true ∧ row.status = .active ∧ row.exp.any (· ≤ nowSec) = false := by
  rw [activeRows, List.mem_filter, Readable]
  simp only [Bool.and_eq_true, decide_eq_true_eq, Bool.not_eq_true']
  tauto

/-- The flag of a row that a wake shows tells the conflicts of its reader. -/
theorem isConflict_wake (kept : Derived host db) {args : WakeArgs}
    (built : wakeItems host numberText config db args = some items) (member : x ∈ items) :
    isConflict (wakeClaims items) x.row.d = true ↔
      InConflict config db args.readerPubkey args.nowSec x.row.d := by
  obtain ⟨row, active, room, read⟩ := (mem_wakeItems built).mp member
  have facts := readFrom_of_itemOf read
  have stored := (mem_activeRows.mp active).1.1
  rw [isConflict_iff, facts.row_eq]
  constructor
  · rintro ⟨y, memberY, z, memberZ, keyY, keyZ, differ⟩
    have claims : ∀ w, w ∈ wakeClaims items → w.row.d = row.d → ∃ other,
        Claims config db args.readerPubkey args.nowSec row.d other ∧ w.claim = claimText other := by
      intro w inside key
      obtain ⟨inItems, accepted⟩ := List.mem_filter.mp inside
      obtain ⟨other, active', -, read'⟩ := (mem_wakeItems built).mp inItems
      have facts' := readFrom_of_itemOf read'
      refine ⟨other, ⟨(mem_activeRows.mp active').1, ?_, facts'.row_eq ▸ key⟩, facts'.claim_eq⟩
      rw [← facts'.verification]
      exact of_decide_eq_true accepted
    obtain ⟨a, claimsA, textA⟩ := claims y memberY keyY
    obtain ⟨b, claimsB, textB⟩ := claims z memberZ keyZ
    exact ⟨a, b, claimsA, claimsB, textA ▸ textB ▸ differ⟩
  · rintro ⟨a, b, claimsA, claimsB, differ⟩
    -- Every claim at the key of a row that is shown is in the room of the row, and so is read.
    have shown : ∀ other, Claims config db args.readerPubkey args.nowSec row.d other → ∃ y,
        y ∈ wakeClaims items ∧ y.row.d = row.d ∧ y.claim = claimText other := by
      intro other claims
      have inside : other ∈ activeRows config db args.readerPubkey args.nowSec :=
        mem_activeRows.mpr ⟨claims.readable, active_of_accepted claims.accepted⟩
      obtain ⟨-, type, roomId⟩ := kept.scope_eq claims.readable.1 stored claims.key
      have passes : other.scopeType = .room → (nonEmpty args.roomId).all
          (fun roomId => other.roomId = some (host.toLowerCase roomId)) = true := by
        rw [type, roomId]
        exact room
      obtain ⟨y, read'⟩ := Option.isSome_iff_exists.mp ((mapM_eq_some.mp built).1 other
        (List.mem_filter.mpr ⟨inside, by
          by_cases isRoom : other.scopeType = .room
          · simpa [isRoom] using passes isRoom
          · simp [isRoom]⟩))
      have facts' := readFrom_of_itemOf read'
      refine ⟨y, List.mem_filter.mpr ⟨(mem_wakeItems built).mpr ⟨other, inside, passes, read'⟩, ?_⟩,
        facts'.row_eq ▸ claims.key, facts'.claim_eq⟩
      exact decide_eq_true (facts'.verification.trans claims.accepted)
    obtain ⟨y, memberY, keyY, textY⟩ := shown a claimsA
    obtain ⟨z, memberZ, keyZ, textZ⟩ := shown b claimsB
    exact ⟨y, memberY, z, memberZ, keyY, keyZ, textY ▸ textZ ▸ differ⟩

/-- **The flags of a conflict.** The flags of an answer tell the conflicts of its reader exactly when,
at every fact key in conflict of a row that passes the filters and the text and whose position lies on
the page, two differing claims pass the filters by author, time, link, lineage and topic. The flags of
a wake always tell them. -/
theorem flags_iff (host : Host) (numberText : Int → Int → String) (config : Config) (db : Database)
    (args : QueryArgs) (kept : Derived host db) :
    ((∀ answer, query host numberText config db args = some answer → ∀ shown ∈ answer.records,
        (shown.conflict = true ↔
          InConflict config db args.readerPubkey args.nowSec shown.item.row.d)) ↔
      (Answers host numberText config db args → ∀ row, Hit host numberText config db args row →
        args.startIdx ≤ position host numberText config db args row →
        position host numberText config db args row < args.startIdx + args.pageLimit →
        InConflict config db args.readerPubkey args.nowSec row.d → Told host config db args row.d)) ∧
    ∀ (wake : WakeArgs) items, wakeItems host numberText config db wake = some items →
      ∀ x ∈ items, (isConflict (wakeClaims items) x.row.d = true ↔
        InConflict config db wake.readerPubkey wake.nowSec x.row.d) := by
  refine ⟨⟨?_, ?_⟩, fun wake items built x member => isConflict_wake kept built member⟩
  · intro tells answers row hit after before conflict
    obtain ⟨items, found, built, searched, answered⟩ := answers.built
    obtain ⟨shown, member, rfl⟩ := (mem_page built searched kept).mpr ⟨hit, after, before⟩
    exact (conflict_iff_told built searched kept member).mp ((tells _ answered shown member).mpr conflict)
  · intro leaves answer answered shown member
    have answers := answers_of_query answered (List.ne_nil_of_mem member)
    obtain ⟨items, found, built, searched, page⟩ := answers.built
    obtain rfl := Option.some.inj (answered.symm.trans page)
    rw [conflict_iff_told built searched kept member]
    refine ⟨Told.inConflict, ?_⟩
    obtain ⟨hit, after, before⟩ := (mem_page built searched kept).mp ⟨shown, member, rfl⟩
    exact leaves answers _ hit after before

end Reading

/-! ### Two authors at one key -/

section Samples

/-- The owner and a second author, both of whom write `hive:ops`. -/
def twoWriters : Config := { sampleConfig with globalWriters := JsSet.ofList [sampleKey 'b'] }

def noonClaim : Checked :=
  sampleClaimBy (sampleKey 'a') "deploys run at noon" (sampleKey 'c') "deploy" 2000

def duskClaim : Checked :=
  sampleClaimBy (sampleKey 'b') "deploys run at dusk" (sampleKey 'd') "deploy" 2000

theorem checkEvent_noon : checkEvent Host.sample noonClaim.ev sampleConfig = .ok noonClaim := by
  exact checkEvent_sampleEventBy (by decide) (by decide) (by decide) (by decide) (by decide) (by decide)
    (by decide) (by decide) (by decide)

theorem checkEvent_dusk : checkEvent Host.sample duskClaim.ev sampleConfig = .ok duskClaim := by
  exact checkEvent_sampleEventBy (by decide) (by decide) (by decide) (by decide) (by decide) (by decide)
    (by decide) (by decide) (by decide)

/-- Two current claims at one key, which differ. -/
def noonOrDusk : Database where
  storeId := sampleUuid
  writeSeq := 2
  pendingLedger := ""
  lastPurgeSeq := 0
  events := {
    rows := [rowOf noonClaim true 2000, rowOf duskClaim true 2000]
    nodup_id := by decide
    head_unique := by
      have apart : (rowOf noonClaim true 2000).key ≠ (rowOf duskClaim true 2000).key := by decide
      intro a memberA b memberB _ _ same
      rcases List.mem_pair.mp memberA with rfl | rfl
      · rcases List.mem_pair.mp memberB with rfl | rfl
        · rfl
        · exact absurd same apart
      · rcases List.mem_pair.mp memberB with rfl | rfl
        · exact absurd same.symm apart
        · rfl }
  links := []
  rateLog := []

theorem kept_noonOrDusk : Derived Host.sample noonOrDusk := by
  intro row member
  rcases List.mem_pair.mp member with rfl | rfl
  · exact ⟨sampleConfig, noonClaim, true, 2000, checkEvent_noon, rfl⟩
  · exact ⟨sampleConfig, duskClaim, true, 2000, checkEvent_dusk, rfl⟩

section Sample

variable {author claim id topic : String} {createdAt nowSec : Int} {isCurrent : Bool}

theorem bodyOf_sample : bodyOf (rowOf (sampleClaimBy author claim id topic createdAt) isCurrent nowSec) =
    some (bodyWith claim) :=
  Json.parse_stringify _

theorem claimText_sample :
    claimText (rowOf (sampleClaimBy author claim id topic createdAt) isCurrent nowSec) = some claim := by
  rw [claimText, bodyOf_sample]
  rfl

theorem readRow_sample {numberText : Int → Int → String} {db : Database} {args : QueryArgs}
    (fresh : args.staleFiles = .empty) : (readRow numberText db args
      (rowOf (sampleClaimBy author claim id topic createdAt) isCurrent nowSec)).isSome = true := by
  have commit : nonEmpty (rowOf (sampleClaimBy author claim id topic createdAt) isCurrent nowSec).asOfGit =
      some "c0ffee" := by
    show nonEmpty (some "c0ffee") = some "c0ffee"
    decide
  have evidence : evidenceList (bodyWith claim) = some [.str "notes"] := rfl
  have unchanged : refersToStale numberText .empty "c0ffee" [.str "notes"] = some false := rfl
  have warning : staleWarningOf numberText .empty
      (rowOf (sampleClaimBy author claim id topic createdAt) isCurrent nowSec) = some none := by
    rw [staleWarningOf, commit]
    dsimp only
    rw [bodyOf_sample, Option.bind_some, evidence, Option.bind_eq_bind, Option.bind_some, unchanged]
    rfl
  rw [readRow, fresh, itemOf_eq warning bodyOf_sample]
  rfl

end Sample

def ownClaims : QueryArgs := { author := some (sampleKey 'a'), nowSec := 3000 }

theorem claims_noon : Claims twoWriters noonOrDusk "" 3000 noonClaim.d (rowOf noonClaim true 2000) :=
  ⟨⟨List.mem_cons_self, by decide⟩, rfl, rfl⟩

theorem claims_dusk : Claims twoWriters noonOrDusk "" 3000 noonClaim.d (rowOf duskClaim true 2000) :=
  ⟨⟨List.mem_cons_of_mem _ List.mem_cons_self, by decide⟩, rfl, rfl⟩

theorem inConflict_noonOrDusk : InConflict twoWriters noonOrDusk "" 3000 noonClaim.d := by
  refine ⟨_, _, claims_noon, claims_dusk, ?_⟩
  rw [noonClaim, duskClaim, claimText_sample, claimText_sample]
  decide

theorem own_of_rowFilter {row : Row} (stored : row ∈ noonOrDusk.events.rows)
    (passes : rowFilter Host.sample twoWriters noonOrDusk ownClaims row = true) :
    row = rowOf noonClaim true 2000 := by
  rcases List.mem_pair.mp stored with rfl | rfl
  · rfl
  · exact absurd passes (by decide)

theorem not_told_own : ¬ Told Host.sample twoWriters noonOrDusk ownClaims noonClaim.d := by
  rintro ⟨a, b, claimsA, claimsB, differ, passesA, passesB⟩
  rw [own_of_rowFilter claimsA.readable.1 passesA, own_of_rowFilter claimsB.readable.1 passesB] at differ
  exact differ rfl

theorem hit_own : Hit Host.sample (fun _ _ => "") twoWriters noonOrDusk ownClaims
    (rowOf noonClaim true 2000) where
  selected := mem_selected.mpr ⟨claims_noon.readable.1, Or.inr rfl, rfl, by decide, claims_noon.readable.2⟩
  shown := Or.inr rfl
  text := by
    obtain ⟨x, read⟩ := Option.isSome_iff_exists.mp (@readRow_sample (sampleKey 'a')
      "deploys run at noon" (sampleKey 'c') "deploy" 2000 2000 true (fun _ _ => "") noonOrDusk ownClaims
      rfl)
    exact ⟨x, read, rfl⟩

theorem answers_own : Answers Host.sample (fun _ _ => "") twoWriters noonOrDusk ownClaims where
  target := rfl
  reads row member := by
    obtain ⟨stored, -, -, passes, -⟩ := mem_selected.mp member
    rw [own_of_rowFilter stored passes]
    exact readRow_sample rfl
  searches _ _ _ _ _ := rfl

/-- A query for the owner's claims does not flag the claim that another author contradicts. -/
theorem unflagged_own : ∃ answer,
    query Host.sample (fun _ _ => "") twoWriters noonOrDusk ownClaims = some answer ∧
      ∃ shown ∈ answer.records, InConflict twoWriters noonOrDusk "" 3000 shown.item.row.d ∧
        shown.conflict = false := by
  obtain ⟨items, found, built, searched, answered⟩ := answers_own.built
  refine ⟨_, answered, ?_⟩
  obtain ⟨shown, member, row⟩ := (mem_page built searched kept_noonOrDusk).mpr
    ⟨hit_own, Nat.zero_le _, lt_of_le_of_lt List.countP_le_length (by decide)⟩
  refine ⟨shown, member, row ▸ inConflict_noonOrDusk, ?_⟩
  have flag := conflict_iff_told built searched kept_noonOrDusk member
  rw [row] at flag
  exact Bool.eq_false_iff.mpr fun flagged => not_told_own (flag.mp flagged)

/-- The condition fails for that query, and so do its flags. -/
theorem flags_iff_own : ¬ ∀ answer,
    query Host.sample (fun _ _ => "") twoWriters noonOrDusk ownClaims = some answer →
      ∀ shown ∈ answer.records, (shown.conflict = true ↔
        InConflict twoWriters noonOrDusk "" 3000 shown.item.row.d) := fun tells =>
  not_told_own ((flags_iff Host.sample (fun _ _ => "") twoWriters noonOrDusk ownClaims
    kept_noonOrDusk).1.mp tells answers_own _ hit_own (Nat.zero_le _)
      (lt_of_le_of_lt List.countP_le_length (by decide)) inConflict_noonOrDusk)

end Samples

end Nvoy.Store
