/-
**What a reader learns of the rows it may not read.**

* `Alike` — two stores that a reader cannot tell apart: it reads the same rows and links, the same
  claims replace them, and the targets of its query are hidden in both or in neither;
* `consolidatedBy_alike` — a row's verdict is the same: `#consolidatedBy` looks over all rows, and what
  it finds for a row is the newest claim that replaces it;
* `query_same`, `wake_same` — the answers to a query are the same, and so are the items of a wake;
* `AuthorsStand`, `alike_of_stand` — a claim replaces a row of its own scope, so a reader of the row may
  read it as well, unless the author of the claim has left the scope since;
* `query_unseen` — where none has, what a reader may not read does not show.
-/

import Nvoy.Store.Conflict
import Nvoy.Store.FactKeys

namespace Nvoy.Store

open Memory

/-! ### Two stores -/

/-- The claim replaces the row, as the join of `#consolidatedBy` has it. -/
structure Replaces (db : Database) (nowSec : Int) (row claim : Row) : Prop where
  stored : claim ∈ db.events.rows
  target : row ∈ db.events.rows
  link : ⟨claim.id, "supersedes", row.id⟩ ∈ db.links
  consolidates : consolidates nowSec claim row = true

/-- What the reader reads, and what replaces it. -/
structure Alike (config : Config) (readerPubkey : String) (nowSec : Int) (db db' : Database) : Prop where
  rows : ∀ row, Readable config db readerPubkey row ↔ Readable config db' readerPubkey row
  links : ∀ row, Readable config db readerPubkey row → ∀ relation target,
    ⟨row.id, relation, target⟩ ∈ db.links ↔ ⟨row.id, relation, target⟩ ∈ db'.links
  replaced : ∀ row, Readable config db readerPubkey row → ∀ claim,
    Replaces db nowSec row claim ↔ Replaces db' nowSec row claim

/-- The targets that a query names are hidden in both stores or in neither. -/
def TargetsAlike (config : Config) (args : QueryArgs) (db db' : Database) : Prop :=
  ∀ target, args.linkedTo = some target ∨ args.supersedesOf = some target →
    targetHidden config db args.readerPubkey target = targetHidden config db' args.readerPubkey target

section Verdicts

variable {config : Config} {readerPubkey : String} {nowSec : Int} {db db' : Database} {row claim : Row}

theorem Alike.symm (alike : Alike config readerPubkey nowSec db db') :
    Alike config readerPubkey nowSec db' db where
  rows row := (alike.rows row).symm
  links row readable relation target := (alike.links row ((alike.rows row).mpr readable) relation target).symm
  replaced row readable claim := (alike.replaced row ((alike.rows row).mpr readable) claim).symm

/-! ### The claim that replaces a row -/

/-- The row is a workflow checkpoint. -/
def isCheckpoint (row : Row) : Bool := (parseFactKey row.d).any fun key => isWorkflowSlug key.slug

/-- The order of the join: the newest claim first, then the lower id. -/
def newer (a b : Row × Row) : Prop :=
  b.1.createdAt < a.1.createdAt ∨ (b.1.createdAt = a.1.createdAt ∧ a.1.id ≤ b.1.id)

instance : DecidableRel newer := fun _ _ => instDecidableOr

theorem mem_consolidations : (claim, row) ∈ consolidations db nowSec ↔ Replaces db nowSec row claim := by
  rw [consolidations, List.mem_insertionSort, List.mem_filterMap]
  constructor
  · rintro ⟨⟨fromId, relation, target⟩, listed, joined⟩
    dsimp only at joined
    split at joined
    next c s found found' =>
      split_ifs at joined with holds
      obtain ⟨rfl, rfl⟩ := Prod.mk.inj (Option.some_inj.mp joined)
      obtain ⟨rfl, consolidates⟩ := holds
      obtain ⟨stored, rfl⟩ := Events.find_eq_some.mp found
      obtain ⟨stored', rfl⟩ := Events.find_eq_some.mp found'
      exact ⟨stored, stored', listed, consolidates⟩
    next => cases joined
  · rintro ⟨stored, stored', listed, consolidates⟩
    refine ⟨_, listed, ?_⟩
    simp only [Events.find_eq_some.mpr ⟨stored, rfl⟩, Events.find_eq_some.mpr ⟨stored', rfl⟩, consolidates, and_self,
      if_true]

theorem consolidations_sorted : (consolidations db nowSec).Pairwise newer := by
  have : Std.Total newer := by
    refine ⟨fun a b => ?_⟩
    unfold newer
    rcases lt_trichotomy a.1.createdAt b.1.createdAt with older | same | later
    · exact .inr (.inl older)
    · exact (le_total a.1.id b.1.id).imp (fun ids => .inr ⟨same.symm, ids⟩) fun ids => .inr ⟨same, ids⟩
    · exact .inl (.inl later)
  have : IsTrans (Row × Row) newer := by
    refine ⟨fun a b c ab bc => ?_⟩
    unfold newer at *
    rcases ab with ab | ⟨ab, ids⟩ <;> rcases bc with bc | ⟨bc, ids'⟩
    · exact .inl (bc.trans ab)
    · exact .inl (bc ▸ ab)
    · exact .inl (ab ▸ bc)
    · exact .inr ⟨bc.trans ab, ids.trans ids'⟩
  exact List.pairwise_insertionSort newer _

/-- What the loop has entered for a row: the first pair of it that is a checkpoint. -/
theorem get_consolidated (pairs : List (Row × Row)) (out : JsMap String String) (id : String) :
    (pairs.foldl (fun out pair =>
      if !out.has pair.2.id && (parseFactKey pair.2.d).any fun key => isWorkflowSlug key.slug then
        out.set pair.2.id pair.1.id
      else out) out).get id =
    (out.get id).or ((pairs.find? fun pair => pair.2.id = id && isCheckpoint pair.2).map (·.1.id)) := by
  induction pairs generalizing out with
  | nil => simp
  | cons pair rest ih =>
      rw [List.foldl_cons, ih]
      by_cases here : pair.2.id = id
      · subst here
        cases checkpoint : isCheckpoint pair.2 with
        | false =>
            rw [isCheckpoint] at checkpoint
            rw [checkpoint, Bool.and_false, if_neg Bool.false_ne_true, List.find?_cons_of_neg]
            simp [isCheckpoint, checkpoint]
        | true =>
            rw [List.find?_cons_of_pos (by simp [checkpoint])]
            rw [isCheckpoint] at checkpoint
            rw [checkpoint, Bool.and_true, JsMap.has_eq_isSome]
            cases entered : out.get pair.2.id with
            | none => simp
            | some found => simp [entered]
      · rw [List.find?_cons_of_neg (by simp [here])]
        split_ifs
        · rw [JsMap.get_set, if_neg (Ne.symm here)]
        · rfl

theorem newer_first {pairs : List (Row × Row)} (sorted : pairs.Pairwise newer) {keep : Row × Row → Bool}
    {first pair : Row × Row} (found : pairs.find? keep = some first) (member : pair ∈ pairs)
    (kept : keep pair = true) : newer first pair := by
  obtain ⟨-, before, after, rfl, earlier⟩ := List.find?_eq_some_iff_append.mp found
  obtain ⟨-, sorted', -⟩ := List.pairwise_append.mp sorted
  rcases List.mem_append.mp member with inside | inside
  · have := earlier pair inside
    simp [kept] at this
  · rcases List.mem_cons.mp inside with rfl | later
    · exact .inr ⟨rfl, le_rfl⟩
    · exact (List.pairwise_cons.mp sorted').1 pair later

/-- What is first in two sorted lists is told by what they hold. -/
theorem find?_newer {pairs others : List (Row × Row)} (sorted : pairs.Pairwise newer)
    (sorted' : others.Pairwise newer) {keep : Row × Row → Bool}
    (same : ∀ pair, keep pair = true → (pair ∈ pairs ↔ pair ∈ others)) :
    (pairs.find? keep).map (·.1.id) = (others.find? keep).map (·.1.id) := by
  cases found : pairs.find? keep with
  | none =>
      rw [List.find?_eq_none] at found
      have none' : others.find? keep = none :=
        List.find?_eq_none.mpr fun pair member kept => found pair ((same pair kept).mpr member) kept
      rw [none']
  | some first =>
      have kept := List.find?_some found
      have member := (same first kept).mp (List.mem_of_find?_eq_some found)
      cases found' : others.find? keep with
      | none => exact absurd kept (List.find?_eq_none.mp found' first member)
      | some first' =>
          have kept' := List.find?_some found'
          have ahead := newer_first sorted found ((same first' kept').mpr (List.mem_of_find?_eq_some found')) kept'
          have ahead' := newer_first sorted' found' member kept
          refine congrArg some ?_
          unfold newer at ahead ahead'
          rcases ahead with late | ⟨same, ids⟩ <;> rcases ahead' with late' | ⟨same', ids'⟩
          · omega
          · omega
          · omega
          · exact le_antisymm ids ids'

/-- **What replaces a row is the same.** -/
theorem consolidatedBy_alike (alike : Alike config readerPubkey nowSec db db')
    (readable : Readable config db readerPubkey row) :
    (consolidatedBy db nowSec).get row.id = (consolidatedBy db' nowSec).get row.id := by
  have readable' := (alike.rows row).mp readable
  unfold consolidatedBy
  rw [get_consolidated, get_consolidated]
  refine congrArg (Option.or _) (find?_newer consolidations_sorted consolidations_sorted fun pair kept => ?_)
  have own : pair.2.id = row.id := by simpa using (Bool.and_eq_true_iff.mp kept).1
  obtain ⟨claim, target⟩ := pair
  rw [mem_consolidations, mem_consolidations]
  constructor
  · intro replaces
    obtain rfl := Events.eq_of_id replaces.target readable.1 own
    exact (alike.replaced _ readable claim).mp replaces
  · intro replaces
    obtain rfl := Events.eq_of_id replaces.target readable'.1 own
    exact (alike.replaced _ readable claim).mpr replaces

end Verdicts

/-! ### The rows of a query -/

section Rows

variable {host : Host} {numberText : Int → Int → String} {config : Config} {db db' : Database} {args : QueryArgs}
  {row : Row} {items found : List Item}

theorem TargetsAlike.symm (targets : TargetsAlike config args db db') : TargetsAlike config args db' db :=
  fun target named => (targets target named).symm

theorem mem_of_nonEmpty {text : Option String} {value : String} (named : nonEmpty text = some value) :
    text = some value := (Option.filter_eq_some_iff.mp named).1

theorem lineage_alike (alike : Alike config args.readerPubkey args.nowSec db db')
    (targets : TargetsAlike config args db db') {start : String} (named : args.supersedesOf = some start)
    (id : String) :
    (lineage config db args.readerPubkey start).has id = (lineage config db' args.readerPubkey start).has id := by
  unfold lineage
  rw [targets start (.inr named)]
  split_ifs
  · rfl
  · rw [Bool.eq_iff_iff, JsSet.has_iff, JsSet.has_iff, JsSet.mem_toFinset, JsSet.mem_toFinset]
    refine Levels.mem_levels_congr fun target id => ?_
    rw [mem_readableEdge, mem_readableEdge]
    refine exists_congr fun row => ⟨?_, ?_⟩
    · rintro ⟨readable, same, link⟩
      exact ⟨(alike.rows row).mp readable, same, (alike.links row readable _ _).mp link⟩
    · rintro ⟨readable, same, link⟩
      have readable' := (alike.rows row).mpr readable
      exact ⟨readable', same, (alike.links row readable' _ _).mpr link⟩

theorem rowFilter_alike (alike : Alike config args.readerPubkey args.nowSec db db')
    (targets : TargetsAlike config args db db') (readable : Readable config db args.readerPubkey row) :
    rowFilter host config db args row = rowFilter host config db' args row := by
  have linked : ∀ target, (db.links.any fun link => link.fromId = row.id ∧ link.target = target) =
      db'.links.any fun link => link.fromId = row.id ∧ link.target = target := by
    intro target
    rw [Bool.eq_iff_iff, List.any_eq_true, List.any_eq_true]
    constructor
    all_goals
      rintro ⟨⟨fromId, relation, aim⟩, listed, goes⟩
      obtain ⟨rfl, rfl⟩ := of_decide_eq_true goes
      refine ⟨⟨row.id, relation, aim⟩, ?_, goes⟩
    · exact (alike.links row readable _ _).mp listed
    · exact (alike.links row readable _ _).mpr listed
  have superseding : ((nonEmpty args.supersedesOf).all fun start =>
      (lineage config db args.readerPubkey start).has row.id) =
      (nonEmpty args.supersedesOf).all fun start => (lineage config db' args.readerPubkey start).has row.id := by
    cases named : nonEmpty args.supersedesOf with
    | none => rfl
    | some start => exact lineage_alike alike targets (mem_of_nonEmpty named) row.id
  unfold rowFilter
  rw [superseding]
  simp only [linked]

theorem selected_alike (alike : Alike config args.readerPubkey args.nowSec db db')
    (targets : TargetsAlike config args db db') :
    (selected host config db args).Perm (selected host config db' args) := by
  refine (List.perm_ext_iff_of_nodup (db.events.nodup_id.of_map.filter _)
    (db'.events.nodup_id.of_map.filter _)).mpr fun row => ?_
  change row ∈ selected host config db args ↔ row ∈ selected host config db' args
  rw [mem_selected, mem_selected]
  constructor
  · rintro ⟨stored, shown, keyed, filtered, readable⟩
    have here : Readable config db args.readerPubkey row := ⟨stored, readable⟩
    exact ⟨((alike.rows row).mp here).1, shown, keyed, rowFilter_alike alike targets here ▸ filtered, readable⟩
  · rintro ⟨stored, shown, keyed, filtered, readable⟩
    have here : Readable config db args.readerPubkey row := (alike.rows row).mpr ⟨stored, readable⟩
    exact ⟨here.1, shown, keyed, rowFilter_alike alike targets here ▸ filtered, readable⟩

theorem itemOf_congr {consolidated consolidated' : JsMap String String} {nowSec : Int} {staleFiles : JsSet String}
    (same : consolidated.get row.id = consolidated'.get row.id) :
    itemOf numberText consolidated nowSec staleFiles row =
      itemOf numberText consolidated' nowSec staleFiles row := by
  unfold itemOf verdictOf rankOf verificationOf
  rw [JsMap.has_eq_isSome, JsMap.has_eq_isSome, same]

theorem readRow_alike (alike : Alike config args.readerPubkey args.nowSec db db')
    (readable : Readable config db args.readerPubkey row) :
    readRow numberText db args row = readRow numberText db' args row :=
  itemOf_congr (consolidatedBy_alike alike readable)

theorem itemsOf_alike (alike : Alike config args.readerPubkey args.nowSec db db')
    (targets : TargetsAlike config args db db') (built : itemsOf host numberText config db args = some items) :
    ∃ items', itemsOf host numberText config db' args = some items' ∧ items'.Perm items := by
  obtain ⟨reads, rfl⟩ := itemsOf_eq_some.mp built
  have rows : (selected host config db args).Perm (selected host config db' args) := selected_alike alike targets
  have same : ∀ row ∈ selected host config db args,
      readRow numberText db args row = readRow numberText db' args row :=
    fun row member => readRow_alike alike ⟨(mem_selected.mp member).1, (mem_selected.mp member).2.2.2.2⟩
  refine ⟨_, itemsOf_eq_some.mpr ⟨fun row member => ?_, rfl⟩, ?_⟩
  · have member' := rows.mem_iff.mpr member
    rw [← same row member']
    exact reads row member'
  · rw [List.filterMap_congr same]
    exact (rows.symm.filterMap _).filter _

theorem matched_perm {items' : List Item} (perm : items'.Perm items)
    (searched : matched host numberText args items = some found) :
    ∃ found', matched host numberText args items' = some found' ∧ found'.Perm found := by
  obtain ⟨all, rfl⟩ := matched_eq_some.mp searched
  exact ⟨_, matched_eq_some.mpr ⟨fun x member => all x (perm.mem_iff.mp member), rfl⟩, perm.filter _⟩

/-! ### The page -/

theorem isConflict_perm {claims claims' : List Item} (perm : claims'.Perm claims) :
    isConflict claims' = isConflict claims := by
  funext d
  rw [Bool.eq_iff_iff, isConflict_iff, isConflict_iff]
  simp only [perm.mem_iff]

theorem sorted_perm {claims claims' found' : List Item} (same : isConflict claims' = isConflict claims)
    (perm : found'.Perm found) (distinct : ∀ x ∈ found, ∀ y ∈ found, x.row.id = y.row.id → x = y) :
    sorted claims' found' = sorted claims found := by
  have keys : orderOf claims' = orderOf claims := by
    funext x
    rw [orderOf, orderOf, same]
  have : Std.Total fun a b : Item => orderOf claims a ≤ orderOf claims b := ⟨fun a b => le_total _ _⟩
  have : IsTrans Item fun a b => orderOf claims a ≤ orderOf claims b := ⟨fun _ _ _ => le_trans⟩
  have ordered : ∀ l, (sorted claims l).Pairwise fun a b => orderOf claims a ≤ orderOf claims b :=
    fun l => List.pairwise_insertionSort _ l
  have listed : ∀ l, (sorted claims l).Perm l := fun l => List.perm_insertionSort _ l
  rw [show sorted claims' found' = sorted claims found' by rw [sorted, sorted, keys]]
  refine StableSort.eq_of_perm (ordered found) (ordered found') ?_
    (((listed found').trans perm).trans (listed found).symm)
  intro x memberX y memberY le ge
  have tied := congrArg (fun place : Bool ×ₗ Nat ×ₗ Int ×ₗ String => (ofLex (ofLex (ofLex place).2).2).2)
    (le_antisymm le ge)
  exact distinct x ((listed found).mem_iff.mp memberX) y ((listed found).mem_iff.mp memberY) tied

theorem page_perm {claims claims' found' : List Item} (claimed : claims'.Perm claims) (perm : found'.Perm found)
    (distinct : ∀ x ∈ found, ∀ y ∈ found, x.row.id = y.row.id → x = y) :
    Answer.page args claims' found' = Answer.page args claims found := by
  have same := isConflict_perm claimed
  have none : (found' = []) = (found = []) := by
    rw [← List.length_eq_zero_iff, ← List.length_eq_zero_iff, perm.length_eq]
  unfold Answer.page
  rw [sorted_perm same perm distinct, perm.length_eq, same]
  simp only [none]

theorem distinct_found (built : itemsOf host numberText config db args = some items)
    (searched : matched host numberText args items = some found) :
    ∀ x ∈ found, ∀ y ∈ found, x.row.id = y.row.id → x = y := by
  intro x memberX y memberY same
  obtain ⟨row, readX, hitX⟩ := (mem_found built searched).mp memberX
  obtain ⟨other, readY, hitY⟩ := (mem_found built searched).mp memberY
  rw [(readFrom_of_itemOf readX).row_eq, (readFrom_of_itemOf readY).row_eq] at same
  obtain rfl := Events.eq_of_id (mem_selected.mp hitX.selected).1 (mem_selected.mp hitY.selected).1 same
  exact Option.some.inj (readX.symm.trans readY)

/-- **The answers are the same**: the records, their order and their flags, and every count. -/
theorem query_same (alike : Alike config args.readerPubkey args.nowSec db db')
    (targets : TargetsAlike config args db db') :
    query host numberText config db args = query host numberText config db' args := by
  have hidden : (nonEmpty args.linkedTo).any (targetHidden config db args.readerPubkey) =
      (nonEmpty args.linkedTo).any (targetHidden config db' args.readerPubkey) := by
    cases named : nonEmpty args.linkedTo with
    | none => rfl
    | some target => exact targets target (.inl (mem_of_nonEmpty named))
  unfold query
  rw [hidden]
  refine ite_congr rfl (fun _ => rfl) fun _ => ?_
  cases built : itemsOf host numberText config db args with
  | none =>
      cases built' : itemsOf host numberText config db' args with
      | none => rfl
      | some items' =>
          obtain ⟨items, built₀, -⟩ := itemsOf_alike alike.symm targets.symm built'
          cases built.symm.trans built₀
  | some items =>
      obtain ⟨items', built', perm⟩ := itemsOf_alike alike targets built
      rw [built']
      simp only [Option.bind_eq_bind, Option.bind_some]
      cases searched : matched host numberText args items with
      | none =>
          cases searched' : matched host numberText args items' with
          | none => rfl
          | some found' =>
              obtain ⟨found, searched₀, -⟩ := matched_perm perm.symm searched'
              cases searched.symm.trans searched₀
      | some found =>
          obtain ⟨found', searched', perm'⟩ := matched_perm perm searched
          rw [searched']
          simp only [Option.bind_some]
          have claimed : (currentClaims items').Perm (currentClaims items) := perm.filter _
          rw [page_perm claimed perm' (distinct_found built searched)]

end Rows

/-! ### The items of a wake -/

section Wakes

variable {host : Host} {numberText : Int → Int → String} {config : Config} {db db' : Database} {args : WakeArgs}
  {items : List Item}

theorem activeRows_alike (alike : Alike config args.readerPubkey args.nowSec db db') :
    (activeRows config db args.readerPubkey args.nowSec).Perm
      (activeRows config db' args.readerPubkey args.nowSec) := by
  refine (List.perm_ext_iff_of_nodup (db.events.nodup_id.of_map.filter _)
    (db'.events.nodup_id.of_map.filter _)).mpr fun row => ?_
  simp only [List.mem_filter, Bool.and_eq_true]
  constructor
  · rintro ⟨stored, active, readable⟩
    exact ⟨((alike.rows row).mp ⟨stored, readable⟩).1, active, readable⟩
  · rintro ⟨stored, active, readable⟩
    exact ⟨((alike.rows row).mpr ⟨stored, readable⟩).1, active, readable⟩

/-- **The items of a wake are the same**, and so are the keys that it flags. -/
theorem wake_same (alike : Alike config args.readerPubkey args.nowSec db db')
    (built : wakeItems host numberText config db args = some items) :
    ∃ items', wakeItems host numberText config db' args = some items' ∧ items'.Perm items ∧
      isConflict (wakeClaims items') = isConflict (wakeClaims items) := by
  obtain ⟨reads, rfl⟩ := mapM_eq_some.mp built
  have rows := activeRows_alike alike
  have same : ∀ row ∈ activeRows config db args.readerPubkey args.nowSec,
      itemOf numberText (consolidatedBy db args.nowSec) args.nowSec args.staleFiles row =
        itemOf numberText (consolidatedBy db' args.nowSec) args.nowSec args.staleFiles row := by
    intro row member
    obtain ⟨stored, shown⟩ := List.mem_filter.mp member
    exact itemOf_congr (consolidatedBy_alike alike ⟨stored, (Bool.and_eq_true_iff.mp shown).2⟩)
  have perm := (rows.filter fun row => row.scopeType ≠ .room ||
    (nonEmpty args.roomId).all fun roomId => row.roomId = some (host.toLowerCase roomId)).symm
  refine ⟨_, mapM_eq_some.mpr ⟨fun row member => ?_, rfl⟩, ?_, ?_⟩
  · have member' := perm.mem_iff.mp member
    rw [← same row (List.mem_filter.mp member').1]
    exact reads row member'
  · rw [List.filterMap_congr fun row member => same row (List.mem_filter.mp member).1]
    exact perm.filterMap _
  · rw [List.filterMap_congr fun row member => same row (List.mem_filter.mp member).1]
    exact isConflict_perm ((perm.filterMap _).filter _)

end Wakes

/-! ### Authors who stand -/

/-- Some reader may read what replaces a row: its author is still one of the scope. -/
def AuthorsStand (config : Config) (nowSec : Int) (db : Database) : Prop :=
  ∀ row claim, Replaces db nowSec row claim → ∃ readerPubkey, canRead readerPubkey claim config = true

section Authors

variable {host : Host} {config : Config} {readerPubkey : String} {nowSec : Int} {db db' : Database}
  {row claim : Row}

/-- The scope of a row decides its type and its room. -/
theorem Derived.of_scope (kept : Derived host db) (stored : claim ∈ db.events.rows)
    (stored' : row ∈ db.events.rows)
    (same : claim.scope = row.scope) : claim.scopeType = row.scopeType ∧ claim.roomId = row.roomId := by
  obtain ⟨_, v, _, _, checkedA, rfl⟩ := kept claim stored
  obtain ⟨_, w, _, _, checkedB, rfl⟩ := kept row stored'
  obtain ⟨_, -, -, scope, read, scopeA, typeA, roomA⟩ := (checkEvent_eq_ok checkedA).2.2.parsed
  obtain ⟨_, -, -, scope', read', scopeB, typeB, roomB⟩ := (checkEvent_eq_ok checkedB).2.2.parsed
  have texts : scope.scope = scope'.scope := (scopeA.trans same).trans scopeB.symm
  have own := parseScope_scope (normal_of_parse read)
  rw [texts, parseScope_scope (normal_of_parse read')] at own
  obtain rfl := Option.some.inj own
  exact ⟨typeA.symm.trans typeB, roomA.symm.trans roomB⟩

/-- A reader of a row reads what replaces it, where any reader does. -/
theorem readable_of_replaces (kept : Derived host db) (readable : Readable config db readerPubkey row)
    (replaces : Replaces db nowSec row claim) {other : String} (stands : canRead other claim config = true) :
    Readable config db readerPubkey claim := by
  refine ⟨replaces.stored, ?_⟩
  have live := replaces.consolidates
  unfold consolidates at live
  simp only [Bool.and_eq_true, decide_eq_true_eq] at live
  obtain ⟨type, room⟩ := kept.of_scope replaces.stored readable.1 live.1.1.1.2
  have reads := readable.2
  unfold canRead at stands reads ⊢
  rw [type, room] at stands ⊢
  cases scopeType : row.scopeType with
  | hiveCanon =>
      rw [scopeType] at stands
      exact stands
  | hiveOps =>
      rw [scopeType] at stands
      exact stands
  | self =>
      rw [scopeType] at stands
      exact stands
  | room =>
      rw [scopeType] at stands reads
      dsimp only at stands reads ⊢
      cases found : row.roomId.bind config.rooms.get with
      | none =>
          rw [found] at stands
          exact stands
      | some room =>
          rw [found] at stands reads
          simp only [Bool.and_eq_true] at stands reads ⊢
          exact ⟨reads.1, stands.2⟩

/-- Where the authors stand, the rows and the links that are read tell what replaces them. -/
theorem alike_of_stand (kept : Derived host db) (kept' : Derived host db') (stand : AuthorsStand config nowSec db)
    (stand' : AuthorsStand config nowSec db')
    (rows : ∀ row, Readable config db readerPubkey row ↔ Readable config db' readerPubkey row)
    (links : ∀ row, Readable config db readerPubkey row → ∀ relation target,
      ⟨row.id, relation, target⟩ ∈ db.links ↔ ⟨row.id, relation, target⟩ ∈ db'.links) :
    Alike config readerPubkey nowSec db db' := by
  refine ⟨rows, links, fun row readable claim => ⟨fun replaces => ?_, fun replaces => ?_⟩⟩
  · obtain ⟨other, stands⟩ := stand row claim replaces
    have reads := readable_of_replaces kept readable replaces stands
    exact ⟨((rows claim).mp reads).1, ((rows row).mp readable).1, (links claim reads _ _).mp replaces.link,
      replaces.consolidates⟩
  · obtain ⟨other, stands⟩ := stand' row claim replaces
    have reads := (rows claim).mpr (readable_of_replaces kept' ((rows row).mp readable) replaces stands)
    exact ⟨reads.1, readable.1, (links claim reads _ _).mpr replaces.link, replaces.consolidates⟩

/-- **What a reader may not read does not show.** Of two stores of checked events, in which the author of
every claim that replaces another still stands, a reader that reads the same rows and links in both gets
the same answer to every query whose targets are hidden in both or in neither. -/
theorem query_unseen (numberText : Int → Int → String) (args : QueryArgs) (kept : Derived host db)
    (kept' : Derived host db') (stand : AuthorsStand config args.nowSec db)
    (stand' : AuthorsStand config args.nowSec db')
    (rows : ∀ row, Readable config db args.readerPubkey row ↔ Readable config db' args.readerPubkey row)
    (links : ∀ row, Readable config db args.readerPubkey row → ∀ relation target,
      ⟨row.id, relation, target⟩ ∈ db.links ↔ ⟨row.id, relation, target⟩ ∈ db'.links)
    (targets : TargetsAlike config args db db') :
    query host numberText config db args = query host numberText config db' args :=
  query_same (alike_of_stand kept kept' stand stand' rows links) targets

end Authors

section Samples

/-- The store without the claim of the other author. -/
def noonOnly : Database :=
  { noonOrDusk with events := ⟨[rowOf noonClaim true 2000], List.nodup_singleton _, by simp⟩ }

theorem readable_noon {row : Row} {events : Events}
    (only : ∀ row ∈ events.rows, row = rowOf noonClaim true 2000 ∨ row = rowOf duskClaim true 2000)
    (stored : rowOf noonClaim true 2000 ∈ events.rows) :
    Readable sampleConfig { noonOrDusk with events } "" row ↔ row = rowOf noonClaim true 2000 := by
  constructor
  · rintro ⟨member, readable⟩
    rcases only row member with noon | rfl
    · exact noon
    · exact absurd readable (by decide)
  · rintro rfl
    exact ⟨stored, by decide⟩

/-- Where another author may write no more, its claim does not show. -/
theorem dusk_unseen : query Host.sample (fun _ _ => "") sampleConfig noonOrDusk { nowSec := 3000 } =
    query Host.sample (fun _ _ => "") sampleConfig noonOnly { nowSec := 3000 } := by
  have kept : Derived Host.sample noonOnly := kept_noonOrDusk.of_subset fun row member => by
    rw [List.mem_singleton.mp member]
    exact List.mem_cons_self
  have before : ∀ row, Readable sampleConfig noonOrDusk "" row ↔ row = rowOf noonClaim true 2000 := fun _ =>
    readable_noon (fun _ member => List.mem_pair.mp member) List.mem_cons_self
  have after : ∀ row, Readable sampleConfig noonOnly "" row ↔ row = rowOf noonClaim true 2000 := fun _ =>
    readable_noon (fun _ member => .inl (List.mem_singleton.mp member)) List.mem_cons_self
  refine query_unseen _ _ kept_noonOrDusk kept ?_ ?_ (fun row => (before row).trans (after row).symm) ?_ ?_
  · exact fun row claim replaces => absurd replaces.link List.not_mem_nil
  · exact fun row claim replaces => absurd replaces.link List.not_mem_nil
  · exact fun row _ relation target => Iff.rfl
  · rintro target (named | named) <;> cases named

end Samples

end Nvoy.Store
