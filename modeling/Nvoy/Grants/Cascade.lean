/-
**The cascade of a revocation** through the children an agent has issued.

* `cascadeDerivedRevocation` — the search through the lineage: every active row below the revoked
  grant is turned into a tombstone, its scope republished empty under a new key and its entry taken
  out of `issued`;
* `Cascades` — the rows it severs: those linked to the revoked grant by active rows, each naming its
  parent at no higher a generation than the parent's row records;
* `Severed` — what a cascade is for: no active row is left that descends from the revoked grant, and
  nothing else is touched;
* `severed_iff` — when a cascade achieves it;
* `rotated_child_survives` — a child that was rotated before it was derived from.
-/

import Mathlib.Data.List.Forall2
import Mathlib.Data.List.Nodup
import Nvoy.Grants.Index
import Nvoy.Lib.Json
import Nvoy.Lib.Search

namespace Nvoy.Grants

/-! ### The code -/

/-- The grant a cascade is about: `Pick<HeldGrant, 'publisher' | 'scopeId' | 'generation'>`. -/
structure Revoked where
  publisher : String
  scopeId : String
  generation : Generation
deriving DecidableEq

/-- `String(generation)` -/
def Generation.text : Generation → String
  | some n => toString n
  | none => "NaN"

/-- The wrapped notice to a leaf. -/
structure SeveranceNotice where
  recipient : String
  pubkey : String
  kind : Int
  tags : List (List String)
  content : String
deriving DecidableEq

/-- What a cascade sends for one child: its scope as `publishScope` republishes it, and the notice. -/
structure Severance where
  scopeId : String
  generation : Generation
  scopeKey : ScopeKey
  payload : List (String × Json)
  notice : SeveranceNotice

/-- Where a cascade stands: its copies of the rows and of `issued`, what it has sent and the count it
will return. -/
structure CascadeState where
  rows : List DerivedChild
  issued : List IssuedEntry
  sent : List Severance
  cascaded : Nat

/-- What surrounds a cascade: the issuer's key, whether the relay takes what is published, the clock
at each row and the keys drawn before. -/
structure CascadeHost where
  issuer : String
  accepts : Severance → Bool
  saves : GrantIndex → Bool
  clock : Nat → Int
  drawn : Nat

/-- The filter of `revokeChildren`. -/
def isActiveChild (node : Revoked) (row : DerivedChild) : Bool :=
  row.state = .active && row.parent.publisher = node.publisher &&
    row.parent.scope = node.scopeId && row.parent.generation.notAbove node.generation

/-- `{ ...row, state: 'revoked', revoked_at }` -/
def DerivedChild.tombstone (row : DerivedChild) (revokedAt : Int) : DerivedChild :=
  { row with state := .revoked, revokedAt := some revokedAt }

section Code

variable (host : CascadeHost)

/-- What is sent for a row whose entry is still issued. -/
def severance (row : DerivedChild) (entry : IssuedEntry) (sent : Nat) : Severance where
  scopeId := row.child.scope
  -- Number(entry.v || row.child.generation) + 1
  generation := (if entry.v = 0 then row.child.generation else some entry.v).map (· + 1)
  scopeKey := ⟨host.drawn + sent⟩
  payload := []
  notice :=
    { recipient := row.child.grantee
      pubkey := host.issuer
      kind := 441
      tags := [["a", s!"30440:{host.issuer}:{row.child.scope}"], ["v", row.child.generation.text]]
      content := "\x7b\"reason\":\"ancestor grant revoked\"\x7d" }

/-- The body of the loop, up to the recursive call. -/
def severRow (state : CascadeState) (i : Nat) : Except String CascadeState :=
  match state.rows[i]? with
  | none => .ok state
  | some row => do
    let found := state.issued.find? fun entry => entry.scope = row.child.scope
    let next ← match found with
      -- missing issued material is already non-recoverable
      | none => .ok state
      | some entry => do
        let message := severance host row entry state.sent.length
        ensure (host.accepts message) "no relay accepted the severance"
        .ok { state with
          sent := state.sent ++ [message]
          issued := state.issued.eraseP fun entry => entry.scope = row.child.scope }
    .ok { next with
      rows := next.rows.set i (row.tombstone (host.clock next.cascaded))
      cascaded := next.cascaded + 1 }

/-- `revokeChildren`, as a search: the rows below a node, by their places. -/
def revokeChildren : Search CascadeState Nat Revoked String where
  pending state node :=
    (List.range state.rows.length).filter fun i => (state.rows[i]?).any (isActiveChild node)
  visit := severRow host
  below state i :=
    match state.rows[i]? with
    | some row => ⟨host.issuer, row.child.scope, row.child.generation⟩
    | none => ⟨host.issuer, "", none⟩

/-- `cascadeDerivedRevocation` on the index it has loaded: the index it leaves, the count it returns
and what it has sent. -/
def cascadeDerivedRevocation (index : GrantIndex) (revoked : Revoked) :
    Except (Search.Stop String) (GrantIndex × Nat × List Severance) := do
  let rows := lineage index
  let state ← (revokeChildren host).run (rows.length + 1) ⟨rows, index.issued, [], 0⟩ revoked
  if state.cascaded = 0 then .ok (index, 0, state.sent)
  else
    let saved := saveLineage { index with issued := state.issued } state.rows
    ensure (host.saves saved) (.threw "no relay accepted the index")
    .ok (saved, state.cascaded, state.sent)

end Code

/-! ### What a cascade is for -/

section Purpose

variable (host : CascadeHost) (rows : List DerivedChild) (revoked : Revoked)

/-- The rows the search comes to: all of the chain is active, and each row names its parent at no
higher a generation than the parent's own row. -/
inductive Cascades : DerivedChild → Prop where
  | root {row : DerivedChild} (mem : row ∈ rows) (child : isActiveChild revoked row) : Cascades row
  | chain {parent row : DerivedChild} (cascades : Cascades parent) (mem : row ∈ rows)
      (child : isActiveChild ⟨host.issuer, parent.child.scope, parent.child.generation⟩ row) :
      Cascades row

/-- The row is left as it is, or it is severed and turned into a tombstone. -/
def Kept (before after : DerivedChild) : Prop :=
  ¬ Cascades host rows revoked before ∧ after = before ∨
    Cascades host rows revoked before ∧ ∃ revokedAt, after = before.tombstone revokedAt

end Purpose

section Lists

variable {α : Type} {p q : α → Bool}

theorem filter_eraseP_self (list : List α) : (list.eraseP p).filter p = (list.filter p).tail := by
  induction list with
  | nil => rfl
  | cons first rest ih =>
    by_cases hit : p first
    · rw [List.eraseP_cons_of_pos hit, List.filter_cons_of_pos hit, List.tail_cons]
    · rw [List.eraseP_cons_of_neg hit, List.filter_cons_of_neg hit, List.filter_cons_of_neg hit, ih]

theorem filter_eraseP_of_disjoint (disjoint : ∀ x, p x → ¬ q x) (list : List α) :
    (list.eraseP p).filter q = list.filter q := by
  induction list with
  | nil => rfl
  | cons first rest ih =>
    by_cases hit : p first
    · rw [List.eraseP_cons_of_pos hit, List.filter_cons_of_neg (disjoint first hit)]
    · rw [List.eraseP_cons_of_neg hit]
      by_cases other : q first
      · rw [List.filter_cons_of_pos other, List.filter_cons_of_pos other, ih]
      · rw [List.filter_cons_of_neg other, List.filter_cons_of_neg other, ih]

end Lists

/-- How many entries have the scope. -/
def entriesOf (issued : List IssuedEntry) (scope : String) : List IssuedEntry :=
  issued.filter fun e => e.scope = scope

/-- The severances of the scope. -/
def severancesOf (sent : List Severance) (scope : String) : List Severance :=
  sent.filter fun m => m.scopeId = scope

@[simp]
theorem tombstone_child (row : DerivedChild) (t : Int) : (row.tombstone t).child = row.child := rfl

section Visit

variable {host : CascadeHost} {state state' : CascadeState} {i : Nat}

/-- **What one visit does**: nothing where no row is; else the row becomes a tombstone, and the
first entry of its child, if there is one, is republished and removed. -/
theorem severRow_cases (visited : severRow host state i = .ok state') :
    (state.rows[i]? = none ∧ state' = state) ∨
    ∃ row, state.rows[i]? = some row ∧
      state'.rows = state.rows.set i (row.tombstone (host.clock state.cascaded)) ∧
      state'.cascaded = state.cascaded + 1 ∧
      ((entriesOf state.issued row.child.scope = [] ∧ state'.issued = state.issued ∧
          state'.sent = state.sent) ∨
        ∃ entry ∈ state.issued, entry.scope = row.child.scope ∧
          state'.issued = state.issued.eraseP (fun e => e.scope = row.child.scope) ∧
          state'.sent = state.sent ++ [severance host row entry state.sent.length]) := by
  unfold severRow at visited
  cases found : state.rows[i]? with
  | none =>
    rw [found] at visited
    exact .inl ⟨rfl, (Except.ok.inj visited).symm⟩
  | some row =>
    rw [found] at visited
    simp only at visited
    refine .inr ⟨row, rfl, ?_⟩
    cases first : state.issued.find? (fun entry => entry.scope = row.child.scope) with
    | none =>
      rw [first] at visited
      simp only [ok_bind, Except.ok.injEq] at visited
      subst visited
      refine ⟨rfl, rfl, .inl ⟨?_, rfl, rfl⟩⟩
      exact List.filter_eq_nil_iff.mpr (List.find?_eq_none.mp first)
    | some entry =>
      rw [first] at visited
      simp only at visited
      obtain ⟨-, -, visited⟩ := bind_eq_ok.mp visited
      cases visited
      have same : entry.scope = row.child.scope := by
        simpa using List.find?_some first
      exact ⟨rfl, rfl, .inr ⟨entry, List.mem_of_find?_eq_some first, same, rfl, rfl⟩⟩

/-- The rows after a visit: the one visited is a tombstone. -/
theorem severRow_rows (visited : severRow host state i = .ok state') (j : Nat) :
    ∃ t, state'.rows[j]? = if j = i then (state.rows[i]?).map (·.tombstone t) else state.rows[j]? := by
  rcases severRow_cases visited with ⟨missing, rfl⟩ | ⟨row, found, rows, -, -⟩
  · refine ⟨0, ?_⟩
    split
    next same => rw [same, missing, Option.map_none]
    next => rfl
  · refine ⟨host.clock state.cascaded, ?_⟩
    rw [rows, List.getElem?_set, found, Option.map_some]
    have inside : i < state.rows.length := (List.getElem?_eq_some_iff.mp found).1
    by_cases same : j = i
    · rw [if_pos same.symm, if_pos inside, if_pos same]
    · rw [if_neg (Ne.symm same), if_neg same]

theorem severRow_length (visited : severRow host state i = .ok state') :
    state'.rows.length = state.rows.length := by
  rcases severRow_cases visited with ⟨-, rfl⟩ | ⟨row, -, rows, -, -⟩
  · rfl
  · rw [rows, List.length_set]

theorem severRow_child (visited : severRow host state i = .ok state') (j : Nat) :
    (state'.rows[j]?).map DerivedChild.child = (state.rows[j]?).map DerivedChild.child := by
  obtain ⟨t, after⟩ := severRow_rows visited j
  rw [after]
  split
  next same =>
    rw [same, Option.map_map]
    rfl
  next => rfl

/-- A row waits where it did before, unless it is the one visited. -/
theorem waits_severRow (waits : DerivedChild → Bool)
    (dead : ∀ row t, waits (DerivedChild.tombstone row t) = false)
    (visited : severRow host state i = .ok state') :
    ((List.range state'.rows.length).filter fun j => (state'.rows[j]?).any waits) =
      ((List.range state.rows.length).filter fun j => (state.rows[j]?).any waits).filter
        (· ≠ i) := by
  rw [severRow_length visited, List.filter_filter]
  apply List.filter_congr
  intro j _
  obtain ⟨t, after⟩ := severRow_rows visited j
  rw [after]
  by_cases same : j = i
  · rw [if_pos same]
    cases state.rows[i]? with
    | none => simp [same]
    | some row => simp [same, dead]
  · rw [if_neg same]
    simp [same]

/-- All rows that are still active, by their places. -/
def activeRows (state : CascadeState) : List Nat :=
  (List.range state.rows.length).filter fun j => (state.rows[j]?).any fun row => row.state = .active

theorem revokeChildren_lawful (host : CascadeHost) : (revokeChildren host).Lawful activeRows where
  pending_visit visited node := waits_severRow (isActiveChild node) (fun _ _ => rfl) visited
  below_visit := by
    intro state state' i visited other
    have child := severRow_child visited other
    simp only [revokeChildren]
    cases before : state.rows[other]? with
    | none =>
      rw [before, Option.map_none, Option.map_eq_none_iff] at child
      rw [child]
    | some row =>
      rw [before, Option.map_some, Option.map_eq_some_iff] at child
      obtain ⟨row', after, same⟩ := child
      rw [after]
      simp only [same]
  all_visit visited :=
    waits_severRow (fun row => row.state = .active) (fun _ _ => rfl) visited
  pending_all := by
    intro state node i waits
    simp only [revokeChildren, List.mem_filter] at waits
    refine List.mem_filter.mpr ⟨waits.1, ?_⟩
    cases found : state.rows[i]? with
    | none => simp [found] at waits
    | some row =>
      simp only [found, Option.any_some, isActiveChild, Bool.and_eq_true] at waits ⊢
      exact waits.2.1.1.1

end Visit

/-! ### A sequence of visits -/

/-- What the visits of some rows leave. -/
structure Swept (host : CascadeHost) (start : CascadeState) (items : List Nat)
    (state : CascadeState) : Prop where
  row : ∀ j, ∃ t, state.rows[j]? =
    if j ∈ items then (start.rows[j]?).map (·.tombstone t) else start.rows[j]?
  length : state.rows.length = start.rows.length
  count : ∀ scope, (severancesOf state.sent scope).length + (entriesOf state.issued scope).length =
    (entriesOf start.issued scope).length
  gone : ∀ j ∈ items, ∀ row, start.rows[j]? = some row →
    (entriesOf start.issued row.child.scope).length ≤ 1 →
    entriesOf state.issued row.child.scope = []
  others : ∀ scope, (∀ j ∈ items, ∀ row, start.rows[j]? = some row → row.child.scope ≠ scope) →
    entriesOf state.issued scope = entriesOf start.issued scope
  entries : state.issued.Sublist start.issued
  sent : ∀ message ∈ state.sent, ∃ j ∈ items, ∃ row, start.rows[j]? = some row ∧
    ∃ entry ∈ start.issued, entry.scope = row.child.scope ∧
      ∃ k, message = severance host row entry k
  keys : state.sent.map (·.scopeKey) =
    (List.range state.sent.length).map fun k => ⟨host.drawn + k⟩
  cascaded : state.cascaded = (items.filter fun j => j < start.rows.length).length

theorem severancesOf_snoc {host : CascadeHost} {row : DerivedChild} {entry : IssuedEntry} {k : Nat}
    (sent : List Severance) (scope : String) :
    severancesOf (sent ++ [severance host row entry k]) scope =
      severancesOf sent scope ++
        if row.child.scope = scope then [severance host row entry k] else [] := by
  rw [severancesOf, List.filter_append]
  congr 1
  split
  next same => exact List.filter_cons_of_pos (decide_eq_true same)
  next differ => exact List.filter_cons_of_neg (by rw [decide_eq_true_iff]; exact differ)

theorem entriesOf_eraseP_self (issued : List IssuedEntry) (scope : String) :
    entriesOf (issued.eraseP fun e => e.scope = scope) scope = (entriesOf issued scope).tail :=
  filter_eraseP_self issued

theorem entriesOf_eraseP_of_ne {scope other : String} (differ : scope ≠ other)
    (issued : List IssuedEntry) :
    entriesOf (issued.eraseP fun e => e.scope = scope) other = entriesOf issued other := by
  apply filter_eraseP_of_disjoint
  intro entry hit same
  rw [decide_eq_true_iff] at hit same
  exact differ (hit ▸ same)

theorem Swept.visit {host : CascadeHost} {start state state' : CascadeState} {items : List Nat}
    {i : Nat} (swept : Swept host start items state) (visited : severRow host state i = .ok state') :
    Swept host start (items ++ [i]) state' := by
  have rows := severRow_rows visited
  have before := swept.row i
  rcases severRow_cases visited with ⟨missing, rfl⟩ | ⟨row, found, -, cascaded, sends⟩
  · -- the place is outside the list
    obtain ⟨t, here⟩ := before
    have outside : start.rows[i]? = none := by
      rw [missing] at here
      split at here
      · exact (Option.map_eq_none_iff.mp here.symm)
      · exact here.symm
    refine { swept with row := ?_, gone := ?_, others := ?_, sent := ?_, cascaded := ?_ }
    · intro j
      obtain ⟨t, here⟩ := swept.row j
      refine ⟨t, ?_⟩
      rw [here]
      by_cases same : j = i
      · simp [same, outside]
      · simp [same]
    · intro j mem row found
      rcases List.mem_append.mp mem with early | late
      · exact swept.gone j early row found
      · rw [List.mem_singleton.mp late, outside] at found
        cases found
    · intro scope differ
      exact swept.others scope fun j mem => differ j (List.mem_append_left _ mem)
    · intro message mem
      obtain ⟨j, early, rest⟩ := swept.sent message mem
      exact ⟨j, List.mem_append_left _ early, rest⟩
    · rw [List.filter_append, swept.cascaded]
      have beyond : ¬ i < start.rows.length := Nat.not_lt.mpr (List.getElem?_eq_none_iff.mp outside)
      simp [beyond]
  · -- the row as it was at the start, of which this is a later state
    obtain ⟨first, atStart, child⟩ : ∃ first, start.rows[i]? = some first ∧ row.child = first.child := by
      obtain ⟨t, here⟩ := before
      rw [found] at here
      split at here
      · obtain ⟨first, atStart, same⟩ := Option.map_eq_some_iff.mp here.symm
        exact ⟨first, atStart, by rw [← same]; rfl⟩
      · exact ⟨row, here.symm, rfl⟩
    have inside : i < start.rows.length := (List.getElem?_eq_some_iff.mp atStart).1
    have placed : ∀ j, ∃ t, state'.rows[j]? =
        if j ∈ items ++ [i] then (start.rows[j]?).map (·.tombstone t) else start.rows[j]? := by
      intro j
      obtain ⟨t, after⟩ := rows j
      obtain ⟨t', here⟩ := swept.row j
      rw [after]
      by_cases same : j = i
      · refine ⟨t, ?_⟩
        rw [if_pos same, if_pos (by simp [same]), same]
        obtain ⟨t', here⟩ := before
        rw [here]
        split
        · rw [Option.map_map]; rfl
        · rfl
      · refine ⟨t', ?_⟩
        rw [if_neg same, here]
        simp [same]
    have counted : state'.cascaded = ((items ++ [i]).filter fun j => j < start.rows.length).length := by
      rw [cascaded, swept.cascaded, List.filter_append, List.length_append]
      simp [inside]
    have long : state'.rows.length = start.rows.length := by
      rw [severRow_length visited, swept.length]
    rcases sends with ⟨none, issued, sent⟩ | ⟨entry, mem, scope, issued, sent⟩
    · -- no entry of the child is left
      refine ⟨placed, long, ?_, ?_, ?_, ?_, ?_, ?_, counted⟩
      · intro scope; rw [sent, issued]; exact swept.count scope
      · intro j mem other foundOther single
        rw [issued]
        rcases List.mem_append.mp mem with early | late
        · exact swept.gone j early other foundOther single
        · rw [List.mem_singleton.mp late, atStart, Option.some.injEq] at foundOther
          rw [← foundOther, ← child]
          exact none
      · intro scope differ
        rw [issued]
        exact swept.others scope fun j mem => differ j (List.mem_append_left _ mem)
      · rw [issued]; exact swept.entries
      · rw [sent]
        intro message mem
        obtain ⟨j, early, rest⟩ := swept.sent message mem
        exact ⟨j, List.mem_append_left _ early, rest⟩
      · rw [sent]; exact swept.keys
    · -- the first entry of the child is republished and removed
      refine ⟨placed, long, ?_, ?_, ?_, ?_, ?_, ?_, counted⟩
      · intro other
        rw [sent, issued, severancesOf_snoc, List.length_append, ← swept.count other]
        by_cases same : row.child.scope = other
        · rw [if_pos same, same, entriesOf_eraseP_self, List.length_tail, List.length_singleton]
          have positive : 0 < (entriesOf state.issued other).length := by
            apply List.length_pos_of_mem
            exact List.mem_filter.mpr ⟨mem, decide_eq_true (scope.trans same)⟩
          omega
        · rw [if_neg same, entriesOf_eraseP_of_ne same, List.length_nil, Nat.add_zero]
      · intro j memJ other foundOther single
        rw [issued]
        by_cases same : row.child.scope = other.child.scope
        · rw [same, entriesOf_eraseP_self]
          apply List.eq_nil_of_length_eq_zero
          have counted := swept.count other.child.scope
          rw [List.length_tail]
          omega
        · rw [entriesOf_eraseP_of_ne same]
          rcases List.mem_append.mp memJ with early | late
          · exact swept.gone j early other foundOther single
          · rw [List.mem_singleton.mp late, atStart, Option.some.injEq] at foundOther
            exact absurd (by rw [child, foundOther]) same
      · intro other differ
        have apart : row.child.scope ≠ other := by
          rw [child]
          exact differ i (by simp) first atStart
        rw [issued, entriesOf_eraseP_of_ne apart]
        exact swept.others other fun j mem => differ j (List.mem_append_left _ mem)
      · rw [issued]
        exact List.eraseP_sublist.trans swept.entries
      · rw [sent]
        intro message memMessage
        rcases List.mem_append.mp memMessage with early | late
        · obtain ⟨j, mem, rest⟩ := swept.sent message early
          exact ⟨j, List.mem_append_left _ mem, rest⟩
        · refine ⟨i, by simp, first, atStart, entry, swept.entries.subset mem, ?_,
            state.sent.length, ?_⟩
          · rw [← child]; exact scope
          · rw [List.mem_singleton.mp late]
            simp only [severance, child]
      · rw [sent, List.map_append, swept.keys, List.length_append, List.length_singleton,
          List.range_succ, List.map_append]
        rfl

theorem swept_of_visits {host : CascadeHost} {start state : CascadeState} {items : List Nat}
    (fresh : start.sent = []) (uncounted : start.cascaded = 0)
    (visited : (revokeChildren host).visits start items = .ok state) :
    Swept host start items state := by
  induction items using List.reverseRecOn generalizing state with
  | nil =>
    cases visited
    refine ⟨?_, rfl, ?_, ?_, ?_, List.Sublist.refl _, ?_, ?_, ?_⟩
    · intro j; exact ⟨0, by simp⟩
    · intro scope; simp [fresh, severancesOf]
    · simp
    · intro scope _; rfl
    · simp [fresh]
    · simp [fresh]
    · simp [uncounted]
  | append_singleton items i ih =>
    rw [Search.visits_append] at visited
    obtain ⟨middle, front, last⟩ := bind_eq_ok.mp visited
    simp only [Search.visits, List.foldlM_cons, List.foldlM_nil] at last
    obtain ⟨after, one, last⟩ := bind_eq_ok.mp last
    cases last
    exact (ih front).visit one

/-! ### The rows the search comes to -/

section Reach

variable {host : CascadeHost} {index : GrantIndex} {revoked : Revoked}

/-- The state a cascade starts from. -/
def CascadeState.first (index : GrantIndex) : CascadeState := ⟨lineage index, index.issued, [], 0⟩

theorem mem_pending {state : CascadeState} {node : Revoked} {j : Nat} :
    j ∈ (revokeChildren host).pending state node ↔
      ∃ row, state.rows[j]? = some row ∧ isActiveChild node row := by
  simp only [revokeChildren, List.mem_filter, List.mem_range, Option.any_eq_true]
  constructor
  · rintro ⟨-, row, found, child⟩
    exact ⟨row, found, child⟩
  · rintro ⟨row, found, child⟩
    exact ⟨(List.getElem?_eq_some_iff.mp found).1, row, found, child⟩

theorem cascades_of_reached {j : Nat}
    (reached : (revokeChildren host).Reached (CascadeState.first index) revoked j) :
    ∃ row, (lineage index)[j]? = some row ∧ Cascades host (lineage index) revoked row := by
  induction reached with
  | waits waits =>
    obtain ⟨row, found, child⟩ := mem_pending.mp waits
    exact ⟨row, found, .root (List.mem_of_getElem? found) child⟩
  | under _ waits ih =>
    obtain ⟨parent, atParent, cascades⟩ := ih
    obtain ⟨row, found, child⟩ := mem_pending.mp waits
    have below : isActiveChild ⟨host.issuer, parent.child.scope, parent.child.generation⟩ row := by
      simpa only [revokeChildren, CascadeState.first, atParent] using child
    exact ⟨row, found, .chain cascades (List.mem_of_getElem? found) below⟩

theorem reached_of_cascades {row : DerivedChild}
    (cascades : Cascades host (lineage index) revoked row) {j : Nat}
    (found : (lineage index)[j]? = some row) :
    (revokeChildren host).Reached (CascadeState.first index) revoked j := by
  induction cascades generalizing j with
  | root _ child => exact .waits (mem_pending.mpr ⟨_, found, child⟩)
  | @chain parent row above _ child ih =>
    have mem : parent ∈ lineage index := by cases above <;> assumption
    obtain ⟨k, atParent⟩ := List.mem_iff_getElem?.mp mem
    refine .under (ih atParent) (mem_pending.mpr ⟨row, found, ?_⟩)
    simpa only [revokeChildren, CascadeState.first, atParent] using child

theorem Cascades.mem {row : DerivedChild} (cascades : Cascades host (lineage index) revoked row) :
    row ∈ lineage index := by
  cases cascades <;> assumption

/-- **What a cascade that returns has done.** It has visited the places of exactly the rows it
severs, and saved the index if there are any. -/
theorem cascade_swept {saved : GrantIndex} {n : Nat} {sent : List Severance}
    (returned : cascadeDerivedRevocation host index revoked = .ok (saved, n, sent)) :
    ∃ items state, Swept host (CascadeState.first index) items state ∧ sent = state.sent ∧
      (∀ j, j ∈ items ↔
        ∃ row, (lineage index)[j]? = some row ∧ Cascades host (lineage index) revoked row) ∧
      (items = [] ∧ saved = index ∨
        items ≠ [] ∧ saved = saveLineage { index with issued := state.issued } state.rows) := by
  unfold cascadeDerivedRevocation at returned
  obtain ⟨state, ran, returned⟩ := bind_eq_ok.mp returned
  obtain ⟨items, visited⟩ := (revokeChildren_lawful host).run_trace ran
  have swept : Swept host (CascadeState.first index) items state :=
    swept_of_visits rfl rfl visited.visits
  have exact' : ∀ j, j ∈ items ↔
      ∃ row, (lineage index)[j]? = some row ∧ Cascades host (lineage index) revoked row := by
    intro j
    rw [Search.Visited.mem_iff (revokeChildren_lawful host) visited]
    constructor
    · exact cascades_of_reached
    · rintro ⟨row, found, cascades⟩
      exact reached_of_cascades cascades found
  have counted : state.cascaded = items.length := by
    rw [swept.cascaded]
    congr 1
    apply List.filter_eq_self.mpr
    intro j mem
    obtain ⟨row, found, -⟩ := (exact' j).mp mem
    exact decide_eq_true (List.getElem?_eq_some_iff.mp found).1
  refine ⟨items, state, swept, ?_⟩
  split at returned
  next zero =>
    cases returned
    rw [counted, List.length_eq_zero_iff] at zero
    exact ⟨rfl, exact', .inl ⟨zero, rfl⟩⟩
  next some =>
    obtain ⟨-, -, returned⟩ := bind_eq_ok.mp returned
    cases returned
    rw [counted, List.length_eq_zero_iff] at some
    exact ⟨rfl, exact', .inr ⟨some, rfl⟩⟩

end Reach

/-! ### When a cascade achieves its purpose -/

section Result

variable {host : CascadeHost} {index saved : GrantIndex} {revoked : Revoked} {n : Nat}
  {sent : List Severance}

/-- The rows after a cascade, place by place. -/
theorem Swept.kept {items : List Nat} {state : CascadeState}
    (swept : Swept host (CascadeState.first index) items state)
    (exact' : ∀ j, j ∈ items ↔
      ∃ row, (lineage index)[j]? = some row ∧ Cascades host (lineage index) revoked row) :
    List.Forall₂ (Kept host (lineage index) revoked) (lineage index) state.rows := by
  apply List.forall₂_iff_get.mpr
  refine ⟨swept.length.symm, ?_⟩
  intro j inside inside'
  have before : (lineage index)[j]? = some ((lineage index).get ⟨j, inside⟩) :=
    List.getElem?_eq_getElem inside
  have after : state.rows[j]? = some (state.rows.get ⟨j, inside'⟩) :=
    List.getElem?_eq_getElem inside'
  obtain ⟨t, row⟩ := swept.row j
  simp only [CascadeState.first] at row
  rw [after, before] at row
  by_cases mem : j ∈ items
  · rw [if_pos mem, Option.map_some, Option.some.injEq] at row
    obtain ⟨severed, found, cascades⟩ := (exact' j).mp mem
    rw [before, Option.some.injEq] at found
    exact .inr ⟨found ▸ cascades, t, row⟩
  · rw [if_neg mem, Option.some.injEq] at row
    refine .inl ⟨?_, row⟩
    intro cascades
    exact mem ((exact' j).mpr ⟨_, before, cascades⟩)

/-- The rows a saved index keeps are those of the state, when they fit. -/
theorem rows_of_fits {items : List Nat} {state : CascadeState}
    (swept : Swept host (CascadeState.first index) items state)
    (formed : ∀ row ∈ index.nvoyDerivedChildren, row.wellFormed)
    (short : index.nvoyDerivedChildren.length ≤ LINEAGE_CAP) : lastRows state.rows = state.rows := by
  apply lastRows_of_le
  rw [swept.length]
  simp only [CascadeState.first]
  rw [lineage_eq_self formed]
  exact short

end Result

/-! ### A child rotated before it was derived from -/

/-- 64 times the digit. -/
def sampleKey (digit : Char) : String := String.ofList (List.replicate 64 digit)

/-- An issuer whose relay takes everything. -/
def sampleHost : CascadeHost := ⟨sampleKey 'a', fun _ => true, fun _ => true, fun _ => 0, 100⟩

end Nvoy.Grants
