/-
**The plaintext cache of a runtime** (`ScopeCache` of `scopes.ts`), over every scope it reads.

A read waits at the relay between its lookup and its entry, and the others run meanwhile. What is scrubbed
is dropped: no entry shares its data with another.

* `hit`, `fetchScope` — a read that the cache answers, and one that it does not;
* `step` — `read`, its fetch, `zeroize`, `invalidate`, `clear` and the sweep;
* `Forgets` — nothing is held or answered of a scope but what a fetch brought that started after its last
  `zeroize` or `clear`, and nothing is answered beyond its age;
* `forgets_iff` — so it is in every state of a run just where no fetch that was under way at a `zeroize`
  or `clear` brings back its scope;
* `relinquished_again` — a read under way at the `zeroize` puts the plaintext back.
-/

import Nvoy.Grants.Served

namespace Nvoy.Grants.Scopes

open Runs (run Meets)
open Served (Formed tagNumber)

/-- A grant whose address is of parts between colons. -/
abbrev ScopeGrant := {g : Served.HeldGrant // Formed g}

/-- The scoped data set that a query answers. -/
structure ScopeEvent where
  tags : List (List String)
  content : String

/-- `Number(event.tags.find(t => t[0] === 'v')?.[1] ?? 0)` -/
def ScopeEvent.generation (event : ScopeEvent) : JsNumber :=
  ((event.tags.find? fun t => t[0]? = some "v").bind (·[1]?)).elim (.finite 0) tagNumber

inductive ScopeFetchResult (D : Type) where
  | missing
  | stale (generation : JsNumber)
  | ok (generation : JsNumber) (data : D)

/-- The data of a fetch whose status is `ok`. -/
structure ScopeReadResult (D : Type) where
  generation : JsNumber
  data : D
  /-- Unix seconds. -/
  fetchedAt : Int

structure CacheEntry (D : Type) where
  /-- `at`, in milliseconds -/
  stored : Int
  result : ScopeReadResult D

/-- A fetch that completed with `ok`: which it was, for what, and when. -/
structure Landing (D : Type) where
  id : Nat
  grant : ScopeGrant
  landed : Int
  result : ScopeReadResult D

/-- The fetch was one of that scope. -/
def Landing.Of {D : Type} (l : Landing D) (g : ScopeGrant) : Prop :=
  l.grant.1.publisher = g.1.publisher ∧ l.grant.1.scope = g.1.scope

/-- The cache, the fetches by their number, and what they and the erasures did. -/
structure State (D : Type) where
  entries : JsMap String (CacheEntry D)
  /-- Every fetch that was started; `none` once it has ended. -/
  fetches : List (Option ScopeGrant)
  landings : List (Landing D)
  /-- How many fetches were started before the last `zeroize` or `clear` of a key. -/
  erased : String → Nat

def State.start {D : Type} : State D := ⟨.empty, [], [], fun _ => 0⟩

inductive Action where
  | read (g : ScopeGrant) (maxAgeSec : Option ℚ) (now : Int)
  /-- A query is answered; the grant's key is what its bytes are by then. -/
  | fetched (id : Nat) (event : Option ScopeEvent) (scopeKey : List UInt8) (now : Int)
  | fails (id : Nat)
  | zeroize (publisher scopeId : String)
  | invalidate (publisher scopeId : String)
  | clear
  | sweep (now : Int)

section Cache

variable {D : Type} (symDecrypt : String → List UInt8 → Option D) (ttlMs : ℚ)

/-- What `fetchScope` makes of an answer. -/
def fetchScope (event : Option ScopeEvent) (generation : JsNumber) (scopeKey : List UInt8) : ScopeFetchResult D :=
  match event with
  | none => .missing
  | some event =>
    if JsNumber.lt generation event.generation then .stale event.generation
    else
      match symDecrypt event.content scopeKey with
      | some data => .ok event.generation data
      -- MAC failure: a wrong key
      | none => .stale event.generation

def maxAgeMs (maxAgeSec : Option ℚ) : ℚ := (maxAgeSec.map (· * 1000)).getD ttlMs

/-- What a read answers from the cache. -/
def hit (entries : JsMap String (CacheEntry D)) (g : Served.HeldGrant) (maxAgeSec : Option ℚ) (now : Int) :
    Option (ScopeReadResult D) :=
  (entries.get g.key).bind fun hit =>
    if 0 < maxAgeMs ttlMs maxAgeSec ∧ ((now - hit.stored : Int) : ℚ) < min (maxAgeMs ttlMs maxAgeSec) ttlMs then
      some hit.result
    else none

/-- `read`, up to the relay. -/
def State.read (st : State D) (g : ScopeGrant) (maxAgeSec : Option ℚ) (now : Int) : State D :=
  match hit ttlMs st.entries g.1 maxAgeSec now with
  | some _ => st
  | none => { st with fetches := st.fetches ++ [some g] }

/-- `read`, from the relay on. -/
def State.fetched (st : State D) (id : Nat) (event : Option ScopeEvent) (scopeKey : List UInt8) (now : Int) :
    State D :=
  match st.fetches[id]? with
  | some (some g) =>
    let fetches := st.fetches.set id none
    match fetchScope symDecrypt event g.1.generation scopeKey with
    | .ok generation data =>
      let result : ScopeReadResult D := ⟨generation, data, now / 1000⟩
      { st with
        fetches := fetches
        entries := st.entries.set g.1.key ⟨now, result⟩
        landings := st.landings ++ [⟨id, g, now, result⟩] }
    -- failed reads are never cached; drop any prior plaintext
    | _ => { st with fetches := fetches, entries := st.entries.delete g.1.key }
  | _ => st

def step (st : State D) : Action → State D
  | .read g maxAgeSec now => st.read ttlMs g maxAgeSec now
  | .fetched id event scopeKey now => st.fetched symDecrypt id event scopeKey now
  | .fails id => { st with fetches := st.fetches.set id none }
  | .zeroize publisher scopeId =>
    let key := publisher ++ ":" ++ scopeId
    { st with
      entries := st.entries.delete key
      erased := Function.update st.erased key st.fetches.length }
  | .invalidate publisher scopeId => { st with entries := st.entries.delete (publisher ++ ":" ++ scopeId) }
  | .clear => { st with entries := .empty, erased := fun _ => st.fetches.length }
  | .sweep now => { st with entries := st.entries.filter fun _ entry => ¬(entry.stored : ℚ) < now - ttlMs }

/-- What is said of every state: what is held or answered of a scope was brought by a fetch of it that
started after its last erasure, and what is answered is within its age. -/
structure Forgets (st : State D) : Prop where
  held : ∀ g : ScopeGrant, (st.entries.get g.1.key).isSome = true →
    ∃ l ∈ st.landings, l.Of g ∧ st.erased g.1.key ≤ l.id
  answered : ∀ (g : ScopeGrant) (maxAgeSec : Option ℚ) (now : Int) (result : ScopeReadResult D),
    hit ttlMs st.entries g.1 maxAgeSec now = some result →
      (∃ l ∈ st.landings, l.Of g ∧ st.erased g.1.key ≤ l.id) ∧
        ∃ l ∈ st.landings, l.Of g ∧ l.result = result ∧
          ((now - l.landed : Int) : ℚ) < min (maxAgeMs ttlMs maxAgeSec) ttlMs

/-- A fetch that completes with `ok` was started after the last erasure of its scope, or another of that
scope that was has completed with `ok` before. -/
def InTime (st : State D) : Action → Prop
  | .fetched id event scopeKey _ => ∀ g generation data, st.fetches[id]? = some (some g) →
      fetchScope symDecrypt event g.1.generation scopeKey = .ok generation data →
        st.erased g.1.key ≤ id ∨ ∃ l ∈ st.landings, l.Of g ∧ st.erased g.1.key ≤ l.id
  | _ => True

end Cache

section Runs

variable {D : Type} {symDecrypt : String → List UInt8 → Option D} {ttlMs : ℚ} {st : State D}
  {entries : JsMap String (CacheEntry D)} {g : ScopeGrant} {maxAgeSec : Option ℚ} {now : Int}
  {result : ScopeReadResult D}

/-- Two grants of one key are of one scope. -/
theorem of_key {l : Landing D} (same : l.grant.1.key = g.1.key) : l.Of g := by
  have chars := congrArg String.toList same
  simp only [Served.HeldGrant.key, String.toList_append, List.append_assoc] at chars
  obtain ⟨publisher, scope⟩ := Lines.append_separator_inj ':' g.2.publisher g.2.scope chars
  exact ⟨String.toList_inj.mp publisher, String.toList_inj.mp scope⟩

theorem key_of {l : Landing D} (same : l.Of g) : l.grant.1.key = g.1.key := by
  unfold Served.HeldGrant.key
  rw [same.1, same.2]

/-- What a read answers is an entry within its age. -/
theorem hit_eq_some : hit ttlMs entries g.1 maxAgeSec now = some result ↔
    ∃ entry, entries.get g.1.key = some entry ∧ entry.result = result ∧ 0 < maxAgeMs ttlMs maxAgeSec ∧
      ((now - entry.stored : Int) : ℚ) < min (maxAgeMs ttlMs maxAgeSec) ttlMs := by
  unfold hit
  rw [Option.bind_eq_some_iff]
  refine exists_congr fun entry => and_congr_right fun _ => ?_
  constructor
  · intro answered
    obtain ⟨fresh, same⟩ := Option.ite_none_right_eq_some.mp answered
    exact ⟨Option.some_inj.mp same, fresh⟩
  · rintro ⟨rfl, fresh⟩
    exact if_pos fresh

/-- Every entry is what a fetch of its key brought. -/
def Brought (st : State D) : Prop :=
  ∀ key entry, st.entries.get key = some entry →
    ∃ l ∈ st.landings, l.grant.1.key = key ∧ l.result = entry.result ∧ l.landed = entry.stored

/-- And that fetch, or another of the key, started after its last erasure. -/
def Kept (st : State D) : Prop :=
  ∀ key, (st.entries.get key).isSome = true →
    ∃ l ∈ st.landings, l.grant.1.key = key ∧ st.erased key ≤ l.id

theorem Brought.of_sub {other : State D} (brought : Brought st)
    (sub : ∀ key entry, other.entries.get key = some entry → st.entries.get key = some entry)
    (landings : other.landings = st.landings) : Brought other := by
  intro key entry there
  rw [landings]
  exact brought key entry (sub key entry there)

theorem Kept.of_sub {other : State D} (kept : Kept st)
    (sub : ∀ key, (other.entries.get key).isSome = true →
      (st.entries.get key).isSome = true ∧ other.erased key = st.erased key)
    (landings : other.landings = st.landings) : Kept other := by
  intro key there
  obtain ⟨before, erased⟩ := sub key there
  rw [landings, erased]
  exact kept key before

theorem get_delete_some {key other : String} {entry : CacheEntry D}
    (there : (entries.delete key).get other = some entry) : other ≠ key ∧ entries.get other = some entry := by
  rw [JsMap.get_delete] at there
  split at there
  · cases there
  · exact ⟨‹_›, there⟩

theorem get_filter_some {keep : String → CacheEntry D → Bool} {key : String} {entry : CacheEntry D}
    (there : (entries.filter keep).get key = some entry) : entries.get key = some entry := by
  rw [JsMap.get_filter] at there
  exact (Option.filter_eq_some_iff.mp there).1

/-- A lookup changes no entry. -/
theorem read_frame (st : State D) : (st.read ttlMs g maxAgeSec now).entries = st.entries ∧
    (st.read ttlMs g maxAgeSec now).landings = st.landings ∧
      (st.read ttlMs g maxAgeSec now).erased = st.erased := by
  unfold State.read
  split
  · exact ⟨rfl, rfl, rfl⟩
  · exact ⟨rfl, rfl, rfl⟩

/-- **What a fetch leaves**: what it brought, or nothing of its scope, or everything as it was. -/
theorem fetched_cases (st : State D) (id : Nat) (event : Option ScopeEvent) (scopeKey : List UInt8) (now : Int) :
    let next := st.fetched symDecrypt id event scopeKey now
    (∃ g generation data, st.fetches[id]? = some (some g) ∧
        fetchScope symDecrypt event g.1.generation scopeKey = .ok generation data ∧
        next.entries = st.entries.set g.1.key ⟨now, generation, data, now / 1000⟩ ∧
        next.landings = st.landings ++ [⟨id, g, now, generation, data, now / 1000⟩] ∧ next.erased = st.erased) ∨
      (∃ key, next.entries = st.entries.delete key ∧ next.landings = st.landings ∧ next.erased = st.erased) ∨
      next = st := by
  dsimp only
  unfold State.fetched
  cases flies : st.fetches[id]? with
  | none => exact .inr (.inr rfl)
  | some fetch =>
    cases fetch with
    | none => exact .inr (.inr rfl)
    | some g =>
      dsimp only
      cases fetched : fetchScope symDecrypt event g.1.generation scopeKey with
      | ok generation data => exact .inl ⟨g, generation, data, rfl, fetched, rfl, rfl, rfl⟩
      | missing => exact .inr (.inl ⟨_, rfl, rfl, rfl⟩)
      | stale generation => exact .inr (.inl ⟨_, rfl, rfl, rfl⟩)

/-- **The step**: what is held was brought by a fetch. -/
theorem brought_step (st : State D) (action : Action) (brought : Brought st) :
    Brought (step symDecrypt ttlMs st action) := by
  cases action with
  | read g maxAgeSec now =>
    obtain ⟨entries, landings, -⟩ := read_frame (g := g) st
    exact brought.of_sub (fun key entry there => entries ▸ there) landings
  | fetched id event scopeKey now =>
    obtain ⟨g, generation, data, -, -, entries, landings, -⟩ | ⟨key, entries, landings, -⟩ | same :=
      fetched_cases st id event scopeKey now
    · intro key entry there
      show ∃ l ∈ (st.fetched symDecrypt id event scopeKey now).landings, _
      rw [landings]
      replace there : (st.fetched symDecrypt id event scopeKey now).entries.get key = some entry := there
      rw [entries, JsMap.get_set] at there
      split at there
      case isTrue own =>
        obtain rfl := Option.some_inj.mp there
        exact ⟨_, List.mem_append_right _ (List.mem_singleton_self _), own.symm, rfl, rfl⟩
      case isFalse =>
        obtain ⟨l, member, rest⟩ := brought key entry there
        exact ⟨l, List.mem_append_left _ member, rest⟩
    · exact brought.of_sub (fun key entry there => (get_delete_some (entries ▸ there)).2) landings
    · exact brought.of_sub (fun key entry there => same ▸ there) (congrArg State.landings same)
  | fails id => exact brought
  | zeroize publisher scopeId => exact brought.of_sub (fun key entry there => (get_delete_some there).2) rfl
  | invalidate publisher scopeId => exact brought.of_sub (fun key entry there => (get_delete_some there).2) rfl
  | clear => exact fun key entry there => by cases there
  | sweep now => exact brought.of_sub (fun key entry there => get_filter_some there) rfl

/-- **The step**: nothing erased comes back, where a fetch lands in time. -/
theorem kept_step (st : State D) (action : Action) (kept : Kept st) (inTime : InTime symDecrypt st action) :
    Kept (step symDecrypt ttlMs st action) := by
  have deleted : ∀ {key other : String}, ((st.entries.delete key).get other).isSome = true →
      other ≠ key ∧ (st.entries.get other).isSome = true := by
    intro key other there
    obtain ⟨entry, there⟩ := Option.isSome_iff_exists.mp there
    obtain ⟨apart, there⟩ := get_delete_some there
    exact ⟨apart, Option.isSome_iff_exists.mpr ⟨entry, there⟩⟩
  cases action with
  | read g maxAgeSec now =>
    obtain ⟨entries, landings, erased⟩ :=
      read_frame (g := g) st
    exact kept.of_sub (fun key there => ⟨entries ▸ there, congrFun erased key⟩) landings
  | fetched id event scopeKey now =>
    obtain ⟨g, generation, data, flies, fetched, entries, landings, erased⟩ | ⟨key, entries, landings, erased⟩ | same :=
      fetched_cases st id event scopeKey now
    · intro key there
      show ∃ l ∈ (st.fetched symDecrypt id event scopeKey now).landings,
        _ ∧ (st.fetched symDecrypt id event scopeKey now).erased key ≤ l.id
      rw [landings, erased]
      by_cases own : key = g.1.key
      · subst own
        rcases inTime g generation data flies fetched with later | ⟨l, member, same, later⟩
        · exact ⟨_, List.mem_append_right _ (List.mem_singleton_self _), rfl, later⟩
        · exact ⟨l, List.mem_append_left _ member, key_of same, later⟩
      · replace there : ((st.fetched symDecrypt id event scopeKey now).entries.get key).isSome = true := there
        rw [entries, JsMap.get_set, if_neg own] at there
        obtain ⟨l, member, rest⟩ := kept key there
        exact ⟨l, List.mem_append_left _ member, rest⟩
    · exact kept.of_sub (fun key there => ⟨(deleted (entries ▸ there)).2, congrFun erased key⟩) landings
    · exact kept.of_sub (fun key there => ⟨same ▸ there, congrFun (congrArg State.erased same) key⟩)
        (congrArg State.landings same)
  | fails id => exact kept
  | zeroize publisher scopeId =>
    exact kept.of_sub (fun key there => ⟨(deleted there).2, Function.update_of_ne (deleted there).1 _ _⟩) rfl
  | invalidate publisher scopeId => exact kept.of_sub (fun key there => ⟨(deleted there).2, rfl⟩) rfl
  | clear => exact fun key there => nomatch there
  | sweep now =>
    refine kept.of_sub (fun key there => ⟨?_, rfl⟩) rfl
    obtain ⟨entry, there⟩ := Option.isSome_iff_exists.mp there
    exact Option.isSome_iff_exists.mpr ⟨entry, get_filter_some there⟩

/-- A step that brings nothing erased back lands in time. -/
theorem inTime_of_kept (st : State D) (action : Action) (kept : Kept (step symDecrypt ttlMs st action)) :
    InTime symDecrypt st action := by
  cases action with
  | fetched id event scopeKey now =>
    intro g generation data flies fetched
    have after : step symDecrypt ttlMs st (.fetched id event scopeKey now) =
        { st with
          fetches := st.fetches.set id none
          entries := st.entries.set g.1.key ⟨now, ⟨generation, data, now / 1000⟩⟩
          landings := st.landings ++ [⟨id, g, now, ⟨generation, data, now / 1000⟩⟩] } := by
      show st.fetched symDecrypt id event scopeKey now = _
      unfold State.fetched
      rw [flies]
      dsimp only
      rw [fetched]
    rw [after] at kept
    obtain ⟨l, member, own, later⟩ := kept g.1.key (by rw [JsMap.get_set, if_pos rfl]; rfl)
    rcases List.mem_append.mp member with before | last
    · exact .inr ⟨l, before, of_key own, later⟩
    · obtain rfl := List.mem_singleton.mp last
      exact .inl later
  | read g maxAgeSec now => trivial
  | fails id => trivial
  | zeroize publisher scopeId => trivial
  | invalidate publisher scopeId => trivial
  | clear => trivial
  | sweep now => trivial

theorem Brought.forgetful_iff (brought : Brought st) : Forgets ttlMs st ↔ Kept st := by
  constructor
  · intro forgets key there
    obtain ⟨entry, held⟩ := Option.isSome_iff_exists.mp there
    obtain ⟨l, -, rfl, -⟩ := brought key entry held
    obtain ⟨own, member, same, later⟩ := forgets.held l.grant there
    exact ⟨own, member, key_of same, later⟩
  · intro kept
    have held : ∀ g : ScopeGrant, (st.entries.get g.1.key).isSome = true →
        ∃ l ∈ st.landings, l.Of g ∧ st.erased g.1.key ≤ l.id := by
      intro g there
      obtain ⟨l, member, own, later⟩ := kept _ there
      exact ⟨l, member, of_key own, later⟩
    refine ⟨held, fun g maxAgeSec now result answered => ?_⟩
    obtain ⟨entry, there, rfl, -, fresh⟩ := hit_eq_some.mp answered
    obtain ⟨l, member, own, same, stored⟩ := brought _ entry there
    refine ⟨held g (Option.isSome_iff_exists.mpr ⟨entry, there⟩), l, member, of_key own, same, ?_⟩
    rw [stored]
    exact fresh

theorem brought_start : Brought (State.start : State D) := fun _ _ there => nomatch there

theorem kept_start : Kept (State.start : State D) := fun _ there => nomatch there

end Runs

/-- **Zeroized plaintext stays away just where no fetch brings it back**: in every state of a run nothing is held
or answered of a scope but what was fetched since its last `zeroize` or `clear`, and within its age, if and only
if every fetch that completes with `ok` was started after the last erasure of its scope, or after another that
was. -/
theorem forgets_iff {D : Type} (symDecrypt : String → List UInt8 → Option D) (ttlMs : ℚ) (actions : List Action) :
    (∀ reached, reached <+: actions → Forgets ttlMs (run (step symDecrypt ttlMs) .start reached)) ↔
      Meets (step symDecrypt ttlMs) (InTime symDecrypt) .start actions := by
  have brought : ∀ reached, Brought (run (step symDecrypt ttlMs) .start reached) :=
    Runs.run_keeps brought_step brought_start
  constructor
  · intro forgets
    exact Runs.meets_of_prefixes (fun st action _ kept => inTime_of_kept st action kept)
      fun reached front => (brought reached).forgetful_iff.mp (forgets reached front)
  · rintro meets reached ⟨rest, rfl⟩
    exact (brought reached).forgetful_iff.mpr (meets.of_append.keeps kept_step kept_start)

/-! ### A relinquished scope -/

def sampleGrant : ScopeGrant :=
  ⟨Served.sampleGrant (.finite 1), ⟨by decide, by decide⟩⟩

/-- The read waits at the relay, the scope is zeroized, and the query is answered. -/
def relinquishedRun : List Action :=
  [.read sampleGrant none 0, .zeroize "a" "s", .fetched 0 (some ⟨[["v", "1"]], "secret"⟩) [1, 2, 3] 500]

/-- The plaintext of the sample, for its key. -/
def sampleDecrypt (content : String) (scopeKey : List UInt8) : Option String :=
  if scopeKey = [1, 2, 3] then some content else none

theorem relinquishedRun_eq : run (step sampleDecrypt 60000) .start relinquishedRun =
    ⟨JsMap.empty.set "a:s" ⟨500, .finite 1, "secret", 0⟩, [none],
      [⟨0, sampleGrant, 500, .finite 1, "secret", 0⟩], Function.update (fun _ => 0) "a:s" 1⟩ := by
  have generation : ScopeEvent.generation ⟨[["v", "1"]], "secret"⟩ = .finite 1 := Served.tagNumber_one
  have current : JsNumber.lt (.finite 1) (.finite 1) = false := by simp [JsNumber.lt, JsNumber.finite]
  have fetched : fetchScope sampleDecrypt (some ⟨[["v", "1"]], "secret"⟩) sampleGrant.1.generation [1, 2, 3] =
      .ok (.finite 1) "secret" := by
    unfold fetchScope
    dsimp only
    rw [generation, show sampleGrant.1.generation = .finite 1 from rfl, current]
    rfl
  have waits : run (step sampleDecrypt 60000) .start (relinquishedRun.take 2) =
      ⟨(JsMap.empty : JsMap String (CacheEntry String)).delete "a:s", [some sampleGrant], [],
        Function.update (fun _ => 0) "a:s" 1⟩ := rfl
  have last : run (step sampleDecrypt 60000) .start relinquishedRun =
      (run (step sampleDecrypt 60000) .start (relinquishedRun.take 2)).fetched sampleDecrypt 0
        (some ⟨[["v", "1"]], "secret"⟩) [1, 2, 3] 500 := rfl
  rw [last, waits]
  unfold State.fetched
  dsimp only [List.getElem?_cons_zero]
  rw [fetched]
  rfl

/-- **A read under way puts the plaintext back**: it is held, and the next read is answered with it. -/
theorem relinquished_again :
    let st := run (step sampleDecrypt 60000) .start relinquishedRun
    hit 60000 st.entries sampleGrant.1 none 1000 = some ⟨.finite 1, "secret", 0⟩ ∧ ¬ Forgets 60000 st := by
  rw [relinquishedRun_eq]
  refine ⟨?_, fun forgets => ?_⟩
  · refine hit_eq_some.mpr ⟨_, rfl, rfl, ?_, ?_⟩
    · norm_num [maxAgeMs]
    · norm_num [maxAgeMs]
  · obtain ⟨l, member, -, later⟩ := forgets.held sampleGrant rfl
    obtain rfl := List.mem_singleton.mp member
    exact absurd later (by decide)

end Nvoy.Grants.Scopes
