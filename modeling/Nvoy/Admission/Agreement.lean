/-
**Three readers of one grant**: the broker's fold, the holder's reader and the console.

Each parses the `expiration` and `e` tags by rules of its own, and only the broker asks whether a
revocation comes after the grant:

* `brokerLive_iff`, `heldActive_iff`, `consoleActive_iff` — what each verdict comes down to, for the
  one verified grant of its grantee and capability;
* `readers_agree` — the three verdicts are one exactly when the grant is `ReadAlike`;
* `malformed_expiration_differs` — an expiration that is no number ends the grant at the broker and
  nowhere else.
-/

import Nvoy.Admission.Capabilities
import Nvoy.Admission.Result
import Mathlib.Data.List.ReduceOption

namespace Nvoy.Admission

open StableSort
open Recent (filed)

section Readers

variable (host : Host) (npubEncode : String → String) (scopeHash : String → String → String)
  (me grantor : String) (now : Int) (events : List Event) (grantee cap : String) (g : Event)

/-- The options of the fold for one grantor. -/
def soleGrantor : FoldOptions := ⟨me, [grantor], scopeHash⟩

/-- The list is of one grantor, and this is its one verified grant of the capability to the grantee
that is scoped to the reader. -/
structure SoleGrant : Prop where
  oneGrantor : ∀ ev ∈ events, ev.pubkey = grantor
  sole : events.filter (fun ev =>
    grantOf host (soleGrantor scopeHash me grantor) ev = some (.task grantee cap)) = [g]

/-- What the relays answer, and what a verified id says: every relay lists what it has of the list
for a filter, the clients of the holder's reader pass verified events only, and a verified id is
the hash of everything but the signature. -/
structure Answered (relays : List String) (query : String → Filter → Option (List Event))
    (consoleQuery : Filter → List Event) : Prop where
  configured : ∃ url ∈ relays, Memory.trim url ≠ ""
  held : ∀ url filter, ∃ answer, query url filter = some answer ∧
    ∀ ev, ev ∈ answer ↔ ev ∈ events ∧ host.verifyEvent ev = true ∧ filter.admits ev = true
  console : ∀ filter ev, host.verifyEvent ev = true →
    (ev ∈ consoleQuery filter ↔ ev ∈ events ∧ filter.admits ev = true)
  hashed : ∀ a ∈ events, ∀ b ∈ events, host.verifyEvent a = true → host.verifyEvent b = true →
    a.id = b.id → { a with sig := "" } = { b with sig := "" }

/-! ### The verdicts -/

/-- The fold holds the grant live. -/
def BrokerLive : Prop :=
  ∃ entry, liveAt (foldGrantsWith host (soleGrantor scopeHash me grantor) now events).live
    grantee cap = some entry ∧ entry.grantId = g.id

/-- The holder's reader reports the grant active. -/
def HeldActive (relays : List String) (query : String → Filter → Option (List Event)) : Prop :=
  ∃ rows, (readHeldCapabilities host npubEncode grantee now relays query).capabilities = some rows ∧
    ∃ row ∈ rows, row.grantId = g.id ∧ row.status = .active

/-- The console shows the grant active. -/
def ConsoleActive (consoleQuery : Filter → List Event) : Prop :=
  ∃ row ∈ (readCapabilityGrants host grantor consoleQuery).rows,
    row.scope = g.id ∧ row.revoked = false

/-! ### The condition -/

/-- A verified 441 names the grant in any of its `e` tags. -/
def NamedBy (ev : Event) : Prop :=
  host.verifyEvent ev = true ∧ ev.kind = 441 ∧ g.id ∈ tagTexts ev "e"

/-- A verified 441 names the grant in its first `e` tag and comes after it in the order of the
fold. -/
def RevokedInOrder : Prop :=
  ∃ before after, sortBy Event.createdAt events = before ++ g :: after ∧
    ∃ ev ∈ after, host.verifyEvent ev = true ∧ ev.kind = 441 ∧ ev.tagValue "e" = some g.id

/-- The holder's reader lists the grant: a `p` tag is the grantee as it stands, and there is one
`da-cap`. -/
def ListedForHolder : Prop :=
  grantee ∈ tagTexts g "p" ∧ (tagTexts g "da-cap").length = 1

/-- The console lists the grant: its `a` tag, if any, names no data set. -/
def ListedInConsole : Prop := (g.tag "a").all fun tag => !namesDataSet (tag[1]?.getD "")

/-- All three rules come to one verdict. -/
structure ReadAlike : Prop where
  revoked : (∃ ev ∈ events, NamedBy host g ev) →
    grantExpired g now = true ∨ RevokedInOrder host events g
  standing : (¬∃ ev ∈ events, NamedBy host g ev) →
    (grantExpired g now = false ↔
      ListedForHolder grantee g ∧ (expiresAt g).any (· ≤ now) = false) ∧
    (grantExpired g now = false ↔ ListedInConsole g)

end Readers

/-! ### The one grant -/

section Verdicts

variable {host : Host} {npubEncode : String → String} {scopeHash : String → String → String}
  {me grantor : String} {now : Int} {events : List Event} {grantee cap : String} {g : Event}
  {relays : List String} {query : String → Filter → Option (List Event)}
  {consoleQuery : Filter → List Event}

theorem SoleGrant.mem (sole : SoleGrant host scopeHash me grantor events grantee cap g) :
    g ∈ events ∧
      grantOf host (soleGrantor scopeHash me grantor) g = some (.task grantee cap) := by
  have listed : g ∈ events.filter (fun ev =>
      grantOf host (soleGrantor scopeHash me grantor) ev = some (.task grantee cap)) := by
    rw [sole.sole]
    exact List.mem_singleton_self g
  simpa using listed

theorem SoleGrant.eq (sole : SoleGrant host scopeHash me grantor events grantee cap g)
    {ev : Event} (mem : ev ∈ events)
    (grant : grantOf host (soleGrantor scopeHash me grantor) ev = some (.task grantee cap)) :
    ev = g := by
  have listed : ev ∈ events.filter (fun ev =>
      grantOf host (soleGrantor scopeHash me grantor) ev = some (.task grantee cap)) :=
    List.mem_filter.mpr ⟨mem, by simpa using grant⟩
  rw [sole.sole] at listed
  exact List.mem_singleton.mp listed

theorem of_grantOf {opts : FoldOptions} {ev : Event} {grant : ReadGrant}
    (read : grantOf host opts ev = some grant) :
    Counts host opts ev ∧ ev.kind = 440 ∧
      readGrant host opts ev (host.toLowerCase ev.pubkey) = some grant := by
  unfold grantOf at read
  split at read
  next both => exact ⟨both.1, both.2, read⟩
  next => cases read

theorem SoleGrant.verified (sole : SoleGrant host scopeHash me grantor events grantee cap g) :
    host.verifyEvent g = true ∧ g.kind = 440 :=
  ⟨(of_grantOf sole.mem.2).1.2, (of_grantOf sole.mem.2).2.1⟩

theorem SoleGrant.counts (sole : SoleGrant host scopeHash me grantor events grantee cap g)
    {ev : Event} (mem : ev ∈ events) (verified : host.verifyEvent ev = true) :
    Counts host (soleGrantor scopeHash me grantor) ev := by
  refine ⟨?_, verified⟩
  rw [sole.oneGrantor ev mem]
  simp [isGrantor, soleGrantor]

/-- The fields that the readers read are those of the signed content. -/
theorem content_eq {a b : Event} (same : { a with sig := "" } = { b with sig := "" }) :
    a.id = b.id ∧ a.pubkey = b.pubkey ∧ a.createdAt = b.createdAt ∧ a.kind = b.kind ∧
      a.tags = b.tags := by
  simp only [Event.mk.injEq] at same
  exact ⟨same.1, same.2.1, same.2.2.1, same.2.2.2.1, same.2.2.2.2.1⟩

/-- A listed verified event with the grant's id is the grant. -/
theorem SoleGrant.eq_of_id (sole : SoleGrant host scopeHash me grantor events grantee cap g)
    (answered : Answered host events relays query consoleQuery) {ev : Event} (mem : ev ∈ events)
    (verified : host.verifyEvent ev = true) (same : ev.id = g.id) : ev = g := by
  obtain ⟨id, pubkey, createdAt, kind, tags⟩ :=
    content_eq (answered.hashed ev mem g sole.mem.1 verified sole.verified.1 same)
  refine sole.eq mem ?_
  have read := (of_grantOf sole.mem.2).2.2
  unfold grantOf
  rw [if_pos ⟨sole.counts mem verified, kind.trans sole.verified.2⟩, pubkey, ← read]
  unfold readGrant Event.tagValue Event.tag
  rw [tags]

/-! ### The broker -/

theorem task_of_sets {opts : FoldOptions} {ev : Event} {v : Entry}
    (set : (slots host opts now).sets ev = some (.task grantee cap, v)) :
    grantOf host opts ev = some (.task grantee cap) := by
  obtain ⟨grant, read, same⟩ := Option.map_eq_some_iff.mp set
  rw [read]
  have slot := (Prod.mk.inj same).1
  cases grant with
  | task =>
      cases slot
      rfl
  | shadow => cases slot
  | mention => cases slot

/-- In the order of the fold the grant stands once, and no other event sets its place. -/
theorem SoleGrant.split (sole : SoleGrant host scopeHash me grantor events grantee cap g) :
    ∃ before after, sortBy Event.createdAt events = before ++ g :: after ∧ g ∉ before ∧
      g ∉ after ∧ (slots host (soleGrantor scopeHash me grantor) now).Quiet (.task grantee cap)
        after := by
  let asks : Event → Bool := fun ev =>
    grantOf host (soleGrantor scopeHash me grantor) ev = some (.task grantee cap)
  have own : asks g = true := by simpa [asks] using sole.mem.2
  have perm := sortBy_perm Event.createdAt events
  obtain ⟨before, after, split⟩ := List.append_of_mem (perm.mem_iff.mpr sole.mem.1)
  have once : (before ++ g :: after).filter asks = [g] := by
    have same := perm.filter asks
    rw [split, show events.filter asks = [g] from sole.sole] at same
    exact List.perm_singleton.mp same
  rw [List.filter_append, List.filter_cons_of_pos own] at once
  have lengths := congrArg List.length once
  simp only [List.length_append, List.length_cons, List.length_nil] at lengths
  have front : before.filter asks = [] := List.eq_nil_of_length_eq_zero (by omega)
  have back : after.filter asks = [] := List.eq_nil_of_length_eq_zero (by omega)
  refine ⟨before, after, split, fun here => ?_, fun here => ?_, fun ev mem v set => ?_⟩
  · exact List.filter_eq_nil_iff.mp front g here own
  · exact List.filter_eq_nil_iff.mp back g here own
  · refine List.filter_eq_nil_iff.mp back ev mem ?_
    simpa [asks] using task_of_sets set

/-- What clears a grant that is not the event's own is a 441 that names it first. -/
theorem clears_iff (sole : SoleGrant host scopeHash me grantor events grantee cap g)
    (answered : Answered host events relays query consoleQuery) {ev : Event} (mem : ev ∈ events)
    (other : ev ≠ g) :
    (slots host (soleGrantor scopeHash me grantor) now).clears ev = some g.id ↔
      host.verifyEvent ev = true ∧ ev.kind = 441 ∧ ev.tagValue "e" = some g.id := by
  show clearsId host (soleGrantor scopeHash me grantor) now ev = some g.id ↔ _
  have filled : g.id ≠ "" := by
    intro empty
    have hex := host.verifyEvent_id sole.verified.1
    rw [empty] at hex
    exact absurd hex (by decide)
  unfold clearsId
  cases read : grantOf host (soleGrantor scopeHash me grantor) ev with
  | some grant =>
      obtain ⟨counts, kind, -⟩ := of_grantOf read
      constructor
      · intro clear
        simp only [Option.ite_none_right_eq_some] at clear
        exact absurd (sole.eq_of_id answered mem counts.2 (Option.some.inj clear.2)) other
      · rintro ⟨-, revocation, -⟩
        rw [kind] at revocation
        exact absurd revocation (by decide)
  | none =>
      simp only [revokes, Option.ite_none_right_eq_some, Option.filter_eq_some_iff]
      constructor
      · rintro ⟨⟨counts, kind⟩, named, -⟩
        exact ⟨counts.2, kind, named⟩
      · rintro ⟨verified, kind, named⟩
        exact ⟨⟨sole.counts mem verified, kind⟩, named, by simpa using filled⟩

/-- The place of the grant at the end of the fold. -/
theorem finalAt_iff (sole : SoleGrant host scopeHash me grantor events grantee cap g)
    (answered : Answered host events relays query consoleQuery) {entry : Grant} :
    finalAt host (soleGrantor scopeHash me grantor) now events (.task grantee cap) =
        some (.task entry) ↔
      entry = ⟨g.id, host.toLowerCase g.pubkey, cap, false⟩ ∧
        grantExpired g now = false ∧ ¬RevokedInOrder host events g := by
  obtain ⟨before, after, split, notBefore, notAfter, quiet⟩ :
      ∃ before after, sortBy Event.createdAt events = before ++ g :: after ∧ g ∉ before ∧
        g ∉ after ∧ (slots host (soleGrantor scopeHash me grantor) now).Quiet (.task grantee cap)
          after := sole.split
  have set : (slots host (soleGrantor scopeHash me grantor) now).sets g =
      some (.task grantee cap, .task ⟨g.id, host.toLowerCase g.pubkey, cap, false⟩) := by
    simp [slots, sole.mem.2, ReadGrant.slot, ReadGrant.entry]
  have own : (slots host (soleGrantor scopeHash me grantor) now).clears g ≠ some g.id ↔
      grantExpired g now = false := by
    show clearsId host (soleGrantor scopeHash me grantor) now g ≠ some g.id ↔ _
    rw [clearsId, sole.mem.2]
    cases grantExpired g now <;> simp
  have later : (∀ f ∈ after, (slots host (soleGrantor scopeHash me grantor) now).clears f ≠
      some g.id) ↔ ¬RevokedInOrder host events g := by
    have listed : ∀ f ∈ after, f ∈ events := fun f mem => by
      rw [← mem_sortBy Event.createdAt, split]
      exact List.mem_append_right _ (List.mem_cons_of_mem _ mem)
    have apart : ∀ f ∈ after, f ≠ g := fun f mem same => notAfter (same ▸ mem)
    constructor
    · rintro none ⟨before', after', split', ev, mem, revokes⟩
      rw [split, List.append_cons_inj_of_notMem] at split'
      · obtain ⟨-, -, rfl⟩ := split'
        exact none ev mem ((clears_iff sole answered (listed ev mem) (apart ev mem)).mpr revokes)
      · exact notBefore
      · exact notAfter
    · intro none f mem clears
      exact none ⟨before, after, split, f, mem,
        (clears_iff sole answered (listed f mem) (apart f mem)).mp clears⟩
  rw [finalAt, split, Registers.heldAt_last set quiet]
  constructor
  · rintro ⟨same, keeps, clear⟩
    cases same
    exact ⟨rfl, own.mp keeps, later.mp clear⟩
  · rintro ⟨rfl, fresh, standing⟩
    exact ⟨rfl, own.mpr fresh, later.mpr standing⟩

/-- **The broker's verdict.** -/
theorem brokerLive_iff (sole : SoleGrant host scopeHash me grantor events grantee cap g)
    (answered : Answered host events relays query consoleQuery) :
    BrokerLive host scopeHash me grantor now events grantee cap g ↔
      grantExpired g now = false ∧ ¬RevokedInOrder host events g := by
  constructor
  · rintro ⟨entry, live, id⟩
    rcases (liveAt_eq_some events).mp live with held | ⟨-, s, own, voiced, -, rfl⟩
    · exact ((finalAt_iff sole answered).mp held).2
    · -- A shadow has an id of its own.
      obtain ⟨ev, stands⟩ := Registers.heldAt_eq_some.mp voiced
      obtain ⟨grant, read, same⟩ := Option.map_eq_some_iff.mp stands.sets
      have mem := (mem_sortBy Event.createdAt).mp stands.mem
      have named : ev.id = s.grantId := by
        have entries := (Prod.mk.inj same).2
        have ids := congrArg Entry.grantId entries
        rwa [ReadGrant.entry_grantId] at ids
      have same' := sole.eq_of_id answered mem (of_grantOf read).1.2 (named.trans id)
      rw [same', sole.mem.2] at read
      cases read
      cases (Prod.mk.inj same).1
  · intro standing
    exact ⟨_, (liveAt_eq_some events).mpr (.inl ((finalAt_iff sole answered).mpr ⟨rfl, standing⟩)), rfl⟩

/-! ### The holder -/

theorem mem_readSet (answered : Answered host events relays query consoleQuery)
    {urls : List String} {filter : Filter} {ev : Event}
    (mem : ev ∈ (readSet urls filter query).events) :
    ev ∈ events ∧ host.verifyEvent ev = true ∧ filter.admits ev = true := by
  obtain ⟨answer, listed, here⟩ := List.mem_flatten.mp (Recent.of_mem_filed Event.id mem)
  obtain ⟨url, -, response⟩ := List.mem_filterMap.mp listed
  obtain ⟨answer', response', rule⟩ := answered.held url filter
  rw [response, Option.some.injEq] at response'
  exact (rule ev).mp (response' ▸ here)

/-- What a relay has for a filter is read, in one copy of its id. -/
theorem exists_mem_readSet (answered : Answered host events relays query consoleQuery)
    {urls : List String} (asked : urls ≠ []) {filter : Filter} {ev : Event} (mem : ev ∈ events)
    (verified : host.verifyEvent ev = true) (admits : filter.admits ev = true) :
    ∃ kept ∈ (readSet urls filter query).events, kept.id = ev.id := by
  obtain ⟨url, listed⟩ := List.exists_mem_of_ne_nil _ asked
  obtain ⟨answer, response, rule⟩ := answered.held url filter
  refine Recent.exists_mem_filed Event.id (List.mem_flatten.mpr ⟨answer, ?_, ?_⟩)
  · exact List.mem_filterMap.mpr ⟨url, listed, response⟩
  · exact (rule ev).mpr ⟨mem, verified, admits⟩

theorem answered_readSet (answered : Answered host events relays query consoleQuery)
    (urls : List String) (filter : Filter) : (readSet urls filter query).answered = urls.length := by
  show (urls.filterMap fun url => query url filter).length = urls.length
  induction urls with
  | nil => rfl
  | cons url rest ih =>
      obtain ⟨answer, response, -⟩ := answered.held url filter
      rw [List.filterMap_cons, response, List.length_cons, List.length_cons, ih]

/-- Some tag of a 441 sets the grant's revocation. -/
theorem get_foldl_ids (ids : List String) (found : JsMap String Event) (ev : Event)
    (keep : String → Bool) (key : String) :
    ((ids.foldl (fun found id => if keep id then found.set id ev else found) found).get
      key).isSome = true ↔ (key ∈ ids ∧ keep key = true) ∨ (found.get key).isSome = true := by
  rw [JsMap.get_foldl_set ids (fun id => id) (fun id => keep id = true) ev found key]
  split
  next hit =>
    obtain ⟨other, mem, rfl, kept⟩ := hit
    simp [show other ∈ ids from mem, show keep other = true from kept]
  next none =>
    have absent : ¬(key ∈ ids ∧ keep key = true) := fun both => none ⟨key, both.1, rfl, both.2⟩
    simp [absent]

theorem isSome_revocationsOf (grants : List Event) (revocations : List Event) (key : String) :
    ((revocationsOf host grants revocations).get key).isSome = true ↔
      ∃ ev ∈ revocations, ev.kind = 441 ∧ host.verifyEvent ev = true ∧ key ∈ tagTexts ev "e" ∧
        ∃ grant ∈ grants, grant.id = key ∧ grant.pubkey = ev.pubkey := by
  unfold revocationsOf
  induction revocations using List.reverseRecOn with
  | nil => simp
  | append_singleton front last ih =>
      rw [List.foldl_append, List.foldl_cons, List.foldl_nil]
      simp only [List.mem_append, List.mem_singleton]
      by_cases counts : (decide (last.kind = 441) && host.verifyEvent last) = true
      · rw [if_pos counts, get_foldl_ids, ih]
        simp only [Bool.and_eq_true, decide_eq_true_eq, List.any_eq_true] at counts ⊢
        constructor
        · rintro (⟨named, grant, listed, id, author⟩ | ⟨ev, mem, rest⟩)
          · exact ⟨last, .inr rfl, counts.1, counts.2, named, grant, listed, id, author⟩
          · exact ⟨ev, .inl mem, rest⟩
        · rintro ⟨ev, mem | rfl, rest⟩
          · exact .inr ⟨ev, mem, rest⟩
          · obtain ⟨-, -, named, grant, listed, id, author⟩ := rest
            exact .inl ⟨named, grant, listed, id, author⟩
      · rw [if_neg counts, ih]
        simp only [Bool.and_eq_true, decide_eq_true_eq] at counts
        constructor
        · rintro ⟨ev, mem, rest⟩
          exact ⟨ev, .inl mem, rest⟩
        · rintro ⟨ev, mem | rfl, rest⟩
          · exact ⟨ev, mem, rest⟩
          · exact absurd ⟨rest.1, rest.2.1⟩ counts

/-- The relays the reader asks. -/
def configuredOf (relays : List String) : List String :=
  (JsSet.ofList ((relays.map Memory.trim).filter fun url => url ≠ "")).items

theorem Answered.configuredOf_ne_nil (answered : Answered host events relays query consoleQuery) :
    configuredOf relays ≠ [] := by
  obtain ⟨url, mem, filled⟩ := answered.configured
  refine List.ne_nil_of_mem (a := Memory.trim url) ?_
  rw [configuredOf, ← JsSet.mem_toFinset, JsSet.toFinset_ofList, List.mem_toFinset]
  exact List.mem_filter.mpr ⟨List.mem_map_of_mem mem, by simpa using filled⟩

/-- The verified grants the holder's reader works with. -/
def grantsRead (host : Host) (grantee : String) (relays : List String)
    (query : String → Filter → Option (List Event)) : List Event :=
  (readSet (configuredOf relays) ⟨[440], none, some [grantee], none, MAX_EVENTS⟩
    query).events.filter (namesSubject host grantee)

/-- The reader lists the grant where a `p` tag is the grantee and there is one `da-cap`. -/
theorem mem_grantsRead (sole : SoleGrant host scopeHash me grantor events grantee cap g)
    (answered : Answered host events relays query consoleQuery) :
    g ∈ grantsRead host grantee relays query ↔ ListedForHolder grantee g := by
  obtain ⟨verified, kind⟩ := sole.verified
  constructor
  · intro mem
    have names := (List.mem_filter.mp mem).2
    simp only [namesSubject, Bool.and_eq_true, decide_eq_true_eq, List.contains_iff_mem] at names
    exact ⟨names.1.2, names.2⟩
  · rintro ⟨named, single⟩
    have admits : Filter.admits ⟨[440], none, some [grantee], none, MAX_EVENTS⟩ g = true := by
      simp [Filter.admits, Filter.matchesTags, kind, named]
    obtain ⟨kept, mem, id⟩ := exists_mem_readSet answered answered.configuredOf_ne_nil
      sole.mem.1 verified admits
    obtain ⟨listed, verified', -⟩ := mem_readSet answered mem
    rw [sole.eq_of_id answered listed verified' id] at mem
    refine List.mem_filter.mpr ⟨mem, ?_⟩
    simp [namesSubject, kind, verified, named, single]

/-- The 441s the reader asks for: those of the grants' authors that name one of the grants. -/
def revocationFilter (grants : List Event) : Filter :=
  ⟨[441], some (JsSet.ofList (grants.map (·.pubkey))).items, none, some (grants.map (·.id)),
    MAX_EVENTS⟩

/-- With every relay answering, the rows are those of the grants, none of them unverifiable. -/
theorem capabilities_held (answered : Answered host events relays query consoleQuery) :
    (readHeldCapabilities host npubEncode grantee now relays query).capabilities =
      some (((grantsRead host grantee relays query).map
        (capabilityRow npubEncode now true (revocationsOf host (grantsRead host grantee relays query)
          (readSet (configuredOf relays)
            (revocationFilter (grantsRead host grantee relays query)) query).events))).insertionSort
        rowBefore) := by
  have some : 0 < (configuredOf relays).length :=
    List.length_pos_of_ne_nil answered.configuredOf_ne_nil
  have complete : ∀ filter, (decide (0 < (configuredOf relays).length) &&
      decide ((readSet (configuredOf relays) filter query).answered =
        (configuredOf relays).length)) = true := by
    intro filter
    rw [answered_readSet answered]
    simpa using some
  unfold readHeldCapabilities
  simp only
  rw [← configuredOf, complete]
  split
  next none =>
    change grantsRead host grantee relays query = [] at none
    rw [none, if_pos rfl]
    rfl
  next =>
    simp only [complete, Bool.and_true]
    rfl

/-- A revocation of the grant is found exactly where some verified 441 names it. -/
theorem isSome_revocation (sole : SoleGrant host scopeHash me grantor events grantee cap g)
    (answered : Answered host events relays query consoleQuery)
    (listed : g ∈ grantsRead host grantee relays query) :
    ((revocationsOf host (grantsRead host grantee relays query)
      (readSet (configuredOf relays) (revocationFilter (grantsRead host grantee relays query))
        query).events).get g.id).isSome = true ↔ ∃ ev ∈ events, NamedBy host g ev := by
  rw [isSome_revocationsOf]
  constructor
  · rintro ⟨ev, mem, kind, verified, named, -⟩
    exact ⟨ev, (mem_readSet answered mem).1, verified, kind, named⟩
  · rintro ⟨ev, mem, verified, kind, named⟩
    have admits : (revocationFilter (grantsRead host grantee relays query)).admits ev = true := by
      have author : ev.pubkey ∈ (JsSet.ofList
          ((grantsRead host grantee relays query).map (·.pubkey))).items := by
        rw [← JsSet.mem_toFinset, JsSet.toFinset_ofList, List.mem_toFinset,
          sole.oneGrantor ev mem, ← sole.oneGrantor g sole.mem.1]
        exact List.mem_map_of_mem listed
      have tagged : ∃ id ∈ tagTexts ev "e",
          id ∈ (grantsRead host grantee relays query).map (·.id) :=
        ⟨g.id, named, List.mem_map_of_mem listed⟩
      simp only [Filter.admits, revocationFilter, Filter.matchesTags, Bool.and_eq_true,
        List.contains_iff_mem, Option.all_some, Option.all_none, List.any_eq_true, and_true]
      exact ⟨⟨List.mem_singleton.mpr kind, author⟩, tagged⟩
    obtain ⟨kept, found, id⟩ := exists_mem_readSet answered answered.configuredOf_ne_nil mem
      verified admits
    obtain ⟨mem', verified', -⟩ := mem_readSet answered found
    obtain ⟨-, -, -, kind', tags⟩ := content_eq (answered.hashed kept mem' ev mem verified' verified id)
    refine ⟨kept, found, kind'.trans kind, verified', ?_, g, listed, rfl, ?_⟩
    · rw [tagTexts, Event.tagValues, tags]
      exact named
    · rw [sole.oneGrantor g sole.mem.1, sole.oneGrantor kept mem']

/-- **The holder's verdict.** -/
theorem heldActive_iff (sole : SoleGrant host scopeHash me grantor events grantee cap g)
    (answered : Answered host events relays query consoleQuery) :
    HeldActive host npubEncode now grantee g relays query ↔
      ListedForHolder grantee g ∧ (¬∃ ev ∈ events, NamedBy host g ev) ∧
        (expiresAt g).any (· ≤ now) = false := by
  rw [HeldActive, capabilities_held answered]
  constructor
  · rintro ⟨rows, same, row, mem, id, active⟩
    rw [← Option.some.inj same, List.mem_insertionSort] at mem
    obtain ⟨ev, listed, rfl⟩ := List.mem_map.mp mem
    obtain ⟨listed', verified, -⟩ := mem_readSet answered (List.mem_filter.mp listed).1
    obtain rfl := sole.eq_of_id answered listed' verified id
    have standing := (not_congr (isSome_revocation sole answered listed)).mp
    refine ⟨(mem_grantsRead sole answered).mp listed, ?_, ?_⟩
    · refine standing fun found => ?_
      simp only [capabilityRow, if_pos found] at active
      cases active
    · simp only [capabilityRow] at active
      split at active
      next => cases active
      next =>
        simp only [Bool.not_true, Bool.false_eq_true, if_false] at active
        split at active
        next => cases active
        next fresh => simpa using fresh
  · rintro ⟨shown, standing, fresh⟩
    have listed := (mem_grantsRead sole answered).mpr shown
    refine ⟨_, rfl, _, (List.mem_insertionSort _).mpr (List.mem_map_of_mem listed), rfl, ?_⟩
    have none := (not_congr (isSome_revocation sole answered listed)).mpr standing
    simp only [capabilityRow, if_neg none, Bool.not_true, Bool.false_eq_true, if_false, fresh]

/-! ### The console -/

theorem mem_revokedIds {own : List Event} {id : String} (filled : id ≠ "") :
    (revokedIds own).has id = true ↔ ∃ ev ∈ own, ev.kind = 441 ∧ id ∈ tagTexts ev "e" := by
  have every : ∀ (revocations : List Event) (ids : JsSet String),
      id ∈ (revocations.foldl (fun ids ev =>
        ((tagTexts ev "e").filter fun id => id ≠ "").foldl JsSet.add ids) ids).toFinset ↔
        (∃ ev ∈ revocations, id ∈ tagTexts ev "e") ∨ id ∈ ids.toFinset := by
    intro revocations
    induction revocations with
    | nil => simp
    | cons ev rest ih =>
        intro ids
        rw [List.foldl_cons, ih, JsSet.toFinset_foldl_add, Finset.mem_union, List.mem_toFinset,
          List.mem_filter]
        simp only [List.mem_cons, exists_eq_or_imp, ne_eq, filled, not_false_eq_true, decide_true,
          and_true]
        constructor
        · rintro (later | old | here)
          · exact .inl (.inr later)
          · exact .inr old
          · exact .inl (.inl here)
        · rintro ((here | later) | old)
          · exact .inr (.inr here)
          · exact .inl later
          · exact .inr (.inl old)
  rw [JsSet.has_iff, revokedIds, every]
  simp [and_assoc]

theorem mem_ownEvents (answered : Answered host events relays query consoleQuery) {filter : Filter} {ev : Event}
    (mem : ev ∈ (ownEvents host grantor (consoleQuery filter)).values) :
    ev ∈ events ∧ host.verifyEvent ev = true := by
  have passed := Recent.of_mem_filed Event.id mem
  simp only [List.mem_filter, Bool.and_eq_true] at passed
  exact ⟨((answered.console filter ev passed.2.2).mp passed.1).1, passed.2.2⟩

theorem exists_mem_ownEvents (sole : SoleGrant host scopeHash me grantor events grantee cap g)
    (answered : Answered host events relays query consoleQuery) {filter : Filter} {ev : Event}
    (mem : ev ∈ events) (verified : host.verifyEvent ev = true) (admits : filter.admits ev = true) :
    ∃ kept ∈ (ownEvents host grantor (consoleQuery filter)).values, kept.id = ev.id := by
  refine Recent.exists_mem_filed Event.id (List.mem_filter.mpr ⟨?_, ?_⟩)
  · exact (answered.console filter ev verified).mpr ⟨mem, admits⟩
  · simp [sole.oneGrantor ev mem, verified]

/-- The filter of the console. -/
def consoleFilter (grantor : String) : Filter := ⟨[440, 441], some [grantor], none, none, MAX_EVENTS⟩

theorem admits_consoleFilter (sole : SoleGrant host scopeHash me grantor events grantee cap g)
    {ev : Event} (mem : ev ∈ events) (kind : ev.kind = 440 ∨ ev.kind = 441) :
    (consoleFilter grantor).admits ev = true := by
  simp [Filter.admits, consoleFilter, Filter.matchesTags, sole.oneGrantor ev mem, kind]

/-- The console's class of the grant. -/
theorem classifyGrant_sole (sole : SoleGrant host scopeHash me grantor events grantee cap g) :
    ∃ cls, classifyGrant g = some cls ∧ (cls.type ≠ .data ↔ ListedInConsole g) := by
  have read := (of_grantOf sole.mem.2).2.2
  have capped : (g.tag "da-cap").isSome = true := by
    unfold readGrant at read
    simp only at read
    split at read
    next scope cap' _ found =>
      rw [Event.tagValue] at found
      obtain ⟨tag, here, -⟩ := Option.bind_eq_some_iff.mp found
      rw [here]
      rfl
    next => cases read
  unfold classifyGrant ListedInConsole
  simp only
  cases found : g.tag "a" with
  | none => exact ⟨_, by rw [Option.any_none, if_neg Bool.false_ne_true, if_pos capped], by simp⟩
  | some tag =>
      by_cases data : namesDataSet (tag[1]?.getD "") = true
      · exact ⟨_, by rw [Option.any_some, if_pos data], by simp [data]⟩
      · refine ⟨_, by rw [Option.any_some, if_neg data, if_pos capped], ?_⟩
        simpa using Bool.eq_false_iff.mpr data

/-- **The console's verdict.** -/
theorem consoleActive_iff (sole : SoleGrant host scopeHash me grantor events grantee cap g)
    (answered : Answered host events relays query consoleQuery) :
    ConsoleActive host grantor g consoleQuery ↔
      ListedInConsole g ∧ ¬∃ ev ∈ events, NamedBy host g ev := by
  obtain ⟨verified, kind⟩ := sole.verified
  obtain ⟨cls, classified, shown⟩ := classifyGrant_sole sole
  have filled : g.id ≠ "" := by
    intro empty
    have hex := host.verifyEvent_id verified
    rw [empty] at hex
    exact absurd hex (by decide)
  have revoked : (revokedIds (ownEvents host grantor
      (consoleQuery (consoleFilter grantor))).values).has g.id = true ↔
        ∃ ev ∈ events, NamedBy host g ev := by
    rw [mem_revokedIds filled]
    constructor
    · rintro ⟨ev, mem, kind, named⟩
      obtain ⟨listed, verified⟩ := mem_ownEvents answered mem
      exact ⟨ev, listed, verified, kind, named⟩
    · rintro ⟨ev, mem, verified, kind, named⟩
      obtain ⟨kept, found, id⟩ := exists_mem_ownEvents sole answered mem verified
        (admits_consoleFilter sole mem (.inr kind))
      obtain ⟨mem', verified'⟩ := mem_ownEvents answered found
      obtain ⟨-, -, -, kind', tags⟩ := content_eq (answered.hashed kept mem' ev mem verified' verified id)
      refine ⟨kept, found, kind'.trans kind, ?_⟩
      rw [tagTexts, Event.tagValues, tags]
      exact named
  rw [ConsoleActive, readCapabilityGrants]
  simp only [List.mem_insertionSort, List.mem_map, List.mem_filter, List.mem_filterMap,
    decide_eq_true_eq]
  rw [← consoleFilter, ← revoked]
  constructor
  · rintro ⟨row, ⟨⟨ev, cls'⟩, ⟨⟨ev', ⟨mem, -⟩, same⟩, type⟩, rfl⟩, id, standing⟩
    obtain ⟨cls'', classified', pair⟩ := Option.map_eq_some_iff.mp same
    obtain ⟨rfl, rfl⟩ := Prod.mk.inj pair
    obtain ⟨listed, verified'⟩ := mem_ownEvents answered mem
    obtain rfl := sole.eq_of_id answered listed verified' id
    rw [classified, Option.some.injEq] at classified'
    exact ⟨shown.mp (classified' ▸ type), Bool.eq_false_iff.mp standing⟩
  · rintro ⟨listed, standing⟩
    obtain ⟨kept, found, id⟩ := exists_mem_ownEvents sole answered sole.mem.1 verified
      (admits_consoleFilter sole sole.mem.1 (.inl kind))
    obtain ⟨mem, verified'⟩ := mem_ownEvents answered found
    obtain rfl := sole.eq_of_id answered mem verified' id
    refine ⟨_, ⟨(kept, cls), ⟨⟨kept, ⟨found, kind⟩, ?_⟩, shown.mpr listed⟩, rfl⟩, rfl, ?_⟩
    · rw [classified]
      rfl
    · exact Bool.eq_false_iff.mpr standing

/-! ### The claim -/

theorem named_of_revokedInOrder (revoked : RevokedInOrder host events g) :
    ∃ ev ∈ events, NamedBy host g ev := by
  obtain ⟨before, after, split, ev, mem, verified, kind, first⟩ := revoked
  refine ⟨ev, ?_, verified, kind, ?_⟩
  · rw [← mem_sortBy Event.createdAt, split]
    exact List.mem_append_right _ (List.mem_cons_of_mem _ mem)
  · obtain ⟨tag, found, value⟩ := Option.bind_eq_some_iff.mp first
    rw [tagTexts, Event.tagValues, List.reduceOption_mem_iff]
    have hit := List.find?_some (p := fun t : List String => decide (t[0]? = some "e")) found
    exact List.mem_map.mpr
      ⟨tag, List.mem_filter.mpr ⟨List.mem_of_find?_eq_some found, hit⟩, value⟩

/-- **The three readers agree exactly on the grants that are read alike.** -/
theorem readers_agree (sole : SoleGrant host scopeHash me grantor events grantee cap g)
    (answered : Answered host events relays query consoleQuery) :
    (BrokerLive host scopeHash me grantor now events grantee cap g ↔
        HeldActive host npubEncode now grantee g relays query) ∧
      (BrokerLive host scopeHash me grantor now events grantee cap g ↔
        ConsoleActive host grantor g consoleQuery) ↔
      ReadAlike host now events grantee g := by
  rw [brokerLive_iff sole answered, heldActive_iff sole answered, consoleActive_iff sole answered]
  by_cases named : ∃ ev ∈ events, NamedBy host g ev
  · have ended : ReadAlike host now events grantee g ↔
        (grantExpired g now = true ∨ RevokedInOrder host events g) :=
      ⟨fun alike => alike.revoked named, fun ended => ⟨fun _ => ended, fun none => absurd named none⟩⟩
    rw [ended]
    simp only [named, not_true_eq_false, false_and, and_false, iff_false, and_self, not_and,
      not_not]
    rw [← Bool.not_eq_true]
    tauto
  · have unrevoked : ¬RevokedInOrder host events g := fun revoked =>
      named (named_of_revokedInOrder revoked)
    simp only [named, unrevoked, not_false_eq_true, and_true, true_and]
    exact ⟨fun both => ⟨fun hit => absurd hit named, fun _ => both⟩, fun alike => alike.standing named⟩

end Verdicts

/-! ### Relays that hold the list -/

/-- What one relay with the whole list answers to the holder. -/
def listed (host : Host) (events : List Event) (_ : String) (filter : Filter) :
    Option (List Event) :=
  some (events.filter fun ev => host.verifyEvent ev && filter.admits ev)

theorem answered_listed {host : Host} {events : List Event}
    (hashed : ∀ a ∈ events, ∀ b ∈ events, host.verifyEvent a = true → host.verifyEvent b = true →
      a.id = b.id → { a with sig := "" } = { b with sig := "" }) :
    Answered host events ["wss://relay"] (listed host events)
      (fun filter => events.filter filter.admits) where
  configured := ⟨"wss://relay", List.mem_singleton_self _, by decide⟩
  held url filter := ⟨_, rfl, fun ev => by simp⟩
  console filter ev verified := by simp
  hashed := hashed

/-- A grant and the 441 that ends it, as the owner sent them. -/
def grantAndRevocation : List Event := [sampleGrant 5, sampleRevocation 7]

theorem sole_grantAndRevocation : SoleGrant .sample (fun subject _ => subject) "agent" "owner"
    grantAndRevocation "dennis" "task" (sampleGrant 5) where
  oneGrantor := by decide
  sole := by decide

theorem readers_agree_revoked :
    (BrokerLive .sample (fun subject _ => subject) "agent" "owner" 100 grantAndRevocation "dennis"
        "task" (sampleGrant 5) ↔
        HeldActive .sample (fun pubkey => pubkey) 100 "dennis" (sampleGrant 5) ["wss://relay"]
          (listed .sample grantAndRevocation)) ∧
      (BrokerLive .sample (fun subject _ => subject) "agent" "owner" 100 grantAndRevocation "dennis"
        "task" (sampleGrant 5) ↔
        ConsoleActive .sample "owner" (sampleGrant 5)
          (fun filter => grantAndRevocation.filter filter.admits)) := by
  refine (readers_agree sole_grantAndRevocation (answered_listed (by decide +kernel))).mpr ?_
  have revoked : RevokedInOrder .sample grantAndRevocation (sampleGrant 5) :=
    ⟨[], [sampleRevocation 7], by decide +kernel, sampleRevocation 7, List.mem_singleton_self _,
      by decide +kernel⟩
  exact ⟨fun _ => .inr revoked, fun none => absurd (named_of_revokedInOrder revoked) none⟩

/-- A grant whose expiration is no number. -/
def malformedGrant : Event :=
  { sampleGrant 5 with tags := (sampleGrant 5).tags ++ [["expiration", "soon"]] }

/-- The broker takes a malformed expiration for an expired one; the console does not read it. -/
theorem malformed_expiration_differs :
    ¬((BrokerLive .sample (fun subject _ => subject) "agent" "owner" 100 [malformedGrant] "dennis"
        "task" malformedGrant ↔
        HeldActive .sample (fun pubkey => pubkey) 100 "dennis" malformedGrant ["wss://relay"]
          (listed .sample [malformedGrant])) ∧
      (BrokerLive .sample (fun subject _ => subject) "agent" "owner" 100 [malformedGrant] "dennis"
        "task" malformedGrant ↔
        ConsoleActive .sample "owner" malformedGrant
          (fun filter => [malformedGrant].filter filter.admits))) := by
  rintro ⟨-, same⟩
  have sole : SoleGrant .sample (fun subject _ => subject) "agent" "owner" [malformedGrant] "dennis"
      "task" malformedGrant := ⟨by decide, by decide +kernel⟩
  have answered : Answered .sample [malformedGrant] ["wss://relay"]
      (listed .sample [malformedGrant]) (fun filter => [malformedGrant].filter filter.admits) :=
    answered_listed (by simp)
  rw [brokerLive_iff sole answered, consoleActive_iff sole answered] at same
  have shown : ListedInConsole malformedGrant := by
    unfold ListedInConsole
    decide +kernel
  have unnamed : ¬∃ ev ∈ [malformedGrant], NamedBy .sample malformedGrant ev := by
    rintro ⟨ev, mem, -, kind, -⟩
    rw [List.mem_singleton.mp mem] at kind
    exact absurd kind (by decide)
  exact absurd (same.mpr ⟨shown, unnamed⟩).1 (by decide +kernel)

end Nvoy.Admission
