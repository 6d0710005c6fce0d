/-
What a revocation does to the grant it names.

`foldGrantsWith` drops a grant when the 441 comes in the order of `created_at`, and keeps no note of
the revoked id; `foldMemoryGrantsWith` applies every 441 after all the grants. So a grant that sorts
after the 441 naming it stays live in the first and is dead in the second.

* `carried_iff` — exactly which ids the task fold still carries, by the order of the events.
* `memoryFold_drops` — the memory fold carries no id that a 441 of its owner names.
* `revocation_final_iff` — when every revoked id is dead in both.
-/

import Nvoy.Admission.Soundness

namespace Nvoy.Admission

open StableSort

/-! ### The ids the task fold carries -/

section Carried

variable (host : Host) (opts : FoldOptions) (nowSec : Int)

/-- A verified 441 by a grantor whose `e` tag is `id`. -/
def Revokes (ev : Event) (id : String) : Prop :=
  Counts host opts ev ∧ ev.kind = 441 ∧ ev.tagValue "e" = some id

/-- An unexpired grant of the slot with that id, such that no event after it in the order of the
fold is a grant of the slot or ends the id. -/
structure Survives (events : List Event) (slot : Slot) (id : String) (ev : Event) : Prop where
  grants : ∃ grant, grantOf host opts ev = some grant ∧ grant.slot ev = slot
  named : ev.id = id
  unexpired : grantExpired ev nowSec = false
  last : ∃ before after, sortBy Event.createdAt events = before ++ ev :: after ∧
    ∀ later ∈ after, (∀ grant, grantOf host opts later = some grant → grant.slot later ≠ slot) ∧
      clearsId host opts nowSec later ≠ some id

/-- A grant with that id survives where it shows: as a task or mention grant, or as a shadow of a
grantor with a surviving cap that the voice has no surviving grant of its own for. -/
def Outlives (events : List Event) (id : String) : Prop :=
  (∃ key cap ev, Survives host opts nowSec events (.task key cap) id ev) ∨
  (∃ ev, Survives host opts nowSec events (.named id) id ev) ∨
  ∃ key cap ev own ownId, Survives host opts nowSec events (.voice key) id ev ∧
    Survives host opts nowSec events (.task (host.toLowerCase ev.pubkey) cap) ownId own ∧
    ∀ other otherId, ¬ Survives host opts nowSec events (.task key cap) otherId other

/-- Some entry of the live map, own or through a shadow, or some mention has that id. -/
def Carries (folded : Folded) (id : String) : Prop :=
  (∃ key cap g, liveAt folded.live key cap = some g ∧ g.grantId = id) ∨
    ∃ m ∈ folded.mentions, m.grantId = id

variable {host opts nowSec} {events : List Event}

theorem setSlot_iff (nowSec : Int) {ev : Event} {slot : Slot} :
    (∃ entry, (slots host opts nowSec).sets ev = some (slot, entry)) ↔
      ∃ grant, grantOf host opts ev = some grant ∧ grant.slot ev = slot := by
  constructor
  · rintro ⟨entry, sets⟩
    obtain ⟨grant, read, same, -⟩ := sets_slots sets
    exact ⟨grant, read, same⟩
  · rintro ⟨grant, read, rfl⟩
    exact ⟨_, Option.map_eq_some_iff.mpr ⟨grant, read, rfl⟩⟩

theorem finalAt_survives {slot : Slot} {entry : Entry}
    (held : finalAt host opts nowSec events slot = some entry) :
    ∃ ev, Survives host opts nowSec events slot entry.grantId ev ∧
      ∃ grant, grantOf host opts ev = some grant ∧
        grant.entry ev (host.toLowerCase ev.pubkey) = entry := by
  obtain ⟨ev, stands⟩ := Registers.heldAt_eq_some.mp held
  obtain ⟨grant, read, same, rfl⟩ := sets_slots stands.sets
  obtain ⟨before, after, split, leaves⟩ := stands.last
  refine ⟨ev, ⟨⟨grant, read, same⟩, (ReadGrant.entry_grantId _ _ _).symm,
    unexpired_of_keeps stands.sets stands.keeps, before, after, split, ?_⟩, grant, read, rfl⟩
  intro later member
  refine ⟨fun other read' same' => ?_, (leaves later member).2⟩
  obtain ⟨entry, sets⟩ := (setSlot_iff nowSec).mpr ⟨other, read', same'⟩
  exact (leaves later member).1 entry sets

theorem finalAt_of_survives {slot : Slot} {id : String} {ev : Event} {grant : ReadGrant}
    (survives : Survives host opts nowSec events slot id ev)
    (read : grantOf host opts ev = some grant) :
    finalAt host opts nowSec events slot =
      some (grant.entry ev (host.toLowerCase ev.pubkey)) := by
  obtain ⟨⟨other, read', same⟩, named, unexpired, before, after, split, leaves⟩ := survives
  cases read.symm.trans read'
  refine Registers.heldAt_eq_some.mpr ⟨ev, ?_, ?_, before, after, split, fun later member => ?_⟩
  · exact Option.map_eq_some_iff.mpr ⟨grant, read, by rw [same]⟩
  · have clear : clearsId host opts nowSec ev = none := by
      rw [clearsId, read]
      exact if_neg (by simp [unexpired])
    rintro cleared
    exact absurd (clear.symm.trans cleared) (by simp)
  · refine ⟨fun entry sets => ?_, ?_⟩
    · obtain ⟨other, read', same'⟩ := (setSlot_iff nowSec).mp ⟨entry, sets⟩
      exact (leaves later member).1 other read' same'
    · rw [show (slots host opts nowSec).idOf = Entry.grantId from rfl, ReadGrant.entry_grantId,
        named]
      exact (leaves later member).2

/-- **The ids the task fold carries** are those of the grants that survive and show. -/
theorem carries_iff {id : String} :
    Carries (foldGrantsWith host opts nowSec events) id ↔
      Outlives host opts nowSec events id := by
  constructor
  · rintro (⟨key, cap, g, held, rfl⟩ | ⟨m, member, rfl⟩)
    · rcases (liveAt_eq_some events).mp held with own | ⟨free, s, own, voiced, tasked, rfl⟩
      · obtain ⟨ev, survives, -⟩ := finalAt_survives own
        exact Or.inl ⟨key, cap, ev, survives⟩
      · obtain ⟨ev, survives, grant, read, entry⟩ := finalAt_survives voiced
        obtain ⟨ownEv, ownSurvives, -⟩ := finalAt_survives tasked
        have signed : host.toLowerCase ev.pubkey = s.grantor := by
          cases grant <;> simp only [ReadGrant.entry, Entry.voice.injEq, reduceCtorEq] at entry
          rw [← entry]
        refine Or.inr (Or.inr ⟨key, cap, ev, ownEv, _, survives, signed ▸ ownSurvives, ?_⟩)
        intro other otherId kept
        obtain ⟨grant', read', -⟩ := kept.grants
        rw [finalAt_of_survives kept read'] at free
        exact absurd free (by simp)
    · obtain ⟨ev, survives, -⟩ := finalAt_survives ((mem_mentions_foldGrantsWith events).mp member)
      exact Or.inr (Or.inl ⟨ev, survives⟩)
  · rintro (⟨key, cap, ev, survives⟩ | ⟨ev, survives⟩ |
      ⟨key, cap, ev, own, ownId, survives, ownSurvives, free⟩)
    · obtain ⟨grant, read, same⟩ := survives.grants
      have held := finalAt_of_survives survives read
      cases grant <;> simp only [ReadGrant.slot, reduceCtorEq, Slot.task.injEq] at same
      exact Or.inl ⟨key, cap, _, (liveAt_eq_some events).mpr (Or.inl held), survives.named⟩
    · obtain ⟨grant, read, same⟩ := survives.grants
      have held := finalAt_of_survives survives read
      cases grant <;> simp only [ReadGrant.slot, reduceCtorEq, Slot.named.injEq] at same
      rw [← same] at held
      exact Or.inr ⟨⟨_, _, ev.id, _, _⟩, (mem_mentions_foldGrantsWith events).mpr held,
        survives.named⟩
    · obtain ⟨grant, read, same⟩ := survives.grants
      have voiced := finalAt_of_survives survives read
      cases grant <;> simp only [ReadGrant.slot, reduceCtorEq, Slot.voice.injEq] at same
      obtain ⟨grant', read', same'⟩ := ownSurvives.grants
      have tasked := finalAt_of_survives ownSurvives read'
      cases grant' <;> simp only [ReadGrant.slot, reduceCtorEq, Slot.task.injEq] at same'
      have none : finalAt host opts nowSec events (.task key cap) = none := by
        refine Option.eq_none_iff_forall_ne_some.mpr fun entry held => ?_
        obtain ⟨other, kept, -⟩ := finalAt_survives held
        exact free other _ kept
      exact Or.inl ⟨key, cap, _,
        (liveAt_eq_some events).mpr (Or.inr ⟨none, _, _, voiced, tasked, rfl⟩), survives.named⟩

end Carried

/-! ### The ids the memory fold carries -/

section Memory

variable {host : Host} {opts : MemoryOptions} {nowSec : Int}

/-- Some writer holds a cap under that id. -/
def MemoryCarries (folded : MemoryFolded) (id : String) : Prop :=
  ∃ key caps cap g, folded.writers.get key = some caps ∧ caps.get cap = some g ∧ g.grantId = id

/-- Every active grant is kept under its own id, and that id is a verified event's. -/
def Keyed (st : MemoryState) : Prop :=
  ∀ id g, st.activeById.get id = some g → g.grantId = id ∧ id ≠ ""

theorem memoryEvent_revocations (ownerHex : String) (st : MemoryState) (ev : Event) :
    st.revocations ⊆ (memoryEvent host opts nowSec ownerHex st ev).revocations := by
  unfold memoryEvent
  split
  · exact List.Subset.refl _
  split
  · exact List.Subset.refl _
  split
  · exact List.subset_append_left _ _
  split
  · exact List.Subset.refl _
  split
  · exact List.Subset.refl _
  · split <;> exact List.Subset.refl _

theorem memoryEvent_keyed {ownerHex : String} {st : MemoryState} (keyed : Keyed st) (ev : Event) :
    Keyed (memoryEvent host opts nowSec ownerHex st ev) := by
  unfold memoryEvent
  split
  · exact keyed
  split
  · exact keyed
  rename_i verified
  split
  · exact keyed
  split
  · exact keyed
  split
  · exact keyed
  split
  · exact keyed
  · intro id g found
    rw [JsMap.get_set] at found
    split_ifs at found with same
    · rw [← Option.some.inj found, same]
      refine ⟨rfl, fun blank => ?_⟩
      have hex := host.verifyEvent_id (by simpa using verified : host.verifyEvent ev = true)
      rw [blank] at hex
      exact absurd hex (by decide)
    · exact keyed id g found

theorem memoryRun (host : Host) (opts : MemoryOptions) (nowSec : Int) (ownerHex : String)
    (events : List Event) (st : MemoryState) (keyed : Keyed st) :
    Keyed (events.foldl (memoryEvent host opts nowSec ownerHex) st) ∧
      st.revocations ⊆ (events.foldl (memoryEvent host opts nowSec ownerHex) st).revocations ∧
      ∀ ev ∈ events, host.toLowerCase ev.pubkey = ownerHex → host.verifyEvent ev = true →
        ev.kind = 441 →
          ev ∈ (events.foldl (memoryEvent host opts nowSec ownerHex) st).revocations := by
  induction events generalizing st with
  | nil => exact ⟨keyed, List.Subset.refl _, fun _ member => absurd member List.not_mem_nil⟩
  | cons first events ih =>
      obtain ⟨keyed', grows, gathered⟩ := ih _ (memoryEvent_keyed keyed first)
      refine ⟨keyed', List.Subset.trans (memoryEvent_revocations ownerHex st first) grows, ?_⟩
      intro ev member author verified kind
      rcases List.mem_cons.mp member with rfl | member
      · refine grows ?_
        have kept : (memoryEvent host opts nowSec ownerHex st ev).revocations =
            st.revocations ++ [ev] := by
          rw [memoryEvent, if_neg (by simp [author]), if_neg (by simp [verified]), if_pos kind]
        rw [kept]
        simp
      · exact gathered ev member author verified kind

theorem memoryRevoke_get (st : MemoryState) (rev : Event) {id : String}
    (gone : st.activeById.get id = none) : (memoryRevoke st rev).activeById.get id = none := by
  unfold memoryRevoke
  split
  · exact gone
  · split
    · exact gone
    · rw [JsMap.get_delete]
      split_ifs
      · rfl
      · exact gone

theorem memoryRevoke_keyed {st : MemoryState} (keyed : Keyed st) (rev : Event) :
    Keyed (memoryRevoke st rev) := by
  unfold memoryRevoke
  split
  · exact keyed
  · split
    · exact keyed
    · intro id g found
      rw [JsMap.get_delete] at found
      split_ifs at found
      exact keyed id g found

/-- A revocation in the list leaves its id without an active grant. -/
theorem revokeRun (revocations : List Event) (st : MemoryState) (keyed : Keyed st) :
    Keyed (revocations.foldl memoryRevoke st) ∧
      (∀ id, st.activeById.get id = none →
        (revocations.foldl memoryRevoke st).activeById.get id = none) ∧
      ∀ rev ∈ revocations, ∀ id, rev.tagValue "e" = some id →
        (revocations.foldl memoryRevoke st).activeById.get id = none := by
  induction revocations generalizing st with
  | nil => exact ⟨keyed, fun _ gone => gone, fun _ member => absurd member List.not_mem_nil⟩
  | cons first revocations ih =>
      obtain ⟨keyed', stays, cleared⟩ := ih _ (memoryRevoke_keyed keyed first)
      refine ⟨keyed', fun id gone => stays id (memoryRevoke_get st first gone), ?_⟩
      intro rev member id named
      rcases List.mem_cons.mp member with rfl | member
      · refine stays id ?_
        rw [memoryRevoke, named]
        simp only
        cases held : st.activeById.get id with
        | none =>
            have skipped : (if id = "" then none else (none : Option MemoryGrant)) = none := by simp
            rw [skipped]
            exact held
        | some g =>
            rw [if_neg (keyed id g held).2]
            simp [JsMap.get_delete]
      · exact cleared rev member id named

theorem addWriter_origin (grants : List MemoryGrant)
    (writers : JsMap String (JsMap String MemoryGrant)) {key cap : String}
    {caps : JsMap String MemoryGrant} {g : MemoryGrant}
    (found : (grants.foldl addWriter writers).get key = some caps) (held : caps.get cap = some g) :
    g ∈ grants ∨ ∃ caps, writers.get key = some caps ∧ caps.get cap = some g := by
  induction grants generalizing writers with
  | nil => exact Or.inr ⟨caps, found, held⟩
  | cons first grants ih =>
      rcases ih _ found with later | ⟨caps', found', held'⟩
      · exact Or.inl (List.mem_cons_of_mem _ later)
      have before : ((writers.get first.grantee).getD .empty).get cap = some g →
          ∃ caps, writers.get first.grantee = some caps ∧ caps.get cap = some g := by
        intro inside
        cases old : writers.get first.grantee with
        | none =>
            rw [old] at inside
            exact absurd inside (by simp)
        | some caps =>
            rw [old] at inside
            exact ⟨caps, rfl, inside⟩
      unfold addWriter at found'
      simp only [JsMap.get_set] at found'
      split_ifs at found' with same newest
      · rw [← Option.some.inj found', JsMap.get_set] at held'
        split_ifs at held'
        · exact Or.inl (Option.some.inj held' ▸ List.mem_cons_self)
        · exact Or.inr (same ▸ before held')
      · rw [← Option.some.inj found'] at held'
        exact Or.inr (same ▸ before held')
      · exact Or.inr ⟨caps', found', held'⟩

/-- **The memory fold carries no id that a 441 of its owner names**, whatever the times. -/
theorem memoryFold_drops {events : List Event} {rev : Event} (member : rev ∈ events)
    (author : host.toLowerCase rev.pubkey = host.toLowerCase opts.owner)
    (verified : host.verifyEvent rev = true) (kind : rev.kind = 441) {id : String}
    (named : rev.tagValue "e" = some id) :
    ¬ MemoryCarries (foldMemoryGrantsWith host opts nowSec events) id := by
  rintro ⟨key, caps, cap, g, found, held, rfl⟩
  unfold foldMemoryGrantsWith at found
  simp only at found
  split_ifs at found
  · exact absurd found (by simp)
  obtain ⟨keyed, -, gathered⟩ := memoryRun host opts nowSec (host.toLowerCase opts.owner)
    (events.insertionSort createdBefore) .start
    (fun id g found => absurd found (by simp [MemoryState.start]))
  obtain ⟨keyed', -, cleared⟩ := revokeRun _ _ keyed
  rcases addWriter_origin _ _ found held with kept | ⟨_, impossible, _⟩
  · obtain ⟨id, active⟩ := JsMap.mem_values.mp kept
    have gone := cleared rev
      (gathered rev (List.mem_insertionSort _ |>.mpr member) author verified kind) _ named
    rw [(keyed' id g active).1, active] at gone
    exact absurd gone (by simp)
  · exact absurd impossible (by simp)

end Memory

/-! ### When a revocation is final -/

section Final

variable (host : Host) (opts : FoldOptions) (nowSec : Int)

/-- Every id that a grantor's 441 names is dead in the task fold, and in the memory fold of every
owner who signed such a 441. -/
def RevocationFinal (events : List Event) : Prop :=
  ∀ id, (∃ rev ∈ events, Revokes host opts rev id) →
    ¬ Carries (foldGrantsWith host opts nowSec events) id ∧
    ∀ memory : MemoryOptions,
      (∃ rev ∈ events, Revokes host opts rev id ∧
        host.toLowerCase rev.pubkey = host.toLowerCase memory.owner) →
      ¬ MemoryCarries (foldMemoryGrantsWith host memory nowSec events) id

/-- **Revocations are final exactly when no revoked id outlives its 441 in the order of the fold.**
The memory fold never fails it; the task fold fails it when a grant sorts after the 441. -/
theorem revocation_final_iff (events : List Event) :
    RevocationFinal host opts nowSec events ↔
      ∀ id, (∃ rev ∈ events, Revokes host opts rev id) →
        ¬ Outlives host opts nowSec events id := by
  constructor
  · intro final id revoked outlives
    exact (final id revoked).1 (carries_iff.mpr outlives)
  · intro ends id revoked
    refine ⟨fun carried => ends id revoked (carries_iff.mp carried), ?_⟩
    rintro memory ⟨rev, member, ⟨counts, kind, named⟩, author⟩
    exact memoryFold_drops member author counts.2 kind named

end Final

/-- A 441 dated one second before the grant it names leaves the grant live. -/
theorem revocation_not_final :
    ¬ RevocationFinal Host.sample sampleOptions 100 [sampleGrant 11, sampleRevocation 10] := by
  intro final
  have revoked : Revokes Host.sample sampleOptions (sampleRevocation 10) (sampleId 'a') := by
    refine ⟨?_, rfl, rfl⟩
    decide
  refine (final (sampleId 'a') ⟨sampleRevocation 10, by simp, revoked⟩).1 ?_
  exact Or.inl ⟨"dennis", "task", ⟨sampleId 'a', "owner", "task", false⟩, by decide, rfl⟩

end Nvoy.Admission
