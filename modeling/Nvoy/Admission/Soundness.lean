/-
Soundness of the task fold, and that a revocation only takes away.

* `TaskGrant`, `ShadowGrant` — the 440s that give a key a capability, spelled out on the event.
* `justified_of_liveAt` — every pair of the live map rests on a task grant of a grantor, directly or
  through one shadow of the grantor the task grant names.
* `foldGrantsWith_insert_stranger` — an event of a non-grantor changes nothing.
* `liveAt_insert_revocation`, `mentions_insert_revocation` — one more 441, listed anywhere, adds
  neither a pair nor a mention.
-/

import Nvoy.Admission.Result

namespace Nvoy.Admission

open StableSort

/-! ### The grants that count -/

section Grants

variable (host : Host) (opts : FoldOptions) (nowSec : Int)

/-- A verified, unexpired 440 by a grantor that names `key` under `cap`. -/
structure GrantTo (ev : Event) (key cap : String) : Prop where
  byGrantor : isGrantor host opts (host.toLowerCase ev.pubkey) = true
  verified : host.verifyEvent ev = true
  kind : ev.kind = 440
  unexpired : grantExpired ev nowSec = false
  grantee : ∃ p, ev.tagValue "p" = some p ∧ host.toLowerCase p = key
  capped : ev.tagValue "da-cap" = some cap

/-- A task capability for `key`, scoped to this identity. -/
structure TaskGrant (ev : Event) (key cap : String) : Prop extends
    GrantTo host opts nowSec ev key cap where
  task : cap ∈ TASK_CAPS
  inScope : ∃ scope, ev.tag "da-scope" = some scope ∧ scopedTo opts scope opts.me = true

/-- A shadow of the grantor that signs it, for a key other than its own. -/
structure ShadowGrant (ev : Event) (key grantor : String) : Prop extends
    GrantTo host opts nowSec ev key "shadow" where
  signed : host.toLowerCase ev.pubkey = grantor
  other : key ≠ grantor
  inScope : ∃ scope, ev.tag "da-scope" = some scope ∧ scopedTo opts scope grantor = true

/-- What a pair of the live map rests on. -/
def Justified (events : List Event) (key cap : String) : Prop :=
  (∃ ev ∈ events, TaskGrant host opts nowSec ev key cap) ∨
    ∃ shadow ∈ events, ∃ own ∈ events, ∃ grantor,
      ShadowGrant host opts nowSec shadow key grantor ∧
        TaskGrant host opts nowSec own grantor cap

end Grants

section Read

variable {host : Host} {opts : FoldOptions} {nowSec : Int} {ev : Event}

/-- A blank grantee is refused, so the key that is kept was named. -/
theorem named_of_getD {value : Option String}
    (named : host.toLowerCase (value.getD "") ≠ "") :
    ∃ p, value = some p ∧ host.toLowerCase p = host.toLowerCase (value.getD "") := by
  cases value with
  | none => exact absurd host.toLowerCase_empty named
  | some p => exact ⟨p, rfl, rfl⟩

/-- The checks a 440 passed, by what it was read as. -/
theorem readGrant_eq_some {author : String} {grant : ReadGrant}
    (read : readGrant host opts ev author = some grant) :
    ∃ grantee cap scope, (∃ p, ev.tagValue "p" = some p ∧ host.toLowerCase p = grantee) ∧
      ev.tagValue "da-cap" = some cap ∧ ev.tag "da-scope" = some scope ∧
      ((cap = "shadow" ∧ scopedTo opts scope author = true ∧ grantee ≠ author ∧
          grant = .shadow grantee) ∨
        (∃ name, cap = "mention" ∧ grant = .mention grantee name) ∨
        (cap ∈ TASK_CAPS ∧ scopedTo opts scope opts.me = true ∧ grant = .task grantee cap)) := by
  unfold readGrant at read
  simp only at read
  split at read
  case h_2 => exact absurd read (by simp)
  rename_i scope cap scopeTag capped
  by_cases blank : host.toLowerCase ((ev.tagValue "p").getD "") = "" ∨ cap = ""
  · rw [if_pos blank] at read
    exact absurd read (by simp)
  rw [if_neg blank] at read
  have named := named_of_getD (not_or.mp blank).1
  refine ⟨_, cap, scope, named, capped, scopeTag, ?_⟩
  by_cases shadow : cap = "shadow"
  · rw [if_pos shadow] at read
    split_ifs at read with refused
    obtain ⟨inScope, other⟩ := not_or.mp refused
    exact Or.inl ⟨shadow, by simpa using inScope, other, (Option.some.inj read).symm⟩
  rw [if_neg shadow] at read
  by_cases mention : cap = "mention"
  · rw [if_pos mention] at read
    split at read
    · rename_i name _
      split_ifs at read
      exact Or.inr (Or.inl ⟨name, mention, (Option.some.inj read).symm⟩)
    · exact absurd read (by simp)
  · rw [if_neg mention] at read
    split_ifs at read with refused
    obtain ⟨task, inScope⟩ := not_or.mp refused
    exact Or.inr (Or.inr ⟨not_not.mp task, by simpa using inScope,
      (Option.some.inj read).symm⟩)

theorem grantOf_eq_some {grant : ReadGrant} (read : grantOf host opts ev = some grant) :
    Counts host opts ev ∧ ev.kind = 440 ∧
      readGrant host opts ev (host.toLowerCase ev.pubkey) = some grant := by
  unfold grantOf at read
  split_ifs at read with counted
  exact ⟨counted.1, counted.2, read⟩

/-- The event that set a slot, read back. -/
theorem sets_slots {slot : Slot} {entry : Entry}
    (sets : (slots host opts nowSec).sets ev = some (slot, entry)) :
    ∃ grant, grantOf host opts ev = some grant ∧ grant.slot ev = slot ∧
      grant.entry ev (host.toLowerCase ev.pubkey) = entry := by
  obtain ⟨grant, read, same⟩ := Option.map_eq_some_iff.mp sets
  exact ⟨grant, read, (Prod.mk.inj same).1, (Prod.mk.inj same).2⟩

/-- A grant that stands had not expired. -/
theorem unexpired_of_keeps {slot : Slot} {entry : Entry}
    (sets : (slots host opts nowSec).sets ev = some (slot, entry))
    (keeps : (slots host opts nowSec).clears ev ≠ some entry.grantId) :
    grantExpired ev nowSec = false := by
  obtain ⟨grant, read, -, rfl⟩ := sets_slots sets
  by_contra expired
  have clear : clearsId host opts nowSec ev = some ev.id := by
    rw [clearsId, read]
    exact if_pos (by simpa using expired)
  exact keeps (by rw [ReadGrant.entry_grantId]; exact clear)

end Read

/-! ### Soundness -/

section Sound

variable {host : Host} {opts : FoldOptions} {nowSec : Int} {events : List Event}

theorem exists_taskGrant {key cap : String} {g : Grant}
    (held : finalAt host opts nowSec events (.task key cap) = some (.task g)) :
    ∃ ev ∈ events, TaskGrant host opts nowSec ev key cap ∧
      g = { grantId := ev.id, grantor := host.toLowerCase ev.pubkey, cap, shadow := false } := by
  obtain ⟨ev, stands⟩ := Registers.heldAt_eq_some.mp held
  have unexpired := unexpired_of_keeps stands.sets stands.keeps
  obtain ⟨grant, read, slot, entry⟩ := sets_slots stands.sets
  obtain ⟨counts, kind, checks⟩ := grantOf_eq_some read
  obtain ⟨grantee, held, scope, named, capped, scopeTag, cases⟩ := readGrant_eq_some checks
  refine ⟨ev, (mem_sortBy _).mp stands.mem, ?_⟩
  rcases cases with ⟨-, -, -, rfl⟩ | ⟨name, -, rfl⟩ | ⟨task, inScope, rfl⟩
  · exact absurd slot (by simp [ReadGrant.slot])
  · exact absurd slot (by simp [ReadGrant.slot])
  · simp only [ReadGrant.slot, Slot.task.injEq] at slot
    simp only [ReadGrant.entry, Entry.task.injEq] at entry
    obtain ⟨rfl, rfl⟩ := slot
    exact ⟨⟨⟨counts.1, counts.2, kind, unexpired, named, capped⟩, task, scope, scopeTag, inScope⟩,
      entry.symm⟩

theorem exists_shadowGrant {key : String} {s : Voice}
    (held : finalAt host opts nowSec events (.voice key) = some (.voice s)) :
    ∃ ev ∈ events, ShadowGrant host opts nowSec ev key s.grantor ∧ s.grantId = ev.id := by
  obtain ⟨ev, stands⟩ := Registers.heldAt_eq_some.mp held
  have unexpired := unexpired_of_keeps stands.sets stands.keeps
  obtain ⟨grant, read, slot, entry⟩ := sets_slots stands.sets
  obtain ⟨counts, kind, checks⟩ := grantOf_eq_some read
  obtain ⟨grantee, held, scope, named, capped, scopeTag, cases⟩ := readGrant_eq_some checks
  refine ⟨ev, (mem_sortBy _).mp stands.mem, ?_⟩
  rcases cases with ⟨shadow, inScope, other, rfl⟩ | ⟨name, -, rfl⟩ | ⟨task, inScope, rfl⟩
  · simp only [ReadGrant.slot, Slot.voice.injEq] at slot
    simp only [ReadGrant.entry, Entry.voice.injEq] at entry
    subst slot entry
    exact ⟨⟨⟨counts.1, counts.2, kind, unexpired, named, shadow ▸ capped⟩, rfl, other, scope,
      scopeTag, inScope⟩, rfl⟩
  · exact absurd slot (by simp [ReadGrant.slot])
  · exact absurd slot (by simp [ReadGrant.slot])

/-- **Every pair of the live map rests on a task grant**, its own or its grantor's. -/
theorem justified_of_liveAt {key cap : String} {g : Grant}
    (held : liveAt (foldGrantsWith host opts nowSec events).live key cap = some g) :
    Justified host opts nowSec events key cap := by
  rcases (liveAt_eq_some events).mp held with own | ⟨-, s, own, voiced, granted, -⟩
  · obtain ⟨ev, member, task, -⟩ := exists_taskGrant own
    exact Or.inl ⟨ev, member, task⟩
  · obtain ⟨shadow, member, speaks, -⟩ := exists_shadowGrant voiced
    obtain ⟨ev, member', task, -⟩ := exists_taskGrant granted
    exact Or.inr ⟨shadow, member, ev, member', s.grantor, speaks, task⟩

/-- Without a task grant for a cap nobody holds it: shadows and mentions add nothing alone. -/
theorem liveAt_eq_none {cap : String}
    (untasked : ∀ ev ∈ events, ∀ key, ¬ TaskGrant host opts nowSec ev key cap) (key : String) :
    liveAt (foldGrantsWith host opts nowSec events).live key cap = none := by
  refine Option.eq_none_iff_forall_ne_some.mpr fun g held => ?_
  rcases justified_of_liveAt held with ⟨ev, member, task⟩ | ⟨-, -, ev, member, grantor, -, task⟩
  · exact untasked ev member key task
  · exact untasked ev member grantor task

end Sound

/-! ### One event more -/

section Insert

variable {host : Host} {opts : FoldOptions} {nowSec : Int} (first last : List Event) {ev : Event}

/-- An event of a non-grantor changes nothing. -/
theorem foldGrantsWith_insert_stranger
    (stranger : isGrantor host opts (host.toLowerCase ev.pubkey) = false) :
    foldGrantsWith host opts nowSec (first ++ ev :: last) =
      foldGrantsWith host opts nowSec (first ++ last) := by
  obtain ⟨before, after, without, inserted⟩ :=
    sortBy_insert Event.createdAt first last ev
  have skipped : ∀ st, foldEvent host opts nowSec st ev = st := by
    intro st
    rw [foldEvent]
    simp only
    rw [if_pos (by rw [stranger]; rfl)]
  rw [foldGrantsWith, foldGrantsWith, foldState, foldState, without, inserted, List.foldl_append,
    List.foldl_append, List.foldl_cons, skipped]

/-- A slot that one more revocation leaves filled was filled without it. -/
theorem finalAt_insert_revocation (revocation : ev.kind = 441) {slot : Slot} {entry : Entry}
    (held : finalAt host opts nowSec (first ++ ev :: last) slot = some entry) :
    finalAt host opts nowSec (first ++ last) slot = some entry := by
  obtain ⟨before, after, without, inserted⟩ :=
    sortBy_insert Event.createdAt first last ev
  rw [finalAt, inserted] at held
  rw [finalAt, without]
  refine Registers.heldAt_of_heldAt_insert (fun other sets => ?_) held
  obtain ⟨grant, read, -, -⟩ := sets_slots sets
  have kind := (grantOf_eq_some read).2.1
  rw [revocation] at kind
  exact absurd kind (by decide)

/-- **One more 441 never adds a pair**, wherever it is listed. -/
theorem liveAt_insert_revocation (revocation : ev.kind = 441) {key cap : String} {g : Grant}
    (held : liveAt (foldGrantsWith host opts nowSec (first ++ ev :: last)).live key cap = some g) :
    ∃ g', liveAt (foldGrantsWith host opts nowSec (first ++ last)).live key cap = some g' := by
  rcases (liveAt_eq_some _).mp held with own | ⟨-, s, granted, voiced, tasked, -⟩
  · exact ⟨g, (liveAt_eq_some _).mpr (Or.inl (finalAt_insert_revocation _ _ revocation own))⟩
  · have voiced' := finalAt_insert_revocation _ _ revocation voiced
    have tasked' := finalAt_insert_revocation _ _ revocation tasked
    cases own : liveAt (foldState host opts nowSec (first ++ last)).live key cap with
    | some g' => exact ⟨g', (liveAt_eq_some _).mpr (Or.inl ((task_finalAt _).mp own))⟩
    | none =>
        refine ⟨_, (liveAt_eq_some _).mpr (Or.inr ⟨?_, s, granted, voiced', tasked', rfl⟩)⟩
        rwa [finalAt, (tracks_foldState host opts nowSec _).holds.live, Option.map_eq_none_iff]

theorem mentions_insert_revocation (revocation : ev.kind = 441) {m : Mention}
    (member : m ∈ (foldGrantsWith host opts nowSec (first ++ ev :: last)).mentions) :
    m ∈ (foldGrantsWith host opts nowSec (first ++ last)).mentions :=
  (mem_mentions_foldGrantsWith _).mpr (finalAt_insert_revocation _ _ revocation
    ((mem_mentions_foldGrantsWith _).mp member))

end Insert

/-- **The task fold is sound and a revocation only takes away.** Every pair of the live map is
justified; without a task grant nobody holds a cap; an event of a non-grantor changes nothing; and
one more 441 adds neither a pair nor a mention. -/
theorem foldGrantsWith_sound (host : Host) (opts : FoldOptions) (nowSec : Int)
    (events : List Event) :
    (∀ key cap g, liveAt (foldGrantsWith host opts nowSec events).live key cap = some g →
      Justified host opts nowSec events key cap) ∧
    (∀ cap, (∀ ev ∈ events, ∀ key, ¬ TaskGrant host opts nowSec ev key cap) → ∀ key,
      liveAt (foldGrantsWith host opts nowSec events).live key cap = none) ∧
    (∀ first last ev, events = first ++ last →
      isGrantor host opts (host.toLowerCase ev.pubkey) = false →
        foldGrantsWith host opts nowSec (first ++ ev :: last) =
          foldGrantsWith host opts nowSec events) ∧
    (∀ first last ev, events = first ++ last → ev.kind = 441 →
      (∀ key cap g,
        liveAt (foldGrantsWith host opts nowSec (first ++ ev :: last)).live key cap = some g →
          ∃ g', liveAt (foldGrantsWith host opts nowSec events).live key cap = some g') ∧
      ∀ m ∈ (foldGrantsWith host opts nowSec (first ++ ev :: last)).mentions,
        m ∈ (foldGrantsWith host opts nowSec events).mentions) := by
  refine ⟨fun _ _ _ held => justified_of_liveAt held, fun _ untasked => liveAt_eq_none untasked,
    ?_, ?_⟩
  · rintro first last ev rfl stranger
    exact foldGrantsWith_insert_stranger first last stranger
  · rintro first last ev rfl revocation
    exact ⟨fun _ _ _ held => liveAt_insert_revocation first last revocation held,
      fun _ member => mentions_insert_revocation first last revocation member⟩

end Nvoy.Admission
