/-
The grant fold as registers.

The four maps of `foldGrantsWith` are one family of registers: a slot for each task capability of a
key, one for each voice, one for each mention grant. A 440 sets its slot; a 441, and a 440 that has
expired, clear every slot that holds the grant they name. What the fold keeps is then what
`Registers` says of one slot at a time.

* `slots` — the events as the registers read them.
* `holds_foldState` — after any events, the maps hold what the registers hold, and `ended` is the
  last clear that hit a key.
-/

import Nvoy.Lib.Registers
import Nvoy.Admission.GrantFold

namespace Nvoy

namespace Admission

open StableSort

/-! ### Slots -/

/-- Where a grant is kept. -/
inductive Slot
  | task (grantee cap : String)
  | voice (grantee : String)
  | named (grantId : String)
  deriving DecidableEq, Repr

/-- What a slot keeps. -/
inductive Entry
  | task (g : Grant)
  | voice (s : Voice)
  | mention (m : Mention)
  deriving DecidableEq, Repr

@[simp] def Entry.grantId : Entry → String
  | .task g => g.grantId
  | .voice s => s.grantId
  | .mention m => m.grantId

/-- The key whose grant a slot is; a mention is nobody's grant. -/
def Slot.owner : Slot → Option String
  | .task grantee _ => some grantee
  | .voice grantee => some grantee
  | .named _ => none

/-- Why an event ends a grant: a revocation, or the grant's own expiry. -/
def endReason (ev : Event) : EndReason := if ev.kind = 441 then .revoked else .expired

def ReadGrant.slot (ev : Event) : ReadGrant → Slot
  | .shadow grantee => .voice grantee
  | .mention _ _ => .named ev.id
  | .task grantee cap => .task grantee cap

def ReadGrant.entry (ev : Event) (author : String) : ReadGrant → Entry
  | .shadow _ => .voice { grantId := ev.id, grantor := author }
  | .mention grantee name =>
      .mention { pubkey := grantee, name, grantId := ev.id, grantor := author,
                 createdAt := ev.createdAt }
  | .task _ cap => .task { grantId := ev.id, grantor := author, cap, shadow := false }

theorem ReadGrant.entry_grantId (ev : Event) (author : String) (grant : ReadGrant) :
    (grant.entry ev author).grantId = ev.id := by
  cases grant <;> rfl

section Read

variable (host : Host) (opts : FoldOptions) (nowSec : Int)

/-- The events that count: verified, and by a grantor. -/
def Counts (ev : Event) : Prop :=
  isGrantor host opts (host.toLowerCase ev.pubkey) = true ∧ host.verifyEvent ev = true

instance (ev : Event) : Decidable (Counts host opts ev) := inferInstanceAs (Decidable (_ ∧ _))

/-- The grant that a counted 440 asks for. -/
def grantOf (ev : Event) : Option ReadGrant :=
  if Counts host opts ev ∧ ev.kind = 440 then readGrant host opts ev (host.toLowerCase ev.pubkey)
  else none

/-- The grant that a counted 441 names. -/
def revokes (ev : Event) : Option String :=
  if Counts host opts ev ∧ ev.kind = 441 then
    (ev.tagValue "e").filter fun id => id ≠ ""
  else none

/-- The id an event clears: the one a 441 names, or an expired grant's own. -/
def clearsId (ev : Event) : Option String :=
  match grantOf host opts ev with
  | some _ => if grantExpired ev nowSec then some ev.id else none
  | none => revokes host opts ev

/-- The fold's maps as registers. -/
def slots : Registers Event Slot Entry String where
  sets ev := (grantOf host opts ev).map fun grant =>
    (grant.slot ev, grant.entry ev (host.toLowerCase ev.pubkey))
  clears := clearsId host opts nowSec
  idOf := Entry.grantId
  ownClear := by
    intro ev slot entry id set clear
    obtain ⟨grant, read, same⟩ := Option.map_eq_some_iff.mp set
    rw [clearsId, read] at clear
    simp only at clear
    split_ifs at clear
    rw [← (Prod.mk.inj same).2, ReadGrant.entry_grantId]
    exact (Option.some.inj clear).symm

end Read

/-! ### The maps hold what the registers hold -/

/-- The maps of the fold, slot by slot. -/
structure Holds (st : FoldState) (held : Slot → Option Entry) : Prop where
  live : ∀ pk cap, held (.task pk cap) = ((st.live.get pk).bind (·.get cap)).map .task
  voices : ∀ pk, held (.voice pk) = (st.voices.get pk).map .voice
  named : ∀ id, held (.named id) = (st.named.get id).map .mention
  namedId : ∀ id mention, st.named.get id = some mention → mention.grantId = id
  /-- No key is kept with no grant. -/
  full : ∀ pk caps, st.live.get pk = some caps → caps.size ≠ 0

theorem holds_start : Holds .start fun _ => none :=
  ⟨fun _ _ => rfl, fun _ => rfl, fun _ => rfl, fun _ _ found => by simp [FoldState.start] at found,
    fun _ _ found => by simp [FoldState.start] at found⟩

theorem Holds.put {st : FoldState} {held : Slot → Option Entry} (holds : Holds st held)
    (ev : Event) (author : String) (grant : ReadGrant) :
    Holds (st.put ev author grant) fun slot =>
      if grant.slot ev = slot then some (grant.entry ev author) else held slot := by
  cases grant with
  | shadow grantee =>
      refine ⟨fun pk cap => ?_, fun pk => ?_, fun id => ?_, holds.namedId, holds.full⟩
      · simp only [ReadGrant.slot, reduceCtorEq, if_false]
        exact holds.live pk cap
      · simp only [ReadGrant.slot, ReadGrant.entry, FoldState.put, JsMap.get_set, Slot.voice.injEq,
          eq_comm (a := pk)]
        split_ifs
        · rfl
        · exact holds.voices pk
      · simp only [ReadGrant.slot, reduceCtorEq, if_false]
        exact holds.named id
  | mention grantee name =>
      refine ⟨fun pk cap => ?_, fun pk => ?_, fun id => ?_, fun id mention found => ?_,
        holds.full⟩
      · simp only [ReadGrant.slot, reduceCtorEq, if_false]
        exact holds.live pk cap
      · simp only [ReadGrant.slot, reduceCtorEq, if_false]
        exact holds.voices pk
      · simp only [ReadGrant.slot, ReadGrant.entry, FoldState.put, JsMap.get_set, Slot.named.injEq,
          eq_comm (a := id)]
        split_ifs
        · rfl
        · exact holds.named id
      · simp only [FoldState.put, JsMap.get_set] at found
        split_ifs at found with same
        · rw [← Option.some.inj found, same]
        · exact holds.namedId id mention found
  | task grantee cap =>
      refine ⟨fun pk other => ?_, fun pk => ?_, fun id => ?_, holds.namedId, fun pk caps found => ?_⟩
      · simp only [ReadGrant.slot, ReadGrant.entry, FoldState.put, JsMap.get_set, Slot.task.injEq]
        by_cases same : pk = grantee
        · subst same
          rw [if_pos rfl, Option.bind_some, JsMap.get_set]
          by_cases sameCap : other = cap
          · rw [if_pos ⟨rfl, sameCap.symm⟩, if_pos sameCap]
            rfl
          · rw [if_neg fun both => sameCap both.2.symm, if_neg sameCap, holds.live]
            cases st.live.get pk <;> rfl
        · rw [if_neg fun both => same both.1.symm, if_neg same, holds.live]
      · simp only [ReadGrant.slot, reduceCtorEq, if_false]
        exact holds.voices pk
      · simp only [ReadGrant.slot, reduceCtorEq, if_false]
        exact holds.named id
      · simp only [FoldState.put, JsMap.get_set] at found
        split_ifs at found
        · rw [← Option.some.inj found]
          exact JsMap.size_ne_zero.mpr ⟨cap, _, JsMap.get_set_self _ _ _⟩
        · exact holds.full pk caps found

theorem Holds.drop {st : FoldState} {held : Slot → Option Entry} (holds : Holds st held)
    (id : String) (why : EndReason) :
    Holds (st.drop id why) fun slot => (held slot).filter fun entry => entry.grantId ≠ id := by
  refine ⟨fun pk cap => ?_, fun pk => ?_, fun other => ?_, fun other mention found => ?_,
    fun pk caps found => ?_⟩
  · rw [holds.live]
    refine Option.ext fun entry => ?_
    simp only [FoldState.drop, JsMap.get_filter, JsMap.get_mapValues, Option.filter_eq_some_iff,
      Option.map_eq_some_iff, Option.bind_eq_some_iff, decide_eq_true_eq]
    constructor
    · rintro ⟨⟨g, ⟨caps, held, found⟩, rfl⟩, other⟩
      have kept : (caps.filter fun _ g => g.grantId ≠ id).get cap = some g := by
        rw [JsMap.get_filter, found]
        exact Option.filter_some_pos (by simpa using other)
      exact ⟨g, ⟨_, ⟨⟨caps, held, rfl⟩, JsMap.size_ne_zero.mpr ⟨cap, g, kept⟩⟩, kept⟩, rfl⟩
    · rintro ⟨g, ⟨_, ⟨⟨caps, held, rfl⟩, -⟩, kept⟩, rfl⟩
      rw [JsMap.get_filter, Option.filter_eq_some_iff] at kept
      exact ⟨⟨g, ⟨caps, held, kept.1⟩, rfl⟩, by simpa using kept.2⟩
  · rw [holds.voices]
    simp only [FoldState.drop, JsMap.get_filter]
    cases st.voices.get pk with
    | none => rfl
    | some voice => by_cases same : voice.grantId = id <;> simp [Entry.grantId, Option.filter, same]
  · rw [holds.named]
    simp only [FoldState.drop, JsMap.get_delete]
    cases found : st.named.get other with
    | none => simp
    | some mention =>
        have same := holds.namedId other mention found
        by_cases hit : other = id <;> simp [Entry.grantId, Option.filter, same, hit]
  · simp only [FoldState.drop, JsMap.get_delete] at found
    split_ifs at found
    exact holds.namedId other mention found
  · simp only [FoldState.drop, JsMap.get_filter, Option.filter_eq_some_iff, decide_eq_true_eq]
      at found
    exact found.2

/-- `drop` notes its reason for the keys that held the grant, and for no other. -/
theorem Holds.ended_drop {st : FoldState} {held : Slot → Option Entry} (holds : Holds st held)
    (id : String) (why : EndReason) (pk : String)
    [Decidable (∃ slot entry, slot.owner = some pk ∧ held slot = some entry ∧ entry.grantId = id)] :
    (st.drop id why).ended.get pk =
      if ∃ slot entry, slot.owner = some pk ∧ held slot = some entry ∧ entry.grantId = id then
        some why
      else st.ended.get pk := by
  have liveHit : (∃ entry ∈ st.live.entries, entry.1 = pk ∧
      entry.2.values.any (·.grantId = id) = true) ↔
        ∃ cap g, held (.task pk cap) = some (.task g) ∧ g.grantId = id := by
    simp only [holds.live, Option.map_eq_some_iff, Option.bind_eq_some_iff, List.any_eq_true,
      JsMap.mem_values, decide_eq_true_eq, Entry.task.injEq, exists_eq_right]
    constructor
    · rintro ⟨⟨_, caps⟩, member, rfl, g, ⟨cap, found⟩, same⟩
      exact ⟨cap, g, ⟨caps, JsMap.mem_entries.mp member, found⟩, same⟩
    · rintro ⟨cap, g, ⟨caps, keyed, found⟩, same⟩
      exact ⟨(pk, caps), JsMap.mem_entries.mpr keyed, rfl, g, ⟨cap, found⟩, same⟩
  have voiceHit : (∃ entry ∈ st.voices.entries, entry.1 = pk ∧ entry.2.grantId = id) ↔
      ∃ s, held (.voice pk) = some (.voice s) ∧ s.grantId = id := by
    simp only [holds.voices, Option.map_eq_some_iff, Entry.voice.injEq, exists_eq_right]
    constructor
    · rintro ⟨⟨_, s⟩, member, rfl, same⟩
      exact ⟨s, JsMap.mem_entries.mp member, same⟩
    · rintro ⟨s, found, same⟩
      exact ⟨(pk, s), JsMap.mem_entries.mpr found, rfl, same⟩
  have both : (∃ slot entry, slot.owner = some pk ∧ held slot = some entry ∧ entry.grantId = id) ↔
      (∃ s, held (.voice pk) = some (.voice s) ∧ s.grantId = id) ∨
        ∃ cap g, held (.task pk cap) = some (.task g) ∧ g.grantId = id := by
    constructor
    · rintro ⟨slot, entry, owned, found, same⟩
      cases slot with
      | task grantee cap =>
          cases owned
          obtain ⟨g, -, rfl⟩ := Option.map_eq_some_iff.mp (holds.live pk cap ▸ found)
          exact Or.inr ⟨cap, g, found, same⟩
      | voice grantee =>
          cases owned
          obtain ⟨s, -, rfl⟩ := Option.map_eq_some_iff.mp (holds.voices pk ▸ found)
          exact Or.inl ⟨s, found, same⟩
      | named _ => cases owned
    · rintro (⟨s, found, same⟩ | ⟨cap, g, found, same⟩)
      · exact ⟨.voice pk, .voice s, rfl, found, same⟩
      · exact ⟨.task pk cap, .task g, rfl, found, same⟩
  simp only [FoldState.drop, JsMap.get_foldl_set]
  by_cases voiced : ∃ s, held (.voice pk) = some (.voice s) ∧ s.grantId = id
  · rw [if_pos (voiceHit.mpr voiced), if_pos (both.mpr (Or.inl voiced))]
  · rw [if_neg (mt voiceHit.mp voiced)]
    by_cases tasked : ∃ cap g, held (.task pk cap) = some (.task g) ∧ g.grantId = id
    · rw [if_pos (liveHit.mpr tasked), if_pos (both.mpr (Or.inr tasked))]
    · rw [if_neg (mt liveHit.mp tasked), if_neg (mt both.mp (not_or.mpr ⟨voiced, tasked⟩))]

/-! ### The run -/

section Run

variable (host : Host) (opts : FoldOptions) (nowSec : Int)

/-- The fold's state after these events, register by register. -/
structure Tracks (st : FoldState) (events : List Event) : Prop where
  holds : Holds st fun slot => (slots host opts nowSec).heldAt slot events
  ended : ∀ pk, st.ended.get pk =
    (slots host opts nowSec).endedAt Slot.owner endReason pk events

variable {host opts nowSec}

theorem setAt_slots {ev : Event} {grant : ReadGrant} (read : grantOf host opts ev = some grant)
    (slot : Slot) (held : Option Entry) :
    (slots host opts nowSec).setAt slot held ev =
      if grant.slot ev = slot then some (grant.entry ev (host.toLowerCase ev.pubkey)) else held := by
  unfold Registers.setAt
  simp [slots, read]

theorem setAt_none {ev : Event} (read : grantOf host opts ev = none) (slot : Slot)
    (held : Option Entry) : (slots host opts nowSec).setAt slot held ev = held := by
  unfold Registers.setAt
  simp [slots, read]

theorem clearBy_some {ev : Event} {id : String} (clear : clearsId host opts nowSec ev = some id)
    (held : Option Entry) :
    (slots host opts nowSec).clearBy held ev = held.filter fun entry => entry.grantId ≠ id := by
  have same : (slots host opts nowSec).clears ev = some id := clear
  rw [Registers.clearBy, same]
  rfl

theorem clearBy_none {ev : Event} (clear : clearsId host opts nowSec ev = none)
    (held : Option Entry) : (slots host opts nowSec).clearBy held ev = held := by
  have same : (slots host opts nowSec).clears ev = none := clear
  rw [Registers.clearBy, same]

/-- An event that neither sets nor clears leaves everything as it was. -/
theorem Tracks.idle {st : FoldState} {events : List Event} {ev : Event}
    (tracks : Tracks host opts nowSec st events) {rejected : Nat}
    (read : grantOf host opts ev = none) (revoke : revokes host opts ev = none) :
    Tracks host opts nowSec { st with rejected } (events ++ [ev]) := by
  have clear : clearsId host opts nowSec ev = none := by rw [clearsId, read]; exact revoke
  have same : ∀ slot, (slots host opts nowSec).heldAt slot (events ++ [ev]) =
      (slots host opts nowSec).heldAt slot events := by
    intro slot
    rw [Registers.heldAt_snoc, Registers.stepAt, setAt_none read, clearBy_none clear]
  refine ⟨?_, fun pk => ?_⟩
  · simp only [same]
    exact ⟨tracks.holds.live, tracks.holds.voices, tracks.holds.named, tracks.holds.namedId,
      tracks.holds.full⟩
  · classical
    rw [Registers.endedAt_snoc, if_neg]
    · exact tracks.ended pk
    · rintro ⟨slot, entry, -, -, cleared⟩
      exact absurd (clear.symm.trans cleared) (by simp)

/-- An event that clears `id` for `why`, after whatever it set. -/
theorem Tracks.clear {st st' : FoldState} {events : List Event} {ev : Event} {id : String}
    (tracks : Tracks host opts nowSec st events)
    (holds : Holds st' fun slot => (slots host opts nowSec).setAt slot
      ((slots host opts nowSec).heldAt slot events) ev)
    (sameEnded : st'.ended = st.ended) (clear : clearsId host opts nowSec ev = some id) :
    Tracks host opts nowSec (st'.drop id (endReason ev)) (events ++ [ev]) := by
  refine ⟨?_, fun pk => ?_⟩
  · have after := holds.drop id (endReason ev)
    have same : ∀ slot, (slots host opts nowSec).heldAt slot (events ++ [ev]) =
        ((slots host opts nowSec).setAt slot
          ((slots host opts nowSec).heldAt slot events) ev).filter
            fun entry => entry.grantId ≠ id := by
      intro slot
      rw [Registers.heldAt_snoc, Registers.stepAt, clearBy_some clear]
    simpa only [same] using after
  · classical
    rw [holds.ended_drop, sameEnded, tracks.ended, Registers.endedAt_snoc]
    refine if_congr ⟨?_, ?_⟩ rfl rfl
    · rintro ⟨slot, entry, owned, found, hit⟩
      exact ⟨slot, entry, owned, found, clear.trans (congrArg some hit.symm)⟩
    · rintro ⟨slot, entry, owned, found, cleared⟩
      exact ⟨slot, entry, owned, found, (Option.some.inj (clear.symm.trans cleared)).symm⟩

/-- One event of the loop is one event of the registers. -/
theorem Tracks.step {st : FoldState} {events : List Event}
    (tracks : Tracks host opts nowSec st events) (ev : Event) :
    Tracks host opts nowSec (foldEvent host opts nowSec st ev) (events ++ [ev]) := by
  unfold foldEvent
  by_cases grantor : isGrantor host opts (host.toLowerCase ev.pubkey) = true
  case neg =>
    have out : ¬ Counts host opts ev := fun counts => grantor counts.1
    rw [if_pos (by simpa using grantor)]
    exact tracks.idle (if_neg fun both => out both.1) (if_neg fun both => out both.1)
  rw [if_neg (by simpa using grantor)]
  by_cases verified : host.verifyEvent ev = true
  case neg =>
    have out : ¬ Counts host opts ev := fun counts => verified counts.2
    rw [if_pos (by simpa using verified)]
    exact tracks.idle (if_neg fun both => out both.1) (if_neg fun both => out both.1)
  rw [if_neg (by simpa using verified)]
  have counts : Counts host opts ev := ⟨grantor, verified⟩
  by_cases revocation : ev.kind = 441
  · have noGrant : grantOf host opts ev = none := if_neg fun both => by
      rw [revocation] at both
      exact absurd both.2 (by decide)
    have revoke : revokes host opts ev = (ev.tagValue "e").filter fun id => id ≠ "" :=
      if_pos ⟨counts, revocation⟩
    rw [if_pos revocation]
    cases named : ev.tagValue "e" with
    | none => exact tracks.idle noGrant (by rw [revoke, named]; rfl)
    | some id =>
        simp only
        by_cases blank : id = ""
        · rw [if_pos blank]
          exact tracks.idle noGrant (by rw [revoke, named]; simp [Option.filter, blank])
        · have clear : clearsId host opts nowSec ev = some id := by
            rw [clearsId, noGrant]
            simpa [named, Option.filter, blank] using revoke
          have why : endReason ev = .revoked := if_pos revocation
          rw [if_neg blank, ← why]
          refine tracks.clear ?_ rfl clear
          simpa only [setAt_none noGrant] using tracks.holds
  rw [if_neg revocation]
  by_cases grantKind : ev.kind = 440
  case neg =>
    rw [if_pos grantKind]
    exact tracks.idle (if_neg fun both => grantKind both.2) (if_neg fun both => revocation both.2)
  rw [if_neg (not_not.mpr grantKind)]
  have noRevoke : revokes host opts ev = none := if_neg fun both => revocation both.2
  have readSame : grantOf host opts ev = readGrant host opts ev (host.toLowerCase ev.pubkey) :=
    if_pos ⟨counts, grantKind⟩
  simp only
  cases read : readGrant host opts ev (host.toLowerCase ev.pubkey) with
  | none => exact tracks.idle (readSame.trans read) noRevoke
  | some grant =>
      have granted := readSame.trans read
      have holds := tracks.holds.put ev (host.toLowerCase ev.pubkey) grant
      have set : ∀ slot, (slots host opts nowSec).setAt slot
          ((slots host opts nowSec).heldAt slot events) ev =
            if grant.slot ev = slot then some (grant.entry ev (host.toLowerCase ev.pubkey))
            else (slots host opts nowSec).heldAt slot events :=
        fun slot => setAt_slots granted slot _
      have sameEnded : (st.put ev (host.toLowerCase ev.pubkey) grant).ended = st.ended := by
        cases grant <;> rfl
      simp only
      by_cases expired : grantExpired ev nowSec = true
      · have clear : clearsId host opts nowSec ev = some ev.id := by
          rw [clearsId, granted]
          exact if_pos expired
        have why : endReason ev = .expired := if_neg revocation
        rw [if_pos expired, ← why]
        refine tracks.clear ?_ sameEnded clear
        simpa only [set] using holds
      · have clear : clearsId host opts nowSec ev = none := by
          rw [clearsId, granted]
          exact if_neg expired
        rw [if_neg expired]
        refine ⟨?_, fun pk => ?_⟩
        · have same : ∀ slot, (slots host opts nowSec).heldAt slot (events ++ [ev]) =
              if grant.slot ev = slot then some (grant.entry ev (host.toLowerCase ev.pubkey))
              else (slots host opts nowSec).heldAt slot events := by
            intro slot
            rw [Registers.heldAt_snoc, Registers.stepAt, set, clearBy_none clear]
          simpa only [same] using holds
        · classical
          rw [Registers.endedAt_snoc, if_neg, sameEnded, tracks.ended]
          rintro ⟨slot, entry, -, -, cleared⟩
          exact absurd (clear.symm.trans cleared) (by simp)

theorem tracks_foldl (events : List Event) :
    Tracks host opts nowSec (events.foldl (foldEvent host opts nowSec) .start) events := by
  induction events using List.reverseRecOn with
  | nil =>
      refine ⟨?_, fun pk => rfl⟩
      simp only [Registers.heldAt_nil]
      exact holds_start
  | append_singleton events ev ih =>
      rw [List.foldl_append]
      exact ih.step ev

/-- **The fold's maps are its registers**, run over the events in time order. -/
theorem tracks_foldState (host : Host) (opts : FoldOptions) (nowSec : Int) (events : List Event) :
    Tracks host opts nowSec (foldState host opts nowSec events)
      (sortBy Event.createdAt events) :=
  tracks_foldl _

end Run

end Admission

end Nvoy
