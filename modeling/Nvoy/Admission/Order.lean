/-
Whether the order in which relays return events can matter.

The fold sorts by `created_at` alone, so events of one second are read in the order they were listed.
Listing the events differently arranges those ties differently and nothing else.

* `Folded.Same` — two results with the same live map, endings, rejections and mentions.
* `LiveSteady` — no tie decides what a key or a mention holds: read off the events, without
  arranging them.
* `EndedSteady` — nor what ended a key that holds nothing.
* `orderFree_of_steady`, `liveSteady_of_orderFree` — the fold does not depend on the order when both
  hold, and only when the first does.
-/

import Nvoy.Admission.Soundness

namespace Nvoy.Admission

open StableSort Registers

/-! ### Same results -/

/-- The two folds answer alike. -/
structure Folded.Same (a b : Folded) : Prop where
  live : ∀ pk cap, liveAt a.live pk cap = liveAt b.live pk cap
  keys : ∀ pk, a.live.has pk = b.live.has pk
  ended : JsMap.Same a.ended b.ended
  rejected : a.rejected = b.rejected
  mentions : a.mentions = b.mentions

theorem Folded.Same.symm {a b : Folded} (same : Folded.Same a b) : Folded.Same b a :=
  ⟨fun pk cap => (same.live pk cap).symm, fun pk => (same.keys pk).symm,
    fun pk => (same.ended pk).symm, same.rejected.symm, same.mentions.symm⟩

theorem Folded.Same.trans {a b c : Folded} (same : Folded.Same a b) (same' : Folded.Same b c) :
    Folded.Same a c :=
  ⟨fun pk cap => (same.live pk cap).trans (same'.live pk cap),
    fun pk => (same.keys pk).trans (same'.keys pk), fun pk => (same.ended pk).trans (same'.ended pk),
    same.rejected.trans same'.rejected, same.mentions.trans same'.mentions⟩

section Conditions

variable (host : Host) (opts : FoldOptions) (nowSec : Int)

/-- The fold gives the same result for every order of the events. -/
def OrderFree (events : List Event) : Prop :=
  ∀ events' : List Event, events'.Perm events →
    (foldGrantsWith host opts nowSec events').Same (foldGrantsWith host opts nowSec events)

/-- Some arrangement of the ties leaves this entry in the slot. -/
abbrev MayKeep (events : List Event) (slot : Slot) (entry : Entry) : Prop :=
  (slots host opts nowSec).MayHold Event.createdAt events slot entry

/-- No arrangement of the ties makes a difference to the slot: the newest 440s of the slot all leave
the same entry, or all leave none, and no 441 of the same second decides between them. -/
abbrev Steady (events : List Event) (slot : Slot) : Prop :=
  (slots host opts nowSec).Settled Event.createdAt events slot

/-- The shadow passes a cap on to the key: its grantor may keep it and the key may not. -/
def PassesOn (events : List Event) (key : String) (s : Voice) : Prop :=
  ∃ cap, (∃ own, MayKeep host opts nowSec events (.task s.grantor cap) own) ∧
    ¬ ∃ own, MayKeep host opts nowSec events (.task key cap) own

/-- No tie decides what a key holds or whom the agent may mention. A shadow that passes nothing on
does not show. -/
structure LiveSteady (events : List Event) : Prop where
  task : ∀ key cap, Steady host opts nowSec events (.task key cap)
  voice : ∀ key,
    (∀ s, MayKeep host opts nowSec events (.voice key) (.voice s) →
      ¬ PassesOn host opts nowSec events key s) ∨ Steady host opts nowSec events (.voice key)
  named : ∀ id, Steady host opts nowSec events (.named id)

/-- The key keeps a grant, its own or a shadow's. -/
def KeepsGrant (events : List Event) (key : String) : Prop :=
  (∃ cap own, MayKeep host opts nowSec events (.task key cap) own) ∨
    ∃ s, MayKeep host opts nowSec events (.voice key) (.voice s) ∧
      PassesOn host opts nowSec events key s

/-- No tie decides why a key that keeps no grant lost the ones it had. -/
def EndedSteady (events : List Event) : Prop :=
  ∀ key, KeepsGrant host opts nowSec events key ∨
    (slots host opts nowSec).EndsSettled Slot.owner endReason Event.createdAt events key

end Conditions

section Order

variable {host : Host} {opts : FoldOptions} {nowSec : Int} {events : List Event}

/-! ### Rejections -/

/-- Grantor events that do not verify. -/
def Rejects (host : Host) (opts : FoldOptions) (ev : Event) : Bool :=
  isGrantor host opts (host.toLowerCase ev.pubkey) && !host.verifyEvent ev

theorem put_rejected (st : FoldState) (ev : Event) (author : String) (grant : ReadGrant) :
    (st.put ev author grant).rejected = st.rejected := by
  cases grant <;> rfl

theorem foldEvent_rejected (st : FoldState) (ev : Event) :
    (foldEvent host opts nowSec st ev).rejected =
      st.rejected + if Rejects host opts ev then 1 else 0 := by
  unfold foldEvent Rejects
  by_cases grantor : isGrantor host opts (host.toLowerCase ev.pubkey) = true
  case neg => simp [grantor]
  by_cases verified : host.verifyEvent ev = true
  case neg => simp [grantor, verified]
  simp only [grantor, verified, Bool.not_true, Bool.and_false, Bool.false_eq_true, if_false,
    Nat.add_zero]
  split
  · split
    · split <;> rfl
    · rfl
  split
  · rfl
  split
  · rfl
  · split
    · exact put_rejected _ _ _ _
    · exact put_rejected _ _ _ _

theorem foldState_rejected (events : List Event) :
    (foldState host opts nowSec events).rejected = (events.filter (Rejects host opts)).length := by
  have run : ∀ (events : List Event) (st : FoldState),
      (events.foldl (foldEvent host opts nowSec) st).rejected =
        st.rejected + (events.filter (Rejects host opts)).length := by
    intro events
    induction events with
    | nil => exact fun _ => rfl
    | cons ev events ih =>
        intro st
        rw [List.foldl_cons, ih, foldEvent_rejected, List.filter_cons]
        split_ifs
        · rw [List.length_cons]
          omega
        · omega
  rw [foldState, run, FoldState.start, Nat.zero_add]
  exact ((sortBy_perm _ events).filter _).length_eq

/-! ### From arrangements to results -/

theorem finalAt_of_arranges {s : List Event} (arranges : Arranges Event.createdAt s events)
    (slot : Slot) : finalAt host opts nowSec s slot = (slots host opts nowSec).heldAt slot s := by
  rw [finalAt, sortBy_eq_self _ arranges.ordered]

theorem arranges_of_perm {events' : List Event} (perm : events'.Perm events) :
    Arranges Event.createdAt (sortBy Event.createdAt events') events :=
  ⟨sortBy_inOrder _ _, (sortBy_perm _ _).trans perm⟩

theorem task_entry {pk cap : String} {entry : Entry}
    (held : finalAt host opts nowSec events (.task pk cap) = some entry) :
    ∃ g, entry = .task g ∧ g.shadow = false := by
  have shape := (tracks_foldState host opts nowSec events).holds.live
    pk cap
  rw [← finalAt, held] at shape
  obtain ⟨g, -, rfl⟩ := Option.map_eq_some_iff.mp shape.symm
  obtain ⟨ev, -, -, rfl⟩ := exists_taskGrant held
  exact ⟨_, rfl, rfl⟩

theorem named_entry {id : String} {entry : Entry}
    (held : finalAt host opts nowSec events (.named id) = some entry) :
    ∃ m, entry = .mention m ∧ m.grantId = id := by
  have holds := (tracks_foldState host opts nowSec events).holds
  have shape := holds.named id
  rw [← finalAt, held] at shape
  obtain ⟨m, found, rfl⟩ := Option.map_eq_some_iff.mp shape.symm
  exact ⟨m, rfl, holds.namedId id m found⟩

/-- The task slot is what the live map holds without a shadow. -/
theorem task_iff_liveAt {pk cap : String} {g : Grant} :
    finalAt host opts nowSec events (.task pk cap) = some (.task g) ↔
      liveAt (foldGrantsWith host opts nowSec events).live pk cap = some g ∧ g.shadow = false := by
  rw [liveAt_eq_some]
  constructor
  · intro held
    obtain ⟨_, same, plain⟩ := task_entry held
    cases same
    exact ⟨Or.inl held, plain⟩
  · rintro ⟨held | ⟨-, s, own, -, -, rfl⟩, plain⟩
    · exact held
    · exact absurd plain (by simp)

theorem Folded.Same.task_eq {events' : List Event}
    (same : ∀ pk cap, liveAt (foldGrantsWith host opts nowSec events).live pk cap =
      liveAt (foldGrantsWith host opts nowSec events').live pk cap) (pk cap : String) :
    finalAt host opts nowSec events (.task pk cap) =
      finalAt host opts nowSec events' (.task pk cap) := by
  refine Option.ext fun entry => ?_
  constructor
  · intro held
    obtain ⟨g, rfl, -⟩ := task_entry held
    rw [task_iff_liveAt] at held ⊢
    rwa [← same]
  · intro held
    obtain ⟨g, rfl, -⟩ := task_entry held
    rw [task_iff_liveAt] at held ⊢
    rwa [same]

/-- A task slot that some arrangement fills, every arrangement fills. -/
theorem exists_held_of_steady {slot : Slot} (steady : Steady host opts nowSec events slot)
    (may : ∃ entry, MayKeep host opts nowSec events slot entry) {s : List Event}
    (arranges : Arranges Event.createdAt s events) :
    ∃ entry, finalAt host opts nowSec s slot = some entry := by
  obtain ⟨entry, may⟩ := may
  rw [finalAt_of_arranges arranges]
  refine Option.ne_none_iff_exists'.mp fun empty => ?_
  exact steady.full entry may (mayBeEmpty_of_heldAt arranges empty)

/-! ### Order-free results are steady -/

section Only

variable (free : OrderFree host opts nowSec events)

include free

theorem OrderFree.arranged {s s' : List Event} (arranges : Arranges Event.createdAt s events)
    (arranges' : Arranges Event.createdAt s' events) :
    (foldGrantsWith host opts nowSec s).Same (foldGrantsWith host opts nowSec s') :=
  (free s arranges.perm).trans (free s' arranges'.perm).symm

theorem OrderFree.task (key cap : String) : Steady host opts nowSec events (.task key cap) := by
  refine settled_iff.mpr fun s s' arranges arranges' => ?_
  rw [← finalAt_of_arranges arranges, ← finalAt_of_arranges arranges']
  exact Folded.Same.task_eq (free.arranged arranges arranges').live key cap

theorem OrderFree.named (id : String) : Steady host opts nowSec events (.named id) := by
  refine settled_iff.mpr fun s s' arranges arranges' => ?_
  rw [← finalAt_of_arranges arranges, ← finalAt_of_arranges arranges']
  have same := (free.arranged arranges arranges').mentions
  refine Option.ext fun entry => ?_
  constructor
  · intro held
    obtain ⟨m, rfl, rfl⟩ := named_entry held
    rw [← mem_mentions_foldGrantsWith] at held ⊢
    rwa [← same]
  · intro held
    obtain ⟨m, rfl, rfl⟩ := named_entry held
    rw [← mem_mentions_foldGrantsWith] at held ⊢
    rwa [same]

theorem OrderFree.voice (key : String) :
    (∀ s, MayKeep host opts nowSec events (.voice key) (.voice s) →
      ¬ PassesOn host opts nowSec events key s) ∨ Steady host opts nowSec events (.voice key) := by
  by_contra neither
  obtain ⟨shows, unsteady⟩ := not_or.mp neither
  push Not at shows
  obtain ⟨voice, may, cap, held, unheld⟩ := shows
  obtain ⟨s₀, arranges₀, voiced₀⟩ := mayHold_iff.mp may
  rw [← finalAt_of_arranges arranges₀] at voiced₀
  -- the shadow shows in one arrangement, so the same shadow shows in all of them
  have unfilled : ∀ {s}, Arranges Event.createdAt s events →
      finalAt host opts nowSec s (.task key cap) = none := by
    intro s arranges
    rw [finalAt_of_arranges arranges]
    refine Option.eq_none_iff_forall_ne_some.mpr fun entry found => unheld ⟨entry, ?_⟩
    exact mayHold_of_heldAt arranges found
  have shown₀ : liveAt (foldGrantsWith host opts nowSec s₀).live key cap =
      some { grantId := voice.grantId, grantor := voice.grantor, cap, shadow := true } := by
    obtain ⟨own, filled⟩ := exists_held_of_steady (OrderFree.task free voice.grantor cap) held
      arranges₀
    obtain ⟨g, rfl, -⟩ := task_entry filled
    exact (liveAt_eq_some s₀).mpr (Or.inr ⟨unfilled arranges₀, voice, g, voiced₀, filled, rfl⟩)
  refine unsteady (settled_iff.mpr ?_)
  have always : ∀ {s}, Arranges Event.createdAt s events →
      (slots host opts nowSec).heldAt (.voice key) s = some (.voice voice) := by
    intro s arranges
    rw [← finalAt_of_arranges arranges]
    have shown := (free.arranged arranges arranges₀).live key cap
    rw [shown₀] at shown
    rcases (liveAt_eq_some s).mp shown with own | ⟨-, other, -, voiced, -, same⟩
    · rw [unfilled arranges] at own
      exact absurd own (by simp)
    · simp only [Grant.mk.injEq] at same
      rw [voiced, Voice.ext same.1.symm same.2.1.symm]
  intro s s' arranges arranges'
  rw [always arranges, always arranges']

/-- **Only steady events give the same live map and mentions in every order.** -/
theorem liveSteady_of_orderFree : LiveSteady host opts nowSec events :=
  ⟨OrderFree.task free, OrderFree.voice free, OrderFree.named free⟩

end Only

/-! ### Steady results are order-free -/

section Enough

variable (steady : LiveSteady host opts nowSec events)

include steady

theorem LiveSteady.task_eq {s s' : List Event} (arranges : Arranges Event.createdAt s events)
    (arranges' : Arranges Event.createdAt s' events) (key cap : String) :
    finalAt host opts nowSec s (.task key cap) = finalAt host opts nowSec s' (.task key cap) := by
  rw [finalAt_of_arranges arranges, finalAt_of_arranges arranges']
  exact settled_iff.mp (steady.task key cap) s s' arranges arranges'

theorem LiveSteady.passesOn {s : List Event} (arranges : Arranges Event.createdAt s events)
    {key cap : String} {voice : Voice} {own : Entry}
    (unfilled : finalAt host opts nowSec s (.task key cap) = none)
    (filled : finalAt host opts nowSec s (.task voice.grantor cap) = some own) :
    PassesOn host opts nowSec events key voice := by
  rw [finalAt_of_arranges arranges] at filled unfilled
  refine ⟨cap, ⟨own, mayHold_of_heldAt arranges filled⟩, ?_⟩
  rintro ⟨entry, may⟩
  exact (steady.task key cap).full entry may (mayBeEmpty_of_heldAt arranges unfilled)

theorem LiveSteady.liveAt_le {s s' : List Event} (arranges : Arranges Event.createdAt s events)
    (arranges' : Arranges Event.createdAt s' events) {key cap : String} {g : Grant}
    (held : liveAt (foldGrantsWith host opts nowSec s).live key cap = some g) :
    liveAt (foldGrantsWith host opts nowSec s').live key cap = some g := by
  refine (liveAt_eq_some s').mpr ?_
  rcases (liveAt_eq_some s).mp held with own | ⟨free, voice, own, voiced, tasked, rfl⟩
  · exact Or.inl (steady.task_eq arranges arranges' key cap ▸ own)
  · have passes := steady.passesOn arranges free tasked
    have may : MayKeep host opts nowSec events (.voice key) (.voice voice) :=
      mayHold_of_heldAt arranges (finalAt_of_arranges arranges _ ▸ voiced)
    have voiced' : finalAt host opts nowSec s' (.voice key) = some (.voice voice) := by
      rcases steady.voice key with hidden | settled
      · exact absurd passes (hidden voice may)
      · rw [finalAt_of_arranges arranges', ← settled_iff.mp settled s s' arranges arranges',
          ← finalAt_of_arranges arranges]
        exact voiced
    refine Or.inr ⟨?_, voice, own, voiced', ?_, rfl⟩
    · rw [← steady.task_eq arranges arranges']
      exact free
    · rw [← steady.task_eq arranges arranges']
      exact tasked

theorem LiveSteady.has_of_keeps {s : List Event} (arranges : Arranges Event.createdAt s events)
    {key : String} (keeps : KeepsGrant host opts nowSec events key) :
    (foldGrantsWith host opts nowSec s).live.has key = true := by
  refine (full_foldGrantsWith s).has_iff.mpr ?_
  rcases keeps with ⟨cap, own, may⟩ | ⟨voice, may, passes⟩
  · obtain ⟨s₀, arranges₀, filled⟩ := mayHold_iff.mp may
    rw [← finalAt_of_arranges arranges₀] at filled
    obtain ⟨g, rfl, -⟩ := task_entry filled
    exact ⟨cap, g, (liveAt_eq_some s).mpr (Or.inl (steady.task_eq arranges₀ arranges key cap ▸ filled))⟩
  · obtain ⟨s₀, arranges₀, voiced⟩ := mayHold_iff.mp may
    obtain ⟨cap, ⟨own, mayOwn⟩, unheld⟩ := passes
    obtain ⟨s₁, arranges₁, filled⟩ := mayHold_iff.mp mayOwn
    rw [← finalAt_of_arranges arranges₀] at voiced
    rw [← finalAt_of_arranges arranges₁, steady.task_eq arranges₁ arranges₀] at filled
    obtain ⟨g, rfl, -⟩ := task_entry filled
    have free : finalAt host opts nowSec s₀ (.task key cap) = none := by
      rw [finalAt_of_arranges arranges₀]
      refine Option.eq_none_iff_forall_ne_some.mpr fun entry found => unheld ⟨entry, ?_⟩
      exact mayHold_of_heldAt arranges₀ found
    exact ⟨cap, _, steady.liveAt_le arranges₀ arranges
      ((liveAt_eq_some s₀).mpr (Or.inr ⟨free, voice, g, voiced, filled, rfl⟩))⟩

theorem LiveSteady.mentions_eq {s s' : List Event} (arranges : Arranges Event.createdAt s events)
    (arranges' : Arranges Event.createdAt s' events) :
    (foldGrantsWith host opts nowSec s).mentions = (foldGrantsWith host opts nowSec s').mentions := by
  refine mentions_congr (tracks_foldState host opts nowSec s).holds (tracks_foldState host opts nowSec s').holds fun id => ?_
  refine Option.ext fun m => ?_
  rw [named_finalAt, named_finalAt, finalAt_of_arranges arranges, finalAt_of_arranges arranges',
    settled_iff.mp (steady.named id) s s' arranges arranges']

theorem LiveSteady.same {s s' : List Event} (ended : EndedSteady host opts nowSec events)
    (arranges : Arranges Event.createdAt s events)
    (arranges' : Arranges Event.createdAt s' events) :
    (foldGrantsWith host opts nowSec s).Same (foldGrantsWith host opts nowSec s') := by
  have live : ∀ pk cap, liveAt (foldGrantsWith host opts nowSec s).live pk cap =
      liveAt (foldGrantsWith host opts nowSec s').live pk cap := fun pk cap =>
    Option.ext fun g => ⟨steady.liveAt_le arranges arranges', steady.liveAt_le arranges' arranges⟩
  have keys : ∀ pk, (foldGrantsWith host opts nowSec s).live.has pk =
      (foldGrantsWith host opts nowSec s').live.has pk := by
    intro pk
    rw [Bool.eq_iff_iff, (full_foldGrantsWith s).has_iff, (full_foldGrantsWith s').has_iff]
    simp only [live]
  refine ⟨live, keys, fun pk => ?_, ?_, steady.mentions_eq arranges arranges'⟩
  · rw [ended_foldGrantsWith, ended_foldGrantsWith, keys]
    rcases ended pk with keeps | settled
    · rw [if_pos (steady.has_of_keeps arranges' keeps), if_pos (steady.has_of_keeps arranges' keeps)]
    · rw [sortBy_eq_self _ arranges.ordered, sortBy_eq_self _ arranges'.ordered,
        endedAt_eq_of_settled settled arranges arranges']
  · rw [foldGrantsWith, foldGrantsWith, FoldState.finish, FoldState.finish]
    simp only
    rw [foldState_rejected, foldState_rejected]
    exact ((arranges.perm.trans arranges'.perm.symm).filter _).length_eq

/-- **Steady events give one result in every order.** -/
theorem orderFree_of_steady (ended : EndedSteady host opts nowSec events) :
    OrderFree host opts nowSec events := by
  intro events' perm
  have sorted : ∀ l : List Event, foldGrantsWith host opts nowSec (sortBy Event.createdAt l) =
      foldGrantsWith host opts nowSec l := by
    intro l
    rw [foldGrantsWith, foldGrantsWith, foldState, foldState,
      sortBy_eq_self _ (sortBy_inOrder _ l)]
  rw [← sorted events', ← sorted events]
  exact steady.same ended (arranges_of_perm perm) (arranges_sortBy _ events)

end Enough

end Order

/-- **When the order of the events is harmless.** Steady events give one result in every order, and
only events whose ties decide nothing about the live map and the mentions can. -/
theorem orderFree_conditions (host : Host) (opts : FoldOptions) (nowSec : Int)
    (events : List Event) :
    (LiveSteady host opts nowSec events ∧ EndedSteady host opts nowSec events →
      OrderFree host opts nowSec events) ∧
    (OrderFree host opts nowSec events → LiveSteady host opts nowSec events) :=
  ⟨fun ⟨live, ended⟩ => orderFree_of_steady live ended, liveSteady_of_orderFree⟩

/-- A grant and the 441 that names it, both of one second: the order they are listed in decides. -/
theorem not_orderFree_same_second :
    ¬ OrderFree Host.sample sampleOptions 100 [sampleGrant 10, sampleRevocation 10] := by
  intro free
  have same := (free [sampleRevocation 10, sampleGrant 10] (List.Perm.swap _ _ _)).live
    "dennis" "task"
  exact absurd same (by decide)

end Nvoy.Admission
