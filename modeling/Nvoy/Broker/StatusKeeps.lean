/-
**The keeper of status reactions, operation after operation.**

An assertion is about the keeper, with the clock running and while no envelope that was pruned had an entry
made for it again (`Calm`); a process that dies leaves what `Durable` says.

* `holds_now`, `holds_save`, `holds_sign`, `holds_publish`, … — one rule an operation;
* `holds_react`, `holds_clear`, `holds_handleFact`, `holds_sweepOne` — one for each part of a step;
* `keeper_keeps` — what the keeper keeps, after every run in which no envelope that was pruned had an
  entry made for it again; `admitted_again` — without that, a second reaction.
-/

import Nvoy.Broker.Status
import Nvoy.Lib.Checks

namespace Nvoy.Broker.Status

open Dying

def Calm (P : Keeper → Prop) (w : World) : Prop := 0 < w.clock ∧ (w.keeper.revived = [] → P w.keeper)

theorem Calm.mono {P Q : Keeper → Prop} {w : World} (calm : Calm P w) (then_ : ∀ k, P k → Q k) : Calm Q w :=
  ⟨calm.1, fun still => then_ _ (calm.2 still)⟩

section Operations

variable {env : Env} {α β : Type} {P : Keeper → Prop} {D : World → Prop} {envelope : String} {entry : Entry}

theorem holds_seq {Q : α → Keeper → Prop} {R : β → Keeper → Prop} {x : Op α} {f : α → Op β}
    (first : Dying.Holds (Calm P) x (fun a => Calm (Q a)) D)
    (then_ : ∀ a, Dying.Holds (Calm (Q a)) (f a) (fun b => Calm (R b)) D) :
    Dying.Holds (Calm P) (x >>= f) (fun b => Calm (R b)) D :=
  holds_bind first then_

theorem holds_return {Q : α → Keeper → Prop} {a : α} (post : ∀ k, P k → Q a k) :
    Dying.Holds (Calm P) (pure a : Op α) (fun a => Calm (Q a)) D :=
  holds_pure fun _ calm => calm.mono post

theorem holds_operation {f : World → α × Keeper} {Q : α → Keeper → Prop}
    (same : ∀ w, (f w).2.revived = w.keeper.revived) (post : ∀ w, P w.keeper → Q (f w).1 (f w).2)
    (lasts : ∀ a k, Q a k → Durable k) :
    Dying.Holds (Calm P) (operation env f) (fun a => Calm (Q a)) (Calm Durable) := by
  have after : ∀ w, Calm P w →
      Calm (Q (f w).1) { w with keeper := (f w).2, calls := w.calls + 1 } :=
    fun w calm => ⟨calm.1, fun still => post w (calm.2 ((same w).symm.trans still))⟩
  exact holds_act after fun w calm => (after w calm).mono (lasts _)

theorem holds_now (lasts : ∀ k, P k → Durable k) :
    Dying.Holds (Calm P) (now env) (fun t => Calm fun k => 0 < t ∧ P k) (Calm Durable) := by
  have after : ∀ w, Calm P w → Calm (fun k => 0 < w.clock + (env.waits w.calls : Int) ∧ P k)
      { w with clock := w.clock + env.waits w.calls, calls := w.calls + 1 } := by
    intro w ⟨running, holds⟩
    have on : 0 < w.clock + (env.waits w.calls : Int) := by omega
    exact ⟨on, fun still => ⟨on, holds still⟩⟩
  exact holds_act after fun w calm => (after w calm).mono fun k holds => lasts k holds.2

theorem holds_save {notes : List Note} {Q : Keeper → Prop}
    (post : ∀ k, P k → Q { k with disk := k.mem, log := k.log ++ notes }) (lasts : ∀ k, Q k → Durable k) :
    Dying.Holds (Calm P) (save env notes) (fun _ => Calm Q) (Calm Durable) :=
  holds_operation (fun _ => rfl) (fun _ holds => post _ holds) fun _ => lasts

/-- An event is of its template's kind, and has its tags. -/
def Signs (template : Except String Template) (answer : Except String Event) : Prop :=
  ∀ ev, answer = .ok ev → ∃ t, template = .ok t ∧ ev.kind = t.kind ∧ ev.tags = t.tags

theorem holds_sign {template : Except String Template} (lasts : ∀ k, P k → Durable k) :
    Dying.Holds (Calm P) (sign env template) (fun answer => Calm fun k => Signs template answer ∧ P k) (Calm Durable) := by
  refine holds_operation (fun _ => rfl) (fun w holds => ⟨fun ev answered => ?_, holds⟩) fun _ k holds => lasts k holds.2
  obtain ⟨t, made, answered⟩ := bind_eq_ok.mp answered
  obtain ⟨ev', -, answered⟩ := bind_eq_ok.mp answered
  split at answered
  · cases answered
  next own =>
    obtain rfl := Except.ok.inj answered
    simp only [not_or, not_not] at own
    exact ⟨t, made, own.2.1, own.2.2.2.1⟩

theorem holds_publish {ev : Event} {note : Except String Bool → State → Note} {Q : Except String Bool → Keeper → Prop}
    (post : ∀ k answer, P k → Q answer { k with log := k.log ++ [note answer k.disk] })
    (lasts : ∀ answer k, Q answer k → Durable k) :
    Dying.Holds (Calm P) (publish env ev note) (fun answer => Calm (Q answer)) (Calm Durable) :=
  holds_operation (fun _ => rfl) (fun _ holds => post _ _ holds) lasts

theorem holds_setEntry {Q : Keeper → Prop} (post : ∀ k, P k → Q { k with mem := k.mem.set envelope entry }) :
    Dying.Holds (Calm P) (setEntry envelope entry) (fun _ => Calm Q) D :=
  holds_modify fun _ calm => ⟨calm.1, fun still => post _ (calm.2 still)⟩

theorem holds_entryOf : Dying.Holds (Calm P) (entryOf envelope)
    (fun found => Calm fun k => k.mem.get envelope = found ∧ P k) D :=
  holds_bind holds_get fun _ => holds_pure fun _ pre => ⟨pre.2.1, fun still => ⟨pre.1 ▸ rfl, pre.2.2 still⟩⟩

end Operations

/-! ### A reaction -/

theorem classifyFailure_ne (message : String) : classifyFailure message ≠ "relay-refused" := by
  unfold classifyFailure
  repeat' split
  all_goals decide

section Reacting

variable {env : Env} {envelope : String} {entry : Entry} {which : Which} {slot : Slot} {k : Keeper}

/-- No reaction of the status was handed over. -/
def Unsent (envelope : String) (which : Which) (log : List Note) : Prop :=
  ∀ ev answer saved, .reaction envelope which ev answer saved ∉ log

/-- The slot is in memory and saved, and its event was not handed over. -/
structure Ready (envelope : String) (entry : Entry) (which : Which) (slot : Slot) (k : Keeper) : Prop
    extends Saved envelope (entry.setSlot which slot) k where
  unsent : Unsent envelope which k.log
  unmarked : slot.failed = none
  up : entry.cleared = false

/-- The slot is in memory. -/
structure Placed (envelope : String) (entry : Entry) (which : Which) (slot : Slot) (k : Keeper) : Prop
    extends Holding envelope (entry.setSlot which slot) k where
  unsent : Unsent envelope which k.log
  unmarked : slot.failed = none
  up : entry.cleared = false

theorem Placed.save (placed : Placed envelope entry which slot k) :
    Ready envelope entry which slot { k with disk := k.mem, log := k.log ++ [] } where
  toSaved := placed.toHolding.save
  unsent := by
    simp only [List.append_nil]
    exact placed.unsent
  unmarked := placed.unmarked
  up := placed.up

/-- A slot takes the place of another. -/
theorem Holding.reslot (holding : Holding envelope (entry.setSlot which slot) k) (up : entry.cleared = false) {slot' : Slot}
    (event : ∀ ev answer saved, .reaction envelope which ev answer saved ∈ k.log → slot'.event = some ev)
    (refused : slot'.failed = some "relay-refused" → ∀ ev answer saved,
      .reaction envelope which ev answer saved ∈ k.log → answer = .ok false) :
    Holding envelope (entry.setSlot which slot') { k with mem := k.mem.set envelope (entry.setSlot which slot') } := by
  have still : (entry.setSlot which slot).cleared = false := (setSlot_eq entry which slot).1.trans up
  have ok := holding.ok.setSlot still event refused
  rw [setSlot_setSlot] at ok
  exact holding.set ok

theorem Ready.place (ready : Ready envelope entry which slot k) (slot' : Slot) (unmarked : slot'.failed = none) :
    Placed envelope entry which slot' { k with mem := k.mem.set envelope (entry.setSlot which slot') } where
  toHolding := ready.toHolding.reslot ready.up (fun ev answer saved member => absurd member (ready.unsent ev answer saved))
    fun _ ev answer saved member => absurd member (ready.unsent ev answer saved)
  unsent := ready.unsent
  unmarked := unmarked
  up := ready.up

theorem Saved.place (saved : Saved envelope entry k) (slot : Slot) (free : entry.slot which = none)
    (up : entry.cleared = false) (unmarked : slot.failed = none) :
    Placed envelope entry which slot { k with mem := k.mem.set envelope (entry.setSlot which slot) } where
  toHolding := by
    have unsent := saved.ok.unsent free
    exact saved.toHolding.set (saved.ok.setSlot up (fun ev answer saved' member => absurd member (unsent ev answer saved'))
      fun _ ev answer saved' member => absurd member (unsent ev answer saved'))
  unsent := saved.ok.unsent free
  unmarked := unmarked
  up := up

/-- The event was handed over, with that answer. -/
structure Handed (envelope : String) (entry : Entry) (which : Which) (slot : Slot) (answer : Except String Bool)
    (k : Keeper) : Prop extends Saved envelope (entry.setSlot which slot) k where
  up : entry.cleared = false
  answers : ∀ ev given saved, .reaction envelope which ev given saved ∈ k.log → given = answer

theorem Ready.handed (ready : Ready envelope entry which slot k) {ev : Event} (event : slot.event = some ev)
    (answer : Except String Bool) :
    Handed envelope entry which slot answer { k with log := k.log ++ [.reaction envelope which ev answer k.disk] } where
  toSaved := by
    have there : (entry.setSlot which slot).slot which = some slot := by rw [slot_setSlot, if_pos rfl]
    exact ready.toSaved.reaction ((setSlot_eq entry which slot).1.trans ready.up) there
      (fun marked => by rw [ready.unmarked] at marked; cases marked) event ready.unsent answer
  up := ready.up
  answers ev' given saved member := by
    rcases List.mem_append.mp member with before | last
    · exact absurd before (ready.unsent ev' given saved)
    · cases List.mem_singleton.mp last
      rfl

/-- The answer is written into the slot. -/
theorem Handed.answered {answer : Except String Bool} (handed : Handed envelope entry which slot answer k) :
    Holding envelope (entry.setSlot which (slot.answered answer))
      { k with mem := k.mem.set envelope (entry.setSlot which (slot.answered answer)) } := by
  have event : (slot.answered answer).event = slot.event := by
    unfold Slot.answered
    split <;> rfl
  refine handed.toHolding.reslot handed.up (fun ev given saved member => ?_) fun failed ev given saved member => ?_
  · obtain ⟨slot', there, has⟩ := handed.ok.reacted which ev given saved member
    rw [slot_setSlot, if_pos rfl] at there
    obtain rfl := Option.some_inj.mp there
    exact event.trans has
  · rw [handed.answers ev given saved member]
    unfold Slot.answered at failed
    split at failed
    next accepted =>
      cases accepted with
      | true => cases failed
      | false => rfl
    next e => exact absurd (Option.some_inj.mp failed) (classifyFailure_ne e)

theorem holds_publishReaction {ev : Event} (event : slot.event = some ev) :
    Dying.Holds (Calm (Ready envelope entry which slot)) (publishReaction env envelope entry which slot ev)
      (fun _ => Calm Good) (Calm Durable) :=
  holds_seq (holds_publish (fun _ answer ready => ready.handed event answer) fun _ _ handed => handed.toDurable) fun _ =>
    holds_seq (holds_setEntry fun _ handed => handed.answered) fun _ =>
      holds_save (fun _ holding => holding.save.good) fun _ good => good.toDurable

theorem holds_react : Dying.Holds (Calm (Saved envelope entry)) (react env envelope entry which) (fun _ => Calm Good)
    (Calm Durable) := by
  unfold react
  split
  · exact holds_return fun _ saved => saved.good
  next free =>
    simp only [Bool.or_eq_true, not_or, Bool.not_eq_true, Option.isSome_eq_false_iff, Option.isNone_iff_eq_none] at free
    obtain ⟨free, up⟩ := free
    refine holds_seq (holds_now fun _ saved => saved.toDurable) fun t => ?_
    refine holds_seq (holds_setEntry fun _ saved => saved.2.place { setAt := t } free up rfl) fun _ => ?_
    refine holds_seq (holds_save (fun _ placed => placed.save) fun _ ready => ready.toDurable) fun _ => ?_
    refine holds_seq (holds_now fun _ ready => ready.toDurable) fun _ => ?_
    refine holds_seq (holds_sign fun _ ready => ready.2.toDurable) fun answer => ?_
    cases answer with
    | error e =>
      refine holds_seq (holds_setEntry (Q := Holding envelope (entry.setSlot which
        { setAt := t, failed := some (classifyFailure e) })) fun _ ready => ?_) fun _ => ?_
      · have unsent := ready.2.2.unsent
        exact ready.2.2.toHolding.reslot up (fun ev answer saved member => absurd member (unsent ev answer saved))
          fun _ ev answer saved member => absurd member (unsent ev answer saved)
      · exact holds_save (fun _ holding => holding.save.good) fun _ good => good.toDurable
    | ok ev =>
      refine holds_seq (holds_setEntry fun _ ready =>
        ready.2.2.place { setAt := t, event := some ev } rfl) fun _ => ?_
      refine holds_seq (holds_save (fun _ placed => placed.save) fun _ ready => ready.toDurable) fun _ => ?_
      exact holds_publishReaction rfl

end Reacting

/-! ### Removal -/

section Clearing

variable {env : Env} {envelope : String} {entry : Entry} {d d' : Deletion} {ev : Event} {k : Keeper}

theorem statusDeletion_signs {target : String} {t : Int} (signs : Signs (statusDeletionTemplate target t) (.ok ev)) :
    ev.kind = 5 ∧ ev.tags = [["e", target]] := by
  obtain ⟨template, made, kind, tags⟩ := signs ev rfl
  unfold statusDeletionTemplate at made
  split at made
  · obtain rfl := Except.ok.inj made
    exact ⟨kind, tags⟩
  · cases made

theorem mem_setDeletion (member : d ∈ entry.deletions) (same : d'.which = d.which) :
    d' ∈ (entry.setDeletion d').deletions := by
  refine List.mem_map.mpr ⟨d, member, ?_⟩
  rw [if_pos same.symm]

/-- A deletion of the entry was changed in memory; what was saved still lists it, with its event where it had one. -/
structure Trying (envelope : String) (entry : Entry) (d : Deletion) (k : Keeper) : Prop
    extends Holding envelope (entry.setDeletion d) k where
  member : d ∈ (entry.setDeletion d).deletions
  stored : ∃ stored, k.disk.get envelope = some stored ∧
    ∃ old ∈ stored.deletions, old.which = d.which ∧ old.event = d.event

/-- Its target stays, and so does an event it has. -/
theorem Trying.set (trying : Trying envelope entry d k) (d' : Deletion) (which : d'.which = d.which) (target : d'.target = d.target)
    (event : ∀ ev, d.event = some ev → d'.event = some ev)
    (signed : ∀ ev, d'.event = some ev → ev.kind = 5 ∧ ev.tags = [["e", d'.target]]) :
    Holding envelope (entry.setDeletion d') { k with mem := k.mem.set envelope (entry.setDeletion d') } := by
  have ok := trying.ok.setDeletion trying.member which target event signed
  rw [setDeletion_setDeletion entry which] at ok
  exact trying.toHolding.set ok

theorem Saved.attempt (saved : Saved envelope entry k) (member : d ∈ entry.deletions) :
    Trying envelope entry { d with attempts := d.attempts + 1 }
      { k with mem := k.mem.set envelope (entry.setDeletion { d with attempts := d.attempts + 1 }) } where
  toHolding := saved.toHolding.set
    (saved.ok.setDeletion member rfl rfl (fun _ has => has) (saved.ok.signed d member))
  member := mem_setDeletion member rfl
  stored := ⟨entry, saved.saved, d, member, rfl, rfl⟩

theorem Trying.signed (trying : Trying envelope entry d k) (ev : Event) :
    { d with event := some ev } ∈ (entry.setDeletion { d with event := some ev }).deletions := by
  obtain ⟨old, member, same⟩ := List.mem_map.mp trying.member
  refine mem_setDeletion member ?_
  split at same
  next own => exact own.symm
  next => rw [same]

/-- A deletion that has its event, saved. -/
theorem Saved.trying (saved : Saved envelope (entry.setDeletion d) k) (member : d ∈ (entry.setDeletion d).deletions) :
    Trying envelope entry d k where
  toHolding := saved.toHolding
  member := member
  stored := ⟨_, saved.saved, d, member, rfl, rfl⟩

/-- What signing leaves: a deletion with its event, or nothing to try. -/
def Signed (envelope : String) (entry : Entry) (d : Deletion) : Option Event → Keeper → Prop
  | some ev => Trying envelope entry { d with event := some ev }
  | none => Good

theorem holds_signDeletion : Dying.Holds (Calm (Trying envelope entry d)) (signDeletion env envelope entry d)
    (fun signed => Calm (Signed envelope entry d signed)) (Calm Durable) := by
  unfold signDeletion
  split
  next ev event =>
    refine holds_return fun k trying => ?_
    have same : { d with event := some ev } = d := by rw [← event]
    show Trying envelope entry { d with event := some ev } k
    rw [same]
    exact trying
  next free =>
    refine holds_seq (holds_now fun _ trying => trying.toDurable) fun t => ?_
    refine holds_seq (holds_sign fun _ trying => trying.2.toDurable) fun answer => ?_
    have nothing : ∀ ev, d.event ≠ some ev := fun ev event => by
      rw [free] at event
      cases event
    cases answer with
    | error e =>
      refine holds_seq (holds_setEntry fun k trying => trying.2.2.set { d with failed := some (classifyFailure e) }
        rfl rfl (fun ev event => absurd event (nothing ev)) fun ev event => absurd event (nothing ev)) fun _ => ?_
      refine holds_seq (holds_save (fun _ holding => holding.save.good) fun _ good => good.toDurable) fun _ => ?_
      exact holds_return fun _ good => good
    | ok ev =>
      refine holds_seq (holds_setEntry (Q := fun k => Holding envelope (entry.setDeletion { d with event := some ev }) k ∧
        { d with event := some ev } ∈ (entry.setDeletion { d with event := some ev }).deletions) fun k trying => ?_) fun _ => ?_
      · obtain ⟨signs, -, trying⟩ := trying
        refine ⟨trying.set _ rfl rfl (fun ev event => absurd event (nothing ev)) fun other event => ?_, trying.signed ev⟩
        obtain rfl := Option.some_inj.mp event
        exact statusDeletion_signs signs
      · refine holds_seq (holds_save (fun _ held => held.1.save.trying held.2) fun _ trying => trying.toDurable) fun _ => ?_
        exact holds_return fun _ trying => trying

/-- What the relay's answer makes of a deletion is its tries and its failure only. -/
theorem answered_eq (d : Deletion) (answer : Except String Bool) :
    (d.answered answer).which = d.which ∧ (d.answered answer).target = d.target ∧ (d.answered answer).event = d.event := by
  unfold Deletion.answered
  split <;> exact ⟨rfl, rfl, rfl⟩

theorem holds_publishDeletion (event : d.event = some ev) :
    Dying.Holds (Calm (Trying envelope entry d)) (publishDeletion env envelope entry d ev) (fun _ => Calm Good) (Calm Durable) := by
  refine holds_seq (holds_publish (Q := fun _ => Trying envelope entry d) (fun k answer trying => ?_)
    fun _ _ trying => trying.toDurable) fun answer => ?_
  · obtain ⟨stored, there, old, listed, same, had⟩ := trying.stored
    exact {
      toHolding := trying.toHolding.deletion trying.member event there ⟨old, listed, same, had.trans event⟩
      member := trying.member
      stored := trying.stored }
  · obtain ⟨which, target, same⟩ := answered_eq d answer
    refine holds_seq (holds_setEntry fun k trying => trying.set (d.answered answer) which target
      (fun ev has => same.trans has) fun ev has => ?_) fun _ => ?_
    · rw [target]
      exact trying.ok.signed d trying.member ev (same.symm.trans has)
    · exact holds_save (fun _ holding => holding.save.good) fun _ good => good.toDurable

theorem holds_clearOne (which : Which) : Dying.Holds (Calm Good) (clearOne env envelope which) (fun _ => Calm Good)
    (Calm Durable) := by
  unfold clearOne
  refine holds_seq holds_entryOf fun found => ?_
  cases found with
  | none => exact holds_return fun _ good => good.2
  | some entry =>
    dsimp only
    split
    · exact holds_return fun _ good => good.2
    next d found =>
      have member := List.mem_of_find?_eq_some found
      split
      · refine holds_seq (holds_setEntry fun k good => (good.2.saved good.1).attempt member) fun _ => ?_
        refine holds_seq holds_signDeletion fun signed => ?_
        cases signed with
        | none => exact holds_return fun _ good => good
        | some ev => exact holds_publishDeletion rfl
      · exact holds_return fun _ good => good.2

theorem holds_startClear (reason : Reason) : Dying.Holds (Calm (Saved envelope entry)) (startClear env envelope entry reason)
    (fun _ => Calm Good) (Calm Durable) := by
  unfold startClear
  split
  · exact holds_return fun _ saved => saved.good
  next up =>
    have up : entry.cleared = false := by simpa using up
    refine holds_seq (holds_now fun _ saved => saved.toDurable) fun t => ?_
    refine holds_seq (holds_setEntry (Q := fun k => (entry.clear t reason).cleared = true ∧ Holding envelope
      (entry.clear t reason) k) fun k saved => ?_) fun _ => ?_
    · obtain ⟨cleared, ok⟩ := saved.2.ok.clear up saved.1 reason
      exact ⟨cleared, saved.2.toHolding.set ok⟩
    · refine holds_seq (holds_save (fun _ holding => (holding.2.saveCleared holding.1).good) fun _ good => good.toDurable)
        fun _ => ?_
      exact holds_return fun _ good => good

theorem holds_clear (reason : Reason) : Dying.Holds (Calm (Saved envelope entry)) (clear env envelope entry reason)
    (fun _ => Calm Good) (Calm Durable) :=
  holds_seq (holds_startClear reason) fun _ => holds_forM fun which _ => holds_clearOne which

end Clearing

/-! ### A step -/

section Stepping

variable {env : Env} {envelope : String} {entry : Entry} {k : Keeper}

/-- An entry is made, unless its envelope was pruned. -/
theorem holds_create {target channel : String} {saidAt : ℚ} :
    Dying.Holds (Calm fun k => k.mem.get envelope = none ∧ Good k)
      (create envelope { target := target, channel := channel, admittedAt := saidAt })
      (fun _ => Calm (Holding envelope { target := target, channel := channel, admittedAt := saidAt })) (Calm Durable) := by
  refine holds_modify fun w calm => ⟨calm.1, fun still => ?_⟩
  dsimp only at still
  split at still
  · exact absurd still (by simp)
  next fresh =>
    obtain ⟨free, good⟩ := calm.2 still
    exact good.create free fresh

theorem holds_handleFact (f : Fact) : Dying.Holds (Calm Good) (handleFact env f) (fun _ => Calm Good) (Calm Durable) := by
  unfold handleFact
  cases f with
  | admitted envelope target channel saidAt =>
    refine holds_seq holds_entryOf fun found => ?_
    cases found with
    | some entry => exact holds_return fun _ good => good.2
    | none =>
      refine holds_seq (holds_now fun _ good => good.2.toDurable) fun t => ?_
      split
      · exact holds_return fun _ good => good.2.2
      · refine holds_seq (holds_create.mono (fun _ calm => calm.mono fun _ good => good.2) fun _ _ calm => calm) fun _ => ?_
        refine holds_seq (holds_save (fun _ holding => holding.save) fun _ saved => saved.toDurable) fun _ => ?_
        exact holds_react
  | replied envelope =>
    refine holds_seq holds_entryOf fun found => ?_
    cases found with
    | none => exact holds_return fun _ good => good.2
    | some entry =>
      dsimp only
      split
      · exact holds_return fun _ good => good.2
      · exact (holds_clear _).mono (fun _ calm => calm.mono fun _ good => good.2.saved good.1) fun _ _ calm => calm

/-- What is remembered of the requests is no part of what is kept. -/
theorem Good.pending (good : Good k) (pending : JsMap String Int) : Good { k with pendingWorking := pending } :=
  ⟨⟨good.fine, good.states⟩, good.synced⟩

theorem holds_addRequest : Dying.Holds (Calm Good) (addRequest env envelope) (fun _ => Calm Good) (Calm Durable) := by
  unfold addRequest
  refine holds_bind holds_get fun w => ?_
  split
  · exact holds_pure fun _ calm => calm.2
  · refine holds_bind ((holds_now (P := Good) fun _ good => good.toDurable).mono (fun _ calm => calm.2) fun _ _ calm => calm)
      fun t => ?_
    exact holds_modify fun _ calm => ⟨calm.1, fun still => (calm.2 still).2.pending _⟩

theorem holds_forget {P : Keeper → Prop} (post : ∀ k pending, P k → P { k with pendingWorking := pending }) :
    Dying.Holds (Calm P) (forget envelope) (fun _ => Calm P) (Calm Durable) :=
  holds_modify fun _ calm => ⟨calm.1, fun still => post _ _ (calm.2 still)⟩

theorem holds_work (pending : String × Int) : Dying.Holds (Calm Good) (work env pending) (fun _ => Calm Good) (Calm Durable) := by
  unfold work
  refine holds_seq holds_entryOf fun found => ?_
  cases found with
  | some entry =>
    refine holds_seq (holds_forget fun _ pending good => ⟨good.1, good.2.pending pending⟩) fun _ => ?_
    exact holds_react.mono (fun _ calm => calm.mono fun _ good => good.2.saved good.1) fun _ _ calm => calm
  | none =>
    refine holds_seq (holds_now fun _ good => good.2.toDurable) fun t => ?_
    split
    · exact (holds_forget fun _ pending good => good.pending pending).mono (fun _ calm => calm.mono fun _ good => good.2.2)
        fun _ _ calm => calm
    · exact holds_return fun _ good => good.2.2

theorem holds_takeDown : Dying.Holds (Calm (Saved envelope entry)) (takeDown env envelope entry) (fun _ => Calm Good)
    (Calm Durable) := by
  unfold takeDown
  split
  · split
    · exact holds_clear _
    · exact holds_return fun _ saved => saved.good
  · refine holds_seq (holds_now fun _ saved => saved.toDurable) fun t => ?_
    split
    · exact (holds_clear _).mono (fun _ calm => calm.mono fun _ saved => saved.2) fun _ _ calm => calm
    · exact holds_return fun _ saved => saved.2.good

theorem holds_dropDone : Dying.Holds (Calm Good) (dropDone env envelope entry) (fun _ => Calm Good) (Calm Durable) := by
  unfold dropDone
  split
  · refine holds_seq (holds_now fun _ good => good.toDurable) fun t => ?_
    split
    · refine holds_seq (Q := fun _ => Good) (holds_modify fun _ calm => ⟨calm.1, fun still => ?_⟩) fun _ => ?_
      · exact (calm.2 still).2.prune envelope
      · exact holds_return fun _ good => good
    · exact holds_return fun _ good => good.2
  · exact holds_return fun _ good => good

theorem holds_sweepOne : Dying.Holds (Calm Good) (sweepOne env envelope) (fun _ => Calm Good) (Calm Durable) := by
  unfold sweepOne
  refine holds_seq holds_entryOf fun found => ?_
  cases found with
  | none => exact holds_return fun _ good => good.2
  | some entry =>
    refine holds_seq (holds_takeDown.mono (fun _ calm => calm.mono fun _ good => good.2.saved good.1) fun _ _ calm => calm)
      fun _ => ?_
    refine holds_seq holds_entryOf fun found => ?_
    cases found with
    | none => exact holds_return fun _ good => good.2
    | some entry => exact holds_dropDone.mono (fun _ calm => calm.mono fun _ good => good.2) fun _ _ calm => calm

theorem holds_sweep : Dying.Holds (Calm Good) (sweep env) (fun _ => Calm Good) (Calm Durable) := by
  unfold sweep
  refine holds_bind holds_get fun w => ?_
  refine holds_bind (Q := fun _ => Calm Good) ?_ fun pruned => ?_
  · refine (holds_foldlM (I := Calm Good) false fun pruned envelope _ => ?_).mono (fun _ calm => calm.2) fun _ _ calm => calm
    exact holds_seq holds_sweepOne fun _ => holds_return fun _ good => good
  · split
    · exact holds_save (fun _ good => good.save) fun _ good => good.toDurable
    · exact holds_return fun _ good => good

/-- **What a step keeps.** -/
theorem holds_step (facts : List Fact) (requests : List String) :
    Dying.Holds (Calm Good) (step env facts requests) (fun _ => Calm Good) (Calm Durable) := by
  unfold step
  refine holds_bind (Q := fun _ => Calm Good) (holds_forM fun f _ => holds_handleFact f) fun _ => ?_
  refine holds_bind (Q := fun _ => Calm Good) (holds_forM fun _ _ => holds_addRequest) fun _ => ?_
  refine holds_bind holds_get fun w => ?_
  refine holds_bind (Q := fun _ => Calm Good) ?_ fun _ => holds_sweep
  exact (holds_forM fun pending _ => holds_work pending).mono (fun _ calm => calm.2) fun _ _ calm => calm

end Stepping

/-! ### Runs -/

theorem calm_reload {w : World} (calm : Calm Durable w) : Calm Good (reload w) :=
  ⟨calm.1, fun still => (calm.2 still).reload _⟩

theorem calm_next {env : Env} {w : World} (calm : Calm Good w) (action : Action) : Calm Good (next env w action) := by
  cases action with
  | restart => exact calm_reload (calm.mono fun _ good => good.toDurable)
  | step facts requests =>
    have held := @holds_step env facts requests w calm
    rcases ran : step env facts requests w with ⟨_ | answer, w'⟩
    · rw [ran] at held
      simp only [next, ran]
      exact calm_reload held
    · rw [ran] at held
      simp only [next, ran]
      exact held

theorem calm_run {env : Env} {w : World} (calm : Calm Good w) (actions : List Action) : Calm Good (run env w actions) := by
  induction actions generalizing w with
  | nil => exact calm
  | cons action actions ih => exact ih (calm_next calm action)

theorem good_new : Good {} where
  fine front note back same := absurd same (by simp)
  states envelope := .inr fun _ member => absurd member List.not_mem_nil
  synced _ := .inl rfl

/-- **Status reactions are signed at most once and always taken down**: of whatever was handed over, and of both states,
after every run in which no envelope that was pruned had an entry made for it again. -/
theorem keeper_keeps (env : Env) {clock : Int} (running : 0 < clock) (actions : List Action)
    (still : (run env { clock := clock } actions).keeper.revived = []) : Keeps (run env { clock := clock } actions).keeper :=
  ((calm_run ⟨running, fun _ => good_new⟩ actions).2 still).keeps

/-! ### An envelope admitted once more, after its entry was dropped -/

/-- The reactions that were handed over. -/
def reactions (log : List Note) : List (String × Which) :=
  log.filterMap fun
    | .reaction envelope which _ _ _ => some (envelope, which)
    | _ => none

theorem mem_reactions {log : List Note} {envelope : String} {which : Which} : (envelope, which) ∈ reactions log ↔
    ∃ ev answer saved, .reaction envelope which ev answer saved ∈ log := by
  unfold reactions
  rw [List.mem_filterMap]
  constructor
  · rintro ⟨note, member, made⟩
    split at made
    next ev answer saved =>
      cases made
      exact ⟨ev, answer, saved, member⟩
    next => cases made
  · rintro ⟨ev, answer, saved, member⟩
    exact ⟨_, member, rfl⟩

/-- Of an envelope and a status there is one reaction. -/
theorem Fine.reactions_nodup {log : List Note} (fine : Fine log) : (reactions log).Nodup := by
  induction log using List.reverseRecOn with
  | nil => exact List.nodup_nil
  | append_singleton log note ih =>
    have before : Fine log := fun front last back same => fine front last (back ++ [note]) (by rw [same]; simp)
    have apt : Apt log note := fine log note [] rfl
    unfold reactions at ih ⊢
    rw [List.filterMap_append]
    refine List.nodup_append.mpr ⟨ih before, ?_, ?_⟩
    · cases note <;> simp
    · intro pair member other last
      cases note with
      | reaction envelope which ev answer saved =>
        obtain rfl := List.mem_singleton.mp last
        rintro rfl
        obtain ⟨other, given, then_, there⟩ := mem_reactions.mp member
        exact apt.1 other given then_ there
      | cleared envelope => cases last
      | deletion envelope which ev saved => cases last

def sampleId (c : Char) : String := String.ofList (List.replicate 64 c)

/-- The clock goes on by 25 hours before one of the calls. -/
def sampleEnv (pause : Nat) : Env where
  me := sampleId 'a'
  verifyEvent _ := true
  waits call := if call = pause then 25 * 60 * 60 * 1000 else 0
  signEvent _ t := .ok {
    id := if t.kind = 7 then sampleId 'b' else sampleId 'c'
    pubkey := sampleId 'a'
    createdAt := t.createdAt
    kind := t.kind
    tags := t.tags
    content := t.content
    sig := "" }
  publish _ _ := .ok true
  dies _ := false

/-- A mention is admitted and replied to, and its entry is dropped a day later. -/
def sampleActions : List Action :=
  [.step [.admitted (sampleId 'd') (sampleId 'e') "channel" 1] [], .step [.replied (sampleId 'd')] [], .step [] []]

theorem keeper_keeps_sample : Keeps (run (sampleEnv 18) { clock := 1 } sampleActions).keeper :=
  keeper_keeps (sampleEnv 18) (by decide) sampleActions (by decide +kernel)

/-- Then it is admitted again, and its first reaction is handed over once more. -/
theorem admitted_again :
    ¬ Keeps (run (sampleEnv 18) { clock := 1 }
      (sampleActions ++ [.step [.admitted (sampleId 'd') (sampleId 'e') "channel" 90000001] []])).keeper := by
  intro keeps
  have once := keeps.fine.reactions_nodup
  rw [show reactions _ = [(sampleId 'd', Which.seen), (sampleId 'd', Which.seen)] by decide +kernel] at once
  exact (List.nodup_cons.mp once).1 (List.mem_singleton_self _)

end Nvoy.Broker.Status
