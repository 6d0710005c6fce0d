/-
**A quiet tick and the manifests.**

A tick that ends with "already current and healthy" or "deploy OK" compares digests with a record
that only a full success writes. A failed tick may have recreated services from a manifest that is
then taken back.

* `Settled` — every service of an identity was created since its manifest last changed;
* `Quiet` — what a quiet tick says of each manifest that is as the tick read it;
* `Calm` — no manifest returns to bytes with a recorded digest, none appears between the instance
  list and the digests, and services left on a release's file or by a first baseline are new enough;
* `quiet_settles` — a run of calm steps is quiet;
* `quiet_after_revert` — an edit, a failed tick and the edit taken back: the tick is quiet, and the
  services run the edit.
-/

import Nvoy.Deploy.Runner
import Nvoy.Lib.Runs

namespace Nvoy.Deploy

set_option linter.unusedSectionVars false

variable {I C S : Type} [DecidableEq I] [DecidableEq C] [DecidableEq S]

/-! ### Statements -/

/-- Every service the identity has was created since its manifest last changed. -/
def Fresh (host : Host I C S) (i : I) : Prop :=
  ∀ s service, host.running i s = some service → service.born = host.edits i

/-- The services that a Compose file names are there. -/
def UpOn (site : Site I C S) (host : Host I C S) (i : I) (text : String) : Prop :=
  ∀ s ∈ site.services text, (host.running i s).isSome = true

/-- The identity runs its live Compose file, on services that its current manifest was read by. -/
def Settled (site : Site I C S) (host : Host I C S) (i : I) : Prop :=
  ∃ text, host.live i = some text ∧ UpOn site host i text ∧ Fresh host i

/-- The tick took the manifest's digest, and the manifest has not changed since. -/
def Unchanged (host : Host I C S) (tick : Tick I C S) (i : I) : Prop :=
  tick.digests i ≠ none ∧ host.edits i = tick.readAt i

/-- Where a tick ends current or deployed, every identity with an unchanged manifest is settled. -/
def Quiet (site : Site I C S) (state : State I C S) : Prop :=
  ∀ tick, state.tick = some tick →
    tick.stage = .leaving .current ∨ tick.stage = .leaving .deployed →
    ∀ i, Unchanged state.host tick i → Settled site state.host i

/-- What each step needs so that the recorded digests speak for the services. -/
def Calm (site : Site I C S) (state : State I C S) : Action I C S → Prop
  | .edit i (some manifest) =>
    (∀ recorded, state.host.recorded = some recorded → recorded i ≠ some (site.sha256 manifest)) ∧
      ∀ tick, state.tick = some tick → tick.digests i ≠ some (site.sha256 manifest)
  | .glob names =>
    ∀ tick, state.tick = some tick → tick.stage = .globbing → ∀ i ∈ names, i ∈ tick.ids
  | .decide healthy =>
    ∀ tick named, state.tick = some tick → tick.stage = .deciding → tick.sha = some named →
      healthy = true → state.host.recorded = none →
      target site state.host.deployed named = state.host.deployed →
      ∀ i, tick.digests i ≠ none → Fresh state.host i
  | .up _ _ =>
    ∀ tick i rest, state.tick = some tick → tick.stage = .rolling (i :: rest) →
      tick.recreate i = false → ∀ s service, state.host.running i s = some service →
      tick.staged i = some service.compose → service.born = state.host.edits i ∨
        ∃ recorded, state.host.recorded = some recorded ∧ recorded i = tick.digests i
  | _ => True

/-! ### Compose -/

section Compose

variable {site : Site I C S} {host : Host I C S} {i j : I} {s : S} {text : String} {force : Bool}
  {reached : S → Bool} {service : Service}

theorem running_composeUp_of_ne (other : j ≠ i) :
    (composeUp site host i text force reached).running j = host.running j :=
  Function.update_of_ne other _ _

theorem running_composeUp_self :
    (composeUp site host i text force reached).running i s =
      if reached s then serviceUp site host i text force s else host.running i s :=
  congrFun (Function.update_self i _ host.running) s

theorem running_composeDown_of_ne (other : j ≠ i) :
    (composeDown host i reached).running j = host.running j :=
  Function.update_of_ne other _ _

theorem running_composeDown_self :
    (composeDown host i reached).running i s = if reached s then none else host.running i s :=
  congrFun (Function.update_self i _ host.running) s

/-- What `up` leaves of one service: nothing, a new one, or the one that was there. -/
theorem serviceUp_cases (runs : serviceUp site host i text force s = some service) :
    service = created host i text ∨
      host.running i s = some service ∧ service.compose = text ∧ force = false := by
  unfold serviceUp at runs
  split at runs
  next =>
    split at runs
    next => exact .inl (Option.some.inj runs).symm
    next old held =>
      split at runs
      next same => exact .inr (Option.some.inj runs ▸ ⟨held, same⟩)
      next => exact .inl (Option.some.inj runs).symm
  next => cases runs

theorem serviceUp_isSome (listed : s ∈ site.services text) :
    (serviceUp site host i text force s).isSome = true := by
  unfold serviceUp
  rw [if_pos listed]
  split
  · rfl
  · split <;> rfl

/-- **New services are fresh**, and those that stay are as fresh as before. -/
theorem Fresh.composeUp (fresh : Fresh host j) :
    Fresh (composeUp site host i text force reached) j := by
  intro s service runs
  by_cases same : j = i
  · subst same
    rw [running_composeUp_self] at runs
    split at runs
    next =>
      rcases serviceUp_cases runs with rfl | ⟨held, -⟩
      · rfl
      · exact fresh s service held
    next => exact fresh s service runs
  · rw [running_composeUp_of_ne same] at runs
    exact fresh s service runs

theorem Fresh.composeDown (fresh : Fresh host j) : Fresh (composeDown host i reached) j := by
  intro s service runs
  by_cases same : j = i
  · subst same
    rw [running_composeDown_self] at runs
    split at runs
    next => cases runs
    next => exact fresh s service runs
  · rw [running_composeDown_of_ne same] at runs
    exact fresh s service runs

/-- A full `up` makes an identity fresh if what it leaves standing is. -/
theorem fresh_composeUp (all : ∀ s, reached s = true)
    (kept : force = false → ∀ s service, host.running i s = some service →
      service.compose = text → service.born = host.edits i) :
    Fresh (composeUp site host i text force reached) i := by
  intro s service runs
  rw [running_composeUp_self, if_pos (all s)] at runs
  rcases serviceUp_cases runs with rfl | ⟨held, own, mild⟩
  · rfl
  · exact kept mild s service held own

theorem upOn_composeUp (all : ∀ s, reached s = true) :
    UpOn site (composeUp site host i text force reached) i text := by
  intro s listed
  rw [running_composeUp_self, if_pos (all s)]
  exact serviceUp_isSome listed

end Compose

/-! ### The invariant -/

/-- What the tick knows of an identity it has brought up. -/
def Risen (site : Site I C S) (host : Host I C S) (tick : Tick I C S) (i : I) : Prop :=
  ∃ text, tick.staged i = some text ∧
    (Unchanged host tick i → UpOn site host i text ∧ Fresh host i)

/-- What holds of a tick at each stage. -/
def AtStage (site : Site I C S) (host : Host I C S) (tick : Tick I C S) : Stage I → Prop
  | .looking | .listing | .globbing => ∀ i, tick.digests i = none
  | .reading rest => ∀ i ∈ rest, i ∈ tick.ids ∧ i ∈ tick.names
  | .staging rest => ∀ i ∈ tick.ids, i ∉ rest → ∃ text, tick.staged i = some text
  | .rolling rest => (∀ i ∈ tick.ids, ∃ text, tick.staged i = some text) ∧
      ∀ i ∈ tick.ids, i ∉ rest → Risen site host tick i
  | .promoting rest => ∀ i ∈ tick.ids,
      Risen site host tick i ∧ (i ∉ rest → host.live i = tick.staged i)
  | .writing _ | .leaving .deployed => ∀ i ∈ tick.ids,
      Risen site host tick i ∧ host.live i = tick.staged i
  | .leaving .current => ∀ i, Unchanged host tick i → Settled site host i
  | _ => True

structure TickInv (site : Site I C S) (host : Host I C S) (tick : Tick I C S) : Prop where
  le : ∀ i, tick.digests i ≠ none → tick.readAt i ≤ host.edits i
  same : ∀ i manifest, host.manifests.get i = some manifest →
    tick.digests i = some (site.sha256 manifest) → host.edits i = tick.readAt i
  read : ∀ i, Unchanged host tick i →
    ∃ manifest, host.manifests.get i = some manifest ∧ tick.digests i = some (site.sha256 manifest)
  listed : ∀ i, tick.digests i ≠ none → i ∈ tick.ids ∧ i ∈ tick.names
  stage : AtStage site host tick tick.stage

/-- A recorded digest of a manifest as it is stands for fresh services. -/
def Spoken (site : Site I C S) (host : Host I C S) : Prop :=
  ∀ recorded, host.recorded = some recorded → ∀ i manifest,
    host.manifests.get i = some manifest → recorded i = some (site.sha256 manifest) → Fresh host i

structure Inv (site : Site I C S) (state : State I C S) : Prop where
  spoken : Spoken site state.host
  tick : ∀ tick, state.tick = some tick → TickInv site state.host tick

section Step

variable {site : Site I C S} {state : State I C S} {tick : Tick I C S}

/-- The tick goes on, and nothing that its digests speak of changes but for the stage. -/
theorem TickInv.after {host later : Host I C S} {next : Tick I C S} (inv : TickInv site host tick)
    (manifests : later.manifests = host.manifests) (edits : later.edits = host.edits)
    (digests : next.digests = tick.digests) (readAt : next.readAt = tick.readAt)
    (ids : next.ids = tick.ids) (names : next.names = tick.names)
    (stage : AtStage site later next next.stage) : TickInv site later next := by
  have unchanged : ∀ i, Unchanged later next i ↔ Unchanged host tick i := fun i => by
    rw [Unchanged, Unchanged, digests, readAt, edits]
  constructor
  case le => rw [digests, readAt, edits]; exact inv.le
  case same => rw [digests, readAt, edits, manifests]; exact inv.same
  case read =>
    intro i same
    rw [digests, manifests]
    exact inv.read i ((unchanged i).mp same)
  case listed => rw [digests, ids, names]; exact inv.listed
  case stage => exact stage

/-- The tick goes on with the host as it is. -/
theorem TickInv.goes {host : Host I C S} {next : Tick I C S} (inv : TickInv site host tick)
    (digests : next.digests = tick.digests) (readAt : next.readAt = tick.readAt)
    (ids : next.ids = tick.ids) (names : next.names = tick.names)
    (stage : AtStage site host next next.stage) : TickInv site host next :=
  inv.after rfl rfl digests readAt ids names stage

theorem TickInv.raised {host : Host I C S} (inv : TickInv site host tick) :
    TickInv site host (raised tick) := by
  refine inv.goes rfl rfl rfl rfl ?_
  have stage := inv.stage
  unfold Deploy.raised
  dsimp only
  split
  all_goals first
    | trivial
    | (rename_i held; rw [held] at stage; exact stage)

/-- An exception in the rollout leads to the rollback. -/
theorem raised_of_rolling {rest : List I} (stage : tick.stage = .rolling rest) :
    (raised tick).stage = .undoing tick.changed.reverse := by
  unfold raised
  dsimp only
  rw [stage]

theorem atStage_undoing {host : Host I C S} {rest : List I} (stage : tick.stage = .undoing rest) :
    AtStage site host tick tick.stage := by
  rw [stage]
  trivial

theorem Inv.withTick (inv : Inv site state) {next : Tick I C S}
    (goes : TickInv site state.host next) : Inv site { state with tick := some next } :=
  ⟨inv.spoken, fun _ holds => Option.some.inj holds ▸ goes⟩

theorem Inv.raises (inv : Inv site state) (held : state.tick = some tick) :
    Inv site { state with tick := some (raised tick) } :=
  inv.withTick (inv.tick tick held).raised

/-! ### Edits -/

section Edit

variable {host : Host I C S} {i j : I} {manifest : Option String}

theorem get_edited_of_ne (other : j ≠ i) :
    (edited host i manifest).manifests.get j = host.manifests.get j := by
  cases manifest with
  | none => exact (JsMap.get_delete _ _ _).trans (if_neg other)
  | some text => exact (JsMap.get_set _ _ _ _).trans (if_neg other)

theorem get_edited_self : (edited host i manifest).manifests.get i = manifest := by
  cases manifest with
  | none => exact (JsMap.get_delete _ _ _).trans (if_pos rfl)
  | some text => exact (JsMap.get_set _ _ _ _).trans (if_pos rfl)

theorem edits_edited_of_ne (other : j ≠ i) : (edited host i manifest).edits j = host.edits j :=
  Function.update_of_ne other _ _

theorem edits_edited_self : (edited host i manifest).edits i = host.edits i + 1 :=
  Function.update_self i _ host.edits

theorem Fresh.edited (fresh : Fresh host j) (other : j ≠ i) : Fresh (edited host i manifest) j := by
  intro s service runs
  rw [edits_edited_of_ne other]
  exact fresh s service runs

/-- What is unchanged after an edit is another manifest, and was unchanged before. -/
theorem unchanged_edited (inv : TickInv site host tick)
    (unchanged : Unchanged (edited host i manifest) tick j) : j ≠ i ∧ Unchanged host tick j := by
  have other : j ≠ i := by
    rintro rfl
    have le := inv.le j unchanged.1
    have now := unchanged.2
    rw [edits_edited_self] at now
    omega
  refine ⟨other, unchanged.1, ?_⟩
  rw [← unchanged.2, edits_edited_of_ne other]

theorem Risen.edited (inv : TickInv site host tick) (risen : Risen site host tick j) :
    Risen site (edited host i manifest) tick j := by
  obtain ⟨text, staged, upOn⟩ := risen
  refine ⟨text, staged, fun unchanged => ?_⟩
  obtain ⟨other, before⟩ := unchanged_edited inv unchanged
  exact ⟨(upOn before).1, (upOn before).2.edited other⟩

theorem AtStage.edited (inv : TickInv site host tick) :
    AtStage site (edited host i manifest) tick tick.stage := by
  have stage := inv.stage
  cases held : tick.stage with
  | looking | listing | globbing | reading | staging => rw [held] at stage; exact stage
  | deciding | checking | moving | pulling | undoing => trivial
  | rolling rest =>
      rw [held] at stage
      exact ⟨stage.1, fun j mem out => (stage.2 j mem out).edited inv⟩
  | promoting rest =>
      rw [held] at stage
      exact fun j mem => ⟨(stage j mem).1.edited inv, (stage j mem).2⟩
  | writing next =>
      rw [held] at stage
      exact fun j mem => ⟨(stage j mem).1.edited inv, (stage j mem).2⟩
  | leaving outcome =>
      rw [held] at stage
      cases outcome with
      | deployed => exact fun j mem => ⟨(stage j mem).1.edited inv, (stage j mem).2⟩
      | current =>
          intro j unchanged
          obtain ⟨other, before⟩ := unchanged_edited inv unchanged
          obtain ⟨text, live, upOn, fresh⟩ := stage j before
          exact ⟨text, live, upOn, fresh.edited other⟩
      | baseline | held | dry | raised => trivial

end Edit

theorem Inv.edit (inv : Inv site state) {i : I} {manifest : Option String}
    (calm : Calm site state (.edit i manifest)) :
    Inv site { state with host := edited state.host i manifest } := by
  -- A digest that is recorded or read is none of the new bytes.
  have unread : ∀ text, (edited state.host i manifest).manifests.get i = some text →
      (∀ recorded, state.host.recorded = some recorded → recorded i ≠ some (site.sha256 text)) ∧
        ∀ tick, state.tick = some tick → tick.digests i ≠ some (site.sha256 text) := by
    intro text holds
    rw [get_edited_self] at holds
    subst holds
    exact calm
  constructor
  case spoken =>
    intro recorded held j text holds speaks
    by_cases same : j = i
    · subst same
      exact absurd speaks ((unread text holds).1 recorded held)
    · rw [get_edited_of_ne same] at holds
      exact (inv.spoken recorded held j text holds speaks).edited same
  case tick =>
    intro tick held
    have before := inv.tick tick held
    constructor
    case le =>
      intro j read
      by_cases same : j = i
      · subst same
        rw [edits_edited_self]
        exact Nat.le_succ_of_le (before.le j read)
      · rw [edits_edited_of_ne same]
        exact before.le j read
    case same =>
      intro j text holds speaks
      by_cases same : j = i
      · subst same
        exact absurd speaks ((unread text holds).2 tick held)
      · rw [get_edited_of_ne same] at holds
        rw [edits_edited_of_ne same]
        exact before.same j text holds speaks
    case read =>
      intro j unchanged
      obtain ⟨other, was⟩ := unchanged_edited before unchanged
      rw [get_edited_of_ne other]
      exact before.read j was
    case listed => exact before.listed
    case stage => exact AtStage.edited before

/-! ### The tick's own steps -/

theorem Risen.goes {host : Host I C S} {next : Tick I C S} {i : I}
    (risen : Risen site host tick i) (digests : next.digests = tick.digests)
    (readAt : next.readAt = tick.readAt) (staged : next.staged = tick.staged) :
    Risen site host next i := by
  obtain ⟨text, held, upOn⟩ := risen
  refine ⟨text, staged ▸ held, fun ⟨read, same⟩ => upOn ⟨?_, ?_⟩⟩
  · rwa [← digests]
  · rwa [← readAt]

/-- A manifest's digest is taken. -/
theorem Inv.readOne (inv : Inv site state) (held : state.tick = some tick) {i : I} {rest : List I}
    (stage : tick.stage = .reading (i :: rest)) {manifest : String}
    (there : state.host.manifests.get i = some manifest) :
    Inv site { state with tick := some { tick with
      digests := Function.update tick.digests i (some (site.sha256 manifest))
      readAt := Function.update tick.readAt i (state.host.edits i)
      stage := .reading rest } } := by
  have before := inv.tick tick held
  have due := before.stage
  rw [stage] at due
  refine inv.withTick ?_
  constructor
  case le =>
    intro j read
    dsimp only at read ⊢
    by_cases same : j = i
    · subst same
      exact Nat.le_of_eq (Function.update_self _ _ _)
    · rw [Function.update_of_ne same] at read
      simpa only [Function.update_of_ne same] using before.le j read
  case same =>
    intro j text holds speaks
    dsimp only at speaks ⊢
    by_cases same : j = i
    · subst same
      rw [Function.update_self]
    · rw [Function.update_of_ne same] at speaks ⊢
      exact before.same j text holds speaks
  case read =>
    intro j ⟨read, same⟩
    dsimp only at read same ⊢
    by_cases own : j = i
    · subst own
      exact ⟨manifest, there, Function.update_self _ _ _⟩
    · rw [Function.update_of_ne own] at read same ⊢
      exact before.read j ⟨read, same⟩
  case listed =>
    intro j read
    by_cases same : j = i
    · subst same
      exact due j List.mem_cons_self
    · dsimp only at read
      rw [Function.update_of_ne same] at read
      exact before.listed j read
  case stage => exact fun j mem => due j (List.mem_cons_of_mem _ mem)

/-- An identity's Compose file is rendered. -/
theorem Inv.stageOne (inv : Inv site state) (held : state.tick = some tick) {i : I} {rest : List I}
    (stage : tick.stage = .staging (i :: rest)) (text : String) :
    Inv site { state with tick := some { tick with
      staged := Function.update tick.staged i (some text), stage := .staging rest } } := by
  have before := inv.tick tick held
  have due := before.stage
  rw [stage] at due
  refine inv.withTick (before.goes rfl rfl rfl rfl fun j mem out => ?_)
  dsimp only
  by_cases same : j = i
  · subst same
    exact ⟨text, Function.update_self _ _ _⟩
  · rw [Function.update_of_ne same]
    exact due j mem fun there => (List.mem_cons.mp there).elim same out

/-- An unchanged manifest whose digest is the recorded one stands for fresh services. -/
theorem Inv.fresh_of_recorded (inv : Inv site state) (held : state.tick = some tick) {i : I}
    (unchanged : Unchanged state.host tick i) {recorded : I → Option String}
    (holds : state.host.recorded = some recorded) (same : recorded i = tick.digests i) :
    Fresh state.host i := by
  obtain ⟨manifest, there, digest⟩ := (inv.tick tick held).read i unchanged
  exact inv.spoken recorded holds i manifest there (same.trans digest)

theorem Spoken.composeUp {host : Host I C S} (spoken : Spoken site host) (i : I) (text : String)
    (force : Bool) (reached : S → Bool) : Spoken site (composeUp site host i text force reached) :=
  fun recorded holds j manifest there speaks =>
    (spoken recorded holds j manifest there speaks).composeUp

theorem Spoken.composeDown {host : Host I C S} (spoken : Spoken site host) (i : I)
    (reached : S → Bool) : Spoken site (composeDown host i reached) :=
  fun recorded holds j manifest there speaks =>
    (spoken recorded holds j manifest there speaks).composeDown

theorem Risen.composeUp {host : Host I C S} {i j : I} {text : String} {force : Bool}
    {reached : S → Bool} (risen : Risen site host tick j) (other : j ≠ i) :
    Risen site (composeUp site host i text force reached) tick j := by
  obtain ⟨own, staged, upOn⟩ := risen
  refine ⟨own, staged, fun unchanged => ⟨fun s listed => ?_, (upOn unchanged).2.composeUp⟩⟩
  rw [running_composeUp_of_ne other]
  exact (upOn unchanged).1 s listed

/-- **An identity that was brought up has risen**: a service that was left standing is fresh, as its
digest is the recorded one or the step is calm. -/
theorem Inv.risen (inv : Inv site state) (held : state.tick = some tick) {i : I} {rest : List I}
    (stage : tick.stage = .rolling (i :: rest)) {reached all : S → Bool} {worked : Bool}
    (calm : Calm site state (.up reached worked)) {text : String}
    (staged : tick.staged i = some text) (full : ∀ s, all s = true) :
    Risen site (composeUp site state.host i text (tick.recreate i) all) tick i := by
  refine ⟨text, staged, fun unchanged => ⟨upOn_composeUp full, fresh_composeUp full ?_⟩⟩
  intro mild s service runs own
  have spoken := calm tick i rest held stage mild s service runs (own ▸ staged)
  rcases spoken with born | ⟨recorded, holds, same⟩
  · exact born
  · exact inv.fresh_of_recorded held unchanged holds same s service runs

theorem Inv.up (inv : Inv site state) (held : state.tick = some tick) {reached : S → Bool}
    {worked : Bool} (calm : Calm site state (.up reached worked)) :
    Inv site (advance site state tick (.up reached worked)) := by
  have before := inv.tick tick held
  have due := before.stage
  unfold advance
  dsimp only
  split
  next stage =>
    rw [stage] at due
    refine inv.withTick (before.goes rfl rfl rfl rfl fun i mem => ?_)
    exact ⟨(due.2 i mem List.not_mem_nil).goes rfl rfl rfl, fun out => absurd mem out⟩
  next i rest stage =>
    rw [stage] at due
    refine ⟨inv.spoken.composeUp i _ _ _, fun next holds => ?_⟩
    obtain rfl := Option.some.inj holds
    cases worked with
    | false =>
        refine before.after rfl rfl rfl rfl rfl rfl ?_
        rw [if_neg Bool.false_ne_true]
        exact atStage_undoing (raised_of_rolling (by exact stage))
    | true =>
        refine before.after rfl rfl rfl rfl rfl rfl ⟨due.1, fun j mem out => ?_⟩
        by_cases same : j = i
        · subst same
          obtain ⟨text, staged⟩ := due.1 j mem
          rw [staged, Option.getD_some]
          have risen := inv.risen held stage calm staged fun s => Bool.true_or (reached s)
          exact risen.goes rfl rfl rfl
        · have waits : j ∉ i :: rest := fun there => (List.mem_cons.mp there).elim same out
          exact ((due.2 j mem waits).composeUp same).goes rfl rfl rfl
  next => exact inv

theorem Inv.undo (inv : Inv site state) (held : state.tick = some tick) (reached : S → Bool)
    (worked : Bool) : Inv site (advance site state tick (.undo reached worked)) := by
  have before := inv.tick tick held
  unfold advance
  dsimp only
  split
  next => exact inv.withTick (before.goes rfl rfl rfl rfl trivial)
  next i rest stage =>
    split
    next old _ =>
      refine ⟨inv.spoken.composeUp i old _ _, fun next holds => ?_⟩
      obtain rfl := Option.some.inj holds
      exact before.after rfl rfl rfl rfl rfl rfl trivial
    next =>
      refine ⟨inv.spoken.composeDown i _, fun next holds => ?_⟩
      obtain rfl := Option.some.inj holds
      exact before.after rfl rfl rfl rfl rfl rfl trivial
  next => exact inv

theorem Inv.promote (inv : Inv site state) (held : state.tick = some tick) :
    Inv site (advance site state tick .promote) := by
  have before := inv.tick tick held
  have due := before.stage
  unfold advance
  dsimp only
  split
  next stage =>
    rw [stage] at due
    refine inv.withTick (before.goes rfl rfl rfl rfl fun i mem => ?_)
    exact ⟨(due i mem).1.goes rfl rfl rfl, (due i mem).2 List.not_mem_nil⟩
  next i rest stage =>
    rw [stage] at due
    refine ⟨inv.spoken, fun next holds => ?_⟩
    obtain rfl := Option.some.inj holds
    refine before.after rfl rfl rfl rfl rfl rfl fun j mem => ?_
    obtain ⟨⟨text, staged, upOn⟩, live⟩ := due j mem
    refine ⟨⟨text, staged, upOn⟩, fun out => ?_⟩
    dsimp only
    by_cases same : j = i
    · subst same
      exact Function.update_self _ _ _
    · rw [Function.update_of_ne same]
      exact live fun there => (List.mem_cons.mp there).elim same out
  next => exact inv

/-- **What is recorded speaks for fresh services**: every identity of the tick has risen. -/
theorem Inv.write (inv : Inv site state) (held : state.tick = some tick) :
    Inv site (advance site state tick .write) := by
  have before := inv.tick tick held
  have due := before.stage
  unfold advance
  dsimp only
  split
  case h_1 stage | h_2 stage =>
    rw [stage] at due
    refine ⟨inv.spoken, fun next holds => ?_⟩
    obtain rfl := Option.some.inj holds
    exact before.after rfl rfl rfl rfl rfl rfl due
  case h_3 stage _ =>
    rw [stage] at due
    refine ⟨inv.spoken, fun next holds => ?_⟩
    obtain rfl := Option.some.inj holds
    exact before.after rfl rfl rfl rfl rfl rfl due
  case h_4 stage =>
    rw [stage] at due
    constructor
    case spoken =>
      intro recorded holds i manifest there speaks
      obtain rfl := Option.some.inj holds
      have read : tick.digests i ≠ none := fun none => by
        rw [none] at speaks
        cases speaks
      have unchanged : Unchanged state.host tick i := ⟨read, before.same i manifest there speaks⟩
      obtain ⟨⟨text, -, upOn⟩, -⟩ := due i (before.listed i read).1
      exact (upOn unchanged).2
    case tick =>
      intro next holds
      obtain rfl := Option.some.inj holds
      exact before.after rfl rfl rfl rfl rfl rfl due
  case h_5 => exact inv

/-- A quiet decision: the recorded digests are those of the manifests, and the services are up. -/
theorem Inv.settled (inv : Inv site state) (held : state.tick = some tick)
    (healthy : allVerified site state.host tick.ids = true) {recorded : I → Option String}
    (holds : state.host.recorded = some recorded)
    (none : ∀ i ∈ tick.names, changedFrom (some recorded) tick.digests i = false) {i : I}
    (unchanged : Unchanged state.host tick i) : Settled site state.host i := by
  obtain ⟨listed, named⟩ := (inv.tick tick held).listed i unchanged.1
  have same : recorded i = tick.digests i := by
    have kept := none i named
    unfold changedFrom at kept
    rw [Option.any_some, Option.isSome_iff_ne_none.mpr unchanged.1, Bool.true_and] at kept
    exact not_not.mp (of_decide_eq_false kept)
  have up : (state.host.live i).any (verified site state.host i) = true :=
    List.all_eq_true.mp healthy i listed
  cases live : state.host.live i with
  | none =>
      rw [live] at up
      cases up
  | some text =>
      rw [live, Option.any_some] at up
      exact ⟨text, live, List.all_eq_true.mp up, inv.fresh_of_recorded held unchanged holds same⟩

theorem Inv.decide (inv : Inv site state) (held : state.tick = some tick) {healthy : Bool}
    (calm : Calm site state (.decide healthy)) :
    Inv site (advance site state tick (.decide healthy)) := by
  have before := inv.tick tick held
  unfold advance
  dsimp only
  split
  next named stage sha =>
    split
    next => exact inv
    next possible =>
      unfold judge
      dsimp only
      split
      next => exact inv.raises held
      next chosen aim =>
        split
        next current =>
          split
          next first =>
            -- The first baseline is recorded.
            refine ⟨fun recorded holds i manifest there speaks => ?_, fun next holds => ?_⟩
            · obtain rfl := Option.some.inj holds
              refine calm tick named held stage sha first.1 first.2 (aim.trans current.symm) i ?_
              exact fun none => by rw [none] at speaks; cases speaks
            · obtain rfl := Option.some.inj holds
              exact before.after rfl rfl rfl rfl rfl rfl trivial
          next again =>
            refine inv.withTick (before.goes rfl rfl rfl rfl ?_)
            dsimp only
            split
            next quiet =>
              have checked : allVerified site state.host tick.ids = true := by
                rw [← Bool.not_eq_false]
                exact fun failed => possible ⟨quiet.1, failed⟩
              cases recorded : state.host.recorded with
              | none => exact absurd ⟨quiet.1, recorded⟩ again
              | some digests =>
                  have kept := quiet.2
                  rw [recorded] at kept
                  exact fun i unchanged => inv.settled held checked recorded kept unchanged
            next => trivial
        next => exact inv.withTick (before.goes rfl rfl rfl rfl trivial)
  next => exact inv

theorem Inv.read (inv : Inv site state) (held : state.tick = some tick) :
    Inv site (advance site state tick .read) := by
  have before := inv.tick tick held
  unfold advance
  dsimp only
  split
  next => exact inv.withTick (before.goes rfl rfl rfl rfl trivial)
  next i rest stage =>
    split
    next => exact inv.raises held
    next manifest there => exact inv.readOne held stage there
  next => exact inv

theorem Inv.stage (inv : Inv site state) (held : state.tick = some tick) :
    Inv site (advance site state tick .stage) := by
  have before := inv.tick tick held
  have due := before.stage
  unfold advance
  dsimp only
  split
  next stage =>
    rw [stage] at due
    refine inv.withTick (before.goes rfl rfl rfl rfl ⟨fun i mem => ?_, fun i mem out => ?_⟩)
    · exact due i mem List.not_mem_nil
    · exact absurd mem out
  next i rest stage =>
    split
    next => exact inv.raises held
    next => exact inv.stageOne held stage _
  next => exact inv

theorem Inv.move (inv : Inv site state) (held : state.tick = some tick) (moved worked : Bool) :
    Inv site (advance site state tick (.move moved worked)) := by
  have before := inv.tick tick held
  unfold advance
  dsimp only
  split
  next sha stage _ =>
    refine ⟨inv.spoken, fun next holds => ?_⟩
    obtain rfl := Option.some.inj holds
    cases worked with
    | true => exact before.after rfl rfl rfl rfl rfl rfl trivial
    | false =>
        refine before.after rfl rfl rfl rfl rfl rfl ?_
        rw [if_neg Bool.false_ne_true]
        unfold raised
        dsimp only
        rw [stage]
        trivial
  next => exact inv

theorem Inv.advance (inv : Inv site state) (held : state.tick = some tick) {action : Action I C S}
    (calm : Calm site state action) : Inv site (advance site state tick action) := by
  have before := inv.tick tick held
  have due := before.stage
  cases action with
  | start | edit i manifest => exact inv
  | lookup sha =>
      unfold Deploy.advance
      dsimp only
      split
      next stage =>
        rw [stage] at due
        exact inv.withTick (before.goes rfl rfl rfl rfl due)
      next => exact inv
  | list ids =>
      unfold Deploy.advance
      dsimp only
      split
      next listing =>
        -- No digest has been taken yet, so the new list covers them all.
        rw [listing.1] at due
        refine inv.withTick ⟨before.le, before.same, before.read, fun i read => ?_, due⟩
        exact absurd (due i) read
      next => exact inv
  | glob names =>
      unfold Deploy.advance
      dsimp only
      split
      next listing =>
        rw [listing.1] at due
        refine inv.withTick ⟨before.le, before.same, before.read, fun i read => ?_, fun i mem => ?_⟩
        · exact absurd (due i) read
        · exact ⟨calm tick held listing.1 i mem, mem⟩
      next => exact inv
  | read => exact inv.read held
  | decide healthy => exact inv.decide held calm
  | hold | check | dryRun =>
      unfold Deploy.advance
      dsimp only
      split
      next => exact inv.withTick (before.goes rfl rfl rfl rfl trivial)
      next => exact inv
  | move moved worked => exact inv.move held moved worked
  | pull runtime worker =>
      unfold Deploy.advance
      dsimp only
      split
      next => exact inv.withTick (before.goes rfl rfl rfl rfl fun i mem out => absurd mem out)
      next => exact inv
  | stage => exact inv.stage held
  | up reached worked => exact inv.up held calm
  | undo reached worked => exact inv.undo held reached worked
  | promote => exact inv.promote held
  | write => exact inv.write held
  | leave restored =>
      unfold Deploy.advance
      dsimp only
      split
      next => exact ⟨inv.spoken, fun next holds => by cases holds⟩
      next => exact inv
  | raises => exact inv.raises held
  | kill => exact ⟨inv.spoken, fun next holds => by cases holds⟩

theorem Inv.step (inv : Inv site state) {action : Action I C S} (calm : Calm site state action) :
    Inv site (step site state action) := by
  cases action with
  | edit i manifest => exact inv.edit calm
  | start =>
      unfold Deploy.step
      dsimp only
      split
      next => exact inv
      next =>
        refine ⟨inv.spoken, fun next holds => ?_⟩
        obtain rfl := Option.some.inj holds
        have blank : ∀ i, (Tick.fresh state.host).digests i = none := fun _ => rfl
        constructor
        case le => exact fun i read => absurd (blank i) read
        case same =>
          intro i text _ read
          cases read
        case read => exact fun i unchanged => absurd (blank i) unchanged.1
        case listed => exact fun i read => absurd (blank i) read
        case stage => exact blank
  | lookup | list | glob | read | decide | hold | check | move | pull | dryRun | stage | up | undo
  | promote | write | leave | raises | kill =>
      unfold Deploy.step
      dsimp only
      cases held : state.tick with
      | none => exact inv
      | some tick => exact inv.advance held calm

end Step

/-- **A quiet tick speaks for the services**, in every run of calm steps from a host whose manifests
this runner has not recorded yet. -/
theorem quiet_settles (site : Site I C S) (host : Host I C S) (unrecorded : host.recorded = none)
    {actions : List (Action I C S)}
    (calm : Runs.Meets (step site) (Calm site) (State.idle host) actions) :
    Quiet site (Runs.run (step site) (State.idle host) actions) := by
  have first : Inv site (State.idle host) := by
    refine ⟨fun recorded holds => ?_, fun tick held => by cases held⟩
    rw [State.idle, unrecorded] at holds
    cases holds
  have inv : Inv site (Runs.run (step site) (State.idle host) actions) :=
    Runs.Meets.keeps (fun _ _ inv calm => inv.step calm) first calm
  intro tick held ends i unchanged
  have due := (inv.tick tick held).stage
  rcases ends with current | deployed
  · rw [current] at due
    exact due i unchanged
  · rw [deployed] at due
    obtain ⟨⟨text, staged, upOn⟩, live⟩ := due i ((inv.tick tick held).listed i unchanged.1).1
    exact ⟨text, live.trans staged, upOn unchanged⟩

/-! ### An edit taken back -/

/-- One identity of one service, whose Compose file names the runtime image. -/
def sampleSite : Site Unit Nat Unit where
  older one other := decide (one ≤ other)
  sha256 text := text
  render refs _ _ := refs.1
  services _ := [()]

/-- A new host with the manifest `one`. -/
def sampleHost : Host Unit Nat Unit where
  manifests := JsMap.empty.set () "one"
  edits _ := 0
  live _ := none
  running _ _ := none
  head := 0
  deployed := none
  runtimeImage := none
  workerImage := none
  recorded := none
  locked := false

/-- The start of a tick for release 1, up to its decision. -/
def decides (healthy : Bool) : List (Action Unit Nat Unit) :=
  [.start, .lookup 1, .list [()], .glob [()], .read, .read, .decide healthy]

/-- The rollout, up to the `up` of the identity. -/
def rolls (worked : Bool) : List (Action Unit Nat Unit) :=
  [.check, .move true true, .pull "image" "worker", .stage, .stage, .up (fun _ => true) worked]

def firstDeploy : List (Action Unit Nat Unit) :=
  decides false ++ rolls true ++ [.up (fun _ => true) true, .promote, .promote, .write, .write,
    .write, .write]

/-- The edit, the tick that recreates and then fails, and the edit taken back before the next tick. -/
def revertedEdit : List (Action Unit Nat Unit) :=
  firstDeploy ++ [.leave true, .edit () (some "two")] ++ decides true ++ rolls false ++
    [.undo (fun _ => true) true, .undo (fun _ => true) true, .leave true, .edit () (some "one")] ++
    decides true

def afterRevert : State Unit Nat Unit :=
  Runs.run (step sampleSite) (State.idle sampleHost) revertedEdit

/-- The first deployment is calm, and quiet. -/
theorem quiet_settles_first : Quiet sampleSite
    (Runs.run (step sampleSite) (State.idle sampleHost) firstDeploy) := by
  refine quiet_settles sampleSite sampleHost rfl ?_
  refine ⟨trivial, trivial, trivial, ?_, trivial, trivial, ?_, trivial, trivial, trivial, trivial,
    trivial, ?_, ?_, trivial, trivial, trivial, trivial, trivial, trivial, trivial⟩
  · intro tick held _ i _
    obtain rfl := Option.some.inj held
    exact List.mem_cons_self
  · intro tick named _ _ _ healthy
    cases healthy
  · intro tick i rest held stage _ s service runs
    cases runs
  · intro tick i rest held stage
    obtain rfl := Option.some.inj held
    cases stage

/-- **A quiet tick after an edit that was taken back**: the services still run the edit. -/
theorem quiet_after_revert : ¬ Quiet sampleSite afterRevert ∧
    (afterRevert.host.running () ()).bind (·.manifest) ≠ afterRevert.host.manifests.get () := by
  constructor
  · intro quiet
    obtain ⟨tick, held, ends, unchanged⟩ : ∃ tick, afterRevert.tick = some tick ∧
        tick.stage = .leaving .current ∧ Unchanged afterRevert.host tick () :=
      ⟨_, rfl, by decide, by decide, by decide⟩
    obtain ⟨text, -, -, fresh⟩ := quiet tick held (.inl ends) () unchanged
    obtain ⟨service, runs, old⟩ : ∃ service, afterRevert.host.running () () = some service ∧
        service.born ≠ afterRevert.host.edits () := ⟨_, rfl, by decide⟩
    exact old (fresh () service runs)
  · decide

end Nvoy.Deploy
