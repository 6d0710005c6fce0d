/-
**What a failed tick undoes.**

A tick that raises rolls back the identities it touched and puts the deployer's checkout back. A tick
that is killed does neither, and its lock directory stays.

* `Forward` — every value of `DEPLOYED_SHA` descends from the one before it;
* `Unwound` — a tick that raised before its promotion has left the host as it found it;
* `Free` — where no tick runs, the lock is free and the checkout is at the last promoted release;
* `ticks_unwind` — all three in every run in which no tick is killed while it holds the lock;
* `kill_locks` — after a kill, no tick runs again.
-/

import Nvoy.Deploy.Quiet
import Mathlib.Data.List.Chain

namespace Nvoy.Deploy

set_option linter.unusedSectionVars false

variable {I C S : Type} [DecidableEq I] [DecidableEq C] [DecidableEq S]

/-! ### Statements -/

/-- A later value of `DEPLOYED_SHA` is the earlier one or descends from it. -/
def Forward (site : Site I C S) (state : State I C S) : Prop :=
  state.values.IsChain fun later earlier => later = earlier ∨ site.older earlier later = true

/-- The identity runs the Compose file that was live before, or nothing where there was none. -/
def Back (site : Site I C S) (host : Host I C S) (entry : Host I C S) (i : I) : Prop :=
  match entry.live i with
  | some old => ∀ s, (s ∈ site.services old ↔ (host.running i s).isSome = true) ∧
      ∀ service, host.running i s = some service → service.compose = old
  | none => ∀ s, host.running i s = none

/-- The state files and the live Compose files are those of the entry. -/
structure Untouched (host entry : Host I C S) : Prop where
  deployed : host.deployed = entry.deployed
  recorded : host.recorded = entry.recorded
  runtimeImage : host.runtimeImage = entry.runtimeImage
  workerImage : host.workerImage = entry.workerImage
  live : host.live = entry.live

/-- A tick that raised before the promotion and is about to end: what it promised is as it was, every
identity it touched is back or its rollback failed, and leaving puts the checkout back. -/
def Unwound (site : Site I C S) (state : State I C S) : Prop :=
  ∀ tick, state.tick = some tick → tick.stage = .leaving (.raised false) →
    Untouched state.host tick.entry ∧
      (∀ i ∈ tick.changed, i ∈ tick.alarms ∨ Back site state.host tick.entry i) ∧
      (step site state (.leave true)).host.head = tick.entry.head

/-- Where no tick runs, the next one can start, and the checkout is where the last promotion left it
unless it could not be put back. -/
def Free (state : State I C S) : Prop :=
  state.tick = none → state.host.locked = false ∧ (state.lost = false → state.host.head = state.promoted)

/-- No tick is killed between taking the lock and giving it back. -/
def Unkilled (state : State I C S) : Action I C S → Prop
  | .kill => state.tick = none
  | _ => True

/-! ### Rollback commands -/

section Rollback

variable {site : Site I C S} {host entry : Host I C S} {i j : I} {text : String}
  {reached : S → Bool}

theorem Back.composeUp_self (live : entry.live i = some text) (all : ∀ s, reached s = true) :
    Back site (composeUp site host i text false reached) entry i := by
  unfold Back
  rw [live]
  intro s
  rw [running_composeUp_self, if_pos (all s)]
  refine ⟨⟨serviceUp_isSome, fun runs => ?_⟩, fun service runs => ?_⟩
  · by_contra orphan
    rw [serviceUp, if_neg orphan] at runs
    cases runs
  · rcases serviceUp_cases runs with rfl | ⟨-, own, -⟩
    · rfl
    · exact own

theorem Back.composeDown_self (live : entry.live i = none) (all : ∀ s, reached s = true) :
    Back site (composeDown host i reached) entry i := by
  unfold Back
  rw [live]
  intro s
  rw [running_composeDown_self, if_pos (all s)]

/-- What an identity runs is all that its rollback depends on. -/
theorem Back.congr {later : Host I C S} (back : Back site host entry i)
    (running : later.running i = host.running i) : Back site later entry i := by
  unfold Back at back ⊢
  rw [running]
  exact back

end Rollback

/-! ### The invariant -/

/-- The promotion has not begun. -/
def Stage.early : Stage I → Bool
  | .promoting _ | .writing _ | .leaving .deployed | .leaving .baseline
  | .leaving (.raised true) => false
  | _ => true

/-- The checkout has not been moved. -/
def Stage.unmoved : Stage I → Bool
  | .looking | .listing | .globbing | .reading _ | .deciding | .checking | .moving => true
  | _ => false

/-- The checkout has been moved to the release. -/
def Stage.arrived : Stage I → Bool
  | .pulling | .staging _ | .rolling _ | .promoting _ | .writing _ | .leaving .deployed => true
  | _ => false

/-- The release is chosen, and not yet promoted. -/
def Stage.chosen : Stage I → Bool
  | .checking | .moving | .pulling | .staging _ | .rolling _ | .promoting _ | .writing _ => true
  | _ => false

/-- What is known of the identities the tick has touched. -/
def Rolled (site : Site I C S) (host : Host I C S) (tick : Tick I C S) : Stage I → Prop
  | .rolling _ | .promoting _ | .writing _ => True
  | .undoing rest => (∀ i ∈ rest, i ∈ tick.changed) ∧
      ∀ i ∈ tick.changed, i ∉ rest → i ∈ tick.alarms ∨ Back site host tick.entry i
  | .leaving (.raised false) =>
      ∀ i ∈ tick.changed, i ∈ tick.alarms ∨ Back site host tick.entry i
  | .leaving _ => True
  | _ => tick.changed = []

/-- What the identities run is all that matters of the host. -/
theorem Rolled.congr {site : Site I C S} {host later : Host I C S} {tick : Tick I C S}
    {stage : Stage I} (rolled : Rolled site host tick stage)
    (running : later.running = host.running) : Rolled site later tick stage := by
  have back : ∀ i, Back site host tick.entry i → Back site later tick.entry i :=
    fun i back => back.congr (congrFun running i)
  cases stage with
  | undoing rest => exact ⟨rolled.1, fun i mem out => (rolled.2 i mem out).imp_right (back i)⟩
  | leaving outcome =>
      cases outcome with
      | raised promoting =>
          cases promoting with
          | false => exact fun i mem => (rolled i mem).imp_right (back i)
          | true => trivial
      | current | baseline | held | dry | deployed => trivial
  | rolling | promoting | writing => trivial
  | looking | listing | globbing | reading | deciding | checking | moving | pulling | staging =>
      exact rolled

/-- What holds of a tick that is running. -/
structure Going (site : Site I C S) (host : Host I C S) (lost : Bool) (promoted : C)
    (tick : Tick I C S) : Prop where
  entry : lost = false → tick.entry.head = promoted
  early : tick.stage.early = true → Untouched host tick.entry
  unmoved : tick.stage.unmoved = true → tick.restoreTo = none
  stays : tick.restoreTo = none → tick.stage ≠ .leaving .deployed → host.head = tick.entry.head
  back : ∀ commit, tick.restoreTo = some commit →
    commit = tick.entry.head ∧ (tick.sha = some commit → host.head = commit)
  arrived : tick.stage.arrived = true → tick.sha = some host.head
  ends : tick.stage = .leaving .deployed → tick.restoreTo = none
  chosen : tick.stage.chosen = true → ∀ deployed, host.deployed = some deployed →
    ∀ sha, tick.sha = some sha → sha = deployed ∨ site.older deployed sha = true
  backups : ∀ i ∈ tick.changed, tick.backup i = tick.entry.live i
  rolled : Rolled site host tick tick.stage

structure Sound (site : Site I C S) (state : State I C S) : Prop where
  forward : Forward site state
  newest : state.values.head? = state.host.deployed
  free : Free state
  going : ∀ tick, state.tick = some tick →
    Going site state.host state.lost state.promoted tick

section Step

variable {site : Site I C S} {state : State I C S} {tick : Tick I C S}

/-- Forward only: the chosen release is the deployed one or descends from it. -/
theorem target_forward {deployed : Option C} {named sha : C}
    (aim : target site deployed named = some sha) :
    ∀ commit, deployed = some commit → sha = commit ∨ site.older commit sha = true := by
  rintro commit rfl
  unfold target at aim
  dsimp only at aim
  split at aim
  · exact .inl (Option.some.inj aim).symm
  · split at aim
    next descends => exact .inr (Option.some.inj aim ▸ descends)
    next => cases aim

/-- The tick goes on, and the host with it, and no release is promoted. -/
theorem Sound.goes (sound : Sound site state) {later : Host I C S} {next : Tick I C S}
    (deployed : later.deployed = state.host.deployed)
    (going : Going site later state.lost state.promoted next) :
    Sound site { state with host := later, tick := some next } where
  forward := sound.forward
  newest := sound.newest.trans deployed.symm
  free none := by cases none
  going _ holds := Option.some.inj holds ▸ going

section Going

variable {host : Host I C S} {lost : Bool} {promoted : C}

/-- A stage later on, with the same checkout, files and touched identities. -/
theorem Going.goes {next : Tick I C S} (going : Going site host lost promoted tick)
    (entry : next.entry = tick.entry) (restoreTo : next.restoreTo = tick.restoreTo)
    (sha : next.sha = tick.sha) (changed : next.changed = tick.changed)
    (backup : next.backup = tick.backup)
    (early : next.stage.early = true → tick.stage.early = true)
    (unmoved : next.stage.unmoved = true → tick.stage.unmoved = true)
    (arrived : next.stage.arrived = true → tick.stage.arrived = true)
    (chosen : next.stage.chosen = true → tick.stage.chosen = true)
    (running : next.stage ≠ .leaving .deployed ∧ tick.stage ≠ .leaving .deployed)
    (rolled : Rolled site host next next.stage) : Going site host lost promoted next where
  entry := by rw [entry]; exact going.entry
  early is := by rw [entry]; exact going.early (early is)
  unmoved is := by rw [restoreTo]; exact going.unmoved (unmoved is)
  stays := by rw [restoreTo, entry]; exact fun none _ => going.stays none running.2
  back := by rw [restoreTo, entry, sha]; exact going.back
  arrived is := by rw [sha]; exact going.arrived (arrived is)
  ends is := absurd is running.1
  chosen is := by rw [sha]; exact going.chosen (chosen is)
  backups := by rw [changed, backup, entry]; exact going.backups
  rolled := rolled

/-- The tick stops short: what is left is to undo, or to leave. -/
theorem Going.stops (going : Going site host lost promoted tick) {stage : Stage I}
    (short : stage.unmoved = false ∧ stage.arrived = false ∧ stage.chosen = false)
    (early : stage.early = true → tick.stage.early = true)
    (running : stage ≠ .leaving .deployed ∧ tick.stage ≠ .leaving .deployed)
    (rolled : Rolled site host tick stage) :
    Going site host lost promoted { tick with stage := stage } := by
  refine going.goes rfl rfl rfl rfl rfl early ?_ ?_ ?_ running ?_
  · exact fun is => absurd is (by simp [short.1])
  · exact fun is => absurd is (by simp [short.2.1])
  · exact fun is => absurd is (by simp [short.2.2])
  · cases stage <;> exact rolled

theorem Going.raised (going : Going site host lost promoted tick) :
    Going site host lost promoted (raised tick) := by
  have rolled := going.rolled
  unfold Deploy.raised
  cases held : tick.stage with
  | leaving outcome | undoing rest =>
      dsimp only
      rw [← held]
      exact going
  | looking | listing | globbing | reading | deciding | checking | moving | pulling =>
      rw [held] at rolled
      refine going.stops ⟨rfl, rfl, rfl⟩ (fun _ => by rw [held]; rfl) ⟨by simp, by simp [held]⟩ ?_
      intro i mem
      rw [show tick.changed = [] from rolled] at mem
      cases mem
  | staging rest | rolling rest =>
      refine going.stops ⟨rfl, rfl, rfl⟩ (fun _ => by rw [held]; rfl) ⟨by simp, by simp [held]⟩ ?_
      exact ⟨fun i mem => List.mem_reverse.mp mem,
        fun i mem out => absurd (List.mem_reverse.mpr mem) out⟩
  | promoting rest | writing next =>
      exact going.stops ⟨rfl, rfl, rfl⟩ (fun is => by cases is) ⟨by simp, by simp [held]⟩ trivial

/-- The host after leaving with the checkout put back. -/
def headAfter (host : Host I C S) (tick : Tick I C S) : C :=
  (tick.restoreTo.filter fun back => tick.sha ≠ some back).getD host.head

/-- **Leaving puts the checkout back**, unless the release was promoted. -/
theorem Going.headAfter (going : Going site host lost promoted tick)
    (failed : tick.stage ≠ .leaving .deployed) : headAfter host tick = tick.entry.head := by
  unfold Deploy.headAfter
  cases restore : tick.restoreTo with
  | none => exact going.stays restore failed
  | some commit =>
      obtain ⟨own, there⟩ := going.back commit restore
      by_cases same : tick.sha = some commit
      · rw [Option.filter_some_neg (by simpa using same), Option.getD_none, there same, own]
      · rw [Option.filter_some_pos (by simpa using same), Option.getD_some, own]

end Going

/-- Only the services have changed. -/
theorem Untouched.runs {host later entry : Host I C S} (untouched : Untouched host entry)
    (same : Untouched later host) : Untouched later entry :=
  ⟨same.deployed.trans untouched.deployed, same.recorded.trans untouched.recorded,
    same.runtimeImage.trans untouched.runtimeImage, same.workerImage.trans untouched.workerImage,
    same.live.trans untouched.live⟩

theorem Sound.raises (sound : Sound site state) (held : state.tick = some tick) :
    Sound site { state with tick := some (raised tick) } :=
  sound.goes rfl (sound.going tick held).raised

theorem Sound.edit (sound : Sound site state) (i : I) (manifest : Option String) :
    Sound site { state with host := edited state.host i manifest } where
  forward := sound.forward
  newest := sound.newest
  free := sound.free
  going tick held := by
    have going := sound.going tick held
    exact { going with
      early := fun is => (going.early is).runs ⟨rfl, rfl, rfl, rfl, rfl⟩
      rolled := going.rolled.congr rfl }

/-- Leaving gives the lock back. -/
theorem Sound.leave (sound : Sound site state) (held : state.tick = some tick) (restored : Bool) :
    Sound site (advance site state tick (.leave restored)) := by
  have going := sound.going tick held
  unfold advance
  dsimp only
  split
  next outcome stage =>
    refine ⟨sound.forward, sound.newest, fun _ => ⟨rfl, fun kept => ?_⟩, fun next holds => ?_⟩
    · dsimp only at kept ⊢
      by_cases done : outcome = .deployed
      · subst done
        have arrived := going.arrived (by rw [stage]; rfl)
        rw [if_pos rfl, going.ends stage, arrived]
        simp
      · rw [if_neg done, Bool.or_eq_false_iff] at kept
        have failed : tick.stage ≠ .leaving .deployed := by
          rw [stage]
          exact fun same => done (Stage.leaving.inj same)
        rw [if_neg done, ← going.entry kept.1, ← going.headAfter failed, Deploy.headAfter]
        cases restored with
        | true => rw [if_pos rfl]
        | false =>
            have none : (tick.restoreTo.filter fun back => tick.sha ≠ some back) = none := by
              rw [← Option.not_isSome_iff_eq_none]
              simpa using kept.2
            rw [none]
            rfl
    · cases holds
  next => exact sound

/-- An identity is brought up: its live file is its backup, and it counts as touched. -/
theorem Sound.up (sound : Sound site state) (held : state.tick = some tick) (reached : S → Bool)
    (worked : Bool) : Sound site (advance site state tick (.up reached worked)) := by
  have going := sound.going tick held
  unfold advance
  dsimp only
  split
  next stage =>
    refine sound.goes rfl (going.goes rfl rfl rfl rfl rfl ?_ ?_ ?_ ?_ ⟨by simp, by simp [stage]⟩ ?_)
    · exact fun is => by cases is
    · exact fun is => by cases is
    · exact fun _ => by rw [stage]; rfl
    · exact fun _ => by rw [stage]; rfl
    · trivial
  next i rest stage =>
    have untouched : Untouched state.host tick.entry := going.early (by rw [stage]; rfl)
    -- The tick as it is while the command runs.
    let during : Tick I C S := { tick with
      backup := Function.update tick.backup i (state.host.live i)
      changed := tick.changed ++ [i] }
    have runs : ∀ later : Host I C S, later.head = state.host.head → Untouched later state.host →
        Going site later state.lost state.promoted during := by
      intro later head same
      refine ⟨going.entry, fun _ => untouched.runs same, going.unmoved, head ▸ going.stays,
        head ▸ going.back, head ▸ going.arrived, going.ends, same.deployed ▸ going.chosen,
        fun j mem => ?_, ?_⟩
      · by_cases own : j = i
        · subst own
          exact (Function.update_self _ _ _).trans (congrFun untouched.live j)
        · refine (Function.update_of_ne own _ _).trans (going.backups j ?_)
          exact (List.mem_append.mp mem).resolve_right fun now => own (List.mem_singleton.mp now)
      · change Rolled site later during tick.stage
        rw [stage]
        trivial
    refine sound.goes rfl ?_
    have after := runs (composeUp site state.host i ((tick.staged i).getD "") (tick.recreate i)
      fun s => worked || reached s) rfl ⟨rfl, rfl, rfl, rfl, rfl⟩
    cases worked with
    | false => exact after.raised
    | true =>
        rw [if_pos rfl]
        refine after.goes rfl rfl rfl rfl rfl ?_ ?_ ?_ ?_ ⟨by simp, by simp [during, stage]⟩ trivial
        · exact fun _ => by change tick.stage.early = true; rw [stage]; rfl
        · exact fun is => by cases is
        · exact fun _ => by change tick.stage.arrived = true; rw [stage]; rfl
        · exact fun _ => by change tick.stage.chosen = true; rw [stage]; rfl
  next => exact sound

/-- **A rollback command that worked** has its identity back on the file that was live. -/
theorem Sound.undo (sound : Sound site state) (held : state.tick = some tick) (reached : S → Bool)
    (worked : Bool) : Sound site (advance site state tick (.undo reached worked)) := by
  have going := sound.going tick held
  have rolled := going.rolled
  unfold advance
  dsimp only
  split
  next stage =>
    rw [stage] at rolled
    refine sound.goes rfl (going.stops ⟨rfl, rfl, rfl⟩ (fun _ => by rw [stage]; rfl)
      ⟨by simp, by simp [stage]⟩ fun i mem => rolled.2 i mem List.not_mem_nil)
  next i rest stage =>
    rw [stage] at rolled
    have untouched : Untouched state.host tick.entry := going.early (by rw [stage]; rfl)
    have backup : tick.backup i = tick.entry.live i := going.backups i (rolled.1 i List.mem_cons_self)
    have runs : ∀ later : Host I C S, later.head = state.host.head → Untouched later state.host →
        (∀ j, j ≠ i → later.running j = state.host.running j) →
        (worked = true → Back site later tick.entry i) →
        Going site later state.lost state.promoted { tick with
          stage := .undoing rest
          alarms := if worked then tick.alarms else i :: tick.alarms } := by
      intro later head same others back
      constructor
      case entry => exact going.entry
      case early => exact fun _ => untouched.runs same
      case unmoved | arrived | ends | chosen => exact fun is => by cases is
      case stays => exact fun none _ => head.trans (going.stays none (by simp [stage]))
      case back => exact head ▸ going.back
      case backups => exact going.backups
      case rolled =>
        refine ⟨fun j mem => rolled.1 j (List.mem_cons_of_mem _ mem), fun j mem out => ?_⟩
        dsimp only
        by_cases own : j = i
        · subst own
          cases worked with
          | true => exact .inr (back rfl)
          | false => exact .inl List.mem_cons_self
        · have waits : j ∉ i :: rest := fun there => (List.mem_cons.mp there).elim own out
          rcases rolled.2 j mem waits with alarm | before
          · cases worked with
            | true => exact .inl alarm
            | false => exact .inl (List.mem_cons_of_mem _ alarm)
          · exact .inr (before.congr (others j own))
    have full : worked = true → ∀ s, (worked || reached s) = true := by
      rintro rfl s
      rfl
    split
    next old was =>
      refine sound.goes rfl (runs _ rfl ⟨rfl, rfl, rfl, rfl, rfl⟩ ?_ ?_)
      · exact fun j other => running_composeUp_of_ne other
      · exact fun works => Back.composeUp_self (backup ▸ was) (full works)
    next was =>
      refine sound.goes rfl (runs _ rfl ⟨rfl, rfl, rfl, rfl, rfl⟩ ?_ ?_)
      · exact fun j other => running_composeDown_of_ne other
      · exact fun works => Back.composeDown_self (backup ▸ was) (full works)
  next => exact sound

/-- A checkout leaves the previous commit to be put back. -/
theorem Sound.move (sound : Sound site state) (held : state.tick = some tick)
    (moved worked : Bool) : Sound site (advance site state tick (.move moved worked)) := by
  have going := sound.going tick held
  have rolled := going.rolled
  unfold advance
  dsimp only
  split
  next sha stage named =>
    rw [stage] at rolled
    have untouched : Untouched state.host tick.entry := going.early (by rw [stage]; rfl)
    have own : state.host.head = tick.entry.head :=
      going.stays (going.unmoved (by rw [stage]; rfl)) (by simp [stage])
    refine sound.goes rfl ?_
    -- Whatever the command did to the checkout, the commit to put back is the one it was on.
    have goes : ∀ head next, (state.host.head = sha → head = sha) →
        (Stage.arrived next = true → head = sha) → next.unmoved = false →
        next ≠ .leaving .deployed → (next.chosen = true → tick.stage.chosen = true) →
        Rolled site state.host tick next →
        Going site { state.host with head := head } state.lost state.promoted
          { tick with restoreTo := some state.host.head, stage := next } := by
      intro head next same arrives moves running chosen rolled
      constructor
      case entry => exact going.entry
      case early => exact fun _ => untouched.runs ⟨rfl, rfl, rfl, rfl, rfl⟩
      case unmoved => exact fun is => absurd is (by simp [moves])
      case stays => exact fun none => by cases none
      case back =>
        intro commit back
        obtain rfl := Option.some.inj back
        refine ⟨own, fun aims => ?_⟩
        have here : sha = state.host.head := Option.some.inj (named.symm.trans aims)
        exact (same here.symm).trans here
      case arrived => exact fun is => named.trans (congrArg some (arrives is).symm)
      case ends => exact fun is => absurd is running
      case chosen => exact fun is => going.chosen (chosen is)
      case backups => exact going.backups
      case rolled => cases next <;> exact rolled.congr rfl
    cases worked with
    | true =>
        rw [if_pos rfl, if_pos (.inr rfl)]
        exact goes sha .pulling (fun _ => rfl) (fun _ => rfl) rfl (by simp) (fun _ => by rw [stage]; rfl) rolled
    | false =>
        have stops : raised { tick with restoreTo := some state.host.head } =
            { tick with restoreTo := some state.host.head, stage := .leaving (.raised false) } := by
          unfold raised
          dsimp only
          rw [stage]
        rw [if_neg Bool.false_ne_true, stops]
        refine goes _ (.leaving (.raised false)) ?_ (fun is => by cases is) rfl (by simp)
          (fun is => by cases is) fun i mem => ?_
        · intro here
          split
          · rfl
          · exact here
        · rw [show tick.changed = [] from rolled] at mem
          cases mem
  next => exact sound

/-- A later stage of the promotion. -/
theorem Going.promotes {host later : Host I C S} {lost : Bool} {promoted : C}
    (going : Going site host lost promoted tick) {next : Stage I}
    (begun : next.early = false ∧ next.unmoved = false ∧ next ≠ .leaving .deployed)
    (arrived : tick.stage.arrived = true) (running : tick.stage ≠ .leaving .deployed)
    (head : later.head = host.head)
    (chosen : ∀ deployed, later.deployed = some deployed →
      ∀ sha, tick.sha = some sha → sha = deployed ∨ site.older deployed sha = true)
    (rolled : Rolled site later tick next) :
    Going site later lost promoted { tick with stage := next } where
  entry := going.entry
  early is := absurd is (by simp [begun.1])
  unmoved is := absurd is (by simp [begun.2.1])
  stays none _ := head.trans (going.stays none running)
  back := by rw [head]; exact going.back
  arrived _ := by rw [head]; exact going.arrived arrived
  ends is := absurd is begun.2.2
  chosen _ := chosen
  backups := going.backups
  rolled := by cases next <;> exact rolled

theorem Sound.promote (sound : Sound site state) (held : state.tick = some tick) :
    Sound site (advance site state tick .promote) := by
  have going := sound.going tick held
  unfold advance
  dsimp only
  split
  next stage =>
    exact sound.goes rfl (going.promotes ⟨rfl, rfl, by simp⟩ (by rw [stage]; rfl) (by simp [stage])
      rfl (going.chosen (by rw [stage]; rfl)) trivial)
  next i rest stage =>
    exact sound.goes rfl (going.promotes ⟨rfl, rfl, by simp⟩ (by rw [stage]; rfl) (by simp [stage])
      rfl (going.chosen (by rw [stage]; rfl)) trivial)
  next => exact sound

/-- **A release is recorded** behind the one it descends from. -/
theorem Sound.write (sound : Sound site state) (held : state.tick = some tick) :
    Sound site (advance site state tick .write) := by
  have going := sound.going tick held
  unfold advance
  dsimp only
  split
  case h_1 stage | h_2 stage =>
    exact sound.goes rfl (going.promotes ⟨rfl, rfl, by simp⟩ (by rw [stage]; rfl) (by simp [stage])
      rfl (going.chosen (by rw [stage]; rfl)) trivial)
  case h_3 sha stage named =>
    have chosen := going.chosen (by rw [stage]; rfl)
    constructor
    case forward =>
      refine List.isChain_cons.mpr ⟨fun earlier first => ?_, sound.forward⟩
      exact chosen earlier (sound.newest.symm.trans (Option.mem_def.mp first)) sha named
    case newest => rfl
    case free => exact fun none => by cases none
    case going =>
      intro next holds
      obtain rfl := Option.some.inj holds
      refine going.promotes ⟨rfl, rfl, by simp⟩ (by rw [stage]; rfl) (by simp [stage]) rfl ?_ trivial
      intro deployed now other aims
      exact .inl (Option.some.inj (aims.symm.trans (named.trans now)))
  case h_4 stage =>
    refine sound.goes rfl ?_
    have arrived := going.arrived (by rw [stage]; rfl)
    constructor
    case entry => exact going.entry
    case early | unmoved | chosen => exact fun is => by cases is
    case stays => exact fun _ running => absurd rfl running
    case back => exact fun commit back => by cases back
    case arrived => exact fun _ => arrived
    case ends => exact fun _ => rfl
    case backups => exact going.backups
    case rolled => trivial
  case h_5 => exact sound

theorem Sound.decide (sound : Sound site state) (held : state.tick = some tick) (healthy : Bool) :
    Sound site (advance site state tick (.decide healthy)) := by
  have going := sound.going tick held
  have rolled := going.rolled
  unfold advance
  dsimp only
  split
  next named stage _ =>
    rw [stage] at rolled
    have unmoved := going.unmoved (by rw [stage]; rfl)
    have untouched : Untouched state.host tick.entry := going.early (by rw [stage]; rfl)
    -- A decision that leaves the files alone: the checkout has not been moved.
    have decides : ∀ (sha : C) (next : Stage I) (recreate : I → Bool) (later : Host I C S),
        later.head = state.host.head →
        (next.early = true → Untouched later tick.entry) → next.arrived = false →
        next ≠ .leaving .deployed → (next.chosen = true →
          ∀ deployed, later.deployed = some deployed → sha = deployed ∨ site.older deployed sha = true) →
        Rolled site later tick next → Going site later state.lost state.promoted
          { tick with sha := some sha, stage := next, recreate := recreate } := by
      intro sha next recreate later head early arrives running chosen rolled
      constructor
      case entry => exact going.entry
      case early => exact early
      case unmoved => exact fun _ => unmoved
      case stays => exact fun none _ => head.trans (going.stays none (by simp [stage]))
      case back =>
        intro commit back
        exact absurd (unmoved.symm.trans back) (by simp)
      case arrived => exact fun is => absurd is (by simp [arrives])
      case ends => exact fun is => absurd is running
      case chosen =>
        intro is deployed holds other aims
        obtain rfl := Option.some.inj aims
        exact chosen is deployed holds
      case backups => exact going.backups
      case rolled => cases next <;> exact rolled
    split
    next => exact sound
    next =>
      unfold judge
      dsimp only
      split
      next => exact sound.raises held
      next sha aim =>
        split
        next =>
          split
          next =>
            refine sound.goes rfl (decides sha (.leaving .baseline) tick.recreate _ rfl
              (fun is => by cases is) rfl (by simp) (fun is => by cases is) trivial)
          next =>
            refine sound.goes rfl ?_
            split
            next =>
              exact decides sha (.leaving .current) _ _ rfl (fun _ => untouched) rfl (by simp)
                (fun is => by cases is) trivial
            next =>
              exact decides sha .checking _ _ rfl (fun _ => untouched) rfl (by simp)
                (fun _ => target_forward aim) rolled
        next =>
          exact sound.goes rfl (decides sha .checking tick.recreate _ rfl (fun _ => untouched) rfl
            (by simp) (fun _ => target_forward aim) rolled)
  next => exact sound

/-! ### The run -/

theorem Sound.advance (sound : Sound site state) (held : state.tick = some tick)
    {action : Action I C S} (unkilled : Unkilled state action) :
    Sound site (advance site state tick action) := by
  have going := sound.going tick held
  have rolled := going.rolled
  -- A stage of the same class, with no command run.
  have turns : ∀ next : Tick I C S, next.entry = tick.entry → next.restoreTo = tick.restoreTo →
      next.sha = tick.sha → next.changed = tick.changed → next.backup = tick.backup →
      (next.stage.early = tick.stage.early ∧ next.stage.unmoved = tick.stage.unmoved ∧
        next.stage.arrived = tick.stage.arrived ∧ next.stage.chosen = tick.stage.chosen) →
      next.stage ≠ .leaving .deployed ∧ tick.stage ≠ .leaving .deployed →
      Rolled site state.host next next.stage → Sound site { state with tick := some next } :=
    fun next entry restoreTo sha changed backup ⟨early, unmoved, arrived, chosen⟩ running rolled =>
      sound.goes rfl (going.goes entry restoreTo sha changed backup (early ▸ id) (unmoved ▸ id)
        (arrived ▸ id) (chosen ▸ id) running rolled)
  cases action with
  | start | edit i manifest => exact sound
  | lookup sha =>
      unfold Deploy.advance
      dsimp only
      split
      next stage =>
        rw [stage] at rolled
        have unmoved := going.unmoved (by rw [stage]; rfl)
        refine sound.goes rfl ?_
        constructor
        case entry => exact going.entry
        case early => exact fun _ => going.early (by rw [stage]; rfl)
        case unmoved => exact fun _ => unmoved
        case stays => exact fun none _ => going.stays none (by simp [stage])
        case back => exact fun commit back => absurd (unmoved.symm.trans back) (by simp)
        case arrived | ends | chosen => exact fun is => by cases is
        case backups => exact going.backups
        case rolled => exact rolled
      next => exact sound
  | list ids | glob names =>
      unfold Deploy.advance
      dsimp only
      split
      next listing =>
        rw [listing.1] at rolled
        exact turns _ rfl rfl rfl rfl rfl (by rw [listing.1]; exact ⟨rfl, rfl, rfl, rfl⟩)
          ⟨by simp, by simp [listing.1]⟩ rolled
      next => exact sound
  | read =>
      unfold Deploy.advance
      dsimp only
      split
      next stage =>
        rw [stage] at rolled
        exact turns _ rfl rfl rfl rfl rfl (by rw [stage]; exact ⟨rfl, rfl, rfl, rfl⟩)
          ⟨by simp, by simp [stage]⟩ rolled
      next i rest stage =>
        rw [stage] at rolled
        split
        next => exact sound.raises held
        next =>
          exact turns _ rfl rfl rfl rfl rfl (by rw [stage]; exact ⟨rfl, rfl, rfl, rfl⟩)
            ⟨by simp, by simp [stage]⟩ rolled
      next => exact sound
  | hold | dryRun =>
      unfold Deploy.advance
      dsimp only
      split
      next stage =>
        exact sound.goes rfl (going.stops ⟨rfl, rfl, rfl⟩ (fun _ => by rw [stage]; rfl)
          ⟨by simp, by simp [stage]⟩ trivial)
      next => exact sound
  | check | pull runtime worker =>
      unfold Deploy.advance
      dsimp only
      split
      next stage =>
        rw [stage] at rolled
        exact turns _ rfl rfl rfl rfl rfl (by rw [stage]; exact ⟨rfl, rfl, rfl, rfl⟩)
          ⟨by simp, by simp [stage]⟩ rolled
      next => exact sound
  | stage =>
      unfold Deploy.advance
      dsimp only
      split
      next stage =>
        exact turns _ rfl rfl rfl rfl rfl (by rw [stage]; exact ⟨rfl, rfl, rfl, rfl⟩)
          ⟨by simp, by simp [stage]⟩ trivial
      next i rest stage =>
        rw [stage] at rolled
        split
        next => exact sound.raises held
        next =>
          exact turns _ rfl rfl rfl rfl rfl (by rw [stage]; exact ⟨rfl, rfl, rfl, rfl⟩)
            ⟨by simp, by simp [stage]⟩ rolled
      next => exact sound
  | decide healthy => exact sound.decide held healthy
  | move moved worked => exact sound.move held moved worked
  | up reached worked => exact sound.up held reached worked
  | undo reached worked => exact sound.undo held reached worked
  | promote => exact sound.promote held
  | write => exact sound.write held
  | leave restored => exact sound.leave held restored
  | raises => exact sound.raises held
  | kill => exact absurd (unkilled.symm.trans held) (by simp)

theorem Sound.step (sound : Sound site state) {action : Action I C S}
    (unkilled : Unkilled state action) : Sound site (step site state action) := by
  cases action with
  | edit i manifest => exact sound.edit i manifest
  | start =>
      unfold Deploy.step
      dsimp only
      split
      next => exact sound
      next idle =>
        have free : state.tick = none := Option.not_isSome_iff_eq_none.mp fun some => idle (.inl some)
        refine sound.goes rfl ?_
        constructor
        case entry => exact (sound.free free).2
        case early => exact fun _ => ⟨rfl, rfl, rfl, rfl, rfl⟩
        case unmoved => exact fun _ => rfl
        case stays => exact fun _ _ => rfl
        case back => exact fun commit back => by cases back
        case arrived | ends | chosen => exact fun is => by cases is
        case backups => exact fun i mem => by cases mem
        case rolled => rfl
  | lookup | list | glob | read | decide | hold | check | move | pull | dryRun | stage | up | undo
  | promote | write | leave | raises | kill =>
      unfold Deploy.step
      dsimp only
      cases held : state.tick with
      | none => exact sound
      | some tick => exact sound.advance held unkilled

theorem Sound.unwound (sound : Sound site state) : Unwound site state := by
  intro tick held stage
  have going := sound.going tick held
  have rolled := going.rolled
  rw [stage] at rolled
  refine ⟨going.early (by rw [stage]; rfl), rolled, ?_⟩
  unfold Deploy.step
  dsimp only
  rw [held]
  dsimp only
  unfold Deploy.advance
  rw [stage]
  exact going.headAfter (by simp [stage])

end Step

/-- **Releases move forward, a failed tick leaves nothing behind, and the next one can start**, in
every run in which no tick is killed while it holds the lock. -/
theorem ticks_unwind (site : Site I C S) (host : Host I C S) (unlocked : host.locked = false)
    {actions : List (Action I C S)}
    (unkilled : Runs.Meets (step site) Unkilled (State.idle host) actions) :
    Forward site (Runs.run (step site) (State.idle host) actions) ∧
      Unwound site (Runs.run (step site) (State.idle host) actions) ∧
      Free (Runs.run (step site) (State.idle host) actions) := by
  have first : Sound site (State.idle host) := by
    constructor
    case forward =>
      unfold Forward State.idle
      cases host.deployed <;> simp
    case newest =>
      unfold State.idle
      cases held : host.deployed <;> simp
    case free => exact fun _ => ⟨unlocked, fun _ => rfl⟩
    case going => exact fun tick held => by cases held
  have sound : Sound site (Runs.run (step site) (State.idle host) actions) :=
    Runs.Meets.keeps (fun _ _ sound unkilled => sound.step unkilled) first unkilled
  exact ⟨sound.forward, sound.unwound, sound.free⟩

/-! ### A kill -/

/-- A failed tick of the sample host: it is rolled back. -/
theorem ticks_unwind_failed : Free (Runs.run (step sampleSite) (State.idle sampleHost)
    (decides false ++ rolls false ++ [.undo (fun _ => true) true, .undo (fun _ => true) true,
      .leave true])) := by
  refine (ticks_unwind sampleSite sampleHost rfl ?_).2.2
  exact ⟨trivial, trivial, trivial, trivial, trivial, trivial, trivial, trivial, trivial, trivial,
    trivial, trivial, trivial, trivial, trivial, trivial, trivial⟩

/-- **A tick that was killed leaves its lock**, and no later tick starts. -/
theorem kill_locks : ¬ Free (Runs.run (step sampleSite) (State.idle sampleHost)
    [.start, .kill, .start]) := by
  intro free
  exact absurd (free rfl).1 (by decide)

end Nvoy.Deploy
