/-
**What a step of a tick does** to its list of identities, to its digests and to the record.

* `Turn`, `advance_turn` — the list, then the digests, one identity at a time;
* `Tick.Covered` — a tick that promotes has brought up every identity that it listed;
* `step_recorded` — the record is written from the digests of a tick that ends, and at no other step.
-/

import Nvoy.Deploy.Verdict
import Nvoy.Deploy.Quiet

set_option linter.unusedSectionVars false

namespace Nvoy.Deploy

/-! ### One step of a tick -/

section Turning

variable {I C S : Type} [DecidableEq I] [DecidableEq C] [DecidableEq S]

/-- Between listing the identities and having taken the digests. -/
def Stage.gathers : Stage I → Bool
  | .globbing | .reading _ => true
  | _ => false

/-- No digest is taken yet. -/
def Stage.undigested : Stage I → Bool
  | .looking | .listing | .globbing => true
  | _ => false

/-- The identities to bring up are all brought up, or still to come. -/
def Tick.Covered (tick : Tick I C S) : Prop :=
  match tick.stage with
  | .rolling rest => ∀ i ∈ tick.ids, i ∈ tick.changed ∨ i ∈ rest
  | .promoting _ | .writing _ => ∀ i ∈ tick.ids, i ∈ tick.changed
  | _ => True

inductive Turn (site : Site I C S) (host : Host I C S) (tick next : Tick I C S) : Prop
  | lists (here : tick.stage = .listing) (now : next.stage = .globbing) (all : Lists host next.ids)
      (digests : next.digests = tick.digests)
  | globs (here : tick.stage = .globbing) (now : next.stage = .reading next.names)
      (all : Lists host next.names) (ids : next.ids = tick.ids) (digests : next.digests = tick.digests)
  | reads (i : I) (rest : List I) (manifest : String) (here : tick.stage = .reading (i :: rest))
      (now : next.stage = .reading rest) (ids : next.ids = tick.ids)
      (digests : next.digests = Function.update tick.digests i (some (site.sha256 manifest)))
  | goes (ids : next.ids = tick.ids) (digests : next.digests = tick.digests)
      (stage : next.stage = tick.stage ∨ next.stage.gathers = false ∧
        (next.stage.undigested = true → tick.stage.undigested = true))

variable {site : Site I C S} {state : State I C S} {tick : Tick I C S}

theorem turn_same (host : Host I C S) (tick : Tick I C S) : Turn site host tick tick :=
  .goes rfl rfl (.inl rfl)

/-- A stage past the digests. -/
theorem turn_past {host : Host I C S} {next : Tick I C S} (ids : next.ids = tick.ids)
    (digests : next.digests = tick.digests)
    (past : next.stage.gathers = false ∧ next.stage.undigested = false) : Turn site host tick next :=
  .goes ids digests (.inr ⟨past.1, fun fresh => absurd fresh (by simp [past.2])⟩)

theorem turn_raised (host : Host I C S) (tick : Tick I C S) : Turn site host tick (raised tick) := by
  unfold raised
  cases stage : tick.stage
  case leaving outcome => exact .goes rfl rfl (.inl stage.symm)
  case undoing rest => exact .goes rfl rfl (.inl stage.symm)
  all_goals exact turn_past rfl rfl ⟨rfl, rfl⟩

/-- **One step of a tick** ends it, or is a turn of it. -/
theorem advance_turn (site : Site I C S) (held : state.tick = some tick) (action : Action I C S) :
    (advance site state tick action).tick = none ∨
      ∃ next, (advance site state tick action).tick = some next ∧ Turn site state.host tick next := by
  have stays : ∃ next, state.tick = some next ∧ Turn site state.host tick next :=
    ⟨tick, held, turn_same _ _⟩
  have raises : ∃ next, some (raised tick) = some next ∧ Turn site state.host tick next :=
    ⟨_, rfl, turn_raised _ _⟩
  cases action with
  | start | edit i manifest => exact .inr stays
  | raises => exact .inr raises
  | kill => exact .inl rfl
  | lookup sha =>
      unfold advance
      dsimp only
      split
      case isTrue here => exact .inr ⟨_, rfl, .goes rfl rfl (.inr ⟨rfl, fun _ => by rw [here]; rfl⟩)⟩
      case isFalse => exact .inr stays
  | list ids =>
      unfold advance
      dsimp only
      split
      case isTrue here => exact .inr ⟨_, rfl, .lists here.1 rfl here.2.2 rfl⟩
      case isFalse => exact .inr stays
  | glob names =>
      unfold advance
      dsimp only
      split
      case isTrue here => exact .inr ⟨_, rfl, .globs here.1 rfl here.2 rfl rfl⟩
      case isFalse => exact .inr stays
  | read =>
      unfold advance
      dsimp only
      split
      case h_1 => exact .inr ⟨_, rfl, turn_past rfl rfl ⟨rfl, rfl⟩⟩
      case h_2 i rest here =>
        split
        case h_1 => exact .inr raises
        case h_2 manifest there => exact .inr ⟨_, rfl, .reads i rest manifest here rfl rfl rfl⟩
      case h_3 => exact .inr stays
  | decide healthy =>
      unfold advance
      dsimp only
      split
      case h_1 named here sha =>
        split
        case isTrue => exact .inr stays
        case isFalse =>
          unfold judge
          dsimp only
          split
          case h_1 => exact .inr raises
          case h_2 =>
            split
            case isTrue =>
              split
              case isTrue => exact .inr ⟨_, rfl, turn_past rfl rfl ⟨rfl, rfl⟩⟩
              case isFalse =>
                split
                · exact .inr ⟨_, rfl, turn_past rfl rfl ⟨rfl, rfl⟩⟩
                · exact .inr ⟨_, rfl, turn_past rfl rfl ⟨rfl, rfl⟩⟩
            case isFalse => exact .inr ⟨_, rfl, turn_past rfl rfl ⟨rfl, rfl⟩⟩
      case h_2 => exact .inr stays
  | hold | check | dryRun =>
      unfold advance
      dsimp only
      split
      case isTrue => exact .inr ⟨_, rfl, turn_past rfl rfl ⟨rfl, rfl⟩⟩
      case isFalse => exact .inr stays
  | pull runtime worker =>
      unfold advance
      dsimp only
      split
      case isTrue => exact .inr ⟨_, rfl, turn_past rfl rfl ⟨rfl, rfl⟩⟩
      case isFalse => exact .inr stays
  | move moved worked =>
      unfold advance
      dsimp only
      split
      case h_1 here _ =>
        cases worked with
        | true => exact .inr ⟨_, rfl, turn_past rfl rfl ⟨rfl, rfl⟩⟩
        | false =>
            refine .inr ⟨_, rfl, turn_past ?_ ?_ ?_⟩
            all_goals simp [raised, here, Stage.gathers, Stage.undigested]
      case h_2 => exact .inr stays
  | stage =>
      unfold advance
      dsimp only
      split
      case h_1 => exact .inr ⟨_, rfl, turn_past rfl rfl ⟨rfl, rfl⟩⟩
      case h_2 =>
        split
        case h_1 => exact .inr raises
        case h_2 => exact .inr ⟨_, rfl, turn_past rfl rfl ⟨rfl, rfl⟩⟩
      case h_3 => exact .inr stays
  | up reached worked =>
      unfold advance
      dsimp only
      split
      case h_1 => exact .inr ⟨_, rfl, turn_past rfl rfl ⟨rfl, rfl⟩⟩
      case h_2 i rest here =>
        cases worked with
        | true => exact .inr ⟨_, rfl, turn_past rfl rfl ⟨rfl, rfl⟩⟩
        | false =>
            refine .inr ⟨_, rfl, turn_past ?_ ?_ ?_⟩
            all_goals simp [raised, here, Stage.gathers, Stage.undigested]
      case h_3 => exact .inr stays
  | undo reached worked =>
      unfold advance
      dsimp only
      split
      case h_1 => exact .inr ⟨_, rfl, turn_past rfl rfl ⟨rfl, rfl⟩⟩
      case h_2 => exact .inr ⟨_, rfl, turn_past rfl rfl ⟨rfl, rfl⟩⟩
      case h_3 => exact .inr stays
  | promote =>
      unfold advance
      dsimp only
      split
      case h_1 => exact .inr ⟨_, rfl, turn_past rfl rfl ⟨rfl, rfl⟩⟩
      case h_2 => exact .inr ⟨_, rfl, turn_past rfl rfl ⟨rfl, rfl⟩⟩
      case h_3 => exact .inr stays
  | write =>
      unfold advance
      dsimp only
      split
      case h_5 => exact .inr stays
      all_goals exact .inr ⟨_, rfl, turn_past rfl rfl ⟨rfl, rfl⟩⟩
  | leave restored =>
      unfold advance
      dsimp only
      split
      case h_1 => exact .inl rfl
      case h_2 => exact .inr stays

theorem advance_manifests (state : State I C S) (tick : Tick I C S) (action : Action I C S) :
    (advance site state tick action).host.manifests = state.host.manifests := by
  cases action with
  | start | edit i manifest | raises | kill => rfl
  | lookup | list | glob | hold | check | pull | dryRun =>
      unfold advance
      dsimp only
      split <;> rfl
  | read | stage =>
      unfold advance
      dsimp only
      split
      · rfl
      · split <;> rfl
      · rfl
  | decide healthy =>
      unfold advance
      dsimp only
      split
      · split
        · rfl
        · unfold judge
          dsimp only
          split
          · rfl
          · split
            · split <;> rfl
            · rfl
      · rfl
  | undo reached worked =>
      unfold advance
      dsimp only
      split
      · rfl
      · dsimp only
        split <;> rfl
      · rfl
  | move | up | promote | write | leave =>
      unfold advance
      dsimp only
      split <;> rfl

theorem covered_raised (tick : Tick I C S) : (raised tick).Covered := by
  unfold raised Tick.Covered
  cases tick.stage <;> trivial

/-- What is to be brought up stays covered. -/
theorem covered_advance (held : state.tick = some tick) (covered : tick.Covered) (action : Action I C S)
    {next : Tick I C S} (now : (advance site state tick action).tick = some next) : next.Covered := by
  have stays : state.tick = some next → next.Covered := fun same => by
    obtain rfl := Option.some.inj (held.symm.trans same)
    exact covered
  have raises : some (raised tick) = some next → next.Covered := fun same =>
    Option.some.inj same ▸ covered_raised tick
  cases action with
  | start | edit i manifest => exact stays now
  | raises => exact raises now
  | kill => cases now
  | lookup | list | glob | hold | check | dryRun | pull =>
      unfold advance at now
      dsimp only at now
      split at now
      · obtain rfl := Option.some.inj now
        trivial
      · exact stays now
  | read =>
      unfold advance at now
      dsimp only at now
      split at now
      case h_1 =>
        obtain rfl := Option.some.inj now
        trivial
      case h_2 =>
        split at now
        case h_1 => exact raises now
        case h_2 =>
          obtain rfl := Option.some.inj now
          trivial
      case h_3 => exact stays now
  | stage =>
      unfold advance at now
      dsimp only at now
      split at now
      case h_1 =>
        obtain rfl := Option.some.inj now
        exact fun i listed => .inr listed
      case h_2 =>
        split at now
        case h_1 => exact raises now
        case h_2 =>
          obtain rfl := Option.some.inj now
          trivial
      case h_3 => exact stays now
  | decide healthy =>
      unfold advance at now
      dsimp only at now
      split at now
      case h_1 =>
        split at now
        case isTrue => exact stays now
        case isFalse =>
          unfold judge at now
          dsimp only at now
          split at now
          case h_1 => exact raises now
          case h_2 =>
            split at now
            case isTrue =>
              split at now
              · obtain rfl := Option.some.inj now
                trivial
              · split at now
                · obtain rfl := Option.some.inj now
                  trivial
                · obtain rfl := Option.some.inj now
                  trivial
            case isFalse =>
              obtain rfl := Option.some.inj now
              trivial
      case h_2 => exact stays now
  | move moved worked =>
      unfold advance at now
      dsimp only at now
      split at now
      case h_1 =>
        cases worked with
        | true =>
            obtain rfl := Option.some.inj now
            trivial
        | false =>
            obtain rfl := Option.some.inj now
            exact covered_raised _
      case h_2 => exact stays now
  | up reached worked =>
      unfold advance at now
      dsimp only at now
      split at now
      case h_1 here =>
        obtain rfl := Option.some.inj now
        unfold Tick.Covered at covered
        rw [here] at covered
        exact fun i listed => (covered i listed).elim id fun none => absurd none List.not_mem_nil
      case h_2 i rest here =>
        unfold Tick.Covered at covered
        rw [here] at covered
        cases worked with
        | true =>
            obtain rfl := Option.some.inj now
            intro j listed
            rcases covered j listed with done | left
            · exact .inl (List.mem_append_left _ done)
            · rcases List.mem_cons.mp left with rfl | left
              · exact .inl (List.mem_append_right _ (List.mem_singleton.mpr rfl))
              · exact .inr left
        | false =>
            obtain rfl := Option.some.inj now
            exact covered_raised _
      case h_3 => exact stays now
  | undo reached worked =>
      unfold advance at now
      dsimp only at now
      split at now
      case h_1 =>
        obtain rfl := Option.some.inj now
        trivial
      case h_2 =>
        obtain rfl := Option.some.inj now
        trivial
      case h_3 => exact stays now
  | promote =>
      unfold advance at now
      dsimp only at now
      split at now
      case h_1 here =>
        obtain rfl := Option.some.inj now
        unfold Tick.Covered at covered
        rw [here] at covered
        exact covered
      case h_2 here =>
        obtain rfl := Option.some.inj now
        unfold Tick.Covered at covered
        rw [here] at covered
        exact covered
      case h_3 => exact stays now
  | write =>
      unfold advance at now
      dsimp only at now
      split at now
      case h_1 here | h_2 here =>
        obtain rfl := Option.some.inj now
        unfold Tick.Covered at covered
        rw [here] at covered
        exact covered
      case h_3 here _ =>
        obtain rfl := Option.some.inj now
        unfold Tick.Covered at covered
        rw [here] at covered
        exact covered
      case h_4 =>
        obtain rfl := Option.some.inj now
        trivial
      case h_5 => exact stays now
  | leave restored =>
      unfold advance at now
      dsimp only at now
      split at now
      case h_1 => cases now
      case h_2 => exact stays now

/-- A step of the runner is an edit, or nothing, or the start of a tick, or a step of the one there. -/
theorem step_cases (site : Site I C S) (state : State I C S) (action : Action I C S) :
    (∃ i manifest, action = .edit i manifest ∧
      step site state action = { state with host := edited state.host i manifest }) ∨
    step site state action = state ∨
    step site state action = { state with
      host := { state.host with locked := true }
      tick := some (Tick.fresh state.host) } ∨
    ∃ tick, state.tick = some tick ∧ step site state action = advance site state tick action := by
  cases action with
  | edit i manifest => exact .inl ⟨i, manifest, rfl, rfl⟩
  | start =>
      unfold step
      dsimp only
      split
      case isTrue => exact .inr (.inl rfl)
      case isFalse => exact .inr (.inr (.inl rfl))
  | lookup | list | glob | read | decide | hold | check | move | pull | dryRun | stage | up | undo
  | promote | write | leave | raises | kill =>
      cases held : state.tick with
      | none => exact .inr (.inl (by simp only [step, held]))
      | some tick => exact .inr (.inr (.inr ⟨tick, rfl, by simp only [step, held]⟩))

/-- What a step of the runner does to its tick. -/
theorem step_turn (site : Site I C S) (state : State I C S) (action : Action I C S) :
    (step site state action).tick = none ∨
      (step site state action).tick = some (Tick.fresh state.host) ∨
      ∃ tick next, state.tick = some tick ∧ (step site state action).tick = some next ∧
        Turn site state.host tick next := by
  have stays : state.tick = none ∨ state.tick = some (Tick.fresh state.host) ∨
      ∃ tick next, state.tick = some tick ∧ state.tick = some next ∧ Turn site state.host tick next := by
    cases state.tick with
    | none => exact .inl rfl
    | some tick => exact .inr (.inr ⟨tick, tick, rfl, rfl, turn_same _ _⟩)
  obtain ⟨i, manifest, -, same⟩ | same | same | ⟨tick, held, same⟩ := step_cases site state action
  · rw [same]
    exact stays
  · rw [same]
    exact stays
  · rw [same]
    exact .inr (.inl rfl)
  · rw [same]
    obtain none | ⟨next, now, turn⟩ := advance_turn site held action
    · exact .inl none
    · exact .inr (.inr ⟨tick, next, held, now, turn⟩)

theorem covered_step {action : Action I C S} (covered : ∀ tick, state.tick = some tick → tick.Covered)
    {next : Tick I C S} (now : (step site state action).tick = some next) : next.Covered := by
  obtain ⟨i, manifest, -, same⟩ | same | same | ⟨tick, held, same⟩ := step_cases site state action
  · rw [same] at now
    exact covered next now
  · rw [same] at now
    exact covered next now
  · rw [same] at now
    obtain rfl := Option.some.inj now
    trivial
  · rw [same] at now
    exact covered_advance held (covered tick held) action now

end Turning

section Recording

variable {C S : Type} [DecidableEq C] [DecidableEq S] {site : Site Id C S} {state : State Id C S}

/-- The record is written where a tick ends well, and from its digests. -/
theorem advance_recorded (site : Site Id C S) (state : State Id C S) (tick : Tick Id C S)
    (action : Action Id C S) :
    (advance site state tick action).host.recorded = state.host.recorded ∨
      (advance site state tick action).host.recorded = some tick.digests ∧
        ∃ next e, (advance site state tick action).tick = some next ∧ endedBy tick next = some e := by
  cases action with
  | start | edit i manifest | raises | kill => exact .inl rfl
  | lookup | list | glob | hold | check | pull | dryRun =>
      unfold advance
      dsimp only
      split <;> exact .inl rfl
  | read | stage =>
      unfold advance
      dsimp only
      split
      · exact .inl rfl
      · split <;> exact .inl rfl
      · exact .inl rfl
  | decide healthy =>
      unfold advance
      dsimp only
      split
      case h_1 here _ =>
        split
        case isTrue => exact .inl rfl
        case isFalse =>
          unfold judge
          dsimp only
          split
          case h_1 => exact .inl rfl
          case h_2 =>
            split
            case isTrue =>
              split
              case isTrue => exact .inr ⟨rfl, _, _, rfl, by unfold endedBy; rw [here]⟩
              case isFalse => exact .inl rfl
            case isFalse => exact .inl rfl
      case h_2 => exact .inl rfl
  | undo reached worked =>
      unfold advance
      dsimp only
      split
      · exact .inl rfl
      · dsimp only
        split <;> exact .inl rfl
      · exact .inl rfl
  | move | up | promote | leave =>
      unfold advance
      dsimp only
      split <;> exact .inl rfl
  | write =>
      unfold advance
      dsimp only
      split
      case h_4 here => exact .inr ⟨rfl, _, _, rfl, by unfold endedBy; rw [here]⟩
      all_goals exact .inl rfl

theorem step_recorded (site : Site Id C S) (state : State Id C S) (action : Action Id C S) :
    (step site state action).host.recorded = state.host.recorded ∨
      ∃ tick next e, state.tick = some tick ∧ (step site state action).tick = some next ∧
        endedBy tick next = some e ∧ (step site state action).host.recorded = some tick.digests := by
  obtain ⟨i, manifest, -, same⟩ | same | same | ⟨tick, held, same⟩ := step_cases site state action
  · exact .inl (by rw [same]; rfl)
  · exact .inl (by rw [same])
  · exact .inl (by rw [same])
  · rw [same]
    obtain kept | ⟨written, next, e, now, ends⟩ := advance_recorded site state tick action
    · exact .inl kept
    · exact .inr ⟨tick, next, e, held, now, ends, written⟩

theorem step_manifests (site : Site Id C S) (state : State Id C S) {action : Action Id C S}
    (noEdit : ∀ i manifest, action ≠ .edit i manifest) :
    (step site state action).host.manifests = state.host.manifests := by
  obtain ⟨i, manifest, edit, -⟩ | same | same | ⟨tick, held, same⟩ := step_cases site state action
  · exact absurd edit (noEdit i manifest)
  · rw [same]
  · rw [same]
  · rw [same, advance_manifests]

/-- Whom a good end is about: the identities listed, all of them brought up. -/
theorem ids_of_endedBy {tick next : Tick Id C S} {e : Ended} (covered : tick.Covered)
    (ends : endedBy tick next = some e) :
    e.ending ∈ Verdict.deployed.endings ∧ ∀ i ∈ tick.ids, i ∈ e.ids := by
  unfold endedBy at ends
  split at ends
  case h_1 here _ =>
    obtain rfl := Option.some.inj ends
    unfold Tick.Covered at covered
    rw [here] at covered
    exact ⟨List.mem_cons_self, covered⟩
  case h_4 => cases ends
  all_goals
    obtain rfl := Option.some.inj ends
    exact ⟨List.mem_cons_of_mem _ List.mem_cons_self, fun i listed => listed⟩

end Recording

end Nvoy.Deploy
