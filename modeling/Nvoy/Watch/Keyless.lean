/-
**The keyless watcher and outages.**

The watcher asks each relay for the recipient's gift wraps of the last two days, counted from the
moment it connects, and leaves a pending marker for each one it has not seen. Nothing says how long
the relay could not be reached.

* `onEvent` — one envelope: its marker, and only then the seen set;
* `step` — relays accepting wraps, connections, deliveries, EOSE, drops, restarts, in any order;
* `wraps_marked` — while no connection finds an unmarked wrap older than it asks for, and no
  delivery takes a cut-off marker file for a whole one, what a working connection owed is marked;
* `wraps_marked_outage` — two minutes too long without the relay, and a wrap is never asked for.
-/

import Nvoy.Watch.Files
import Nvoy.Lib.Runs
import Mathlib.Logic.Function.Basic

namespace Nvoy.Watch.Keyless

/-- What the watcher reads of a kind 1059 event. -/
structure Wrap where
  id : String
  createdAt : Int
  deriving DecidableEq

/-! ### The machine -/

/-- The `REQ` of one connection: what the relay held when it was sent, what came since, and whether
the writes of this connection all worked. -/
structure Subscription where
  since : Int
  asked : List Wrap
  delivered : List String
  working : Bool

/-- The relays and the watcher. `due` are the wraps a relay held when a connection to it began that
went on until EOSE with its writes working. -/
structure State (R : Type) where
  clock : Nat
  stored : R → List Wrap
  subs : R → Option Subscription
  seen : Seen
  spool : Spool
  due : R → List Wrap

inductive Action (R : Type) where
  | tick (ms : Nat)
  | accept (relay : R) (wrap : Wrap)
  | connect (relay : R)
  | deliver (relay : R) (wrap : Wrap) (marker : MarkerWrite) (log : LogWrites)
  | eose (relay : R)
  | drop (relay : R)
  | restart (torn : List String)
  | consume (id : String)

variable {R : Type} [DecidableEq R]

/-- `Math.floor(Date.now() / 1000)`. -/
def State.now (state : State R) : Int := state.clock / 1000

/-- How far back a connection asks. -/
def lookback : Int := 172920

/-- How far a gift wrap may be backdated. -/
def backdating : Int := 172800

def seenCap : Nat := 100000

def seenRetain : Nat := 90000

/-- One `EVENT` message: an id that is not seen is recorded, and seen if that worked. With a marker
directory the queue line decides nothing. -/
def onEvent (state : State R) (id : String) (marker : MarkerWrite) (log : LogWrites) : State R :=
  if state.seen.has id then state
  else
    let result := state.spool.leave id marker
    { state with
      spool := result.1
      seen := if result.2 then state.seen.mark seenCap seenRetain log id else state.seen }

def step (baseline : List String) (state : State R) : Action R → State R
  | .tick ms => { state with clock := state.clock + ms }
  | .accept relay wrap =>
    if wrap.createdAt ≤ state.now ∧ state.now ≤ wrap.createdAt + backdating ∧
        wrap.id ∉ baseline then
      { state with stored := Function.update state.stored relay (wrap :: state.stored relay) }
    else state
  | .connect relay =>
    let sub : Subscription := ⟨state.now - lookback, state.stored relay, [], true⟩
    { state with subs := Function.update state.subs relay (some sub) }
  | .deliver relay wrap marker log =>
    match state.subs relay with
    | none => state
    | some sub =>
      if wrap ∈ state.stored relay ∧ sub.since ≤ wrap.createdAt then
        let after : Subscription := { sub with
          delivered := wrap.id :: sub.delivered
          working := sub.working && (state.seen.has wrap.id || marker = .kept) }
        { onEvent state wrap.id marker log with
          subs := Function.update state.subs relay (some after) }
      else state
  | .eose relay =>
    match state.subs relay with
    | none => state
    | some sub =>
      -- The relay has answered with every stored event that matches.
      if sub.working = true ∧
          ∀ wrap ∈ sub.asked, sub.since ≤ wrap.createdAt → wrap.id ∈ sub.delivered then
        { state with due := Function.update state.due relay (sub.asked ++ state.due relay) }
      else state
  | .drop relay => { state with subs := Function.update state.subs relay none }
  | .restart torn =>
    { state with subs := fun _ => none, seen := state.seen.reload (fun id => decide (id ∉ torn)) }
  | .consume id =>
    { state with spool := { state.spool with files := state.spool.files.filter (·.envelope ≠ id) } }

/-- The watcher once its baseline is done: the ids it archived are seen. -/
def start (baseline : List String) (clock : Nat) : State R where
  clock := clock
  stored := fun _ => []
  subs := fun _ => none
  seen := ⟨baseline, baseline⟩
  spool := ⟨[], []⟩
  due := fun _ => []

/-- A connection asks far enough back for every wrap without a marker, and a delivery finds no
cut-off marker. -/
def Reaches (state : State R) : Action R → Prop
  | .connect relay =>
    ∀ wrap ∈ state.stored relay, wrap.id ∉ state.spool.written →
      state.now - lookback ≤ wrap.createdAt
  | .deliver _ wrap _ _ => state.spool.Clean wrap.id
  | _ => True

/-- Every wrap a working connection owed has had its pending marker. -/
def Marked (state : State R) : Prop :=
  ∀ relay, ∀ wrap ∈ state.due relay, wrap.id ∈ state.spool.written

/-! ### One event -/

section OnEvent

set_option linter.unusedSectionVars false

variable {baseline : List String} {state : State R} {id : String} {marker : MarkerWrite}
  {log : LogWrites}

/-- The id has a marker, or the baseline archived it. -/
def State.Through (baseline : List String) (state : State R) (id : String) : Prop :=
  id ∈ state.spool.written ∨ id ∈ baseline

theorem written_onEvent {other : String} (known : other ∈ state.spool.written) :
    other ∈ (onEvent state id marker log).spool.written := by
  unfold onEvent
  split
  · exact known
  · exact Spool.written_leave known

theorem through_onEvent {other : String} (known : state.Through baseline other) :
    (onEvent state id marker log).Through baseline other :=
  known.imp_left written_onEvent

theorem sound_onEvent (sound : state.spool.Sound) : (onEvent state id marker log).spool.Sound := by
  unfold onEvent
  split
  · exact sound
  · exact sound.leave

theorem seen_onEvent (sound : state.spool.Sound) (clean : state.spool.Clean id)
    (seen : state.seen.All (state.Through baseline)) :
    (onEvent state id marker log).seen.All ((onEvent state id marker log).Through baseline) := by
  by_cases known : state.seen.has id = true
  · rw [onEvent, if_pos known]
    exact seen
  · have grown : state.seen.All ((onEvent state id marker log).Through baseline) :=
      seen.imp fun _ through => through_onEvent through
    have own : (state.spool.leave id marker).2 = true →
        (onEvent state id marker log).Through baseline id := by
      intro counts
      rw [onEvent, if_neg known]
      exact .inl (Spool.written_of_leave sound clean counts)
    have after : (onEvent state id marker log).seen =
        if (state.spool.leave id marker).2 then state.seen.mark seenCap seenRetain log id
        else state.seen := by
      rw [onEvent, if_neg known]
    rw [after]
    exact grown.markIf own

/-- An event that was seen, or whose marker is kept, is through. -/
theorem through_of_onEvent (sound : state.spool.Sound) (clean : state.spool.Clean id)
    (seen : state.seen.All (state.Through baseline))
    (worked : (state.seen.has id || decide (marker = .kept)) = true) :
    (onEvent state id marker log).Through baseline id := by
  by_cases known : state.seen.has id = true
  · exact through_onEvent (seen.1 id (List.contains_iff_mem.mp known))
  · rw [Bool.not_eq_true] at known
    rw [known, Bool.false_or, decide_eq_true_iff] at worked
    subst worked
    rw [onEvent, known, if_neg Bool.false_ne_true]
    exact .inl (Spool.written_of_leave sound clean Spool.leave_kept)

end OnEvent

/-! ### The invariant -/

/-- What holds in every state of a run whose steps reach far enough. -/
structure Inv (baseline : List String) (state : State R) : Prop where
  sound : state.spool.Sound
  seen : state.seen.All (state.Through baseline)
  fresh : ∀ relay, ∀ wrap ∈ state.stored relay, wrap.id ∉ baseline
  asked : ∀ relay sub, state.subs relay = some sub → ∀ wrap ∈ sub.asked,
    wrap.id ∉ baseline ∧ (wrap.id ∈ state.spool.written ∨ sub.since ≤ wrap.createdAt)
  delivered : ∀ relay sub, state.subs relay = some sub → sub.working = true →
    ∀ id ∈ sub.delivered, state.Through baseline id
  marked : Marked state

section Step

set_option linter.unusedSectionVars false

variable {baseline : List String} {state : State R} {relay : R}

theorem Inv.start (baseline : List String) (clock : Nat) :
    Inv (R := R) baseline (start baseline clock) where
  sound := by simp [Spool.Sound, Keyless.start]
  seen := ⟨fun _ mem => .inr mem, fun _ mem => .inr mem⟩
  fresh := by simp [Keyless.start]
  asked := by simp [Keyless.start]
  delivered := by simp [Keyless.start]
  marked := by simp [Marked, Keyless.start]

/-- A subscription that takes the place of a relay's old one. -/
theorem Inv.replace (inv : Inv baseline state) (sub : Subscription)
    (asked : ∀ wrap ∈ sub.asked,
      wrap.id ∉ baseline ∧ (wrap.id ∈ state.spool.written ∨ sub.since ≤ wrap.createdAt))
    (delivered : sub.working = true → ∀ id ∈ sub.delivered, state.Through baseline id) :
    Inv baseline { state with subs := Function.update state.subs relay (some sub) } where
  sound := inv.sound
  seen := inv.seen
  fresh := inv.fresh
  asked other held holds := by
    by_cases same : other = relay
    · subst same
      obtain rfl : sub = held := by simpa using holds
      exact asked
    · exact inv.asked other held (by simpa [same] using holds)
  delivered other held holds := by
    by_cases same : other = relay
    · subst same
      obtain rfl : sub = held := by simpa using holds
      exact delivered
    · exact inv.delivered other held (by simpa [same] using holds)
  marked := inv.marked

theorem Inv.accept (inv : Inv baseline state) {wrap : Wrap} (fresh : wrap.id ∉ baseline) :
    Inv baseline
      { state with stored := Function.update state.stored relay (wrap :: state.stored relay) } where
  sound := inv.sound
  seen := inv.seen
  fresh other held mem := by
    by_cases same : other = relay
    · subst same
      rcases List.mem_cons.mp (by simpa using mem) with new | old
      · exact new ▸ fresh
      · exact inv.fresh other held old
    · exact inv.fresh other held (by simpa [same] using mem)
  asked := inv.asked
  delivered := inv.delivered
  marked := inv.marked

theorem Inv.onEvent (inv : Inv baseline state) {id : String} (clean : state.spool.Clean id)
    (marker : MarkerWrite) (log : LogWrites) : Inv baseline (onEvent state id marker log) := by
  have rest : (Keyless.onEvent state id marker log).stored = state.stored ∧
      (Keyless.onEvent state id marker log).subs = state.subs ∧
      (Keyless.onEvent state id marker log).due = state.due := by
    unfold Keyless.onEvent
    split <;> exact ⟨rfl, rfl, rfl⟩
  obtain ⟨stored, subs, due⟩ := rest
  constructor
  case sound => exact sound_onEvent inv.sound
  case seen => exact seen_onEvent inv.sound clean inv.seen
  case fresh => rw [stored]; exact inv.fresh
  case asked =>
    rw [subs]
    intro relay sub holds wrap mem
    have before := inv.asked relay sub holds wrap mem
    exact ⟨before.1, before.2.imp_left written_onEvent⟩
  case delivered =>
    rw [subs]
    intro relay sub holds works other mem
    exact through_onEvent (inv.delivered relay sub holds works other mem)
  case marked =>
    intro relay wrap mem
    rw [due] at mem
    exact written_onEvent (inv.marked relay wrap mem)

theorem Inv.deliver (inv : Inv baseline state) {sub : Subscription}
    (holds : state.subs relay = some sub) {wrap : Wrap}
    (clean : state.spool.Clean wrap.id) (marker : MarkerWrite) (log : LogWrites) :
    Inv baseline { Keyless.onEvent state wrap.id marker log with
      subs := Function.update state.subs relay (some { sub with
        delivered := wrap.id :: sub.delivered
        working := sub.working && (state.seen.has wrap.id || marker = .kept) }) } := by
  have subs : (Keyless.onEvent state wrap.id marker log).subs = state.subs := by
    unfold Keyless.onEvent
    split <;> rfl
  rw [← subs]
  have after := inv.onEvent clean marker log
  refine after.replace _ (after.asked relay sub (subs ▸ holds)) fun works id mem => ?_
  obtain ⟨before, worked⟩ := Bool.and_eq_true_iff.mp works
  rcases List.mem_cons.mp mem with rfl | old
  · exact through_of_onEvent inv.sound clean inv.seen worked
  · exact after.delivered relay sub (subs ▸ holds) before id old

/-- A working connection that reached EOSE has marked what it asked for. -/
theorem Inv.eose (inv : Inv baseline state) {sub : Subscription}
    (holds : state.subs relay = some sub) (works : sub.working = true)
    (answered : ∀ wrap ∈ sub.asked, sub.since ≤ wrap.createdAt → wrap.id ∈ sub.delivered) :
    Inv baseline
      { state with due := Function.update state.due relay (sub.asked ++ state.due relay) } where
  sound := inv.sound
  seen := inv.seen
  fresh := inv.fresh
  asked := inv.asked
  delivered := inv.delivered
  marked other wrap mem := by
    by_cases same : other = relay
    · subst same
      rcases List.mem_append.mp (by simpa using mem) with asked | old
      · obtain ⟨fresh, written | reached⟩ := inv.asked other sub holds wrap asked
        · exact written
        · have through := inv.delivered other sub holds works _ (answered wrap asked reached)
          exact through.resolve_right fresh
      · exact inv.marked other wrap old
    · exact inv.marked other wrap (by simpa [same] using mem)

theorem Inv.step (inv : Inv baseline state) {action : Action R} (reaches : Reaches state action) :
    Inv baseline (step baseline state action) := by
  cases action with
  | tick ms => exact ⟨inv.sound, inv.seen, inv.fresh, inv.asked, inv.delivered, inv.marked⟩
  | accept relay wrap =>
      unfold Keyless.step
      dsimp only
      split
      next taken => exact inv.accept taken.2.2
      next => exact inv
  | connect relay =>
      refine inv.replace _ (fun wrap mem => ⟨inv.fresh relay wrap mem, ?_⟩) (by simp)
      by_cases written : wrap.id ∈ state.spool.written
      · exact .inl written
      · exact .inr (reaches wrap mem written)
  | deliver relay wrap marker log =>
      unfold Keyless.step
      dsimp only
      split
      next => exact inv
      next sub holds =>
        split
        · exact inv.deliver holds reaches marker log
        · exact inv
  | eose relay =>
      unfold Keyless.step
      dsimp only
      split
      next => exact inv
      next sub holds =>
        split
        next answered => exact inv.eose holds answered.1 answered.2
        next => exact inv
  | drop relay =>
      refine ⟨inv.sound, inv.seen, inv.fresh, fun other sub holds => inv.asked other sub ?_,
        fun other sub holds => inv.delivered other sub ?_, inv.marked⟩
      all_goals
        by_cases same : other = relay
        · simp [Keyless.step, same] at holds
        · simpa [Keyless.step, same] using holds
  | restart torn =>
      exact ⟨inv.sound, inv.seen.reload _, inv.fresh, by simp [Keyless.step],
        by simp [Keyless.step], inv.marked⟩
  | consume id =>
      refine ⟨fun file mem => inv.sound file (List.mem_of_mem_filter mem), inv.seen, inv.fresh,
        inv.asked, inv.delivered, inv.marked⟩

end Step

/-- **No wrap is lost while every connection reaches back far enough.** -/
theorem wraps_marked (baseline : List String) (clock : Nat) {actions : List (Action R)}
    (reaches : Runs.Meets (step baseline) Reaches (start baseline clock) actions) :
    Marked (Runs.run (step baseline) (start baseline clock) actions) := by
  have inv : Inv baseline (Runs.run (step baseline) (start baseline clock) actions) :=
    Runs.Meets.keeps (fun _ _ inv reaches => inv.step reaches) (Inv.start baseline clock) reaches
  exact inv.marked

/-! ### An outage -/

instance (state : State Unit) : Decidable (Marked state) :=
  decidable_of_iff (∀ wrap ∈ state.due (), wrap.id ∈ state.spool.written)
    ⟨fun all _ => all, fun all => all ()⟩

/-- A wrap backdated by two days, and a connection to its relay `delay` seconds later. -/
def outage (delay : Nat) (marker : MarkerWrite) : List (Action Unit) :=
  let wrap : Wrap := ⟨"b3", 27200⟩
  let log : LogWrites := ⟨true, true⟩
  [.accept () wrap, .tick (delay * 1000), .connect (), .deliver () wrap marker log, .eose (),
    .drop (), .connect (), .deliver () wrap .kept log, .eose ()]

instance (state : State Unit) : ∀ action, Decidable (Reaches state action)
  | .connect relay => inferInstanceAs (Decidable (∀ wrap ∈ state.stored relay, _))
  | .deliver _ wrap _ _ => inferInstanceAs (Decidable (state.spool.Clean wrap.id))
  | .tick _ | .accept _ _ | .eose _ | .drop _ | .restart _ | .consume _ =>
    inferInstanceAs (Decidable True)

/-- Two minutes without the relay are covered: the wrap is asked for, and marked. -/
theorem wraps_marked_in_time :
    Runs.Meets (step []) Reaches (start [] 200000000) (outage 120 .kept) ∧
      Marked (Runs.run (step []) (start [] 200000000) (outage 120 .kept)) := by
  have reaches : Runs.Meets (step []) Reaches (start [] 200000000) (outage 120 .kept) := by decide
  exact ⟨reaches, wraps_marked [] 200000000 reaches⟩

/-- **One second more, and the wrap is never asked for** by any connection. -/
theorem wraps_marked_outage :
    ¬ Marked (Runs.run (step []) (start [] 200000000) (outage 121 .kept)) := by decide

/-- A marker file that was cut off keeps the wrap from getting a whole one. -/
theorem wraps_marked_torn :
    ¬ Marked (Runs.run (step []) (start [] 200000000) (outage 0 .torn)) := by decide

end Nvoy.Watch.Keyless
