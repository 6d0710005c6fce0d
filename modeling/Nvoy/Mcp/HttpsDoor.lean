/-
**The HTTPS door of a channel** (`channel-https-door.mjs`), with its one session.

Requests interleave at the awaits. A call of `openSession`, its channel and its session share a number; a known
session's requests only touch its timer, and a session may be closed at any time: by its client, its transport,
its channel or the timer.

* `closeSession`, `goOn`, `step` — the eviction, the wait, the start of the channel and the entry into the map;
* `OneChannel` — one channel alive, started after all others have exited, and the newest session's;
* `InOrder` — what the two waits have established still holds when the channel is started;
* `one_channel` — every run in order;
* `two_channels` — two calls that look at the map before either has entered it.
-/

import Nvoy.Lib.Runs
import Mathlib.Data.List.Nodup
import Mathlib.Logic.Function.Basic

namespace Nvoy.Mcp.HttpsDoor

open Runs (run Meets)

/-! ### The door -/

/-- Where a call of `openSession` waits. -/
inductive Phase where
  /-- For the channel of a session that it has evicted. -/
  | evicting (sid : Nat)
  /-- `Promise.all([...closing])` -/
  | waiting (closing : List Nat)
  /-- `child.start()` and `transport.start()` -/
  | starting
  /-- `transport.handleRequest(req, res, body)` -/
  | handling
  | ended
  deriving DecidableEq

inductive Channel where
  | unstarted
  /-- Its `close` has been called, or not. -/
  | running (closed : Bool)
  | exited
  deriving DecidableEq

/-- `child.close()` -/
def Channel.close : Channel → Channel
  | .running _ => .running true
  | channel => channel

structure Door where
  /-- How many calls there were. -/
  calls : Nat
  phase : Nat → Phase
  channel : Nat → Channel
  /-- The keys of the map, in their order. -/
  sessions : List Nat
  closing : List Nat
  /-- The channels that were started, each with those that were alive then. -/
  starts : List (Nat × List Nat)
  /-- The sessions that were entered, in their order. -/
  served : List Nat
  /-- The sessions that a call has evicted. -/
  evictions : List (Nat × Nat)
  /-- The calls that ended without a session. -/
  refused : List Nat
  /-- The sessions that their client, transport, channel or timer has closed. -/
  dropped : List Nat

def Door.fresh : Door := ⟨0, fun _ => .ended, fun _ => .unstarted, [], [], [], [], [], [], []⟩

def Door.alive (door : Door) (n : Nat) : Bool :=
  match door.channel n with
  | .running _ => true
  | _ => false

/-- `closeSession`, up to the exit of the channel. -/
def closeSession (door : Door) (sid : Nat) : Door :=
  if sid ∈ door.sessions then
    { door with
      sessions := door.sessions.erase sid
      channel := Function.update door.channel sid (door.channel sid).close
      closing := if door.alive sid then door.closing ++ [sid] else door.closing }
  else door

/-- `while (sessions.size >= maxSessions)`, where `maxSessions` is 1. -/
def goOn (door : Door) (n : Nat) : Door :=
  match door.sessions with
  | [] => { door with phase := Function.update door.phase n (.waiting door.closing) }
  | sid :: _ =>
    let closed := closeSession door sid
    { closed with
      phase := Function.update door.phase n (.evicting sid)
      evictions := door.evictions ++ [(n, sid)] }

/-- A session is closed for another cause than a newer one. -/
def drop (door : Door) (sid : Nat) : Door :=
  if sid ∈ door.sessions then
    let closed := closeSession door sid
    { closed with dropped := door.dropped ++ [sid] }
  else door

inductive Action where
  /-- An `initialize` of no known session. -/
  | opens
  /-- What a call has waited for is there. -/
  | resume (n : Nat)
  | started (n : Nat)
  /-- `onsessioninitialized` -/
  | entered (n : Nat)
  /-- The transport answers without a session. -/
  | refused (n : Nat)
  /-- A DELETE, the idle timer, or a transport that closes. -/
  | close (sid : Nat)
  | exits (n : Nat)

def step (door : Door) : Action → Door
  | .opens => goOn { door with calls := door.calls + 1 } door.calls
  | .resume n =>
    match door.phase n with
    | .evicting sid => if door.alive sid then door else goOn door n
    | .waiting closing =>
      if closing.any door.alive then door
      else
        { door with
          phase := Function.update door.phase n .starting
          channel := Function.update door.channel n (.running false)
          starts := door.starts ++ [(n, (List.range door.calls).filter door.alive)] }
    | _ => door
  | .started n =>
    if door.phase n = .starting then { door with phase := Function.update door.phase n .handling } else door
  | .entered n =>
    if door.phase n = .handling then
      { door with
        phase := Function.update door.phase n .ended
        sessions := door.sessions ++ [n]
        served := door.served ++ [n] }
    else door
  | .refused n =>
    if door.phase n = .handling then
      { door with
        phase := Function.update door.phase n .ended
        channel := Function.update door.channel n (door.channel n).close
        refused := door.refused ++ [n] }
    else door
  | .close sid => drop door sid
  | .exits n =>
    if door.alive n then
      -- `child.onclose` closes the session, where the transport has one
      drop
        { door with
          channel := Function.update door.channel n .exited
          closing := door.closing.erase n } n
    else door

/-- A call has started its channel, and has not ended. -/
def Door.Opening (door : Door) (n : Nat) : Prop := door.phase n = .starting ∨ door.phase n = .handling

/-- **One channel, and the newest session has it.** -/
structure OneChannel (door : Door) : Prop where
  one : ∀ a b, door.alive a = true → door.alive b = true → a = b
  entries : door.sessions.length ≤ 1
  alone : ∀ start ∈ door.starts, start.2 = []
  owned : ∀ n, door.channel n = .running false → n ∈ door.sessions ∨ door.Opening n
  newest : (∀ n, door.phase n = .ended) → ∀ n, door.served.getLast? = some n →
    (n ∈ door.sessions ∧ door.alive n = true) ∨ n ∈ door.dropped

/-- Where a call goes on to start its channel, the map is still empty and nothing is closing, no other call has
started one and not ended, and no channel of a refused call is alive; no channel exits before its session is
entered; and a call that is refused has evicted no session. -/
def InOrder (door : Door) : Action → Prop
  | .resume n => ∀ closing, door.phase n = .waiting closing → (∀ c ∈ closing, ¬door.alive c = true) →
      door.sessions = [] ∧ door.closing = [] ∧ (∀ m, ¬door.Opening m) ∧ ∀ m ∈ door.refused, ¬door.alive m = true
  | .entered n => door.phase n = .handling → door.alive n = true
  | .refused n => door.phase n = .handling → ∀ sid, (n, sid) ∉ door.evictions
  | _ => True

/-! ### What a step keeps -/

/-- What holds of the channels after every step in order. -/
structure Sound (door : Door) : Prop where
  one : ∀ a b, door.alive a = true → door.alive b = true → a = b
  whose : ∀ c, door.alive c = true →
    c ∈ door.sessions ∨ c ∈ door.closing ∨ door.Opening c ∨ c ∈ door.refused
  listed : ∀ n ∈ door.sessions, door.channel n = .running false ∧ door.phase n = .ended
  nodup : door.sessions.Nodup
  /-- A call that waits has started no channel, and neither has one to come. -/
  early : ∀ n, door.calls ≤ n ∨ (door.phase n ≠ .ended ∧ ¬door.Opening n) → door.channel n = .unstarted
  later : ∀ n, door.calls ≤ n → door.phase n = .ended
  owned : ∀ n, door.channel n = .running false → n ∈ door.sessions ∨ door.Opening n
  /-- The channel of a call that has started it may only have exited. -/
  begun : ∀ n, door.Opening n → door.channel n = .running false ∨ door.channel n = .exited
  alone : ∀ start ∈ door.starts, start.2 = []

/-- The last session that was entered is in the map, or dropped, or evicted by a call under way. -/
def Newest (door : Door) : Prop :=
  ∀ n, door.served.getLast? = some n →
    n ∈ door.sessions ∨ n ∈ door.dropped ∨ ∃ m, (m, n) ∈ door.evictions ∧ door.phase m ≠ .ended

section Steps

variable {door : Door} {n sid : Nat}

theorem alive_iff : door.alive n = true ↔ ∃ closed, door.channel n = .running closed := by
  unfold Door.alive
  cases door.channel n with
  | unstarted => simp
  | running closed => simp
  | exited => simp

theorem alive_congr {other : Door} (same : other.channel n = door.channel n) : other.alive n = door.alive n := by
  unfold Door.alive
  rw [same]

/-- A channel whose `close` is called stays as alive as it was. -/
theorem alive_close {other : Door} (same : other.channel n = (door.channel n).close) :
    other.alive n = door.alive n := by
  unfold Door.alive
  rw [same]
  cases door.channel n <;> rfl

theorem not_opening_of_ended (ended : door.phase n = .ended) : ¬door.Opening n := by
  unfold Door.Opening
  rw [ended]
  exact not_or.mpr ⟨nofun, nofun⟩

theorem sound_fresh : Sound Door.fresh where
  one _ _ running _ := nomatch running
  whose _ running := nomatch running
  listed _ member := nomatch member
  nodup := List.nodup_nil
  early _ _ := rfl
  later _ _ := rfl
  owned _ running := nomatch running
  begun _ opening := opening.elim nofun nofun
  alone _ member := nomatch member

theorem Sound.oneChannel (sound : Sound door) (newest : Newest door) : OneChannel door where
  one := sound.one
  entries := by
    by_contra more
    obtain ⟨a, b, rest, two⟩ : ∃ a b rest, door.sessions = a :: b :: rest := by
      match list : door.sessions with
      | [] => simp [list] at more
      | [a] => simp [list] at more
      | a :: b :: rest => exact ⟨a, b, rest, rfl⟩
    have distinct := sound.nodup
    rw [two, List.nodup_cons] at distinct
    have first := alive_iff.mpr ⟨_, (sound.listed a (by simp [two])).1⟩
    have second := alive_iff.mpr ⟨_, (sound.listed b (by simp [two])).1⟩
    exact distinct.1 (sound.one a b first second ▸ List.mem_cons_self)
  alone := sound.alone
  owned := sound.owned
  newest quiet n last := by
    rcases newest n last with inside | dropped | ⟨m, -, under⟩
    · exact .inl ⟨inside, alive_iff.mpr ⟨_, (sound.listed n inside).1⟩⟩
    · exact .inr dropped
    · exact absurd (quiet m) under

/-- A session that is closed is in the map no more, and its channel is waited for. -/
theorem Sound.closeSession (sound : Sound door) (sid : Nat) : Sound (closeSession door sid) := by
  unfold HttpsDoor.closeSession
  split
  case isFalse => exact sound
  case isTrue inside =>
    have listed := sound.listed sid inside
    have running : door.alive sid = true := alive_iff.mpr ⟨_, listed.1⟩
    have still : ∀ c, Door.alive { door with
        sessions := door.sessions.erase sid
        channel := Function.update door.channel sid (door.channel sid).close
        closing := if door.alive sid then door.closing ++ [sid] else door.closing } c = door.alive c := by
      intro c
      by_cases own : c = sid
      · subst own
        exact alive_close (Function.update_self _ _ _)
      · exact alive_congr (Function.update_of_ne own _ _)
    have other : ∀ c, c ∈ door.sessions → c ≠ sid → c ∈ door.sessions.erase sid := fun c member apart =>
      (List.mem_erase_of_ne apart).mpr member
    constructor
    · intro a b first second
      rw [still] at first second
      exact sound.one a b first second
    · intro c alive
      rw [still] at alive
      rw [if_pos running]
      rcases sound.whose c alive with member | member | opening | member
      · by_cases own : c = sid
        · exact .inr (.inl (List.mem_append_right _ (List.mem_singleton.mpr own)))
        · exact .inl (other c member own)
      · exact .inr (.inl (List.mem_append_left _ member))
      · exact .inr (.inr (.inl opening))
      · exact .inr (.inr (.inr member))
    · intro c member
      obtain ⟨apart, before⟩ := sound.nodup.mem_erase_iff.mp member
      exact ⟨(Function.update_of_ne apart _ _).trans (sound.listed c before).1, (sound.listed c before).2⟩
    · exact sound.nodup.erase sid
    · intro c early
      have unstarted := sound.early c early
      have apart : c ≠ sid := by
        rintro rfl
        rw [listed.1] at unstarted
        cases unstarted
      exact (Function.update_of_ne apart _ _).trans unstarted
    · exact sound.later
    · intro c alive
      have apart : c ≠ sid := by
        rintro rfl
        dsimp only at alive
        rw [Function.update_self, listed.1] at alive
        cases alive
      dsimp only at alive
      rw [Function.update_of_ne apart] at alive
      exact (sound.owned c alive).imp_left fun member => other c member apart
    · intro c opening
      have apart : c ≠ sid := by
        rintro rfl
        exact not_opening_of_ended listed.2 opening
      have same : Function.update door.channel sid (door.channel sid).close c = door.channel c :=
        Function.update_of_ne apart _ _
      dsimp only
      rw [same]
      exact sound.begun c opening
    · exact sound.alone

/-- A call that waits has nothing yet. -/
theorem Sound.park (sound : Sound door) (phase : Phase) (known : n < door.calls)
    (unstarted : door.channel n = .unstarted) (idle : ¬door.Opening n) (waits : phase ≠ .starting ∧ phase ≠ .handling)
    (evictions : List (Nat × Nat)) :
    Sound { door with phase := Function.update door.phase n phase, evictions := evictions } := by
  have opening : ∀ c, Door.Opening { door with phase := Function.update door.phase n phase, evictions := evictions } c ↔
      door.Opening c := by
    intro c
    unfold Door.Opening
    by_cases own : c = n
    · subst own
      dsimp only
      rw [Function.update_self]
      exact ⟨fun either => absurd either (not_or.mpr waits), fun either => absurd either idle⟩
    · dsimp only
      rw [Function.update_of_ne own]
  constructor
  · exact sound.one
  · intro c alive
    exact (sound.whose c alive).imp_right (Or.imp_right (Or.imp_left (opening c).mpr))
  · intro c member
    have apart : c ≠ n := by
      rintro rfl
      rw [(sound.listed c member).1] at unstarted
      cases unstarted
    exact ⟨(sound.listed c member).1, (Function.update_of_ne apart _ _).trans (sound.listed c member).2⟩
  · exact sound.nodup
  · intro c early
    by_cases own : c = n
    · rw [own]
      exact unstarted
    · refine sound.early c (early.imp_right fun under => ⟨?_, fun open' => under.2 ((opening c).mpr open')⟩)
      have same : (Function.update door.phase n phase) c = door.phase c := Function.update_of_ne own _ _
      exact same ▸ under.1
  · intro c far
    have apart : c ≠ n := by
      rintro rfl
      exact absurd known (Nat.not_lt.mpr far)
    exact (Function.update_of_ne apart _ _).trans (sound.later c far)
  · intro c alive
    exact (sound.owned c alive).imp_right (opening c).mpr
  · exact fun c open' => sound.begun c ((opening c).mp open')
  · exact sound.alone

theorem closeSession_phase (door : Door) (sid : Nat) : (closeSession door sid).phase = door.phase ∧
    (closeSession door sid).calls = door.calls ∧ (closeSession door sid).served = door.served ∧
      (closeSession door sid).evictions = door.evictions ∧ (closeSession door sid).dropped = door.dropped := by
  unfold closeSession
  split
  · exact ⟨rfl, rfl, rfl, rfl, rfl⟩
  · exact ⟨rfl, rfl, rfl, rfl, rfl⟩

theorem mem_closeSession (sound : Sound door) : n ∈ (closeSession door sid).sessions ↔ n ∈ door.sessions ∧ n ≠ sid := by
  unfold closeSession
  split
  case isTrue => exact sound.nodup.mem_erase_iff.trans and_comm
  case isFalse outside =>
    exact ⟨fun member => ⟨member, fun same => outside (same ▸ member)⟩, And.left⟩

theorem channel_closeSession (sound : Sound door) (unstarted : door.channel n = .unstarted) :
    (closeSession door sid).channel n = .unstarted := by
  unfold closeSession
  split
  case isTrue inside =>
    have apart : n ≠ sid := by
      rintro rfl
      rw [(sound.listed n inside).1] at unstarted
      cases unstarted
    exact (Function.update_of_ne apart _ _).trans unstarted
  case isFalse => exact unstarted

/-- **The eviction**, or the look at an empty map. -/
theorem Sound.goOn (sound : Sound door) (known : n < door.calls) (unstarted : door.channel n = .unstarted)
    (idle : ¬door.Opening n) : Sound (goOn door n) := by
  unfold HttpsDoor.goOn
  split
  case h_1 => exact sound.park (.waiting door.closing) known unstarted idle ⟨nofun, nofun⟩ _
  case h_2 sid rest _ =>
    obtain ⟨phase, calls, -, -, -⟩ := closeSession_phase door sid
    have parked := (sound.closeSession sid).park (.evicting sid) (calls ▸ known)
      (channel_closeSession sound unstarted)
      (fun opening => idle (by unfold Door.Opening at opening ⊢; rwa [phase] at opening)) ⟨nofun, nofun⟩
      (door.evictions ++ [(n, sid)])
    rw [phase] at parked
    exact parked

theorem newest_goOn (sound : Sound door) (newest : Newest door) : Newest (goOn door n) := by
  intro k last
  unfold HttpsDoor.goOn at last ⊢
  split
  case h_1 =>
    refine (newest k (by simpa [*] using last)).imp_right (Or.imp_right fun ⟨m, evicted, under⟩ => ⟨m, evicted, ?_⟩)
    by_cases own : m = n
    · rw [own]
      simp
    · simpa [Function.update_of_ne own] using under
  case h_2 sid rest list =>
    obtain ⟨-, -, served, -, dropped⟩ := closeSession_phase door sid
    rw [list] at last
    dsimp only at last ⊢
    rw [served] at last
    rw [dropped, mem_closeSession sound]
    rcases newest k last with inside | gone | ⟨m, evicted, under⟩
    · by_cases own : k = sid
      · refine .inr (.inr ⟨n, ?_, by simp⟩)
        rw [own]
        exact List.mem_append_right _ (List.mem_singleton_self _)
      · exact .inl ⟨inside, own⟩
    · exact .inr (.inl gone)
    · refine .inr (.inr ⟨m, List.mem_append_left _ evicted, ?_⟩)
      by_cases own : m = n
      · rw [own]
        simp
      · simpa [Function.update_of_ne own] using under

/-- What is dropped is no matter of the channels. -/
theorem Sound.drop (sound : Sound door) (sid : Nat) : Sound (drop door sid) := by
  unfold HttpsDoor.drop
  split
  · have closed := sound.closeSession sid
    exact ⟨closed.one, closed.whose, closed.listed, closed.nodup, closed.early, closed.later, closed.owned,
      closed.begun, closed.alone⟩
  · exact sound

theorem newest_drop (sound : Sound door) (newest : Newest door) : Newest (drop door sid) := by
  unfold HttpsDoor.drop
  split
  · obtain ⟨phase, -, served, evictions, -⟩ := closeSession_phase door sid
    intro k last
    dsimp only at last ⊢
    rw [served] at last
    rw [phase, evictions, mem_closeSession sound]
    rcases newest k last with inside | gone | evicted
    · by_cases own : k = sid
      · exact .inr (.inl (own ▸ List.mem_append_right _ (List.mem_singleton_self _)))
      · exact .inl ⟨inside, own⟩
    · exact .inr (.inl (List.mem_append_left _ gone))
    · exact .inr (.inr evicted)
  · exact newest

/-- A channel that exits takes its session with it. -/
theorem exits_eq (alive : door.alive n = true) :
    let out := step door (.exits n)
    out.calls = door.calls ∧ out.phase = door.phase ∧ out.channel = Function.update door.channel n .exited ∧
      out.sessions = door.sessions.erase n ∧ out.starts = door.starts ∧ out.served = door.served ∧
      out.evictions = door.evictions ∧ (n ∈ door.sessions → n ∈ out.dropped) ∧ door.dropped ⊆ out.dropped := by
  dsimp only [step]
  rw [if_pos alive]
  unfold HttpsDoor.drop
  split
  case isTrue inside =>
    dsimp only at inside
    unfold HttpsDoor.closeSession
    rw [if_pos inside]
    refine ⟨rfl, rfl, ?_, rfl, rfl, rfl, rfl, fun _ => List.mem_append_right _ (List.mem_singleton_self _),
      List.subset_append_left _ _⟩
    funext c
    by_cases own : c = n
    · subst own
      simp [Channel.close]
    · simp [Function.update_of_ne own]
  case isFalse outside =>
    refine ⟨rfl, rfl, rfl, (List.erase_of_not_mem outside).symm, rfl, rfl, rfl, fun inside => absurd inside outside,
      fun _ => id⟩

theorem Sound.exits (sound : Sound door) (n : Nat) : Sound (step door (.exits n)) := by
  by_cases alive : door.alive n = true
  · obtain ⟨calls, phase, channel, sessions, starts, -, -, -, -⟩ := exits_eq alive
    -- it was the only one
    have none : ∀ c, ¬(step door (.exits n)).alive c = true := by
      intro c running
      by_cases own : c = n
      · obtain ⟨_, same⟩ := alive_iff.mp running
        rw [channel, own, Function.update_self] at same
        cases same
      · have same : (step door (.exits n)).alive c = door.alive c :=
          alive_congr (by rw [channel, Function.update_of_ne own])
        exact own (sound.one c n (same ▸ running) alive)
    have before : ∀ c, c ≠ n → (step door (.exits n)).channel c = door.channel c := fun c apart => by
      rw [channel, Function.update_of_ne apart]
    have opening : ∀ c, (step door (.exits n)).Opening c ↔ door.Opening c := fun c => by
      unfold Door.Opening
      rw [phase]
    constructor
    · exact fun a _ first _ => absurd first (none a)
    · exact fun c running => absurd running (none c)
    · intro c member
      rw [sessions] at member
      obtain ⟨apart, inside⟩ := sound.nodup.mem_erase_iff.mp member
      exact absurd (sound.one c n (alive_iff.mpr ⟨_, (sound.listed c inside).1⟩) alive) apart
    · rw [sessions]
      exact sound.nodup.erase n
    · intro c early
      rw [calls, phase, opening] at early
      have unstarted := sound.early c early
      have apart : c ≠ n := by
        rintro rfl
        obtain ⟨_, running⟩ := alive_iff.mp alive
        rw [running] at unstarted
        cases unstarted
      rw [before c apart, unstarted]
    · intro c far
      rw [phase]
      exact sound.later c (calls ▸ far)
    · exact fun c running => absurd (alive_iff.mpr ⟨_, running⟩) (none c)
    · intro c open'
      by_cases own : c = n
      · rw [channel, own, Function.update_self]
        exact .inr rfl
      · rw [before c own]
        exact sound.begun c ((opening c).mp open')
    · rw [starts]
      exact sound.alone
  · rw [step, if_neg alive]
    exact sound

theorem newest_exits (newest : Newest door) : Newest (step door (.exits n)) := by
  by_cases alive : door.alive n = true
  · obtain ⟨-, phase, -, sessions, -, served, evictions, gone, kept⟩ := exits_eq alive
    intro k last
    rw [served] at last
    rw [phase, evictions, sessions]
    rcases newest k last with inside | dropped | evicted
    · by_cases own : k = n
      · exact .inr (.inl (own ▸ gone (own ▸ inside)))
      · exact .inl ((List.mem_erase_of_ne own).mpr inside)
    · exact .inr (.inl (kept dropped))
    · exact .inr (.inr evicted)
  · rw [step, if_neg alive]
    exact newest

/-- **The start of a channel**, where what was waited for still holds. -/
theorem Sound.starts (sound : Sound door) {closing : List Nat} (waits : door.phase n = .waiting closing)
    (empty : door.sessions = []) (settled : door.closing = []) (alone : ∀ m, ¬door.Opening m)
    (over' : ∀ m ∈ door.refused, ¬door.alive m = true) :
    Sound { door with
      phase := Function.update door.phase n .starting
      channel := Function.update door.channel n (.running false)
      starts := door.starts ++ [(n, (List.range door.calls).filter door.alive)] } := by
  have none : ∀ c, ¬door.alive c = true := by
    intro c alive
    rcases sound.whose c alive with member | member | opening | member
    · rw [empty] at member
      cases member
    · rw [settled] at member
      cases member
    · exact alone c opening
    · exact over' c member alive
  have known : n < door.calls := by
    by_contra far
    rw [sound.later n (Nat.not_lt.mp far)] at waits
    cases waits
  have other : ∀ c, c ≠ n → Function.update door.channel n (.running false) c = door.channel c ∧
      Function.update door.phase n .starting c = door.phase c := fun c apart =>
    ⟨Function.update_of_ne apart _ _, Function.update_of_ne apart _ _⟩
  have opened : ∀ c, Door.Opening { door with
      phase := Function.update door.phase n .starting
      channel := Function.update door.channel n (.running false)
      starts := door.starts ++ [(n, (List.range door.calls).filter door.alive)] } c ↔ c = n := by
    intro c
    by_cases own : c = n
    · exact ⟨fun _ => own, fun _ => .inl (own ▸ Function.update_self ..)⟩
    · refine ⟨fun opening => absurd ?_ (alone c), fun same => absurd same own⟩
      unfold Door.Opening at opening ⊢
      dsimp only at opening
      rwa [(other c own).2] at opening
  have only : ∀ c, Door.alive { door with
      phase := Function.update door.phase n .starting
      channel := Function.update door.channel n (.running false)
      starts := door.starts ++ [(n, (List.range door.calls).filter door.alive)] } c = true → c = n := by
    intro c running
    by_contra own
    exact none c ((alive_congr (other c own).1).symm.trans running)
  constructor
  · exact fun a b first second => (only a first).trans (only b second).symm
  · exact fun c running => .inr (.inr (.inl ((opened c).mpr (only c running))))
  · intro c member
    dsimp only at member
    rw [empty] at member
    cases member
  · exact sound.nodup
  · intro c early
    have apart : c ≠ n := by
      rintro rfl
      rcases early with far | under
      · exact absurd known (Nat.not_lt.mpr far)
      · exact under.2 ((opened c).mpr rfl)
    refine (other c apart).1.trans (sound.early c (early.imp_right fun under => ⟨?_, alone c⟩))
    exact (other c apart).2 ▸ under.1
  · intro c far
    have apart : c ≠ n := by
      rintro rfl
      exact absurd known (Nat.not_lt.mpr far)
    exact (other c apart).2.trans (sound.later c far)
  · exact fun c running => .inr ((opened c).mpr (only c (alive_iff.mpr ⟨_, running⟩)))
  · intro c opening
    rw [(opened c).mp opening]
    exact .inl (Function.update_self ..)
  · intro start member
    rcases List.mem_append.mp member with before | last
    · exact sound.alone start before
    · rw [List.mem_singleton.mp last]
      exact List.filter_eq_nil_iff.mpr fun c _ => none c

/-- `child.start()` has settled. -/
theorem Sound.started (sound : Sound door) (begins : door.phase n = .starting) :
    Sound { door with phase := Function.update door.phase n .handling } := by
  have opening : ∀ c, Door.Opening { door with phase := Function.update door.phase n .handling } c ↔
      door.Opening c := by
    intro c
    unfold Door.Opening
    by_cases own : c = n
    · subst own
      simp [begins]
    · simp [Function.update_of_ne own]
  have ended : ∀ c, Function.update door.phase n .handling c = .ended ↔ door.phase c = .ended := by
    intro c
    by_cases own : c = n
    · subst own
      simp [begins]
    · rw [Function.update_of_ne own]
  constructor
  · exact sound.one
  · exact fun c alive => (sound.whose c alive).imp_right (Or.imp_right (Or.imp_left (opening c).mpr))
  · exact fun c member => ⟨(sound.listed c member).1, (ended c).mpr (sound.listed c member).2⟩
  · exact sound.nodup
  · refine fun c early => sound.early c (early.imp_right fun under => ⟨fun over' => ?_, fun open' => ?_⟩)
    · exact under.1 ((ended c).mpr over')
    · exact under.2 ((opening c).mpr open')
  · exact fun c far => (ended c).mpr (sound.later c far)
  · exact fun c alive => (sound.owned c alive).imp_right (opening c).mpr
  · exact fun c open' => sound.begun c ((opening c).mp open')
  · exact sound.alone

/-- A call that ends is open no more; the others are as they were. -/
theorem opening_ended (other : Door) (phase : other.phase = Function.update door.phase n .ended) (c : Nat) :
    other.Opening c ↔ c ≠ n ∧ door.Opening c := by
  unfold Door.Opening
  rw [phase]
  by_cases own : c = n
  · subst own
    simp
  · simp [own]

/-- **The entry into the map**, of a session whose channel is alive. -/
theorem Sound.entered (sound : Sound door) (handles : door.phase n = .handling) (alive : door.alive n = true) :
    Sound { door with
      phase := Function.update door.phase n .ended
      sessions := door.sessions ++ [n]
      served := door.served ++ [n] } := by
  have opening := opening_ended (n := n) { door with
      phase := Function.update door.phase n .ended
      sessions := door.sessions ++ [n]
      served := door.served ++ [n] } rfl
  have known : n < door.calls := by
    by_contra far
    rw [sound.later n (Nat.not_lt.mp far)] at handles
    cases handles
  have running : door.channel n = .running false := by
    refine (sound.begun n (.inr handles)).resolve_right fun exited => ?_
    obtain ⟨_, same⟩ := alive_iff.mp alive
    rw [exited] at same
    cases same
  have fresh : n ∉ door.sessions := by
    intro inside
    rw [(sound.listed n inside).2] at handles
    cases handles
  constructor
  · exact sound.one
  · intro c live
    obtain rfl := sound.one c n live alive
    exact .inl (List.mem_append_right _ (List.mem_singleton_self _))
  · intro c member
    rcases List.mem_append.mp member with inside | last
    · have apart : c ≠ n := fun same => fresh (same ▸ inside)
      exact ⟨(sound.listed c inside).1, (Function.update_of_ne apart _ _).trans (sound.listed c inside).2⟩
    · obtain rfl := List.mem_singleton.mp last
      exact ⟨running, Function.update_self ..⟩
  · refine List.nodup_append.mpr ⟨sound.nodup, List.nodup_singleton n, ?_⟩
    intro c inside _ last same
    exact fresh (List.mem_singleton.mp last ▸ same ▸ inside)
  · intro c early
    have apart : c ≠ n := by
      rintro rfl
      rcases early with far | under
      · exact absurd known (Nat.not_lt.mpr far)
      · exact under.1 (Function.update_self ..)
    refine sound.early c (early.imp_right fun under => ⟨?_, fun open' => under.2 ((opening c).mpr ⟨apart, open'⟩)⟩)
    have same : Function.update door.phase n .ended c = door.phase c := Function.update_of_ne apart _ _
    exact same ▸ under.1
  · intro c far
    have apart : c ≠ n := by
      rintro rfl
      exact absurd known (Nat.not_lt.mpr far)
    exact (Function.update_of_ne apart _ _).trans (sound.later c far)
  · intro c live
    obtain rfl := sound.one c n (alive_iff.mpr ⟨_, live⟩) alive
    exact .inl (List.mem_append_right _ (List.mem_singleton_self _))
  · exact fun c open' => sound.begun c ((opening c).mp open').2
  · exact sound.alone

/-- A refused call has the close of its channel under way. -/
theorem Sound.refused (sound : Sound door) (handles : door.phase n = .handling) :
    Sound { door with
      phase := Function.update door.phase n .ended
      channel := Function.update door.channel n (door.channel n).close
      refused := door.refused ++ [n] } := by
  have opening := opening_ended (n := n) { door with
      phase := Function.update door.phase n .ended
      channel := Function.update door.channel n (door.channel n).close
      refused := door.refused ++ [n] } rfl
  have still : ∀ c, Door.alive { door with
      phase := Function.update door.phase n .ended
      channel := Function.update door.channel n (door.channel n).close
      refused := door.refused ++ [n] } c = door.alive c := by
    intro c
    by_cases own : c = n
    · subst own
      exact alive_close (Function.update_self _ _ _)
    · exact alive_congr (Function.update_of_ne own _ _)
  have known : n < door.calls := by
    by_contra far
    rw [sound.later n (Nat.not_lt.mp far)] at handles
    cases handles
  have apart : ∀ c ∈ door.sessions, c ≠ n := by
    rintro c inside rfl
    rw [(sound.listed c inside).2] at handles
    cases handles
  constructor
  · intro a b first second
    rw [still] at first second
    exact sound.one a b first second
  · intro c alive
    rw [still] at alive
    rcases sound.whose c alive with inside | closes | open' | refused
    · exact .inl inside
    · exact .inr (.inl closes)
    · by_cases own : c = n
      · exact .inr (.inr (.inr (List.mem_append_right _ (List.mem_singleton.mpr own))))
      · exact .inr (.inr (.inl ((opening c).mpr ⟨own, open'⟩)))
    · exact .inr (.inr (.inr (List.mem_append_left _ refused)))
  · intro c inside
    exact ⟨(Function.update_of_ne (apart c inside) _ _).trans (sound.listed c inside).1,
      (Function.update_of_ne (apart c inside) _ _).trans (sound.listed c inside).2⟩
  · exact sound.nodup
  · intro c early
    have other : c ≠ n := by
      rintro rfl
      rcases early with far | under
      · exact absurd known (Nat.not_lt.mpr far)
      · exact under.1 (Function.update_self ..)
    refine (Function.update_of_ne other _ _).trans (sound.early c (early.imp_right fun under =>
      ⟨?_, fun open' => under.2 ((opening c).mpr ⟨other, open'⟩)⟩))
    have same : Function.update door.phase n .ended c = door.phase c := Function.update_of_ne other _ _
    exact same ▸ under.1
  · intro c far
    have other : c ≠ n := by
      rintro rfl
      exact absurd known (Nat.not_lt.mpr far)
    exact (Function.update_of_ne other _ _).trans (sound.later c far)
  · intro c live
    have other : c ≠ n := by
      rintro rfl
      dsimp only at live
      rw [Function.update_self] at live
      cases before : door.channel c <;> rw [before] at live <;> cases live
    dsimp only at live
    rw [Function.update_of_ne other] at live
    exact (sound.owned c live).imp_right fun open' => (opening c).mpr ⟨other, open'⟩
  · intro c open'
    obtain ⟨other, before⟩ := (opening c).mp open'
    have same : Function.update door.channel n (door.channel n).close c = door.channel c :=
      Function.update_of_ne other _ _
    dsimp only
    rw [same]
    exact sound.begun c before
  · exact sound.alone

/-- The sessions, the drops and the evictions stay, and the calls that have evicted go on. -/
theorem Newest.of_same {other : Door} (newest : Newest door) (served : other.served = door.served)
    (sessions : other.sessions = door.sessions) (dropped : other.dropped = door.dropped)
    (evictions : other.evictions = door.evictions)
    (goes : ∀ m sid, (m, sid) ∈ door.evictions → door.phase m ≠ .ended → other.phase m ≠ .ended) : Newest other := by
  intro k last
  rw [served] at last
  rw [sessions, dropped, evictions]
  exact (newest k last).imp_right (Or.imp_right fun ⟨m, evicted, under⟩ => ⟨m, evicted, goes m k evicted under⟩)

/-- **The step.** -/
theorem kept_step (door : Door) (action : Action) (kept : Sound door ∧ Newest door) (ordered : InOrder door action) :
    Sound (step door action) ∧ Newest (step door action) := by
  obtain ⟨sound, newest⟩ := kept
  cases action with
  | opens =>
    have counted : Sound { door with calls := door.calls + 1 } :=
      ⟨sound.one, sound.whose, sound.listed, sound.nodup,
        fun c early => sound.early c (early.imp_left Nat.le_of_succ_le),
        fun c far => sound.later c (Nat.le_of_succ_le far), sound.owned, sound.begun, sound.alone⟩
    have idle : ¬Door.Opening { door with calls := door.calls + 1 } door.calls :=
      not_opening_of_ended (sound.later door.calls (Nat.le_refl _))
    exact ⟨counted.goOn (Nat.lt_succ_self _) (sound.early _ (.inl (Nat.le_refl _))) idle, newest_goOn counted newest⟩
  | resume n =>
    unfold step
    dsimp only
    have parked : ∀ phase, door.phase n = phase → phase ≠ .ended → phase ≠ .starting → phase ≠ .handling →
        n < door.calls ∧ door.channel n = .unstarted ∧ ¬door.Opening n := by
      intro phase here under first second
      have idle : ¬door.Opening n := by
        unfold Door.Opening
        rw [here]
        exact not_or.mpr ⟨first, second⟩
      refine ⟨?_, sound.early n (.inr ⟨here ▸ under, idle⟩), idle⟩
      by_contra far
      exact under (here ▸ sound.later n (Nat.not_lt.mp far))
    split
    case h_1 sid here =>
      split
      · exact ⟨sound, newest⟩
      · obtain ⟨known, unstarted, idle⟩ := parked _ here nofun nofun nofun
        exact ⟨sound.goOn known unstarted idle, newest_goOn sound newest⟩
    case h_2 closing here =>
      split
      case isTrue => exact ⟨sound, newest⟩
      case isFalse settled =>
        have gone : ∀ c ∈ closing, ¬door.alive c = true := fun c member alive =>
          settled (List.any_eq_true.mpr ⟨c, member, alive⟩)
        obtain ⟨empty, none, alone, over'⟩ := ordered closing here gone
        refine ⟨sound.starts here empty none alone over', newest.of_same rfl rfl rfl rfl fun m sid _ under => ?_⟩
        by_cases own : m = n
        · simp [own]
        · simpa [Function.update_of_ne own] using under
    case h_3 => exact ⟨sound, newest⟩
  | started n =>
    unfold step
    dsimp only
    split
    case isTrue begins =>
      refine ⟨sound.started begins, newest.of_same rfl rfl rfl rfl fun m sid _ under => ?_⟩
      by_cases own : m = n
      · simp [own]
      · simpa [Function.update_of_ne own] using under
    case isFalse => exact ⟨sound, newest⟩
  | entered n =>
    unfold step
    dsimp only
    split
    case isTrue handles =>
      refine ⟨sound.entered handles (ordered handles), fun k last => .inl ?_⟩
      dsimp only at last ⊢
      rw [List.getLast?_concat, Option.some_inj] at last
      exact last ▸ List.mem_append_right _ (List.mem_singleton_self _)
    case isFalse => exact ⟨sound, newest⟩
  | refused n =>
    unfold step
    dsimp only
    split
    case isTrue handles =>
      refine ⟨sound.refused handles, newest.of_same rfl rfl rfl rfl fun m sid evicted under => ?_⟩
      have other : m ≠ n := by
        rintro rfl
        exact ordered handles sid evicted
      simpa [Function.update_of_ne other] using under
    case isFalse => exact ⟨sound, newest⟩
  | close sid => exact ⟨sound.drop sid, newest_drop sound newest⟩
  | exits n => exact ⟨sound.exits n, newest_exits newest⟩

end Steps

/-- **One channel behind the door, and the newest session has it**, in every state of every run in which what a
call has waited for still holds when it starts its channel, no channel exits before its session is entered, and no
call is refused that has evicted a session. -/
theorem one_channel (actions : List Action) (ordered : Meets step InOrder Door.fresh actions) :
    OneChannel (run step Door.fresh actions) := by
  obtain ⟨sound, newest⟩ := ordered.keeps kept_step ⟨sound_fresh, fun _ last => nomatch last⟩
  exact sound.oneChannel newest

/-- A session, a newer one that waits for its channel's exit, and its DELETE. -/
theorem one_channel_sample :
    OneChannel (run step Door.fresh [.opens, .resume 0, .started 0, .entered 0, .opens, .resume 1, .exits 0,
      .resume 1, .resume 1, .started 1, .entered 1, .close 1]) := by
  have idle : ∀ m, ¬(run step Door.fresh [.opens]).Opening m := by
    intro m
    match m with
    | 0 => exact not_or.mpr ⟨by decide, by decide⟩
    | m + 1 => exact not_opening_of_ended rfl
  have idle' : ∀ m, ¬(run step Door.fresh [.opens, .resume 0, .started 0, .entered 0, .opens, .resume 1, .exits 0,
      .resume 1]).Opening m := by
    intro m
    match m with
    | 0 => exact not_or.mpr ⟨by decide, by decide⟩
    | 1 => exact not_or.mpr ⟨by decide, by decide⟩
    | m + 2 => exact not_opening_of_ended rfl
  refine one_channel _ ⟨trivial, fun _ _ _ => ⟨rfl, rfl, idle, nofun⟩, trivial, fun _ => by decide, trivial,
    nofun, trivial, nofun, fun _ _ _ => ⟨rfl, rfl, idle', nofun⟩, trivial, fun _ => by decide, trivial, trivial⟩

/-- **Two calls that look before either has entered**: two channels are alive, and then two sessions. -/
theorem two_channels :
    let looks := [Action.opens, .opens, .resume 0, .resume 1]
    let door := run step Door.fresh looks
    (door.alive 0 = true ∧ door.alive 1 = true) ∧
      (run step door [.started 0, .started 1, .entered 0, .entered 1]).sessions = [0, 1] ∧
      ¬OneChannel door := by
  intro looks door
  have both : door.alive 0 = true ∧ door.alive 1 = true := by decide
  exact ⟨both, by decide, fun one => absurd (one.one 0 1 both.1 both.2) (by decide)⟩

end Nvoy.Mcp.HttpsDoor
