/-
**The broker lock and the pid lock.** Any number of processes call `claimBrokerLock`, or
`claimPidLock`; every file operation of theirs is a step of its own, and a process can end between
any two. A process claims a lock it does not hold, as every caller does once at its start.

* `step` — the host's next state: exclusive create, write of the pid, stat, read, liveness probe,
  removal, and the exit handler or the returned release;
* `Fits`, `Sound` — where each process stands, and what it may rely on there: whoever is between its
  create and its release owns the file at the path, and what it has judged dead is dead;
* `still` — the file that is removed as stale is the one that was read;
* `one_live_holder` — then one process at most holds the lock, none removes a holder's file, and a
  finished file of a dead process is always taken over;
* `two_reclaimers` — without that condition two processes that reclaim one dead owner's lock both
  hold it.
-/

import Nvoy.Lib.Runs
import Mathlib.Data.Finset.Attr
import Mathlib.Logic.Function.Basic
import Mathlib.Tactic.Cases

set_option linter.unusedSectionVars false

namespace Nvoy.Broker.PidLock

open Nvoy.Runs

/-! ### The host -/

/-- `claimBrokerLock` or `claimPidLock`. -/
inductive Kind where
  | broker
  | pid
  deriving DecidableEq

/-- A lock file of this instance. Its text is empty from the exclusive create until the pid is
written. -/
structure File (P : Type) where
  inode : Nat
  creator : P
  text : Option P
  deriving DecidableEq

/-- Where a process stands; a file that was read is known by its inode. -/
inductive Doing (P : Type) where
  | idle
  | opening
  | writing (inode : Nat)
  | statting
  | reading
  | probing (inode : Nat) (pid : P)
  | removing (inode : Nat)
  | releasing
  | unlinking
  deriving DecidableEq

structure Process (P : Type) where
  alive : Bool
  doing : Doing P
  /-- Told that it holds the lock, and not through with its release. -/
  handle : Bool
  deriving DecidableEq

/-- The lock path and the processes. A file whose name was removed is read by nobody, so only the
file at the path is kept. -/
structure Host (P : Type) where
  path : Option (File P)
  nextInode : Nat
  process : P → Process P

variable {P : Type} [DecidableEq P]

/-- No lock file, and every process about its other business. -/
def Host.start : Host P := ⟨none, 0, fun _ => ⟨true, .idle, false⟩⟩

namespace Host

variable (host : Host P) (p : P)

def doing : Doing P := (host.process p).doing
def alive : Bool := (host.process p).alive
def handle : Bool := (host.process p).handle

def become (process : Process P) : Host P :=
  { host with process := Function.update host.process p process }

/-- The process goes on to its next operation. -/
def goes (doing : Doing P) : Host P := host.become p { host.process p with doing }

/-- The call or the release is over; the process has a handle or not. -/
def returns (handle : Bool) : Host P := host.become p { host.process p with doing := .idle, handle }

def crashes : Host P := host.become p { host.process p with alive := false }

end Host

/-! ### One step -/

/-- The file operations of a process, the calls that start them, and its end. -/
inductive Operation where
  | call
  | create
  | write
  | stat
  | read
  | probe
  | remove
  | release
  | readBack
  | unlink
  | crash
  deriving DecidableEq

structure Action (P : Type) where
  pid : P
  operation : Operation

/-- What a running process does. A claim that throws or dies leaves it idle and without a handle. -/
def act (kind : Kind) (host : Host P) (p : P) : Operation → Host P
  | .call => if host.doing p = .idle ∧ host.handle p = false then host.goes p .opening else host
  | .create =>
      match host.doing p, host.path with
      | .opening, none =>
          { host.goes p (.writing host.nextInode) with
            path := some ⟨host.nextInode, p, none⟩, nextInode := host.nextInode + 1 }
      | .opening, some _ => host.goes p .statting
      | _, _ => host
  | .write =>
      match host.doing p with
      | .writing inode =>
          { host.returns p true with
            path := host.path.map fun file =>
              if file.inode = inode then { file with text := some p } else file }
      | _ => host
  | .stat =>
      match host.doing p, host.path with
      | .statting, none => host.goes p .idle
      | .statting, some _ => host.goes p .reading
      | _, _ => host
  | .read =>
      match host.doing p, host.path with
      | .reading, none => host.goes p .idle
      | .reading, some file =>
          match file.text with
          -- an empty file is no JSON
          | none => host.goes p .idle
          | some pid =>
              -- claimPidLock takes a lock of its own pid for stale without asking
              if kind = .pid ∧ pid = p then host.goes p (.removing file.inode)
              else host.goes p (.probing file.inode pid)
      | _, _ => host
  | .probe =>
      match host.doing p with
      | .probing inode pid =>
          if host.alive pid then host.goes p .idle else host.goes p (.removing inode)
      | _ => host
  | .remove =>
      match host.doing p, host.path with
      | .removing _, none => host.goes p .idle
      | .removing _, some _ => { host.goes p .opening with path := none }
      | _, _ => host
  | .release =>
      if host.doing p = .idle ∧ host.handle p = true then
        -- the exit handler of the broker unlinks without reading
        host.goes p (if kind = .broker then .unlinking else .releasing)
      else host
  | .readBack =>
      match host.doing p with
      | .releasing =>
          if host.path.bind File.text = some p then host.goes p .unlinking
          else host.returns p false
      | _ => host
  | .unlink =>
      match host.doing p with
      | .unlinking => { host.returns p false with path := none }
      | _ => host
  | .crash => host.crashes p

/-- One operation of one process; a process that has ended does nothing more. -/
def step (kind : Kind) (host : Host P) (action : Action P) : Host P :=
  if host.alive action.pid then act kind host action.pid action.operation else host

/-! ### Where a process stands -/

/-- The file at the path is the process's own, with its pid. -/
def Owns (host : Host P) (p : P) : Prop := ∃ file ∈ host.path, file.creator = p ∧ file.text = some p

/-- What a process may rely on. -/
def Fits (host : Host P) (p : P) (process : Process P) : Prop :=
  match process.doing with
  | .idle => process.handle = true → Owns host p
  | .opening => process.handle = false
  | .writing inode => process.handle = false ∧ ∃ file ∈ host.path, file.inode = inode ∧ file.creator = p
  | .statting => process.handle = false
  | .reading => process.handle = false
  | .probing inode pid => process.handle = false ∧ inode < host.nextInode ∧
      ∀ file ∈ host.path, file.inode = inode → file.creator = pid
  | .removing inode => process.handle = false ∧ inode < host.nextInode ∧
      ∀ file ∈ host.path, file.inode = inode → host.alive file.creator = false ∨ file.creator = p
  | .releasing => process.handle = true ∧ Owns host p
  | .unlinking => process.handle = true ∧ Owns host p

structure Sound (host : Host P) : Prop where
  created : ∀ file ∈ host.path, file.inode < host.nextInode
  written : ∀ file ∈ host.path, ∀ pid, file.text = some pid → file.creator = pid
  fits : ∀ p, host.alive p = true → Fits host p (host.process p)

/-- A file that is removed as stale is the one that was read. -/
def still (host : Host P) (action : Action P) : Bool :=
  match action.operation, host.doing action.pid, host.path with
  | .remove, .removing inode, some file => file.inode = inode
  | _, _, _ => true

/-- **What one process's step leaves of the invariant**: the files of others that run stay, a file at
the path is an old one or new, and the process stands where it fits. -/
theorem Sound.of_become {host host' : Host P} {p : P} {process : Process P} (sound : Sound host)
    (same : host'.process = Function.update host.process p process)
    (ends : process.alive = true → host.alive p = true)
    (next : host.nextInode ≤ host'.nextInode)
    (older : ∀ file ∈ host'.path, host.nextInode ≤ file.inode ∧ file.inode < host'.nextInode ∨
      ∃ old ∈ host.path, old.inode = file.inode ∧ old.creator = file.creator)
    (written : ∀ file ∈ host'.path, ∀ pid, file.text = some pid → file.creator = pid)
    (others : ∀ file ∈ host.path, host.alive file.creator = true → file.creator ≠ p →
      file ∈ host'.path)
    (fits : process.alive = true → Fits host' p process) : Sound host' := by
  have own : host'.process p = process := by rw [same, Function.update_self]
  have other : ∀ q, q ≠ p → host'.process q = host.process q := fun q differ => by
    rw [same, Function.update_of_ne differ]
  have dead : ∀ q, host.alive q = false → host'.alive q = false := by
    intro q gone
    by_cases is : q = p
    · subst is
      rw [Host.alive, own, ← Bool.not_eq_true]
      exact fun alive => by rw [ends alive] at gone; cases gone
    · rw [Host.alive, other q is]
      exact gone
  refine ⟨fun file linked => ?_, written, fun q alive => ?_⟩
  · rcases older file linked with new | ⟨old, there, inode, -⟩
    · exact new.2
    · rw [← inode]
      exact Nat.lt_of_lt_of_le (sound.created old there) next
  · by_cases is : q = p
    · subst is
      rw [Host.alive, own] at alive
      rw [own]
      exact fits alive
    · rw [Host.alive, other q is] at alive
      have before := sound.fits q alive
      rw [other q is]
      have keeps : ∀ file ∈ host.path, file.creator = q → file ∈ host'.path := by
        rintro file linked rfl
        exact others file linked alive is
      have owns : Owns host q → Owns host' q := by
        rintro ⟨file, linked, creator, text⟩
        exact ⟨file, keeps file linked creator, creator, text⟩
      have known : ∀ {inode : Nat} {file : File P}, inode < host.nextInode → file ∈ host'.path →
          file.inode = inode → ∃ old ∈ host.path, old.inode = inode ∧ old.creator = file.creator := by
        intro inode file low linked is
        rcases older file linked with new | ⟨old, there, inode', creator⟩
        · omega
        · exact ⟨old, there, inode'.trans is, creator⟩
      unfold Fits at before ⊢
      cases standing : (host.process q).doing with
      | idle =>
          rw [standing] at before
          exact fun handle => owns (before handle)
      | opening => rw [standing] at before; exact before
      | statting => rw [standing] at before; exact before
      | reading => rw [standing] at before; exact before
      | writing inode =>
          rw [standing] at before
          obtain ⟨handle, file, linked, inode, creator⟩ := before
          exact ⟨handle, file, keeps file linked creator, inode, creator⟩
      | probing inode pid =>
          rw [standing] at before
          obtain ⟨handle, low, read⟩ := before
          refine ⟨handle, Nat.lt_of_lt_of_le low next, fun file linked is => ?_⟩
          obtain ⟨old, there, inode, creator⟩ := known low linked is
          rw [← creator]
          exact read old there inode
      | removing inode =>
          rw [standing] at before
          obtain ⟨handle, low, read⟩ := before
          refine ⟨handle, Nat.lt_of_lt_of_le low next, fun file linked is => ?_⟩
          obtain ⟨old, there, inode, creator⟩ := known low linked is
          rw [← creator]
          exact (read old there inode).imp_left (dead old.creator)
      | releasing =>
          rw [standing] at before
          exact ⟨before.1, owns before.2⟩
      | unlinking =>
          rw [standing] at before
          exact ⟨before.1, owns before.2⟩

/-! ### Every operation keeps the invariant -/

section Operations

variable {kind : Kind} {host : Host P} {p : P}

theorem older_self (host : Host P) : ∀ file ∈ host.path,
    host.nextInode ≤ file.inode ∧ file.inode < host.nextInode ∨
      ∃ old ∈ host.path, old.inode = file.inode ∧ old.creator = file.creator :=
  fun file linked => .inr ⟨file, linked, rfl, rfl⟩

/-- A step that touches no file. -/
theorem Sound.goes {doing : Doing P} (sound : Sound host) (alive : host.alive p = true)
    (fits : Fits (host.goes p doing) p { host.process p with doing }) : Sound (host.goes p doing) :=
  sound.of_become rfl (fun _ => alive) (Nat.le_refl _) (older_self host) sound.written
    (fun _ linked _ _ => linked) fun _ => fits

theorem Sound.returns {handle : Bool} (sound : Sound host) (alive : host.alive p = true)
    (owns : handle = true → Owns host p) : Sound (host.returns p handle) :=
  sound.of_become rfl (fun _ => alive) (Nat.le_refl _) (older_self host) sound.written
    (fun _ linked _ _ => linked) fun _ => owns

theorem alive_goes (doing : Doing P) (q : P) : (host.goes p doing).alive q = host.alive q := by
  by_cases same : q = p
  · subst same
    show (Function.update host.process q _ q).alive = _
    rw [Function.update_self]
    rfl
  · show (Function.update host.process p _ q).alive = _
    rw [Function.update_of_ne same]
    rfl

theorem doing_goes (doing : Doing P) : (host.goes p doing).doing p = doing := by
  show (Function.update host.process p _ p).doing = doing
  rw [Function.update_self]

theorem handle_returns (handle : Bool) : (host.returns p handle).handle p = handle := by
  show (Function.update host.process p _ p).handle = handle
  rw [Function.update_self]

theorem alive_returns (handle : Bool) : (host.returns p handle).alive p = host.alive p := by
  show (Function.update host.process p _ p).alive = host.alive p
  rw [Function.update_self]
  rfl

theorem path_goes (doing : Doing P) : (host.goes p doing).path = host.path := rfl

theorem goes_goes (doing next : Doing P) : (host.goes p doing).goes p next = host.goes p next := by
  simp only [Host.goes, Host.become, Function.update_self, Function.update_idem]

theorem step_alive (alive : host.alive p = true) (operation : Operation) :
    step kind host ⟨p, operation⟩ = act kind host p operation := if_pos alive

/-- The file at the path is that of the process that holds the lock. -/
theorem Owns.creator_eq (owns : Owns host p) {file : File P} (linked : file ∈ host.path) :
    file.creator = p := by
  obtain ⟨own, there, creator, -⟩ := owns
  rw [Option.mem_unique linked there]
  exact creator

/-- What `Fits` says of the process at one of its places. -/
theorem Sound.at_doing (sound : Sound host) (alive : host.alive p = true) {doing : Doing P}
    (standing : host.doing p = doing) : Fits host p { host.process p with doing } := by
  have fits := sound.fits p alive
  rw [← standing]
  exact fits

theorem Sound.call (sound : Sound host) (alive : host.alive p = true) :
    Sound (act kind host p .call) := by
  unfold act
  dsimp only
  by_cases ready : host.doing p = .idle ∧ host.handle p = false
  · rw [if_pos ready]
    exact sound.goes alive ready.2
  · rw [if_neg ready]
    exact sound

/-- The exclusive create succeeds only where no file is, so nobody else owns one. -/
theorem Sound.create (sound : Sound host) (alive : host.alive p = true) :
    Sound (act kind host p .create) := by
  unfold act
  dsimp only
  split
  next opening missing =>
    have handle := sound.at_doing alive opening
    refine sound.of_become rfl (fun _ => alive) (Nat.le_succ _) ?_ ?_ ?_ fun _ => ⟨handle, _, rfl, rfl, rfl⟩
    · rintro file ⟨⟩
      exact .inl ⟨Nat.le_refl _, Nat.lt_succ_self _⟩
    · rintro file ⟨⟩ pid text
      cases text
    · intro file linked
      rw [missing] at linked
      cases linked
  next opening _ =>
    have handle : host.handle p = false := sound.at_doing alive opening
    exact sound.goes alive handle
  next => exact sound

/-- The pid goes into the file the process created, which is the one at the path. -/
theorem Sound.write (sound : Sound host) (alive : host.alive p = true) :
    Sound (act kind host p .write) := by
  unfold act
  dsimp only
  split
  next inode writing =>
    obtain ⟨-, file, linked, same, creator⟩ := sound.at_doing alive writing
    have written : host.path.map (fun file =>
        if file.inode = inode then { file with text := some p } else file) =
        some { file with text := some p } := by
      rw [Option.mem_def.mp linked, Option.map_some, if_pos same]
    refine sound.of_become rfl (fun _ => alive) (Nat.le_refl _) ?_ ?_ ?_ fun _ _ =>
      ⟨_, written, creator, rfl⟩
    · intro new there
      obtain rfl := Option.some.inj (written.symm.trans there)
      exact .inr ⟨file, linked, rfl, rfl⟩
    · intro new there pid text
      obtain rfl := Option.some.inj (written.symm.trans there)
      rw [← Option.some.inj text]
      exact creator
    · intro other there _ differ
      rw [Option.mem_unique there linked] at differ
      exact absurd creator differ
  next => exact sound

theorem Sound.stat (sound : Sound host) (alive : host.alive p = true) :
    Sound (act kind host p .stat) := by
  unfold act
  dsimp only
  split
  next statting _ =>
    refine sound.goes alive fun handle => ?_
    rw [sound.at_doing alive statting] at handle
    cases handle
  next statting _ => exact sound.goes alive (sound.at_doing alive statting)
  next => exact sound

theorem Sound.read (sound : Sound host) (alive : host.alive p = true) :
    Sound (act kind host p .read) := by
  unfold act
  dsimp only
  split
  next reading _ =>
    refine sound.goes alive fun handle => ?_
    rw [sound.at_doing alive reading] at handle
    cases handle
  next file reading linked =>
    have handle : host.handle p = false := sound.at_doing alive reading
    have low := sound.created file linked
    split
    next =>
      refine sound.goes alive fun held => ?_
      rw [show ({ host.process p with doing := Doing.idle } : Process P).handle = false from handle] at held
      cases held
    next pid text =>
      have creator := sound.written file linked pid text
      by_cases own : kind = .pid ∧ pid = p
      · rw [if_pos own]
        refine sound.goes alive ⟨handle, low, fun other there same => .inr ?_⟩
        rw [Option.mem_unique there linked, creator]
        exact own.2
      · rw [if_neg own]
        refine sound.goes alive ⟨handle, low, fun other there same => ?_⟩
        rw [Option.mem_unique there linked]
        exact creator
  next => exact sound

theorem Sound.probe (sound : Sound host) (alive : host.alive p = true) :
    Sound (act kind host p .probe) := by
  unfold act
  dsimp only
  split
  next inode pid probing =>
    obtain ⟨handle, low, read⟩ := sound.at_doing alive probing
    by_cases runs : host.alive pid = true
    · rw [if_pos runs]
      refine sound.goes alive fun held => ?_
      rw [show ({ host.process p with doing := Doing.idle } : Process P).handle = false from handle] at held
      cases held
    · rw [if_neg runs]
      refine sound.goes alive ⟨handle, low, fun file linked same => .inl ?_⟩
      rw [alive_goes, read file linked same]
      exact Bool.eq_false_iff.mpr runs
  next => exact sound

theorem inode_of_still {inode : Nat} {file : File P} (meets : still host ⟨p, .remove⟩ = true)
    (removing : host.doing p = .removing inode) (linked : host.path = some file) :
    file.inode = inode := by
  rw [still, removing, linked] at meets
  exact of_decide_eq_true meets

/-- The step the condition is about: the file that was judged stale is the one that goes. -/
theorem Sound.remove (sound : Sound host) (alive : host.alive p = true)
    (meets : still host ⟨p, .remove⟩ = true) : Sound (act kind host p .remove) := by
  unfold act
  dsimp only
  split
  next inode removing missing =>
    refine sound.goes alive fun held => ?_
    rw [show ({ host.process p with doing := Doing.idle } : Process P).handle = false from
      (sound.at_doing alive removing).1] at held
    cases held
  next inode file removing linked =>
    obtain ⟨handle, -, stale⟩ := sound.at_doing alive removing
    have same := inode_of_still meets removing linked
    refine sound.of_become rfl (fun _ => alive) (Nat.le_refl _) ?_ ?_ ?_ fun _ => handle
    · rintro other ⟨⟩
    · rintro other ⟨⟩
    · intro other there runs differ
      rw [Option.mem_unique there linked] at runs differ
      rcases stale file linked same with gone | own
      · rw [gone] at runs
        cases runs
      · exact absurd own differ
  next => exact sound

theorem Sound.release (sound : Sound host) (alive : host.alive p = true) :
    Sound (act kind host p .release) := by
  unfold act
  dsimp only
  by_cases ready : host.doing p = .idle ∧ host.handle p = true
  · rw [if_pos ready]
    have owns : Owns host p := sound.at_doing alive ready.1 ready.2
    cases kind with
    | broker => exact sound.goes alive ⟨ready.2, owns⟩
    | pid => exact sound.goes alive ⟨ready.2, owns⟩
  · rw [if_neg ready]
    exact sound

theorem Sound.readBack (sound : Sound host) (alive : host.alive p = true) :
    Sound (act kind host p .readBack) := by
  unfold act
  dsimp only
  split
  next releasing =>
    have holds := sound.at_doing alive releasing
    split
    next => exact sound.goes alive holds
    next => exact sound.returns alive fun none' => by cases none'
  next => exact sound

/-- A release removes the process's own file. -/
theorem Sound.unlink (sound : Sound host) (alive : host.alive p = true) :
    Sound (act kind host p .unlink) := by
  unfold act
  dsimp only
  split
  next unlinking =>
    obtain ⟨-, owns⟩ := sound.at_doing alive unlinking
    refine sound.of_become rfl (fun _ => alive) (Nat.le_refl _) ?_ ?_ ?_ fun _ none' => by cases none'
    · rintro other ⟨⟩
    · rintro other ⟨⟩
    · intro file linked _ differ
      exact absurd (owns.creator_eq linked) differ
  next => exact sound

theorem Sound.crash (sound : Sound host) : Sound (act kind host p .crash) :=
  sound.of_become rfl (fun none' => by cases none') (Nat.le_refl _) (older_self host) sound.written
    (fun _ linked _ _ => linked) fun none' => by cases none'

end Operations

/-- Every operation under the condition keeps the invariant. -/
theorem sound_step {kind : Kind} (host : Host P) (action : Action P) (sound : Sound host)
    (meets : still host action = true) : Sound (step kind host action) := by
  obtain ⟨p, operation⟩ := action
  unfold step
  by_cases alive : host.alive p = true
  · rw [if_pos alive]
    cases operation with
    | call => exact sound.call alive
    | create => exact sound.create alive
    | write => exact sound.write alive
    | stat => exact sound.stat alive
    | read => exact sound.read alive
    | probe => exact sound.probe alive
    | remove => exact sound.remove alive meets
    | release => exact sound.release alive
    | readBack => exact sound.readBack alive
    | unlink => exact sound.unlink alive
    | crash => exact sound.crash
  · rw [if_neg alive]
    exact sound

theorem sound_start : Sound (Host.start : Host P) := by
  refine ⟨?_, ?_, fun p _ none' => by cases none'⟩
  · rintro file ⟨⟩
  · rintro file ⟨⟩

/-! ### One live holder -/

/-- A running process between the claim that succeeded and the end of its release. -/
def Host.Holds (host : Host P) (p : P) : Prop := host.alive p = true ∧ host.handle p = true

def Host.OneHolder (host : Host P) : Prop := ∀ p q, host.Holds p → host.Holds q → p = q

/-- The operation removes a file that another running holder wrote. -/
def Robs (host : Host P) (action : Action P) : Prop :=
  (action.operation = .remove ∧ (∃ inode, host.doing action.pid = .removing inode) ∨
    action.operation = .unlink ∧ host.doing action.pid = .unlinking) ∧ host.alive action.pid = true ∧
  ∃ file ∈ host.path, file.creator ≠ action.pid ∧ host.Holds file.creator

/-- One process claims the lock with nobody in between: past a file of a dead process. -/
def takesOver (p : P) : List (Action P) :=
  [⟨p, .call⟩, ⟨p, .create⟩, ⟨p, .stat⟩, ⟨p, .read⟩, ⟨p, .probe⟩, ⟨p, .remove⟩, ⟨p, .create⟩, ⟨p, .write⟩]

/-- A file whose writer finished and then ended is taken over by any process that claims the lock. -/
def Reclaimable (kind : Kind) (host : Host P) : Prop :=
  ∀ file ∈ host.path, file.text.isSome → host.alive file.creator = false →
    ∀ p, host.alive p = true → host.doing p = .idle → host.handle p = false →
      (run (step kind) host (takesOver p)).Holds p

theorem Sound.owns {host : Host P} {p : P} (sound : Sound host) (holds : host.Holds p) : Owns host p := by
  have fits := sound.fits p holds.1
  have handle : (host.process p).handle = true := holds.2
  unfold Fits at fits
  cases standing : (host.process p).doing with
  | idle => rw [standing] at fits; exact fits handle
  | releasing => rw [standing] at fits; exact fits.2
  | unlinking => rw [standing] at fits; exact fits.2
  | writing inode =>
      rw [standing] at fits
      exact absurd handle (Bool.eq_false_iff.mp fits.1)
  | probing inode pid =>
      rw [standing] at fits
      exact absurd handle (Bool.eq_false_iff.mp fits.1)
  | removing inode =>
      rw [standing] at fits
      exact absurd handle (Bool.eq_false_iff.mp fits.1)
  | opening =>
      rw [standing] at fits
      exact absurd handle (Bool.eq_false_iff.mp fits)
  | statting =>
      rw [standing] at fits
      exact absurd handle (Bool.eq_false_iff.mp fits)
  | reading =>
      rw [standing] at fits
      exact absurd handle (Bool.eq_false_iff.mp fits)

/-- Under the condition nobody removes the file of another running holder. -/
theorem Sound.robs {host : Host P} {action : Action P} (sound : Sound host)
    (meets : still host action = true) : ¬Robs host action := by
  obtain ⟨p, operation⟩ := action
  rintro ⟨removes, alive, file, linked, other, holds⟩
  rcases removes with ⟨rfl, inode, removing⟩ | ⟨-, unlinking⟩
  · obtain ⟨-, -, stale⟩ := sound.at_doing alive removing
    rcases stale file linked (inode_of_still meets removing linked) with gone | own
    · rw [holds.1] at gone
      cases gone
    · exact other own
  · obtain ⟨-, owns⟩ := sound.at_doing alive unlinking
    exact other (owns.creator_eq linked)

theorem Sound.reclaimable {kind : Kind} {host : Host P} (sound : Sound host) :
    Reclaimable kind host := by
  intro file linked finished dead p alive idle handle
  obtain ⟨pid, text⟩ := Option.isSome_iff_exists.mp finished
  have creator := sound.written file linked pid text
  have other : ¬(kind = .pid ∧ pid = p) := by
    rintro ⟨-, rfl⟩
    rw [creator, alive] at dead
    cases dead
  have ended : host.alive pid ≠ true := by
    rw [← creator, dead]
    exact Bool.false_ne_true
  have path : host.path = some file := linked
  -- up to the removal only the process moves
  have opens : step kind host ⟨p, .call⟩ = host.goes p .opening := by
    rw [step_alive alive, act, if_pos ⟨idle, handle⟩]
  have moves : ∀ {place next : Doing P} {operation : Operation},
      act kind (host.goes p place) p operation = (host.goes p place).goes p next →
      step kind (host.goes p place) ⟨p, operation⟩ = host.goes p next := by
    intro place next operation same
    rw [step_alive (by rw [alive_goes, alive]), same, goes_goes]
  have fails : step kind (host.goes p .opening) ⟨p, .create⟩ = host.goes p .statting :=
    moves (by simp only [act, doing_goes, path_goes, path])
  have stats : step kind (host.goes p .statting) ⟨p, .stat⟩ = host.goes p .reading :=
    moves (by simp only [act, doing_goes, path_goes, path])
  have reads : step kind (host.goes p .reading) ⟨p, .read⟩ = host.goes p (.probing file.inode pid) :=
    moves (by simp only [act, doing_goes, path_goes, path, text, if_neg other])
  have probes : step kind (host.goes p (.probing file.inode pid)) ⟨p, .probe⟩ =
      host.goes p (.removing file.inode) :=
    moves (by simp only [act, doing_goes, alive_goes, if_neg ended])
  -- past it the path is free
  let free : Host P := { host with path := none }
  have removes : step kind (host.goes p (.removing file.inode)) ⟨p, .remove⟩ = free.goes p .opening := by
    rw [step_alive (by rw [alive_goes, alive])]
    simp only [act, doing_goes, path_goes, path, goes_goes]
    rfl
  have runs : free.alive p = true := alive
  have creates : step kind (free.goes p .opening) ⟨p, .create⟩ =
      { free.goes p (.writing free.nextInode) with
        path := some ⟨free.nextInode, p, none⟩, nextInode := free.nextInode + 1 } := by
    rw [step_alive (by rw [alive_goes, runs])]
    simp only [act, doing_goes, path_goes, goes_goes]
    rfl
  rw [takesOver, run_cons, opens, run_cons, fails, run_cons, stats, run_cons, reads, run_cons, probes,
    run_cons, removes, run_cons, creates, run_cons, run_nil]
  have writing : ({ free.goes p (.writing free.nextInode) with
      path := some ⟨free.nextInode, p, none⟩, nextInode := free.nextInode + 1 } : Host P).doing p =
      .writing free.nextInode := doing_goes _
  have living : ({ free.goes p (.writing free.nextInode) with
      path := some ⟨free.nextInode, p, none⟩, nextInode := free.nextInode + 1 } : Host P).alive p =
      true := by
    rw [← runs]
    exact alive_goes _ _
  rw [step_alive living]
  simp only [act, writing]
  exact ⟨(alive_returns true).trans living, handle_returns true⟩

/-- **One live holder per lock**, in every state of every run in which each file that is removed as
stale is the one that was read; nobody removes another holder's file on the way, and a finished file
of a dead process is always taken over. -/
theorem one_live_holder (kind : Kind) (actions : List (Action P))
    (meets : Meets (step kind) (fun host action => still host action = true) Host.start actions) :
    (run (step kind) Host.start actions).OneHolder ∧
      Meets (step kind) (fun host action => ¬Robs host action) Host.start actions ∧
      Reclaimable kind (run (step kind) Host.start actions) := by
  have sound : Sound (run (step kind) Host.start actions) := meets.keeps sound_step sound_start
  refine ⟨fun p q holdsP holdsQ => ?_, meets.grants sound_step (fun _ _ => Sound.robs) sound_start,
    sound.reclaimable⟩
  obtain ⟨file, linked, creator, -⟩ := sound.owns holdsP
  rw [← creator]
  exact (sound.owns holdsQ).creator_eq linked

/-! ### Sample runs -/

/-- A process takes the lock where no file is in its way. -/
def takes (p : P) : List (Action P) := [⟨p, .call⟩, ⟨p, .create⟩, ⟨p, .write⟩]

/-- A process judges the file at the path stale, and removes it only later. -/
def judges (p : P) : List (Action P) := [⟨p, .call⟩, ⟨p, .create⟩, ⟨p, .stat⟩, ⟨p, .read⟩, ⟨p, .probe⟩]

def reclaims (p : P) : List (Action P) := [⟨p, .remove⟩, ⟨p, .create⟩, ⟨p, .write⟩]

/-- The first process crashes with the lock, and the second takes it over. -/
theorem one_live_holder_after_crash : (run (step .broker) Host.start
    (takes 1 ++ [⟨1, .crash⟩] ++ takesOver (2 : Nat))).OneHolder :=
  (one_live_holder .broker _ (by decide)).1

/-- The first process crashes with the lock. The second and the third both read its file and find it
dead; the second removes it and takes the lock, and then the third removes the second one's file and
takes the lock too. -/
def twoReclaimers : List (Action Nat) :=
  takes 1 ++ [⟨1, .crash⟩] ++ judges 2 ++ judges 3 ++ reclaims 2 ++ reclaims 3

/-- **Without the condition** two processes hold the lock. -/
theorem two_reclaimers : ¬(run (step .broker) Host.start twoReclaimers).OneHolder ∧
    ¬(run (step .pid) Host.start twoReclaimers).OneHolder := by
  constructor
  · intro one
    exact absurd (one 2 3 ⟨by decide, by decide⟩ ⟨by decide, by decide⟩) (by decide)
  · intro one
    exact absurd (one 2 3 ⟨by decide, by decide⟩ ⟨by decide, by decide⟩) (by decide)

end Nvoy.Broker.PidLock
