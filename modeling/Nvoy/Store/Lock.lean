/-
**The exclusive store lock.** Any number of processes call `acquireStoreLock` and `release`; every
file operation of theirs is a step of its own, and a process can crash between any two.

* `step` — the host's next state: exclusive create, write of the pid, read, kill probe, removal;
* `Owned` — what holds as long as no running process's lock file is removed as stale: whoever is
  between its create and its release owns the file at the lock path;
* `one_holder` — then at most one running process holds the lock and a release removes only its own
  file;
* `two_holders` — without that condition: a file read between its creation and the write of its pid
  counts as stale, and two processes hold the lock.
-/

import Nvoy.Lib.Runs
import Mathlib.Data.Finset.Attr
import Mathlib.Tactic.Cases

namespace Nvoy.Store.Lock

open Nvoy.Runs

/-! ### The host -/

/-- A process id: what `Number.isSafeInteger(pid) && pid > 0` lets through. -/
structure Pid where
  val : Nat
  positive : 0 < val
  safe : val ≤ 9007199254740991
deriving DecidableEq

/-- A lock file. Its text is empty from the exclusive create until the pid is written. -/
structure LockFile where
  inode : Nat
  creator : Pid
  text : Option Pid
deriving DecidableEq

/-- Where a process stands in `acquireStoreLock` (with the number of the attempt) or `release`. -/
inductive Doing where
  | idle
  | opening (attempt : Nat)
  | writing (fd : Nat)
  | reading (attempt : Nat)
  | probing (attempt : Nat) (pid : Option Pid)
  | removing (attempt : Nat)
  | releasing
  | unlinking
deriving DecidableEq

structure Process where
  alive : Bool
  doing : Doing
  /-- Between a successful `acquireStoreLock` and the end of its release. -/
  handle : Bool
deriving DecidableEq

/-- The lock path and the processes. A file whose name was removed is read by nobody, so only the
file at the path is kept. -/
structure Host where
  path : Option LockFile
  nextInode : Nat
  process : Pid → Process

/-- No lock file, and every process about its other business. -/
def Host.start : Host := ⟨none, 0, fun _ => ⟨true, .idle, false⟩⟩

namespace Host

variable (host : Host) (p : Pid)

def doing : Doing := (host.process p).doing
def alive : Bool := (host.process p).alive
def handle : Bool := (host.process p).handle

def become (process : Process) : Host :=
  { host with process := Function.update host.process p process }

/-- The process goes on to its next operation. -/
def goes (doing : Doing) : Host := host.become p { host.process p with doing }

/-- The call or the release is over; the process has a handle or not. -/
def returns (handle : Bool) : Host := host.become p { host.process p with doing := .idle, handle }

def crashes : Host := host.become p { host.process p with alive := false }

/-- `process.kill(pid, 0)` on what was read: an empty file's pid is 0, which is not a process. -/
def probe : Option Pid → Bool
  | none => false
  | some pid => host.alive pid

end Host

/-! ### One step -/

/-- The file operations of a process, the two calls that start them, and its end. -/
inductive Operation where
  | call
  | create
  | write
  | read
  | probe
  | remove
  | release
  | readBack
  | unlink
  | crash
deriving DecidableEq

structure Action where
  pid : Pid
  operation : Operation

/-- What a running process does. A call that throws leaves it idle and without a handle of it. -/
def act (host : Host) (p : Pid) : Operation → Host
  | .call => if host.doing p = .idle then host.goes p (.opening 0) else host
  | .create =>
    match host.doing p, host.path with
    | .opening _, none =>
      { host.goes p (.writing host.nextInode) with
        path := some ⟨host.nextInode, p, none⟩, nextInode := host.nextInode + 1 }
    | .opening attempt, some _ => host.goes p (.reading attempt)
    | _, _ => host
  | .write =>
    match host.doing p with
    | .writing fd =>
      { host.returns p true with
        path := host.path.map fun file =>
          if file.inode = fd then { file with text := some p } else file }
    | _ => host
  | .read =>
    match host.doing p, host.path with
    -- readFileSync throws ENOENT out of the call
    | .reading _, none => host.goes p .idle
    | .reading attempt, some file => host.goes p (.probing attempt file.text)
    | _, _ => host
  | .probe =>
    match host.doing p with
    | .probing attempt pid =>
      if host.probe pid then host.goes p .idle else host.goes p (.removing attempt)
    | _ => host
  | .remove =>
    match host.doing p with
    | .removing attempt =>
      { host.goes p (if attempt + 1 < 2 then .opening (attempt + 1) else .idle) with path := none }
    | _ => host
  | .release => if host.doing p = .idle ∧ host.handle p then host.goes p .releasing else host
  | .readBack =>
    match host.doing p with
    | .releasing =>
      if host.path.bind LockFile.text = some p then host.goes p .unlinking
      else host.returns p false
    | _ => host
  | .unlink =>
    match host.doing p with
    | .unlinking => { host.returns p false with path := none }
    | _ => host
  | .crash => host.crashes p

/-- One operation of one process; a crashed process does nothing more. -/
def step (host : Host) (action : Action) : Host :=
  if host.alive action.pid then act host action.pid action.operation else host

/-! ### Who owns the lock file -/

/-- A process between a successful `acquireStoreLock` and the end of its release. -/
def Host.Holds (host : Host) (p : Pid) : Prop := host.alive p ∧ host.handle p

/-- A lock file that is removed as stale is not that of a running process. -/
def settled (host : Host) (action : Action) : Bool :=
  match action.operation, host.doing action.pid, host.path with
  | .remove, .removing _, some file => !host.alive file.creator
  | _, _, _ => true

/-- A running process with the descriptor or the handle of a lock file owns the file at the path. -/
structure Owned (host : Host) : Prop where
  writes : ∀ p fd, host.alive p → host.doing p = .writing fd →
    ∃ file ∈ host.path, file.inode = fd ∧ file.creator = p
  holds : ∀ p, host.alive p → host.handle p →
    ∃ file ∈ host.path, file.creator = p ∧ file.text = some p
  releases : ∀ p, host.doing p = .releasing ∨ host.doing p = .unlinking → host.handle p

/-- **What one process's step leaves of the invariant.** The others keep their file if it is not
that of the process itself; what the process does next is shown by the operation. -/
theorem Owned.of_become {host host' : Host} {p : Pid} {process : Process} (owned : Owned host)
    (same : host'.process = Function.update host.process p process)
    (others : ∀ file ∈ host.path, host.alive file.creator → file.creator ≠ p → file ∈ host'.path)
    (writes : ∀ fd, process.alive → process.doing = .writing fd →
      ∃ file ∈ host'.path, file.inode = fd ∧ file.creator = p)
    (holds : process.alive → process.handle →
      ∃ file ∈ host'.path, file.creator = p ∧ file.text = some p)
    (releases : process.doing = .releasing ∨ process.doing = .unlinking → process.handle) :
    Owned host' := by
  have own : host'.process p = process := by rw [same, Function.update_self]
  have other : ∀ q, q ≠ p → host'.process q = host.process q := by
    intro q differ
    rw [same, Function.update_of_ne differ]
  constructor
  · intro q fd alive doing
    by_cases same : q = p
    · subst same
      apply writes fd
      · rw [← own]; exact alive
      · rw [← own]; exact doing
    · simp only [Host.alive, Host.doing, other q same] at alive doing
      obtain ⟨file, linked, inode, creator⟩ := owned.writes q fd alive doing
      refine ⟨file, others file linked ?_ ?_, inode, creator⟩
      · rw [creator]; exact alive
      · rw [creator]; exact same
  · intro q alive handle
    by_cases same : q = p
    · subst same
      apply holds
      · rw [← own]; exact alive
      · rw [← own]; exact handle
    · simp only [Host.alive, Host.handle, other q same] at alive handle
      obtain ⟨file, linked, creator, text⟩ := owned.holds q alive handle
      refine ⟨file, others file linked ?_ ?_, creator, text⟩
      · rw [creator]; exact alive
      · rw [creator]; exact same
  · intro q doing
    by_cases same : q = p
    · subst same
      simp only [Host.handle, Host.doing, own] at doing ⊢
      exact releases doing
    · simp only [Host.handle, Host.doing, other q same] at doing ⊢
      exact owned.releases q doing

/-- A step between two operations that touch no file, and neither takes nor gives the lock. -/
theorem Owned.goes {host : Host} {p : Pid} {doing : Doing} (owned : Owned host)
    (alive : host.alive p) (reads : ∀ fd, doing ≠ .writing fd)
    (releases : doing = .releasing ∨ doing = .unlinking → host.handle p) :
    Owned (host.goes p doing) := by
  apply owned.of_become rfl
  · intro file linked _ _
    exact linked
  · intro fd _ writing
    exact absurd writing (reads fd)
  · intro _ handle
    exact owned.holds p alive handle
  · exact releases

/-- The file at the path is that of the process that holds the lock, or writes its pid. -/
theorem Owned.creator_eq {host : Host} {p : Pid} (owned : Owned host) (alive : host.alive p)
    (handle : host.handle p) {file : LockFile} (linked : file ∈ host.path) : file.creator = p := by
  obtain ⟨own, ownLinked, creator, -⟩ := owned.holds p alive handle
  rw [Option.mem_def] at linked ownLinked
  rw [linked, Option.some.injEq] at ownLinked
  rw [ownLinked]
  exact creator

section Operations

variable {host : Host} {p : Pid}

/-- The exclusive create succeeds only where no file is, so nobody else owns one. -/
theorem Owned.create (owned : Owned host) (alive : host.alive p) : Owned (act host p .create) := by
  simp only [act]
  split
  next attempt opening missing =>
    apply owned.of_become rfl
    · intro file linked
      rw [missing] at linked
      exact absurd linked (Option.not_mem_none file)
    · intro fd _ writing
      exact ⟨_, rfl, Doing.writing.inj writing, rfl⟩
    · intro _ handle
      obtain ⟨file, linked, -⟩ := owned.holds p alive handle
      rw [missing] at linked
      exact absurd linked (Option.not_mem_none file)
    · intro doing
      exact absurd doing (by simp)
  next attempt file opening linked =>
    exact owned.goes alive (by simp) (by simp)
  next => exact owned

/-- The pid goes into the file the process created, which is the one at the path. -/
theorem Owned.write (owned : Owned host) (alive : host.alive p) : Owned (act host p .write) := by
  simp only [act]
  split
  next fd writing =>
    obtain ⟨file, linked, inode, creator⟩ := owned.writes p fd alive writing
    have written : host.path.map (fun file =>
        if file.inode = fd then { file with text := some p } else file) =
        some { file with text := some p } := by
      rw [Option.mem_def.mp linked, Option.map_some, if_pos inode]
    apply owned.of_become rfl
    · intro other otherLinked _ differ
      rw [Option.mem_def.mp linked, Option.mem_def, Option.some.injEq] at otherLinked
      rw [← otherLinked] at differ
      exact absurd creator differ
    · intro fd' _ idle
      exact absurd idle (by simp)
    · intro _ _
      exact ⟨_, written, creator, rfl⟩
    · intro doing
      exact absurd doing (by simp)
  next => exact owned

theorem Owned.read (owned : Owned host) (alive : host.alive p) : Owned (act host p .read) := by
  simp only [act]
  split
  next => exact owned.goes alive (by simp) (by simp)
  next => exact owned.goes alive (by simp) (by simp)
  next => exact owned

theorem Owned.probe (owned : Owned host) (alive : host.alive p) : Owned (act host p .probe) := by
  simp only [act]
  split
  next =>
    split
    next => exact owned.goes alive (by simp) (by simp)
    next => exact owned.goes alive (by simp) (by simp)
  next => exact owned

/-- The step the condition is about: what is removed as stale is no running process's file. -/
theorem Owned.remove (owned : Owned host) (alive : host.alive p)
    (stale : settled host ⟨p, .remove⟩) : Owned (act host p .remove) := by
  simp only [act]
  split
  next attempt removing =>
    have dead : ∀ file ∈ host.path, host.alive file.creator = false := by
      intro file linked
      rw [Option.mem_def] at linked
      simpa [settled, removing, linked] using stale
    apply owned.of_become rfl
    · intro file linked running _
      rw [dead file linked] at running
      exact absurd running (by simp)
    · intro fd _ writing
      exact absurd writing (by split <;> simp)
    · intro _ handle
      obtain ⟨file, linked, creator, -⟩ := owned.holds p alive handle
      have gone := dead file linked
      rw [creator, alive] at gone
      exact absurd gone (by simp)
    · intro doing
      exact absurd doing (by split <;> simp)
  next => exact owned

theorem Owned.readBack (owned : Owned host) (alive : host.alive p) :
    Owned (act host p .readBack) := by
  simp only [act]
  split
  next releasing =>
    split
    next => exact owned.goes alive (by simp) (fun _ => owned.releases p (.inl releasing))
    next =>
      apply owned.of_become rfl
      · intro file linked _ _
        exact linked
      · intro fd _ idle
        exact absurd idle (by simp)
      · intro _ handle
        exact absurd handle (by simp)
      · intro doing
        exact absurd doing (by simp)
  next => exact owned

/-- A release removes the process's own file. -/
theorem Owned.unlink (owned : Owned host) (alive : host.alive p) :
    Owned (act host p .unlink) := by
  simp only [act]
  split
  next unlinking =>
    have handle : host.handle p := owned.releases p (.inr unlinking)
    apply owned.of_become rfl
    · intro file linked _ differ
      exact absurd (owned.creator_eq alive handle linked) differ
    · intro fd _ idle
      exact absurd idle (by simp)
    · intro _ handle
      exact absurd handle (by simp)
    · intro doing
      exact absurd doing (by simp)
  next => exact owned

theorem Owned.crash (owned : Owned host) : Owned (act host p .crash) := by
  apply owned.of_become rfl
  · intro file linked _ _
    exact linked
  · intro fd running
    exact absurd running (by simp)
  · intro running
    exact absurd running (by simp)
  · exact owned.releases p

end Operations

/-- Every operation under the condition keeps the invariant. -/
theorem owned_step (host : Host) (action : Action) (owned : Owned host)
    (meets : settled host action) : Owned (step host action) := by
  obtain ⟨p, operation⟩ := action
  unfold step
  split
  next alive =>
    cases operation with
    | call =>
      simp only [act]
      split
      next => exact owned.goes alive (by simp) (by simp)
      next => exact owned
    | create => exact owned.create alive
    | write => exact owned.write alive
    | read => exact owned.read alive
    | probe => exact owned.probe alive
    | remove => exact owned.remove alive meets
    | release =>
      simp only [act]
      split
      next ready => exact owned.goes alive (by simp) (fun _ => ready.2)
      next => exact owned
    | readBack => exact owned.readBack alive
    | unlink => exact owned.unlink alive
    | crash => exact owned.crash
  next => exact owned

theorem owned_start : Owned Host.start := by
  constructor
  · intro p fd _ writing
    exact absurd writing (by simp [Host.start, Host.doing])
  · intro p _ handle
    exact absurd handle (by simp [Host.start, Host.handle])
  · intro p doing
    exact absurd doing (by simp [Host.start, Host.doing])

/-! ### Mutual exclusion -/

/-- At most one running process holds the lock, and the file that a release is about to remove is
the releasing process's own. -/
structure Host.Exclusive (host : Host) : Prop where
  one : ∀ p q, host.Holds p → host.Holds q → p = q
  own : ∀ p, host.alive p → host.doing p = .unlinking → ∀ file ∈ host.path, file.creator = p

/-- **Mutual exclusion of the store lock**, in every state of every run in which no running
process's lock file is removed as stale. -/
theorem one_holder (actions : List Action)
    (meets : Meets step (fun host action => settled host action) Host.start actions) :
    (run step Host.start actions).Exclusive := by
  have owned : Owned (run step Host.start actions) := meets.keeps owned_step owned_start
  constructor
  · intro p q holdsP holdsQ
    obtain ⟨file, linked, creator, -⟩ := owned.holds p holdsP.1 holdsP.2
    rw [← creator]
    exact owned.creator_eq holdsQ.1 holdsQ.2 linked
  · intro p alive unlinking file linked
    exact owned.creator_eq alive (owned.releases p (.inr unlinking)) linked

/-! ### The two processes of a sample run -/

def pidOne : Pid := ⟨1, by decide, by decide⟩
def pidTwo : Pid := ⟨2, by decide, by decide⟩

/-- A process takes the lock where no file is in its way. -/
def takes (p : Pid) : List Action := [⟨p, .call⟩, ⟨p, .create⟩, ⟨p, .write⟩]

/-- A process meets a lock file, judges it stale, removes it and takes the lock. -/
def takesOver (p : Pid) : List Action :=
  [⟨p, .call⟩, ⟨p, .create⟩, ⟨p, .read⟩, ⟨p, .probe⟩, ⟨p, .remove⟩, ⟨p, .create⟩, ⟨p, .write⟩]

/-- The first process crashes with the lock, the second takes over and releases. -/
theorem one_holder_after_crash :
    Meets step (fun host action => settled host action) Host.start
        (takes pidOne ++ [⟨pidOne, .crash⟩] ++ takesOver pidTwo ++ [⟨pidTwo, .release⟩]) ∧
      (run step Host.start
        (takes pidOne ++ [⟨pidOne, .crash⟩] ++ takesOver pidTwo ++ [⟨pidTwo, .release⟩])).Exclusive :=
  ⟨by decide, one_holder _ (by decide)⟩

/-- **Without the condition.** The second process reads the first one's file between its creation
and the write of its pid, takes it for stale and removes it; both hold the lock then. -/
theorem two_holders :
    ¬ (run step Host.start
        ([⟨pidOne, .call⟩, ⟨pidOne, .create⟩] ++ takesOver pidTwo ++ [⟨pidOne, .write⟩])).Exclusive := by
  intro exclusive
  have same : pidOne = pidTwo := exclusive.one pidOne pidTwo ⟨by decide, by decide⟩ ⟨by decide, by decide⟩
  exact absurd same (by decide)

end Nvoy.Store.Lock
