/-
**Installs beside the runner.** An apply links a manifest in and polls the runner's two state files
until they judge it; the runner ticks, hand edits come and go, and all of it interleaves.

* `deployVerdict` — the judgement, from the record, the failed attempt and the Compose file;
* `World`, `step` — the runner, the failed attempt it leaves, and any number of applies;
* `World.Saw` — what a report says of the ticks that ended;
* `World.clear` — the steps under which every report is so.
-/

import Nvoy.Deploy.Runner
import Nvoy.Deploy.Estate

namespace Nvoy.Deploy

open Identity (isId)

/-! ### The judgement -/

/-- An id, as `instanceId` accepts it. -/
abbrev Id := { id : String // isId id = true }

inductive Verdict
  | deployed
  | failed
  | waiting
  deriving DecidableEq

/-- `digest` and `deployed?.[id]`; the failed attempt's text and time; times in microseconds. -/
def deployVerdict (digest : String) (deployed : Option String) (failed : Option (String × ℕ))
    (composeExists : Bool) (installedAt : ℕ) (estate : String) : Verdict :=
  if deployed = some digest ∧ composeExists = true then .deployed
  else match failed with
  | none => .waiting
  | some (attempt, time) =>
    if installedAt ≤ time ∧ (" " ++ estate).toList <:+ attempt.toList then .failed else .waiting

/-! ### The state -/

/-- `FAILED_ATTEMPT.json`, with the release and the digests that its text was made of. -/
structure Failed (C : Type) where
  sha : C
  digests : List (String × String)
  time : ℕ

/-- One install, from its link on. -/
structure Install where
  id : Id
  bytes : String
  installedAt : ℕ
  /-- The step that linked it in. -/
  link : ℕ

/-- What an apply does next. -/
inductive Phase (C : Type)
  | idle
  | linking (id : Id) (bytes : String) (installedAt : ℕ)
  | linked (install : Install)
  | polling (install : Install) (estate : String)
  | sawRecord (install : Install) (estate : String) (deployed : Option String)
  | sawFailed (install : Install) (estate : String) (deployed : Option String)
      (failed : Option (Failed C))
  | failed (install : Install)
  | ours (install : Install)

inductive Ending
  | promoted
  | healthy
  | failed
  deriving DecidableEq

/-- A tick that ended: the identities it verified running, or for a failed one its identity list, and
the step at which it listed them. -/
structure Ended where
  ending : Ending
  ids : List Id
  listed : ℕ

structure Report where
  install : Install
  verdict : Verdict

structure World (P C S : Type) where
  runner : State Id C S
  /-- `attempt` is set. -/
  attempted : Bool
  failed : Option (Failed C)
  /-- Microseconds. -/
  clock : ℕ
  applies : P → Phase C
  /-- The steps so far, and the step at which the running tick listed the identities. -/
  moment : ℕ
  listed : ℕ
  ended : List Ended
  reports : List Report

inductive Op
  | start (id : Id) (bytes : String)
  | link
  | hash
  | readRecord
  | readFailed
  | judge
  | check
  | unlink
  | stop

inductive Act (P C S : Type)
  | runner (action : Action Id C S)
  | fail
  | forget
  | wait (microseconds : ℕ)
  | dropCompose (id : Id)
  | apply (p : P) (op : Op)

/-! ### The steps -/

section Steps

variable {P C S : Type} [DecidableEq P] [DecidableEq C] [DecidableEq S]

/-- The manifests of the instance root. -/
def Host.directory (host : Host Id C S) : Directory :=
  host.manifests.entries.map fun file => (file.1.val ++ ".json", file.2)

/-- `digests`, as the tick holds them. -/
def Tick.items (tick : Tick Id C S) : List (String × String) :=
  tick.names.filterMap fun i => (tick.digests i).map fun digest => (i.val, digest)

/-- How a step of the runner ends a tick's work. -/
def endedBy (tick tick' : Tick Id C S) : Option Ended :=
  match tick.stage, tick'.stage with
  | .writing .manifests, .leaving .deployed => some ⟨.promoted, tick.changed, 0⟩
  | .deciding, .leaving .current | .deciding, .leaving .baseline => some ⟨.healthy, tick.ids, 0⟩
  | _, _ => none

section World

variable (site : Site Id C S) (name : C → String)

/-- `${sha} ${sha256 of the digests}` -/
def Failed.attempt (f : Failed C) : String := name f.sha ++ " " ++ digestsHash site.sha256 f.digests

def World.setPhase (w : World P C S) (p : P) (phase : Phase C) : World P C S :=
  { w with applies := Function.update w.applies p phase }

/-- A step of the runner, with what it ends noted. -/
def World.run (w : World P C S) (action : Action Id C S) : World P C S :=
  let runner := Deploy.step site w.runner action
  match w.runner.tick, runner.tick with
  | some tick, some tick' =>
    { w with
      runner := runner
      attempted := w.attempted || tick'.stage = .checking
      listed := if tick.stage = .listing ∧ tick'.stage = .globbing then w.moment else w.listed
      ended := w.ended ++ ((endedBy tick tick').map fun e => { e with listed := w.listed }).toList }
  | _, _ => { w with runner := runner, attempted := false }

/-- The tick that raised writes its attempt down. -/
def World.fail (w : World P C S) : World P C S :=
  match w.runner.tick with
  | none => w
  | some tick =>
    match tick.stage, tick.sha with
    | .leaving (.raised _), some sha =>
      if w.attempted then
        { w with
          failed := some ⟨sha, tick.items, w.clock⟩
          ended := w.ended ++ [⟨.failed, tick.ids, w.listed⟩] }
      else w
    | _, _ => w

/-- `failed_file.unlink(missing_ok=True)` after the promotion. -/
def World.forget (w : World P C S) : World P C S :=
  if w.runner.tick.any fun tick => tick.stage = .leaving .deployed then { w with failed := none } else w

/-- One step of one apply. -/
def World.apply (w : World P C S) (p : P) (op : Op) : World P C S :=
  let host := w.runner.host
  match op, w.applies p with
  | .start id bytes, .idle => w.setPhase p (.linking id bytes (w.clock / 1000 * 1000))
  | .link, .linking id bytes installedAt =>
    if (host.manifests.get id).isSome then w.setPhase p .idle
    else
      { w.setPhase p (.linked ⟨id, bytes, installedAt, w.moment⟩) with
        runner := { w.runner with host := edited host id (some bytes) } }
  | .hash, .linked install =>
    w.setPhase p (.polling install (estateHash site.sha256 host.directory))
  | .readRecord, .polling install estate =>
    w.setPhase p (.sawRecord install estate (host.recorded.bind fun recorded => recorded install.id))
  | .readFailed, .sawRecord install estate deployed =>
    w.setPhase p (.sawFailed install estate deployed w.failed)
  | .judge, .sawFailed install estate deployed failed =>
    match deployVerdict (site.sha256 install.bytes) deployed
        (failed.map fun f => (f.attempt site name, f.time)) (host.live install.id).isSome
        install.installedAt estate with
    | .deployed =>
      { w.setPhase p .idle with reports := w.reports ++ [⟨install, .deployed⟩] }
    | .failed => w.setPhase p (.failed install)
    | .waiting => w.setPhase p (.polling install estate)
  | .check, .failed install =>
    if (host.manifests.get install.id).any fun bytes => site.sha256 bytes = site.sha256 install.bytes then
      w.setPhase p (.ours install)
    else w.setPhase p .idle
  | .unlink, .ours install =>
    { w.setPhase p .idle with
      runner := { w.runner with host := edited host install.id none }
      reports := w.reports ++ [⟨install, .failed⟩] }
  | .stop, _ => w.setPhase p .idle
  | _, _ => w

def World.act (w : World P C S) : Act P C S → World P C S
  | .runner action => w.run site action
  | .fail => w.fail
  | .forget => w.forget
  | .wait microseconds => { w with clock := w.clock + microseconds }
  | .dropCompose id =>
    { w with runner := { w.runner with
        host := { w.runner.host with live := Function.update w.runner.host.live id none } } }
  | .apply p op => w.apply site name p op

def World.step (w : World P C S) (act : Act P C S) : World P C S :=
  { w.act site name act with moment := w.moment + 1 }

end World

/-- A host with no tick and no apply. -/
def World.idle (host : Host Id C S) : World P C S :=
  ⟨State.idle host, false, none, 0, fun _ => .idle, 0, 0, [], []⟩

/-! ### What a report is about -/

/-- The endings a verdict speaks of. -/
def Verdict.endings : Verdict → List Ending
  | .deployed => [.promoted, .healthy]
  | .failed => [.failed]
  | .waiting => []

/-- A tick that listed the identities after the link, this one among them, ended so. -/
def World.Ends (w : World P C S) (install : Install) (verdict : Verdict) : Prop :=
  ∃ e ∈ w.ended, e.ending ∈ verdict.endings ∧ install.id ∈ e.ids ∧ install.link < e.listed

instance (w : World P C S) (install : Install) (verdict : Verdict) :
    Decidable (w.Ends install verdict) :=
  inferInstanceAs (Decidable (∃ e ∈ w.ended, _))

def World.Saw (w : World P C S) (report : Report) : Prop := w.Ends report.install report.verdict

instance (w : World P C S) (report : Report) : Decidable (w.Saw report) :=
  inferInstanceAs (Decidable (w.Ends _ _))

/-- The tick has yet to take this identity's digest, and has listed the identities. -/
def Tick.awaits (tick : Tick Id C S) (id : Id) : Bool :=
  match tick.stage with
  | .globbing => true
  | .reading rest => id ∈ rest
  | _ => false

/-- What ties a record to the install it is read for. When a manifest is linked in, neither the
record, nor the tick that runs, nor a failure since the clock was read names it with this digest
already, and no tick is between listing the identities and taking its digest; no manifest is put in
by hand while a tick has listed the identities and not yet the digests; and none is edited between
its link and the estate's hash. -/
def World.clear (site : Site Id C S) (w : World P C S) : Act P C S → Bool
  | .runner (.edit id (some _)) =>
      (w.runner.host.manifests.get id).isSome || w.runner.tick.all fun tick => tick.stage ≠ .globbing
  | .apply p .link =>
    match w.applies p with
    | .linking id bytes installedAt =>
      let digest := site.sha256 bytes
      (w.runner.host.manifests.get id).isSome ||
        ((w.runner.host.recorded.all fun recorded => recorded id ≠ some digest) &&
          (w.runner.tick.all fun tick => !tick.awaits id && tick.digests id ≠ some digest) &&
          w.failed.all fun f => (id.val, digest) ∉ f.digests || f.time < installedAt)
    | _ => true
  | .apply p .hash =>
    match w.applies p with
    | .linked install => w.runner.host.manifests.get install.id = some install.bytes
    | _ => true
  | _ => true

end Steps

end Nvoy.Deploy
