/-
**The deploy runner**, as a machine of single steps.

A tick takes the lock directory, asks which release is newest, reads the manifests, compares them
with the recorded digests and, where something is due, moves its own checkout to the release, renders
every identity's Compose file, brings the identities up one after the other, and promotes. A step
that raises unwinds the rest; a kill leaves everything where it is.

* `Host` — the manifests, the Compose files, the services and the runner's state files;
* `Tick` — the locals of one run of `main`, with the stage it has reached;
* `composeUp`, `composeDown` — `docker compose up -d --remove-orphans` and `down`, also cut short;
* `judge` — forward only, current, baseline, or a reconciliation with the identities to recreate;
* `step` — the runner, manifest edits and kills in any order.
-/

import Nvoy.Lib.JsMap
import Mathlib.Data.List.Basic
import Mathlib.Logic.Function.Basic

namespace Nvoy.Deploy

/-- Git, the digest of a manifest, and what the release's image renders and its file names. `older`
is `git merge-base --is-ancestor`. -/
structure Site (I C S : Type) where
  older : C → C → Bool
  sha256 : String → String
  render : String × String → I → String → String
  services : String → List S

/-- A created service: its Compose file, the manifest it read, and how often the manifest had
changed by then. -/
structure Service where
  compose : String
  manifest : Option String
  born : Nat
  deriving DecidableEq

structure Host (I C S : Type) where
  manifests : JsMap I String
  /-- How often each manifest has changed. -/
  edits : I → Nat
  /-- `<id>.compose.yml` in the instance root. -/
  live : I → Option String
  running : I → S → Option Service
  /-- The commit of the deployer's checkout. -/
  head : C
  /-- `DEPLOYED_SHA`, where it holds a commit. -/
  deployed : Option C
  /-- `DEPLOYED_RUNTIME_IMAGE` and `DEPLOYED_WORKER_IMAGE`. -/
  runtimeImage : Option String
  workerImage : Option String
  /-- `DEPLOYED_MANIFESTS.json` -/
  recorded : Option (I → Option String)
  /-- `.deploy-lock` exists. -/
  locked : Bool

/-- How a tick ends; `raised` says whether the promotion had begun. -/
inductive Outcome where
  | current
  | baseline
  | held
  | dry
  | deployed
  | raised (promoting : Bool)
  deriving DecidableEq

/-- The state files, in the order they are written. -/
inductive Record where
  | runtimeImage
  | workerImage
  | sha
  | manifests
  deriving DecidableEq

/-- What the tick does next. -/
inductive Stage (I : Type) where
  | looking
  | listing
  | globbing
  | reading (rest : List I)
  | deciding
  | checking
  | moving
  | pulling
  | staging (rest : List I)
  | rolling (rest : List I)
  | undoing (rest : List I)
  | promoting (rest : List I)
  | writing (next : Record)
  | leaving (outcome : Outcome)
  deriving DecidableEq

structure Tick (I C S : Type) where
  stage : Stage I
  sha : Option C
  /-- `identity_list` -/
  ids : List I
  /-- The manifests that were there when the digests were taken. -/
  names : List I
  digests : I → Option String
  /-- How often each manifest had changed when its digest was taken. -/
  readAt : I → Nat
  recreate : I → Bool
  restoreTo : Option C
  refs : String × String
  staged : I → Option String
  backup : I → Option String
  changed : List I
  /-- The identities for which a rollback command failed. -/
  alarms : List I
  /-- The host as the tick found it. -/
  entry : Host I C S

structure State (I C S : Type) where
  host : Host I C S
  tick : Option (Tick I C S)
  /-- The values of `DEPLOYED_SHA`, newest first. -/
  values : List C
  /-- The commit of the last promotion that ended. -/
  promoted : C
  /-- The checkout could not be put back. -/
  lost : Bool

variable {I C S : Type} [DecidableEq I] [DecidableEq C] [DecidableEq S]

/-! ### Compose -/

section Compose

variable (site : Site I C S) (host : Host I C S)

/-- A service that reads its manifest now. -/
def created (i : I) (text : String) : Service := ⟨text, host.manifests.get i, host.edits i⟩

/-- One service after `up -d --remove-orphans`: an orphan goes, a service of the same file stays
unless it is recreated by force. -/
def serviceUp (i : I) (text : String) (force : Bool) (s : S) : Option Service :=
  if s ∈ site.services text then
    match host.running i s with
    | none => some (created host i text)
    | some service =>
      if service.compose = text ∧ force = false then some service else some (created host i text)
  else none

/-- `up -d`, as far as it got. -/
def composeUp (i : I) (text : String) (force : Bool) (reached : S → Bool) : Host I C S :=
  { host with running := Function.update host.running i fun s =>
      if reached s then serviceUp site host i text force s else host.running i s }

/-- `down`, as far as it got. -/
def composeDown (i : I) (reached : S → Bool) : Host I C S :=
  { host with running := Function.update host.running i fun s =>
      if reached s then none else host.running i s }

/-- `verify_running`: every service that the file names is there. -/
def verified (i : I) (text : String) : Bool :=
  (site.services text).all fun s => (host.running i s).isSome

/-- `verify_running` for every identity on its live file. -/
def allVerified (ids : List I) : Bool :=
  ids.all fun i => (host.live i).any (verified site host i)

end Compose

/-! ### The decision -/

/-- The release to run: forward only, and never off the deployed line. -/
def target (site : Site I C S) (deployed : Option C) (named : C) : Option C :=
  match deployed with
  | none => some named
  | some deployed =>
    if named = deployed ∨ site.older named deployed then some deployed
    else if site.older deployed named then some named
    else none

/-- An exception outside of the rollout's own `try`, in it, or in the promotion. -/
def raised (tick : Tick I C S) : Tick I C S :=
  { tick with stage := match tick.stage with
      | .staging _ | .rolling _ => .undoing tick.changed.reverse
      | .promoting _ | .writing _ => .leaving (.raised true)
      | .undoing rest => .undoing rest
      | .leaving outcome => .leaving outcome
      | _ => .leaving (.raised false) }

/-- The identities whose manifest is not the recorded one. -/
def changedFrom (recorded : Option (I → Option String)) (digests : I → Option String) (i : I) :
    Bool :=
  recorded.any fun recorded => (digests i).isSome && recorded i ≠ digests i

def judge (site : Site I C S) (state : State I C S) (tick : Tick I C S) (named : C)
    (healthy : Bool) : State I C S :=
  let host := state.host
  match target site host.deployed named with
  | none => { state with tick := some (raised tick) }
  | some sha =>
    if host.deployed = some sha then
      if healthy = true ∧ host.recorded = none then
        { state with
          host := { host with recorded := some tick.digests }
          tick := some { tick with sha := some sha, stage := .leaving .baseline } }
      else
        let recreate := changedFrom host.recorded tick.digests
        let stage := if healthy = true ∧ ∀ i ∈ tick.names, recreate i = false then
          .leaving .current else .checking
        { state with tick := some { tick with sha := some sha, stage := stage, recreate := recreate } }
    else { state with tick := some { tick with sha := some sha, stage := .checking } }

/-! ### The machine -/

inductive Action (I C S : Type) where
  | start
  | lookup (sha : C)
  | list (ids : List I)
  | glob (names : List I)
  | read
  | decide (healthy : Bool)
  | hold
  | check
  | move (moved worked : Bool)
  | pull (runtime worker : String)
  | dryRun
  | stage
  | up (reached : S → Bool) (worked : Bool)
  | undo (reached : S → Bool) (worked : Bool)
  | promote
  | write
  | leave (restored : Bool)
  | raises
  | kill
  | edit (i : I) (manifest : Option String)

/-- `ROOT.glob("*.json")`, in the order of the names. -/
def Lists (host : Host I C S) (ids : List I) : Prop :=
  (∀ i ∈ ids, i ∈ host.manifests.keys) ∧ ∀ i ∈ host.manifests.keys, i ∈ ids

instance (host : Host I C S) (ids : List I) : Decidable (Lists host ids) :=
  inferInstanceAs (Decidable (_ ∧ _))

/-- The locals of a tick that has just taken the lock. -/
def Tick.fresh (host : Host I C S) : Tick I C S where
  stage := .looking
  sha := none
  ids := []
  names := []
  digests _ := none
  readAt _ := 0
  recreate _ := false
  restoreTo := none
  refs := ("", "")
  staged _ := none
  backup _ := none
  changed := []
  alarms := []
  entry := host

/-- One step of the tick that is running. -/
def advance (site : Site I C S) (state : State I C S) (tick : Tick I C S) :
    Action I C S → State I C S
  | .lookup sha =>
    if tick.stage = .looking then
      { state with tick := some { tick with sha := some sha, stage := .listing } }
    else state
  | .list ids =>
    if tick.stage = .listing ∧ ids ≠ [] ∧ Lists state.host ids then
      { state with tick := some { tick with ids := ids, stage := .globbing } }
    else state
  | .glob names =>
    if tick.stage = .globbing ∧ Lists state.host names then
      { state with tick := some { tick with names := names, stage := .reading names } }
    else state
  | .read =>
    match tick.stage with
    | .reading [] => { state with tick := some { tick with stage := .deciding } }
    | .reading (i :: rest) =>
      match state.host.manifests.get i with
      | none => { state with tick := some (raised tick) }
      | some manifest => { state with tick := some { tick with
          digests := Function.update tick.digests i (some (site.sha256 manifest))
          readAt := Function.update tick.readAt i (state.host.edits i)
          stage := .reading rest } }
    | _ => state
  | .decide healthy =>
    match tick.stage, tick.sha with
    | .deciding, some named =>
      if healthy = true ∧ allVerified site state.host tick.ids = false then state
      else judge site state tick named healthy
    | _, _ => state
  | .hold =>
    if tick.stage = .checking then
      { state with tick := some { tick with stage := .leaving .held } }
    else state
  | .check =>
    if tick.stage = .checking then { state with tick := some { tick with stage := .moving } }
    else state
  | .move moved worked =>
    match tick.stage, tick.sha with
    | .moving, some sha =>
      let tick := { tick with restoreTo := some state.host.head }
      { state with
        host := { state.host with head := if moved ∨ worked then sha else state.host.head }
        tick := some (if worked then { tick with stage := .pulling } else raised tick) }
    | _, _ => state
  | .pull runtime worker =>
    if tick.stage = .pulling then
      { state with tick := some { tick with refs := (runtime, worker), stage := .staging tick.ids } }
    else state
  | .dryRun =>
    if tick.stage = .pulling then { state with tick := some { tick with stage := .leaving .dry } }
    else state
  | .stage =>
    match tick.stage with
    | .staging [] => { state with tick := some { tick with stage := .rolling tick.ids } }
    | .staging (i :: rest) =>
      match state.host.manifests.get i with
      | none => { state with tick := some (raised tick) }
      | some manifest => { state with tick := some { tick with
          staged := Function.update tick.staged i (some (site.render tick.refs i manifest))
          stage := .staging rest } }
    | _ => state
  | .up reached worked =>
    match tick.stage with
    | .rolling [] => { state with tick := some { tick with stage := .promoting tick.ids } }
    | .rolling (i :: rest) =>
      let text := (tick.staged i).getD ""
      -- The attempt is recorded before the command, so that the rollback includes it.
      let tick := { tick with
        backup := Function.update tick.backup i (state.host.live i)
        changed := tick.changed ++ [i] }
      { state with
        host := composeUp site state.host i text (tick.recreate i) fun s => worked || reached s
        tick := some (if worked then { tick with stage := .rolling rest } else raised tick) }
    | _ => state
  | .undo reached worked =>
    match tick.stage with
    | .undoing [] => { state with tick := some { tick with stage := .leaving (.raised false) } }
    | .undoing (i :: rest) =>
      { state with
        host := match tick.backup i with
          | some old => composeUp site state.host i old false fun s => worked || reached s
          | none => composeDown state.host i fun s => worked || reached s
        tick := some { tick with
          stage := .undoing rest
          alarms := if worked then tick.alarms else i :: tick.alarms } }
    | _ => state
  | .promote =>
    match tick.stage with
    | .promoting [] => { state with tick := some { tick with stage := .writing .runtimeImage } }
    | .promoting (i :: rest) =>
      { state with
        host := { state.host with live := Function.update state.host.live i (tick.staged i) }
        tick := some { tick with stage := .promoting rest } }
    | _ => state
  | .write =>
    let host := state.host
    match tick.stage, tick.sha with
    | .writing .runtimeImage, _ => { state with
        host := { host with runtimeImage := some tick.refs.1 }
        tick := some { tick with stage := .writing .workerImage } }
    | .writing .workerImage, _ => { state with
        host := { host with workerImage := some tick.refs.2 }
        tick := some { tick with stage := .writing .sha } }
    | .writing .sha, some sha => { state with
        host := { host with deployed := some sha }
        values := sha :: state.values
        tick := some { tick with stage := .writing .manifests } }
    | .writing .manifests, _ => { state with
        host := { host with recorded := some tick.digests }
        tick := some { tick with restoreTo := none, stage := .leaving .deployed } }
    | _, _ => state
  | .leave restored =>
    match tick.stage with
    | .leaving outcome =>
      -- `if restore_to and restore_to != sha`
      let back := tick.restoreTo.filter fun back => tick.sha ≠ some back
      { state with
        host := { state.host with
          head := if restored then back.getD state.host.head else state.host.head
          locked := false }
        promoted := if outcome = .deployed then tick.sha.getD state.promoted else state.promoted
        lost := if outcome = .deployed then false else state.lost || (back.isSome && !restored)
        tick := none }
    | _ => state
  | .raises => { state with tick := some (raised tick) }
  | .kill => { state with tick := none }
  | .start | .edit _ _ => state

/-- A manifest is written, or removed. -/
def edited (host : Host I C S) (i : I) (manifest : Option String) : Host I C S :=
  { host with
    manifests := match manifest with
      | some manifest => host.manifests.set i manifest
      | none => host.manifests.delete i
    edits := Function.update host.edits i (host.edits i + 1) }

def step (site : Site I C S) (state : State I C S) : Action I C S → State I C S
  | .edit i manifest => { state with host := edited state.host i manifest }
  | .start =>
    if state.tick.isSome = true ∨ state.host.locked = true then state
    else { state with
      host := { state.host with locked := true }
      tick := some (Tick.fresh state.host) }
  | action =>
    match state.tick with
    | none => state
    | some tick => advance site state tick action

/-- A host no tick is running on. -/
def State.idle (host : Host I C S) : State I C S :=
  ⟨host, none, host.deployed.toList, host.head, false⟩

end Nvoy.Deploy
