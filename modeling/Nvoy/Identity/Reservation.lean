/-
**Blocks are reserved before they are installed.** Any number of processes run `applyStaged`, and identities are
retired; each file operation of `reserveBlock` is a step of its own, any of them may fail, a process may die
between any two, and the append to the record may be cut at any character.

* `step` — the host's next state;
* `Sound` — the lock is its holder's, the record holds every block that was reserved while it can be read, and no
  two of these share a number that did not at the start;
* `numbers_apart` — so two installed blocks of different ids share a number only where both were installed at the
  start; what is handed out is above everything installed; and the audit finds exactly the shared numbers;
* `shared_from_start` — two blocks that share a number at the start still do.
-/

import Mathlib.Logic.Function.Basic
import Nvoy.Identity.BlockRecord
import Nvoy.Lib.Runs

set_option linter.unusedSectionVars false

namespace Nvoy.Identity

open Runs

/-! ### The host -/

/-- Where a process stands in `applyStaged`: which operation is next. -/
inductive Doing where
  | idle
  /-- Created the lock, and writes its pid. -/
  | opened (b : Block)
  /-- Reads the record. -/
  | locked (b : Block)
  /-- Found no clash, and opens the record. -/
  | clear (b : Block)
  | appending (b : Block)
  | syncing (b : Block)
  /-- Closes and removes the lock; `ok` is what it answers. -/
  | ending (b : Block) (ok : Bool)
  /-- Reserved the block, and links the manifest. -/
  | reserved (b : Block)

/-- The lock file: absent, its creator's, or left by a process that is gone. -/
inductive Lock (P : Type) where
  | free
  | held (p : P)
  | stale

structure Host (P : Type) where
  /-- `identity-blocks.jsonl`; empty where there is none. -/
  record : List Char := []
  lock : Lock P := .free
  /-- The manifests in the instance root. -/
  root : List Block := []
  doing : P → Doing := fun _ => .idle
  /-- Every block ever installed. -/
  installed : List Block := []
  /-- Every block that was found in the record or appended to it before an install, and those of the start. -/
  recorded : List Block := []

inductive Outcome where
  | done
  | fails
  | dies
  deriving DecidableEq

inductive Operation where
  | apply (b : Block)
  /-- The operation it stands at ends so. -/
  | next (outcome : Outcome)
  /-- The write to the record, and how much of it is written; a write that is done wrote something. -/
  | write (count : Nat) (now : Int) (outcome : Outcome)

inductive Action (P : Type) where
  | act (p : P) (operation : Operation)
  /-- A manifest is removed: an identity is retired, or withdrawn. -/
  | retire (id : String)
  /-- The operator removes a lock that nobody holds. -/
  | unlock

variable {P : Type} [DecidableEq P]

def Host.goes (host : Host P) (p : P) (doing : Doing) : Host P :=
  { host with doing := Function.update host.doing p doing }

/-- A process that is gone; a lock it holds stays. -/
def Host.gone (host : Host P) (p : P) : Host P :=
  { host.goes p .idle with lock := match host.lock with
    | .held _ => .stale
    | lock => lock }

/-- The record is read and judged. -/
def Host.judges (host : Host P) (p : P) (b : Block) : Host P :=
  match parseBlockRecord host.record with
  | .error _ => host.goes p (.ending b false)
  | .ok record =>
      if !(recordedClashes record b.manifest).isEmpty then host.goes p (.ending b false)
      else if record.any (·.isOf b.manifest) then { host.goes p (.ending b true) with recorded := b :: host.recorded }
      else host.goes p (.clear b)

/-- The line of a block is appended, as far as it goes. -/
def Host.appends (host : Host P) (b : Block) (count : Nat) (now : Int) : Host P :=
  { host with record := host.record ++ (recordLine b now).take count }

/-- The manifest is linked, unless there is one of its name. -/
def Host.links (host : Host P) (p : P) (b : Block) : Host P :=
  if host.root.any (·.id = b.id) then host.goes p .idle
  else { host.goes p .idle with root := host.root ++ [b], installed := b :: host.installed }

def act (host : Host P) (p : P) (operation : Operation) : Host P :=
  match host.doing p, operation with
  | .idle, .apply b =>
      match host.lock with
      | .free => { host.goes p (.opened b) with lock := .held p }
      -- a held lock refuses
      | _ => host
  | .opened b, .next .done => host.goes p (.locked b)
  | .opened b, .next .fails => host.goes p (.ending b false)
  | .opened _, .next .dies => host.gone p
  | .locked b, .next .done => host.judges p b
  | .locked b, .next .fails => host.goes p (.ending b false)
  | .locked _, .next .dies => host.gone p
  | .clear b, .next .done => host.goes p (.appending b)
  | .clear b, .next .fails => host.goes p (.ending b false)
  | .clear _, .next .dies => host.gone p
  | .appending b, .write count now .done =>
      { (host.appends b (max 1 count) now).goes p (.syncing b) with recorded := b :: host.recorded }
  | .appending b, .write count now .fails => (host.appends b count now).goes p (.ending b false)
  | .appending b, .write count now .dies => (host.appends b count now).gone p
  | .syncing b, .next .done => host.goes p (.ending b true)
  | .syncing b, .next .fails => host.goes p (.ending b false)
  | .syncing _, .next .dies => host.gone p
  | .ending b ok, .next .done => { host.goes p (if ok then .reserved b else .idle) with lock := .free }
  -- the lock cannot be removed: the call ends, and it stays
  | .ending _ _, .next .fails => host.gone p
  | .ending _ _, .next .dies => host.gone p
  | .reserved b, .next .done => host.links p b
  | .reserved _, .next _ => host.goes p .idle
  | _, _ => host

def step (host : Host P) : Action P → Host P
  | .act p operation => act host p operation
  | .retire id => { host with root := host.root.filter fun b => b.id ≠ id }
  | .unlock => { host with lock := match host.lock with
    | .stale => .free
    | lock => lock }

/-! ### What every state keeps -/

/-- Between the creation of the lock and its removal. -/
def Doing.holds : Doing → Bool
  | .idle => false
  | .reserved _ => false
  | _ => true

/-- Where a process that goes on to append stands, the record can be read and has no clash; where it goes on to
install, the block was recorded. -/
def Stands (host : Host P) : Doing → Prop
  | .clear b => ∃ record, parseBlockRecord host.record = .ok record ∧ recordedClashes record b.manifest = []
  | .appending b => ∃ record, parseBlockRecord host.record = .ok record ∧ recordedClashes record b.manifest = []
  | .syncing b => b ∈ host.recorded
  | .ending b true => b ∈ host.recorded
  | .reserved b => b ∈ host.recorded
  | _ => True

structure Sound (start : List Block) (host : Host P) : Prop where
  lock : ∀ p, (host.doing p).holds = true → host.lock = .held p
  kept : ∀ record, parseBlockRecord host.record = .ok record → ∀ b ∈ host.recorded, b ∈ record
  apart : ∀ b ∈ host.recorded, ∀ b' ∈ host.recorded, b.id ≠ b'.id → Shares b.manifest b'.manifest →
    b ∈ start ∧ b' ∈ start
  stands : ∀ p, Stands host (host.doing p)
  installed : ∀ b ∈ host.installed, b ∈ host.recorded
  live : ∀ b ∈ host.root, b ∈ host.installed
  distinct : (host.root.map (·.id)).Nodup

/-! ### Clashes -/

section Clashes

variable {e b : Block} {m : Manifest} {record : List Block}

theorem mem_roles (f : Field) : f ∈ f.kind.roles := by
  cases f <;> decide

theorem kind_of_role {kind : Kind} {f : Field} (role : f ∈ kind.roles) : f.kind = kind := by
  cases kind <;> cases f <;> first | rfl | (exact absurd role (by decide))

theorem clashes_iff : clashes e m = true ↔ Shares e.manifest m := by
  unfold clashes
  have each : ∀ kind, ((occupiedNumbers [e.manifest] kind).any fun value => decide (value ∈ occupiedNumbers [m] kind)) = true ↔
      ∃ f ∈ kind.roles, ∃ f' ∈ kind.roles, ∃ value, e.manifest.number f = some value ∧ m.number f' = some value := by
    intro kind
    simp only [List.any_eq_true, decide_eq_true_eq, mem_occupied, List.mem_singleton, exists_eq_left]
    constructor
    · rintro ⟨value, ⟨f, role, there⟩, f', role', there'⟩
      exact ⟨f, role, f', role', value, there, there'⟩
    · rintro ⟨f, role, f', role', value, there, there'⟩
      exact ⟨value, ⟨f, role, there⟩, f', role', there'⟩
  rw [List.any_eq_true]
  constructor
  · rintro ⟨kind, -, shared⟩
    obtain ⟨f, role, f', role', value, there, there'⟩ := (each kind).mp shared
    exact ⟨f, f', value, (kind_of_role role).trans (kind_of_role role').symm, there, there'⟩
  · rintro ⟨f, f', value, kinds, there, there'⟩
    refine ⟨f.kind, by cases f.kind <;> decide, (each f.kind).mpr ⟨f, mem_roles f, f', ?_, value, there, there'⟩⟩
    rw [kinds]
    exact mem_roles f'

theorem Shares.symm {m m' : Manifest} (shares : Shares m m') : Shares m' m := by
  obtain ⟨f, f', value, kinds, mine, theirs⟩ := shares
  exact ⟨f', f, value, kinds.symm, theirs, mine⟩

theorem isOf_iff : e.isOf b.manifest = true ↔ e = b := by
  unfold Block.isOf Block.manifest
  simp only [Bool.and_eq_true, decide_eq_true_eq, List.all_eq_true, Option.some.injEq]
  constructor
  · rintro ⟨id, numbers⟩
    exact Block.ext id (funext fun f => (numbers f (mem_numericFields f)).symm)
  · rintro rfl
    exact ⟨rfl, fun _ _ => rfl⟩

/-- Without a clash, a number is shared with the same id's own blocks only. -/
theorem apart_of_clear (clear : recordedClashes record b.manifest = []) (member : e ∈ record) (other : e.id ≠ b.id) :
    ¬ Shares e.manifest b.manifest := by
  intro shares
  have own : e.isOf b.manifest = false := Bool.eq_false_iff.mpr fun own => other (by rw [isOf_iff.mp own])
  have listed : e ∈ recordedClashes record b.manifest :=
    List.mem_filter.mpr ⟨List.mem_filter.mpr ⟨member, by simp [own]⟩, clashes_iff.mpr shares⟩
  rw [clear] at listed
  exact absurd listed List.not_mem_nil

end Clashes

/-! ### One step -/

section Steps

variable {start : List Block} {host : Host P} {p : P} {b : Block}

theorem doing_goes (doing : Doing) (q : P) : (host.goes p doing).doing q = if q = p then doing else host.doing q :=
  Function.update_apply _ _ _ _

/-- **A process goes on**, and nothing else changes. -/
theorem Sound.goes (sound : Sound start host) {doing : Doing} (lock : doing.holds = true → host.lock = .held p)
    (stands : Stands host doing) : Sound start (host.goes p doing) where
  lock q holds := by
    rw [doing_goes] at holds
    split at holds
    next same => exact same ▸ lock holds
    next => exact sound.lock q holds
  kept := sound.kept
  apart := sound.apart
  stands q := by
    rw [doing_goes]
    split
    · exact stands
    · exact sound.stands q
  installed := sound.installed
  live := sound.live
  distinct := sound.distinct

/-- Nobody but its holder is in the lock. -/
theorem Sound.others (sound : Sound start host) (held : host.lock = .held p) {q : P} (other : q ≠ p) :
    (host.doing q).holds = false := by
  rw [Bool.eq_false_iff]
  intro holds
  have same := sound.lock q holds
  rw [held] at same
  exact other (Lock.held.inj same).symm

/-- The lock changes hands where no other process is in it. -/
theorem Sound.relock (sound : Sound start host) (lock : Lock P) (mine : ∀ q, (host.doing q).holds = true → lock = .held q) :
    Sound start { host with lock := lock } :=
  ⟨mine, sound.kept, sound.apart, sound.stands, sound.installed, sound.live, sound.distinct⟩

theorem Sound.gone (sound : Sound start host) (holds : (host.doing p).holds = true) : Sound start (host.gone p) := by
  have held := sound.lock p holds
  have idle : Sound start (host.goes p .idle) := sound.goes nofun trivial
  refine idle.relock _ fun q still => ?_
  rw [doing_goes] at still
  split at still
  · cases still
  next other =>
    rw [sound.others held other] at still
    cases still

/-- What a process outside the lock relies on does not read the record. -/
theorem stands_of_quiet {host host' : Host P} {doing : Doing} (quiet : doing.holds = false) (stands : Stands host doing)
    (grows : ∀ b ∈ host.recorded, b ∈ host'.recorded) : Stands host' doing := by
  cases doing with
  | reserved b => exact grows b stands
  | idle => trivial
  | _ => cases quiet

/-- **A block is recorded** that has no clash in the record as it was read. -/
theorem apart_cons (sound : Sound start host) {record : List Block} (read : parseBlockRecord host.record = .ok record)
    (clear : recordedClashes record b.manifest = []) :
    ∀ e ∈ b :: host.recorded, ∀ e' ∈ b :: host.recorded, e.id ≠ e'.id → Shares e.manifest e'.manifest →
      e ∈ start ∧ e' ∈ start := by
  intro e first e' second other shares
  rcases List.mem_cons.mp first with rfl | before
  · rcases List.mem_cons.mp second with rfl | before'
    · exact absurd rfl other
    · exact absurd shares.symm (apart_of_clear clear (sound.kept record read e' before') other.symm)
  · rcases List.mem_cons.mp second with rfl | before'
    · exact absurd shares (apart_of_clear clear (sound.kept record read e before) other)
    · exact sound.apart e before e' before' other shares

theorem Sound.judges (sound : Sound start host) (at_ : host.doing p = .locked b) : Sound start (host.judges p b) := by
  have held : host.lock = .held p := sound.lock p (by rw [at_]; rfl)
  have refused : Sound start (host.goes p (.ending b false)) := sound.goes (fun _ => held) trivial
  unfold Host.judges
  split
  · exact refused
  next record read =>
    split
    · exact refused
    next clear =>
      have clear : recordedClashes record b.manifest = [] := by simpa using clear
      split
      next there =>
        obtain ⟨e, member, own⟩ := List.any_eq_true.mp there
        obtain rfl := isOf_iff.mp own
        exact {
          lock := fun q holds => by
            rw [doing_goes] at holds
            split at holds
            next same => exact same ▸ held
            next => exact sound.lock q holds
          kept := fun record' read' b' => by
            obtain rfl := Except.ok.inj (read'.symm.trans read)
            intro listed
            rcases List.mem_cons.mp listed with rfl | before
            · exact member
            · exact sound.kept record' read b' before
          apart := apart_cons sound read clear
          stands := fun q => by
            show Stands _ ((host.goes p (.ending e true)).doing q)
            rw [doing_goes]
            split
            · exact List.mem_cons_self
            next other => exact stands_of_quiet (sound.others held other) (sound.stands q) fun _ => List.mem_cons_of_mem _
          installed := fun b' listed => List.mem_cons_of_mem _ (sound.installed b' listed)
          live := sound.live
          distinct := sound.distinct }
      next => exact sound.goes (fun _ => held) ⟨record, read, clear⟩

/-- **The line is appended, as far as it goes**: the record has what it had, and the block where all of it is there. -/
theorem Sound.appends (sound : Sound start host) (at_ : host.doing p = .appending b) (count : Nat) (now : Int) {doing : Doing}
    (quiet : Stands (host.appends b count now) doing) :
    Sound start ((host.appends b count now).goes p doing) := by
  have held : host.lock = .held p := sound.lock p (by rw [at_]; rfl)
  have stands := sound.stands p
  rw [at_] at stands
  obtain ⟨record, read, -⟩ := stands
  exact {
    lock := fun q there => by
      rw [doing_goes] at there
      split at there
      next same => exact same ▸ held
      next => exact sound.lock q there
    kept := fun record' read' b' listed => by
      have before := sound.kept record read b' listed
      rcases parse_append (List.take_prefix _ _) read read' with ⟨rfl, -⟩ | rfl
      · exact before
      · exact List.mem_append_left _ before
    apart := sound.apart
    stands := fun q => by
      rw [doing_goes]
      split
      · exact quiet
      next other => exact stands_of_quiet (sound.others held other) (sound.stands q) fun _ there => there
    installed := sound.installed
    live := sound.live
    distinct := sound.distinct }

/-- **The append is done**: at least a character was written, so the record holds the block while it can be read. -/
theorem Sound.appended (sound : Sound start host) (at_ : host.doing p = .appending b) (count : Nat) (now : Int) :
    Sound start { (host.appends b (max 1 count) now).goes p (.syncing b) with recorded := b :: host.recorded } := by
  have held : host.lock = .held p := sound.lock p (by rw [at_]; rfl)
  have stands := sound.stands p
  rw [at_] at stands
  obtain ⟨record, read, clear⟩ := stands
  have filled : (recordLine b now).take (max 1 count) ≠ [] := by
    obtain ⟨inside, same⟩ := entryText_head b now
    unfold recordLine
    rw [same]
    obtain ⟨n, same'⟩ := Nat.exists_eq_add_of_le' (le_max_left 1 count)
    rw [same', List.cons_append, List.take_succ_cons]
    exact List.cons_ne_nil _ _
  exact {
    lock := fun q there => by
      rw [doing_goes] at there
      split at there
      next same => exact same ▸ held
      next => exact sound.lock q there
    kept := fun record' read' b' listed => by
      rcases parse_append (List.take_prefix _ _) read read' with ⟨-, none⟩ | rfl
      · exact absurd none filled
      · rcases List.mem_cons.mp listed with rfl | before
        · exact List.mem_append_right _ (List.mem_singleton_self _)
        · exact List.mem_append_left _ (sound.kept record read b' before)
    apart := apart_cons sound read clear
    stands := fun q => by
      show Stands _ (((host.appends b (max 1 count) now).goes p (.syncing b)).doing q)
      rw [doing_goes]
      split
      · exact List.mem_cons_self
      next other => exact stands_of_quiet (sound.others held other) (sound.stands q) fun _ => List.mem_cons_of_mem _
    installed := fun b' listed => List.mem_cons_of_mem _ (sound.installed b' listed)
    live := sound.live
    distinct := sound.distinct }

/-- The lock is removed by its holder. -/
theorem Sound.unlocks (sound : Sound start host) {ok : Bool} (at_ : host.doing p = .ending b ok) :
    Sound start { host.goes p (if ok then .reserved b else .idle) with lock := .free } := by
  have held : host.lock = .held p := sound.lock p (by rw [at_]; rfl)
  have stands := sound.stands p
  rw [at_] at stands
  have next : Sound start (host.goes p (if ok then .reserved b else .idle)) := by
    cases ok with
    | true => exact sound.goes nofun stands
    | false => exact sound.goes nofun trivial
  refine next.relock .free fun q holds => ?_
  rw [doing_goes] at holds
  split at holds
  · cases ok <;> cases holds
  next other =>
    rw [sound.others held other] at holds
    cases holds

theorem Sound.links (sound : Sound start host) (at_ : host.doing p = .reserved b) : Sound start (host.links p b) := by
  have idle : Sound start (host.goes p .idle) := sound.goes nofun trivial
  have recorded := sound.stands p
  rw [at_] at recorded
  unfold Host.links
  split
  · exact idle
  next free =>
    exact {
      lock := idle.lock
      kept := idle.kept
      apart := idle.apart
      stands := fun q => idle.stands q
      installed := fun b' listed => by
        rcases List.mem_cons.mp listed with rfl | before
        · exact recorded
        · exact sound.installed b' before
      live := fun b' listed => by
        rcases List.mem_append.mp listed with before | last
        · exact List.mem_cons_of_mem _ (sound.live b' before)
        · exact List.mem_singleton.mp last ▸ List.mem_cons_self
      distinct := by
        rw [List.map_append, List.nodup_append]
        refine ⟨sound.distinct, List.nodup_singleton _, fun id member id' last => ?_⟩
        obtain rfl := List.mem_singleton.mp last
        rintro rfl
        obtain ⟨b', listed, same⟩ := List.mem_map.mp member
        exact free (List.any_eq_true.mpr ⟨b', listed, by simpa using same⟩) }

theorem Sound.act (sound : Sound start host) (p : P) (operation : Operation) : Sound start (act host p operation) := by
  have holds : ∀ {doing}, host.doing p = doing → doing.holds = true → host.lock = .held p :=
    fun at_ there => sound.lock p (by rw [at_]; exact there)
  unfold Identity.act
  split
  next b idle =>
    split
    next free =>
      have next : Sound start { host with lock := .held p } := sound.relock _ fun q there => by
        have mine := sound.lock q there
        rw [free] at mine
        cases mine
      exact next.goes (fun _ => rfl) trivial
    · exact sound
  next b at_ => exact sound.goes (fun _ => holds at_ rfl) trivial
  next b at_ => exact sound.goes (fun _ => holds at_ rfl) trivial
  next b at_ => exact sound.gone (by rw [at_]; rfl)
  next b at_ => exact sound.judges at_
  next b at_ => exact sound.goes (fun _ => holds at_ rfl) trivial
  next b at_ => exact sound.gone (by rw [at_]; rfl)
  next b at_ =>
    have stands := sound.stands p
    rw [at_] at stands
    exact sound.goes (fun _ => holds at_ rfl) stands
  next b at_ => exact sound.goes (fun _ => holds at_ rfl) trivial
  next b at_ => exact sound.gone (by rw [at_]; rfl)
  next b count now at_ => exact sound.appended at_ count now
  next b count now at_ => exact sound.appends at_ count now trivial
  next b count now at_ =>
    -- as a process that dies once its write has failed
    have failed : Sound start ((host.appends b count now).goes p (.ending b false)) := sound.appends at_ count now trivial
    have dead := failed.gone (p := p) (by rw [doing_goes, if_pos rfl]; rfl)
    unfold Host.gone Host.goes at dead ⊢
    dsimp only at dead ⊢
    rwa [Function.update_idem] at dead
  next b at_ =>
    have stands := sound.stands p
    rw [at_] at stands
    exact sound.goes (fun _ => holds at_ rfl) stands
  next b at_ => exact sound.goes (fun _ => holds at_ rfl) trivial
  next b at_ => exact sound.gone (by rw [at_]; rfl)
  next b ok at_ => exact sound.unlocks at_
  next b ok at_ => exact sound.gone (by rw [at_]; rfl)
  next b ok at_ => exact sound.gone (by rw [at_]; rfl)
  next b at_ => exact sound.links at_
  next b at_ => exact sound.goes nofun trivial
  next => exact sound

theorem sound_step (host : Host P) (action : Action P) (sound : Sound start host) : Sound start (step host action) := by
  cases action with
  | act p operation => exact sound.act p operation
  | retire id =>
    exact { sound with
      live := fun b member => sound.live b (List.mem_of_mem_filter member)
      distinct := sound.distinct.sublist (List.filter_sublist.map _) }
  | unlock =>
    refine sound.relock _ fun q holds => ?_
    rw [sound.lock q holds]

end Steps

/-! ### Runs -/

/-- A host where no apply is under way, its manifests have distinct ids, and the record holds every block ever
installed. -/
structure Starts (host : Host P) : Prop where
  quiet : ∀ p, host.doing p = .idle
  recorded : host.recorded = host.installed
  held : ∃ record, parseBlockRecord host.record = .ok record ∧ ∀ b ∈ host.installed, b ∈ record
  live : ∀ b ∈ host.root, b ∈ host.installed
  distinct : (host.root.map (·.id)).Nodup

theorem Starts.sound {host : Host P} (starts : Starts host) : Sound host.installed host where
  lock p holds := by
    rw [starts.quiet] at holds
    cases holds
  kept record read b member := by
    obtain ⟨record', read', all⟩ := starts.held
    obtain rfl := Except.ok.inj (read.symm.trans read')
    exact all b (starts.recorded ▸ member)
  apart b member b' member' _ _ := ⟨starts.recorded ▸ member, starts.recorded ▸ member'⟩
  stands p := by
    rw [starts.quiet]
    trivial
  installed b member := starts.recorded ▸ member
  live := starts.live
  distinct := starts.distinct

theorem sound_run {start : Host P} (starts : Starts start) (actions : List (Action P)) :
    Sound start.installed (run step start actions) :=
  run_keeps sound_step starts.sound actions

/-- What the record lets out is above every block ever installed. -/
theorem Sound.fresh {start : List Block} {host : Host P} (sound : Sound start host) {manifests : List Manifest} {id : String}
    {uidBase gidBase : Int} {allocation : Allocation}
    (allocated : allocate host.record manifests id uidBase gidBase = .ok allocation) :
    allocation.id = id ∧ (∀ m ∈ manifests, m.id ≠ id) ∧ (auditIdentityBlocks manifests).ok = true ∧
      Fresh allocation.block host.installed := by
  obtain ⟨used, read, allocated⟩ := bind_eq_ok.mp allocated
  obtain ⟨named, -, unused, audited, fresh⟩ := allocated_fresh allocated
  exact ⟨named, unused, audited, fresh.mono fun b member => sound.kept used read b (sound.installed b member)⟩

/-- **Identity numbers are not shared or used again**: after every run, two installed blocks of different ids share a
number only where both were installed before it; what is handed out is above everything installed; and the audit is
ok just where no two manifests of different ids share a number. -/
theorem numbers_apart (start : Host P) (starts : Starts start) (actions : List (Action P)) :
    (∀ b ∈ (run step start actions).installed, ∀ b' ∈ (run step start actions).installed, b.id ≠ b'.id →
      Shares b.manifest b'.manifest → b ∈ start.installed ∧ b' ∈ start.installed) ∧
    (∀ manifests id uidBase gidBase allocation,
      allocate (run step start actions).record manifests id uidBase gidBase = .ok allocation →
        allocation.id = id ∧ (∀ m ∈ manifests, m.id ≠ id) ∧ (auditIdentityBlocks manifests).ok = true ∧
          Fresh allocation.block (run step start actions).installed) ∧
    ∀ manifests, (auditIdentityBlocks manifests).ok = true ↔
      ∀ m ∈ manifests, ∀ m' ∈ manifests, m.id ≠ m'.id → ¬ Shares m m' := by
  have sound := sound_run starts actions
  refine ⟨fun b member b' member' => ?_, fun _ _ _ _ _ allocated => sound.fresh allocated, audit_ok_iff⟩
  exact sound.apart b (sound.installed b member) b' (sound.installed b' member')

/-! ### Two manifests with one block -/

def sampleBlock (id : String) (valid : isId id = true) (uidStart gidStart : Int) : Block :=
  ⟨id, valid, blockAt uidStart gidStart⟩

def codex : Block := sampleBlock "codex" (by decide) 41011 42011
def claude : Block := sampleBlock "claude" (by decide) 41011 42011
theorem isId_oliver : isId "oliver" = true := by decide

def oliver : Block := sampleBlock "oliver" isId_oliver 41021 42021

theorem read_codex : parseBlockRecord (recordLine codex 0) = .ok [codex] ∧
    (Lines.segments '\n' (recordLine codex 0)).2 = [] := by
  have line : parseBlockRecord ([] ++ recordLine codex 0) = .ok ([] ++ [codex]) ∧
      (Lines.segments '\n' ([] ++ recordLine codex 0)).2 = [] :=
    parse_line rfl rfl (by intro f; cases f <;> decide)
  exact line

/-- One identity is installed. -/
def codexHost : Host Nat where
  record := recordLine codex 0
  root := [codex]
  installed := [codex]
  recorded := [codex]

theorem starts_codex : Starts codexHost where
  quiet _ := rfl
  recorded := rfl
  held := ⟨[codex], read_codex.1, fun _ member => member⟩
  live _ member := member
  distinct := List.nodup_singleton _

/-- Another is reserved and installed, while a third finds the lock held. -/
def oliverApplies : List (Action Nat) :=
  [.act 0 (.apply oliver), .act 1 (.apply claude), .act 0 (.next .done), .act 0 (.next .done), .act 0 (.next .done),
    .act 0 (.write 500 0 .done), .act 0 (.next .done), .act 0 (.next .done), .act 0 (.next .done)]

theorem numbers_apart_oliver : (run step codexHost oliverApplies).installed.length = 2 ∧
    ∀ b ∈ (run step codexHost oliverApplies).installed, ∀ b' ∈ (run step codexHost oliverApplies).installed,
      b.id ≠ b'.id → Shares b.manifest b'.manifest → b ∈ [codex] ∧ b' ∈ [codex] :=
  ⟨by decide +kernel, (numbers_apart codexHost starts_codex oliverApplies).1⟩

/-- Two manifests hold the same block. -/
def sharedHost : Host Nat where
  record := recordLine codex 0 ++ recordLine claude 0
  root := [codex, claude]
  installed := [codex, claude]
  recorded := [codex, claude]

theorem starts_shared : Starts sharedHost where
  quiet _ := rfl
  recorded := rfl
  held := ⟨[codex, claude], (parse_line read_codex.1 read_codex.2 (by intro f; cases f <;> decide)).1, fun _ member => member⟩
  live _ member := member
  distinct := by decide

/-- **What was shared at the start still is.** -/
theorem shared_from_start : ¬ ∀ (start : Host Nat), Starts start → ∀ actions,
    ∀ b ∈ (run step start actions).installed, ∀ b' ∈ (run step start actions).installed, b.id ≠ b'.id →
      ¬ Shares b.manifest b'.manifest := by
  intro apart
  exact apart sharedHost starts_shared [] codex List.mem_cons_self claude (List.mem_cons_of_mem _ List.mem_cons_self)
    (by decide) ⟨.watcherUid, .watcherUid, 41011, rfl, rfl, rfl⟩

end Nvoy.Identity
