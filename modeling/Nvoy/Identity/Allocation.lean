/-
**Identity numbers**: `identity_allocation.mjs` — the audit of the blocks in use, the record of the blocks
that were ever installed, and the choice of the next one.

* `auditIdentityBlocks`, `recordedClashes`, `parseBlockRecord`, `allocateIdentityBlock` — the functions;
* `audit_ok_iff` — the audit finds a collision just where two manifests of different ids hold a number;
* `above_high` — the next start is above every number that is taken, and leaves room below the ceiling;
* `allocated_fresh` — a block that is handed out is above every number in use and its numbers are distinct.
-/

import Mathlib.Algebra.Order.Floor.Ring
import Mathlib.Algebra.Order.Field.Rat
import Mathlib.Data.Rat.Floor
import Mathlib.Data.List.DropRight
import Nvoy.Lib.Checks
import Nvoy.Lib.JsMap
import Nvoy.Lib.Json
import Nvoy.Memory.Claim

namespace Nvoy.Identity

open Memory (isJsSpace)

def UID_BASE : Int := 41011
def GID_BASE : Int := 42011
def UID_STRIDE : Int := 10
def GID_STRIDE : Int := 10
def UID_CEILING : Int := 49999

/-! ### Manifests and their numbers -/

inductive Field where
  | watcherUid
  | brokerUid
  | adapterUid
  | workerUid
  | brokerAdapterGid
  | workerHandoffGid
  deriving DecidableEq, Repr

def Field.name : Field → String
  | .watcherUid => "watcherUid"
  | .brokerUid => "brokerUid"
  | .adapterUid => "adapterUid"
  | .workerUid => "workerUid"
  | .brokerAdapterGid => "brokerAdapterGid"
  | .workerHandoffGid => "workerHandoffGid"

def UID_ROLES : List Field := [.watcherUid, .brokerUid, .adapterUid, .workerUid]
def GID_ROLES : List Field := [.brokerAdapterGid, .workerHandoffGid]
def NUMERIC_FIELDS : List Field := UID_ROLES ++ GID_ROLES

/-- Uids and gids are apart. -/
inductive Kind where
  | uid
  | gid
  deriving DecidableEq, Repr

def Field.kind (f : Field) : Kind := if f ∈ UID_ROLES then .uid else .gid

def Kind.roles : Kind → List Field
  | .uid => UID_ROLES
  | .gid => GID_ROLES

/-- `/^[a-z0-9][a-z0-9._-]{1,63}$/i` -/
def isId (id : String) : Bool :=
  match id.toList with
  | [] => false
  | first :: rest =>
      first.isAlphanum && decide (1 ≤ rest.length) && decide (rest.length ≤ 63) &&
        rest.all fun c => c.isAlphanum || c = '.' || c = '_' || c = '-'

/-- A manifest, as `readManifest` returns it. -/
structure Manifest where
  id : String
  valid : isId id = true
  /-- `m[field]`; none where it is no integer. -/
  number : Field → Option Int

/-- A manifest or a line of the record that has all six numbers. -/
@[ext]
structure Block where
  id : String
  valid : isId id = true
  number : Field → Int

def Block.manifest (b : Block) : Manifest := ⟨b.id, b.valid, fun f => some (b.number f)⟩

/-! ### The audit -/

structure Holder where
  id : String
  field : Field
  deriving DecidableEq

structure Collision where
  kind : Kind
  value : Int
  heldBy : String
  heldField : Field
  wantedBy : String
  wantedField : Field
  deriving DecidableEq

/-- The first holder of each number, and the collisions so far. -/
structure Seen where
  holders : JsMap (Kind × Int) Holder := .empty
  collisions : List Collision := []

/-- `String(m.id || '<unnamed>')` -/
def auditName (id : String) : String := if id = "" then "<unnamed>" else id

def auditField (m : Manifest) (seen : Seen) (f : Field) : Seen :=
  match m.number f with
  -- the shape of one manifest is checked elsewhere
  | none => seen
  | some value =>
      match seen.holders.get (f.kind, value) with
      | some prior =>
          if prior.id ≠ auditName m.id then
            { seen with collisions := seen.collisions ++ [⟨f.kind, value, prior.id, prior.field, auditName m.id, f⟩] }
          else seen
      | none => { seen with holders := seen.holders.set (f.kind, value) ⟨auditName m.id, f⟩ }

structure Audit where
  identities : Nat
  collisions : List Collision
  ok : Bool

def auditIdentityBlocks (manifests : List Manifest) : Audit :=
  let seen := manifests.foldl (fun seen m => NUMERIC_FIELDS.foldl (auditField m) seen) {}
  { identities := manifests.length, collisions := seen.collisions, ok := seen.collisions.isEmpty }

/-- Two manifests hold the same uid, or the same gid. -/
def Shares (m m' : Manifest) : Prop :=
  ∃ f f' value, f.kind = f'.kind ∧ m.number f = some value ∧ m'.number f' = some value

/-! ### The record -/

/-- `occupiedNumbers(manifests).uids`, or `.gids` -/
def occupiedNumbers (manifests : List Manifest) (kind : Kind) : List Int :=
  (manifests.flatMap fun m => kind.roles.filterMap m.number).dedup

def clashes (e : Block) (manifest : Manifest) : Bool :=
  [Kind.uid, .gid].any fun kind =>
    (occupiedNumbers [e.manifest] kind).any fun value => value ∈ occupiedNumbers [manifest] kind

/-- A record of the same id with exactly these numbers is this identity's own earlier install. -/
def Block.isOf (e : Block) (manifest : Manifest) : Bool :=
  decide (e.id = manifest.id) && NUMERIC_FIELDS.all fun f => manifest.number f = some (e.number f)

def recordedClashes (record : List Block) (manifest : Manifest) : List Block :=
  (record.filter fun e => !e.isOf manifest).filter fun e => clashes e manifest

/-- `line.trim()` -/
def trimLine (line : List Char) : List Char :=
  (line.dropWhile isJsSpace).rdropWhile isJsSpace

/-- `e[f]`, where it is an integer and at least 1. -/
def numberIn (e : Json) (f : Field) : Option Int := ((e.get f.name).bind Json.integer).filter (1 ≤ ·)

/-- One line of the record. -/
def parseBlockLine (line : List Char) (n : Nat) : Except String Block :=
  match Json.parse line with
  | none => .error s!"identity-allocation: block record line {n} is not JSON"
  | some e =>
      match (e.get "id").bind Json.string with
      | none => .error s!"identity-allocation: block record line {n} has no valid id"
      | some id =>
          if valid : isId id = true then
            match NUMERIC_FIELDS.find? fun f => (numberIn e f).isNone with
            | some f => .error s!"identity-allocation: block record line {n} ({id}) has no integer {f.name}"
            | none => .ok ⟨id, valid, fun f => (numberIn e f).getD 0⟩
          else .error s!"identity-allocation: block record line {n} has no valid id"

/-- The lines that are not blank, each with its number. -/
def numbered (first : Nat) (lines : List (List Char)) : List (List Char × Nat) :=
  ((lines.zipIdx first).map fun line => (trimLine line.1, line.2 + 1)).filter fun line => !line.1.isEmpty

/-- Any line that cannot be read fails the whole record. -/
def parseBlockRecord (text : List Char) : Except String (List Block) :=
  (numbered 0 (text.splitOn '\n')).mapM fun line => parseBlockLine line.1 line.2

/-! ### The next block -/

/-- The first stride above the highest number ever used. -/
def above (base stride span : Int) (taken : List Int) : Option Int :=
  let high := taken.foldl max (base - 1)
  let start := base + ⌈((high + 1 - base : Int) : ℚ) / stride⌉ * stride
  if start + span - 1 ≤ UID_CEILING then some start else none

structure Allocation where
  id : String
  block : Field → Int
  uidRange : Int × Int
  gidRange : Int × Int
  neighbours : List String

/-- The numbers of a block that starts there. -/
def blockAt (uidStart gidStart : Int) : Field → Int
  | .watcherUid => uidStart
  | .brokerUid => uidStart + 1
  | .adapterUid => uidStart + 2
  | .workerUid => uidStart + 3
  | .brokerAdapterGid => gidStart
  | .workerHandoffGid => gidStart + 1

def allocateIdentityBlock (manifests : List Manifest) (id : String) (uidBase gidBase : Int) (used : List Block) :
    Except String Allocation := do
  ensure (isId id) "identity-allocation: a usable instance id is required"
  ensure (!manifests.any (·.id = id)) s!"identity-allocation: an identity named {id} already exists"
  let audit := auditIdentityBlocks manifests
  ensure audit.ok (s!"identity-allocation: refusing to allocate while {audit.collisions.length} existing collision(s) stand" ++
    " — run the audit and resolve them first")
  let taken := occupiedNumbers (manifests ++ used.map (·.manifest))
  match above uidBase UID_STRIDE UID_ROLES.length (taken .uid), above gidBase GID_STRIDE GID_ROLES.length (taken .gid) with
  | some uidStart, some gidStart =>
      return {
        id := id
        block := blockAt uidStart gidStart
        uidRange := (uidStart, uidStart + UID_ROLES.length - 1)
        gidRange := (gidStart, gidStart + GID_ROLES.length - 1)
        neighbours := (manifests.map (·.id)).mergeSort (fun a b => decide (a ≤ b)) }
  | _, _ => throw "identity-allocation: no block left below the ceiling — allocate by hand and record why"

/-- `instance-identity.mjs allocate`: the record is read, or nothing is handed out. -/
def allocate (text : List Char) (manifests : List Manifest) (id : String) (uidBase gidBase : Int) :
    Except String Allocation := do
  allocateIdentityBlock manifests id uidBase gidBase (← parseBlockRecord text)

/-! ### What the audit finds -/

/-- What the numbers of a manifest claim. -/
def claimsOf (m : Manifest) (f : Field) : List ((Kind × Int) × String) :=
  ((m.number f).map fun value => ((f.kind, value), m.id)).toList

/-- What the audit knows after these claims: who made the first of each number, and whether all claims of a number
are of one id. -/
structure Audited (held : List ((Kind × Int) × String)) (seen : Seen) : Prop where
  first : ∀ key, (seen.holders.get key).map (·.id) = (held.find? (·.1 = key)).map Prod.snd
  clean : seen.collisions = [] ↔ ∀ a ∈ held, ∀ b ∈ held, a.1 = b.1 → a.2 = b.2

section Auditing

variable {held : List ((Kind × Int) × String)} {seen : Seen} {key : Kind × Int} {id : String}

theorem auditName_eq (m : Manifest) : auditName m.id = m.id := by
  unfold auditName
  split
  next empty =>
    have valid := m.valid
    rw [empty] at valid
    exact absurd valid (by decide)
  next => rfl

/-- All claims of a number are of one id still, where the next one is of the first's. -/
theorem Audited.clean_snoc (audited : Audited held seen) :
    (∀ a ∈ held ++ [(key, id)], ∀ b ∈ held ++ [(key, id)], a.1 = b.1 → a.2 = b.2) ↔
      seen.collisions = [] ∧ ∀ a ∈ held, a.1 = key → a.2 = id := by
  rw [audited.clean]
  simp only [List.mem_append, List.mem_singleton]
  constructor
  · intro all
    exact ⟨fun a first b second => all a (.inl first) b (.inl second), fun a first => all a (.inl first) _ (.inr rfl)⟩
  · rintro ⟨before, own⟩ a (first | rfl) b (second | rfl) same
    · exact before a first b second same
    · exact own a first same
    · exact (own b second same.symm).symm
    · rfl

/-- **One number is audited.** -/
theorem Audited.field (audited : Audited held seen) (m : Manifest) (f : Field) :
    Audited (held ++ claimsOf m f) (auditField m seen f) := by
  unfold auditField claimsOf
  cases m.number f with
  | none => simpa using audited
  | some value =>
    rw [auditName_eq]
    simp only [Option.map_some, Option.toList_some]
    have known := audited.first (f.kind, value)
    cases found : seen.holders.get (f.kind, value) with
    | some prior =>
      rw [found, Option.map_some] at known
      obtain ⟨first, there, named⟩ := Option.map_eq_some_iff.mp known.symm
      have listed := List.mem_of_find?_eq_some there
      have keyed : first.1 = (f.kind, value) := by simpa using List.find?_some there
      have finds : ∀ key, (held ++ [((f.kind, value), m.id)]).find? (·.1 = key) = held.find? (·.1 = key) := by
        intro key
        rw [List.find?_append]
        by_cases own : (f.kind, value) = key
        · rw [← own, there, Option.some_or]
        · rw [List.find?_singleton, if_neg (by simpa using own), Option.or_none]
      dsimp only
      split
      next apart =>
        refine ⟨fun key => (audited.first key).trans (by rw [finds]), ?_⟩
        rw [audited.clean_snoc]
        constructor
        · intro none
          simp at none
        · rintro ⟨-, own⟩
          exact absurd (named.symm.trans (own first listed keyed)) apart
      next same =>
        refine ⟨fun key => (audited.first key).trans (by rw [finds]), ?_⟩
        rw [audited.clean_snoc]
        refine ⟨fun none => ⟨none, fun a member its => ?_⟩, fun both => both.1⟩
        have one := audited.clean.mp none a member first listed (its.trans keyed.symm)
        exact one.trans (named.trans (not_not.mp same))
    | none =>
      rw [found, Option.map_none] at known
      have free : held.find? (·.1 = (f.kind, value)) = none := Option.map_eq_none_iff.mp known.symm
      refine ⟨fun key => ?_, ?_⟩
      · dsimp only
        rw [JsMap.get_set, List.find?_append]
        by_cases own : key = (f.kind, value)
        · rw [if_pos own, own, free, Option.none_or]
          simp
        · rw [if_neg own, List.find?_singleton, if_neg (by simpa using Ne.symm own), Option.or_none]
          exact audited.first key
      · rw [audited.clean_snoc]
        refine ⟨fun none => ⟨none, fun a member its => ?_⟩, fun both => both.1⟩
        exact absurd its (by simpa using List.find?_eq_none.mp free a member)

theorem Audited.fields (audited : Audited held seen) (m : Manifest) (fields : List Field) :
    Audited (held ++ fields.flatMap (claimsOf m)) (fields.foldl (auditField m) seen) := by
  induction fields generalizing held seen with
  | nil => simpa using audited
  | cons f fields ih =>
    rw [List.flatMap_cons, ← List.append_assoc]
    exact ih (audited.field m f)

theorem Audited.manifests (audited : Audited held seen) (manifests : List Manifest) :
    Audited (held ++ manifests.flatMap fun m => NUMERIC_FIELDS.flatMap (claimsOf m))
      (manifests.foldl (fun seen m => NUMERIC_FIELDS.foldl (auditField m) seen) seen) := by
  induction manifests generalizing held seen with
  | nil => simpa using audited
  | cons m manifests ih =>
    rw [List.flatMap_cons, ← List.append_assoc]
    exact ih (audited.fields m NUMERIC_FIELDS)

theorem audited_nothing : Audited [] {} :=
  ⟨fun _ => rfl, fun _ _ member => absurd member List.not_mem_nil, fun _ => rfl⟩

theorem mem_numericFields (f : Field) : f ∈ NUMERIC_FIELDS := by
  cases f <;> decide

theorem mem_claims {manifests : List Manifest} {claim : (Kind × Int) × String} :
    (claim ∈ manifests.flatMap fun m => NUMERIC_FIELDS.flatMap (claimsOf m)) ↔
      ∃ m ∈ manifests, ∃ f value, m.number f = some value ∧ claim = ((f.kind, value), m.id) := by
  simp only [List.mem_flatMap, claimsOf, Option.mem_toList, Option.map_eq_some_iff]
  constructor
  · rintro ⟨m, member, f, -, value, there, rfl⟩
    exact ⟨m, member, f, value, there, rfl⟩
  · rintro ⟨m, member, f, value, there, rfl⟩
    exact ⟨m, member, f, mem_numericFields f, value, there, rfl⟩

/-- **The audit is ok just where no two manifests of different ids hold a number.** -/
theorem audit_ok_iff (manifests : List Manifest) : (auditIdentityBlocks manifests).ok = true ↔
    ∀ m ∈ manifests, ∀ m' ∈ manifests, m.id ≠ m'.id → ¬ Shares m m' := by
  have audited := audited_nothing.manifests manifests
  unfold auditIdentityBlocks
  dsimp only
  rw [List.isEmpty_iff, audited.clean, List.nil_append]
  constructor
  · rintro all m first m' second apart ⟨f, f', value, kinds, mine, theirs⟩
    have same := all _ (mem_claims.mpr ⟨m, first, f, value, mine, rfl⟩) _ (mem_claims.mpr ⟨m', second, f', value, theirs, rfl⟩)
      (by rw [kinds])
    exact apart same
  · intro none a first b second same
    obtain ⟨m, member, f, value, mine, rfl⟩ := mem_claims.mp first
    obtain ⟨m', member', f', value', theirs, rfl⟩ := mem_claims.mp second
    obtain ⟨kinds, rfl⟩ := Prod.mk.inj same
    by_contra apart
    exact none m member m' member' apart ⟨f, f', value, kinds, mine, theirs⟩

end Auditing

/-! ### What is handed out -/

theorem le_foldl_max (taken : List Int) (floor : Int) :
    floor ≤ taken.foldl max floor ∧ ∀ n ∈ taken, n ≤ taken.foldl max floor := by
  induction taken generalizing floor with
  | nil => exact ⟨le_rfl, fun _ member => absurd member List.not_mem_nil⟩
  | cons n taken ih =>
    obtain ⟨least, all⟩ := ih (max floor n)
    refine ⟨(le_max_left _ _).trans least, fun m member => ?_⟩
    rcases List.mem_cons.mp member with rfl | later
    · exact (le_max_right _ _).trans least
    · exact all m later

/-- **The next start is above every number that is taken**, at the base or a stride beyond it, with room below the
ceiling. -/
theorem above_high {base stride span start : Int} {taken : List Int} (strides : 0 < stride)
    (found : above base stride span taken = some start) :
    (∀ n ∈ taken, n < start) ∧ start + span - 1 ≤ UID_CEILING := by
  unfold above at found
  dsimp only at found
  split at found
  next room =>
    obtain rfl := Option.some_inj.mp found
    refine ⟨fun n member => ?_, room⟩
    have high := (le_foldl_max taken (base - 1)).2 n member
    have ceil : (((taken.foldl max (base - 1) + 1 - base : Int) : ℚ) / stride) ≤
        (⌈((taken.foldl max (base - 1) + 1 - base : Int) : ℚ) / stride⌉ : ℚ) := Int.le_ceil _
    have positive : (0 : ℚ) < stride := by exact_mod_cast strides
    rw [div_le_iff₀ positive] at ceil
    have reach : taken.foldl max (base - 1) + 1 - base ≤
        ⌈((taken.foldl max (base - 1) + 1 - base : Int) : ℚ) / stride⌉ * stride := by exact_mod_cast ceil
    omega
  next => cases found

theorem mem_occupied {manifests : List Manifest} {kind : Kind} {value : Int} :
    value ∈ occupiedNumbers manifests kind ↔ ∃ m ∈ manifests, ∃ f ∈ kind.roles, m.number f = some value := by
  unfold occupiedNumbers
  simp only [List.mem_dedup, List.mem_flatMap, List.mem_filterMap]

/-- A block whose numbers are distinct, below the ceiling, and above every number of some others: the uids above
every uid, and the gids above every gid. -/
structure Fresh (block : Field → Int) (others : List Block) : Prop where
  higher : ∀ b ∈ others, ∀ kind : Kind, ∀ f ∈ kind.roles, ∀ f' ∈ kind.roles, b.number f < block f'
  ceiling : ∀ f, block f ≤ UID_CEILING
  distinct : ∀ kind : Kind, (kind.roles.map block).Nodup

theorem Fresh.mono {block : Field → Int} {others fewer : List Block} (fresh : Fresh block others)
    (sub : ∀ b ∈ fewer, b ∈ others) : Fresh block fewer :=
  ⟨fun b member => fresh.higher b (sub b member), fresh.ceiling, fresh.distinct⟩

/-- **What is handed out** is above every number of the manifests and of the record. -/
theorem allocated_fresh {manifests : List Manifest} {id : String} {uidBase gidBase : Int} {used : List Block}
    {allocation : Allocation} (allocated : allocateIdentityBlock manifests id uidBase gidBase used = .ok allocation) :
    allocation.id = id ∧ isId id = true ∧ (∀ m ∈ manifests, m.id ≠ id) ∧ (auditIdentityBlocks manifests).ok = true ∧
      Fresh allocation.block used := by
  unfold allocateIdentityBlock at allocated
  obtain ⟨_, named, allocated⟩ := bind_eq_ok.mp allocated
  obtain ⟨_, unused, allocated⟩ := bind_eq_ok.mp allocated
  obtain ⟨_, audited, allocated⟩ := bind_eq_ok.mp allocated
  dsimp only at allocated
  split at allocated
  next uidStart gidStart uids gids =>
    obtain rfl := Except.ok.inj allocated
    have unused : ∀ m ∈ manifests, m.id ≠ id := by simpa using ensure_eq_ok.mp unused
    refine ⟨rfl, ensure_eq_ok.mp named, unused, ensure_eq_ok.mp audited, ?_⟩
    obtain ⟨uidHigh, uidRoom⟩ := above_high (by decide) uids
    obtain ⟨gidHigh, gidRoom⟩ := above_high (by decide) gids
    simp only [UID_ROLES, GID_ROLES, List.length_cons, List.length_nil] at uidRoom gidRoom
    push_cast at uidRoom gidRoom
    have taken : ∀ b ∈ used, ∀ kind : Kind, ∀ f ∈ kind.roles,
        b.number f ∈ occupiedNumbers (manifests ++ used.map (·.manifest)) kind := fun b member kind f role =>
      mem_occupied.mpr ⟨b.manifest, List.mem_append_right _ (List.mem_map_of_mem member), f, role, rfl⟩
    constructor
    case higher =>
      intro b member kind f role f' role'
      have own := taken b member kind f role
      cases kind with
      | uid =>
        have below := uidHigh _ own
        simp only [Kind.roles, UID_ROLES, List.mem_cons, List.not_mem_nil, or_false] at role'
        rcases role' with rfl | rfl | rfl | rfl <;> simp only [blockAt] <;> omega
      | gid =>
        have below := gidHigh _ own
        simp only [Kind.roles, GID_ROLES, List.mem_cons, List.not_mem_nil, or_false] at role'
        rcases role' with rfl | rfl <;> simp only [blockAt] <;> omega
    case ceiling =>
      intro f
      cases f <;> simp only [blockAt] <;> omega
    case distinct =>
      intro kind
      cases kind <;> simp [Kind.roles, UID_ROLES, GID_ROLES, blockAt]
  next => cases allocated

end Nvoy.Identity
