/-
**The grants a runtime serves** (`GrantStore` of `grants.ts`), over every scope it holds: the relay
keeps yielding the keys, and two maps of marks keep them from being served again.

* `receive`, `latestGrants` — what a refresh makes of the authenticated rumors;
* `Records`, `mark` — one record for each scope, which a generation it covers leaves as it is;
* `step` — `list`, `find`, the answers they wait for, and the two marks;
* `Numbered` — no grant without a generation stands at a marked scope, and no mark is without one;
* `never_served` — then a grant of a marked scope is served without its key, or is of a later
  generation than every mark; and the marks of one scope leave the grants of another alone;
* `unnumbered_served` — a `v` tag that is no number: marked, and served again with its key.
-/

import Nvoy.Broker.AdmittedTask
import Nvoy.Grants.Terms
import Nvoy.Store.FactKeys
import Nvoy.Store.Query
import Mathlib.Tactic.GCongr

namespace Nvoy.Grants.Served

open Runs (run Meets)
open Memory (split)

/-! ### What a grant says -/

/-- A rumor whose seal is verified and signed by the rumor's author. -/
structure Rumor where
  pubkey : String
  createdAt : Int
  tags : List (List String)
  content : String

/-- `rumor.tags.find(t => t[0] === name)` -/
def Rumor.tag (rumor : Rumor) (name : String) : Option (List String) :=
  rumor.tags.find? fun t => t[0]? = some name

/-- The number a text is read as: a decimal one, an infinity, or `NaN`. -/
def tagNumber (text : String) : JsNumber :=
  match Memory.trim text with
  | "Infinity" => some (((⊤ : WithTop ℚ)) : WithBot (WithTop ℚ))
  | "+Infinity" => some (((⊤ : WithTop ℚ)) : WithBot (WithTop ℚ))
  | "-Infinity" => some ⊥
  | _ => (Broker.textNumber text).bind JsNumber.ofRat

def base64Value (c : Char) : Option Nat :=
  if 'A' ≤ c && c ≤ 'Z' then some (c.toNat - 65)
  else if 'a' ≤ c && c ≤ 'z' then some (c.toNat - 71)
  else if c.isDigit then some (c.toNat + 4)
  else if c = '+' then some 62
  else if c = '/' then some 63
  else none

def octets : List Nat → List UInt8
  | a :: b :: c :: d :: rest =>
      .ofNat (a * 4 + b / 16) :: .ofNat (b % 16 * 16 + c / 4) :: .ofNat (c % 4 * 64 + d) :: octets rest
  | [a, b, c] => [.ofNat (a * 4 + b / 16), .ofNat (b % 16 * 16 + c / 4)]
  | [a, b] => [.ofNat (a * 4 + b / 16)]
  | _ => []

/-- Without the padding, which counts only at the end of a text of whole groups. -/
def unpadded (text : List Char) : List Char :=
  if text.length % 4 = 0 then
    match text.reverse with
    | '=' :: '=' :: rest => rest.reverse
    | '=' :: rest => rest.reverse
    | _ => text
  else text

/-- The bytes of a base64 text, white space left out; `none` where it throws. -/
def atob (text : String) : Option (List UInt8) :=
  let text := unpadded (text.toList.filter fun c => !"\t\n\r ".toList.contains c && c.toNat ≠ 12)
  if text.length % 4 = 1 then none else (text.mapM base64Value).map octets

def KIND_DATA_SET : ℚ := 30440

/-- A mark for one scope: every grant of it at that generation or below is dead. -/
structure Record (ν : Type) where
  generation : JsNumber
  detail : ν

structure Detection where
  notice : Option Json
  detectedAt : Int

structure Destruction where
  destroyedAt : Int
  reason : Option String

abbrev RevocationRecord := Record Detection

abbrev RelinquishRecord := Record Destruction

structure HeldGrant where
  publisher : String
  /-- `none` for an address of two parts. -/
  scopeId : Option String
  scopeName : Option String
  relayHint : Option String
  generation : JsNumber
  scopeKey : List UInt8
  issuedAt : Int
  expiration : Option JsNumber
  terms : Option NvoyTerms
  revoked : Option RevocationRecord
  relinquished : Option RelinquishRecord

namespace HeldGrant

variable (g : HeldGrant)

/-- The scope id as a key prints it. -/
def scope : String := g.scopeId.getD "undefined"

/-- `${g.publisher}:${g.scopeId}` -/
def key : String := g.publisher ++ ":" ++ g.scope

end HeldGrant

section Receiving

-- `String(number)` of a number, given as its mantissa and decimal exponent.
variable (numberText : Int → Int → String)

/-- One rumor as `receiveGrants` reads it; what throws is skipped. -/
def receive (rumor : Rumor) : Option HeldGrant := do
  let aTag ← rumor.tag "a"
  let parts := split ':' ((aTag[1]?).getD "undefined")
  guard (Broker.textNumber (parts.headD "") = some KIND_DATA_SET)
  guard (parts[1]? = some rumor.pubkey)
  let content ← Json.parse rumor.content.toList
  let scopeKey ← (Store.template numberText (content.get "scope_key")).bind atob
  return {
    publisher := rumor.pubkey
    scopeId := parts[2]?
    scopeName := (content.get "scope_name").bind Json.string
    relayHint := (aTag[2]?).filter (· ≠ "")
    generation := tagNumber (((rumor.tag "v").bind (·[1]?)).getD "0")
    scopeKey := scopeKey
    issuedAt := rumor.createdAt
    expiration := ((rumor.tag "expiration").bind (·[1]?)).map tagNumber
    terms := parseTerms content
    revoked := none
    relinquished := none }

def receiveGrants (rumors : List Rumor) : List HeldGrant := rumors.filterMap (receive numberText)

end Receiving

def latestGrants (grants : List HeldGrant) : List HeldGrant :=
  (grants.foldl (fun (best : JsMap String HeldGrant) g =>
    match best.get g.key with
    | some held => if JsNumber.lt held.generation g.generation then best.set g.key g else best
    | none => best.set g.key g) .empty).values

def grantStatus (g : HeldGrant) (nowSec : Int) : GrantStatus :=
  if g.revoked.isSome then .revokedDetected
  else if g.relinquished.isSome then .relinquished
  else match g.terms.bind (·.expiresAt) with
    | some expiresAt => if expiresAt.le (.finite nowSec) then .expired else .active
    | none =>
      match g.expiration with
      | some expiration => if expiration.le (.finite nowSec) then .expired else .active
      | none => .active

/-! ### The marks -/

abbrev Records (ν : Type) := JsMap String (Record ν)

namespace Records

variable {ν : Type} (records : Records ν) (key : String)

/-- The record that covers a generation of the scope. -/
def covering (generation : JsNumber) : Option (Record ν) :=
  (records.get key).filter fun record => generation.le record.generation

/-- A record that covers the new one stays. -/
def mark (record : Record ν) : Records ν :=
  records.set key ((records.covering key record.generation).getD record)

end Records

namespace HeldGrant

variable (g : HeldGrant)

/-- `g.scopeKey.fill(0)` -/
def zeroized : List UInt8 := g.scopeKey.map fun _ => 0

def revokedBy : Option RevocationRecord → HeldGrant
  | some record => { g with revoked := some record, scopeKey := g.zeroized }
  | none => g

def relinquishedBy : Option RelinquishRecord → HeldGrant
  | some record => { g with relinquished := some record, scopeKey := g.zeroized }
  | none => g

end HeldGrant

structure GrantStore where
  cache : Option (List HeldGrant)
  fetchedAt : Int
  revocations : Records Detection
  relinquishments : Records Destruction
  ttlMs : Int

namespace GrantStore

variable (store : GrantStore)

def applyRevocation (g : HeldGrant) : HeldGrant :=
  (g.revokedBy (store.revocations.covering g.key g.generation)).relinquishedBy
    (store.relinquishments.covering g.key g.generation)

/-- `this.cache ?? []` -/
def held : List HeldGrant := store.cache.getD []

/-- Whether `list` queries the relay. -/
def stale (nowMs maxAgeMs : Int) : Bool := store.cache.isNone || maxAgeMs < nowMs - store.fetchedAt

/-- The rest of `list`, after the relay's answer. -/
def refresh (grants : List HeldGrant) (nowMs : Int) : GrantStore :=
  { store with
    cache := some ((latestGrants grants).map store.applyRevocation)
    fetchedAt := nowMs }

/-- The held grants are decorated again after every mark. -/
def decorate : GrantStore := { store with cache := store.cache.map (List.map store.applyRevocation) }

def markRevoked (publisher scopeId : String) (record : RevocationRecord) : GrantStore :=
  decorate { store with revocations := store.revocations.mark (publisher ++ ":" ++ scopeId) record }

def markRelinquished (publisher scopeId : String) (record : RelinquishRecord) : GrantStore :=
  decorate
    { store with relinquishments := store.relinquishments.mark (publisher ++ ":" ++ scopeId) record }

/-- `(await this.list()).find(match)` -/
def match? (author scopeId : String) : Option HeldGrant :=
  store.held.find? fun g => g.publisher = author && g.scopeId = some scopeId

end GrantStore

/-! ### Calls and marks in any order -/

/-- A call that waits for the relay. -/
inductive Call where
  | listing
  | finding (author scopeId : String)
  | findingAgain (author scopeId : String)
  | ended

/-- A mark as it was made. -/
structure Mark where
  publisher : String
  scopeId : String
  generation : JsNumber

def Mark.of (mark : Mark) (g : HeldGrant) : Bool :=
  mark.publisher = g.publisher && mark.scopeId = g.scope

structure World where
  store : GrantStore
  calls : List Call
  /-- What the last step returned to a caller. -/
  returned : List HeldGrant
  marks : List Mark

namespace World

variable (w : World)

def waits (call : Call) : World := { w with calls := w.calls ++ [call], returned := [] }

/-- A `find` that has found nothing forces one refresh. -/
def findAgain (author scopeId : String) (nowMs : Int) : World :=
  if w.store.stale nowMs 0 then w.waits (.findingAgain author scopeId) else { w with returned := [] }

/-- A `find` on a list that has just come. -/
def finds (author scopeId : String) (nowMs : Int) : World :=
  match w.store.match? author scopeId with
  | some g => { w with returned := [g] }
  | none => w.findAgain author scopeId nowMs

end World

inductive Action where
  | list (nowMs maxAgeMs : Int)
  | find (author scopeId : String) (nowMs laterMs : Int)
  /-- The relay answers a call with these rumors. -/
  | answer (c : Nat) (rumors : List Rumor) (nowMs laterMs : Int)
  | fails (c : Nat)
  | markRevoked (publisher scopeId : String) (record : RevocationRecord)
  | markRelinquished (publisher scopeId : String) (record : RelinquishRecord)

def Action.mark : Action → Option Mark
  | .markRevoked publisher scopeId record => some ⟨publisher, scopeId, record.generation⟩
  | .markRelinquished publisher scopeId record => some ⟨publisher, scopeId, record.generation⟩
  | _ => none

section Running

variable (numberText : Int → Int → String)

/-- What happens up to the next await of a relay. -/
def step (w : World) : Action → World
  | .list nowMs maxAgeMs =>
    if w.store.stale nowMs maxAgeMs then w.waits .listing else { w with returned := w.store.held }
  | .find author scopeId nowMs laterMs =>
    if w.store.stale nowMs w.store.ttlMs then w.waits (.finding author scopeId)
    else w.finds author scopeId laterMs
  | .answer c rumors nowMs laterMs =>
    let after : World := { w with
      store := w.store.refresh (receiveGrants numberText rumors) nowMs
      calls := w.calls.set c .ended }
    match w.calls[c]? with
    | some .listing => { after with returned := after.store.held }
    | some (.finding author scopeId) => after.finds author scopeId laterMs
    | some (.findingAgain author scopeId) =>
      { after with returned := (after.store.match? author scopeId).toList }
    | some .ended | none => { w with returned := [] }
  | .fails c => { w with calls := w.calls.set c .ended, returned := [] }
  | .markRevoked publisher scopeId record =>
    { w with
      store := w.store.markRevoked publisher scopeId record
      returned := []
      marks := w.marks ++ [⟨publisher, scopeId, record.generation⟩] }
  | .markRelinquished publisher scopeId record =>
    { w with
      store := w.store.markRelinquished publisher scopeId record
      returned := []
      marks := w.marks ++ [⟨publisher, scopeId, record.generation⟩] }

/-- A runtime that has just started. -/
def World.start (ttlMs : Int) : World := ⟨⟨none, 0, .empty, .empty, ttlMs⟩, [], [], []⟩

/-! ### The condition -/

/-- The scope of the grant has been marked. -/
def World.marked (w : World) (g : HeldGrant) : Bool := w.marks.any (·.of g)

/-- No grant without a generation comes to a marked scope, or stands at the scope of a new mark; and
no mark is without one. -/
def Numbered (w : World) (action : Action) : Prop :=
  match action with
  | .answer _ rumors _ _ =>
    ∀ g ∈ latestGrants (receiveGrants numberText rumors), g.generation.isNaN = true →
      w.marked g = false
  | action => ∀ mark ∈ action.mark, mark.generation.isNaN = false ∧
      ∀ g ∈ w.store.held, mark.of g = true → g.generation.isNaN = false

end Running

/-! ### What a decorated grant keeps -/

section Decorating

variable {store : GrantStore} {g : HeldGrant}

@[simp]
theorem revokedBy_key (record : Option RevocationRecord) : (g.revokedBy record).key = g.key := by
  cases record <;> rfl

@[simp]
theorem relinquishedBy_key (record : Option RelinquishRecord) :
    (g.relinquishedBy record).key = g.key := by
  cases record <;> rfl

@[simp]
theorem revokedBy_generation (record : Option RevocationRecord) :
    (g.revokedBy record).generation = g.generation := by
  cases record <;> rfl

@[simp]
theorem relinquishedBy_generation (record : Option RelinquishRecord) :
    (g.relinquishedBy record).generation = g.generation := by
  cases record <;> rfl

@[simp]
theorem applyRevocation_generation : (store.applyRevocation g).generation = g.generation := by
  simp [GrantStore.applyRevocation]

@[simp]
theorem applyRevocation_key : (store.applyRevocation g).key = g.key := by
  simp [GrantStore.applyRevocation]

/-- Who granted and what: these a decoration leaves alone. -/
theorem applyRevocation_address : (store.applyRevocation g).publisher = g.publisher ∧
    (store.applyRevocation g).scope = g.scope := by
  unfold GrantStore.applyRevocation
  cases store.revocations.covering g.key g.generation with
  | none =>
    cases store.relinquishments.covering g.key g.generation with
    | none => exact ⟨rfl, rfl⟩
    | some record => exact ⟨rfl, rfl⟩
  | some record =>
    cases store.relinquishments.covering g.key g.generation with
    | none => exact ⟨rfl, rfl⟩
    | some record => exact ⟨rfl, rfl⟩

theorem of_applyRevocation (mark : Mark) : mark.of (store.applyRevocation g) = mark.of g := by
  rw [Mark.of, Mark.of, applyRevocation_address.1, applyRevocation_address.2]

/-- Decorating twice is decorating once. -/
theorem applyRevocation_idem :
    store.applyRevocation (store.applyRevocation g) = store.applyRevocation g := by
  have key : (store.applyRevocation g).key = g.key := applyRevocation_key
  have generation : (store.applyRevocation g).generation = g.generation := applyRevocation_generation
  rw [GrantStore.applyRevocation, key, generation, GrantStore.applyRevocation]
  cases store.revocations.covering g.key g.generation with
  | none =>
    cases store.relinquishments.covering g.key g.generation with
    | none => rfl
    | some record => simp [HeldGrant.revokedBy, HeldGrant.relinquishedBy, HeldGrant.zeroized]
  | some record =>
    cases store.relinquishments.covering g.key g.generation with
    | none => simp [HeldGrant.revokedBy, HeldGrant.relinquishedBy, HeldGrant.zeroized]
    | some record => simp [HeldGrant.revokedBy, HeldGrant.relinquishedBy, HeldGrant.zeroized]

/-- Dead: marked, and without a byte of its key. -/
def Dead (g : HeldGrant) : Prop :=
  (∀ nowSec, grantStatus g nowSec ≠ .active) ∧ ∀ byte ∈ g.scopeKey, byte = 0

theorem dead_of_marked (marked : g.revoked.isSome = true ∨ g.relinquished.isSome = true)
    (zero : ∀ byte ∈ g.scopeKey, byte = 0) : Dead g := by
  refine ⟨fun nowSec => ?_, zero⟩
  unfold grantStatus
  by_cases revoked : g.revoked.isSome = true
  · rw [if_pos revoked]
    nofun
  · rw [if_neg revoked, if_pos (marked.resolve_left revoked)]
    nofun

theorem zeroized_zero (g : HeldGrant) : ∀ byte ∈ g.zeroized, byte = 0 := by
  intro byte mem
  obtain ⟨_, -, rfl⟩ := List.mem_map.mp mem
  rfl

/-- A grant that a record covers is dead once it is decorated. -/
theorem dead_of_covered
    (covered : (store.revocations.covering g.key g.generation).isSome = true ∨
      (store.relinquishments.covering g.key g.generation).isSome = true) :
    Dead (store.applyRevocation g) := by
  unfold GrantStore.applyRevocation
  cases relinquished : store.relinquishments.covering g.key g.generation with
  | some record =>
    refine dead_of_marked (.inr rfl) ?_
    exact zeroized_zero _
  | none =>
    rw [relinquished] at covered
    obtain ⟨record, found⟩ := Option.isSome_iff_exists.mp (covered.resolve_right nofun)
    rw [found]
    exact dead_of_marked (.inl rfl) (zeroized_zero _)

end Decorating

/-! ### One scope and its key -/

/-- The texts of an address, which are parts between colons. -/
structure Formed (g : HeldGrant) : Prop where
  publisher : ':' ∉ g.publisher.toList
  scope : ':' ∉ g.scope.toList

/-- `${mark.publisher}:${mark.scopeId}` -/
def Mark.key (mark : Mark) : String := mark.publisher ++ ":" ++ mark.scopeId

theorem clean_of_split {text part : String} (listed : part ∈ split ':' text) : ':' ∉ part.toList := by
  obtain ⟨chars, mem, rfl⟩ := List.mem_map.mp listed
  rw [String.toList_ofList]
  exact Lines.notMem_of_mem_splitOn ':' mem

theorem formed_of_receive {numberText : Int → Int → String} {rumor : Rumor} {g : HeldGrant}
    (received : receive numberText rumor = some g) : Formed g := by
  simp only [receive, Option.bind_eq_bind, Option.bind_eq_some_iff,
    Option.guard_eq_some'] at received
  obtain ⟨aTag, -, _, -, _, author, _, -, _, -, made⟩ := received
  obtain rfl := Option.some.inj made
  constructor
  · exact clean_of_split (List.mem_of_getElem? author)
  · show ':' ∉ ((split ':' ((aTag[1]?).getD "undefined"))[2]?.getD "undefined").toList
    cases third : (split ':' ((aTag[1]?).getD "undefined"))[2]? with
    | none => decide
    | some part => exact clean_of_split (List.mem_of_getElem? third)

theorem Formed.applyRevocation {store : GrantStore} {g : HeldGrant} (formed : Formed g) :
    Formed (store.applyRevocation g) := by
  obtain ⟨publisher, scope⟩ :
      (store.applyRevocation g).publisher = g.publisher ∧
        (store.applyRevocation g).scope = g.scope := applyRevocation_address
  exact ⟨publisher ▸ formed.publisher, scope ▸ formed.scope⟩

theorem Mark.of_iff_key {mark : Mark} {g : HeldGrant} (formed : Formed g) :
    mark.of g = true ↔ mark.key = g.key := by
  constructor
  · intro same
    simp only [Mark.of, Bool.and_eq_true, decide_eq_true_eq] at same
    rw [Mark.key, HeldGrant.key, same.1, same.2]
  · intro same
    have texts := congrArg String.toList same
    simp only [Mark.key, HeldGrant.key, String.toList_append, List.append_assoc] at texts
    obtain ⟨publisher, scope⟩ := Lines.append_separator_inj ':' formed.publisher formed.scope texts
    simp only [Mark.of, Bool.and_eq_true, decide_eq_true_eq]
    exact ⟨String.toList_inj.mp publisher, String.toList_inj.mp scope⟩

theorem mem_latestGrants {grants : List HeldGrant} {g : HeldGrant} (mem : g ∈ latestGrants grants) :
    g ∈ grants := by
  obtain ⟨key, found⟩ := JsMap.mem_values.mp mem
  have kept : ∀ (before : List HeldGrant) (best : JsMap String HeldGrant),
      (∀ key g, best.get key = some g → g ∈ grants) → before ⊆ grants → ∀ key g,
      (before.foldl (fun (best : JsMap String HeldGrant) g =>
        match best.get g.key with
        | some held => if JsNumber.lt held.generation g.generation then best.set g.key g else best
        | none => best.set g.key g) best).get key = some g → g ∈ grants := by
    intro before
    induction before with
    | nil => exact fun best holds _ => holds
    | cons first rest ih =>
      intro best holds within
      have there : first ∈ grants := within List.mem_cons_self
      have placed : ∀ key g, (best.set first.key first).get key = some g → g ∈ grants := by
        intro key g found
        rw [JsMap.get_set] at found
        split at found
        next => exact Option.some.inj found ▸ there
        next => exact holds key g found
      rw [List.foldl_cons]
      refine ih _ ?_ fun g mem => within (List.mem_cons_of_mem _ mem)
      split
      next =>
        split
        next => exact placed
        next => exact holds
      next => exact placed
  exact kept grants .empty (fun key g found => by simp [JsMap.empty, JsMap.get] at found)
    (fun _ mem => mem) key g found

/-! ### The marks of a scope -/

section Marks

variable {ν : Type} {records : Records ν} {key other : String} {record : Record ν}
  {generation : JsNumber}

theorem covering_eq_some {found : Record ν} : records.covering key generation = some found ↔
    records.get key = some found ∧ generation.le found.generation = true := by
  simp [Records.covering, Option.filter_eq_some_iff]

/-- After a mark with a generation, the scope has a record that covers it. -/
theorem covered_mark (number : record.generation.isNaN = false) :
    ((records.mark key record).covering key record.generation).isSome = true := by
  rw [Option.isSome_iff_exists]
  cases covered : records.covering key record.generation with
  | some found =>
    refine ⟨found, covering_eq_some.mpr ⟨?_, (covering_eq_some.mp covered).2⟩⟩
    rw [Records.mark, covered, JsMap.get_set, if_pos rfl]
    rfl
  | none =>
    refine ⟨record, covering_eq_some.mpr ⟨?_, JsNumber.le_refl number⟩⟩
    rw [Records.mark, covered, JsMap.get_set, if_pos rfl]
    rfl

/-- A mark with a generation uncovers nothing. -/
theorem covered_of_mark (number : record.generation.isNaN = false)
    (covered : (records.covering other generation).isSome = true) :
    ((records.mark key record).covering other generation).isSome = true := by
  obtain ⟨found, covers⟩ := Option.isSome_iff_exists.mp covered
  obtain ⟨there, below⟩ := covering_eq_some.mp covers
  rw [Option.isSome_iff_exists]
  by_cases same : other = key
  · subst same
    cases stays : records.covering other record.generation with
    | some held =>
      obtain ⟨here, -⟩ := covering_eq_some.mp stays
      obtain rfl : held = found := Option.some.inj (here.symm.trans there)
      refine ⟨held, covering_eq_some.mpr ⟨?_, below⟩⟩
      rw [Records.mark, stays, JsMap.get_set, if_pos rfl]
      rfl
    | none =>
      -- the record gives way to a later generation
      have later : record.generation.le found.generation ≠ true := by
        intro covers
        rw [covering_eq_some.mpr ⟨there, covers⟩] at stays
        cases stays
      have numbers := JsNumber.numbers_of_le below
      have above := JsNumber.le_of_lt ((JsNumber.lt_iff_not_le number numbers.2).mpr later)
      refine ⟨record, covering_eq_some.mpr ⟨?_, JsNumber.le_trans below above⟩⟩
      rw [Records.mark, stays, JsMap.get_set, if_pos rfl]
      rfl
  · exact ⟨found, covering_eq_some.mpr ⟨by rw [Records.mark, JsMap.get_set, if_neg same, there], below⟩⟩

theorem covering_mark_of_ne (differ : other ≠ key) :
    (records.mark key record).covering other generation = records.covering other generation := by
  rw [Records.covering, Records.covering, Records.mark, JsMap.get_set, if_neg differ]

end Marks

/-! ### What every step keeps -/

/-- A record covers the generation at that scope. -/
def GrantStore.covers (store : GrantStore) (key : String) (generation : JsNumber) : Prop :=
  (store.revocations.covering key generation).isSome = true ∨
    (store.relinquishments.covering key generation).isSome = true

structure Kept (w : World) : Prop where
  decorated : ∀ g ∈ w.store.held, w.store.applyRevocation g = g
  formed : ∀ g ∈ w.store.held, Formed g
  recorded : ∀ mark ∈ w.marks, w.store.covers mark.key mark.generation
  numbered : ∀ g ∈ w.store.held, g.generation.isNaN = true → w.marked g = false
  returned : ∀ g ∈ w.returned, g ∈ w.store.held

section Steps

variable {w : World}

/-- What is held is as its marks have left it, whatever was returned last. -/
theorem Kept.returning (kept : Kept w) {calls : List Call} {returned : List HeldGrant}
    (held : ∀ g ∈ returned, g ∈ w.store.held) :
    Kept { w with calls := calls, returned := returned } :=
  ⟨kept.decorated, kept.formed, kept.recorded, kept.numbered, held⟩

theorem Kept.silent (kept : Kept w) {calls : List Call} :
    Kept { w with calls := calls, returned := [] } :=
  kept.returning fun _ mem => absurd mem List.not_mem_nil

theorem Kept.findAgain (kept : Kept w) (author scopeId : String) (nowMs : Int) :
    Kept (w.findAgain author scopeId nowMs) := by
  unfold World.findAgain
  split
  next => exact kept.silent
  next => exact kept.silent

theorem Kept.finds (kept : Kept w) (author scopeId : String) (nowMs : Int) :
    Kept (w.finds author scopeId nowMs) := by
  unfold World.finds
  split
  next g found =>
    apply kept.returning
    intro other mem
    rw [List.mem_singleton.mp mem]
    exact List.mem_of_find?_eq_some found
  next => exact kept.findAgain author scopeId nowMs

/-- The relay's grants come in decorated. -/
theorem Kept.refresh (kept : Kept w) {grants : List HeldGrant} {nowMs : Int} {calls : List Call}
    (formed : ∀ g ∈ grants, Formed g)
    (numbered : ∀ g ∈ latestGrants grants, g.generation.isNaN = true → w.marked g = false) :
    Kept { w with store := w.store.refresh grants nowMs, calls := calls, returned := [] } where
  decorated := by
    intro g mem
    obtain ⟨received, -, rfl⟩ := List.mem_map.mp mem
    exact applyRevocation_idem
  formed := by
    intro g mem
    obtain ⟨received, latest, rfl⟩ := List.mem_map.mp mem
    exact (formed received (mem_latestGrants latest)).applyRevocation
  recorded := kept.recorded
  numbered := by
    intro g mem unnumbered
    obtain ⟨received, latest, rfl⟩ := List.mem_map.mp mem
    rw [applyRevocation_generation] at unnumbered
    have unmarked := numbered received latest unnumbered
    unfold World.marked at unmarked ⊢
    simp only [of_applyRevocation]
    exact unmarked
  returned _ mem := absurd mem List.not_mem_nil

/-- The two marks alike: a store with more records decorates what is held. -/
theorem Kept.decorate (kept : Kept w) {store : GrantStore} (mark : Mark)
    (same : store.cache = w.store.cache)
    (covers : store.covers mark.key mark.generation)
    (keeps : ∀ key generation, w.store.covers key generation → store.covers key generation)
    (numbered : ∀ g ∈ w.store.held, mark.of g = true → g.generation.isNaN = false) :
    Kept { w with store := store.decorate, returned := [], marks := w.marks ++ [mark] } := by
  have held : ∀ g ∈ store.decorate.held, ∃ before ∈ w.store.held, g = store.applyRevocation before := by
    intro g mem
    unfold GrantStore.held GrantStore.decorate at mem
    unfold GrantStore.held
    rw [same] at mem
    cases cached : w.store.cache with
    | none =>
      rw [cached] at mem
      exact absurd mem List.not_mem_nil
    | some grants =>
      rw [cached] at mem
      obtain ⟨before, there, rfl⟩ := List.mem_map.mp mem
      exact ⟨before, there, rfl⟩
  refine ⟨?_, ?_, ?_, ?_, fun _ mem => absurd mem List.not_mem_nil⟩
  · intro g mem
    obtain ⟨before, -, rfl⟩ := held g mem
    exact applyRevocation_idem
  · intro g mem
    obtain ⟨before, there, rfl⟩ := held g mem
    exact (kept.formed before there).applyRevocation
  · intro other mem
    rcases List.mem_append.mp mem with old | new
    · exact keeps _ _ (kept.recorded other old)
    · rw [List.mem_singleton.mp new]
      exact covers
  · intro g mem unnumbered
    obtain ⟨before, there, rfl⟩ := held g mem
    rw [applyRevocation_generation] at unnumbered
    simp only [World.marked, of_applyRevocation, List.any_append, List.any_cons, List.any_nil,
      Bool.or_false, Bool.or_eq_false_iff]
    refine ⟨kept.numbered before there unnumbered, ?_⟩
    by_contra marks
    rw [numbered before there (by simpa using marks)] at unnumbered
    cases unnumbered

theorem covers_markRevoked {store : GrantStore} {key other : String} {record : RevocationRecord}
    {generation : JsNumber} (number : record.generation.isNaN = false)
    (covers : store.covers other generation) :
    GrantStore.covers { store with revocations := store.revocations.mark key record } other
      generation :=
  covers.imp (covered_of_mark number) id

theorem covers_markRelinquished {store : GrantStore} {key other : String} {record : RelinquishRecord}
    {generation : JsNumber} (number : record.generation.isNaN = false)
    (covers : store.covers other generation) :
    GrantStore.covers { store with relinquishments := store.relinquishments.mark key record } other
      generation :=
  covers.imp id (covered_of_mark number)

variable {numberText : Int → Int → String}

theorem formed_of_mem_receiveGrants {rumors : List Rumor} :
    ∀ g ∈ receiveGrants numberText rumors, Formed g := by
  intro g mem
  obtain ⟨rumor, -, received⟩ := List.mem_filterMap.mp mem
  exact formed_of_receive received

theorem kept_step (w : World) (action : Action) (kept : Kept w)
    (numbered : Numbered numberText w action) : Kept (step numberText w action) := by
  cases action with
  | list nowMs maxAgeMs =>
    simp only [step]
    split
    next => exact kept.silent
    next => exact kept.returning fun _ mem => mem
  | find author scopeId nowMs laterMs =>
    simp only [step]
    split
    next => exact kept.silent
    next => exact kept.finds author scopeId laterMs
  | answer c rumors nowMs laterMs =>
    have after : Kept { w with
        store := w.store.refresh (receiveGrants numberText rumors) nowMs
        calls := w.calls.set c .ended
        returned := [] } := kept.refresh formed_of_mem_receiveGrants numbered
    simp only [step]
    split
    next => exact after.returning fun _ mem => mem
    next author scopeId _ => exact after.finds author scopeId laterMs
    next author scopeId _ =>
      apply after.returning
      intro g mem
      exact List.mem_of_find?_eq_some (Option.mem_toList.mp mem)
    next => exact kept.silent
    next => exact kept.silent
  | fails c => exact kept.silent
  | markRevoked publisher scopeId record =>
    obtain ⟨number, held⟩ := numbered _ rfl
    exact kept.decorate ⟨publisher, scopeId, record.generation⟩ rfl
      (.inl (covered_mark number)) (fun _ _ => covers_markRevoked number) held
  | markRelinquished publisher scopeId record =>
    obtain ⟨number, held⟩ := numbered _ rfl
    exact kept.decorate ⟨publisher, scopeId, record.generation⟩ rfl
      (.inr (covered_mark number)) (fun _ _ => covers_markRelinquished number) held

end Steps

/-! ### The grants of a marked scope -/

section Scopes

variable {w : World} {numberText : Int → Int → String}

/-- Of a marked scope, what is held is dead, or of a later generation than every mark. -/
theorem Kept.dead_or_later (kept : Kept w) {g : HeldGrant} (held : g ∈ w.store.held) {mark : Mark}
    (made : mark ∈ w.marks) (marks : mark.of g = true) :
    Dead g ∨ ∀ other ∈ w.marks, other.of g = true →
      JsNumber.lt other.generation g.generation = true := by
  have number : g.generation.isNaN = false := by
    by_contra unnumbered
    have unmarked := kept.numbered g held (by simpa using unnumbered)
    exact absurd (List.any_eq_true.mpr ⟨mark, made, marks⟩) (by simpa [World.marked] using unmarked)
  by_cases covered : w.store.covers g.key g.generation
  · left
    rw [← kept.decorated g held]
    exact dead_of_covered covered
  · right
    intro other mem same
    rw [Mark.of_iff_key (kept.formed g held)] at same
    have recorded := kept.recorded other mem
    rw [same] at recorded
    -- the record of that mark does not reach the grant
    have later : ∀ reached : JsNumber, JsNumber.le other.generation reached = true →
        ¬ g.generation.le reached = true → JsNumber.lt other.generation g.generation = true := by
      intro reached below beyond
      obtain ⟨numberOther, numberReached⟩ := JsNumber.numbers_of_le below
      rw [JsNumber.lt_iff_not_le number numberOther]
      intro reaches
      exact beyond (JsNumber.le_trans reaches below)
    rcases recorded with recorded | recorded
    · obtain ⟨record, found⟩ := Option.isSome_iff_exists.mp recorded
      obtain ⟨there, below⟩ := covering_eq_some.mp found
      refine later record.generation below fun covers => covered (.inl ?_)
      rw [Option.isSome_iff_exists]
      exact ⟨record, covering_eq_some.mpr ⟨there, covers⟩⟩
    · obtain ⟨record, found⟩ := Option.isSome_iff_exists.mp recorded
      obtain ⟨there, below⟩ := covering_eq_some.mp found
      refine later record.generation below fun covers => covered (.inr ?_)
      rw [Option.isSome_iff_exists]
      exact ⟨record, covering_eq_some.mpr ⟨there, covers⟩⟩

/-- A mark for another scope decorates the grant as before. -/
theorem applyRevocation_of_mark {action : Action} {mark : Mark} (marks : action.mark = some mark)
    {g : HeldGrant} (formed : Formed g) (other : mark.of g = false) :
    (step numberText w action).store.applyRevocation g = w.store.applyRevocation g := by
  have differ : g.key ≠ mark.key := by
    intro same
    rw [(Mark.of_iff_key formed).mpr same.symm] at other
    cases other
  cases action with
  | markRevoked publisher scopeId record =>
    cases marks
    have covering : (w.store.revocations.mark (publisher ++ ":" ++ scopeId) record).covering g.key
        g.generation = w.store.revocations.covering g.key g.generation := covering_mark_of_ne differ
    show ((g.revokedBy ((w.store.revocations.mark _ record).covering g.key g.generation)).relinquishedBy
      _) = _
    rw [covering]
    rfl
  | markRelinquished publisher scopeId record =>
    cases marks
    have covering : (w.store.relinquishments.mark (publisher ++ ":" ++ scopeId) record).covering g.key
        g.generation = w.store.relinquishments.covering g.key g.generation :=
      covering_mark_of_ne differ
    show ((g.revokedBy _).relinquishedBy
      ((w.store.relinquishments.mark _ record).covering g.key g.generation)) = _
    rw [covering]
    rfl
  | list nowMs maxAgeMs => cases marks
  | find author scopeId nowMs laterMs => cases marks
  | answer c rumors nowMs laterMs => cases marks
  | fails c => cases marks

theorem held_of_mark {action : Action} {mark : Mark} (marks : action.mark = some mark) :
    (step numberText w action).store.held =
      w.store.held.map (step numberText w action).store.applyRevocation := by
  cases action with
  | markRevoked publisher scopeId record =>
    show (w.store.cache.map _).getD [] = (w.store.cache.getD []).map _
    cases w.store.cache <;> rfl
  | markRelinquished publisher scopeId record =>
    show (w.store.cache.map _).getD [] = (w.store.cache.getD []).map _
    cases w.store.cache <;> rfl
  | list nowMs maxAgeMs => cases marks
  | find author scopeId nowMs laterMs => cases marks
  | answer c rumors nowMs laterMs => cases marks
  | fails c => cases marks

/-- What the last step returned of a marked scope is dead or later than its marks; and a mark changes
neither what is held of another scope nor what a refresh makes of its rumors. -/
structure NeverServed (numberText : Int → Int → String) (w : World) : Prop where
  dead : ∀ g ∈ w.returned, ∀ mark ∈ w.marks, mark.of g = true →
    Dead g ∨ ∀ other ∈ w.marks, other.of g = true →
      JsNumber.lt other.generation g.generation = true
  held : ∀ action mark, action.mark = some mark → ∀ (i : Nat) g, w.store.held[i]? = some g →
    mark.of g = false → (step numberText w action).store.held[i]? = some g
  received : ∀ action mark, action.mark = some mark → ∀ rumor g, receive numberText rumor = some g →
    mark.of g = false →
      (step numberText w action).store.applyRevocation g = w.store.applyRevocation g

theorem Kept.neverServed (kept : Kept w) : NeverServed numberText w where
  dead g mem _ made marks := kept.dead_or_later (kept.returned g mem) made marks
  held action mark marks i g found other := by
    have there : g ∈ w.store.held := List.mem_of_getElem? found
    rw [held_of_mark marks, List.getElem?_map, found, Option.map_some,
      applyRevocation_of_mark marks (kept.formed g there) other, kept.decorated g there]
  received _ _ marks _ _ received other :=
    applyRevocation_of_mark marks (formed_of_receive received) other

end Scopes

theorem kept_start (ttlMs : Int) : Kept (World.start ttlMs) := by
  constructor <;> exact fun _ mem => absurd mem List.not_mem_nil

/-- **A marked key is not served again**, in every run in which no grant without a generation meets a
mark. -/
theorem never_served (numberText : Int → Int → String) (ttlMs : Int) (actions : List Action)
    (meets : Meets (step numberText) (Numbered numberText) (World.start ttlMs) actions) :
    NeverServed numberText (run (step numberText) (World.start ttlMs) actions) :=
  Kept.neverServed (meets.keeps kept_step (kept_start ttlMs))

/-! ### Two tags -/

/-- A grant of one scope whose `v` tag reads so. -/
def sampleRumor (v : String) : Rumor where
  pubkey := "a"
  createdAt := 5
  tags := [["a", "30440:a:s"], ["v", v]]
  content := Json.stringify (.obj [("scope_key", .str "AQID")])

def sampleGrant (generation : JsNumber) : HeldGrant where
  publisher := "a"
  scopeId := some "s"
  scopeName := none
  relayHint := none
  generation := generation
  scopeKey := [1, 2, 3]
  issuedAt := 5
  expiration := none
  terms := none
  revoked := none
  relinquished := none

theorem receive_sample (numberText : Int → Int → String) (v : String) :
    receive numberText (sampleRumor v) = some (sampleGrant (tagNumber v)) := by
  have parts : split ':' "30440:a:s" = ["30440", "a", "s"] := by decide
  have kind : Broker.textNumber "30440" = some KIND_DATA_SET := by decide +kernel
  have bytes : atob "AQID" = some [1, 2, 3] := by decide
  have aTag : (sampleRumor v).tag "a" = some ["a", "30440:a:s"] := rfl
  have vTag : (sampleRumor v).tag "v" = some ["v", v] := rfl
  have expiration : (sampleRumor v).tag "expiration" = none := rfl
  have content : Json.parse (sampleRumor v).content.toList =
      some (.obj [("scope_key", .str "AQID")]) := Json.parse_stringify _
  simp only [receive, aTag, vTag, expiration, content, Option.bind_eq_bind, Option.bind_some,
    List.getElem?_cons_succ, List.getElem?_cons_zero, Option.getD_some, parts, List.headD_cons, kind]
  simp [sampleRumor, sampleGrant, Json.get, Store.template, Store.asText, bytes, parseTerms, carrierOf,
    guard]

/-- The grant is served, marked as revoked, and asked for again after the cache's time. -/
def markedRun (v : String) : List Action :=
  [.list 0 60000, .answer 0 [sampleRumor v] 0 0,
    .markRevoked "a" "s" ⟨tagNumber v, ⟨none, 1⟩⟩,
    .list 100000 60000, .answer 1 [sampleRumor v] 100000 100000]

theorem latestGrants_sample (numberText : Int → Int → String) (v : String) :
    latestGrants (receiveGrants numberText [sampleRumor v]) = [sampleGrant (tagNumber v)] := by
  rw [receiveGrants, List.filterMap_cons, receive_sample]
  rfl

theorem tagNumber_one : tagNumber "1" = .finite 1 := by
  have text : Broker.textNumber "1" = some 1 := by decide +kernel
  have read : tagNumber "1" = (Broker.textNumber "1").bind JsNumber.ofRat := by rfl
  have small : |(1 : ℚ)| < 2 ^ 1024 - 2 ^ 970 := by
    have double : (2 : ℚ) ^ 970 * 2 ≤ 2 ^ 1024 := by
      rw [← pow_succ]
      exact pow_le_pow_right₀ one_le_two (by decide)
    have one : (1 : ℚ) < 2 ^ 970 := one_lt_pow₀ one_lt_two (by decide)
    rw [abs_one, lt_sub_iff_add_lt]
    calc (1 : ℚ) + 2 ^ 970 < 2 ^ 970 + 2 ^ 970 := by gcongr
      _ = 2 ^ 970 * 2 := (mul_two _).symm
      _ ≤ 2 ^ 1024 := double
  rw [read, text, Option.bind_some, JsNumber.ofRat, if_pos small]

theorem tagNumber_letter : tagNumber "x" = none := by decide

section Sample

variable (numberText : Int → Int → String) (v : String)

/-- The grant has been served once. -/
def servedOnce : World :=
  ⟨⟨some [sampleGrant (tagNumber v)], 0, .empty, .empty, 60000⟩, [.ended],
    [sampleGrant (tagNumber v)], []⟩

theorem serves_sample :
    run (step numberText) (World.start 60000) ((markedRun v).take 2) = servedOnce v := by
  have latest := latestGrants_sample numberText v
  simp only [markedRun, List.take_succ_cons, List.take_zero, Runs.run_cons, Runs.run_nil]
  simp only [step, World.start, GrantStore.stale, World.waits, GrantStore.refresh, latest]
  rfl

end Sample

/-- `String(number)` of an integer. -/
def integerText (mantissa _exponent : Int) : String := toString mantissa

theorem never_served_one :
    NeverServed integerText (run (step integerText) (World.start 60000) (markedRun "1")) := by
  have numbered : ∀ w c nowMs laterMs,
      Numbered integerText w (.answer c [sampleRumor "1"] nowMs laterMs) := by
    intro w c nowMs laterMs g mem unnumbered
    rw [latestGrants_sample, tagNumber_one] at mem
    rw [List.mem_singleton.mp mem] at unnumbered
    cases unnumbered
  have served := serves_sample integerText "1"
  refine never_served integerText 60000 _ ⟨nofun, numbered _ _ _ _, ?_, nofun, numbered _ _ _ _, trivial⟩
  rintro mark made
  obtain rfl := Option.some.inj made
  refine ⟨by rw [tagNumber_one]; rfl, ?_⟩
  intro g held _
  have only : g ∈ (servedOnce "1").store.held := by
    rw [← served]
    exact held
  rw [List.mem_singleton.mp only]
  show JsNumber.isNaN (tagNumber "1") = false
  rw [tagNumber_one]
  rfl

/-- **A tag that is no number** gives a grant that no record covers: served once and marked, it is
served again, active and with its key. -/
theorem unnumbered_served :
    sampleGrant none ∈ (servedOnce "x").returned ∧
      (run (step integerText) (World.start 60000) (markedRun "x")).marks = [⟨"a", "s", none⟩] ∧
      (run (step integerText) (World.start 60000) (markedRun "x")).returned = [sampleGrant none] ∧
      grantStatus (sampleGrant none) 0 = .active ∧
      ¬ NeverServed integerText (run (step integerText) (World.start 60000) (markedRun "x")) := by
  have latest := latestGrants_sample integerText "x"
  rw [tagNumber_letter] at latest
  have split : markedRun "x" = (markedRun "x").take 2 ++ (markedRun "x").drop 2 :=
    (List.take_append_drop 2 _).symm
  have after : run (step integerText) (World.start 60000) (markedRun "x") =
      run (step integerText) (servedOnce "x") ((markedRun "x").drop 2) := by
    conv_lhs => rw [split]
    rw [Runs.run_append, serves_sample]
  have marks : (run (step integerText) (World.start 60000) (markedRun "x")).marks =
      [⟨"a", "s", none⟩] := by
    rw [after, servedOnce, tagNumber_letter]
    simp only [markedRun, List.drop_succ_cons, List.drop_zero, Runs.run_cons, Runs.run_nil,
      tagNumber_letter]
    simp only [step, World.waits, GrantStore.refresh, latest]
    rfl
  have returned : (run (step integerText) (World.start 60000) (markedRun "x")).returned =
      [sampleGrant none] := by
    rw [after, servedOnce, tagNumber_letter]
    simp only [markedRun, List.drop_succ_cons, List.drop_zero, Runs.run_cons, Runs.run_nil,
      tagNumber_letter]
    simp only [step, World.waits, GrantStore.refresh, latest]
    rfl
  refine ⟨?_, marks, returned, rfl, fun never => ?_⟩
  · rw [servedOnce, tagNumber_letter]
    exact List.mem_singleton_self _
  · have dead := never.dead (sampleGrant none) (by rw [returned]; exact List.mem_singleton_self _)
      ⟨"a", "s", none⟩ (by rw [marks]; exact List.mem_singleton_self _) rfl
    rcases dead with ⟨inactive, -⟩ | later
    · exact inactive 0 rfl
    · have below := later ⟨"a", "s", none⟩ (by rw [marks]; exact List.mem_singleton_self _) rfl
      cases below

end Nvoy.Grants.Served
