/-
**The terms of a grant on their way to the budget**: what `parseTerms` keeps of a grant's content,
and what `issueDerivedGrant` then makes of `redelegate`.

* `carrierOf`, `parseTerms` — the tolerant reader, of both forms of the content;
* `issuing` — one issuance, from its start to the publish of the child's scope;
* `issuing_published` — it publishes exactly if the checks and the estate's own budget let it;
* `bound_honoured_iff` — the delegator's `redelegate` decides, unless it is a bound object;
* `bound_object_dropped` — a bound of one child for one recipient, under which nothing is published.
-/

import Nvoy.Grants.Budget

namespace Nvoy.Grants

open Nvoy.Runs

/-! ### The reader -/

/-- Where the terms stand: nested, or in the content itself beside `nvoy: 1`. -/
def carrierOf (content : Json) : Option Json :=
  match content.get "nvoy" with
  | some (.obj fields) => some (.obj fields)
  | some (.num _ _) => some content
  | _ => none

/-- `take(carrier, key, 'number')` -/
def takeNumber (carrier : Json) (key : String) : Option JsNumber :=
  match carrier.get key with
  | some (.num mantissa exponent) => some (.ofRat (mantissa * (10 : ℚ) ^ exponent))
  | _ => none

/-- `take(carrier, key, 'boolean')` -/
def takeBoolean (carrier : Json) (key : String) : Option Bool :=
  match carrier.get key with
  | some (.bool value) => some value
  | _ => none

def parseTerms (content : Json) : Option NvoyTerms :=
  (carrierOf content).map fun carrier =>
    { expiresAt := takeNumber carrier "expires_at"
      noPersist := (takeBoolean carrier "no_persist").getD false
      redelegate := (takeBoolean carrier "redelegate").map .bool }

/-- `redelegate` as the delegator wrote it. -/
def writtenRedelegate (content : Json) : Option Json :=
  (carrierOf content).bind (·.get "redelegate")

/-- The terms as the delegator wrote them. -/
def writtenTerms (content : Json) : Option NvoyTerms :=
  (parseTerms content).map fun terms => { terms with redelegate := writtenRedelegate content }

/-- `typeof value === 'object'`, but for `null` -/
def isBound : Json → Bool
  | .arr _ => true
  | .obj _ => true
  | _ => false

/-- The delegator wrote a bound object. -/
def namesBound (content : Json) : Bool := (writtenRedelegate content).any isBound

theorem writtenTerms_redelegate (content : Json) :
    (writtenTerms content).bind (·.redelegate) = writtenRedelegate content := by
  unfold writtenTerms parseTerms writtenRedelegate
  cases carrierOf content with
  | none => rfl
  | some carrier => rfl

/-- Of the values of `redelegate` the reader keeps the truth values. -/
theorem parseTerms_redelegate (content : Json) :
    (parseTerms content).bind (·.redelegate) = some (.bool true) ↔
      writtenRedelegate content = some (.bool true) := by
  unfold parseTerms writtenRedelegate
  cases carrierOf content with
  | none => simp
  | some carrier =>
    simp only [Option.map_some, Option.bind_some, takeBoolean]
    split
    next value found => simp [found]
    next other =>
      simp only [Option.map_none, reduceCtorEq, false_iff]
      exact other true

/-! ### One issuance -/

/-- The gates of `issueDerivedGrant` other than `redelegate` and its budget. -/
structure Eligible (args : Issuance) (nowSec : Int) : Prop where
  active : grantStatus args.parent nowSec = .active
  storable : args.parent.terms.any (·.noPersist) = false
  purposed : Memory.trim args.terms.purpose ≠ ""
  endBy : args.terms.endBy args.parent.expiry = true
  named : "derived:".toList.isPrefixOf args.scopeName.toList = true

/-- The call that starts next, on a parent that is freshly readable, up to the publish of the child's
scope, which the relay takes. -/
def issuing (runtime : Runtime) (args : Issuance) (nowSec : Int) (loaded : Loaded) (scopeId : String)
    (scopeKey : ScopeKey) : List Action :=
  [.start args nowSec, .check runtime.calls.length loaded, .fetch runtime.calls.length true,
    .publish runtime.calls.length scopeId scopeKey .taken]

/-- The child's scope is the one thing the call has published. -/
def Publishes (runtime : Runtime) (args : Issuance) (nowSec : Int) (loaded : Loaded)
    (scopeId : String) (scopeKey : ScopeKey) : Prop :=
  (run step runtime (issuing runtime args nowSec loaded scopeId scopeKey)).published =
    runtime.published ++ [⟨args.parent.id, scopeId, args.recipient⟩]

/-- `boundOf` accepts what the delegator wrote, and `admitsAnother` one more child under it. -/
def Admits (content : Json) (index : GrantIndex) (args : Issuance) : Prop :=
  match boundOf (writtenTerms content) with
  | .ok bound => checkBudget bound index args.parent args.recipient = .ok ()
  | .error _ => False

section Issuance

variable {content : Json} {args : Issuance} {nowSec : Int} {runtime : Runtime} {loaded : Loaded}
  {index : GrantIndex} {scopeId : String} {scopeKey : ScopeKey}

theorem validate_iff (eligible : Eligible args nowSec) :
    validate args.parent args.terms nowSec = .ok () ↔
      args.parent.terms.bind (·.redelegate) = some (.bool true) := by
  refine ⟨validate_redelegate, fun permits => ?_⟩
  simp [validate, bind_eq_ok, ensure_eq_ok, permits, eligible.active, eligible.storable,
    eligible.purposed, eligible.endBy]

theorem boundOf_true {terms : Option NvoyTerms}
    (permits : terms.bind (·.redelegate) = some (.bool true)) :
    boundOf terms = .ok REDELEGATE_DEFAULTS := by
  rw [boundOf, permits]

/-- A call that `validate` stops has published nothing. -/
theorem issuing_refused (refused : validate args.parent args.terms nowSec ≠ .ok ()) :
    (run step runtime (issuing runtime args nowSec loaded scopeId scopeKey)).published =
      runtime.published := by
  have start : step runtime (.start args nowSec) = runtime := by
    simp only [step]
    split
    next valid _ => exact absurd valid refused
    next => rfl
  have absent : runtime.calls[runtime.calls.length]? = none := by simp
  have check : step runtime (.check runtime.calls.length loaded) = runtime := by
    simp only [step, absent]
  have fetch : step runtime (.fetch runtime.calls.length true) = runtime := by
    simp only [step, absent]
  have publish : step runtime (.publish runtime.calls.length scopeId scopeKey .taken) = runtime := by
    simp only [step, absent]
  rw [issuing, run_cons, start, run_cons, check, run_cons, fetch, run_cons, publish, run_nil]

/-- **One issuance** publishes the child's scope exactly if the budget of the estate has room. -/
theorem issuing_published (eligible : Eligible args nowSec)
    (permits : args.parent.terms.bind (·.redelegate) = some (.bool true))
    (answered : loaded.of runtime.index = some index) :
    (run step runtime (issuing runtime args nowSec loaded scopeId scopeKey)).published =
      runtime.published ++
        match checkBudget REDELEGATE_DEFAULTS index args.parent args.recipient with
        | .ok () => [⟨args.parent.id, scopeId, args.recipient⟩]
        | .error _ => [] := by
  have start : step runtime (.start args nowSec) =
      { runtime with calls := runtime.calls ++ [.issue args REDELEGATE_DEFAULTS .checking] } := by
    simp only [step, (validate_iff eligible).mpr permits, boundOf_true permits]
  rw [issuing, run_cons, start]
  cases room : checkBudget REDELEGATE_DEFAULTS index args.parent args.recipient with
  | ok _ =>
    have named := eligible.named
    simp at named
    simp [step, answered, room, Runtime.goes, named]
  | error why => simp [step, answered, room, Runtime.goes]

theorem boundOf_cases {terms : Option NvoyTerms} {bound : RedelegateBound}
    (accepted : boundOf terms = .ok bound) :
    terms.bind (·.redelegate) = some (.bool true) ∨
      (terms.bind (·.redelegate)).any isBound = true := by
  unfold boundOf at accepted
  split at accepted
  next => cases accepted
  next => cases accepted
  next => cases accepted
  next found => exact .inl found
  next => cases accepted
  next => cases accepted
  next value null isFalse isTrue num str found =>
    right
    rw [found]
    cases value with
    | arr items => rfl
    | obj fields => rfl
    | null => exact absurd rfl null
    | bool value =>
      cases value with
      | false => exact absurd rfl isFalse
      | true => exact absurd rfl isTrue
    | num mantissa exponent => exact absurd rfl (num mantissa exponent)
    | str text => exact absurd rfl (str text)

/-- **The delegator's bound** decides whether a child is published, for every content but those whose
`redelegate` is a bound object with room for the child: there nothing is published. -/
theorem bound_honoured_iff (delivered : args.parent.terms = parseTerms content)
    (eligible : Eligible args nowSec) (answered : loaded.of runtime.index = some index) :
    (Publishes runtime args nowSec loaded scopeId scopeKey ↔ Admits content index args) ↔
      ¬ (namesBound content = true ∧ Admits content index args) := by
  by_cases permits : writtenRedelegate content = some (.bool true)
  · -- a bare `true` is read and means the estate's defaults
    have read : args.parent.terms.bind (·.redelegate) = some (.bool true) := by
      rw [delivered]
      exact parseTerms_redelegate content |>.mpr permits
    have written : boundOf (writtenTerms content) = .ok REDELEGATE_DEFAULTS :=
      boundOf_true (by rw [writtenTerms_redelegate, permits])
    have plain : namesBound content = false := by rw [namesBound, permits]; rfl
    have agree : Publishes runtime args nowSec loaded scopeId scopeKey ↔ Admits content index args := by
      rw [Publishes, issuing_published eligible read answered, Admits, written]
      dsimp only
      cases checkBudget REDELEGATE_DEFAULTS index args.parent args.recipient with
      | ok _ => simp
      | error why => simp
    simp [agree, plain]
  · -- anything else is dropped, and `validate` stops the call
    have refused : validate args.parent args.terms nowSec ≠ .ok () := by
      rw [Ne, validate_iff eligible, delivered, parseTerms_redelegate]
      exact permits
    have silent : ¬ Publishes runtime args nowSec loaded scopeId scopeKey := by
      rw [Publishes, issuing_refused refused]
      simp
    have object : Admits content index args → namesBound content = true := by
      intro admits
      unfold Admits at admits
      split at admits
      next bound accepted =>
        have cases := boundOf_cases accepted
        rw [writtenTerms_redelegate] at cases
        exact cases.resolve_left permits
      next => exact admits.elim
    constructor
    · rintro agree ⟨-, admits⟩
      exact silent (agree.mpr admits)
    · intro none
      constructor
      · intro publishes
        exact absurd publishes silent
      · intro admits
        exact absurd ⟨object admits, admits⟩ none

end Issuance

/-! ### A bound of one child -/

/-- The content of a grant whose delegator lets the holder derive one child for one recipient. -/
def boundedContent : Json :=
  .obj [("scope_key", .str "AA=="), ("nvoy", .obj [("nvoy", .num 1 0),
    ("redelegate", .obj [("max_children", .num 1 0), ("max_grantees", .num 1 0)])])]

/-- The content of a grant with a bare `redelegate: true`. -/
def bareContent : Json :=
  .obj [("scope_key", .str "AA=="), ("nvoy", .obj [("nvoy", .num 1 0), ("redelegate", .bool true)])]

def sampleIssuance (content : Json) : Issuance :=
  ⟨{ sampleParent with terms := parseTerms content }, sampleKey 'c', "derived:leaf", sampleTerms⟩

theorem sampleIssuance_eligible_bare : Eligible (sampleIssuance bareContent) 10 :=
  ⟨by decide, by decide, by decide, by decide, by decide⟩

theorem bound_honoured_bare :
    (Publishes (Runtime.start [] []) (sampleIssuance bareContent) 10 .document "c" ⟨1⟩ ↔
      Admits bareContent .blank (sampleIssuance bareContent)) ↔
      ¬ (namesBound bareContent = true ∧ Admits bareContent .blank (sampleIssuance bareContent)) :=
  bound_honoured_iff rfl sampleIssuance_eligible_bare rfl

/-- **A bound object is dropped** by the reader: `boundOf` and `admitsAnother` would let the first
child pass, and nothing is published. -/
theorem bound_object_dropped : Eligible (sampleIssuance boundedContent) 10 ∧
    Admits boundedContent .blank (sampleIssuance boundedContent) ∧
    ¬ Publishes (Runtime.start [] []) (sampleIssuance boundedContent) 10 .document "c" ⟨1⟩ := by
  refine ⟨⟨by decide +kernel, by decide +kernel, by decide +kernel, by decide +kernel,
    by decide +kernel⟩, ?_, ?_⟩
  · have accepted : boundOf (writtenTerms boundedContent) = .ok ⟨1, 1, false⟩ := by decide +kernel
    rw [Admits, accepted]
    show checkBudget ⟨1, 1, false⟩ .blank _ _ = .ok ()
    decide +kernel
  · unfold Publishes
    decide +kernel

end Nvoy.Grants
