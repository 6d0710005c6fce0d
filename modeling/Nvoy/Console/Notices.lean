/-
**Relinquish notices**: every load reads all of them again and plans a rotation for each sender
that holds the scope.

A notice names a scope and no generation, and nothing records that it has been acted on:

* `Fresh` — no 440 goes to an agent that has already sent a notice for the scope;
* `ends_own_grant` — then every planned rotation is for an agent whose latest grant is older than
  the notice it is planned for;
* `regrant_dropped` — an agent that relinquished, was rotated out and was granted the scope again is
  rotated out by the next load, on the old notice.
-/

import Nvoy.Console.Rotation

namespace Nvoy.Console

open Grants (IssuedEntry ScopeKey)
open Runs (run Meets)

/-! ### Grants after notices -/

/-- Does the 440 count as a grant? Those of `issue` and `addGrantee` do; those of a rotation to its
survivors where `regrants` says so. -/
def Grant.counts (regrants : Bool) (g : Grant) : Bool := regrants || !g.again

/-- The later message grants what the earlier one gave back. -/
def renews (regrants : Bool) : Message → Message → Prop
  | .relinquish notice, .grant g =>
    g.scope = notice.scope ∧ g.agent = notice.sender ∧ g.counts regrants = true
  | _, _ => False

/-- The agent has sent a notice for the scope. -/
def noticed (messages : List Message) (scope agent : String) : Bool :=
  messages.any fun
    | .relinquish notice => notice.scope = scope && notice.sender = agent
    | _ => false

/-- The holders of the scope other than these. -/
def Desk.others (desk : Desk) (scope : String) (drop : List String) : List String :=
  (desk.index.issued.filter (·.scope = scope)).flatMap fun entry =>
    entry.grantees.filter fun p => !drop.contains p

/-- The agents the action sends a 440 of the scope, as far as it counts. -/
def Action.recipients (regrants : Bool) (desk : Desk) : Action → List (String × String)
  | .issue _ scope _ agent _ _ _ => [(scope, agent)]
  | .addGrantee _ scope agent _ _ => [(scope, agent)]
  | .revoke _ scope agent _ _ _ _ =>
    if regrants then (desk.others scope [agent]).map (scope, ·) else []
  | .runExpiryRotation _ item _ _ _ =>
    if regrants then (desk.others item.scope item.expired).map (item.scope, ·) else []
  | .runRelinquishRotation _ item _ _ _ =>
    if regrants then (desk.others item.scope [item.agent]).map (item.scope, ·) else []
  | _ => []

/-- No 440 goes to an agent that has already sent a notice for the scope. -/
def Fresh (regrants : Bool) (desk : Desk) (action : Action) : Prop :=
  ∀ pair ∈ action.recipients regrants desk, noticed desk.messages pair.1 pair.2 = false

instance (regrants : Bool) (desk : Desk) (action : Action) :
    Decidable (Fresh regrants desk action) := by
  unfold Fresh
  infer_instance

/-! ### The plan -/

/-- The item is made of the notice. -/
def RelinquishItem.isOf (item : RelinquishItem) (notice : Relinquish) : Prop :=
  item.scope = notice.scope ∧ item.agent = notice.sender ∧ item.reason = notice.reason ∧
    item.destroyedAt = notice.destroyedAt

theorem mem_noteRelinquish {issued : JsMap String IssuedEntry} {plan : RelinquishPlan}
    {notice : Relinquish} {item : RelinquishItem}
    (mem : item ∈ (noteRelinquish issued plan notice).auto ++
      (noteRelinquish issued plan notice).confirm) :
    item ∈ plan.auto ++ plan.confirm ∨ item.isOf notice := by
  unfold noteRelinquish at mem
  split at mem
  next => exact .inl mem
  next =>
    simp only at mem
    split at mem
    next => exact .inl mem
    next entry found =>
      split at mem
      next =>
        split at mem
        all_goals
          simp only [List.append_assoc, List.mem_append, List.mem_singleton] at mem ⊢
          rcases mem with old | new | old
        · exact .inl (.inl old)
        · exact .inr (by rw [new]; exact ⟨rfl, rfl, rfl, rfl⟩)
        · exact .inl (.inr old)
        · exact .inl (.inl old)
        · exact .inl (.inr new)
        · exact .inr (by rw [old]; exact ⟨rfl, rfl, rfl, rfl⟩)
      next => exact .inl mem

/-- Every item of the plan is made of a notice. -/
theorem mem_relinquishPlan {index : Index} {relinquishes : List Relinquish}
    {item : RelinquishItem}
    (mem : item ∈ (relinquishPlan index relinquishes).auto ++
      (relinquishPlan index relinquishes).confirm) :
    ∃ notice ∈ relinquishes, item.isOf notice := by
  unfold relinquishPlan at mem
  induction relinquishes using List.reverseRecOn with
  | nil => exact absurd mem List.not_mem_nil
  | append_singleton front last ih =>
      rw [List.foldl_append, List.foldl_cons, List.foldl_nil] at mem
      rcases mem_noteRelinquish mem with old | new
      · obtain ⟨notice, listed, made⟩ := ih old
        exact ⟨notice, List.mem_append_left _ listed, made⟩
      · exact ⟨last, List.mem_append_right _ (List.mem_singleton_self _), new⟩

/-! ### What every step keeps -/

structure Settled (regrants : Bool) (desk : Desk) : Prop where
  unrenewed : desk.messages.Pairwise fun earlier later => ¬renews regrants earlier later
  planned : ∀ item ∈ desk.auto ++ desk.pendingRelinquish,
    ∃ notice, .relinquish notice ∈ desk.messages ∧ item.isOf notice

variable {desk : Desk} {regrants : Bool}

/-- More messages, in which no counting 440 goes to an agent that sent a notice for the scope. -/
theorem Settled.send (settled : Settled regrants desk) {more : List Message} (index : Index)
    (silent : ∀ notice, .relinquish notice ∈ more → more = [.relinquish notice])
    (fresh : ∀ g, .grant g ∈ more → g.counts regrants = true →
      noticed desk.messages g.scope g.agent = false) :
    Settled regrants { desk with messages := desk.messages ++ more, index := index } where
  unrenewed := by
    refine List.pairwise_append.mpr ⟨settled.unrenewed, ?_, ?_⟩
    · by_cases quiet : ∃ notice, .relinquish notice ∈ more
      · obtain ⟨notice, mem⟩ := quiet
        rw [silent notice mem]
        exact List.pairwise_singleton _ _
      · refine List.pairwise_of_forall_mem_list fun earlier mem later _ renewed => ?_
        cases earlier with
        | relinquish notice => exact quiet ⟨notice, mem⟩
        | scope => exact renewed
        | grant => exact renewed
    · intro earlier mem later mem' renewed
      cases earlier with
      | scope => exact renewed
      | grant => exact renewed
      | relinquish notice =>
          cases later with
          | scope => exact renewed
          | relinquish => exact renewed
          | grant g =>
              obtain ⟨here, whom, counts⟩ := renewed
              have absent := fresh g mem' counts
              rw [noticed, List.any_eq_false] at absent
              exact absent _ mem (by simp [here, whom])
  planned item mem := by
    obtain ⟨notice, sent, made⟩ := settled.planned item mem
    exact ⟨notice, List.mem_append_left _ sent, made⟩

/-- A 440 of a rotation goes to a holder that is not dropped. -/
theorem recipient_of_regrant {index : Index} {nowSec : Int} {entry : IssuedEntry}
    {drop : List String} {message : Message}
    (sent : message ∈ rotateWithTerms entry.scope entry.v (survivorsOf index nowSec entry drop)) :
    message = .scope entry.scope (entry.v + 1) ∨
      ∃ g, message = .grant g ∧ g.scope = entry.scope ∧ g.again = true ∧
        g.agent ∈ entry.grantees.filter fun p => !drop.contains p := by
  simp only [rotateWithTerms, survivorsOf, List.map_map, List.mem_cons, List.mem_map,
    Function.comp_apply] at sent
  rcases sent with scope | ⟨pub, holder, grant⟩
  · exact .inl scope
  · exact .inr ⟨_, grant.symm, rfl, rfl, holder⟩

theorem Settled.rotate (settled : Settled regrants desk) {nowSec : Int} {scope : String}
    {drop : List String} {res : ReadBack} {key : ScopeKey}
    {makeEvents : Nat → Nat → Nat → List LedgerEvent} {progress : Progress}
    (fresh : ∀ pair ∈ if regrants then (desk.others scope drop).map (scope, ·) else [],
      noticed desk.messages pair.1 pair.2 = false) :
    Settled regrants (desk.rotate nowSec scope drop res key makeEvents progress) := by
  unfold Desk.rotate
  cases done : rotateDropping desk.index nowSec scope drop res key makeEvents with
  | error text => exact settled
  | ok rotation =>
      obtain ⟨entry, mem, named, survivors, messages, -, -⟩ := ok_of_rotateDropping done
      rw [survivors] at messages
      have silent : ∀ notice, .relinquish notice ∉ rotation.messages := by
        intro notice listed
        rw [messages] at listed
        rcases recipient_of_regrant listed with scope | ⟨g, grant, -⟩
        · cases scope
        · cases grant
      have allowed : ∀ g, .grant g ∈ rotation.messages → g.counts regrants = true →
          noticed desk.messages g.scope g.agent = false := by
        intro g listed counts
        rw [messages] at listed
        rcases recipient_of_regrant listed with scope | ⟨g', grant, here, again, holder⟩
        · cases scope
        · cases grant
          have counting : regrants = true := by simpa [Grant.counts, again] using counts
          rw [if_pos counting] at fresh
          refine fresh (g.scope, g.agent) (List.mem_map.mpr ⟨g.agent, ?_, ?_⟩)
          · exact List.mem_flatMap.mpr
              ⟨entry, List.mem_filter.mpr ⟨mem, by simpa using named⟩, holder⟩
          · rw [here, named]
      cases progress with
      | saved =>
          exact settled.send rotation.index (fun notice listed => absurd listed (silent notice))
            allowed
      | stopped published =>
          refine settled.send desk.index
            (fun notice listed => absurd (List.mem_of_mem_take listed) (silent notice)) ?_
          exact fun g listed => allowed g (List.mem_of_mem_take listed)

/-- A call that sends one agent a 440, after publications of the scope. -/
theorem Settled.grant (settled : Settled regrants desk) {messages : List Message} {index : Index}
    {progress : Progress}
    (sends : ∀ message ∈ messages, (∃ scope v, message = .scope scope v) ∨
      ∃ g, message = .grant g ∧ noticed desk.messages g.scope g.agent = false) :
    Settled regrants (desk.perform messages index progress) := by
  have part : ∀ some : List Message, (∀ message ∈ some, message ∈ messages) → ∀ index,
      Settled regrants { desk with messages := desk.messages ++ some, index := index } := by
    intro some sub index
    refine settled.send index (fun notice listed => ?_) fun g listed _ => ?_
    · rcases sends _ (sub _ listed) with ⟨scope, v, same⟩ | ⟨g, same, -⟩
      · cases same
      · cases same
    · rcases sends _ (sub _ listed) with ⟨scope, v, same⟩ | ⟨g', same, absent⟩
      · cases same
      · cases same
        exact absent
  cases progress with
  | saved => exact part messages (fun _ listed => listed) index
  | stopped published =>
      exact part (messages.take published) (fun _ listed => List.mem_of_mem_take listed) desk.index

theorem mem_newestFirst {relinquishes : List Relinquish} {notice : Relinquish} :
    notice ∈ newestFirst relinquishes ↔ notice ∈ relinquishes := List.mem_insertionSort _

theorem Settled.step {action : Action} (settled : Settled regrants desk)
    (fresh : Fresh regrants desk action) : Settled regrants (step desk action) := by
  unfold Console.step
  split
  next admitted =>
    cases action with
    | issue nowSec scope scopeName agent terms key progress =>
        refine settled.grant fun message listed => ?_
        rcases List.mem_cons.mp listed with rfl | grant
        · exact .inl ⟨_, _, rfl⟩
        · exact .inr ⟨_, List.mem_singleton.mp grant, fresh _ (List.mem_singleton_self _)⟩
    | addGrantee nowSec scope agent terms progress =>
        simp only
        split
        next => exact settled
        next entry found =>
          refine settled.grant fun message listed => .inr ⟨_, List.mem_singleton.mp listed, ?_⟩
          exact fresh _ (List.mem_singleton_self _)
    | revoke => exact settled.rotate fresh
    | runExpiryRotation => exact settled.rotate fresh
    | runRelinquishRotation => exact settled.rotate fresh
    | sweep nowSec => exact ⟨settled.unrenewed, settled.planned⟩
    | notify notice =>
        refine settled.send desk.index (fun other listed => ?_) fun g listed _ => ?_
        · rw [List.mem_singleton.mp listed]
        · cases List.mem_singleton.mp listed
    | plan inbox =>
        refine ⟨settled.unrenewed, fun item mem => ?_⟩
        obtain ⟨notice, listed, made⟩ := mem_relinquishPlan mem
        have sent := List.all_eq_true.mp admitted notice (mem_newestFirst.mp listed)
        exact ⟨notice, List.contains_iff_mem.mp sent, made⟩
  next => exact settled

/-! ### The claim over runs -/

/-- Every planned rotation is for an agent whose latest grant is older than the notice it is
planned for. -/
def EndsOwnGrant (regrants : Bool) (desk : Desk) : Prop :=
  ∀ item ∈ desk.auto ++ desk.pendingRelinquish, ∃ before notice after,
    desk.messages = before ++ .relinquish notice :: after ∧ item.isOf notice ∧
      ∀ g : Grant, .grant g ∈ after → g.scope = item.scope → g.agent = item.agent →
        g.counts regrants = false

theorem Settled.endsOwnGrant (settled : Settled regrants desk) : EndsOwnGrant regrants desk := by
  intro item mem
  obtain ⟨notice, sent, made⟩ := settled.planned item mem
  obtain ⟨before, after, split⟩ := List.append_of_mem sent
  refine ⟨before, notice, after, split, made, fun g listed here whom => ?_⟩
  have unrenewed := settled.unrenewed
  rw [split, List.pairwise_append] at unrenewed
  have kept := (List.pairwise_cons.mp unrenewed.2.1).1 _ listed
  by_contra counts
  exact kept ⟨here.trans made.1, whom.trans made.2.1, Bool.eq_true_of_not_eq_false counts⟩

/-- **A notice ends only the grant it was about**, in every run in which no 440 goes to an agent
that has already sent a notice for the scope. -/
theorem ends_own_grant (regrants : Bool) (actions : List Action)
    (meets : Meets step (Fresh regrants) .blank actions) :
    EndsOwnGrant regrants (run step .blank actions) := by
  have settled : Settled regrants (run step .blank actions) :=
    meets.keeps (fun _ _ settled fresh => settled.step fresh)
      ⟨List.Pairwise.nil, fun item mem => absurd mem List.not_mem_nil⟩
  exact settled.endsOwnGrant

/-! ### The old notice -/

def annReturns : Relinquish := ⟨"ann", "travel", none, 20, 20⟩

def someTerms : Terms := ⟨some "Plan travel", none, none, none, none, none, none⟩

/-- Ann holds a scope, gives it back, and the next load rotates her out. -/
def givenBack : List Action :=
  [.issue 10 "travel" "Travel" "ann" someTerms ⟨0⟩ .saved, .notify annReturns, .plan [annReturns]]

theorem ends_own_grant_givenBack : EndsOwnGrant true (run step .blank givenBack) ∧
    (run step .blank givenBack).auto = [⟨"travel", "Travel", "ann", none, 20, 1, 0⟩] :=
  ⟨ends_own_grant true givenBack (by decide +kernel), by decide +kernel⟩

/-- She is granted the scope again, and the console loads. -/
def grantedAgain : List Action :=
  givenBack ++ [
    .runRelinquishRotation 30 ⟨"travel", "Travel", "ann", none, 20, 1, 0⟩ .ok ⟨1⟩ .saved,
    .addGrantee 40 "travel" "ann" someTerms .saved, .plan [annReturns]]

/-- The load plans to rotate her out again, on the old notice. -/
theorem regrant_dropped : ¬EndsOwnGrant false (run step .blank grantedAgain) := by
  intro ends
  have messages : (run step .blank grantedAgain).messages =
      [.scope "travel" 1, .grant ⟨"travel", "ann", 1, some someTerms, false⟩,
        .relinquish annReturns, .scope "travel" 2,
        .grant ⟨"travel", "ann", 2, some someTerms, false⟩] := by
    decide +kernel
  have planned : ⟨"travel", "Travel", "ann", none, 20, 2, 0⟩ ∈ (run step .blank grantedAgain).auto ++
      (run step .blank grantedAgain).pendingRelinquish := by
    decide +kernel
  obtain ⟨before, notice, after, split, -, old⟩ := ends _ planned
  rw [messages] at split
  have regranted : .grant ⟨"travel", "ann", 2, some someTerms, false⟩ ∈ after := by
    -- The notice is the third message.
    rcases before with _ | ⟨first, _ | ⟨second, _ | ⟨third, more⟩⟩⟩
    · simp at split
    · simp at split
    · simp only [List.cons_append, List.nil_append, List.cons.injEq] at split
      rw [← split.2.2.2]
      simp
    · have rest : [Message.scope "travel" 2,
          .grant ⟨"travel", "ann", 2, some someTerms, false⟩] = more ++ .relinquish notice :: after :=
        (List.cons.inj (List.cons.inj (List.cons.inj split).2).2).2
      have listed : Message.relinquish notice ∈ more ++ .relinquish notice :: after :=
        List.mem_append_right _ List.mem_cons_self
      rw [← rest] at listed
      simp at listed
  exact absurd (old _ regranted rfl rfl) (by decide)

end Nvoy.Console
