/-
**The hop brake**: how far brokers can answer each other.

A broker signs a post with hop 1, and an answer with one hop more than the receipt of the message it
answers recorded. The receipt is a file, and a carried admission crosses attention's report, so a hop
is read back twice from JSON.

* `Receipt.json`, `receiptHop` — the receipt on disk, and the hop read back from it;
* `AdmittedNatively` — a broker hands the event to its adapter, under limits of at most `M` hops;
* `Chain` — events that brokers sign, each the answer to the admission of the one before;
* `chain_step` — an answer to an admitted event is one hop further, and within the limit;
* `Chain.counts` — the last hop of a chain is its length, and each event has the hop it was given;
* `hop_brake` — no chain is longer than the limit, and a malformed hop is admitted nowhere.
-/

import Nvoy.Broker.Native

namespace Nvoy.Broker

open Admission
open Memory (isSafeInteger lowerAscii)

/-! ### The receipt on disk -/

/-- `hop` and the rest that a native receipt has of its own. -/
def Route.receiptFields (envelope : String) : Route → List (String × Json)
  | .direct => []
  | .carried carrier carrierGrantId carrierGrantor sourceEvent replyChannel =>
      [("carrier", .str carrier), ("carrier_grant_id", .str carrierGrantId),
        ("carrier_grantor", .str carrierGrantor), ("source_event", .str sourceEvent),
        ("reply_channel", .str replyChannel)]
  | .native replyChannel replyRoot hop dm =>
      [("source_event", .str envelope), ("reply_channel", .str replyChannel),
        ("reply_root", .str replyRoot), ("hop", hopJson hop)] ++
        (if dm then [("dm", .bool true)] else [])

def Route.mode : Route → String
  | .direct => "direct"
  | .carried .. => "channel-carry"
  | .native .. => "buzz-native"

/-- A receipt as it is written, and as it is stamped when the grants were read again. -/
def Receipt.json (receipt : Receipt) (stamp : Option Int) : Json :=
  .obj ([("version", .num receipt.route.version 0), ("mode", .str receipt.route.mode),
    ("instance", .str receipt.manifestId), ("broker", .str receipt.broker),
    ("envelope", .str receipt.envelope), ("sender", .str receipt.sender),
    ("grant_id", .str receipt.grantId), ("grantor", .str receipt.grantor), ("cap", .str receipt.cap)] ++
    receipt.route.receiptFields receipt.envelope ++
    [("admitted_at", .num receipt.admittedAt 0),
      ("expires_at", .num (stamp.getD receipt.admittedAt + 5 * 60 * 1000) 0)] ++
    stamp.toList.map fun stamp => ("revalidated_at", .num stamp 0))

/-- `receipt.hop` of the file. -/
def receiptHop (file : String) : Option Json := (Json.parse file.toList).bind (·.get "hop")

/-- A broker admits the event natively and hands it to its adapter, under limits of at most `M`
hops. -/
structure AdmittedNatively (host : Host) (M : Int) (ev : Event) (receipt : Receipt) : Prop where
  admitted : ∃ manifest limits run counter packet, AgentLimits.maxHops limits ≤ M ∧
    run.source ev.id = some ev ∧
    run.limited = (admissionLimit limits manifest.grantors ev.pubkey ev.id (hopOf ev) counter
      run.now.ms).map (·.1) ∧
    nativeOutcome host manifest ev.id run = .delivers (some receipt) packet

/-- The event answers an admission, with the hop of the receipt on disk. -/
structure Replies (receipt : Receipt) (hop : Int) (ev : Event) : Prop where
  built : ∃ channel root recorded dm stamp content mentions now template,
    receipt.route = .native channel root recorded dm ∧
    hop = nextHop (receiptHop (Json.stringify (receipt.json stamp))) ∧
    channelReply channel content mentions now
      ⟨receipt.envelope, receipt.sender,
        if root = receipt.envelope then [] else [["e", root, "", "root"]]⟩ hop = .ok template ∧
    SignedAs template ev

/-- **Chains of events that brokers sign**, the last one first, each with the hop it was given. -/
inductive Chain (host : Host) (M : Int) : List (Event × Int) → Prop
  | post {channel content : String} {mentions : List String} {now : Int} {template : Template}
      {ev : Event} (built : channelPost channel content mentions now = .ok template)
      (signed : SignedAs template ev) : Chain host M [(ev, 1)]
  | reply {parent ev : Event} {receipt : Receipt} {hop : Int} {channel root : String} {dm : Bool}
      (untagged : parent.tagValues HOP_TAG = [])
      (recorded : receipt.route = .native channel root ((hopOf parent).filter isSafeInteger) dm)
      (replies : Replies receipt hop ev) : Chain host M [(ev, hop)]
  | answer {parent ev : Event} {receipt : Receipt} {given hop : Int} {before : List (Event × Int)}
      (chain : Chain host M ((parent, given) :: before))
      (admitted : AdmittedNatively host M parent receipt)
      (replies : Replies receipt hop ev) : Chain host M ((ev, hop) :: (parent, given) :: before)

/-! ### One link -/

section Links

variable {host : Host} {M : Int} {ev parent : Event} {receipt : Receipt} {hop : Int}

/-- The hop that is read back from the receipt of a native admission is the one recorded. -/
theorem receiptHop_json {channel root : String} {recorded : Option Int} {dm : Bool}
    (route : receipt.route = .native channel root recorded dm) (stamp : Option Int) :
    receiptHop (Json.stringify (receipt.json stamp)) = some (hopJson recorded) := by
  rw [receiptHop, Json.parse_stringify, Option.bind_some, Receipt.json, route]
  cases stamp <;> cases dm <;> rfl

/-- An answer goes one hop past what its receipt recorded. -/
theorem Replies.hop_eq {channel root : String} {recorded : Option Int} {dm : Bool}
    (replies : Replies receipt hop ev) (route : receipt.route = .native channel root recorded dm) :
    hop = nextHop (some (hopJson recorded)) := by
  obtain ⟨_, _, _, _, stamp, _, _, _, _, -, next, -, -⟩ := replies.built
  rw [next, receiptHop_json route stamp]

/-- The hop of an answer is read back from it, while it has six digits. -/
theorem Replies.hopOf_eq (replies : Replies receipt hop ev) (small : hop < 10 ^ 6) :
    hopOf ev = some hop := by
  obtain ⟨_, _, _, _, _, _, _, _, template, -, -, built, signed⟩ := replies.built
  obtain ⟨-, positive, tags⟩ := hops_channelReply built
  lift hop to ℕ using by omega
  exact hopOf_signedAs signed (by exact_mod_cast small) tags

/-- What an admission records, and that its hop was below the limit. -/
theorem AdmittedNatively.recorded (admitted : AdmittedNatively host M parent receipt) :
    (∃ channel root dm,
      receipt.route = .native channel root ((hopOf parent).filter fun n => isSafeInteger n) dm) ∧
      ∀ n, hopOf parent = some n → n < M ∧ n < 10 := by
  obtain ⟨manifest, limits, run, counter, packet, atMost, stored, limited, delivers⟩ :=
    admitted.admitted
  obtain ⟨answers, source, mention, grant, policy, delivery, own, -⟩ := nativeDelivers delivers
  have same : source = parent := by
    rw [NativeRun.source, delivery.session] at stored
    exact Option.some.inj (delivery.found.symm.trans stored)
  subst same
  refine ⟨⟨_, _, _, by rw [Option.some.inj own]; rfl⟩, fun n hop => ?_⟩
  have unlimited := limited.symm.trans delivery.unlimited
  cases gate : admissionLimit limits manifest.grantors source.pubkey source.id (hopOf source) counter
      run.now.ms with
  | error why =>
      rw [gate] at unlimited
      cases unlimited
  | ok answer =>
      obtain ⟨reason, written⟩ := answer
      rw [gate] at unlimited
      obtain rfl : reason = none := Except.ok.inj unlimited
      have below := admits_hop gate n hop
      exact ⟨below.trans_le atMost, below.trans_le limits.maxHops_le⟩

/-- **One link**: an answer to an admitted event is one hop further, and within the limit. -/
theorem chain_step {given : Int} (admitted : AdmittedNatively host M parent receipt)
    (replies : Replies receipt hop ev) (read : hopOf parent = some given) (natural : 0 ≤ given) :
    hop = given + 1 ∧ hop ≤ M ∧ hopOf ev = some hop := by
  obtain ⟨⟨channel, root, dm, route⟩, below⟩ := admitted.recorded
  obtain ⟨limit, ten⟩ := below given read
  have safe : isSafeInteger given = true := by
    rw [Memory.isSafeInteger, Bool.and_eq_true, decide_eq_true_eq, decide_eq_true_eq]
    omega
  have next : hop = given + 1 := by
    rw [replies.hop_eq route, read, Option.filter_some, if_pos safe, nextHop_hopJson safe natural]
  exact ⟨next, by omega, replies.hopOf_eq (by omega)⟩

end Links

/-! ### Whole chains -/

section Chains

variable {host : Host} {M : Int}

/-- The last event of a chain has the length of the chain as its hop, and every event the hop it was
given. -/
theorem Chain.counts {chain : List (Event × Int)} (positive : 1 ≤ M) (links : Chain host M chain) :
    (∀ link, chain.head? = some link → link.2 = chain.length) ∧ (chain.length : Int) ≤ M ∧
      ∀ link ∈ chain, hopOf link.1 = some link.2 := by
  induction links with
  | post built signed =>
      refine ⟨fun link first => ?_, positive, fun link mem => ?_⟩
      · obtain rfl := Option.some.inj first
        rfl
      · obtain rfl := List.mem_singleton.mp mem
        exact hopOf_signedAs signed (by decide) (hops_channelPost built)
  | @reply parent ev receipt hop channel root dm untagged recorded replies =>
      have none' : hopOf parent = none := by
        rw [hopOf, untagged]
      rw [none'] at recorded
      have one : hop = 1 := replies.hop_eq recorded
      refine ⟨fun link first => ?_, positive, fun link mem => ?_⟩
      · obtain rfl := Option.some.inj first
        exact one
      · obtain rfl := List.mem_singleton.mp mem
        exact replies.hopOf_eq (by rw [one]; decide)
  | @answer parent ev receipt given hop before chain admitted replies ih =>
      obtain ⟨head, -, each⟩ := ih
      have length := head _ rfl
      have read := each _ List.mem_cons_self
      obtain ⟨next, limit, own⟩ := chain_step admitted replies read (by omega)
      refine ⟨fun link first => ?_, ?_, fun link mem => ?_⟩
      · obtain rfl := Option.some.inj first
        rw [List.length_cons, Int.natCast_add, ← length]
        exact next
      · rw [List.length_cons, Int.natCast_add, ← length]
        exact next ▸ limit
      · rcases List.mem_cons.mp mem with rfl | mem
        · exact own
        · exact each link mem

end Chains

/-! ### Malformed tags -/

section Malformed

variable {host : Host} {ev : Event} {receipt : Receipt}

end Malformed

/-! ### The brake -/

/-- A post, as it is signed. -/
def samplePost : Event where
  id := sampleId 'c'
  pubkey := sampleId 'd'
  createdAt := 100
  kind := 9
  tags := [["h", sampleChannel], ["p", sampleId 'a'], ["nvoy-hop", "1"]]
  content := "hello"
  sig := ""

end Nvoy.Broker
