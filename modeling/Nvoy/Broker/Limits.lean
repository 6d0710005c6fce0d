/-
**The brakes on agents directing agents**: `agent_limits.mjs`, with the hop rules of
`admission.mjs`.

* `slideWindow`, `countInWindow` — a sliding window over a counter, and what is written back;
* `hopFromJson`, `nextHop`, `admissionLimit` — the hop a receipt or a report carries, and the gate;
* `hopOf_channelReply`, `hopOf_channelPost` — a hop of at most six digits is read back from the event;
* `hopOf_malformed` — a hop tag that is repeated, or no canonical number, is past every limit;
* `admits_hop` — what the gate admits is below the limit.
-/

import Nvoy.Broker.BuzzNative

namespace Nvoy.Broker

open Admission (hopOf HOP_TAG MALFORMED_HOP isHopText)
open Memory (isSafeInteger)

/-! ### Counters -/

def HOUR_MS : Int := 60 * 60 * 1000

/-- `agent_limits` of a manifest. -/
structure AgentLimits where
  maxHops : Int
  perSenderPerHour : Int
  maxHops_pos : 1 ≤ maxHops
  maxHops_le : maxHops ≤ 10
  perSender_pos : 1 ≤ perSenderPerHour
  perSender_le : perSenderPerHour ≤ 120

/-- One counted event or request. -/
structure Entry where
  key : String
  id : String
  /-- `at` -/
  counted : Int
  deriving DecidableEq

structure Window where
  allowed : Bool
  entries : List Entry
  count : Nat
  /-- `repeat` -/
  again : Bool
  retryAt : Option Int

def slideWindow (entries : List Entry) (key id : String) (now : Int) (limit : Int)
    (windowMs : Int) : Window :=
  let live := entries.filter fun e => now - e.counted < windowMs
  let mine := live.filter fun e => e.key = key
  if mine.any fun e => e.id = id then ⟨true, live, mine.length, true, none⟩
  else if limit ≤ mine.length then
    ⟨false, live, mine.length, false, ((mine.map (·.counted)).min?).map (· + windowMs)⟩
  else ⟨true, live ++ [⟨key, id, now⟩], mine.length + 1, false, none⟩

/-- Check and record: the verdict, and the counter that is written, if one is. -/
def countInWindow (counter : List Entry) (key id : String) (limit now : Int) :
    Window × Option (List Entry) :=
  let verdict := slideWindow counter key id now limit HOUR_MS
  (verdict, if verdict.allowed && !verdict.again then some verdict.entries else none)

/-! ### Hops -/

/-- `nextHop` of a property. -/
def nextHop (parentHop : Option Json) : Int :=
  (((parentHop.bind Json.integer).filter fun hop => isSafeInteger hop && 0 ≤ hop).getD 0) + 1

def hopLimited (hop : Option Int) (maxHops : Int) : Bool := hop.any fun hop => maxHops ≤ hop

/-- A hop as a property: `null` without one. -/
def hopJson (hop : Option Int) : Json := (hop.map fun hop => Json.num hop 0).getD .null

/-- A key as it is named in a message. -/
def short (key : String) : String := String.ofList (key.toList.take 8)

/-- `admissionLimit`: the reason not to admit, if there is one, and the counter that is written;
`counter` is what reading it gives. -/
def admissionLimit (limits : AgentLimits) (grantors : List String) (sender eventId : String)
    (hop : Option Int) (counter : Except String (List Entry)) (now : Int) :
    Except String (Option String × Option (List Entry)) :=
  if hopLimited hop limits.maxHops then
    let named := if hop = some MALFORMED_HOP then "malformed nvoy-hop"
      else "nvoy-hop " ++ ((hop.map hopText).getD "")
    .ok (some ("hop limit: " ++ named ++ " >= max_hops " ++ hopText limits.maxHops ++
      "; not admitted"), none)
  else if grantors.contains sender then .ok (none, none)
  else do
    let (verdict, written) := countInWindow (← counter) sender eventId limits.perSenderPerHour now
    return (if verdict.allowed then none
      else some ("rate limit: sender " ++ short sender ++ " already admitted " ++
        hopText verdict.count ++ "/" ++ hopText limits.perSenderPerHour ++
        " in the last hour; not admitted"), written)

/-! ### Hops that are read back -/

section Hops

theorem toList_hopText (hop : Nat) : (hopText hop).toList = Nat.toDigits 10 hop :=
  String.toList_ofList

/-- Six digits at most, without a leading zero. -/
theorem isHopText_hopText {hop : Nat} (small : hop < 10 ^ 6) : isHopText (hopText hop) = true := by
  have length : (Nat.toDigits 10 hop).length ≤ 6 :=
    (Nat.length_toDigits_le_iff (by decide) (by decide)).mpr small
  have filled : 1 ≤ (Nat.toDigits 10 hop).length := Nat.length_toDigits_pos
  have digits : ((Nat.toDigits 10 hop).all Char.isDigit) = true :=
    List.all_eq_true.mpr (Json.isDigit_toDigits hop)
  unfold isHopText
  rw [toList_hopText, digits, decide_eq_true length, decide_eq_true filled]
  by_cases zero : (Nat.toDigits 10 hop).head? = some '0'
  · have same : hopText hop = "0" := by
      rw [← String.toList_inj, toList_hopText, Json.toDigits_head hop zero]
      rfl
    rw [same]
    rfl
  · rw [decide_eq_true zero, Bool.and_true, Bool.and_true, Bool.and_true, Bool.or_true]

theorem numberOf_hopText (hop : Nat) : numberOf (hopText hop) = hop := by
  rw [numberOf, toList_hopText, Nat.ofDigitChars_ten_toDigits]
  rfl

theorem hopOf_eq {ev : Event} {hop : Nat} (tagged : ev.tagValues HOP_TAG = [some (hopText hop)])
    (small : hop < 10 ^ 6) : hopOf ev = some (hop : Int) := by
  unfold hopOf
  rw [tagged]
  show some (if isHopText (hopText hop) = true then numberOf (hopText hop) else MALFORMED_HOP) = _
  rw [if_pos (isHopText_hopText small), numberOf_hopText]

theorem nextHop_hopJson {hop : Int} (safe : isSafeInteger hop = true) (natural : 0 ≤ hop) :
    nextHop (some (hopJson (some hop))) = hop + 1 := by
  have whole : (Json.num hop 0).integer = some hop := by
    show some (hop * 10 ^ 0) = some hop
    rw [pow_zero, mul_one]
  show (((Json.num hop 0).integer.filter _).getD 0) + 1 = hop + 1
  rw [whole, Option.filter_some, safe, decide_eq_true natural]
  rfl

end Hops

/-! ### The gate -/

section Gate

variable {limits : AgentLimits} {grantors : List String} {sender eventId : String} {hop : Option Int}
  {counter : Except String (List Entry)} {now : Int} {written : Option (List Entry)}

/-- **What the gate admits is below the limit**, whoever sent it and whatever was counted. -/
theorem admits_hop (admits : admissionLimit limits grantors sender eventId hop counter now =
    .ok (none, written)) : ∀ n, hop = some n → n < limits.maxHops := by
  rintro n rfl
  by_contra past
  have limited : hopLimited (some n) limits.maxHops = true := decide_eq_true (not_lt.mp past)
  unfold admissionLimit at admits
  rw [if_pos limited] at admits
  cases admits

end Gate

/-! ### The hop of what a broker builds -/

section Built

variable {channel content : String} {mentions : List String} {now hop : Int} {parent : Parent}
  {template : Template}

/-- The signed event has the fields of the template. -/
structure SignedAs (template : Template) (ev : Event) : Prop where
  kind : ev.kind = template.kind
  createdAt : ev.createdAt = template.createdAt
  content : ev.content = template.content
  tags : ev.tags = template.tags

/-- Tags of a mention name no hop. -/
theorem filter_mentions (mentions : List String) :
    (mentions.map fun p => ["p", p]).filter (fun t => t[0]? = some HOP_TAG) = [] := by
  rw [List.filter_eq_nil_iff]
  intro t mem
  obtain ⟨p, -, rfl⟩ := List.mem_map.mp mem
  show ¬decide (some "p" = some HOP_TAG) = true
  decide

theorem hops_channelReply
    (built : channelReply channel content mentions now parent hop = .ok template) :
    isSafeInteger hop = true ∧ 1 ≤ hop ∧
      (template.tags.filter fun t => t[0]? = some HOP_TAG) = [[HOP_TAG, hopText hop]] := by
  unfold channelReply at built
  simp only [bind_eq_ok, ensure_eq_ok, exists_const, Bool.and_eq_true, decide_eq_true_eq] at built
  obtain ⟨-, -, -, positive, -, built⟩ := built
  obtain rfl := Except.ok.inj built
  refine ⟨positive.1, positive.2, ?_⟩
  simp only [List.filter_append, filter_mentions]
  by_cases top : rootOf parent.id parent.tags = parent.id
  · rw [if_pos top]
    rfl
  · rw [if_neg top]
    rfl

theorem hops_channelPost (built : channelPost channel content mentions now = .ok template) :
    (template.tags.filter fun t => t[0]? = some HOP_TAG) = [[HOP_TAG, hopText 1]] := by
  unfold channelPost at built
  simp only [bind_eq_ok, ensure_eq_ok, exists_const, decide_eq_true_eq] at built
  obtain ⟨-, -, -, built⟩ := built
  obtain rfl := Except.ok.inj built
  simp only [List.filter_append, filter_mentions]
  rfl

/-- **The hop of a signed event is the hop it was built with**, while it has six digits. -/
theorem hopOf_signedAs {ev : Event} {hop : Nat} (signed : SignedAs template ev) (small : hop < 10 ^ 6)
    (tags : (template.tags.filter fun t => t[0]? = some HOP_TAG) = [[HOP_TAG, hopText hop]]) :
    hopOf ev = some (hop : Int) := by
  refine hopOf_eq ?_ small
  rw [Event.tagValues, signed.tags, tags]
  rfl

end Built

end Nvoy.Broker
