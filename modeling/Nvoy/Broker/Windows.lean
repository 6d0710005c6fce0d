/-
**Sliding-window caps over whole runs**: `countInWindow` of `agent_limits.mjs`, on one file.

* `call` — one call, cut off before or after its rename, or not at all;
* `verdictOn` — the verdict, from the live entries of the key alone;
* `Mirrors` — as far as a window reaches, the file is what was there and what was counted;
* `Capped` — no window of a key holds more than its limit;
* `window_caps` — caps, repeats, independent keys and frames, over every run in time order.
-/

import Nvoy.Broker.Post

namespace Nvoy.Broker

open Post (loadWindow loadWindow_bytesOf windowJson)

section Calls

variable (limit : String → Int) (windowMs : Int)

/-! ### One call -/

/-- `countInWindow` of the entries of the file. -/
def countWithin (counter : List Entry) (key id : String) (now : Int) : Window × Option (List Entry) :=
  let verdict := slideWindow counter key id now (limit key) windowMs
  (verdict, if verdict.allowed && !verdict.again then some verdict.entries else none)

/-- One call, with its `at`. -/
structure Counting where
  key : String
  id : String
  now : Int

def Counting.entry (c : Counting) : Entry := ⟨c.key, c.id, c.now⟩

/-- Where a call is cut off: before or after its rename. -/
inductive Cut where
  | unrenamed
  | renamed
  deriving DecidableEq

/-- A verdict, with the entries of its own key. -/
structure Told where
  allowed : Bool
  count : Nat
  again : Bool
  retryAt : Option Int
  own : List Entry
  deriving DecidableEq

def Window.told (verdict : Window) (key : String) : Told :=
  ⟨verdict.allowed, verdict.count, verdict.again, verdict.retryAt, verdict.entries.filter fun e => e.key = key⟩

/-- The verdict has counted its id. -/
def Told.counts (told : Told) : Bool := told.allowed && !told.again

/-- The file, and what was ever counted in it. -/
structure Shared where
  file : Option (List UInt8)
  counted : List Entry

/-- One call: a malformed counter throws, and a call that is cut off answers nothing. -/
def call (st : Shared) (c : Counting) (cut : Option Cut) : Shared × Option Told :=
  match loadWindow st.file with
  | none => (st, none)
  | some counter =>
    let (verdict, written) := countWithin limit windowMs counter c.key c.id c.now
    let told := if cut.isNone then some (verdict.told c.key) else none
    match written with
    | none => (st, told)
    | some entries =>
      if cut = some .unrenamed then (st, told)
      else (⟨some (Post.bytesOf (windowJson entries)), st.counted ++ [c.entry]⟩, told)

/-- A run of calls. -/
def after (st : Shared) (calls : List (Counting × Option Cut)) : Shared :=
  calls.foldl (fun st c => (call limit windowMs st c.1 c.2).1) st

/-- The answers of a run. -/
def answers (st : Shared) : List (Counting × Option Cut) → List (Counting × Option Told)
  | [] => []
  | (c, cut) :: calls =>
    (c, (call limit windowMs st c cut).2) :: answers (call limit windowMs st c cut).1 calls

/-- Calls in time order. -/
def InTime (calls : List (Counting × Option Cut)) : Prop := calls.Pairwise fun a b => a.1.now ≤ b.1.now

/-! ### The verdict of a key -/

/-- The entries that are still in the window. -/
def liveAt (now : Int) (entries : List Entry) : List Entry := entries.filter fun e => now - e.counted < windowMs

/-- The live entries of a key. -/
def mineAt (now : Int) (key : String) (entries : List Entry) : List Entry :=
  (liveAt windowMs now entries).filter fun e => e.key = key

/-- The verdict on a call, from the live entries of its key. -/
def verdictOn (mine : List Entry) (c : Counting) : Told :=
  if mine.any fun e => e.id = c.id then ⟨true, mine.length, true, none, mine⟩
  else if limit c.key ≤ mine.length then
    ⟨false, mine.length, false, ((mine.map (·.counted)).min?).map (· + windowMs), mine⟩
  else ⟨true, mine.length + 1, false, none, mine ++ [c.entry]⟩

/-- The ids of a key that were counted in `[start, start + windowMs)`. -/
def idsWithin (key : String) (start : Int) (counted : List Entry) : List String :=
  (counted.filter fun e => e.key = key ∧ start ≤ e.counted ∧ e.counted < start + windowMs).map (·.id)

/-- No window of a key holds an id twice, or more ids than its limit. -/
def Capped (counted : List Entry) : Prop :=
  ∀ key start, (idsWithin windowMs key start counted).Nodup ∧
    ((idsWithin windowMs key start counted).length : Int) ≤ limit key

/-- From `clock` on, what the file holds of a window is what was there at first and what was counted. -/
def Mirrors (base : List Entry) (clock : Int) (st : Shared) : Prop :=
  ∃ counter, loadWindow st.file = some counter ∧
    ∀ later, clock ≤ later → liveAt windowMs later counter = liveAt windowMs later (base ++ st.counted)

end Calls

section Caps

variable {limit : String → Int} {windowMs now later clock start : Int} {counter base entries mine : List Entry}
  {st other : Shared} {c : Counting} {cut : Option Cut} {key : String} {e : Entry}
  {calls : List (Counting × Option Cut)}

theorem countInWindow_eq (counter : List Entry) (key id : String) (now : Int) :
    countInWindow counter key id (limit key) now = countWithin limit HOUR_MS counter key id now := rfl

theorem verdictOn_counts : (verdictOn limit windowMs mine c).counts = true ↔
    (∀ e ∈ mine, e.id ≠ c.id) ∧ (mine.length : Int) < limit c.key := by
  unfold verdictOn
  by_cases again : (mine.any fun e => decide (e.id = c.id)) = true
  · rw [if_pos again]
    obtain ⟨e, member, same⟩ := List.any_eq_true.mp again
    refine ⟨fun counts => absurd counts (by simp [Told.counts]), fun fresh => ?_⟩
    exact absurd (of_decide_eq_true same) (fresh.1 e member)
  · have fresh : ∀ e ∈ mine, e.id ≠ c.id := fun e member same =>
      again (List.any_eq_true.mpr ⟨e, member, decide_eq_true same⟩)
    rw [if_neg again]
    by_cases full : limit c.key ≤ mine.length
    · rw [if_pos full]
      exact ⟨fun counts => absurd counts (by simp [Told.counts]), fun room => absurd full (not_le.mpr room.2)⟩
    · rw [if_neg full]
      exact ⟨fun _ => ⟨fresh, not_le.mp full⟩, fun _ => rfl⟩

/-- An id in the window is allowed, and not counted. -/
theorem verdictOn_again (member : e ∈ mine) (same : e.id = c.id) :
    verdictOn limit windowMs mine c = ⟨true, mine.length, true, none, mine⟩ := by
  unfold verdictOn
  exact if_pos (List.any_eq_true.mpr ⟨e, member, decide_eq_true same⟩)

/-- **A verdict is one on the live entries of its key**, and what it counts is written after the live ones. -/
theorem countWithin_eq :
    let told := verdictOn limit windowMs (mineAt windowMs c.now c.key counter) c
    (countWithin limit windowMs counter c.key c.id c.now).1.told c.key = told ∧
      (countWithin limit windowMs counter c.key c.id c.now).2 =
        if told.counts then some (liveAt windowMs c.now counter ++ [c.entry]) else none := by
  have live : counter.filter (fun e => decide (c.now - e.counted < windowMs)) =
      liveAt windowMs c.now counter := rfl
  have mine : (liveAt windowMs c.now counter).filter (fun e => decide (e.key = c.key)) =
      mineAt windowMs c.now c.key counter := rfl
  have own : ((⟨c.key, c.id, c.now⟩ : Entry).key = c.key) = True := eq_self _
  unfold countWithin slideWindow verdictOn
  dsimp only
  rw [live, mine]
  split
  · simp [Window.told, Told.counts, mine]
  · split
    · simp [Window.told, Told.counts, mine]
    · simp [Window.told, Told.counts, mine, List.filter_append, Counting.entry]

theorem call_of_none (broken : loadWindow st.file = none) : call limit windowMs st c cut = (st, none) := by
  unfold call
  rw [broken]

/-- **What a call does**: it answers its verdict, and counts where it is renamed. -/
theorem call_eq (loads : loadWindow st.file = some counter) :
    let told := verdictOn limit windowMs (mineAt windowMs c.now c.key counter) c
    call limit windowMs st c cut =
      (if told.counts ∧ cut ≠ some .unrenamed then
          ⟨some (Post.bytesOf (windowJson (liveAt windowMs c.now counter ++ [c.entry]))), st.counted ++ [c.entry]⟩
        else st,
        if cut.isNone then some told else none) := by
  obtain ⟨told, written⟩ := countWithin_eq (c := c)
  unfold call
  rw [loads]
  dsimp only
  rw [told, written]
  by_cases counts : (verdictOn limit windowMs (mineAt windowMs c.now c.key counter) c).counts = true
  · by_cases early : cut = some .unrenamed
    · simp [counts, early]
    · simp [counts, early]
  · simp [counts]

/-! ### What the file mirrors -/

theorem liveAt_append (entries more : List Entry) :
    liveAt windowMs now (entries ++ more) = liveAt windowMs now entries ++ liveAt windowMs now more :=
  List.filter_append ..

theorem mineAt_eq (key : String) (entries : List Entry) :
    mineAt windowMs now key entries = liveAt windowMs now (entries.filter fun e => e.key = key) :=
  List.filter_comm ..

/-- What is live later was live before. -/
theorem liveAt_liveAt (passes : now ≤ later) (entries : List Entry) :
    liveAt windowMs later (liveAt windowMs now entries) = liveAt windowMs later entries := by
  unfold liveAt
  rw [List.filter_filter]
  refine List.filter_congr fun e _ => ?_
  rw [Bool.and_eq_left_iff_imp, decide_eq_true_eq, decide_eq_true_eq]
  intro live
  omega

theorem Mirrors.mono (mirrors : Mirrors windowMs base clock st) (passes : clock ≤ now) :
    Mirrors windowMs base now st := by
  obtain ⟨counter, loads, agrees⟩ := mirrors
  exact ⟨counter, loads, fun later reached => agrees later (passes.trans reached)⟩

/-- The verdict on a call is the one on everything that was there and was counted. -/
theorem Mirrors.call_eq (mirrors : Mirrors windowMs base c.now st) :
    let told := verdictOn limit windowMs (mineAt windowMs c.now c.key (base ++ st.counted)) c
    (call limit windowMs st c cut).2 = (if cut.isNone then some told else none) ∧
      (call limit windowMs st c cut).1.counted =
        (if told.counts ∧ cut ≠ some .unrenamed then st.counted ++ [c.entry] else st.counted) ∧
      (¬told.counts → (call limit windowMs st c cut).1 = st) := by
  obtain ⟨counter, loads, agrees⟩ := mirrors
  have same : mineAt windowMs c.now c.key counter = mineAt windowMs c.now c.key (base ++ st.counted) := by
    unfold mineAt
    rw [agrees c.now le_rfl]
  rw [Broker.call_eq loads, same]
  dsimp only
  refine ⟨rfl, ?_, fun idle => if_neg fun both => idle both.1⟩
  split <;> rfl

/-- **The step**: the file goes on mirroring what is counted. -/
theorem Mirrors.step (mirrors : Mirrors windowMs base c.now st) :
    Mirrors windowMs base c.now (call limit windowMs st c cut).1 := by
  obtain ⟨counter, loads, agrees⟩ := mirrors
  rw [Broker.call_eq loads]
  dsimp only
  split
  · refine ⟨_, loadWindow_bytesOf _, fun later reached => ?_⟩
    rw [liveAt_append, liveAt_liveAt reached, agrees later reached, ← liveAt_append, List.append_assoc]
  · exact ⟨counter, loads, agrees⟩

/-- **The step**: what is counted stays capped. -/
theorem Capped.step (capped : Capped limit windowMs st.counted) (mirrors : Mirrors windowMs base c.now st) :
    Capped limit windowMs (call limit windowMs st c cut).1.counted := by
  obtain ⟨-, counted, -⟩ := mirrors.call_eq
  rw [counted]
  split
  case isFalse => exact capped
  case isTrue counts =>
    obtain ⟨fresh, room⟩ := verdictOn_counts.mp counts.1
    intro key start
    by_cases inside : c.key = key ∧ start ≤ c.now ∧ c.now < start + windowMs
    · -- everything of this window is live at the call
      have sub : (st.counted.filter fun e => e.key = key ∧ start ≤ e.counted ∧ e.counted < start + windowMs).Sublist
          (mineAt windowMs c.now c.key (base ++ st.counted)) := by
        unfold mineAt liveAt
        rw [List.filter_filter, List.filter_append]
        refine List.Sublist.trans ?_ (List.sublist_append_right _ _)
        refine List.monotone_filter_right st.counted fun e within => ?_
        simp only [decide_eq_true_eq, Bool.and_eq_true] at within ⊢
        exact ⟨within.1.trans inside.1.symm, by omega⟩
      have extended : idsWithin windowMs key start (st.counted ++ [c.entry]) =
          idsWithin windowMs key start st.counted ++ [c.id] := by
        simp [idsWithin, List.filter_append, Counting.entry, inside]
      rw [extended]
      constructor
      · refine List.nodup_append.mpr ⟨(capped key start).1, List.nodup_singleton _, ?_⟩
        intro id member _ last same
        obtain ⟨e, kept, rfl⟩ := List.mem_map.mp member
        exact fresh e (sub.subset kept) (same.trans (List.mem_singleton.mp last))
      · have shorter := sub.length_le
        rw [List.length_append, List.length_singleton]
        unfold idsWithin
        rw [List.length_map, ← inside.1]
        push_cast
        rw [inside.1] at shorter room ⊢
        omega
    · have same : idsWithin windowMs key start (st.counted ++ [c.entry]) =
          idsWithin windowMs key start st.counted := by
        simp [idsWithin, List.filter_append, Counting.entry, inside]
      rw [same]
      exact capped key start

/-! ### Runs -/

/-- A malformed counter is never counted in. -/
theorem after_of_none (broken : loadWindow st.file = none) : after limit windowMs st calls = st := by
  induction calls with
  | nil => rfl
  | cons first calls ih =>
    refine Eq.trans ?_ ih
    exact congrArg (fun st => after limit windowMs st calls) (congrArg Prod.fst (call_of_none broken))

theorem answers_of_none (broken : loadWindow st.file = none) :
    answers limit windowMs st calls = calls.map fun c => (c.1, none) := by
  induction calls with
  | nil => rfl
  | cons first calls ih =>
    obtain ⟨c, cut⟩ := first
    unfold answers
    rw [call_of_none broken, ih]
    rfl

theorem exists_bounds (calls : List (Counting × Option Cut)) (now : Int) :
    ∃ clock later, clock ≤ now ∧ now ≤ later ∧ ∀ c ∈ calls, clock ≤ c.1.now ∧ c.1.now ≤ later := by
  induction calls with
  | nil => exact ⟨now, now, le_rfl, le_rfl, fun _ none => absurd none List.not_mem_nil⟩
  | cons first calls ih =>
    obtain ⟨clock, later, below, above, bounds⟩ := ih
    refine ⟨min clock first.1.now, max later first.1.now, (min_le_left _ _).trans below,
      above.trans (le_max_left _ _), fun c member => ?_⟩
    rcases List.mem_cons.mp member with rfl | member
    · exact ⟨min_le_right _ _, le_max_right _ _⟩
    · exact ⟨(min_le_left _ _).trans (bounds c member).1, (bounds c member).2.trans (le_max_left _ _)⟩

/-- **A run**: the file mirrors what is counted, and what is counted is capped. -/
theorem mirrors_after (ordered : InTime calls) (begun : ∀ c ∈ calls, clock ≤ c.1.now)
    (reached : ∀ c ∈ calls, c.1.now ≤ now) (started : clock ≤ now) (mirrors : Mirrors windowMs base clock st)
    (capped : Capped limit windowMs st.counted) :
    Mirrors windowMs base now (after limit windowMs st calls) ∧
      Capped limit windowMs (after limit windowMs st calls).counted := by
  induction calls generalizing st clock with
  | nil => exact ⟨mirrors.mono started, capped⟩
  | cons first calls ih =>
    obtain ⟨c, cut⟩ := first
    obtain ⟨first, rest⟩ := List.pairwise_cons.mp ordered
    have current := mirrors.mono (begun _ List.mem_cons_self)
    exact ih rest first (fun d member => reached d (List.mem_cons_of_mem _ member)) (reached _ List.mem_cons_self)
      current.step (capped.step current)

/-- **A run, seen from one key**: it is answered as if there were no other. -/
theorem answers_filter (ordered : InTime calls) (begun : ∀ c ∈ calls, clock ≤ c.1.now)
    (mirrors : Mirrors windowMs base clock st) (alone : Mirrors windowMs base clock other)
    (agree : st.counted.filter (fun e => e.key = key) = other.counted.filter fun e => e.key = key) :
    (answers limit windowMs st calls).filter (fun c => c.1.key = key) =
      answers limit windowMs other (calls.filter fun c => c.1.key = key) := by
  induction calls generalizing st other clock with
  | nil => rfl
  | cons first calls ih =>
    obtain ⟨c, cut⟩ := first
    obtain ⟨first, rest⟩ := List.pairwise_cons.mp ordered
    have current := mirrors.mono (begun _ List.mem_cons_self)
    have apart := alone.mono (begun _ List.mem_cons_self)
    obtain ⟨answered, counted, -⟩ := current.call_eq
    by_cases own : c.key = key
    · obtain ⟨answered', counted', -⟩ := apart.call_eq
      have mine : mineAt windowMs c.now c.key (base ++ st.counted) =
          mineAt windowMs c.now c.key (base ++ other.counted) := by
        rw [mineAt_eq, mineAt_eq, List.filter_append, List.filter_append, own, agree]
      rw [List.filter_cons_of_pos (by simpa using own)]
      unfold answers
      rw [List.filter_cons_of_pos (by simpa using own), answered, answered', mine]
      refine congrArg _ (ih rest first current.step apart.step ?_)
      rw [counted, counted', mine]
      split
      · rw [List.filter_append, List.filter_append, agree]
      · exact agree
    · rw [List.filter_cons_of_neg (by simpa using own)]
      conv_lhs => unfold answers
      rw [List.filter_cons_of_neg (by simpa using own)]
      refine ih rest first current.step apart ?_
      rw [counted, ← agree]
      split
      · simp [List.filter_append, Counting.entry, own]
      · rfl

theorem mirrors_nil (loads : loadWindow st.file = some base) (fresh : st.counted = []) :
    Mirrors windowMs base clock st :=
  ⟨base, loads, fun _ _ => by rw [fresh, List.append_nil]⟩

theorem capped_nil (positive : ∀ key, 0 < limit key) : Capped limit windowMs [] :=
  fun key _ => ⟨List.nodup_nil, (positive key).le⟩

/-- **The brakes hold over every run in time order**, whatever the file holds at first and wherever calls are
cut off: no window of a key counts an id twice or more ids than its limit, an id that was counted is allowed
and not counted again in its window, a key is answered as if there were no other, and a refused or repeated
call changes nothing. -/
theorem window_caps (file : Option (List UInt8)) (limit : String → Int) (windowMs : Int)
    (calls : List (Counting × Option Cut)) (positive : ∀ key, 0 < limit key) (ordered : InTime calls) :
    let start : Shared := ⟨file, []⟩
    let st := after limit windowMs start calls
    Capped limit windowMs st.counted ∧
      (∀ e ∈ st.counted, ∀ c cut, (∀ d ∈ calls, d.1.now ≤ c.now) → c.key = e.key → c.id = e.id →
        c.now < e.counted + windowMs → ∃ told : Told, told.allowed = true ∧ told.again = true ∧
          call limit windowMs st c cut = (st, if cut.isNone then some told else none)) ∧
      (∀ key, (answers limit windowMs start calls).filter (fun c => c.1.key = key) =
        answers limit windowMs start (calls.filter fun c => c.1.key = key)) ∧
      ∀ c cut, ∀ told ∈ (call limit windowMs st c none).2, told.allowed = false ∨ told.again = true →
        (call limit windowMs st c cut).1 = st := by
  intro start st
  have frame : ∀ c cut, ∀ told ∈ (call limit windowMs st c none).2, told.allowed = false ∨ told.again = true →
      (call limit windowMs st c cut).1 = st := by
    intro c cut told answered idle
    cases loads : loadWindow st.file with
    | none => rw [call_of_none loads]
    | some counter =>
      rw [call_eq loads] at answered ⊢
      obtain rfl := Option.some_inj.mp answered
      refine if_neg fun both => ?_
      have counts := both.1
      unfold Told.counts at counts
      rcases idle with refused | again
      · simp [refused] at counts
      · simp [again] at counts
  cases loads : loadWindow file with
  | none =>
    have still : st = start := after_of_none loads
    rw [still] at frame ⊢
    refine ⟨capped_nil positive, fun e none => absurd none List.not_mem_nil, fun key => ?_, frame⟩
    rw [answers_of_none loads, answers_of_none loads, List.filter_map]
    rfl
  | some base =>
    have fresh : ∀ clock, Mirrors windowMs base clock start := fun _ => mirrors_nil loads rfl
    have bounds := exists_bounds calls
    refine ⟨?_, ?_, fun key => ?_, frame⟩
    · obtain ⟨clock, now, below, above, within⟩ := bounds 0
      exact (mirrors_after ordered (fun d member => (within d member).1) (fun d member => (within d member).2)
        (below.trans above) (fresh clock) (capped_nil positive)).2
    · intro e counted c cut past key id inside
      obtain ⟨clock, _, below, -, within⟩ := bounds c.now
      have mirrors : Mirrors windowMs base c.now st :=
        (mirrors_after ordered (fun d member => (within d member).1) past below (fresh clock)
          (capped_nil positive)).1
      have member : e ∈ mineAt windowMs c.now c.key (base ++ st.counted) := by
        rw [mineAt_eq]
        simp only [liveAt, List.mem_filter, List.mem_append, decide_eq_true_eq]
        exact ⟨⟨.inr counted, key.symm⟩, by omega⟩
      obtain ⟨answered, -, idle⟩ := mirrors.call_eq
      have again : verdictOn limit windowMs _ c = _ := verdictOn_again member id.symm
      rw [again] at answered idle
      exact ⟨_, rfl, rfl, Prod.ext (idle (by simp [Told.counts])) answered⟩
    · obtain ⟨clock, _, -, -, within⟩ := bounds 0
      exact answers_filter ordered (fun d member => (within d member).1) (fresh clock) (fresh clock) rfl

/-- Two ids fill a window, and the third has room when the first has left it. -/
theorem window_caps_sample :
    let calls : List (Counting × Option Cut) := [(⟨"post", "r1", 10⟩, none), (⟨"post", "r2", 20⟩, some .renamed),
      (⟨"other", "r2", 30⟩, none), (⟨"post", "r1", 50⟩, none), (⟨"post", "r3", 109⟩, none), (⟨"post", "r3", 110⟩, none)]
    let start : Shared := ⟨none, []⟩
    let limit : String → Int := fun _ => 2
    Capped limit 100 (after limit 100 start calls).counted ∧
      (after limit 100 start calls).counted =
        [⟨"post", "r1", 10⟩, ⟨"post", "r2", 20⟩, ⟨"other", "r2", 30⟩, ⟨"post", "r3", 110⟩] := by
  intro calls start limit
  refine ⟨(window_caps none limit 100 calls (fun _ => by decide) (by unfold InTime; decide)).1, ?_⟩
  decide +kernel

end Caps

end Nvoy.Broker
