/-
Registers that a stream of events sets and clears.

An event may set one register to an entry, and may clear every register whose entry has a given id.
Every register runs on its own (`heldAt`): what it holds at the end is decided by the last event that
set it and by the clears after that event.

* `heldAt_eq_some` — a register holds an entry iff the event that set it stands: no later event sets
  the register again or clears the entry's id.
* `heldAt_of_heldAt_insert` — a further event that does not set a register never adds an entry to it.
* `mayHold_iff`, `mayBeEmpty_iff` — what a register may hold over all arrangements of the ties of a
  time-ordered stream, read off the events without arranging them.
* `settled_iff` — every arrangement leaves the register alike iff it is `Settled`.
* `endedAt_eq_of_settled` — the same for the reason of the last clear that hit an owner.
-/

import Nvoy.Lib.StableSort
import Mathlib.Data.List.Induction

set_option linter.unusedSectionVars false

namespace Nvoy

open StableSort

/-- What each event does to the registers. -/
structure Registers (α κ ν ι : Type) where
  sets : α → Option (κ × ν)
  clears : α → Option ι
  idOf : ν → ι
  /-- An event that sets a register clears at most the entry it set. -/
  ownClear : ∀ {e k v i}, sets e = some (k, v) → clears e = some i → i = idOf v

namespace Registers

variable {α κ ν ι : Type} [DecidableEq κ] [DecidableEq ι] (R : Registers α κ ν ι)

/-! ### One register -/

section Run

def setAt (k : κ) (held : Option ν) (e : α) : Option ν :=
  match R.sets e with
  | some (other, v) => if other = k then some v else held
  | none => held

def clearBy (held : Option ν) (e : α) : Option ν :=
  match R.clears e with
  | some i => held.filter fun v => R.idOf v ≠ i
  | none => held

/-- An event sets first, and clears after. -/
def stepAt (k : κ) (held : Option ν) (e : α) : Option ν := R.clearBy (R.setAt k held e) e

/-- What the register holds after the events. -/
def heldAt (k : κ) (events : List α) : Option ν := events.foldl (R.stepAt k) none

@[simp] theorem heldAt_nil (k : κ) : R.heldAt k [] = none := rfl

theorem heldAt_append (k : κ) (events more : List α) :
    R.heldAt k (events ++ more) = more.foldl (R.stepAt k) (R.heldAt k events) :=
  List.foldl_append

theorem heldAt_snoc (k : κ) (events : List α) (e : α) :
    R.heldAt k (events ++ [e]) = R.stepAt k (R.heldAt k events) e :=
  R.heldAt_append k events [e]

variable {R}

theorem setAt_set {k : κ} {e : α} {v : ν} (set : R.sets e = some (k, v)) (held : Option ν) :
    R.setAt k held e = some v := by
  rw [setAt, set]
  exact if_pos rfl

theorem setAt_quiet {k : κ} {e : α} (quiet : ∀ v, R.sets e ≠ some (k, v)) (held : Option ν) :
    R.setAt k held e = held := by
  unfold setAt
  split
  · rename_i other v set
    exact if_neg fun same : other = k => quiet v (same ▸ set)
  · rfl

theorem clearBy_eq_some {held : Option ν} {e : α} {v : ν} :
    R.clearBy held e = some v ↔ held = some v ∧ R.clears e ≠ some (R.idOf v) := by
  unfold clearBy
  split
  · rename_i i cleared
    rw [cleared, Option.filter_eq_some_iff, decide_eq_true_eq, ne_eq, ne_eq, Option.some.injEq,
      @eq_comm _ i]
  · rename_i keeps
    simp [keeps]

/-- An event neither sets the register nor clears the entry. -/
def Leaves (R : Registers α κ ν ι) (k : κ) (v : ν) (e : α) : Prop :=
  (∀ w, R.sets e ≠ some (k, w)) ∧ R.clears e ≠ some (R.idOf v)

/-- No event sets the register. -/
def Quiet (R : Registers α κ ν ι) (k : κ) (events : List α) : Prop :=
  ∀ e ∈ events, ∀ v, R.sets e ≠ some (k, v)

theorem heldAt_append_quiet {k : κ} {events more : List α} (quiet : R.Quiet k more) {v : ν} :
    R.heldAt k (events ++ more) = some v ↔
      R.heldAt k events = some v ∧ ∀ e ∈ more, R.clears e ≠ some (R.idOf v) := by
  induction more using List.reverseRecOn with
  | nil => simp
  | append_singleton more e ih =>
      have quietMore : R.Quiet k more := fun f member =>
        quiet f (List.mem_append.mpr (Or.inl member))
      have quietLast := quiet e (by simp)
      rw [← List.append_assoc, heldAt_snoc, stepAt, setAt_quiet quietLast, clearBy_eq_some,
        ih quietMore]
      simp only [List.mem_append, List.mem_singleton]
      constructor
      · rintro ⟨⟨held, keeps⟩, last⟩
        refine ⟨held, fun f member => ?_⟩
        rcases member with member | rfl
        · exact keeps f member
        · exact last
      · rintro ⟨held, keeps⟩
        exact ⟨⟨held, fun f member => keeps f (Or.inl member)⟩, keeps e (Or.inr rfl)⟩

/-- The event `e` set the register, and nothing after it took the entry away. -/
structure Stands (R : Registers α κ ν ι) (events : List α) (k : κ) (v : ν) (e : α) : Prop where
  sets : R.sets e = some (k, v)
  keeps : R.clears e ≠ some (R.idOf v)
  last : ∃ before after, events = before ++ e :: after ∧ ∀ f ∈ after, R.Leaves k v f

theorem exists_last {p : α → Prop} {events : List α} (hit : ∃ e ∈ events, p e) :
    ∃ before e after, events = before ++ e :: after ∧ p e ∧ ∀ f ∈ after, ¬ p f := by
  induction events with
  | nil => simp at hit
  | cons e events ih =>
      by_cases later : ∃ f ∈ events, p f
      · obtain ⟨before, f, after, split, found, none⟩ := ih later
        exact ⟨e :: before, f, after, by rw [split]; rfl, found, none⟩
      · obtain ⟨f, member, found⟩ := hit
        rcases List.mem_cons.mp member with rfl | member
        · exact ⟨[], f, events, rfl, found, fun g inside holds => later ⟨g, inside, holds⟩⟩
        · exact absurd ⟨f, member, found⟩ later

theorem exists_first {p : α → Prop} {events : List α} (hit : ∃ e ∈ events, p e) :
    ∃ before e after, events = before ++ e :: after ∧ p e ∧ ∀ f ∈ before, ¬ p f := by
  obtain ⟨e, member, found⟩ := hit
  obtain ⟨before, f, after, split, first, none⟩ :=
    exists_last (p := p) (show ∃ e ∈ events.reverse, p e from
      ⟨e, List.mem_reverse.mpr member, found⟩)
  refine ⟨after.reverse, f, before.reverse, ?_, first, fun g inside => ?_⟩
  · rw [← List.reverse_reverse events, split]
    simp
  · exact none g (List.mem_reverse.mp inside)

/-- A register is set last by some event, or by none. -/
theorem quiet_or_last (R : Registers α κ ν ι) (k : κ) (events : List α) :
    R.Quiet k events ∨ ∃ before e v after, events = before ++ e :: after ∧
      R.sets e = some (k, v) ∧ R.Quiet k after := by
  by_cases hit : ∃ e ∈ events, ∃ v, R.sets e = some (k, v)
  · obtain ⟨before, e, after, split, ⟨v, set⟩, none⟩ := exists_last hit
    exact Or.inr ⟨before, e, v, after, split, set, fun f member w sets =>
      none f member ⟨w, sets⟩⟩
  · exact Or.inl fun e member v set => hit ⟨e, member, v, set⟩

theorem heldAt_quiet {k : κ} {events : List α} (quiet : R.Quiet k events) :
    R.heldAt k events = none := by
  refine Option.eq_none_iff_forall_ne_some.mpr fun v held => ?_
  rw [← List.nil_append events, heldAt_append_quiet quiet] at held
  exact absurd held.1 (by simp)

theorem heldAt_last {k : κ} {before after : List α} {e : α} {v w : ν}
    (set : R.sets e = some (k, v)) (quiet : R.Quiet k after) :
    R.heldAt k (before ++ e :: after) = some w ↔
      v = w ∧ R.clears e ≠ some (R.idOf w) ∧ ∀ f ∈ after, R.clears f ≠ some (R.idOf w) := by
  have split : before ++ e :: after = (before ++ [e]) ++ after := by simp
  rw [split, heldAt_append_quiet quiet, heldAt_snoc, stepAt, setAt_set set, clearBy_eq_some,
    Option.some.injEq, and_assoc]

/-- **A register holds an entry iff the event that set it stands.** -/
theorem heldAt_eq_some {k : κ} {events : List α} {v : ν} :
    R.heldAt k events = some v ↔ ∃ e, R.Stands events k v e := by
  constructor
  · intro held
    rcases R.quiet_or_last k events with quiet | ⟨before, e, w, after, rfl, set, quiet⟩
    · rw [heldAt_quiet quiet] at held
      exact absurd held (by simp)
    · obtain ⟨rfl, keeps, clear⟩ := (heldAt_last set quiet).mp held
      exact ⟨e, set, keeps, before, after, rfl, fun f member =>
        ⟨quiet f member, clear f member⟩⟩
  · rintro ⟨e, set, keeps, before, after, rfl, leaves⟩
    exact (heldAt_last set fun f member => (leaves f member).1).mpr
      ⟨rfl, keeps, fun f member => (leaves f member).2⟩

theorem Stands.mem {events : List α} {k : κ} {v : ν} {e : α} (stands : R.Stands events k v e) :
    e ∈ events := by
  obtain ⟨before, after, rfl, -⟩ := stands.last
  simp

end Run

/-! ### One event more -/

section Insert

variable {R}

/-- What the first holds, the second holds. -/
def Below (held other : Option ν) : Prop := ∀ v, held = some v → other = some v

theorem Below.step {held other : Option ν} (below : Below held other) (k : κ) (e : α) :
    Below (R.stepAt k held e) (R.stepAt k other e) := by
  intro v kept
  obtain ⟨set, keeps⟩ := clearBy_eq_some.mp kept
  refine clearBy_eq_some.mpr ⟨?_, keeps⟩
  unfold setAt at set ⊢
  split at set
  · split_ifs at set ⊢
    · exact set
    · exact below v set
  · exact below v set

theorem Below.run {held other : Option ν} (below : Below held other) (k : κ) (events : List α) :
    Below (events.foldl (R.stepAt k) held) (events.foldl (R.stepAt k) other) := by
  induction events generalizing held other with
  | nil => exact below
  | cons e events ih => exact ih (below.step k e)

theorem below_of_quiet {e : α} {k : κ} (quiet : ∀ w, R.sets e ≠ some (k, w)) (held : Option ν) :
    Below (R.stepAt k held e) held := by
  intro v kept
  obtain ⟨set, -⟩ := clearBy_eq_some.mp kept
  rwa [setAt_quiet quiet] at set

/-- **A further event that does not set the register never adds an entry to it.** -/
theorem heldAt_of_heldAt_insert {e : α} {k : κ} (quiet : ∀ w, R.sets e ≠ some (k, w))
    {before after : List α} {v : ν} (held : R.heldAt k (before ++ e :: after) = some v) :
    R.heldAt k (before ++ after) = some v := by
  rw [heldAt_append] at held ⊢
  exact (below_of_quiet quiet _).run k after v held

end Insert

/-! ### Arrangements of the ties -/

section Ties

variable (time : α → Int)

/-- The stream is an arrangement of the events in time order. -/
structure Arranges (s events : List α) : Prop where
  ordered : InOrder time s
  perm : s.Perm events

theorem Arranges.mem {time : α → Int} {s events : List α} (arranges : Arranges time s events)
    {e : α} : e ∈ s ↔ e ∈ events :=
  arranges.perm.mem_iff

theorem arranges_sortBy (events : List α) : Arranges time (sortBy time events) events :=
  ⟨sortBy_inOrder time events, sortBy_perm time events⟩

/-- The event sets the register, and none that does is later. -/
structure Latest (events : List α) (k : κ) (v : ν) (e : α) : Prop where
  mem : e ∈ events
  sets : R.sets e = some (k, v)
  latest : ∀ f ∈ events, ∀ w, R.sets f = some (k, w) → time f ≤ time e

/-- The entry is cleared in every arrangement in which its event is the last to set it. -/
def SurelyCleared (events : List α) (v : ν) (e : α) : Prop :=
  R.clears e = some (R.idOf v) ∨
    ∃ f ∈ events, time e < time f ∧ R.clears f = some (R.idOf v)

/-- The entry is cleared in some such arrangement. -/
def MaybeCleared (events : List α) (v : ν) (e : α) : Prop :=
  ∃ f ∈ events, time e ≤ time f ∧ R.clears f = some (R.idOf v)

/-- Some arrangement leaves the entry in the register. -/
def MayHold (events : List α) (k : κ) (v : ν) : Prop :=
  ∃ e, R.Latest time events k v e ∧ ¬ R.SurelyCleared time events v e

/-- Some arrangement leaves the register empty. -/
def MayBeEmpty (events : List α) (k : κ) : Prop :=
  R.Quiet k events ∨ ∃ v e, R.Latest time events k v e ∧ R.MaybeCleared time events v e

variable {R time} {events s : List α} {k : κ} {v : ν}

theorem latest_of_last {before after : List α} {e : α} (arranges : Arranges time s events)
    (split : s = before ++ e :: after) (set : R.sets e = some (k, v)) (quiet : R.Quiet k after) :
    R.Latest time events k v e := by
  have ordered := arranges.ordered
  rw [split, InOrder, List.pairwise_append] at ordered
  refine ⟨arranges.mem.mp (by simp [split]), set, fun f member w other => ?_⟩
  have inside : f ∈ before ++ e :: after := split ▸ arranges.mem.mpr member
  rcases List.mem_append.mp inside with early | late
  · exact ordered.2.2 f early e List.mem_cons_self
  · rcases List.mem_cons.mp late with rfl | late
    · exact Int.le_refl _
    · exact absurd other (quiet f late w)

theorem time_le_of_after {before after : List α} {e : α} (ordered : InOrder time s)
    (split : s = before ++ e :: after) : ∀ f ∈ after, time e ≤ time f := by
  rw [split, InOrder, List.pairwise_append, List.pairwise_cons] at ordered
  exact ordered.2.1.1

theorem time_le_of_before {before after : List α} {e : α} (ordered : InOrder time s)
    (split : s = before ++ e :: after) : ∀ f ∈ before, time f ≤ time e := by
  rw [split, InOrder, List.pairwise_append] at ordered
  exact fun f member => ordered.2.2 f member e List.mem_cons_self

/-- A strictly later event comes after. -/
theorem mem_after {before after : List α} {e f : α} (ordered : InOrder time s)
    (split : s = before ++ e :: after) (member : f ∈ s) (later : time e < time f) : f ∈ after := by
  rw [split, List.mem_append, List.mem_cons] at member
  rcases member with early | rfl | late
  · have := time_le_of_before ordered split f early
    omega
  · omega
  · exact late

theorem mayHold_of_heldAt (arranges : Arranges time s events) (held : R.heldAt k s = some v) :
    R.MayHold time events k v := by
  obtain ⟨e, set, keeps, before, after, split, leaves⟩ := heldAt_eq_some.mp held
  refine ⟨e, latest_of_last arranges split set fun f member => (leaves f member).1, ?_⟩
  rintro (own | ⟨f, member, later, cleared⟩)
  · exact keeps own
  · have := mem_after arranges.ordered split (arranges.mem.mpr member) later
    exact (leaves f this).2 cleared

theorem mayBeEmpty_of_heldAt (arranges : Arranges time s events) (empty : R.heldAt k s = none) :
    R.MayBeEmpty time events k := by
  rcases R.quiet_or_last k s with quiet | ⟨before, e, v, after, split, set, quiet⟩
  · exact Or.inl fun f member => quiet f (arranges.mem.mpr member)
  · have latest := latest_of_last arranges split set quiet
    refine Or.inr ⟨v, e, latest, ?_⟩
    by_contra kept
    have held : R.heldAt k s = some v := by
      rw [split]
      refine (heldAt_last set quiet).mpr ⟨rfl, fun cleared => kept ?_, fun f member cleared =>
        kept ?_⟩
      · exact ⟨e, latest.mem, Int.le_refl _, cleared⟩
      · exact ⟨f, arranges.mem.mp (by simp [split, member]),
          time_le_of_after arranges.ordered split f member, cleared⟩
    rw [held] at empty
    exact absurd empty (by simp)

/-- The arrangement that puts the chosen events last among those of their time. -/
theorem exists_arrangement (time : α → Int) (moment : Int) (chosen rest : List α)
    (perm : events.Perm (chosen ++ rest)) (tied : ∀ e ∈ chosen, time e = moment) :
    ∃ before after, Arranges time (before ++ chosen ++ after) events ∧
      ∀ f ∈ after, moment < time f := by
  obtain ⟨before, after, split, later⟩ := around_split time moment chosen rest
  refine ⟨before, after, ⟨?_, ?_⟩, later⟩
  · rw [← split]
    exact around_inOrder rest tied
  · rw [← split]
    exact (around_perm rest).trans perm.symm

theorem quiet_of_latest {e : α} {after : List α} (latest : R.Latest time events k v e)
    (inside : ∀ f ∈ after, f ∈ events) (later : ∀ f ∈ after, time e < time f) :
    R.Quiet k after := by
  intro f member w set
  have := latest.latest f (inside f member) w set
  have := later f member
  omega

theorem exists_heldAt_of_mayHold (may : R.MayHold time events k v) :
    ∃ s, Arranges time s events ∧ R.heldAt k s = some v := by
  obtain ⟨e, latest, kept⟩ := may
  obtain ⟨first, last, split⟩ := List.append_of_mem latest.mem
  obtain ⟨before, after, arranges, later⟩ := exists_arrangement time (time e) [e]
    (first ++ last) (split ▸ List.perm_middle) (by simp)
  have inside : ∀ f ∈ after, f ∈ events := fun f member => arranges.mem.mp (by simp [member])
  refine ⟨_, arranges, ?_⟩
  rw [List.append_assoc]
  refine (heldAt_last latest.sets (quiet_of_latest latest inside later)).mpr ⟨rfl, ?_, ?_⟩
  · exact fun cleared => kept (Or.inl cleared)
  · exact fun f member cleared => kept (Or.inr ⟨f, inside f member, later f member, cleared⟩)

/-- Set by `e` and cleared by the next event, whatever that one sets. -/
theorem heldAt_pair {before : List α} {e f : α} (set : R.sets e = some (k, v))
    (cleared : R.clears f = some (R.idOf v)) : R.heldAt k (before ++ [e, f]) = none := by
  refine Option.eq_none_iff_forall_ne_some.mpr fun w held => ?_
  have split : before ++ [e, f] = (before ++ [e]) ++ [f] := by simp
  rw [split, heldAt_snoc, stepAt, clearBy_eq_some, cleared] at held
  obtain ⟨holds, differs⟩ := held
  refine differs (congrArg some ?_)
  by_cases again : ∃ u, R.sets f = some (k, u)
  · obtain ⟨u, setAgain⟩ := again
    rw [setAt_set setAgain] at holds
    rw [← Option.some.inj holds]
    exact R.ownClear setAgain cleared
  · rw [setAt_quiet (fun u setAgain => again ⟨u, setAgain⟩), heldAt_snoc, stepAt, clearBy_eq_some,
      setAt_set set] at holds
    rw [Option.some.inj holds.1]

theorem exists_heldAt_of_mayBeEmpty (may : R.MayBeEmpty time events k) :
    ∃ s, Arranges time s events ∧ R.heldAt k s = none := by
  rcases may with quiet | ⟨v, e, latest, f, member, notBefore, cleared⟩
  · refine ⟨_, arranges_sortBy time events, heldAt_quiet fun f member => ?_⟩
    exact quiet f ((mem_sortBy time).mp member)
  obtain ⟨first, last, split⟩ := List.append_of_mem latest.mem
  have perm : events.Perm (e :: (first ++ last)) := split ▸ List.perm_middle
  -- the clear is `e`'s own, or tied with `e`, or later: the first two are arranged right after `e`
  by_cases tied : f ∈ first ++ last ∧ time f = time e
  · obtain ⟨first', last', split'⟩ := List.append_of_mem tied.1
    have perm' : events.Perm ([e, f] ++ (first' ++ last')) :=
      perm.trans ((split' ▸ List.perm_middle : (first ++ last).Perm _).cons e)
    obtain ⟨before, after, arranges, later⟩ := exists_arrangement time (time e) [e, f]
      (first' ++ last') perm' (by simp [tied.2])
    have inside : ∀ g ∈ after, g ∈ events := fun g member => arranges.mem.mp (by simp [member])
    refine ⟨_, arranges, Option.eq_none_iff_forall_ne_some.mpr fun w held => ?_⟩
    rw [heldAt_append_quiet (quiet_of_latest latest inside later),
      heldAt_pair latest.sets cleared] at held
    exact absurd held.1 (by simp)
  · obtain ⟨before, after, arranges, later⟩ := exists_arrangement time (time e) [e]
      (first ++ last) perm (by simp)
    have inside : ∀ g ∈ after, g ∈ events := fun g member => arranges.mem.mp (by simp [member])
    refine ⟨_, arranges, Option.eq_none_iff_forall_ne_some.mpr fun w held => ?_⟩
    rw [List.append_assoc] at held arranges
    obtain ⟨rfl, keeps, clear⟩ :=
      (heldAt_last latest.sets (quiet_of_latest latest inside later)).mp held
    rcases List.mem_cons.mp (perm.mem_iff.mp member) with rfl | elsewhere
    · exact keeps cleared
    · have strictly : time e < time f := by
        have : time f ≠ time e := fun same => tied ⟨elsewhere, same⟩
        omega
      exact clear f (mem_after arranges.ordered rfl (arranges.mem.mpr member) strictly) cleared

theorem mayHold_iff : R.MayHold time events k v ↔
    ∃ s, Arranges time s events ∧ R.heldAt k s = some v :=
  ⟨exists_heldAt_of_mayHold, fun ⟨_, arranges, held⟩ => mayHold_of_heldAt arranges held⟩

theorem mayBeEmpty_iff : R.MayBeEmpty time events k ↔
    ∃ s, Arranges time s events ∧ R.heldAt k s = none :=
  ⟨exists_heldAt_of_mayBeEmpty, fun ⟨_, arranges, empty⟩ => mayBeEmpty_of_heldAt arranges empty⟩

/-- The events leave the register one way only, however their ties are arranged. -/
structure Settled (R : Registers α κ ν ι) (time : α → Int) (events : List α) (k : κ) : Prop where
  one : ∀ v w, R.MayHold time events k v → R.MayHold time events k w → v = w
  full : ∀ v, R.MayHold time events k v → ¬ R.MayBeEmpty time events k

/-- **Every arrangement of the ties leaves the register alike iff it is settled.** -/
theorem settled_iff : R.Settled time events k ↔
    ∀ s s', Arranges time s events → Arranges time s' events → R.heldAt k s = R.heldAt k s' := by
  constructor
  · intro settled s s' arranges arranges'
    cases held : R.heldAt k s with
    | none =>
        cases held' : R.heldAt k s' with
        | none => rfl
        | some w =>
            exact absurd (mayBeEmpty_of_heldAt arranges held)
              (settled.full w (mayHold_of_heldAt arranges' held'))
    | some v =>
        cases held' : R.heldAt k s' with
        | none =>
            exact absurd (mayBeEmpty_of_heldAt arranges' held')
              (settled.full v (mayHold_of_heldAt arranges held))
        | some w =>
            rw [settled.one v w (mayHold_of_heldAt arranges held)
              (mayHold_of_heldAt arranges' held')]
  · intro alike
    constructor
    · intro v w may may'
      obtain ⟨s, arranges, held⟩ := mayHold_iff.mp may
      obtain ⟨s', arranges', held'⟩ := mayHold_iff.mp may'
      exact Option.some.inj (held ▸ held' ▸ alike s s' arranges arranges')
    · intro v may empty
      obtain ⟨s, arranges, held⟩ := mayHold_iff.mp may
      obtain ⟨s', arranges', held'⟩ := mayBeEmpty_iff.mp empty
      have := alike s s' arranges arranges'
      rw [held, held'] at this
      exact absurd this (by simp)

end Ties

/-! ### The last clear that hit an owner -/

section Ended

variable {ρ ω : Type} (owner : κ → Option ρ) (why : α → ω)

/-- The event clears an entry that a register of the owner holds when the event comes, the entry
the event itself sets included. -/
def Ends (events : List α) (e : α) (p : ρ) : Prop :=
  ∃ k v, owner k = some p ∧ R.setAt k (R.heldAt k events) e = some v ∧
    R.clears e = some (R.idOf v)

open Classical in
/-- The reason of the last event that ended an entry of the owner. -/
noncomputable def endedAt (p : ρ) (events : List α) : Option ω :=
  (events.foldl (fun (seen : List α × Option ω) e =>
    (seen.1 ++ [e], if R.Ends owner seen.1 e p then some (why e) else seen.2)) ([], none)).2

@[simp] theorem endedAt_nil (p : ρ) : R.endedAt owner why p [] = none := rfl

open Classical in
theorem endedAt_snoc (p : ρ) (events : List α) (e : α) :
    R.endedAt owner why p (events ++ [e]) =
      if R.Ends owner events e p then some (why e) else R.endedAt owner why p events := by
  have seen : ∀ events : List α, (events.foldl (fun (seen : List α × Option ω) e =>
      (seen.1 ++ [e], if R.Ends owner seen.1 e p then some (why e) else seen.2)) ([], none)).1 =
        events := by
    intro events
    induction events using List.reverseRecOn with
    | nil => rfl
    | append_singleton events e ih => rw [List.foldl_append, List.foldl_cons, List.foldl_nil, ih]
  rw [endedAt, List.foldl_append, List.foldl_cons, List.foldl_nil, seen]
  rfl

variable {R owner why} {p : ρ}

/-- The last event that ended an entry gives the reason. -/
theorem endedAt_last {before after : List α} {d : α} (ends : R.Ends owner before d p)
    (last : ∀ first e rest, after = first ++ e :: rest →
      ¬ R.Ends owner (before ++ d :: first) e p) :
    R.endedAt owner why p (before ++ d :: after) = some (why d) := by
  induction after using List.reverseRecOn with
  | nil => rw [endedAt_snoc, if_pos ends]
  | append_singleton after e ih =>
      have grown : before ++ d :: (after ++ [e]) = (before ++ d :: after) ++ [e] := by simp
      rw [grown, endedAt_snoc, if_neg (last after e [] (by simp))]
      exact ih fun first f rest split => last first f (rest ++ [e]) (by simp [split])

/-- A stream ends no entry of the owner, or some event is the last to do so. -/
theorem never_or_last_end (owner : κ → Option ρ) (p : ρ) (s : List α) :
    (∀ before e after, s = before ++ e :: after → ¬ R.Ends owner before e p) ∨
      ∃ before d after, s = before ++ d :: after ∧ R.Ends owner before d p ∧
        ∀ first e rest, after = first ++ e :: rest →
          ¬ R.Ends owner (before ++ d :: first) e p := by
  induction s using List.reverseRecOn with
  | nil => exact Or.inl fun before e after split => by simp at split
  | append_singleton s e ih =>
      by_cases ends : R.Ends owner s e p
      · exact Or.inr ⟨s, e, [], rfl, ends, fun first f rest split => by simp at split⟩
      rcases ih with never | ⟨before, d, after, rfl, hit, last⟩
      · refine Or.inl fun before f after split => ?_
        rcases List.eq_nil_or_concat after with rfl | ⟨after', g, rfl⟩
        · obtain ⟨rfl, same⟩ := List.append_inj' split rfl
          cases same
          exact ends
        · rw [List.concat_eq_append, ← List.cons_append, ← List.append_assoc] at split
          exact never before f after' (List.append_inj' split rfl).1
      · refine Or.inr ⟨before, d, after ++ [e], by simp, hit, fun first f rest split => ?_⟩
        rcases List.eq_nil_or_concat rest with rfl | ⟨rest', g, rfl⟩
        · obtain ⟨rfl, same⟩ := List.append_inj' split rfl
          cases same
          exact ends
        · rw [List.concat_eq_append, ← List.cons_append, ← List.append_assoc] at split
          exact last first f rest' (List.append_inj' split rfl).1

variable (R owner why)
variable (time : α → Int)

/-- In some arrangement the event may be the last to end an entry of the owner: nothing strictly
between the setting event and it takes the entry away, and no expired setting of the register is
tied with it that would have to follow it. -/
def MayEndLast (events : List α) (d : α) (p : ρ) : Prop :=
  d ∈ events ∧ ∃ k v e, owner k = some p ∧ e ∈ events ∧ R.sets e = some (k, v) ∧
    R.clears d = some (R.idOf v) ∧ (e = d ∨ R.clears e ≠ some (R.idOf v)) ∧ time e ≤ time d ∧
    (∀ f ∈ events, time e < time f → time f < time d → R.Leaves k v f) ∧
    (time e < time d → ∀ f ∈ events, time f = time d → ∀ w, R.sets f = some (k, w) →
      R.clears f ≠ some (R.idOf w))

/-- In every arrangement some event at `moment` or later ends an entry of the owner: the entries
that one register is set to at one time are all cleared, none before `moment`, and before the
register is set again. -/
def CertainEnd (events : List α) (p : ρ) (moment : Int) : Prop :=
  ∃ k start, owner k = some p ∧ (∃ e ∈ events, time e = start ∧ ∃ v, R.sets e = some (k, v)) ∧
    ∀ e ∈ events, time e = start → ∀ v, R.sets e = some (k, v) →
      (R.clears e = some (R.idOf v) ∨
        ∃ f ∈ events, time e < time f ∧ R.clears f = some (R.idOf v) ∧
          ∀ g ∈ events, time e < time g → time g ≤ time f → ∀ w, R.sets g ≠ some (k, w)) ∧
      ∀ f ∈ events, time e ≤ time f → R.clears f = some (R.idOf v) → moment ≤ time f

/-- Nothing can end an entry of the owner; or some event certainly does, and everything from that
moment on that can be the last to do so gives one reason. -/
def EndsSettled (events : List α) (p : ρ) : Prop :=
  (∀ d, ¬ R.MayEndLast owner time events d p) ∨
    ∃ moment, R.CertainEnd owner time events p moment ∧
      ∃ w, ∀ d, R.MayEndLast owner time events d p → moment ≤ time d → why d = w

variable {R owner why time} {events s : List α}

theorem mayEndLast_of_last {before after : List α} {d : α} (arranges : Arranges time s events)
    (split : s = before ++ d :: after) (ends : R.Ends owner before d p)
    (last : ∀ first e rest, after = first ++ e :: rest →
      ¬ R.Ends owner (before ++ d :: first) e p) :
    R.MayEndLast owner time events d p := by
  obtain ⟨k, v, owned, set, cleared⟩ := ends
  have member : d ∈ events := arranges.mem.mp (by simp [split])
  by_cases own : ∃ w, R.sets d = some (k, w)
  · obtain ⟨w, sets⟩ := own
    rw [setAt_set sets, Option.some.injEq] at set
    subst set
    exact ⟨member, k, w, d, owned, member, sets, cleared, Or.inl rfl, Int.le_refl _,
      fun f _ later earlier => absurd (Int.lt_trans later earlier) (Int.lt_irrefl _),
      fun strict => absurd strict (Int.lt_irrefl _)⟩
  rw [setAt_quiet fun w sets => own ⟨w, sets⟩] at set
  obtain ⟨e, sets, keeps, first, between, shape, leaves⟩ := heldAt_eq_some.mp set
  have whole : s = first ++ e :: (between ++ d :: after) := by simp [split, shape]
  refine ⟨member, k, v, e, owned, arranges.mem.mp (by simp [whole]), sets, cleared,
    Or.inr keeps, time_le_of_after arranges.ordered whole d (by simp), ?_, ?_⟩
  · intro f inside later earlier
    have behind := mem_after arranges.ordered whole (arranges.mem.mpr inside) later
    rcases List.mem_append.mp behind with middle | rest
    · exact leaves f middle
    · have : time d ≤ time f := by
        rcases List.mem_cons.mp rest with rfl | rest
        · exact Int.le_refl _
        · exact time_le_of_after arranges.ordered split f rest
      omega
  · intro strict f inside tied w resets expired
    have behind := mem_after arranges.ordered whole (arranges.mem.mpr inside) (tied ▸ strict)
    rcases List.mem_append.mp behind with middle | rest
    · exact (leaves f middle).1 w resets
    · rcases List.mem_cons.mp rest with rfl | rest
      · exact own ⟨w, resets⟩
      · obtain ⟨first', rest', shape'⟩ := List.append_of_mem rest
        exact last first' f rest' shape' ⟨k, w, owned, setAt_set resets _, expired⟩

theorem ends_of_certainEnd {moment : Int} (arranges : Arranges time s events)
    (certain : R.CertainEnd owner time events p moment) :
    ∃ before d after, s = before ++ d :: after ∧ R.Ends owner before d p ∧ moment ≤ time d := by
  obtain ⟨k, moment', owned, ⟨e₀, member₀, at₀, v₀, sets₀⟩, cleared⟩ := certain
  obtain ⟨before, e, after, split, ⟨at', v, sets⟩, none⟩ := exists_last
    (p := fun e => time e = moment' ∧ ∃ v, R.sets e = some (k, v))
    ⟨e₀, arranges.mem.mpr member₀, at₀, v₀, sets₀⟩
  have member : e ∈ events := arranges.mem.mp (by simp [split])
  obtain ⟨surely, notBefore⟩ := cleared e member at' v sets
  by_cases own : R.clears e = some (R.idOf v)
  · exact ⟨before, e, after, split, ⟨k, v, owned, setAt_set sets _, own⟩,
      notBefore e member (Int.le_refl _) own⟩
  obtain ⟨f, inside, later, hit, unset⟩ := surely.resolve_left own
  -- the first clear after `e` comes before the register is set again, and finds the entry there
  have behind := mem_after arranges.ordered split (arranges.mem.mpr inside) later
  obtain ⟨between, d, rest, shape, first, kept⟩ := exists_first
    (p := fun f => R.clears f = some (R.idOf v)) ⟨f, behind, hit⟩
  have inOrder : InOrder time after := by
    have ordered := arranges.ordered
    rw [split, InOrder, List.pairwise_append, List.pairwise_cons] at ordered
    exact ordered.2.1.2
  have upTo : ∀ g ∈ between ++ [d], time g ≤ time f := by
    intro g inBetween
    have reached : f ∈ d :: rest := by
      have : f ∈ between ++ d :: rest := shape ▸ behind
      rcases List.mem_append.mp this with early | late
      · exact absurd hit (kept f early)
      · exact late
    rw [shape, InOrder, List.pairwise_append, List.pairwise_cons] at inOrder
    rcases List.mem_append.mp inBetween with early | only
    · exact inOrder.2.2 g early f reached
    · rw [List.mem_singleton.mp only]
      rcases List.mem_cons.mp reached with rfl | late
      · exact Int.le_refl _
      · exact inOrder.2.1.1 f late
  have quiet : R.Quiet k (between ++ [d]) := by
    intro g inBetween w resets
    have inAfter : g ∈ after := by
      rw [shape]
      rcases List.mem_append.mp inBetween with early | only
      · simp [early]
      · simp [List.mem_singleton.mp only]
    have notEarlier := time_le_of_after arranges.ordered split g inAfter
    have strictly : time e < time g := by
      have : time g ≠ moment' := fun same => none g inAfter ⟨same, w, resets⟩
      omega
    exact unset g (arranges.mem.mp (by simp [split, inAfter])) strictly (upTo g inBetween) w resets
  have held : R.heldAt k (before ++ e :: between) = some v :=
    (heldAt_last sets fun g inside => quiet g (by simp [inside])).mpr ⟨rfl, own, kept⟩
  have still : R.setAt k (R.heldAt k (before ++ e :: between)) d = some v := by
    rw [setAt_quiet (quiet d (by simp)), held]
  refine ⟨before ++ e :: between, d, rest, by simp [split, shape], ⟨k, v, owned, still, first⟩, ?_⟩
  exact notBefore d (arranges.mem.mp (by simp [split, shape]))
    (time_le_of_after arranges.ordered split d (by simp [shape])) first

/-- The last end of the owner comes no earlier than any end of the owner. -/
theorem time_le_last {before after before' after' : List α} {d d' : α}
    (ordered : InOrder time s) (split : s = before ++ d :: after)
    (last : ∀ first e rest, after = first ++ e :: rest →
      ¬ R.Ends owner (before ++ d :: first) e p)
    (split' : s = before' ++ d' :: after') (ends : R.Ends owner before' d' p) :
    time d' ≤ time d := by
  rw [split] at split'
  rcases List.append_eq_append_iff.mp split' with ⟨more, grown, rest⟩ | ⟨more, grown, rest⟩
  · cases more with
    | nil =>
        obtain ⟨rfl, -⟩ := List.cons.inj rest
        exact Int.le_refl _
    | cons e more =>
        obtain ⟨rfl, shape⟩ := List.cons.inj rest
        rw [grown] at ends
        exact absurd ends (last more d' after' shape)
  · cases more with
    | nil =>
        obtain ⟨rfl, -⟩ := List.cons.inj rest
        exact Int.le_refl _
    | cons e more =>
        obtain ⟨rfl, -⟩ := List.cons.inj rest
        exact time_le_of_before ordered split d' (by simp [grown])

/-- **What ended an owner is settled**: every arrangement gives the same reason. -/
theorem endedAt_eq_of_settled (settled : R.EndsSettled owner why time events p) {s' : List α}
    (arranges : Arranges time s events) (arranges' : Arranges time s' events) :
    R.endedAt owner why p s = R.endedAt owner why p s' := by
  have fixed : ∃ reason, ∀ {s}, Arranges time s events → R.endedAt owner why p s = reason := by
    rcases settled with never | ⟨moment, certain, w, one⟩
    · refine ⟨none, fun {s} arranges => ?_⟩
      rcases never_or_last_end (R := R) owner p s with none | ⟨before, d, after, split, ends, last⟩
      · have parts : ∀ first last, s = first ++ last → R.endedAt owner why p first = .none := by
          intro first
          induction first using List.reverseRecOn with
          | nil => exact fun _ _ => rfl
          | append_singleton first d ih =>
              intro last split
              rw [endedAt_snoc, if_neg (none first d last (by simp [split]))]
              exact ih (d :: last) (by simp [split])
        exact parts s [] (by simp)
      · exact absurd (mayEndLast_of_last arranges split ends last) (never d)
    · refine ⟨some w, fun {s} arranges => ?_⟩
      obtain ⟨before', d', after', split', ends', late⟩ := ends_of_certainEnd arranges certain
      rcases never_or_last_end (R := R) owner p s with none | ⟨before, d, after, split, ends, last⟩
      · exact absurd ends' (none before' d' after' split')
      · have later := time_le_last arranges.ordered split last split' ends'
        rw [split, endedAt_last ends last,
          one d (mayEndLast_of_last arranges split ends last) (Int.le_trans late later)]
  obtain ⟨reason, fixed⟩ := fixed
  rw [fixed arranges, fixed arranges']

end Ended

end Registers

end Nvoy
