/-
**The inbox** (`unwrapRumors` of `nvoygrant.mjs`): all gift wraps addressed to the signer, page by page, and
the rumors in them.

A page is the newest wraps at or before `until`, and the next one is asked for from the second before its
oldest wrap:

* `pages`, `unwrapRumors` — the walk over the pages, and what is opened of what it has seen;
* `Serves` — a relay that answers with its newest matches, in any order of those of one second;
* `Apart` — newest first, no page ends within a second, nor at second 1 with more to come;
* `inbox_whole` — exactly then every relay's inbox is read whole.
-/

import Nvoy.Admission.Invocation
import Nvoy.Lib.Recent

namespace Nvoy.Console

open Recent (Newest ages ages_eq_of_perm length_ages newestOf newest_newestOf)
open Admission (wireEvent)

/-! ### The pages -/

structure Wrap where
  id : String
  pubkey : String
  createdAt : Int
  content : String
  deriving DecidableEq

def PAGE : Nat := 500

def MAX_PAGES : Nat := 20

/-- What a relay answers to the query of that number, with `until` where it is set. -/
abbrev Query := Nat → Option Int → List Wrap

/-- The wraps of a page that have an id, and one not seen before. -/
def fresh (seen page : List Wrap) : List Wrap :=
  page.filter fun w => w.id ≠ "" && !(seen.map Wrap.id).contains w.id

/-- The loop over the pages, with that many left; an `until` of 0 is not sent. -/
def pages (query : Query) : Nat → Nat → List Wrap → Option Int → List Wrap
  | 0, _, seen, _ => seen
  | left + 1, i, seen, last =>
      let new := fresh seen (query i (last.filter (· ≠ 0)))
      match (new.map Wrap.createdAt).min? with
      | none => seen
      | some oldest => pages query left (i + 1) (seen ++ new) (some (oldest - 1))

structure Unwrapped where
  /-- `stats.wraps` -/
  wraps : Nat
  /-- `stats.undecryptable` -/
  undecryptable : Nat
  rumors : List Json

/-- Asking it for a field throws. -/
def isNull : Json → Bool
  | .null => true
  | _ => false

/-- The rumor of a wrap; an error where opening it throws, and none where it is not authentic or not wanted. -/
def openWrap (host : Host) (nip44Decrypt : String → String → Option String) (kinds : List Int) (wrap : Wrap) :
    Except Unit (Option Json) := do
  let seal_ ← require ((nip44Decrypt wrap.pubkey wrap.content).bind fun text => Json.parse text.toList) ()
  ensure (!isNull seal_) ()
  match wireEvent seal_ with
  | none => return none
  | some ev =>
    if ev.kind ≠ 13 ∨ host.verifyEvent ev = false then return none
    else
      let rumor ← require ((nip44Decrypt ev.pubkey ev.content).bind fun text => Json.parse text.toList) ()
      ensure (!isNull rumor) ()
      if (rumor.get "pubkey").bind Json.string ≠ some ev.pubkey then return none
      else if ((rumor.get "kind").bind Json.integer).any kinds.contains then return some rumor
      else return none

def examined (query : Query) : List Wrap := pages query MAX_PAGES 0 [] none

def rumorOf (host : Host) (nip44Decrypt : String → String → Option String) (kinds : List Int) (wrap : Wrap) :
    Option Json :=
  match openWrap host nip44Decrypt kinds wrap with
  | .ok rumor => rumor
  | .error _ => none

def unwrapRumors (host : Host) (nip44Decrypt : String → String → Option String) (kinds : List Int)
    (query : Query) : Unwrapped where
  wraps := (examined query).length
  undecryptable := (examined query).countP fun wrap =>
    openWrap host nip44Decrypt kinds wrap matches .error _
  rumors := (examined query).filterMap (rumorOf host nip44Decrypt kinds)

/-! ### Relays -/

/-- The wraps of the relay that match. -/
def matching (wraps : List Wrap) (last : Option Int) : List Wrap :=
  wraps.filter fun w => last.all (w.createdAt ≤ ·)

/-- Every answer is the newest matches, so many of them. -/
def Serves (wraps : List Wrap) (limit : Nat) (query : Query) : Prop :=
  ∀ i last, Newest Wrap.createdAt limit (matching wraps last) (query i last)

/-- Distinct ids, and none is empty. -/
structure Distinct (wraps : List Wrap) : Prop where
  nodup : (wraps.map Wrap.id).Nodup
  filled : ∀ w ∈ wraps, w.id ≠ ""

/-- Of times, the newest first: no page ends within a second, nor at second 1 with more to come. -/
def Apart (limit : Nat) (times : List Int) : Prop :=
  ∀ i, 0 < i → i * limit < times.length →
    times[i * limit - 1]? ≠ times[i * limit]? ∧ times[i * limit - 1]? ≠ some 1

/-- The relay that lists those of one second in one order. -/
def steady (wraps : List Wrap) (limit : Nat) : Query := fun _ last =>
  newestOf Wrap.createdAt limit (matching wraps last)

section Walk

variable {wraps seen : List Wrap} {limit left i : Nat} {last : Option Int} {query : Query}

theorem apart_of_length_le {times : List Int} (short : times.length ≤ limit) : Apart limit times := by
  intro i positive inside
  have := Nat.le_mul_of_pos_left limit positive
  omega

/-- The first page, and the rest. -/
theorem apart_iff {times : List Int} (long : limit < times.length) : Apart limit times ↔
    (times[limit - 1]? ≠ times[limit]? ∧ times[limit - 1]? ≠ some 1) ∧ Apart limit (times.drop limit) := by
  have index : ∀ i, 0 < i → 0 < limit → (i + 1) * limit - 1 = limit + (i * limit - 1) := by
    intro i positive some
    have := Nat.mul_pos positive some
    rw [Nat.succ_mul]
    omega
  constructor
  · intro apart
    have first := apart 1 Nat.one_pos (by omega)
    rw [Nat.one_mul] at first
    refine ⟨first, fun i positive inside => ?_⟩
    rw [List.length_drop] at inside
    have next := apart (i + 1) (Nat.succ_pos i) (by rw [Nat.succ_mul]; omega)
    rw [List.getElem?_drop, List.getElem?_drop]
    obtain none | some := Nat.eq_zero_or_pos limit
    · subst none
      simp at next
    · rw [index i positive some, Nat.succ_mul, Nat.add_comm (i * limit)] at next
      exact next
  · rintro ⟨first, rest⟩ i positive inside
    obtain rfl | later := Nat.eq_or_lt_of_le (Nat.succ_le_of_lt positive)
    · rw [Nat.one_mul]
      exact first
    · obtain ⟨j, rfl⟩ := Nat.exists_eq_succ_of_ne_zero (Nat.ne_of_gt positive)
      have positive : 0 < j := by omega
      have next := rest j positive (by rw [List.length_drop]; rw [Nat.succ_mul] at inside; omega)
      rw [List.getElem?_drop, List.getElem?_drop] at next
      obtain none | some := Nat.eq_zero_or_pos limit
      · subst none
        simp at next
      · rw [Nat.succ_eq_add_one, index j positive some, Nat.succ_mul, Nat.add_comm (j * limit)]
        exact next

theorem Distinct.nodup_wraps (distinct : Distinct wraps) : wraps.Nodup := distinct.nodup.of_map

/-- What is fresh is what has not been seen. -/
theorem Distinct.fresh_eq (distinct : Distinct wraps) {page : List Wrap} (seenIn : ∀ w ∈ seen, w ∈ wraps)
    (pageIn : ∀ w ∈ page, w ∈ wraps) : fresh seen page = page.filter (· ∉ seen) := by
  refine List.filter_congr fun w member => ?_
  have inside := pageIn w member
  have same : w.id ∈ seen.map Wrap.id ↔ w ∈ seen := by
    refine ⟨fun listed => ?_, List.mem_map_of_mem⟩
    obtain ⟨other, before, id⟩ := List.mem_map.mp listed
    exact List.inj_on_of_nodup_map distinct.nodup (seenIn other before) inside id ▸ before
  simp [distinct.filled w inside, same]

theorem mem_of_serves (serves : Serves wraps limit query) {w : Wrap} (member : w ∈ query i last) : w ∈ wraps :=
  (List.mem_filter.mp ((serves i last).of_mem w member)).1

/-- A page of what has been seen ends the walk. -/
theorem pages_stop (distinct : Distinct wraps) (serves : Serves wraps limit query)
    (seenIn : ∀ w ∈ seen, w ∈ wraps) (known : ∀ w ∈ query i (last.filter (· ≠ 0)), w ∈ seen) :
    pages query left i seen last = seen := by
  cases left with
  | zero => rfl
  | succ left =>
      have none : fresh seen (query i (last.filter (· ≠ 0))) = [] := by
        rw [distinct.fresh_eq seenIn fun w => mem_of_serves serves, List.filter_eq_nil_iff]
        intro w member
        simp [known w member]
      rw [pages, none]
      rfl

/-- The oldest wrap of a page. -/
theorem exists_oldest {page : List Wrap} (some : page ≠ []) :
    ∃ oldest, (page.map Wrap.createdAt).min? = .some oldest ∧ (∃ w ∈ page, w.createdAt = oldest) ∧
      ∀ w ∈ page, oldest ≤ w.createdAt := by
  cases least : (page.map Wrap.createdAt).min? with
  | none => exact absurd (List.map_eq_nil_iff.mp (List.min?_eq_none_iff.mp least)) some
  | some oldest =>
      obtain ⟨member, below⟩ := List.min?_eq_some_iff.mp least
      obtain ⟨w, inside, time⟩ := List.mem_map.mp member
      exact ⟨oldest, rfl, ⟨w, inside, time⟩, fun w inside => below _ (List.mem_map_of_mem inside)⟩

/-- What a page that is cut off leaves: everything before the second of its oldest wrap, if no wrap of that
second is left. -/
structure Page (wraps seen page : List Wrap) (limit : Nat) (last : Option Int) (oldest : Int) : Prop where
  fresh : fresh seen page = page
  least : (page.map Wrap.createdAt).min? = some oldest
  below : ∀ w ∈ page, oldest ≤ w.createdAt
  split : ages Wrap.createdAt (matching wraps last) =
    ages Wrap.createdAt page ++ ages Wrap.createdAt ((matching wraps last).filter (· ∉ page))
  perm : (seen ++ page ++ (matching wraps last).filter (· ∉ page)).Perm wraps
  older : ∀ w ∈ (matching wraps last).filter (· ∉ page), w.createdAt ≤ oldest

theorem page_of_serves (distinct : Distinct wraps) (serves : Serves wraps limit query) (positive : 0 < limit)
    (whole : (seen ++ matching wraps last).Perm wraps) (more : matching wraps last ≠ []) :
    ∃ oldest, Page wraps seen (query i last) limit last oldest := by
  have newest := serves i last
  have nodup : (matching wraps last).Nodup := distinct.nodup_wraps.filter _
  have filled : query i last ≠ [] := by
    intro empty
    obtain ⟨w, member⟩ := List.exists_mem_of_ne_nil _ more
    have full := (newest.rest w member (empty ▸ List.not_mem_nil)).1
    rw [empty, List.length_nil] at full
    omega
  obtain ⟨oldest, least, ⟨bottom, inPage, time⟩, below⟩ := exists_oldest filled
  have apart : ∀ w ∈ query i last, w ∉ seen := by
    intro w member before
    have once := (List.nodup_append.mp (whole.nodup_iff.mpr distinct.nodup_wraps)).2.2
    exact once w before w (newest.of_mem w member) rfl
  refine ⟨oldest, ?_, least, below, newest.ages_eq nodup, ?_, fun w left => ?_⟩
  · rw [distinct.fresh_eq (fun w before => whole.subset (List.mem_append_left _ before))
      fun w => mem_of_serves serves]
    exact List.filter_eq_self.mpr fun w member => decide_eq_true (apart w member)
  · rw [List.append_assoc]
    exact ((newest.perm nodup).symm.append_left seen).trans whole
  · obtain ⟨inside, outside⟩ := List.mem_filter.mp left
    exact time ▸ (newest.rest w inside (of_decide_eq_true outside)).2 bottom inPage

/-- The times at the end of a full page. -/
theorem Page.ends {page : List Wrap} {oldest : Int} (at_ : Page wraps seen page limit last oldest)
    (positive : 0 < limit) (full : page.length = limit) :
    (ages Wrap.createdAt (matching wraps last))[limit - 1]? = some oldest ∧
    (ages Wrap.createdAt (matching wraps last)).drop limit =
      ages Wrap.createdAt ((matching wraps last).filter (· ∉ page)) := by
  have length : (ages Wrap.createdAt page).length = limit := (length_ages page).trans full
  rw [at_.split]
  refine ⟨?_, List.drop_left' length⟩
  rw [List.getElem?_append_left (by omega)]
  have inside : limit - 1 < (ages Wrap.createdAt page).length := by omega
  rw [List.getElem?_eq_getElem inside, Option.some_inj]
  obtain ⟨member, -⟩ := List.min?_eq_some_iff.mp at_.least
  have listed : oldest ∈ ages Wrap.createdAt page := (Recent.ages_perm page).mem_iff.mpr member
  obtain ⟨j, before, there⟩ := List.mem_iff_getElem.mp listed
  have last_ : (ages Wrap.createdAt page)[limit - 1] ∈ page.map Wrap.createdAt :=
    (Recent.ages_perm page).mem_iff.mp (List.getElem_mem inside)
  obtain ⟨w, inPage, time⟩ := List.mem_map.mp last_
  refine le_antisymm ?_ (time ▸ at_.below w inPage)
  rw [← there]
  obtain same | earlier := Nat.eq_or_lt_of_le (show j ≤ limit - 1 by omega)
  · subst same
    exact le_refl _
  · exact List.pairwise_iff_getElem.mp (Recent.ages_sorted page) j (limit - 1) before inside earlier

/-- The next time is that of the oldest wrap where a wrap of its second is left. -/
theorem Page.tie {page : List Wrap} {oldest : Int} (at_ : Page wraps seen page limit last oldest)
    (positive : 0 < limit) (full : page.length = limit) :
    (ages Wrap.createdAt (matching wraps last))[limit]? = some oldest ↔
      ∃ w ∈ (matching wraps last).filter (· ∉ page), w.createdAt = oldest := by
  rw [← List.head?_drop, (at_.ends positive full).2]
  have sorted : (ages Wrap.createdAt ((matching wraps last).filter (· ∉ page))).Pairwise (· ≥ ·) :=
    Recent.ages_sorted _
  have times : (ages Wrap.createdAt ((matching wraps last).filter (· ∉ page))).Perm
      (((matching wraps last).filter (· ∉ page)).map Wrap.createdAt) := Recent.ages_perm _
  constructor
  · intro head
    obtain ⟨w, member, time⟩ := List.mem_map.mp (times.mem_iff.mp (List.mem_of_head? head))
    exact ⟨w, member, time⟩
  · rintro ⟨w, member, time⟩
    have listed : oldest ∈ ages Wrap.createdAt ((matching wraps last).filter (· ∉ page)) :=
      times.mem_iff.mpr (List.mem_map.mpr ⟨w, member, time⟩)
    cases all : ages Wrap.createdAt ((matching wraps last).filter (· ∉ page)) with
    | nil =>
        rw [all] at listed
        exact absurd listed List.not_mem_nil
    | cons first others =>
        rw [all] at sorted listed
        have inside : first ∈ ((matching wraps last).filter (· ∉ page)).map Wrap.createdAt :=
          times.mem_iff.mp (all ▸ List.mem_cons_self)
        obtain ⟨v, left, rfl⟩ := List.mem_map.mp inside
        rw [List.head?_cons, Option.some_inj]
        refine le_antisymm (at_.older v left) ?_
        obtain same | later := List.mem_cons.mp listed
        · exact same.le
        · exact (List.pairwise_cons.mp sorted).1 oldest later

/-- Where no wrap of the oldest second is left, what is left is what the next query is about. -/
theorem Page.rest {page : List Wrap} {oldest : Int} (at_ : Page wraps seen page limit last oldest)
    (before : ∀ w ∈ page, last.all (w.createdAt ≤ ·) = true) (filled : page ≠ [])
    (strict : ∀ w ∈ (matching wraps last).filter (· ∉ page), w.createdAt ≠ oldest) :
    (matching wraps last).filter (· ∉ page) = matching wraps (some (oldest - 1)) := by
  rw [matching, List.filter_filter, matching]
  refine List.filter_congr fun w inside => ?_
  rw [Bool.eq_iff_iff, Bool.and_eq_true, decide_eq_true_eq, Option.all_some, decide_eq_true_eq]
  constructor
  · rintro ⟨outside, early⟩
    have left : w ∈ (matching wraps last).filter (· ∉ page) :=
      List.mem_filter.mpr ⟨List.mem_filter.mpr ⟨inside, early⟩, decide_eq_true outside⟩
    have older := at_.older w left
    have other := strict w left
    omega
  · intro older
    refine ⟨fun inPage => ?_, ?_⟩
    · have := at_.below w inPage
      omega
    · cases last with
      | none => rfl
      | some bound =>
          obtain ⟨bottom, inPage⟩ := List.exists_mem_of_ne_nil _ filled
          have least := at_.below bottom inPage
          have early := before bottom inPage
          rw [Option.all_some, decide_eq_true_eq] at early ⊢
          omega

theorem Page.step {page : List Wrap} {oldest : Int} (at_ : Page wraps seen page limit last oldest)
    (asked : query i (last.filter (· ≠ 0)) = page) :
    pages query (left + 1) i seen last = pages query left (i + 1) (seen ++ page) (some (oldest - 1)) := by
  rw [pages, asked, at_.fresh, at_.least]

theorem filter_sent (sent : last ≠ some 0) : last.filter (· ≠ 0) = last := by
  cases last with
  | none => rfl
  | some u =>
      have other : u ≠ 0 := fun zero => sent (congrArg some zero)
      simp [Option.filter, other]

/-- A page that leaves nothing. -/
theorem left_nil (serves : Serves wraps limit query) (short : (matching wraps last).length ≤ limit) :
    (matching wraps last).filter (· ∉ query i last) = [] := by
  refine List.filter_eq_nil_iff.mpr fun w member => ?_
  simp [(serves i last).mem_of_length_le short member]

/-- A page that leaves something is full. -/
theorem length_of_left (distinct : Distinct wraps) (serves : Serves wraps limit query) (long : limit < (matching wraps last).length) :
    (query i last).length = limit ∧ (matching wraps last).filter (· ∉ query i last) ≠ [] := by
  have newest := serves i last
  have left : (matching wraps last).filter (· ∉ query i last) ≠ [] := by
    intro none
    have all : matching wraps last ⊆ query i last := by
      intro w member
      by_contra outside
      exact List.filter_eq_nil_iff.mp none w member (decide_eq_true outside)
    have nodup : (matching wraps last).Nodup := distinct.nodup_wraps.filter _
    have room := (List.subperm_of_subset nodup all).length_le
    have := newest.length_le
    omega
  obtain ⟨w, member⟩ := List.exists_mem_of_ne_nil _ left
  obtain ⟨inside, outside⟩ := List.mem_filter.mp member
  exact ⟨(newest.rest w inside (of_decide_eq_true outside)).1, left⟩

/-- **Where no page ends within a second, the walk sees every wrap.** -/
theorem pages_whole (distinct : Distinct wraps) (serves : Serves wraps limit query) (positive : 0 < limit)
    (whole : (seen ++ matching wraps last).Perm wraps)
    (apart : Apart limit (ages Wrap.createdAt (matching wraps last)))
    (few : (matching wraps last).length ≤ left * limit)
    (sent : last ≠ some 0 ∨ matching wraps last = []) : (pages query left i seen last).Perm wraps := by
  induction left generalizing i seen last with
  | zero =>
      have none : matching wraps last = [] := List.eq_nil_of_length_eq_zero (by omega)
      rw [none, List.append_nil] at whole
      exact whole
  | succ left ih =>
      by_cases more : matching wraps last = []
      · rw [more, List.append_nil] at whole
        rw [pages_stop distinct serves (fun w => (whole.subset ·))
          fun w member => whole.symm.subset (mem_of_serves serves member)]
        exact whole
      have sent := sent.resolve_right more
      obtain ⟨oldest, at_⟩ := page_of_serves (i := i) distinct serves positive whole more
      rw [at_.step (congrArg _ (filter_sent sent))]
      by_cases short : (matching wraps last).length ≤ limit
      · have all := at_.perm
        rw [left_nil serves short, List.append_nil] at all
        rw [pages_stop distinct serves (fun w => (all.subset ·))
          fun w member => all.symm.subset (mem_of_serves serves member)]
        exact all
      · have long := Nat.lt_of_not_le short
        obtain ⟨full, some⟩ := length_of_left (i := i) distinct serves long
        obtain ⟨end_, rest⟩ := at_.ends positive full
        obtain ⟨⟨differs, notFirst⟩, apart⟩ :=
          (apart_iff (by rw [length_ages]; exact long)).mp apart
        rw [end_] at differs notFirst
        have strict : ∀ w ∈ (matching wraps last).filter (· ∉ query i last), w.createdAt ≠ oldest :=
          fun w member time => differs ((at_.tie positive full).mpr ⟨w, member, time⟩).symm
        have filled : query i last ≠ [] := by
          rintro empty
          rw [empty, List.length_nil] at full
          omega
        have early : ∀ w ∈ query i last, last.all (w.createdAt ≤ ·) = true := fun w member =>
          (List.mem_filter.mp ((serves i last).of_mem w member)).2
        have next := at_.rest early filled strict
        rw [rest, next] at apart
        have perm := at_.perm
        rw [next] at perm
        refine ih perm apart ?_ (.inl fun zero => notFirst ?_)
        · have lengths := at_.perm.length_eq
          have before := whole.length_eq
          rw [next, List.length_append, List.length_append] at lengths
          rw [List.length_append] at before
          rw [Nat.succ_mul] at few
          omega
        · rw [Option.some_inj] at zero
          rw [Option.some_inj]
          omega

/-! ### A relay of one order -/

theorem steady_serves (wraps : List Wrap) (limit : Nat) : Serves wraps limit (steady wraps limit) :=
  fun _ last => newest_newestOf (matching wraps last)

/-- After its first page, the relay lists nothing new that is newer than it was asked for. -/
theorem steady_within (distinct : Distinct wraps) (seenIn : ∀ w ∈ seen, w ∈ wraps)
    (first : ∀ w ∈ steady wraps limit 0 none, w ∈ seen) {bound : Int} {w : Wrap}
    (member : w ∈ pages (steady wraps limit) left i seen (some bound)) : w ∈ seen ∨ w.createdAt ≤ bound := by
  induction left generalizing i seen bound with
  | zero => exact .inl member
  | succ left ih =>
      by_cases zero : bound = 0
      · subst zero
        rw [pages_stop distinct (steady_serves wraps limit) seenIn first] at member
        exact .inl member
      · have sent : (some bound).filter (· ≠ 0) = some bound := filter_sent (by simpa using zero)
        rw [pages, sent] at member
        cases least : ((fresh seen (steady wraps limit i (some bound))).map Wrap.createdAt).min? with
        | none =>
            rw [least] at member
            exact .inl member
        | some oldest =>
            rw [least] at member
            dsimp only at member
            have early : ∀ w ∈ fresh seen (steady wraps limit i (some bound)), w.createdAt ≤ bound := by
              intro w new
              have asked := (steady_serves wraps limit i (some bound)).of_mem w (List.mem_filter.mp new).1
              simpa [matching] using (List.mem_filter.mp asked).2
            have inside : ∀ w ∈ seen ++ fresh seen (steady wraps limit i (some bound)), w ∈ wraps := by
              intro w listed
              obtain before | new := List.mem_append.mp listed
              · exact seenIn w before
              · exact mem_of_serves (steady_serves wraps limit) (List.mem_filter.mp new).1
            obtain ⟨bottom, isNew, time⟩ := List.mem_map.mp (List.min?_eq_some_iff.mp least).1
            have := early bottom isNew
            obtain before | older := ih inside (fun w page => List.mem_append_left _ (first w page)) member
            · exact (List.mem_append.mp before).imp_right (early w)
            · exact .inr (by omega)

/-- **Where a page ends within a second, a wrap is lost.** -/
theorem apart_of_pages (distinct : Distinct wraps) (positive : 0 < limit)
    (whole : (seen ++ matching wraps last).Perm wraps)
    (first : last = none ∨ ∀ w ∈ steady wraps limit 0 none, w ∈ seen)
    (all : (pages (steady wraps limit) left i seen last).Perm wraps) :
    Apart limit (ages Wrap.createdAt (matching wraps last)) := by
  have serves := steady_serves wraps limit
  have seenIn : ∀ w ∈ seen, w ∈ wraps := fun w before => whole.subset (List.mem_append_left _ before)
  have ended : (pages (steady wraps limit) left i seen last = seen) → matching wraps last = [] := by
    intro same
    rw [same] at all
    have lengths := all.length_eq.trans whole.length_eq.symm
    rw [List.length_append] at lengths
    exact List.eq_nil_of_length_eq_zero (by omega)
  induction left generalizing i seen last with
  | zero =>
      rw [ended rfl]
      exact apart_of_length_le (Nat.zero_le limit)
  | succ left ih =>
      by_cases short : (matching wraps last).length ≤ limit
      · exact apart_of_length_le ((length_ages _).trans_le short)
      have long := Nat.lt_of_not_le short
      have more : matching wraps last ≠ [] := by
        intro none
        rw [none] at long
        exact absurd long (Nat.not_lt_zero _)
      have sent : last ≠ some 0 := by
        rintro rfl
        obtain none | first := first
        · nomatch none
        · exact more (ended (pages_stop distinct serves seenIn first))
      obtain ⟨oldest, at_⟩ := page_of_serves (i := i) distinct serves positive whole more
      rw [at_.step (congrArg _ (filter_sent sent))] at all
      obtain ⟨full, remains⟩ := length_of_left (i := i) distinct serves long
      obtain ⟨end_, rest⟩ := at_.ends positive full
      have page : ∀ w ∈ steady wraps limit 0 none, w ∈ seen ++ steady wraps limit i last := by
        intro w member
        obtain rfl | first := first
        · exact List.mem_append_right _ member
        · exact List.mem_append_left _ (first w member)
      have inside : ∀ w ∈ seen ++ steady wraps limit i last, w ∈ wraps := fun w before =>
        at_.perm.subset (List.mem_append_left _ before)
      have once := (List.nodup_append.mp (at_.perm.nodup_iff.mpr distinct.nodup_wraps)).2.2
      have strict : ∀ w ∈ (matching wraps last).filter (· ∉ steady wraps limit i last),
          w.createdAt ≠ oldest := by
        intro w left time
        have listed := all.symm.subset (at_.perm.subset (List.mem_append_right _ left))
        obtain before | older := steady_within distinct inside page listed
        · exact once w before w left rfl
        · omega
      have filled : steady wraps limit i last ≠ [] := by
        rintro empty
        rw [empty, List.length_nil] at full
        omega
      have early : ∀ w ∈ steady wraps limit i last, last.all (w.createdAt ≤ ·) = true := fun w member =>
        (List.mem_filter.mp ((serves i last).of_mem w member)).2
      have next := at_.rest early filled strict
      have perm := at_.perm
      rw [next] at perm
      have after : pages (steady wraps limit) left (i + 1) (seen ++ steady wraps limit i last)
          (some (oldest - 1)) = seen ++ steady wraps limit i last → matching wraps (some (oldest - 1)) = [] := by
        intro same
        rw [same] at all
        have lengths := all.length_eq.trans perm.length_eq.symm
        simp only [List.length_append] at lengths
        exact List.eq_nil_of_length_eq_zero (by omega)
      refine (apart_iff (by rw [length_ages]; exact long)).mpr ⟨⟨?_, ?_⟩, ?_⟩
      · rw [end_]
        intro tie
        obtain ⟨w, left, time⟩ := (at_.tie positive full).mp tie.symm
        exact strict w left time
      · rw [end_]
        intro one
        have zero : oldest - 1 = 0 := by
          rw [Option.some_inj] at one
          omega
        rw [zero] at after
        refine remains (next.trans ?_)
        rw [zero]
        exact after (pages_stop distinct serves inside page)
      · rw [rest, next]
        exact ih perm (.inr page) all inside after

/-! ### The inbox -/

/-- **Inbox pagination.** Every relay's wraps are examined, each once, and each wanted rumor of them returned,
exactly when no page ends within a second, nor at second 1 with more to come. -/
theorem inbox_whole (host : Host) (nip44Decrypt : String → String → Option String) (kinds : List Int)
    {cap : Nat} (some : 1 ≤ cap) (distinct : Distinct wraps)
    (few : wraps.length ≤ MAX_PAGES * min PAGE cap) :
    (∀ query, Serves wraps (min PAGE cap) query → (examined query).Perm wraps ∧
      (unwrapRumors host nip44Decrypt kinds query).wraps = wraps.length ∧
      (unwrapRumors host nip44Decrypt kinds query).rumors.Perm
        (wraps.filterMap (rumorOf host nip44Decrypt kinds))) ↔
      Apart (min PAGE cap) (ages Wrap.createdAt wraps) := by
  have positive : 0 < min PAGE cap := by
    unfold PAGE
    omega
  have everything : matching wraps none = wraps := List.filter_eq_self.mpr fun _ _ => rfl
  constructor
  · intro all
    have perm := (all _ (steady_serves wraps _)).1
    have whole : ([] ++ matching wraps none).Perm wraps := by
      rw [List.nil_append, everything]
    have apart := apart_of_pages distinct positive whole (.inl rfl) perm
    rwa [everything] at apart
  · intro apart query serves
    have perm : (examined query).Perm wraps :=
      pages_whole distinct serves positive (by rw [List.nil_append, everything])
        (by rw [everything]; exact apart) (by rw [everything]; exact few) (.inl nofun)
    exact ⟨perm, perm.length_eq, perm.filterMap _⟩

end Walk

section Samples

/-- Two wraps, a second apart. -/
def twoSeconds : List Wrap := [⟨"a", "", 10, ""⟩, ⟨"b", "", 9, ""⟩]

theorem inbox_whole_twoSeconds : (examined (steady twoSeconds 1)).Perm twoSeconds ∧
    (unwrapRumors .sample (fun _ _ => none) [24440] (steady twoSeconds 1)).wraps = 2 ∧
    (unwrapRumors .sample (fun _ _ => none) [24440] (steady twoSeconds 1)).rumors.Perm [] := by
  refine (inbox_whole .sample (fun _ _ => none) [24440] (le_refl 1) ⟨by decide, by decide⟩
    (by decide)).mpr ?_ _ (steady_serves twoSeconds 1)
  intro i positive inside
  have length : (ages Wrap.createdAt twoSeconds).length = 2 := by decide
  rw [length] at inside
  have one : i = 1 := by
    change i * 1 < 2 at inside
    omega
  subst one
  decide

/-- Two wraps of one second, where the first page of three ends. -/
def cutSecond : List Wrap := [⟨"a", "", 11, ""⟩, ⟨"b", "", 10, ""⟩, ⟨"c", "", 9, ""⟩, ⟨"d", "", 9, ""⟩]

/-- **A wrap is lost**, though no second holds as many wraps as a page. -/
theorem inbox_cut : (∀ w ∈ cutSecond, cutSecond.countP (·.createdAt = w.createdAt) < min PAGE 3) ∧
    cutSecond.length ≤ MAX_PAGES * min PAGE 3 ∧
    Serves cutSecond (min PAGE 3) (steady cutSecond 3) ∧ ¬ (examined (steady cutSecond 3)).Perm cutSecond := by
  refine ⟨by decide, by decide, steady_serves cutSecond 3, fun all => ?_⟩
  have distinct : Distinct cutSecond := ⟨by decide, by decide⟩
  have apart := apart_of_pages distinct (by decide : 0 < 3) (List.Perm.refl cutSecond : ([] ++ matching cutSecond none).Perm cutSecond)
    (.inl rfl) all
  have times : ages Wrap.createdAt (matching cutSecond none) = [11, 10, 9, 9] := by decide
  rw [times] at apart
  exact absurd (apart 1 Nat.one_pos (by decide)).1 (by decide)

end Samples

end Nvoy.Console
