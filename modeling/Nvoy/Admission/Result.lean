/-
What the grant fold returns, read off its slots.

* `liveAt_foldGrantsWith` — the grant a key holds for a cap: its own slot's, else its voice's when
  the grantor it speaks for holds that cap itself.
* `mem_mentions` — the mentions are the named slots.
* `ended_foldGrantsWith` — a key's ending, unless the key is live.
-/

import Nvoy.Admission.Slots
import Mathlib.Data.String.Basic

namespace Nvoy.Admission

open StableSort

/-- The grant of a key for a cap. -/
def liveAt (live : Live) (pk cap : String) : Option Grant := (live.get pk).bind (·.get cap)

theorem liveAt_set (live : Live) (pk other cap : String) (caps : JsMap String Grant) :
    liveAt (live.set pk caps) other cap =
      if other = pk then caps.get cap else liveAt live other cap := by
  rw [liveAt, JsMap.get_set]
  split_ifs
  · rfl
  · rfl

/-! ### Voices -/

section Voices

/-- What a voice holds for a cap, given what the grantors hold. -/
def inherited (own : Live) (cap : String) (s : Voice) : Option Grant :=
  if (liveAt own s.grantor cap).isSome then
    some { grantId := s.grantId, grantor := s.grantor, cap, shadow := true }
  else none

theorem mem_keys_liveAt {own : Live} {pk cap : String} :
    cap ∈ ((own.get pk).getD .empty).keys ↔ (liveAt own pk cap).isSome := by
  rw [JsMap.mem_keys, Option.isSome_iff_exists, liveAt]
  cases own.get pk <;> simp

theorem liveAt_inheritVoice (own live : Live) (voice : String) (s : Voice) (pk cap : String) :
    liveAt (inheritVoice own live voice s) pk cap =
      (liveAt live pk cap).or (if pk = voice then inherited own cap s else none) := by
  have run : ∀ (caps : List String) (live : Live),
      liveAt (caps.foldl (fun live cap =>
        let caps := (live.get voice).getD .empty
        if caps.has cap then live
        else live.set voice (caps.set cap
          { grantId := s.grantId, grantor := s.grantor, cap, shadow := true })) live) pk cap =
      (liveAt live pk cap).or (if pk = voice ∧ cap ∈ caps then
        some { grantId := s.grantId, grantor := s.grantor, cap, shadow := true } else none) := by
    intro caps
    induction caps with
    | nil => intro live; simp
    | cons first caps ih =>
        intro live
        rw [List.foldl_cons, ih]
        have here : ∀ c, liveAt live voice c = ((live.get voice).getD .empty).get c := by
          intro c
          rw [liveAt]
          cases live.get voice <;> rfl
        by_cases same : pk = voice
        · subst same
          simp only
          by_cases held : ((live.get pk).getD .empty).has first = true
          · rw [if_pos held]
            obtain ⟨g, found⟩ := JsMap.has_iff.mp held
            by_cases hit : cap = first
            · rw [hit, here, found]
              rfl
            · simp [hit]
          · rw [if_neg held, liveAt_set, if_pos rfl, JsMap.get_set]
            have free : ((live.get pk).getD .empty).get first = none := by
              refine Option.eq_none_iff_forall_ne_some.mpr fun g found => held ?_
              exact JsMap.has_iff.mpr ⟨g, found⟩
            by_cases hit : cap = first
            · rw [hit, if_pos rfl, here, free]
              simp
            · rw [if_neg hit, ← here]
              simp [hit]
        · simp only [same, false_and, if_false, Option.or_none]
          split_ifs
          · rfl
          · rw [liveAt_set, if_neg same]
  rw [inheritVoice, run]
  congr 1
  by_cases same : pk = voice
  · rw [if_pos same, inherited]
    simp only [same, true_and, mem_keys_liveAt]
  · simp [same]

theorem liveAt_finish (st : FoldState) (pk cap : String) :
    liveAt st.finish.live pk cap =
      (liveAt st.live pk cap).or ((st.voices.get pk).bind (inherited st.live cap)) := by
  have run : ∀ (entries : List (String × Voice)), (entries.map Prod.fst).Nodup → ∀ live : Live,
      liveAt (entries.foldl (fun live entry =>
        inheritVoice st.live live entry.1 entry.2) live) pk cap =
      (liveAt live pk cap).or
        (((entries.find? fun entry => entry.1 = pk).map Prod.snd).bind
          (inherited st.live cap)) := by
    intro entries
    induction entries with
    | nil => intro _ live; simp
    | cons entry entries ih =>
        intro nodup live
        rw [List.map_cons, List.nodup_cons] at nodup
        rw [List.foldl_cons, ih nodup.2, liveAt_inheritVoice, Option.or_assoc]
        congr 1
        by_cases same : entry.1 = pk
        · have absent : entries.find? (fun entry => entry.1 = pk) = none := by
            rw [List.find?_eq_none]
            intro other member
            rw [decide_eq_true_eq]
            intro hit
            exact nodup.1 (List.mem_map.mpr ⟨other, member, hit.trans same.symm⟩)
          rw [if_pos same.symm, absent]
          simp [same]
        · rw [if_neg (Ne.symm same)]
          simp [same]
  exact run st.voices.entries st.voices.nodup st.live

/-- No key of the live map is kept with no grant. -/
def Full (live : Live) : Prop := ∀ pk caps, live.get pk = some caps → caps.size ≠ 0

theorem Full.inheritVoice {own live : Live} (full : Full live) (voice : String) (s : Voice) :
    Full (inheritVoice own live voice s) := by
  rw [Admission.inheritVoice]
  generalize ((own.get s.grantor).getD .empty).keys = caps
  induction caps generalizing live with
  | nil => exact full
  | cons cap caps ih =>
      refine ih ?_
      simp only
      split_ifs
      · exact full
      · intro pk held found
        rw [JsMap.get_set] at found
        split_ifs at found
        · rw [← Option.some.inj found]
          exact JsMap.size_ne_zero.mpr ⟨cap, _, JsMap.get_set_self _ _ _⟩
        · exact full pk held found

theorem full_finish {st : FoldState} (full : Full st.live) : Full st.finish.live := by
  have run : ∀ (entries : List (String × Voice)) (live : Live), Full live →
      Full (entries.foldl (fun live entry =>
        Admission.inheritVoice st.live live entry.1 entry.2) live) := by
    intro entries
    induction entries with
    | nil => exact fun _ full => full
    | cons entry entries ih => exact fun live full => ih _ (full.inheritVoice entry.1 entry.2)
  exact run st.voices.entries st.live full

theorem Full.has_iff {live : Live} (full : Full live) {pk : String} :
    live.has pk = true ↔ ∃ cap g, liveAt live pk cap = some g := by
  rw [JsMap.has_iff]
  constructor
  · rintro ⟨caps, found⟩
    obtain ⟨cap, g, held⟩ := JsMap.size_ne_zero.mp (full pk caps found)
    exact ⟨cap, g, by rw [liveAt, found]; exact held⟩
  · rintro ⟨cap, g, held⟩
    obtain ⟨caps, found, -⟩ := Option.bind_eq_some_iff.mp held
    exact ⟨caps, found⟩

end Voices

/-! ### Endings and mentions -/

theorem ended_finish (st : FoldState) (pk : String) :
    st.finish.ended.get pk = if st.finish.live.has pk then none else st.ended.get pk := by
  have removed := JsMap.get_foldl_delete st.finish.live.keys st.ended pk
  rw [JsMap.has]
  simp only [decide_eq_true_eq]
  exact removed

theorem mem_mentions {st : FoldState} {held : Slot → Option Entry} (holds : Holds st held)
    {m : Mention} : m ∈ st.finish.mentions ↔ st.named.get m.grantId = some m := by
  rw [FoldState.finish]
  simp only
  rw [List.mem_insertionSort, JsMap.mem_values]
  constructor
  · rintro ⟨id, found⟩
    rwa [holds.namedId id m found]
  · exact fun found => ⟨_, found⟩

instance : Std.Total mentionBefore where
  total a b := by
    unfold mentionBefore
    rcases Int.lt_trichotomy a.createdAt b.createdAt with before | same | after
    · exact Or.inl (Or.inl before)
    · rcases le_total a.grantId b.grantId with le | le
      · exact Or.inl (Or.inr ⟨same, le⟩)
      · exact Or.inr (Or.inr ⟨same.symm, le⟩)
    · exact Or.inr (Or.inl after)

instance : IsTrans Mention mentionBefore where
  trans a b c := by
    rintro (ab | ⟨ab, le⟩) (bc | ⟨bc, le'⟩)
    · exact Or.inl (ab.trans bc)
    · exact Or.inl (bc ▸ ab)
    · exact Or.inl (ab ▸ bc)
    · exact Or.inr ⟨ab.trans bc, le.trans le'⟩

/-- The order of the mentions is fixed by the mentions. -/
theorem mentions_congr {st st' : FoldState} {held held' : Slot → Option Entry}
    (holds : Holds st held) (holds' : Holds st' held')
    (same : ∀ id, st.named.get id = st'.named.get id) :
    st.finish.mentions = st'.finish.mentions := by
  have perm : st.finish.mentions.Perm st'.finish.mentions :=
    (List.perm_insertionSort _ _).trans
      ((JsMap.Same.values same).trans (List.perm_insertionSort _ _).symm)
  refine List.Perm.eq_of_pairwise ?_ (List.pairwise_insertionSort mentionBefore _)
    (List.pairwise_insertionSort mentionBefore _) perm
  intro a b member member' ab ba
  have sameId : a.grantId = b.grantId := by
    rcases ab with ab | ⟨ab, le⟩
    · rcases ba with ba | ⟨ba, -⟩ <;> omega
    · rcases ba with ba | ⟨-, le'⟩
      · omega
      · exact le_antisymm le le'
  have found := (mem_mentions holds).mp member
  have found' := (mem_mentions holds').mp member'
  rw [← same, ← sameId, found] at found'
  exact Option.some.inj found'

/-! ### The whole fold -/

section Whole

variable {host : Host} {opts : FoldOptions} {nowSec : Int} (events : List Event)

/-- What a slot holds once every event is read. -/
def finalAt (host : Host) (opts : FoldOptions) (nowSec : Int) (events : List Event) (slot : Slot) :
    Option Entry :=
  (slots host opts nowSec).heldAt slot (sortBy Event.createdAt events)

theorem task_finalAt {pk cap : String} {g : Grant} :
    liveAt (foldState host opts nowSec events).live pk cap = some g ↔
      finalAt host opts nowSec events (.task pk cap) = some (.task g) := by
  rw [finalAt, (tracks_foldState host opts nowSec events).holds.live, ← liveAt, Option.map_eq_some_iff]
  simp

theorem voice_finalAt {pk : String} {s : Voice} :
    (foldState host opts nowSec events).voices.get pk = some s ↔
      finalAt host opts nowSec events (.voice pk) = some (.voice s) := by
  rw [finalAt, (tracks_foldState host opts nowSec events).holds.voices, Option.map_eq_some_iff]
  simp

theorem named_finalAt {id : String} {m : Mention} :
    (foldState host opts nowSec events).named.get id = some m ↔
      finalAt host opts nowSec events (.named id) = some (.mention m) := by
  rw [finalAt, (tracks_foldState host opts nowSec events).holds.named, Option.map_eq_some_iff]
  simp

theorem liveAt_foldGrantsWith (pk cap : String) :
    liveAt (foldGrantsWith host opts nowSec events).live pk cap =
      (liveAt (foldState host opts nowSec events).live pk cap).or
        (((foldState host opts nowSec events).voices.get pk).bind
          (inherited (foldState host opts nowSec events).live cap)) :=
  liveAt_finish _ pk cap

/-- **What a key holds for a cap**: its own grant, or what its grantor's shadow passes on. -/
theorem liveAt_eq_some {pk cap : String} {g : Grant} :
    liveAt (foldGrantsWith host opts nowSec events).live pk cap = some g ↔
      finalAt host opts nowSec events (.task pk cap) = some (.task g) ∨
        finalAt host opts nowSec events (.task pk cap) = none ∧
        ∃ s own, finalAt host opts nowSec events (.voice pk) = some (.voice s) ∧
          finalAt host opts nowSec events (.task s.grantor cap) = some (.task own) ∧
          g = { grantId := s.grantId, grantor := s.grantor, cap, shadow := true } := by
  have empty : liveAt (foldState host opts nowSec events).live pk cap = none ↔
      finalAt host opts nowSec events (.task pk cap) = none := by
    rw [finalAt, (tracks_foldState host opts nowSec events).holds.live, ← liveAt, Option.map_eq_none_iff]
  rw [liveAt_foldGrantsWith, Option.or_eq_some_iff, task_finalAt, empty, Option.bind_eq_some_iff]
  simp only [voice_finalAt, inherited, Option.ite_none_right_eq_some, Option.isSome_iff_exists,
    task_finalAt, Option.some.injEq]
  constructor
  · rintro (own | ⟨free, s, voiced, ⟨own, held⟩, rfl⟩)
    · exact Or.inl own
    · exact Or.inr ⟨free, s, own, voiced, held, rfl⟩
  · rintro (own | ⟨free, s, own, voiced, held, rfl⟩)
    · exact Or.inl own
    · exact Or.inr ⟨free, s, voiced, ⟨own, held⟩, rfl⟩

theorem mem_mentions_foldGrantsWith {m : Mention} :
    m ∈ (foldGrantsWith host opts nowSec events).mentions ↔
      finalAt host opts nowSec events (.named m.grantId) = some (.mention m) := by
  rw [← named_finalAt]
  exact mem_mentions (tracks_foldState host opts nowSec events).holds

theorem full_foldGrantsWith : Full (foldGrantsWith host opts nowSec events).live :=
  full_finish (tracks_foldState host opts nowSec events).holds.full

theorem ended_foldGrantsWith (pk : String) :
    (foldGrantsWith host opts nowSec events).ended.get pk =
      if (foldGrantsWith host opts nowSec events).live.has pk then none
      else (slots host opts nowSec).endedAt Slot.owner endReason pk
        (sortBy Event.createdAt events) := by
  rw [← (tracks_foldState host opts nowSec events).ended pk]
  exact ended_finish _ pk

end Whole

end Nvoy.Admission
