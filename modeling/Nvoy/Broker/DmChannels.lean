/-
**Who may write by DM**: `dmChannels` of `buzz_native.mjs`, over any list of notices.

* `Newest` — what decides a channel: the notices of its greatest second;
* `mem_dmChannels` — the identity is in a channel where one of them adds it and none removes it;
* `dmChannels_decides` — so neither the order nor repetitions of the list count, and a removal never adds;
* `lateNotice_ignored` — a notice of a second that is no safe integer does not count.
-/

import Nvoy.Broker.BuzzNative

namespace Nvoy.Broker

open Memory (isUuid isSafeInteger)
open StableSort (sortBy)

section Membership

variable {host : Host} {me channel : String} {notices : List Event} {ev : Event}

/-- A usable notice about a DM channel of the identity. -/
structure Notice (host : Host) (me : String) (ev : Event) (channel : String) : Prop where
  kind : ev.kind = 44100 ∨ ev.kind = 44101
  createdAt : isSafeInteger ev.createdAt = true
  addressed : some me ∈ ev.tagValues "p"
  typed : (ev.tagValues "t").head? = some (some "dm")
  sole : ev.tagValues "h" = [some channel]
  uuid : isUuid channel = true
  signed : host.verifyEvent ev = true

theorem soleChannel_eq_some : soleChannel ev = some channel ↔ ev.tagValues "h" = [some channel] := by
  unfold soleChannel
  split
  · rename_i value single
    rw [single, List.singleton_inj]
  · rename_i other
    exact ⟨nofun, fun single => absurd single (other _)⟩

theorem dmNoticeOf_iff : dmNoticeOf host me ev = some channel ↔ Notice host me ev channel := by
  rw [dmNoticeOf_eq_some, soleChannel_eq_some]
  simp only [MEMBERSHIP_KINDS, List.mem_cons, List.not_mem_nil, or_false]
  constructor
  · rintro ⟨kind, createdAt, addressed, typed, sole, uuid, signed⟩
    exact ⟨kind, createdAt, addressed, typed, sole, uuid, signed⟩
  · rintro ⟨kind, createdAt, addressed, typed, sole, uuid, signed⟩
    exact ⟨kind, createdAt, addressed, typed, sole, uuid, signed⟩

/-- **What decides a channel**: a usable notice of the greatest second there is, and none of that second that
removes. -/
def Newest (host : Host) (me : String) (notices : List Event) (channel : String) : Prop :=
  ∃ newest ∈ notices, Notice host me newest channel ∧
    (∀ ev ∈ notices, Notice host me ev channel → ev.createdAt ≤ newest.createdAt) ∧
    ∀ ev ∈ notices, Notice host me ev channel → ev.createdAt = newest.createdAt → ev.kind ≠ 44101

/-- The notices that count, in the order they are taken. -/
def taken (host : Host) (me : String) (notices : List Event) : List Event :=
  sortBy (·.createdAt) (sortBy (·.kind) (notices.filter fun ev => (dmNoticeOf host me ev).isSome))

theorem mem_taken : ev ∈ taken host me notices ↔ ev ∈ notices ∧ (dmNoticeOf host me ev).isSome = true := by
  rw [taken, StableSort.mem_sortBy, StableSort.mem_sortBy, List.mem_filter]

/-- The notices are taken by their seconds, additions before removals. -/
theorem pairwise_taken : (taken host me notices).Pairwise fun a b =>
    a.createdAt < b.createdAt ∨ a.createdAt = b.createdAt ∧ a.kind ≤ b.kind :=
  StableSort.sortBy_lex (StableSort.sortBy_inOrder _ _)

/-- The map of the channels, after the last notice of each. -/
def latest (host : Host) (me : String) (notices : List Event) : JsMap String Bool :=
  (taken host me notices).foldl
    (fun latest ev => latest.set ((dmNoticeOf host me ev).getD "") (decide (ev.kind = 44100))) JsMap.empty

theorem dmChannels_eq : dmChannels host me notices =
    (((latest host me notices).entries.filter (·.2)).map (·.1)).insertionSort (· ≤ ·) := rfl

theorem mem_dmChannels_get : channel ∈ dmChannels host me notices ↔
    (latest host me notices).get channel = some true := by
  rw [dmChannels_eq, (List.perm_insertionSort _ _).mem_iff, List.mem_map, ← JsMap.mem_entries]
  constructor
  · rintro ⟨⟨key, value⟩, kept, rfl⟩
    obtain ⟨member, yes⟩ := List.mem_filter.mp kept
    obtain rfl : value = true := yes
    exact member
  · intro member
    exact ⟨(channel, true), List.mem_filter.mpr ⟨member, rfl⟩, rfl⟩

/-- The notices that name a channel, in the order they are taken. -/
def naming (host : Host) (me : String) (notices : List Event) (channel : String) : List Event :=
  (taken host me notices).filter fun ev => (dmNoticeOf host me ev).getD "" = channel

theorem mem_naming : ev ∈ naming host me notices channel ↔ ev ∈ notices ∧ Notice host me ev channel := by
  rw [naming, List.mem_filter, mem_taken, and_assoc, decide_eq_true_eq, ← dmNoticeOf_iff]
  refine and_congr_right fun _ => ?_
  constructor
  · rintro ⟨usable, same⟩
    obtain ⟨read, found⟩ := Option.isSome_iff_exists.mp usable
    rw [found, Option.getD_some] at same
    rw [found, same]
  · intro found
    rw [found]
    exact ⟨rfl, rfl⟩

theorem get_latest : (latest host me notices).get channel =
    (naming host me notices channel).getLast?.map fun ev => decide (ev.kind = 44100) := by
  rw [latest, JsMap.get_foldl_last, JsMap.get_empty, Option.or_none]
  rfl

/-- The last notice of a channel is of its greatest second, and a removal where that has one. -/
theorem last_naming {last : Event} (ends : (naming host me notices channel).getLast? = some last) :
    last ∈ naming host me notices channel ∧ ∀ ev ∈ naming host me notices channel,
      ev.createdAt < last.createdAt ∨ ev.createdAt = last.createdAt ∧ ev.kind ≤ last.kind := by
  obtain ⟨init, split⟩ := List.getLast?_eq_some_iff.mp ends
  have ordered : (naming host me notices channel).Pairwise fun a b =>
      a.createdAt < b.createdAt ∨ a.createdAt = b.createdAt ∧ a.kind ≤ b.kind :=
    pairwise_taken.sublist List.filter_sublist
  rw [split] at ordered ⊢
  refine ⟨List.mem_append_right _ (List.mem_singleton.mpr rfl), fun ev member => ?_⟩
  rcases List.mem_append.mp member with before | same
  · exact (List.pairwise_append.mp ordered).2.2 ev before last (List.mem_singleton.mpr rfl)
  · obtain rfl := List.mem_singleton.mp same
    exact .inr ⟨rfl, le_refl _⟩

/-- **Who is in a DM channel**: those whose newest notices add and do not remove them. -/
theorem mem_dmChannels : channel ∈ dmChannels host me notices ↔ Newest host me notices channel := by
  rw [mem_dmChannels_get, get_latest]
  cases ends : (naming host me notices channel).getLast? with
  | none =>
      rw [List.getLast?_eq_none_iff] at ends
      refine iff_of_false nofun ?_
      rintro ⟨newest, member, notice, -⟩
      have named := mem_naming.mpr ⟨member, notice⟩
      rw [ends] at named
      exact List.not_mem_nil named
  | some last =>
      obtain ⟨inside, greatest⟩ := last_naming ends
      obtain ⟨member, notice⟩ := mem_naming.mp inside
      rw [Option.map_some, Option.some_inj, decide_eq_true_eq]
      constructor
      · intro added
        refine ⟨last, member, notice, fun ev listed usable => ?_, fun ev listed usable same removes => ?_⟩
        · exact (greatest ev (mem_naming.mpr ⟨listed, usable⟩)).elim le_of_lt fun tie => tie.1.le
        · rcases greatest ev (mem_naming.mpr ⟨listed, usable⟩) with earlier | ⟨-, low⟩
          · omega
          · omega
      · rintro ⟨newest, listed, usable, most, keeps⟩
        have late := most last member notice
        have other := keeps last member notice
        rcases greatest newest (mem_naming.mpr ⟨listed, usable⟩) with earlier | ⟨same, -⟩
        · omega
        · exact notice.kind.resolve_right (other same.symm)

/-- The channels are in order, each once. -/
theorem sorted_dmChannels : (dmChannels host me notices).Pairwise (· < ·) := by
  rw [dmChannels_eq]
  refine @StableSort.pairwise_insertionSort_lt _ _ _ id _ ?_
  rw [List.map_id]
  exact (latest host me notices).nodup.sublist (List.filter_sublist.map Prod.fst)

theorem Newest.congr {notices' : List Event} (same : ∀ ev, ev ∈ notices' ↔ ev ∈ notices)
    (decided : Newest host me notices channel) : Newest host me notices' channel := by
  obtain ⟨newest, member, notice, most, keeps⟩ := decided
  exact ⟨newest, (same newest).mpr member, notice, fun ev listed => most ev ((same ev).mp listed),
    fun ev listed => keeps ev ((same ev).mp listed)⟩

/-- A removal more decides for no channel that was not decided for. -/
theorem Newest.of_removal {before after : List Event} (removes : ev.kind = 44101)
    (decided : Newest host me (before ++ ev :: after) channel) : Newest host me (before ++ after) channel := by
  obtain ⟨newest, member, notice, most, keeps⟩ := decided
  have more : ∀ other, other ∈ before ++ after → other ∈ before ++ ev :: after := by
    intro other inside
    rcases List.mem_append.mp inside with front | back
    · exact List.mem_append_left _ front
    · exact List.mem_append_right _ (List.mem_cons_of_mem _ back)
  refine ⟨newest, ?_, notice, fun other listed => most other (more other listed),
    fun other listed => keeps other (more other listed)⟩
  rcases List.mem_append.mp member with front | back
  · exact List.mem_append_left _ front
  · rcases List.mem_cons.mp back with rfl | back
    · exact absurd removes (keeps newest member notice rfl)
    · exact List.mem_append_right _ back

/-- **DM membership is decided by the newest notice**: the channels come in order; a channel is among them
exactly where its newest notices add and none of them removes; neither the order nor repetitions of the notices
count; and a removal more adds no channel. -/
theorem dmChannels_decides (host : Host) (me : String) (notices : List Event) :
    (dmChannels host me notices).Pairwise (· < ·) ∧
      (∀ channel, channel ∈ dmChannels host me notices ↔ Newest host me notices channel) ∧
      (∀ notices', (∀ ev, ev ∈ notices' ↔ ev ∈ notices) →
        dmChannels host me notices' = dmChannels host me notices) ∧
      ∀ before after ev, notices = before ++ after → ev.kind = 44101 →
        ∀ channel ∈ dmChannels host me (before ++ ev :: after), channel ∈ dmChannels host me notices := by
  refine ⟨sorted_dmChannels, fun channel => mem_dmChannels, fun notices' same => ?_, ?_⟩
  · have nodup : ∀ notices, (dmChannels host me notices).Nodup := fun notices =>
      sorted_dmChannels.imp fun less => ne_of_lt less
    refine StableSort.eq_of_perm sorted_dmChannels sorted_dmChannels
      (fun a _ b _ less more => absurd more (lt_asymm less)) ?_
    rw [List.perm_ext_iff_of_nodup (nodup notices') (nodup notices)]
    intro channel
    rw [mem_dmChannels, mem_dmChannels]
    exact ⟨Newest.congr fun ev => (same ev).symm, Newest.congr same⟩
  · rintro before after ev rfl removes channel member
    rw [mem_dmChannels] at member ⊢
    exact member.of_removal removes

end Membership

/-- A notice of the first second that is no safe integer, which names its reader and its channel. -/
def lateNotice : Event where
  id := String.ofList (List.replicate 64 'a')
  pubkey := String.ofList (List.replicate 64 'b')
  createdAt := 9007199254740992
  kind := 44100
  tags := [["h", "01234567-89ab-cdef-0123-456789abcdef"], ["t", "dm"], ["p", "c"]]
  content := ""
  sig := ""

/-- **A notice of a second that is no safe integer does not count**: it is signed, adds its reader to a channel
and is the only one, and the reader is in no channel. -/
theorem lateNotice_ignored : lateNotice.kind = 44100 ∧ some "c" ∈ lateNotice.tagValues "p" ∧
    (lateNotice.tagValues "t").head? = some (some "dm") ∧
    lateNotice.tagValues "h" = [some "01234567-89ab-cdef-0123-456789abcdef"] ∧
    isUuid "01234567-89ab-cdef-0123-456789abcdef" = true ∧ Host.sample.verifyEvent lateNotice = true ∧
    dmChannels Host.sample "c" [lateNotice] = [] := by
  refine ⟨rfl, by decide, by decide, by decide, by decide, ?_, ?_⟩
  · show isHex64 (String.ofList (List.replicate 64 'a')) = true
    decide
  · refine List.eq_nil_iff_forall_not_mem.mpr fun channel member => ?_
    obtain ⟨newest, listed, notice, -⟩ := mem_dmChannels.mp member
    obtain rfl := List.mem_singleton.mp listed
    exact absurd notice.createdAt (by decide)

end Nvoy.Broker
