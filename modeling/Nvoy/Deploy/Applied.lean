/-
**A verdict is about a tick that saw the install**, in every run whose steps are clear.

* `Linked` — what holds of every install that is linked in: whatever names it with its digest stands
  for a tick that listed it after the link;
* `reports_saw` — so every report is about such a tick, and the two languages hash the estate alike;
* `reports_again` — a manifest that is put in a second time is reported deployed by the record of the
  first.
-/

import Nvoy.Deploy.Turn
import Nvoy.Lib.Runs

set_option linter.unusedSectionVars false

namespace Nvoy.Deploy

/-! ### What holds of an install -/

section Installs

variable {P C S : Type} [DecidableEq P] [DecidableEq C] [DecidableEq S] {site : Site Id C S}
  {name : C → String} {w w' : World P C S} {install : Install}

/-- Whatever names the install with its digest stands for a tick that listed it after the link. -/
structure Linked (site : Site Id C S) (w : World P C S) (install : Install) : Prop where
  past : install.link < w.moment
  record : ∀ recorded, w.runner.host.recorded = some recorded →
    recorded install.id = some (site.sha256 install.bytes) → w.Ends install .deployed
  awaits : ∀ tick, w.runner.tick = some tick → tick.awaits install.id = true → install.link < w.listed
  tick : ∀ tick, w.runner.tick = some tick → tick.digests install.id = some (site.sha256 install.bytes) →
    install.id ∈ tick.ids ∧ install.link < w.listed
  failure : ∀ f, w.failed = some f → (install.id.val, site.sha256 install.bytes) ∈ f.digests →
    install.installedAt ≤ f.time → w.Ends install .failed

/-- An estate that was hashed with this manifest in it. -/
def Estate (site : Site Id C S) (install : Install) (estate : String) : Prop :=
  ∃ items : List (String × String), estate = digestsHash site.sha256 items ∧
    (∀ item ∈ items, PlainText item.1 ∧ PlainText item.2) ∧
    (install.id.val, site.sha256 install.bytes) ∈ items

/-- What a failed attempt that was read says of the install. -/
def Blames (site : Site Id C S) (w : World P C S) (install : Install) (f : Failed C) : Prop :=
  (∀ item ∈ f.digests, PlainText item.1 ∧ PlainText item.2) ∧
    ((install.id.val, site.sha256 install.bytes) ∈ f.digests → install.installedAt ≤ f.time →
      w.Ends install .failed)

def PhaseOk (site : Site Id C S) (w : World P C S) : Phase C → Prop
  | .idle | .linking .. => True
  | .linked install => Linked site w install
  | .polling install estate => Linked site w install ∧ Estate site install estate
  | .sawRecord install estate deployed => Linked site w install ∧ Estate site install estate ∧
      (deployed = some (site.sha256 install.bytes) → w.Ends install .deployed)
  | .sawFailed install estate deployed failed => Linked site w install ∧ Estate site install estate ∧
      (deployed = some (site.sha256 install.bytes) → w.Ends install .deployed) ∧
      ∀ f, failed = some f → Blames site w install f
  | .failed install | .ours install => w.Ends install .failed

structure World.Sound (site : Site Id C S) (w : World P C S) : Prop where
  undigested : ∀ tick, w.runner.tick = some tick → tick.stage.undigested = true →
    ∀ i, tick.digests i = none
  listing : ∀ tick, w.runner.tick = some tick → tick.stage = .globbing →
    ∀ i ∈ w.runner.host.manifests.keys, i ∈ tick.ids
  reading : ∀ tick, w.runner.tick = some tick → ∀ rest, tick.stage = .reading rest →
    ∀ i ∈ rest, i ∈ tick.ids
  covered : ∀ tick, w.runner.tick = some tick → tick.Covered
  hex : ∀ tick, w.runner.tick = some tick → ∀ i digest, tick.digests i = some digest → PlainText digest
  failure : ∀ f, w.failed = some f → ∀ item ∈ f.digests, PlainText item.1 ∧ PlainText item.2
  phases : ∀ p, PhaseOk site w (w.applies p)
  saw : ∀ report ∈ w.reports, w.Saw report

/-! ### What stays -/

theorem World.Ends.grows {verdict : Verdict} (ends : w.Ends install verdict)
    (grows : ∀ e ∈ w.ended, e ∈ w'.ended) : w'.Ends install verdict := by
  obtain ⟨e, listed, parts⟩ := ends
  exact ⟨e, grows e listed, parts⟩

theorem Blames.grows {f : Failed C} (blames : Blames site w install f)
    (grows : ∀ e ∈ w.ended, e ∈ w'.ended) : Blames site w' install f :=
  ⟨blames.1, fun names since => (blames.2 names since).grows grows⟩

/-- The phase of an apply keeps what it knows where its install does. -/
theorem PhaseOk.keeps {phase : Phase C} (ok : PhaseOk site w phase)
    (grows : ∀ e ∈ w.ended, e ∈ w'.ended)
    (linked : ∀ install, Linked site w install → Linked site w' install) : PhaseOk site w' phase := by
  cases phase with
  | idle | linking => trivial
  | linked install => exact linked _ ok
  | polling install estate => exact ⟨linked _ ok.1, ok.2⟩
  | sawRecord install estate deployed =>
      exact ⟨linked _ ok.1, ok.2.1, fun same => (ok.2.2 same).grows grows⟩
  | sawFailed install estate deployed failed =>
      exact ⟨linked _ ok.1, ok.2.1, fun same => (ok.2.2.1 same).grows grows,
        fun f read => (ok.2.2.2 f read).grows grows⟩
  | failed install | ours install => exact World.Ends.grows ok grows

/-- Nothing that names an install is written. -/
theorem Linked.keeps (linked : Linked site w install) (moment : w.moment ≤ w'.moment)
    (grows : ∀ e ∈ w.ended, e ∈ w'.ended)
    (recorded : w'.runner.host.recorded = w.runner.host.recorded) (tick : w'.runner.tick = w.runner.tick)
    (listed : w'.listed = w.listed) (failed : w'.failed = w.failed ∨ w'.failed = none) :
    Linked site w' install where
  past := linked.past.trans_le moment
  record := by
    rw [recorded]
    exact fun r some same => (linked.record r some same).grows grows
  awaits := by
    rw [tick, listed]
    exact linked.awaits
  tick := by
    rw [tick, listed]
    exact linked.tick
  failure := by
    obtain same | none := failed
    · rw [same]
      exact fun f some names since => (linked.failure f some names since).grows grows
    · rw [none]
      exact fun f some => by cases some

/-! ### A step of the runner -/

section Run

variable {action : Action Id C S} {tick next : Tick Id C S}

theorem run_runner (site : Site Id C S) (w : World P C S) (action : Action Id C S) :
    (w.run site action).runner = Deploy.step site w.runner action := by
  unfold World.run
  dsimp only
  split <;> rfl

/-- A step of the runner leaves the applies, the reports and the failed attempt. -/
theorem run_frame (site : Site Id C S) (w : World P C S) (action : Action Id C S) :
    (w.run site action).failed = w.failed ∧ (w.run site action).moment = w.moment ∧
    (w.run site action).applies = w.applies ∧ (w.run site action).reports = w.reports := by
  unfold World.run
  dsimp only
  split <;> exact ⟨rfl, rfl, rfl, rfl⟩

theorem run_grows (site : Site Id C S) (w : World P C S) (action : Action Id C S) :
    ∀ e ∈ w.ended, e ∈ (w.run site action).ended := by
  intro e listed
  unfold World.run
  dsimp only
  split
  · exact List.mem_append_left _ listed
  · exact listed

theorem run_listed (held : w.runner.tick = some tick)
    (now : (Deploy.step site w.runner action).tick = some next) :
    (w.run site action).listed =
      if tick.stage = .listing ∧ next.stage = .globbing then w.moment else w.listed := by
  unfold World.run
  simp only [held, now]

theorem run_ended (held : w.runner.tick = some tick)
    (now : (Deploy.step site w.runner action).tick = some next) {e : Ended}
    (ends : endedBy tick next = some e) : { e with listed := w.listed } ∈ (w.run site action).ended := by
  unfold World.run
  simp only [held, now, ends]
  exact List.mem_append_right _ (List.mem_singleton.mpr rfl)

/-- The list that a turn keeps keeps its step. -/
theorem run_listed_of_turn (held : w.runner.tick = some tick)
    (now : (Deploy.step site w.runner action).tick = some next)
    (kept : next.stage = tick.stage ∨ next.stage ≠ .globbing) :
    (w.run site action).listed = w.listed := by
  rw [run_listed held now, if_neg]
  rintro ⟨here, there⟩
  obtain same | other := kept
  · rw [same, here] at there
    cases there
  · exact other there

theorem awaits_of_stage {i : Id} (same : next.stage = tick.stage) : next.awaits i = tick.awaits i := by
  unfold Tick.awaits
  rw [same]

theorem not_awaits_of_gathers {i : Id} (past : tick.stage.gathers = false) : tick.awaits i = false := by
  unfold Tick.awaits
  cases stage : tick.stage <;> simp_all [Stage.gathers]

/-- **A step of the runner keeps what holds of an install.** -/
theorem Linked.run (linked : Linked site w install) (sound : World.Sound site w) :
    Linked site (w.run site action) install := by
  have runner := run_runner site w action
  obtain ⟨failed, moment, -, -⟩ := run_frame site w action
  have grows := run_grows site w action
  refine ⟨by rw [moment]; exact linked.past, ?_, ?_, ?_, ?_⟩
  · -- the record is kept, or written from the digests of the tick that ends
    intro recorded some same
    rw [runner] at some
    obtain kept | ⟨tick, next, e, held, now, ends, written⟩ := step_recorded site w.runner action
    · rw [kept] at some
      exact (linked.record recorded some same).grows grows
    · rw [written] at some
      obtain rfl := Option.some.inj some
      obtain ⟨listed, before⟩ := linked.tick tick held same
      obtain ⟨good, ids⟩ := ids_of_endedBy (sound.covered tick held) ends
      exact ⟨_, run_ended held now ends, good, ids _ listed, before⟩
  · intro next now waits
    rw [runner] at now
    obtain none | fresh | ⟨tick, next', held, now', turn⟩ := step_turn site w.runner action
    · rw [none] at now
      cases now
    · obtain rfl := Option.some.inj (fresh.symm.trans now)
      cases waits
    · obtain rfl := Option.some.inj (now'.symm.trans now)
      cases turn with
      | lists here there =>
          rw [run_listed held now', if_pos ⟨here, there⟩]
          exact linked.past
      | globs here there =>
          rw [run_listed_of_turn held now' (.inr (by rw [there]; simp))]
          exact linked.awaits tick held (by unfold Tick.awaits; rw [here])
      | reads i rest manifest here there =>
          rw [run_listed_of_turn held now' (.inr (by rw [there]; simp))]
          refine linked.awaits tick held ?_
          unfold Tick.awaits at waits ⊢
          rw [there] at waits
          rw [here]
          exact decide_eq_true (List.mem_cons_of_mem _ (of_decide_eq_true waits))
      | goes ids digests stage =>
          obtain same | ⟨past, -⟩ := stage
          · rw [run_listed_of_turn held now' (.inl same)]
            exact linked.awaits tick held (by rw [← awaits_of_stage same]; exact waits)
          · rw [not_awaits_of_gathers past] at waits
            cases waits
  · intro next now named
    rw [runner] at now
    obtain none | fresh | ⟨tick, next', held, now', turn⟩ := step_turn site w.runner action
    · rw [none] at now
      cases now
    · obtain rfl := Option.some.inj (fresh.symm.trans now)
      cases named
    · obtain rfl := Option.some.inj (now'.symm.trans now)
      cases turn with
      | lists here there all digests =>
          rw [digests, sound.undigested tick held (by rw [here]; rfl)] at named
          cases named
      | globs here there all ids digests =>
          rw [digests, sound.undigested tick held (by rw [here]; rfl)] at named
          cases named
      | reads i rest manifest here there ids digests =>
          rw [run_listed_of_turn held now' (.inr (by rw [there]; simp)), ids]
          by_cases same : install.id = i
          · have first : install.id ∈ i :: rest := by rw [same]; exact List.mem_cons_self
            refine ⟨sound.reading tick held _ here _ first, linked.awaits tick held ?_⟩
            unfold Tick.awaits
            rw [here]
            exact decide_eq_true first
          · rw [digests, Function.update_of_ne same] at named
            exact linked.tick tick held named
      | goes ids digests stage =>
          rw [digests] at named
          rw [ids, run_listed_of_turn held now' (stage.imp_right fun past => ?_)]
          · exact linked.tick tick held named
          · intro here
            rw [here] at past
            cases past.1
  · rw [failed]
    exact fun f some names since => (linked.failure f some names since).grows grows

/-- What a step of the runner leaves in the manifests. -/
theorem keys_run (action : Action Id C S) {i : Id}
    (listed : i ∈ (Deploy.step site w.runner action).host.manifests.keys) :
    i ∈ w.runner.host.manifests.keys ∨ ∃ manifest, action = .edit i (some manifest) ∧
      w.runner.host.manifests.get i = none := by
  have edits : (∃ j manifest, action = .edit j manifest) ∨ ∀ j manifest, action ≠ .edit j manifest := by
    cases action with
    | edit j manifest => exact .inl ⟨j, manifest, rfl⟩
    | _ => exact .inr fun _ _ same => by cases same
  obtain ⟨j, manifest, rfl⟩ | noEdit := edits
  · obtain ⟨text, there⟩ := JsMap.mem_keys.mp listed
    by_cases same : i = j
    · subst same
      have now : (edited w.runner.host i manifest).manifests.get i = some text := there
      rw [get_edited_self] at now
      subst now
      cases was : w.runner.host.manifests.get i with
      | some text' => exact .inl (JsMap.mem_keys.mpr ⟨text', was⟩)
      | none => exact .inr ⟨text, rfl, rfl⟩
    · have now : (edited w.runner.host j manifest).manifests.get i = some text := there
      rw [get_edited_of_ne same] at now
      exact .inl (JsMap.mem_keys.mpr ⟨text, now⟩)
  · rw [step_manifests site w.runner noEdit] at listed
    exact .inl listed

theorem World.Sound.run (hex : ∀ text, ∀ c ∈ (site.sha256 text).toList, isLowerHex c = true)
    (sound : World.Sound site w) (clear : w.clear site (.runner action) = true) :
    World.Sound site (w.run site action) := by
  have runner := run_runner site w action
  obtain ⟨failed, moment, applies, reports⟩ := run_frame site w action
  have grows := run_grows site w action
  constructor
  case undigested =>
    intro next now fresh i
    rw [runner] at now
    obtain none | fresh' | ⟨tick, next', held, now', turn⟩ := step_turn site w.runner action
    · rw [none] at now
      cases now
    · obtain rfl := Option.some.inj (fresh'.symm.trans now)
      rfl
    · obtain rfl := Option.some.inj (now'.symm.trans now)
      cases turn with
      | lists here there all digests =>
          rw [digests]
          exact sound.undigested tick held (by rw [here]; rfl) i
      | globs here there | reads _ _ _ here there =>
          rw [there] at fresh
          cases fresh
      | goes ids digests stage =>
          rw [digests]
          obtain same | ⟨-, before⟩ := stage
          · exact sound.undigested tick held (by rw [← same]; exact fresh) i
          · exact sound.undigested tick held (before fresh) i
  case listing =>
    intro next now globbing i listed
    rw [runner] at now listed
    obtain none | fresh | ⟨tick, next', held, now', turn⟩ := step_turn site w.runner action
    · rw [none] at now
      cases now
    · obtain rfl := Option.some.inj (fresh.symm.trans now)
      cases globbing
    · obtain rfl := Option.some.inj (now'.symm.trans now)
      obtain before | ⟨manifest, rfl, absent⟩ := keys_run action listed
      · cases turn with
        | lists here there all => exact all.2 i before
        | globs here there | reads _ _ _ here there =>
            rw [there] at globbing
            cases globbing
        | goes ids digests stage =>
            obtain same | ⟨past, -⟩ := stage
            · rw [ids]
              exact sound.listing tick held (by rw [← same]; exact globbing) i before
            · rw [globbing] at past
              cases past
      · -- a manifest put in by hand, which is clear at no such stage
        obtain rfl : tick = next' := Option.some.inj (held.symm.trans now')
        simp only [World.clear, absent, held, globbing, Option.isSome_none, Option.all_some,
          Bool.false_or] at clear
        exact absurd clear (by simp)
  case reading =>
    intro next now rest reading i listed
    rw [runner] at now
    obtain none | fresh | ⟨tick, next', held, now', turn⟩ := step_turn site w.runner action
    · rw [none] at now
      cases now
    · obtain rfl := Option.some.inj (fresh.symm.trans now)
      cases reading
    · obtain rfl := Option.some.inj (now'.symm.trans now)
      cases turn with
      | lists here there =>
          rw [there] at reading
          cases reading
      | globs here there all ids =>
          rw [there] at reading
          obtain rfl := Stage.reading.inj reading
          rw [ids]
          exact sound.listing tick held here i (all.1 i listed)
      | reads j rest' manifest here there ids =>
          rw [there] at reading
          obtain rfl := Stage.reading.inj reading
          rw [ids]
          exact sound.reading tick held _ here i (List.mem_cons_of_mem _ listed)
      | goes ids digests stage =>
          obtain same | ⟨past, -⟩ := stage
          · rw [ids]
            exact sound.reading tick held rest (by rw [← same]; exact reading) i listed
          · rw [reading] at past
            cases past
  case covered =>
    intro next now
    rw [runner] at now
    exact covered_step sound.covered now
  case hex =>
    intro next now i digest named
    rw [runner] at now
    obtain none | fresh | ⟨tick, next', held, now', turn⟩ := step_turn site w.runner action
    · rw [none] at now
      cases now
    · obtain rfl := Option.some.inj (fresh.symm.trans now)
      cases named
    · obtain rfl := Option.some.inj (now'.symm.trans now)
      cases turn with
      | lists here there all digests | globs here there all ids digests | goes ids digests =>
          rw [digests] at named
          exact sound.hex tick held i digest named
      | reads j rest manifest here there ids digests =>
          rw [digests] at named
          by_cases same : i = j
          · subst same
            rw [Function.update_self] at named
            obtain rfl := Option.some.inj named
            exact fun c inside => plain_of_isLowerHex (hex manifest c inside)
          · rw [Function.update_of_ne same] at named
            exact sound.hex tick held i digest named
  case failure =>
    rw [failed]
    exact sound.failure
  case phases =>
    rw [applies]
    exact fun p => (sound.phases p).keeps grows fun install linked => linked.run sound
  case saw =>
    rw [reports]
    exact fun report listed => (sound.saw report listed).grows grows

end Run

/-! ### The other steps -/

section Others

/-- Steps that leave the tick and its digests, and write no name. -/
theorem World.Sound.keeps (sound : World.Sound site w) (moment : w.moment ≤ w'.moment)
    (grows : ∀ e ∈ w.ended, e ∈ w'.ended) (tick : w'.runner.tick = w.runner.tick)
    (recorded : w'.runner.host.recorded = w.runner.host.recorded)
    (keys : ∀ tick, w.runner.tick = some tick → tick.stage = .globbing →
      ∀ i ∈ w'.runner.host.manifests.keys, i ∈ w.runner.host.manifests.keys)
    (listed : w'.listed = w.listed) (failed : w'.failed = w.failed ∨ w'.failed = none)
    (applies : ∀ p, w'.applies p = w.applies p ∨ PhaseOk site w' (w'.applies p))
    (reports : ∀ report ∈ w'.reports, report ∈ w.reports ∨ w'.Saw report) : World.Sound site w' where
  undigested := by
    rw [tick]
    exact sound.undigested
  listing := by
    rw [tick]
    exact fun t held here i there => sound.listing t held here i (keys t held here i there)
  reading := by
    rw [tick]
    exact sound.reading
  covered := by
    rw [tick]
    exact sound.covered
  hex := by
    rw [tick]
    exact sound.hex
  failure := by
    obtain same | none := failed
    · rw [same]
      exact sound.failure
    · rw [none]
      exact fun f some => by cases some
  phases p := by
    obtain same | ok := applies p
    · rw [same]
      exact (sound.phases p).keeps grows fun install linked =>
        linked.keeps moment grows recorded tick listed failed
    · exact ok
  saw report there := by
    obtain old | saw := reports report there
    · exact (sound.saw report old).grows grows
    · exact saw

theorem plain_items {tick : Tick Id C S}
    (hex : ∀ i digest, tick.digests i = some digest → PlainText digest) :
    ∀ item ∈ tick.items, PlainText item.1 ∧ PlainText item.2 := by
  intro item there
  obtain ⟨i, -, named⟩ := List.mem_filterMap.mp there
  obtain ⟨digest, digested, rfl⟩ := Option.map_eq_some_iff.mp named
  exact ⟨plain_of_isId i.property, hex i digest digested⟩

theorem digest_of_items {tick : Tick Id C S} {i : Id} {digest : String}
    (there : (i.val, digest) ∈ tick.items) : tick.digests i = some digest := by
  obtain ⟨j, -, named⟩ := List.mem_filterMap.mp there
  obtain ⟨digest', digested, same⟩ := Option.map_eq_some_iff.mp named
  obtain ⟨ids, rfl⟩ := Prod.mk.inj same
  obtain rfl : j = i := Subtype.ext ids
  exact digested

/-- The attempt that is written down is the tick's own. -/
theorem World.Sound.fail (sound : World.Sound site w) : World.Sound site w.fail := by
  unfold World.fail
  split
  case h_1 => exact sound
  case h_2 tick held =>
    split
    case h_1 promoting sha stage _ =>
      split
      case isTrue =>
        have grows : ∀ e ∈ w.ended, e ∈ w.ended ++ [⟨.failed, tick.ids, w.listed⟩] :=
          fun e there => List.mem_append_left _ there
        refine ⟨sound.undigested, sound.listing, sound.reading, sound.covered, sound.hex, ?_, ?_, ?_⟩
        · intro f some
          obtain rfl := Option.some.inj some
          exact plain_items (sound.hex tick held)
        · refine fun p => (sound.phases p).keeps grows fun install linked => ?_
          refine ⟨linked.past, fun r some same => (linked.record r some same).grows grows, linked.awaits,
            linked.tick, fun f some names since => ?_⟩
          obtain rfl := Option.some.inj some
          obtain ⟨listed, before⟩ := linked.tick tick held (digest_of_items names)
          exact ⟨_, List.mem_append_right _ (List.mem_singleton.mpr rfl), List.mem_singleton.mpr rfl,
            listed, before⟩
        · exact fun report there => (sound.saw report there).grows grows
      case isFalse => exact sound
    case h_2 => exact sound

theorem World.Sound.forget (sound : World.Sound site w) : World.Sound site w.forget := by
  unfold World.forget
  split
  case isTrue =>
    exact sound.keeps le_rfl (fun e there => there) rfl rfl (fun _ _ _ i there => there) rfl (.inr rfl)
      (fun p => .inl rfl) fun report there => .inl there
  case isFalse => exact sound

/-- One apply goes on. -/
theorem World.Sound.setPhase (sound : World.Sound site w) {p : P} {phase : Phase C}
    (ok : PhaseOk site w phase) : World.Sound site (w.setPhase p phase) := by
  have same : ∀ {install : Install}, Linked site w install → Linked site (w.setPhase p phase) install :=
    fun linked => linked.keeps le_rfl (fun e there => there) rfl rfl rfl (.inl rfl)
  refine sound.keeps le_rfl (fun e there => there) rfl rfl (fun _ _ _ i there => there) rfl (.inl rfl)
    (fun q => ?_) fun report there => .inl there
  by_cases here : q = p
  · subst here
    refine .inr ?_
    show PhaseOk site _ (Function.update w.applies q phase q)
    rw [Function.update_self]
    exact ok.keeps (fun e there => there) fun install linked => same linked
  · exact .inl (Function.update_of_ne here _ _)

theorem World.Sound.stops (sound : World.Sound site w) (p : P) : World.Sound site (w.setPhase p .idle) :=
  sound.setPhase trivial

end Others

/-! ### The estate -/

section Estates

/-- Two attempts at estates of one hash name the same manifests. -/
theorem mem_of_digestsHash {items items' : List (String × String)}
    (injective : Function.Injective site.sha256)
    (plain : ∀ item ∈ items, PlainText item.1 ∧ PlainText item.2)
    (plain' : ∀ item ∈ items', PlainText item.1 ∧ PlainText item.2)
    (same : digestsHash site.sha256 items = digestsHash site.sha256 items') {item : String × String}
    (there : item ∈ items) : item ∈ items' := by
  have perm : ∀ items : List (String × String),
      (items.insertionSort fun a b => codePoints a.1 ≤ codePoints b.1).Perm items :=
    fun items => List.perm_insertionSort _ items
  have sorted : ∀ {items : List (String × String)},
      (∀ item ∈ items, PlainText item.1 ∧ PlainText item.2) →
      ∀ item ∈ items.insertionSort fun a b => codePoints a.1 ≤ codePoints b.1,
        PlainText item.1 ∧ PlainText item.2 :=
    fun plain item there => plain item ((perm _).mem_iff.mp there)
  have literals : ∀ {items : List (String × String)},
      (∀ item ∈ items, PlainText item.1 ∧ PlainText item.2) →
      jsonDumps items = objectText quoted (items.insertionSort fun a b => codePoints a.1 ≤ codePoints b.1) :=
    fun plain => objectText_plain fun item there =>
      ⟨pyString_plain (sorted plain item there).1, pyString_plain (sorted plain item there).2⟩
  have texts : jsonDumps items = jsonDumps items' := by
    have lists := congrArg String.toList (injective same)
    rwa [String.toList_ofList, String.toList_ofList] at lists
  rw [literals plain, literals plain'] at texts
  have lists := objectText_inj (sorted plain) (sorted plain') texts
  exact (perm items').mem_iff.mp (lists ▸ (perm items).mem_iff.mpr there)

/-- What an attempt ends with, where neither part holds a space. -/
theorem eq_of_suffix {front : List Char} {hash hash' : List Char} (clean : ' ' ∉ hash) (clean' : ' ' ∉ hash')
    (ends : ' ' :: hash' <:+ front ++ ' ' :: hash) : hash' = hash := by
  obtain ⟨front', same⟩ := ends
  rcases List.append_eq_append_iff.mp same with ⟨z, -, tail⟩ | ⟨z, -, tail⟩
  all_goals
    cases z with
    | nil => simp_all
    | cons c z =>
        have inside := congrArg (' ' ∈ ·) (List.cons.inj tail).2
        simp [clean, clean'] at inside

theorem named_directory (host : Host Id C S) : Named host.directory := by
  constructor
  · have nodup : (host.manifests.entries.map Prod.fst).Nodup := host.manifests.nodup
    unfold Host.directory
    rw [List.map_map]
    have names : (Prod.fst ∘ fun file : Id × String => (file.1.val ++ ".json", file.2)) =
        (fun i : Id => i.val ++ ".json") ∘ Prod.fst := rfl
    rw [names, ← List.map_map]
    refine nodup.map fun i j same => Subtype.ext ?_
    have texts := congrArg String.toList same
    rw [String.toList_append, String.toList_append] at texts
    exact String.toList_inj.mp (List.append_cancel_right texts)
  · intro file there json
    obtain ⟨entry, listed, rfl⟩ := List.mem_map.mp there
    exact ⟨entry.1.val, entry.1.property, rfl⟩

theorem items_directory {host : Host Id C S} {i : Id} {bytes : String}
    (there : host.manifests.get i = some bytes) :
    (i.val, site.sha256 bytes) ∈ manifestItems site.sha256 host.directory := by
  have listed : (i, bytes) ∈ host.manifests.entries := JsMap.mem_entries.mpr there
  refine List.mem_map.mpr ⟨(i.val ++ ".json", bytes), List.mem_filter.mpr ⟨?_, ?_⟩, ?_⟩
  · exact List.mem_map.mpr ⟨(i, bytes), listed, rfl⟩
  · unfold isJsonName
    rw [String.toList_append]
    exact List.isSuffixOf_iff_suffix.mpr (List.suffix_append _ _)
  · rw [sliceJson_append]

/-- The estate that is hashed right after the link holds the manifest. -/
theorem estate_hashed (hex : ∀ text, ∀ c ∈ (site.sha256 text).toList, isLowerHex c = true)
    {host : Host Id C S} (there : host.manifests.get install.id = some install.bytes) :
    Estate site install (estateHash site.sha256 host.directory) := by
  have named := named_directory host
  obtain ⟨-, perm⟩ := named.py_items site.sha256
  have perm' : (manifestDigests site.sha256 host.directory).Perm
      (manifestItems site.sha256 host.directory) := (List.perm_insertionSort _ _).symm.trans perm
  refine ⟨manifestDigests site.sha256 host.directory, estateHash_eq hex named (List.Perm.refl _),
    fun item listed => ?_, perm'.mem_iff.mpr (items_directory there)⟩
  have listed' := perm'.mem_iff.mp listed
  refine ⟨plain_of_isId (named.valid_items item listed'), fun c inside => ?_⟩
  obtain ⟨file, -, rfl⟩ := List.mem_map.mp listed'
  exact plain_of_isLowerHex (hex _ c inside)

/-- **A failed verdict** is about a failure that names the install. -/
theorem ends_of_failed (hex : ∀ text, ∀ c ∈ (site.sha256 text).toList, isLowerHex c = true)
    (injective : Function.Injective site.sha256) {estate : String} {deployed : Option String}
    {failed : Option (Failed C)} {compose : Bool} (hashed : Estate site install estate)
    (blames : ∀ f, failed = some f → Blames site w install f)
    (verdict : deployVerdict (site.sha256 install.bytes) deployed
      (failed.map fun f => (f.attempt site name, f.time)) compose install.installedAt estate = .failed) :
    w.Ends install .failed := by
  unfold deployVerdict at verdict
  split at verdict
  case isTrue => cases verdict
  case isFalse =>
    cases failed with
    | none => cases verdict
    | some f =>
        simp only [Option.map_some] at verdict
        split at verdict
        case isFalse => cases verdict
        case isTrue both =>
          obtain ⟨since, ends⟩ := both
          obtain ⟨items, rfl, plain, inside⟩ := hashed
          obtain ⟨plain', blamed⟩ := blames f rfl
          have clean : ∀ items : List (String × String), ' ' ∉ (digestsHash site.sha256 items).toList :=
            fun items listed => absurd (hex _ ' ' listed) (by decide)
          have ends' : ' ' :: (digestsHash site.sha256 items).toList <:+
              (name f.sha).toList ++ ' ' :: (digestsHash site.sha256 f.digests).toList := by
            unfold Failed.attempt at ends
            rw [String.toList_append, String.toList_append, String.toList_append, List.append_assoc] at ends
            exact ends
          have same := String.toList_inj.mp (eq_of_suffix (clean _) (clean _) ends')
          exact blamed (mem_of_digestsHash injective plain plain' same inside) since

theorem ends_of_deployed {estate : String} {deployed : Option String}
    {failed : Option (String × ℕ)} {compose : Bool} {verdict : Prop}
    (recorded : deployed = some (site.sha256 install.bytes) → verdict)
    (judged : deployVerdict (site.sha256 install.bytes) deployed failed compose install.installedAt estate =
      .deployed) : verdict := by
  unfold deployVerdict at judged
  split at judged
  case isTrue both => exact recorded both.1
  case isFalse =>
    split at judged
    · cases judged
    · split at judged <;> cases judged

end Estates

/-! ### Every step -/

section Steps

theorem World.Sound.moves (sound : World.Sound site w) {moment : ℕ} (later : w.moment ≤ moment) :
    World.Sound site { w with moment := moment } :=
  sound.keeps later (fun e there => there) rfl rfl (fun _ _ _ i there => there) rfl (.inl rfl)
    (fun p => .inl rfl) fun report there => .inl there

omit [DecidableEq P] [DecidableEq C] [DecidableEq S] in
theorem fail_moment : w.fail.moment = w.moment := by
  unfold World.fail
  split
  · rfl
  · split
    · split <;> rfl
    · rfl

omit [DecidableEq P] [DecidableEq C] [DecidableEq S] in
theorem forget_moment : w.forget.moment = w.moment := by
  unfold World.forget
  split <;> rfl

/-- A manifest that goes leaves none that was not there. -/
theorem keys_edited_none {host : Host Id C S} {i j : Id}
    (there : j ∈ (edited host i none).manifests.keys) : j ∈ host.manifests.keys := by
  obtain ⟨text, got⟩ := JsMap.mem_keys.mp there
  by_cases same : j = i
  · subst same
    rw [get_edited_self] at got
    cases got
  · rw [get_edited_of_ne same] at got
    exact JsMap.mem_keys.mpr ⟨text, got⟩

/-- **The link of a manifest**, where it is clear: nothing names it yet. -/
theorem World.Sound.link (sound : World.Sound site w) {p : P} {id : Id} {bytes : String} {installedAt : ℕ}
    (absent : w.runner.host.manifests.get id = none)
    (record : ∀ recorded, w.runner.host.recorded = some recorded → recorded id ≠ some (site.sha256 bytes))
    (tick : ∀ tick, w.runner.tick = some tick →
      tick.awaits id = false ∧ tick.digests id ≠ some (site.sha256 bytes))
    (failure : ∀ f, w.failed = some f → (id.val, site.sha256 bytes) ∈ f.digests → f.time < installedAt) :
    World.Sound site { w.setPhase p (.linked ⟨id, bytes, installedAt, w.moment⟩) with
      runner := { w.runner with host := edited w.runner.host id (some bytes) }
      moment := w.moment + 1 } := by
  refine sound.keeps (Nat.le_succ _) (fun e there => there) rfl rfl ?_ rfl (.inl rfl) ?_
    fun report there => .inl there
  · -- a tick between list and digests would await it
    intro t held here
    have waits := (tick t held).1
    unfold Tick.awaits at waits
    rw [here] at waits
    cases waits
  · intro q
    by_cases here : q = p
    · subst here
      refine .inr ?_
      show PhaseOk site _ (Function.update w.applies q _ q)
      rw [Function.update_self]
      refine ⟨Nat.lt_succ_self _, fun r some same => absurd same (record r some), fun t held waits => ?_,
        fun t held named => absurd named (tick t held).2, fun f some names since => ?_⟩
      · rw [(tick t held).1] at waits
        cases waits
      · exact absurd since (not_le.mpr (failure f some names))
    · exact .inl (Function.update_of_ne here _ _)

theorem World.Sound.apply (hex : ∀ text, ∀ c ∈ (site.sha256 text).toList, isLowerHex c = true)
    (injective : Function.Injective site.sha256) (sound : World.Sound site w) {p : P} {op : Op}
    (clear : w.clear site (.apply p op) = true) :
    World.Sound site { w.apply site name p op with moment := w.moment + 1 } := by
  have ok := sound.phases p
  have stays : World.Sound site { w with moment := w.moment + 1 } := sound.moves (Nat.le_succ _)
  have sets : ∀ phase : Phase C, PhaseOk site w phase →
      World.Sound site { w.setPhase p phase with moment := w.moment + 1 } :=
    fun phase ok => (sound.setPhase ok).moves (Nat.le_succ _)
  unfold World.apply
  dsimp only
  split
  case h_1 id bytes here => exact sets _ trivial
  case h_2 id bytes installedAt here =>
    -- the link, where no manifest of this id is there
    split
    case isTrue => exact sets _ trivial
    case isFalse absent =>
      have none : w.runner.host.manifests.get id = none := Option.not_isSome_iff_eq_none.mp absent
      simp only [World.clear, here, none, Option.isSome_none, Bool.false_or, Bool.and_eq_true,
        Option.all_eq_true, Bool.or_eq_true, Bool.not_eq_true', decide_eq_true_eq] at clear
      obtain ⟨⟨record, tick⟩, failure⟩ := clear
      exact sound.link none record tick fun f some names => (failure f some).resolve_left fun out => out names
  case h_3 install here =>
    rw [here] at ok
    have there : w.runner.host.manifests.get install.id = some install.bytes := by
      simpa only [World.clear, here, decide_eq_true_eq] using clear
    exact sets _ ⟨ok, estate_hashed hex there⟩
  case h_4 install estate here =>
    rw [here] at ok
    obtain ⟨linked, hashed⟩ := ok
    refine sets _ ⟨linked, hashed, fun same => ?_⟩
    obtain ⟨recorded, some, named⟩ := Option.bind_eq_some_iff.mp same
    exact linked.record recorded some named
  case h_5 install estate deployed here =>
    rw [here] at ok
    obtain ⟨linked, hashed, recorded⟩ := ok
    exact sets _ ⟨linked, hashed, recorded, fun f some => ⟨sound.failure f some, linked.failure f some⟩⟩
  case h_6 install estate deployed failed here =>
    rw [here] at ok
    obtain ⟨linked, hashed, recorded, blames⟩ := ok
    split
    case h_1 judged =>
      have ends : w.Ends install .deployed := ends_of_deployed recorded judged
      refine (sound.stops p).keeps (Nat.le_succ _) (fun e there => there)
        rfl rfl (fun _ _ _ i there => there) rfl (.inl rfl) (fun q => .inl rfl) fun report there => ?_
      rcases List.mem_append.mp there with old | new
      · exact .inl old
      · rw [List.mem_singleton.mp new]
        exact .inr ends
    case h_2 judged => exact sets _ (ends_of_failed hex injective hashed blames judged)
    case h_3 => exact sets _ ⟨linked, hashed⟩
  case h_7 install here =>
    rw [here] at ok
    split
    case isTrue => exact sets _ ok
    case isFalse => exact sets _ trivial
  case h_8 install here =>
    rw [here] at ok
    have ends : w.Ends install .failed := ok
    refine (sound.stops p).keeps (Nat.le_succ _) (fun e there => there)
      rfl rfl (fun _ _ _ i there => keys_edited_none there) rfl (.inl rfl) (fun q => .inl rfl)
      fun report there => ?_
    rcases List.mem_append.mp there with old | new
    · exact .inl old
    · rw [List.mem_singleton.mp new]
      exact .inr ends
  case h_9 => exact sets _ trivial
  case h_10 => exact stays

/-- **Every clear step keeps every install tied to the ticks that saw it.** -/
theorem World.Sound.step (hex : ∀ text, ∀ c ∈ (site.sha256 text).toList, isLowerHex c = true)
    (injective : Function.Injective site.sha256) (sound : World.Sound site w) (act : Act P C S)
    (clear : w.clear site act = true) : World.Sound site (w.step site name act) := by
  cases act with
  | runner action =>
      have same : (w.run site action).moment = w.moment := (run_frame site w action).2.1
      exact (sound.run hex clear).moves (same.le.trans (Nat.le_succ _))
  | fail => exact sound.fail.moves (fail_moment.le.trans (Nat.le_succ _))
  | forget => exact sound.forget.moves (forget_moment.le.trans (Nat.le_succ _))
  | wait microseconds =>
      exact sound.keeps (Nat.le_succ _) (fun e there => there) rfl rfl (fun _ _ _ i there => there) rfl
        (.inl rfl) (fun p => .inl rfl) fun report there => .inl there
  | dropCompose id =>
      exact sound.keeps (Nat.le_succ _) (fun e there => there) rfl rfl (fun _ _ _ i there => there) rfl
        (.inl rfl) (fun p => .inl rfl) fun report there => .inl there
  | apply p op => exact sound.apply hex injective clear

theorem sound_idle (host : Host Id C S) : World.Sound site (World.idle host : World P C S) where
  undigested tick held := by cases held
  listing tick held := by cases held
  reading tick held := by cases held
  covered tick held := by cases held
  hex tick held := by cases held
  failure f some := by cases some
  phases p := trivial
  saw report there := absurd there List.not_mem_nil

end Steps

end Installs

/-! ### Every report -/

/-- **Every report is about a tick that saw the install**, in every run whose steps are clear, and the
estate's hash is the second part of the attempt that the runner computes from the same files. -/
theorem reports_saw {P C S : Type} [DecidableEq P] [DecidableEq C] [DecidableEq S] (site : Site Id C S)
    (name : C → String) (hex : ∀ text, ∀ c ∈ (site.sha256 text).toList, isLowerHex c = true)
    (injective : Function.Injective site.sha256) :
    (∀ (host : Host Id C S) (acts : List (Act P C S)),
      Runs.Meets (World.step site name) (fun w act => w.clear site act = true) (World.idle host) acts →
      ∀ report ∈ (Runs.run (World.step site name) (World.idle host) acts).reports,
        (Runs.run (World.step site name) (World.idle host) acts).Saw report) ∧
    ∀ dir dir' : Directory, Named dir → dir.Perm dir' →
      estateHash site.sha256 dir = digestsHash site.sha256 (manifestDigests site.sha256 dir') := by
  constructor
  · intro host acts meets
    have keeps : ∀ (w : World P C S) act, World.Sound site w → w.clear site act = true →
        World.Sound site (w.step site name act) :=
      fun w act sound clear => sound.step hex injective act clear
    exact (meets.keeps keeps (sound_idle host)).saw
  · exact fun dir dir' named same => estateHash_eq hex named same

/-! ### An install, and the second life of it -/

/-- Six digits of a character's code. -/
def hexSix (c : Char) : List Char :=
  [c.toNat / 1048576 % 16, c.toNat / 65536 % 16, c.toNat / 4096 % 16, c.toNat / 256 % 16,
    c.toNat / 16 % 16, c.toNat % 16].map Json.hexDigit

/-- A digest that writes its text out. -/
def sampleDigest (text : String) : String := String.ofList (text.toList.flatMap hexSix)

theorem hexDigit_isLowerHex {n : ℕ} (small : n < 16) : isLowerHex (Json.hexDigit n) = true := by
  interval_cases n <;> decide

theorem hexDigit_inj {m n : ℕ} (small : m < 16) (small' : n < 16)
    (same : Json.hexDigit m = Json.hexDigit n) : m = n := by
  have values := congrArg Json.hexValue same
  rw [Json.hexValue_hexDigit small, Json.hexValue_hexDigit small'] at values
  exact Option.some.inj values

theorem toNat_small (c : Char) : c.toNat < 1114112 := by
  rcases c.valid with low | ⟨-, high⟩
  · exact lt_trans low (by decide)
  · exact high

theorem hexSix_inj {c d : Char} (same : hexSix c = hexSix d) : c = d := by
  have digit : ∀ k, k % 16 < 16 := fun k => Nat.mod_lt k (by decide)
  simp only [hexSix, List.map_cons, List.map_nil, List.cons.injEq, and_true] at same
  obtain ⟨first, second, third, fourth, fifth, sixth⟩ := same
  replace first := hexDigit_inj (digit _) (digit _) first
  replace second := hexDigit_inj (digit _) (digit _) second
  replace third := hexDigit_inj (digit _) (digit _) third
  replace fourth := hexDigit_inj (digit _) (digit _) fourth
  replace fifth := hexDigit_inj (digit _) (digit _) fifth
  replace sixth := hexDigit_inj (digit _) (digit _) sixth
  -- a code has no seventh digit
  have small := toNat_small c
  have small' := toNat_small d
  exact Char.toNat_inj.mp (by omega)

/-- Texts of the same digits are the same, six digits at a time. -/
theorem flatMap_hexSix_inj {text text' : List Char} (same : text.flatMap hexSix = text'.flatMap hexSix) :
    text = text' := by
  induction text generalizing text' with
  | nil =>
    cases text' with
    | nil => rfl
    | cons d rest' => cases same
  | cons c rest ih =>
    cases text' with
    | nil => cases same
    | cons d rest' =>
      simp only [List.flatMap_cons] at same
      obtain ⟨head, tail⟩ := List.append_inj same rfl
      rw [hexSix_inj head, ih tail]

theorem sampleDigest_injective : Function.Injective sampleDigest := by
  intro text text' same
  exact String.toList_inj.mp (flatMap_hexSix_inj (String.ofList_injective same))

theorem sampleDigest_hex (text : String) : ∀ c ∈ (sampleDigest text).toList, isLowerHex c = true := by
  intro c inside
  rw [sampleDigest, String.toList_ofList] at inside
  obtain ⟨d, -, inside⟩ := List.mem_flatMap.mp inside
  obtain ⟨n, listed, rfl⟩ := List.mem_map.mp inside
  refine hexDigit_isLowerHex ?_
  simp only [List.mem_cons, List.not_mem_nil, or_false] at listed
  rcases listed with rfl | rfl | rfl | rfl | rfl | rfl <;> exact Nat.mod_lt _ (by decide)

/-- One service for each identity. -/
def estateSite : Site Id ℕ Unit where
  older one other := decide (one ≤ other)
  sha256 := sampleDigest
  render refs _ _ := refs.1
  services _ := [()]

def oliver : Id := ⟨"oliver", by decide⟩

/-- A host without an identity. -/
def newHost : Host Id ℕ Unit where
  manifests := JsMap.empty
  edits _ := 0
  live _ := none
  running _ _ := none
  head := 0
  deployed := none
  runtimeImage := none
  workerImage := none
  recorded := none
  locked := false

/-- An apply links the manifest in and hashes the estate. -/
def installs : List (Act Unit ℕ Unit) :=
  [.apply () (.start oliver "m"), .apply () .link, .apply () .hash]

def polls : List (Act Unit ℕ Unit) := [.apply () .readRecord, .apply () .readFailed, .apply () .judge]

/-- A tick of release 7 that deploys. -/
def deploys : List (Act Unit ℕ Unit) :=
  [.start, .lookup 7, .list [oliver], .glob [oliver], .read, .read, .decide false, .check,
    .move true true, .pull "image" "worker", .stage, .stage, .up (fun _ => true) true,
    .up (fun _ => true) true, .promote, .promote, .write, .write, .write, .write].map Act.runner ++
    [.forget, .runner (.leave true)]

/-- The same manifest, deployed, taken out by hand and put in again; no tick runs in between. -/
def againActs : List (Act Unit ℕ Unit) :=
  installs ++ deploys ++ polls ++ [.runner (.edit oliver none)] ++ installs ++ polls

def estateRun (acts : List (Act Unit ℕ Unit)) : World Unit ℕ Unit :=
  Runs.run (World.step estateSite fun release => toString release) (World.idle newHost) acts

/-- The first install is reported, and by the tick that deployed it. -/
theorem reports_saw_first : (estateRun (installs ++ deploys ++ polls)).reports.length = 1 ∧
    ∀ report ∈ (estateRun (installs ++ deploys ++ polls)).reports,
      (estateRun (installs ++ deploys ++ polls)).Saw report :=
  ⟨by decide +kernel, (reports_saw estateSite (fun release => toString release) sampleDigest_hex
    sampleDigest_injective).1 newHost (installs ++ deploys ++ polls) (by decide +kernel)⟩

/-- **The second life of an install** is reported deployed, and no tick has seen it. -/
theorem reports_again : ∃ report ∈ (estateRun againActs).reports, report.verdict = .deployed ∧
    ¬ (estateRun againActs).Saw report := by
  decide +kernel

end Nvoy.Deploy
