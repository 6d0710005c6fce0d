/-
Compare-and-swap writes.

A submit names the event it replaces, and is accepted only if that is the current event of its key.

* `submit_swaps` — an accepted submit displaced exactly the event it named, and is newer than it;
* `Spent` — an event that was displaced or deleted is never current again (`spent_reaches`), so
  no second submit that names it is accepted (`accepted_once`);
* `submit_replays` — submitting a stored event again is answered as a replay and changes nothing.
-/

import Nvoy.Store.Serving

namespace Nvoy.Store

open Memory

/-! ### One accepted submit -/

section Accepting

variable {host : Host} {disk : Disk} {store : HiveMemoryStore} {req : SubmitRequest} {fault : Fault}
  {id : String} {status : Status}

/-- What an accepted submit did: the event it named was current, the new one replaces it. -/
structure Swapped (host : Host) (disk after : Disk) (req : SubmitRequest) (id : String)
    (status : Status) (db db' : Database) (v : Checked) : Prop where
  before : disk.database = some db
  after : after.database = some db'
  event : v.ev = req.event
  answered : id = req.event.id ∧ status = v.status
  /-- The event named was the current one, and none was named only if there was none. -/
  displaced : (db.events.current v.key).map Row.id = req.expectedPriorId
  newer : ∀ prior, db.events.current v.key = some prior → v.version.Newer prior.version
  demoted : ∀ prior, db.events.current v.key = some prior →
    { prior with isCurrent := false } ∈ db'.events.rows
  current : db'.events.current v.key = some (rowOf v true req.nowSec)

theorem publish_done {db' : Database} {after : After Published}
    (published : publish disk store db' fault = after) (done : after.answer = some .done) :
    after.disk.database = some db' := by
  unfold publish at published
  cases fault with
  | beforeCommit =>
      rw [← published] at done
      nomatch done
  | afterCommit =>
      rw [← published] at done
      nomatch done
  | inAppend written =>
      rw [← published] at done
      nomatch done
  | appendFails written =>
      rw [← published] at done
      nomatch done
  | none =>
      rw [← published]
      rfl

theorem Submitted.current_eq {db db' : Database} {v : Checked} {current : Option Row} {nowSec : Int}
    (submitted : Submitted db v current nowSec db') :
    db'.events.current v.key = some (rowOf v true nowSec) :=
  Events.current_eq_some.mpr ⟨submitted.mem_rows.mpr (Or.inr rfl), rfl, rfl⟩

theorem Submitted.demoted_mem {db db' : Database} {v : Checked} {prior : Row} {nowSec : Int}
    (submitted : Submitted db v (some prior) nowSec db') (stored : prior ∈ db.events.rows) :
    { prior with isCurrent := false } ∈ db'.events.rows :=
  submitted.mem_rows.mpr (Or.inl (Events.mem_demote.mpr (Or.inr ⟨prior, stored, rfl, rfl⟩)))

/-- **An accepted submit swaps.** It displaced exactly the event it named, and is newer than it. -/
theorem submit_swaps
    (accepted : (submit host disk store req fault).answer = some (.accepted id status false)) :
    ∃ db db' v, Swapped host disk (submit host disk store req fault).disk req id status db db' v := by
  unfold submit at accepted ⊢
  cases checks : submitChecks host disk store req with
  | error refusal =>
      rw [checks] at accepted
      nomatch accepted
  | ok admitted =>
      obtain ⟨config, passed⟩ := submitChecks_eq_ok.mp checks
      obtain ⟨db, writer, v⟩ := admitted
      have ends := @submitTx_ends db writer v req.expectedPriorId req.nowSec
      rw [checks] at accepted
      dsimp only at accepted ⊢
      generalize submitTx db writer v req.expectedPriorId req.nowSec = tx at accepted ends ⊢
      cases ends with
      | replay existing stored =>
          dsimp only at accepted
          unfold answerReplay at accepted
          split_ifs at accepted
          · split at accepted <;> nomatch accepted
          · nomatch accepted
          · nomatch accepted
      | refused refusal => nomatch accepted
      | failed => nomatch accepted
      | staged db' absent prior newer active underCap submitted =>
          dsimp only at accepted ⊢
          have event : v.ev = req.event := checkEvent_ev passed.checked
          obtain ⟨published, done, answered⟩ := Option.map_eq_some_iff.mp accepted
          cases published with
          | failed => nomatch answered
          | done =>
              obtain ⟨rfl, rfl⟩ : v.ev.id = id ∧ v.status = status := by
                simpa using answered
              refine ⟨db, db', v, passed.database, publish_done rfl done, event,
                ⟨congrArg Event.id event, rfl⟩, prior, ?_, ?_, submitted.current_eq⟩
              · intro old current
                rw [current] at newer
                exact newer
              · intro old current
                rw [current] at submitted
                exact submitted.demoted_mem (Events.current_eq_some.mp current).1

end Accepting

/-! ### An event that was displaced -/

section Spending

variable {host : Host} {config : Config} {requireMigratedIds : List String} {w : World}
  {db db' : Database} {hist hist' : List Line} {base : Nat} {id : String}

/-- The event was displaced, or it was deleted. -/
def Spent (id : String) (db : Database) (hist : List Line) : Prop :=
  id ∈ (foldLedger hist).purged.toFinset ∨ ∃ row ∈ db.events.rows, row.id = id ∧ row.isCurrent = false

theorem Spent.moves (spent : Spent id db hist) (moves : Moves host config db hist db' hist') :
    Spent id db' hist' := by
  rcases spent with purged | ⟨row, stored, rfl, displaced⟩
  · obtain ⟨more, rfl⟩ := moves.grows
    exact Or.inl (purged_mono purged)
  · cases moves with
    | stays => exact Or.inr ⟨row, stored, rfl, displaced⟩
    | submits passed fresh ends =>
        cases ends with
        | staged db' absent prior newer active underCap submitted =>
            refine Or.inr ⟨row, submitted.mem_rows.mpr (Or.inl ?_), rfl, displaced⟩
            cases current : db.events.current _ with
            | none => exact stored
            | some head =>
                refine Events.mem_demote.mpr (Or.inl ⟨stored, fun same => ?_⟩)
                obtain ⟨inside, isCurrent, -⟩ := Events.current_eq_some.mp current
                rw [Events.eq_of_id stored inside same, isCurrent] at displaced
                nomatch displaced
    | purges ids reason nowSec _ =>
        by_cases deleted : row.id ∈ ids
        · refine Or.inl ?_
          rw [foldLedger_snoc, foldStep_purged,
            if_pos (show (stagedLine db _ nowSec).record.op = .purge from rfl)]
          refine Finset.mem_union_right _ (List.mem_toFinset.mpr ?_)
          exact mem_sortIds.mpr deleted
        · exact Or.inr ⟨row, Events.mem_delete.mpr ⟨stored, deleted⟩, rfl, displaced⟩

theorem spent_reaches (spent : Spent id db hist)
    (reaches : Reaches host config (db, hist) (db', hist')) : Spent id db' hist' :=
  reaches.induct (fun _ _ _ _ spent moves => spent.moves moves) spent

/-- A spent event is the current one of no key. -/
theorem Spent.not_current (spent : Spent id db hist)
    (recorded : Recorded host config requireMigratedIds db hist base) {key : String × String} :
    (db.events.current key).map Row.id ≠ some id := by
  intro current
  obtain ⟨row, head, rfl⟩ := Option.map_eq_some_iff.mp current
  obtain ⟨stored, isCurrent, -⟩ := Events.current_eq_some.mp head
  rcases spent with purged | ⟨other, inside, same, displaced⟩
  · exact Finset.disjoint_left.mp recorded.unpurged (Events.mem_ids.mpr ⟨row, stored, rfl⟩) purged
  · rw [Events.eq_of_id inside stored same, isCurrent] at displaced
    nomatch displaced

variable (host)

/-- What the process answers to a submit. -/
def World.answers (w : World) (req : SubmitRequest) (fault : Fault) : Option SubmitAnswer :=
  w.process.bind fun store => (submit host w.disk store req fault).answer

variable {host}

theorem disk_step_submit {store : HiveMemoryStore} (served : w.process = some store)
    {req : SubmitRequest} {fault : Fault} :
    (step host config requireMigratedIds w (.submit req fault)).disk =
      (submit host w.disk store req fault).disk := by
  show (w.serve fun disk store => submit host disk store req fault).disk = _
  unfold World.serve
  rw [served]

/-- What an accepted submit named is spent after it. -/
theorem spent_of_accepted (alive : Alive host config requireMigratedIds w db hist base)
    {req : SubmitRequest} {fault : Fault} {id prior : String} {status : Status}
    (accepted : w.answers host req fault = some (.accepted id status false))
    (named : req.expectedPriorId = some prior) :
    ∃ db' hist' base', Alive host config requireMigratedIds
        (step host config requireMigratedIds w (.submit req fault)) db' hist' base' ∧
      Spent prior db' hist' := by
  obtain ⟨store, served, answer⟩ := Option.bind_eq_some_iff.mp accepted
  obtain ⟨db₁, db₂, v, swapped⟩ := submit_swaps answer
  obtain ⟨db', hist', base', later, -⟩ := alive_step alive (.submit req fault)
  refine ⟨db', hist', base', later, Or.inr ?_⟩
  have sameDb : db₂ = db' := by
    have after := later.onDisk.database
    rw [disk_step_submit served, swapped.after] at after
    exact Option.some.inj after
  subst sameDb
  obtain ⟨row, current, rfl⟩ := Option.map_eq_some_iff.mp (swapped.displaced.trans named)
  exact ⟨_, swapped.demoted row current, rfl, rfl⟩

/-- A submit that names a spent event is not accepted. -/
theorem refused_of_spent (alive : Alive host config requireMigratedIds w db hist base)
    (spent : Spent id db hist) {req : SubmitRequest} {fault : Fault} {other : String}
    {status : Status} (named : req.expectedPriorId = some id) :
    w.answers host req fault ≠ some (.accepted other status false) := by
  intro accepted
  obtain ⟨store, served, answer⟩ := Option.bind_eq_some_iff.mp accepted
  obtain ⟨db₁, db₂, v, swapped⟩ := submit_swaps answer
  obtain rfl : db₁ = db := Option.some.inj (swapped.before.symm.trans alive.onDisk.database)
  exact spent.not_current alive.onDisk.recorded (swapped.displaced.trans named)

end Spending

/-! ### A stored event again -/

section Replaying

variable {host : Host} {config : Config} {requireMigratedIds : List String} {w : World}
  {db db' : Database} {hist hist' : List Line} {base : Nat}

/-- A writer with that key, or the migration, may write what the claim says. -/
def MayWrite (config : Config) (v : Checked) : Prop :=
  ∃ parsed writer, parseFactKey v.d = some parsed ∧
    writeRefusal config writer v.pubkey parsed = none ∧
    ∀ w, writer = some w → w ∈ config.writers.values ∧ w.pubkey = v.pubkey

/-- What was checked of a row when it was stored. A row of the cutover, which the first line of the
history names, was not judged by the write policy. -/
structure Judged (host : Host) (config : Config) (hist : List Line) (row : Row) : Prop where
  passes : ∃ v, checkEvent host row.raw config = .ok v ∧ MayWrite config v ∧
    ((∃ topic, memoryWritePolicy v.toValid = .ok topic) ∨
      ∃ first, hist.head? = some first ∧ row.id ∈ first.record.ids)

theorem Judged.mono {row row' : Row} (judged : Judged host config hist row) (same : row'.raw = row.raw)
    (sameId : row'.id = row.id) (grows : hist <+: hist') : Judged host config hist' row' := by
  obtain ⟨v, checked, may, policy⟩ := judged.passes
  refine ⟨v, same ▸ checked, may, policy.imp_right ?_⟩
  intro ⟨first, head, named⟩
  obtain ⟨more, rfl⟩ := grows
  refine ⟨first, ?_, sameId ▸ named⟩
  rw [List.head?_append, head]
  rfl

theorem Passed.mayWrite {disk : Disk} {store : HiveMemoryStore} {req : SubmitRequest}
    {admitted : Admitted} (passed : Passed host disk store req config admitted) :
    MayWrite config admitted.v ∧ admitted.v.pubkey = admitted.writer.pubkey := by
  obtain ⟨parsed, key, allowed⟩ := passed.authorized
  obtain ⟨-, -, reads⟩ := checkEvent_eq_ok passed.checked
  have pubkey : admitted.v.pubkey = admitted.writer.pubkey := by
    rw [reads.pubkey, passed.pubkey, lowerAscii_of_isHex64 admitted.writer.isHex64_pubkey]
  refine ⟨⟨parsed, some admitted.writer, ?_, pubkey ▸ allowed, ?_⟩, pubkey⟩
  · rw [reads.key, Option.bind_some] at key
    exact key
  · intro w same
    obtain rfl := Option.some.inj same
    exact ⟨JsMap.mem_values.mpr ⟨_, passed.writer⟩, pubkey.symm⟩

/-- Every stored row was judged when it was stored. -/
theorem judged_of_past (past : Past host config db hist) :
    ∀ row ∈ db.events.rows, Judged host config hist row := by
  refine past.induct (motive := fun db hist => ∀ row ∈ db.events.rows, Judged host config hist row)
    ?_ ?_
  · intro db hist begins
    cases begins with
    | @genesis storeId events nowSec created entered made =>
        intro row member
        obtain ⟨-, -, -, -, rows⟩ := genesisDatabase_rows made
        change row ∈ created.events.rows at member
        rw [rows] at member
        obtain ⟨v, inside, rfl⟩ := List.mem_map.mp member
        obtain ⟨⟨event, checked⟩, allowed⟩ := entered v inside
        obtain ⟨parsed, key, -⟩ := (checkEvent_eq_ok checked).2.2.parsed
        refine ⟨v, ?_, ⟨parsed, none, key, allowed parsed key, nofun⟩, Or.inr ⟨_, rfl, ?_⟩⟩
        · show checkEvent host v.ev config = .ok v
          rw [checkEvent_ev checked]
          exact checked
        · cases events with
          | none => exact absurd inside List.not_mem_nil
          | some list => exact mem_sortIds.mpr (List.mem_map_of_mem inside)
  · intro db hist db' hist' judged moves row member
    cases moves with
    | stays => exact judged row member
    | submits passed fresh ends =>
        cases ends with
        | staged db' absent prior newer active underCap submitted =>
            rcases submitted.mem_rows.mp member with old | rfl
            · obtain ⟨kept, inside, same⟩ := exists_of_mem_demoted old
              refine (judged kept inside).mono ?_ ?_ (List.prefix_append _ _)
              · rcases same with rfl | rfl <;> rfl
              · rcases same with rfl | rfl <;> rfl
            · refine ⟨_, ?_, passed.mayWrite.1, Or.inl passed.policy⟩
              show checkEvent host (Checked.ev _) config = _
              rw [checkEvent_ev passed.checked]
              exact passed.checked
    | purges ids reason nowSec _ =>
        exact (judged row (Events.mem_delete.mp member).1).mono rfl rfl (List.prefix_append _ _)

theorem writeRefusal_some {writer : Writer} {pubkey : String} {parsed : FactKey}
    (allowed : writeRefusal config none pubkey parsed = none) :
    writeRefusal config (some writer) pubkey parsed = none := by
  unfold writeRefusal at allowed ⊢
  split_ifs at allowed ⊢ with canon listed ops
  · rfl
  · rfl
  · cases roomId : parsed.roomId with
    | some id =>
        rw [roomId] at allowed
        exact allowed
    | none =>
        cases pubkey : parsed.pubkey with
        | some key => simp [roomId, pubkey] at allowed
        | none => simp [roomId, pubkey] at allowed

/-- Two writers with one key are one. -/
theorem Config.writer_eq {a b : Writer} (memberA : a ∈ config.writers.values)
    (memberB : b ∈ config.writers.values) (same : a.pubkey = b.pubkey) : a = b :=
  List.inj_on_of_nodup_map config.writers_distinct memberA memberB same

/-- The check of an event does not read its signature, apart from verifying it. -/
theorem validateMemoryEvent_sig (event : Event) (sig : String) :
    validateMemoryEvent host config.memoryGlobalChannelId ALLOWED_KINDS false { event with sig } =
      validateMemoryEvent host config.memoryGlobalChannelId ALLOWED_KINDS false event := rfl

theorem checkEvent_sig {event : Event} {sig : String} {v v' : Checked}
    (checked : checkEvent host event config = .ok v)
    (checked' : checkEvent host { event with sig } config = .ok v') :
    v'.toValid = v.toValid ∧ v'.ev.id = v.ev.id := by
  unfold checkEvent at checked checked'
  simp only [bind_eq_ok, ensure_eq_ok, exists_const] at checked checked'
  obtain ⟨-, -, valid, validated, same⟩ := checked
  obtain ⟨-, -, valid', validated', same'⟩ := checked'
  obtain rfl := Except.ok.inj same
  obtain rfl := Except.ok.inj same'
  rw [validateMemoryEvent_sig, validated] at validated'
  exact ⟨(Except.ok.inj validated').symm, rfl⟩

/-- **A stored event again.** Submitted by its writer to a ready store with open fences, it is
answered as a replay, and nothing changes. An event of the cutover must pass the write policy. -/
theorem submit_replays (alive : Alive host config requireMigratedIds w db hist base)
    {store : HiveMemoryStore} (served : w.process = some store) (ready : store.state = .ready)
    {row : Row} (stored : row ∈ db.events.rows) {req : SubmitRequest} {sig : String}
    (again : req.event = { row.raw with sig })
    (valid : req.event = row.raw ∨ ∃ v, checkEvent host req.event config = .ok v)
    {writer : Writer} (bound : config.writers.get req.writer = some writer)
    (own : row.raw.pubkey = writer.pubkey)
    (backed : purgeBackupIncomplete db.lastPurgeSeq w.disk.receipt = none)
    (fresh : backupFence config db w.disk.receipt req.nowSec = none)
    (prior : req.expectedPriorId.all isHex64 = true)
    (policy : ∀ first, hist.head? = some first → row.id ∈ first.record.ids →
      ∃ v topic, checkEvent host row.raw config = .ok v ∧ memoryWritePolicy v.toValid = .ok topic)
    (fault : Fault) :
    submit host w.disk store req fault =
      ⟨w.disk, some store, some (.accepted row.id row.status true)⟩ := by
  have recorded := alive.onDisk.recorded
  obtain ⟨whole, maxSeq, purged⟩ := alive.ready served ready
  obtain ⟨v, checked, ⟨parsed, granted, key, allowed, known⟩, judged⟩ :=
    (judged_of_past alive.past row stored).passes
  obtain ⟨-, -, reads⟩ := checkEvent_eq_ok checked
  have rowId : row.raw.id = row.id := (recorded.valid row stored).1
  -- the event passes its check, and says what the stored one says
  obtain ⟨v', checked', sameValid, sameId⟩ : ∃ v', checkEvent host req.event config = .ok v' ∧
      v'.toValid = v.toValid ∧ v'.ev.id = row.id := by
    rcases valid with same | ⟨v', checked'⟩
    · exact ⟨v, same ▸ checked, rfl, by rw [checkEvent_ev checked, rowId]⟩
    · rw [again] at checked'
      obtain ⟨sameValid, sameId⟩ := checkEvent_sig checked checked'
      exact ⟨v', again ▸ checked', sameValid, by rw [sameId, checkEvent_ev checked, rowId]⟩
  have pubkey : v.pubkey = writer.pubkey := by
    rw [reads.pubkey, own, lowerAscii_of_isHex64 writer.isHex64_pubkey]
  have permitted : writeRefusal config (some writer) writer.pubkey parsed = none := by
    rw [← pubkey]
    cases granted with
    | none => exact writeRefusal_some allowed
    | some other =>
        obtain ⟨listed, same⟩ := known other rfl
        have one : other = writer := config.writer_eq listed (JsMap.mem_values.mpr ⟨_, bound⟩)
          (same.trans pubkey)
        exact one ▸ allowed
  obtain ⟨topic, policed⟩ : ∃ topic, memoryWritePolicy v.toValid = .ok topic := by
    rcases judged with passed | ⟨first, head, named⟩
    · exact passed
    · obtain ⟨v'', topic, checked'', policed⟩ := policy first head named
      obtain rfl := Except.ok.inj (checked.symm.trans checked'')
      exact ⟨topic, policed⟩
  have notPurged : row.id ∉ store.purgedIds.toFinset := by
    rw [purged]
    exact Finset.disjoint_left.mp recorded.unpurged (Events.mem_ids.mpr ⟨row, stored, rfl⟩)
  have passes : submitChecks host w.disk store req = .ok ⟨db, writer, v'⟩ := by
    refine submitChecks_eq_ok.mpr ⟨config, ready, (alive.serves store served).config,
      alive.onDisk.database, backed, fresh, bound, ?_, ⟨parsed, ?_, permitted⟩, checked',
      ⟨topic, by rw [sameValid]; exact policed⟩, prior, by rw [sameId]; exact notPurged⟩
    · rw [again]
      exact own
    · rw [again]
      show (row.raw.tagValue "d").bind parseFactKey = _
      rw [reads.key]
      exact key
  have replayed : submitTx db writer v' req.expectedPriorId req.nowSec =
      .replay row.id row.status := by
    unfold submitTx
    rw [Events.find_eq_some.mpr ⟨stored, sameId.symm⟩]
  have level : db.writeSeq = store.ledgerMaxSeq := by
    rw [recorded.writeSeq, maxSeq]
  unfold submit
  rw [passes]
  dsimp only
  rw [replayed]
  dsimp only
  unfold answerReplay
  rw [if_neg (by omega), if_pos level]

end Replaying

/-! ### Over a run -/

section Runs

variable (host : Host) (config : Config) (requireMigratedIds : List String)

/-- **No lost update.** In every run: an accepted submit displaced exactly the event it named and is
newer than it; no event is named by two accepted submits; and a stored event submitted again by its
writer, with open fences, is a replay that changes nothing, unless it came with the cutover and
does not pass the write policy or the prior it names is no event id. -/
theorem compare_and_swap (actions : List Action) :
    (∀ req fault id status,
      (run host config requireMigratedIds World.empty actions).answers host req fault =
        some (.accepted id status false) →
      ∃ db db' v, Swapped host (run host config requireMigratedIds World.empty actions).disk
        (run host config requireMigratedIds World.empty (actions ++ [.submit req fault])).disk
        req id status db db' v) ∧
    (∀ later first firstFault firstId firstStatus second secondFault secondId secondStatus prior,
      (run host config requireMigratedIds World.empty actions).answers host first firstFault =
        some (.accepted firstId firstStatus false) →
      first.expectedPriorId = some prior →
      (run host config requireMigratedIds World.empty
          (actions ++ .submit first firstFault :: later)).answers host second secondFault =
        some (.accepted secondId secondStatus false) →
      second.expectedPriorId ≠ some prior) ∧
    (∀ store db row req fault sig writer,
      (run host config requireMigratedIds World.empty actions).process = some store →
      store.state = .ready →
      (run host config requireMigratedIds World.empty actions).disk.database = some db →
      row ∈ db.events.rows →
      req.event = { row.raw with sig } →
      (req.event = row.raw ∨ ∃ v, checkEvent host req.event config = .ok v) →
      config.writers.get req.writer = some writer →
      row.raw.pubkey = writer.pubkey →
      purgeBackupIncomplete db.lastPurgeSeq
        (run host config requireMigratedIds World.empty actions).disk.receipt = none →
      backupFence config db (run host config requireMigratedIds World.empty actions).disk.receipt
        req.nowSec = none →
      req.expectedPriorId.all isHex64 = true →
      (∀ read first,
        readLedger (run host config requireMigratedIds World.empty actions).disk.ledger = .ok read →
        read.lines.head? = some first → row.id ∈ first.record.ids →
        ∃ v topic, checkEvent host row.raw config = .ok v ∧
          memoryWritePolicy v.toValid = .ok topic) →
      submit host (run host config requireMigratedIds World.empty actions).disk store req fault =
        ⟨(run host config requireMigratedIds World.empty actions).disk, some store,
          some (.accepted row.id row.status true)⟩) := by
  have split : ∀ more, run host config requireMigratedIds World.empty (actions ++ more) =
      run host config requireMigratedIds
        (run host config requireMigratedIds World.empty actions) more := by
    intro more
    exact List.foldl_append
  have sound : Sound host config requireMigratedIds
      (run host config requireMigratedIds World.empty actions) := sound_run sound_empty actions
  simp only [split]
  generalize run host config requireMigratedIds World.empty actions = w at sound
  refine ⟨?_, ?_, ?_⟩
  · intro req fault id status accepted
    obtain ⟨store, served, answer⟩ := Option.bind_eq_some_iff.mp accepted
    show ∃ db db' v, Swapped host w.disk
      (step host config requireMigratedIds w (.submit req fault)).disk req id status db db' v
    rw [disk_step_submit served]
    exact submit_swaps answer
  · intro later first firstFault firstId firstStatus second secondFault secondId secondStatus prior
      accepted named again
    obtain ⟨store, served, answer⟩ := Option.bind_eq_some_iff.mp accepted
    have committed : w.disk.database ≠ none := by
      obtain ⟨db, db', v, swapped⟩ := submit_swaps answer
      rw [swapped.before]
      exact Option.some_ne_none db
    obtain ⟨db, hist, base, alive⟩ := alive_of_committed sound committed
    obtain ⟨db', hist', base', after, spent⟩ := spent_of_accepted alive accepted named
    obtain ⟨db'', hist'', base'', last, reaches⟩ := alive_run after later
    intro same
    exact refused_of_spent last (spent_reaches spent reaches) same again
  · intro store db row req fault sig writer served ready database stored resubmitted valid bound own
      backed fresh prior policy
    obtain ⟨db', hist, base, alive⟩ := alive_of_committed sound (by rw [database]; exact Option.some_ne_none db)
    obtain rfl : db' = db := Option.some.inj (alive.onDisk.database.symm.trans database)
    obtain ⟨whole, -, -⟩ := alive.ready served ready
    refine submit_replays alive served ready stored resubmitted valid bound own backed fresh prior
      ?_ fault
    intro line head named
    refine policy ⟨false, hist, fileBytes hist, false⟩ line ?_ head named
    rw [whole]
    exact readLedger_fileBytes alive.onDisk.recorded.chain

end Runs

/-- An event of before the topic rule, which a cutover brings in. -/
def legacyEvent : Event := sampleEvent (sampleKey 'b') "Deploy Notes" 1000

theorem checkEvent_legacyEvent : checkEvent Host.sample legacyEvent sampleConfig =
    .ok (sampleClaim (sampleKey 'b') "Deploy Notes" 1000) := by
  exact checkEvent_sampleEvent (by decide) (by decide) (by decide) (by decide) (by decide)

/-- The store after a cutover with that event, its start and a backup. -/
def legacyWorld : World :=
  run Host.sample sampleConfig [] World.empty [.migrateStoreJson [legacyEvent] sampleStoreId 1000 .none,
    .start .none, .recordVerifiedBackup (sampleReceipt 1 Nat.one_pos)]

/-- Its writer submits the stored event again, to a ready store with open fences, and is refused. -/
theorem legacy_resubmit_refused : ∃ store db row writer,
    legacyWorld.process = some store ∧ store.state = .ready ∧
    legacyWorld.disk.database = some db ∧ row ∈ db.events.rows ∧ row.raw = legacyEvent ∧
    sampleConfig.writers.get "owner" = some writer ∧ legacyEvent.pubkey = writer.pubkey ∧
    purgeBackupIncomplete db.lastPurgeSeq legacyWorld.disk.receipt = none ∧
    backupFence sampleConfig db legacyWorld.disk.receipt 1000 = none ∧
    ∃ message, (submit Host.sample legacyWorld.disk store ⟨"owner", legacyEvent, none, 1000⟩ .none).answer =
      some (.refused ⟨"HIVE_MEMORY_INVALID_TOPIC", message⟩) := by
  have migrated : ∃ store created, genesisDatabase sampleStoreId.1
      [sampleClaim (sampleKey 'b') "Deploy Notes" 1000] 1000 = some created ∧
      Serving sampleConfig (run Host.sample sampleConfig [] World.empty
        [.migrateStoreJson [legacyEvent] sampleStoreId 1000 .none, .start .none]) store
        (created.stage (genesisPayload (some [sampleClaim (sampleKey 'b') "Deploy Notes" 1000])) 1000) ∧
      store.purgedIds.toFinset = ∅ := by
    refine serving_of_samples ?_ ?_ (List.nodup_singleton _)
    · intro v member
      rw [List.mem_singleton.mp member]
      exact checkEvent_legacyEvent
    · intro v member
      rw [List.mem_singleton.mp member]
      exact ⟨rfl, rfl⟩
  obtain ⟨store, created, made, serving, -⟩ := migrated
  obtain ⟨-, seq, purge, -, rows⟩ := genesisDatabase_rows made
  have world : legacyWorld = step Host.sample sampleConfig [] (run Host.sample sampleConfig []
      World.empty [.migrateStoreJson [legacyEvent] sampleStoreId 1000 .none, .start .none])
        (.recordVerifiedBackup (sampleReceipt 1 (by decide))) := rfl
  rw [world]
  generalize run Host.sample sampleConfig [] World.empty
    [.migrateStoreJson [legacyEvent] sampleStoreId 1000 .none, .start .none] = w at serving ⊢
  have served : Serving sampleConfig (step Host.sample sampleConfig [] w
      (.recordVerifiedBackup (sampleReceipt 1 (by decide)))) store _ ∧ _ = some _ :=
    serving.backup (sampleReceipt 1 (by decide))
  obtain ⟨backed, receipt⟩ := served
  generalize step Host.sample sampleConfig [] w _ = w at backed receipt ⊢
  have open₁ : purgeBackupIncomplete created.lastPurgeSeq w.disk.receipt = none := by
    rw [purge]
    rfl
  have open₂ : backupFence sampleConfig (created.stage (genesisPayload (some
      [sampleClaim (sampleKey 'b') "Deploy Notes" 1000])) 1000) w.disk.receipt 1000 = none := by
    rw [receipt, backupFence_eq_none]
    exact ⟨Nat.le_add_left _ _, by decide, by decide⟩
  have admits : Admits sampleConfig w.disk store ⟨"owner", legacyEvent, none, 1000⟩
      (created.stage (genesisPayload (some [sampleClaim (sampleKey 'b') "Deploy Notes" 1000])) 1000)
      sampleWriter :=
    ⟨backed.ready, backed.config, backed.database, open₁, open₂, rfl, rfl,
      ⟨"hive:ops", "deploy", "hive-memory:hive:ops:deploy", none, none⟩, by decide, by decide⟩
  have refused : ∃ message, submitChecks Host.sample w.disk store ⟨"owner", legacyEvent, none, 1000⟩ =
      .error ⟨"HIVE_MEMORY_INVALID_TOPIC", message⟩ :=
    ⟨_, submitChecks_policy admits checkEvent_legacyEvent (by rfl)⟩
  obtain ⟨message, refused⟩ := refused
  refine ⟨store, _, rowOf (sampleClaim (sampleKey 'b') "Deploy Notes" 1000) true 1000, _,
    backed.process, backed.ready, backed.database, ?_, rfl, rfl, rfl, open₁, open₂, message, ?_⟩
  · show _ ∈ created.events.rows
    rw [rows]
    exact List.mem_singleton.mpr rfl
  · unfold submit
    rw [refused]

end Nvoy.Store
