/-
**What "verified" is worth to the holder's reader.**

A relay answers a filter with the newest of what it holds and the filter admits, up to the filter's
limit, or not at all (`RelaysAnswer`). `readHeldCapabilities` takes a completed answer for a complete
one:

* `verified_iff` — it reports `verified` exactly where every configured relay answers what it is
  asked;
* `covered_iff` — its report then covers what the relays hold exactly where every grant and every
  revocation that counts is read from some answer (`Reached`);
* `flood_hides_grant` — a thousand newer grants to the subject, by anybody, hide an older one.
-/

import Nvoy.Admission.Agreement

namespace Nvoy.Admission

open Recent (filed latest Newest)

section Coverage

variable (host : Host) (npubEncode : String → String) (subject : String) (now : Int)
  (relays : List String) (stored : String → List Event)
  (query : String → Filter → Option (List Event))

/-- How the relays answer: with the newest of what they hold for the filter, of which the client
passes on at least what verifies. A verified id is the hash of everything but the signature. -/
structure RelaysAnswer : Prop where
  answer : ∀ url filter events, query url filter = some events →
    ∃ listed, Newest Event.createdAt filter.limit ((stored url).filter filter.admits) listed ∧
      (∀ ev ∈ events, ev ∈ listed) ∧
      ∀ ev ∈ listed, host.verifyEvent ev = true → ev ∈ events
  hashed : ∀ a b, host.verifyEvent a = true → host.verifyEvent b = true → a.id = b.id →
    { a with sig := "" } = { b with sig := "" }

/-- Some configured relay holds the event. -/
def HeldByRelay (ev : Event) : Prop := ∃ url ∈ configuredOf relays, ev ∈ stored url

/-- A valid 441 by the grant's own author that names the grant. -/
def OwnRevocation (g ev : Event) : Prop :=
  host.verifyEvent ev = true ∧ ev.kind = 441 ∧ ev.pubkey = g.pubkey ∧ g.id ∈ tagTexts ev "e"

/-- The 440s that name the subject. -/
def grantFilter : Filter := ⟨[440], none, some [subject], none, MAX_EVENTS⟩

/-- Every configured relay answers the filter. -/
def Answers (filter : Filter) : Prop := ∀ url ∈ configuredOf relays, (query url filter).isSome = true

instance (filter : Filter) : Decidable (Answers relays query filter) :=
  inferInstanceAs (Decidable (∀ _ ∈ _, _))

/-! ### The property -/

/-- **Verified means complete**: the report lists every valid grant that a relay holds and calls
none active that a relay holds revoked, and it calls nothing active and nothing absent without
every relay's answer. -/
structure Covered (report : HeldCapabilities) : Prop where
  listed : report.verification.verified = true →
    ∀ g, HeldByRelay relays stored g → namesSubject host subject g = true →
      ∃ rows, report.capabilities = some rows ∧ ∃ row ∈ rows, row.grantId = g.id
  unrevoked : report.verification.verified = true → ∀ rows, report.capabilities = some rows →
    ∀ row ∈ rows, row.status = .active → ∀ g, HeldByRelay relays stored g →
      namesSubject host subject g = true → row.grantId = g.id →
        ¬∃ ev, HeldByRelay relays stored ev ∧ OwnRevocation host g ev
  active : ∀ rows, report.capabilities = some rows → ∀ row ∈ rows, row.status = .active →
    Answers relays query (grantFilter subject) ∧
      Answers relays query (revocationFilter (grantsRead host subject relays query))
  absent : report.capabilities = some [] → Answers relays query (grantFilter subject)

/-! ### The condition -/

/-- Every configured relay answers what it is asked. -/
def AllAnswer : Prop :=
  configuredOf relays ≠ [] ∧ Answers relays query (grantFilter subject) ∧
    (grantsRead host subject relays query ≠ [] →
      Answers relays query (revocationFilter (grantsRead host subject relays query)))

/-- The event is the last of its id among the relays' answers. -/
def ReadAs (filter : Filter) (ev : Event) : Prop :=
  latest (fun other => other.id = ev.id)
    ((configuredOf relays).filterMap fun url => query url filter).flatten = some ev

/-- The answers reach every valid grant that a relay holds, and for each that is revoked and not
expired a revocation. -/
structure Reached : Prop where
  grants : ∀ g, HeldByRelay relays stored g → namesSubject host subject g = true →
    ∃ copy, ReadAs relays query (grantFilter subject) copy ∧ host.verifyEvent copy = true ∧
      copy.id = g.id
  revocations : ∀ g, HeldByRelay relays stored g → namesSubject host subject g = true →
    (expiresAt g).any (· ≤ now) = false →
      (∃ ev, HeldByRelay relays stored ev ∧ OwnRevocation host g ev) →
        ∃ ev, ReadAs relays query (revocationFilter (grantsRead host subject relays query)) ev ∧
          OwnRevocation host g ev

end Coverage

/-! ### What is read -/

section Reader

variable {host : Host} {npubEncode : String → String} {subject : String} {now : Int}
  {relays : List String} {stored : String → List Event}
  {query : String → Filter → Option (List Event)}

theorem mem_readSet_iff {filter : Filter} {ev : Event} :
    ev ∈ (readSet (configuredOf relays) filter query).events ↔ ReadAs relays query filter ev :=
  Recent.mem_values_filed Event.id

/-- The count of answers is that of the relays where each of them answers. -/
theorem answered_iff {filter : Filter} :
    (readSet (configuredOf relays) filter query).answered = (configuredOf relays).length ↔
      Answers relays query filter := by
  show ((configuredOf relays).filterMap fun url => query url filter).length = _ ↔ _
  unfold Answers
  induction configuredOf relays with
  | nil => simp
  | cons url rest ih =>
      have shorter := List.length_filterMap_le (fun url => query url filter) rest
      cases response : query url filter with
      | none =>
          simp only [List.filterMap_cons, response, List.length_cons]
          constructor
          · intro same
            omega
          · intro every
            have here := every url (List.mem_cons_self ..)
            rw [response] at here
            cases here
      | some events =>
          simp only [List.filterMap_cons, response, List.length_cons, Nat.add_right_cancel_iff, ih]
          constructor
          · intro rest url' mem
            rcases List.mem_cons.mp mem with rfl | later
            · rw [response]
              rfl
            · exact rest url' later
          · exact fun every url' later => every url' (List.mem_cons_of_mem _ later)

theorem mem_grantsRead_iff {g : Event} :
    g ∈ grantsRead host subject relays query ↔
      ReadAs relays query (grantFilter subject) g ∧ namesSubject host subject g = true := by
  rw [grantsRead, List.mem_filter]
  exact and_congr_left' mem_readSet_iff

theorem verified_of_namesSubject {g : Event} (names : namesSubject host subject g = true) :
    host.verifyEvent g = true := by
  simp only [namesSubject, Bool.and_eq_true, decide_eq_true_eq] at names
  exact names.1.1.2

/-- Verified copies of one id are read alike. -/
theorem RelaysAnswer.alike (answers : RelaysAnswer host stored query) {a b : Event}
    (left : host.verifyEvent a = true) (right : host.verifyEvent b = true) (same : a.id = b.id) :
    a.pubkey = b.pubkey ∧ (∀ subject, namesSubject host subject a = namesSubject host subject b) ∧
      expiresAt a = expiresAt b := by
  obtain ⟨-, pubkey, -, kind, tags⟩ := content_eq (answers.hashed a b left right same)
  refine ⟨pubkey, fun subject => ?_, ?_⟩
  · unfold namesSubject tagTexts Event.tagValues
    rw [kind, tags, left, right]
  · unfold expiresAt tagTexts Event.tagValues
    rw [tags]

/-! ### The report -/

/-- Some relay is configured, and as many answered. -/
def coverageComplete (relays : List String) (query : String → Filter → Option (List Event))
    (filter : Filter) : Bool :=
  0 < (configuredOf relays).length &&
    (readSet (configuredOf relays) filter query).answered = (configuredOf relays).length

theorem coverageComplete_iff {filter : Filter} :
    coverageComplete relays query filter = true ↔
      configuredOf relays ≠ [] ∧ Answers relays query filter := by
  rw [coverageComplete, Bool.and_eq_true, decide_eq_true_eq, decide_eq_true_eq, answered_iff,
    List.length_pos_iff]

/-- The two branches of the reader. -/
theorem report_cases (host : Host) (npubEncode : String → String) (subject : String) (now : Int)
    (relays : List String) (query : String → Filter → Option (List Event)) :
    (grantsRead host subject relays query = [] ∧
      (readHeldCapabilities host npubEncode subject now relays query).capabilities =
        (if configuredOf relays ≠ [] ∧ Answers relays query (grantFilter subject) then some []
          else none) ∧
      ((readHeldCapabilities host npubEncode subject now relays query).verification.verified = true ↔
        configuredOf relays ≠ [] ∧ Answers relays query (grantFilter subject))) ∨
    (grantsRead host subject relays query ≠ [] ∧ ∃ complete,
      (complete = true ↔ configuredOf relays ≠ [] ∧ Answers relays query (grantFilter subject) ∧
        Answers relays query (revocationFilter (grantsRead host subject relays query))) ∧
      (readHeldCapabilities host npubEncode subject now relays query).verification.verified =
        complete ∧
      (readHeldCapabilities host npubEncode subject now relays query).capabilities =
        some (((grantsRead host subject relays query).map (capabilityRow npubEncode now complete
          (revocationsOf host (grantsRead host subject relays query)
            (readSet (configuredOf relays)
              (revocationFilter (grantsRead host subject relays query)) query).events))).insertionSort
          rowBefore)) := by
  by_cases none : grantsRead host subject relays query = []
  · refine .inl ⟨none, ?_⟩
    have unread : (readSet (configuredOf relays) ⟨[440], .none, some [subject], .none, MAX_EVENTS⟩
        query).events.filter (namesSubject host subject) = [] := none
    unfold readHeldCapabilities
    rw [← configuredOf]
    simp only [unread, if_true]
    have asked : (decide (0 < (configuredOf relays).length) && decide ((readSet
        (configuredOf relays) ⟨[440], .none, some [subject], .none, MAX_EVENTS⟩ query).answered =
          (configuredOf relays).length)) = true ↔ _ := coverageComplete_iff
    by_cases all : configuredOf relays ≠ [] ∧ Answers relays query (grantFilter subject)
    · rw [if_pos all, if_pos (asked.mpr all)]
      exact ⟨rfl, iff_of_true rfl all⟩
    · rw [if_neg all, if_neg (mt asked.mp all)]
      exact ⟨rfl, iff_of_false Bool.false_ne_true all⟩
  · have read : ¬(readSet (configuredOf relays)
        ⟨[440], .none, some [subject], .none, MAX_EVENTS⟩
        query).events.filter (namesSubject host subject) = [] := none
    refine .inr ⟨none, coverageComplete relays query (grantFilter subject) &&
      coverageComplete relays query (revocationFilter (grantsRead host subject relays query)),
      ?_, ?_, ?_⟩
    · rw [Bool.and_eq_true, coverageComplete_iff, coverageComplete_iff]
      tauto
    · unfold readHeldCapabilities
      rw [← configuredOf]
      simp only [if_neg read]
      rfl
    · unfold readHeldCapabilities
      rw [← configuredOf]
      simp only [if_neg read]
      rfl

/-- **`verified` says that every configured relay answered.** -/
theorem verified_iff (host : Host) (npubEncode : String → String) (subject : String) (now : Int)
    (relays : List String) (query : String → Filter → Option (List Event)) :
    (readHeldCapabilities host npubEncode subject now relays query).verification.verified = true ↔
      AllAnswer host subject relays query := by
  unfold AllAnswer
  rcases report_cases host npubEncode subject now relays query with ⟨none, -, verified⟩ | ⟨some, complete, rule, verified, -⟩
  · rw [verified]
    simp [none]
  · rw [verified, rule]
    simp [some]

/-- Every row stands for a grant that was read. -/
theorem exists_grant_of_row {rows : List CapabilityRow} {row : CapabilityRow}
    (report : (readHeldCapabilities host npubEncode subject now relays query).capabilities =
      some rows) (mem : row ∈ rows) :
    ∃ complete, ∃ g ∈ grantsRead host subject relays query,
      (complete = true ↔ configuredOf relays ≠ [] ∧ Answers relays query (grantFilter subject) ∧
        Answers relays query (revocationFilter (grantsRead host subject relays query))) ∧
      row = capabilityRow npubEncode now complete
        (revocationsOf host (grantsRead host subject relays query) (readSet (configuredOf relays)
          (revocationFilter (grantsRead host subject relays query)) query).events) g := by
  rcases report_cases host npubEncode subject now relays query with ⟨-, rows', -⟩ | ⟨-, complete, rule, -, rows'⟩
  · rw [rows'] at report
    split at report
    next =>
      obtain rfl := Option.some.inj report
      exact absurd mem List.not_mem_nil
    next => cases report
  · rw [rows', Option.some.injEq] at report
    rw [← report, List.mem_insertionSort] at mem
    obtain ⟨g, read, rfl⟩ := List.mem_map.mp mem
    exact ⟨complete, g, read, rule, rfl⟩

/-- The row of a grant is active where every relay answered, no revocation was read and the grant
has not expired. -/
theorem status_active {complete : Bool} {revocations : JsMap String Event} {g : Event} :
    (capabilityRow npubEncode now complete revocations g).status = .active ↔
      complete = true ∧ (revocations.get g.id).isSome = false ∧
        (expiresAt g).any (· ≤ now) = false := by
  unfold capabilityRow
  simp only
  cases (revocations.get g.id).isSome <;> cases complete <;>
    cases (expiresAt g).any (· ≤ now) <;> simp

/-- A revocation is found for a grant exactly where an answer holds one by its author. -/
theorem revoked_iff (answers : RelaysAnswer host stored query) {g : Event}
    (read : g ∈ grantsRead host subject relays query) :
    ((revocationsOf host (grantsRead host subject relays query) (readSet (configuredOf relays)
      (revocationFilter (grantsRead host subject relays query)) query).events).get g.id).isSome =
        true ↔
      ∃ ev, ReadAs relays query (revocationFilter (grantsRead host subject relays query)) ev ∧
        OwnRevocation host g ev := by
  rw [isSome_revocationsOf]
  constructor
  · rintro ⟨ev, mem, kind, verified, named, grant, other, id, author⟩
    have pubkey := (answers.alike (verified_of_namesSubject (mem_grantsRead_iff.mp other).2)
      (verified_of_namesSubject (mem_grantsRead_iff.mp read).2) id).1
    exact ⟨ev, mem_readSet_iff.mp mem, verified, kind, author.symm.trans pubkey, named⟩
  · rintro ⟨ev, mem, verified, kind, author, named⟩
    exact ⟨ev, mem_readSet_iff.mpr mem, kind, verified, named, g, read, rfl, author.symm⟩

/-! ### The claim -/

/-- **Verified means complete exactly where the answers reach everything that counts.** -/
theorem covered_iff (answers : RelaysAnswer host stored query) :
    Covered host subject relays stored query
        (readHeldCapabilities host npubEncode subject now relays query) ↔
      (AllAnswer host subject relays query → Reached host subject now relays stored query) := by
  have verified := verified_iff host npubEncode subject now relays query
  constructor
  · intro covered all
    have grants : ∀ g, HeldByRelay relays stored g → namesSubject host subject g = true →
        ∃ copy ∈ grantsRead host subject relays query, copy.id = g.id := by
      intro g held names
      obtain ⟨rows, report, row, mem, id⟩ := covered.listed (verified.mpr all) g held names
      obtain ⟨complete, copy, read, -, rfl⟩ := exists_grant_of_row report mem
      exact ⟨copy, read, id⟩
    refine ⟨fun g held names => ?_, fun g held names fresh revoked => ?_⟩
    · obtain ⟨copy, read, id⟩ := grants g held names
      obtain ⟨as, names'⟩ := mem_grantsRead_iff.mp read
      exact ⟨copy, as, verified_of_namesSubject names', id⟩
    · obtain ⟨copy, read, id⟩ := grants g held names
      have valid := verified_of_namesSubject (mem_grantsRead_iff.mp read).2
      obtain ⟨pubkey, -, expires⟩ := answers.alike valid (verified_of_namesSubject names) id
      rcases report_cases host npubEncode subject now relays query with ⟨none, -⟩ | ⟨-, complete, -, said, rows⟩
      · rw [none] at read
        exact absurd read List.not_mem_nil
      · have inactive := mt (covered.unrevoked (verified.mpr all) _ rows _
          ((List.mem_insertionSort _).mpr (List.mem_map_of_mem read)) · g held names id)
          (not_not.mpr revoked)
        rw [status_active, expires, said.symm.trans (verified.mpr all)] at inactive
        have found : ((revocationsOf host (grantsRead host subject relays query)
            (readSet (configuredOf relays) (revocationFilter (grantsRead host subject relays query))
              query).events).get copy.id).isSome = true := by
          by_contra unread
          exact inactive ⟨rfl, Bool.eq_false_iff.mpr unread, fresh⟩
        obtain ⟨ev, as, valid', kind, author, named⟩ := (revoked_iff answers read).mp found
        exact ⟨ev, as, valid', kind, author.trans pubkey, id ▸ named⟩
  · intro reached
    refine ⟨fun said g held names => ?_, fun said rows report row mem active g held names id => ?_,
      fun rows report row mem active => ?_, fun report => ?_⟩
    · obtain ⟨copy, as, valid, id⟩ := (reached (verified.mp said)).grants g held names
      have read : copy ∈ grantsRead host subject relays query := mem_grantsRead_iff.mpr
        ⟨as, (answers.alike valid (verified_of_namesSubject names) id).2.1 subject |>.trans names⟩
      rcases report_cases host npubEncode subject now relays query with ⟨none, -⟩ | ⟨-, complete, -, -, rows⟩
      · rw [none] at read
        exact absurd read List.not_mem_nil
      · exact ⟨_, rows, _, (List.mem_insertionSort _).mpr (List.mem_map_of_mem read), id⟩
    · rintro revoked
      obtain ⟨complete, copy, read, -, rfl⟩ := exists_grant_of_row report mem
      change copy.id = g.id at id
      obtain ⟨-, unread, fresh⟩ := status_active.mp active
      have valid := verified_of_namesSubject (mem_grantsRead_iff.mp read).2
      obtain ⟨pubkey, -, expires⟩ := answers.alike valid (verified_of_namesSubject names) id
      obtain ⟨ev, as, valid', kind, author, named⟩ :=
        (reached (verified.mp said)).revocations g held names (expires ▸ fresh) revoked
      have found := (revoked_iff answers read).mpr
        ⟨ev, as, valid', kind, author.trans pubkey.symm, id ▸ named⟩
      rw [unread] at found
      cases found
    · obtain ⟨complete, copy, -, rule, rfl⟩ := exists_grant_of_row report mem
      exact (rule.mp (status_active.mp active).1).2
    · rcases report_cases host npubEncode subject now relays query with ⟨-, rows, -⟩ | ⟨some, complete, -, -, rows⟩
      · rw [rows] at report
        split at report
        next all => exact all.2
        next => cases report
      · rw [rows, Option.some.injEq] at report
        have lengths := congrArg List.length report
        rw [List.length_insertionSort, List.length_map] at lengths
        exact absurd (List.eq_nil_of_length_eq_zero lengths) some

end Reader

/-! ### A flood of newer grants -/

/-- A host that verifies the events of the list alone. -/
def Host.ofList (events : List Event) : Host :=
  { Host.sample with
    verifyEvent := fun ev => isHex64 ev.id && events.contains ev
    verifyEvent_id := fun verified => (Bool.and_eq_true_iff.mp verified).1 }

theorem verifyEvent_ofList {events : List Event} {ev : Event} :
    (Host.ofList events).verifyEvent ev = true ↔ isHex64 ev.id = true ∧ ev ∈ events := by
  show (isHex64 ev.id && events.contains ev) = true ↔ _
  rw [Bool.and_eq_true, List.contains_iff_mem]

/-- Any key's 440 that names `dennis` and grants nothing. -/
def emptyGrant (n : Nat) : Event where
  id := String.ofList (List.replicate 61 '0' ++
    [Nat.digitChar (n / 100 % 10), Nat.digitChar (n / 10 % 10), Nat.digitChar (n % 10)])
  pubkey := "stranger"
  createdAt := 2000 + n
  kind := 440
  tags := [["p", "dennis"]]
  content := ""
  sig := ""

/-- A grant, and as many newer empty ones as an answer carries. -/
def flood : List Event := sampleGrant 5 :: (List.range MAX_EVENTS).map emptyGrant

/-- The one relay, which lists the newest of the flood. -/
def floodRelay (_ : String) (filter : Filter) : Option (List Event) :=
  some ((Recent.newestOf Event.createdAt filter.limit (flood.filter filter.admits)).filter
    (Host.ofList flood).verifyEvent)

theorem emptyGrant_injective : Function.Injective emptyGrant := by
  intro n m same
  have created := congrArg Event.createdAt same
  simp only [emptyGrant] at created
  omega

theorem emptyGrant_id_inj {n m : Nat} (left : n < 1000) (right : m < 1000)
    (same : (emptyGrant n).id = (emptyGrant m).id) : n = m := by
  have digit : ∀ a < 10, ∀ b < 10, Nat.digitChar a = Nat.digitChar b → a = b := by decide
  have chars := String.ofList_injective same
  rw [List.append_cancel_left_eq] at chars
  simp only [List.cons.injEq, and_true] at chars
  have hundreds := digit _ (Nat.mod_lt _ (by decide)) _ (Nat.mod_lt _ (by decide)) chars.1
  have tens := digit _ (Nat.mod_lt _ (by decide)) _ (Nat.mod_lt _ (by decide)) chars.2.1
  have ones := digit _ (Nat.mod_lt _ (by decide)) _ (Nat.mod_lt _ (by decide)) chars.2.2
  omega

theorem sampleGrant_id_ne (n : Nat) : (sampleGrant 5).id ≠ (emptyGrant n).id := by
  intro same
  have chars := String.ofList_injective same
  rw [show 64 = 1 + 63 from rfl, List.replicate_add, show 61 = 1 + 60 from rfl,
    List.replicate_add] at chars
  exact absurd (List.cons.inj chars).1 (by decide)

theorem isHex64_emptyGrant (n : Nat) : isHex64 (emptyGrant n).id = true := by
  have digit : ∀ a < 10, isLowerHex (Nat.digitChar a) = true := by decide
  have mod : ∀ a, isLowerHex (Nat.digitChar (a % 10)) = true :=
    fun a => digit _ (Nat.mod_lt _ (by decide))
  have zero : isLowerHex '0' = true := by decide
  simp [isHex64, emptyGrant, mod, zero]

theorem mem_flood {ev : Event} :
    ev ∈ flood ↔ ev = sampleGrant 5 ∨ ∃ n < MAX_EVENTS, emptyGrant n = ev := by
  simp [flood]

theorem relaysAnswer_flood : RelaysAnswer (Host.ofList flood) (fun _ => flood) floodRelay where
  answer url filter events response := by
    obtain rfl := Option.some.inj response
    refine ⟨_, Recent.newest_newestOf _, fun ev mem => (List.mem_filter.mp mem).1, fun ev mem valid =>
      List.mem_filter.mpr ⟨mem, valid⟩⟩
  hashed a b left right same := by
    rcases mem_flood.mp (verifyEvent_ofList.mp left).2 with rfl | ⟨n, small, rfl⟩ <;>
      rcases mem_flood.mp (verifyEvent_ofList.mp right).2 with rfl | ⟨m, small', rfl⟩
    · rfl
    · exact absurd same (sampleGrant_id_ne m)
    · exact absurd same.symm (sampleGrant_id_ne n)
    · rw [emptyGrant_id_inj small small' same]

theorem verifyEvent_flood {ev : Event} (mem : ev ∈ flood) :
    (Host.ofList flood).verifyEvent ev = true := by
  refine verifyEvent_ofList.mpr ⟨?_, mem⟩
  rcases mem_flood.mp mem with rfl | ⟨n, -, rfl⟩
  · decide
  · exact isHex64_emptyGrant n

theorem covered_iff_flood :
    Covered (Host.ofList flood) "dennis" ["wss://relay"] (fun _ => flood) floodRelay
        (readHeldCapabilities (Host.ofList flood) (fun pubkey => pubkey) "dennis" 100 ["wss://relay"]
          floodRelay) ↔
      (AllAnswer (Host.ofList flood) "dennis" ["wss://relay"] floodRelay →
        Reached (Host.ofList flood) "dennis" 100 ["wss://relay"] (fun _ => flood) floodRelay) :=
  covered_iff relaysAnswer_flood

/-- No grant is read: the empty ones carry no capability, and the one that does is crowded out. -/
theorem grantsRead_flood :
    grantsRead (Host.ofList flood) "dennis" ["wss://relay"] floodRelay = [] := by
  refine List.eq_nil_iff_forall_not_mem.mpr fun g mem => ?_
  obtain ⟨as, names⟩ := mem_grantsRead_iff.mp mem
  obtain ⟨events, listed, here⟩ := List.mem_flatten.mp (Recent.mem_of_latest as).1
  obtain ⟨url, -, response⟩ := List.mem_filterMap.mp listed
  obtain rfl := Option.some.inj response
  have newest := (List.mem_filter.mp here).1
  have stored := (List.mem_filter.mp ((Recent.newest_newestOf _).of_mem g newest)).1
  rcases mem_flood.mp stored with rfl | ⟨n, -, rfl⟩
  · refine (Recent.newest_newestOf _).notMem_of_newer
      (List.Nodup.map emptyGrant_injective (List.nodup_range (n := MAX_EVENTS))) ?_ ?_ newest
    · rw [List.length_map, List.length_range]
      exact Nat.le_refl MAX_EVENTS
    · intro other mem
      obtain ⟨n, small, rfl⟩ := List.mem_map.mp mem
      refine ⟨List.mem_filter.mpr ⟨mem_flood.mpr (.inr ⟨n, List.mem_range.mp small, rfl⟩), ?_⟩, ?_⟩
      · rfl
      · show (5 : Int) < 2000 + n
        omega
  · simp [namesSubject, tagTexts, Event.tagValues, emptyGrant] at names

/-- **A thousand newer grants hide an older one**: the relay holds valid events only and answers,
and the report says that no grant names the subject. -/
theorem flood_hides_grant :
    (∀ ev ∈ flood, (Host.ofList flood).verifyEvent ev = true) ∧
      RelaysAnswer (Host.ofList flood) (fun _ => flood) floodRelay ∧
      (readHeldCapabilities (Host.ofList flood) (fun pubkey => pubkey) "dennis" 100 ["wss://relay"]
        floodRelay).capabilities = some [] ∧
      ¬Covered (Host.ofList flood) "dennis" ["wss://relay"] (fun _ => flood) floodRelay
        (readHeldCapabilities (Host.ofList flood) (fun pubkey => pubkey) "dennis" 100
          ["wss://relay"] floodRelay) := by
  have configured : configuredOf ["wss://relay"] = ["wss://relay"] := by decide
  have answers : Answers ["wss://relay"] floodRelay (grantFilter "dennis") := fun _ _ => rfl
  have all : configuredOf ["wss://relay"] ≠ [] ∧
      Answers ["wss://relay"] floodRelay (grantFilter "dennis") := by
    rw [configured]
    exact ⟨List.cons_ne_nil _ _, answers⟩
  rcases report_cases (Host.ofList flood) (fun pubkey => pubkey) "dennis" 100 ["wss://relay"] floodRelay with ⟨-, rows, verified⟩ | ⟨some, -⟩
  · rw [if_pos all] at rows
    refine ⟨fun _ => verifyEvent_flood, relaysAnswer_flood, rows, fun covered => ?_⟩
    have held : HeldByRelay ["wss://relay"] (fun _ => flood) (sampleGrant 5) :=
      ⟨"wss://relay", by rw [configured]; exact List.mem_singleton_self _, List.mem_cons_self ..⟩
    have names : namesSubject (Host.ofList flood) "dennis" (sampleGrant 5) = true := by
      unfold namesSubject
      rw [verifyEvent_flood (mem_flood.mpr (.inl rfl))]
      decide
    obtain ⟨rows', report, row, mem, -⟩ := covered.listed (verified.mpr all) _ held names
    rw [rows] at report
    obtain rfl := Option.some.inj report
    exact absurd mem List.not_mem_nil
  · exact absurd grantsRead_flood some

end Nvoy.Admission
