/-
**What the webhook wake promises over a run** of kills, restarts and POSTs that fail.

* `Event.repost`, `Event.posted` — what the saved POSTs say of an envelope: `reposts`, `lastPost`;
* `Filed` — the state in the file: where its cursor stands, and that its watch list is what the POSTs say;
* `Follows` — the process: its pending rows are those after the cursor, and those it posts again are due;
* `reviewed` — what the review of the watch list leaves and what it makes pending again;
* `live_step` — every step keeps the invariant, and the cursor at or past where it was;
* `notifies` — what the cursor has passed was posted or read, and an envelope is posted again within bounds;
* `never_back` — no step of a run takes the cursor back.
-/

import Nvoy.Watch.Webhook

namespace Nvoy.Watch.Webhook

open Cursor (Stands Upto afterLast position)
open Runs (Meets)

/-! ### What the history says -/

/-- A POST that re-notifies is in the saved state. -/
def Event.repost (envelope : String) : Event → Bool
  | .saved other true _ => other = envelope
  | _ => false

def Event.posted (envelope : String) : Event → Option Nat
  | .saved other _ now => if other = envelope then some now else none
  | _ => none

def reposts (envelope : String) (history : List Event) : Nat := history.countP (Event.repost envelope)

/-- The time of the last POST in the saved state. -/
def lastPost (envelope : String) (history : List Event) : Option Nat :=
  history.findSome? (Event.posted envelope)

/-- The attempts of a POST: it stops at the first that is answered, or at the last. -/
structure Over (settings : Settings) (outcomes : List Bool) : Prop where
  early : ∀ ok ∈ outcomes.dropLast, ok = false
  last : outcomes.getLast? = some true ∨ outcomes.length = settings.attempts

/-- The first POST of the envelope is over, or the envelope was found in the read log. -/
def Done (settings : Settings) (history : List Event) (envelope : String) : Prop :=
  .found envelope ∈ history ∨
    ∃ outcomes now, .settled envelope false outcomes now ∈ history ∧ Over settings outcomes

/-- When an envelope is posted again: the last envelopes of the log do not have it, the saved POST is old
enough, and there are re-notifications left. -/
structure Due (settings : Settings) (log : List String) (envelope : String) (now : Nat) (read : List String)
    (earlier : List Event) : Prop where
  known : read <+: log
  unread : envelope ∉ read.dedup.rtake MAX_READ_IDS
  waited : ∃ last, lastPost envelope earlier = some last ∧ last + settings.renotifyMs ≤ now
  few : reposts envelope earlier < settings.renotifyMax

/-- What the history of a run is accounted for. -/
structure Account (settings : Settings) (log : List String) (history : List Event) : Prop where
  found : ∀ envelope, .found envelope ∈ history → envelope ∈ log
  again : ∀ later envelope now read earlier, history = later ++ .again envelope now read :: earlier →
    Due settings log envelope now read earlier
  few : ∀ envelope, reposts envelope history ≤ settings.renotifyMax
  once : ∀ envelope, history.count (.first envelope) ≤ history.count (.cut envelope) + 1

section History

variable {settings : Settings} {log : List String} {history : List Event} {event : Event} {envelope : String}

theorem remembered_eq (read : List String) : remembered read = read.dedup.rtake MAX_READ_IDS :=
  Recent.foldl_enter read MAX_READ_IDS

theorem Done.record (done : Done settings history envelope) (event : Event) :
    Done settings (event :: history) envelope := by
  obtain found | ⟨outcomes, now, settled, ended⟩ := done
  · exact .inl (List.mem_cons_of_mem event found)
  · exact .inr ⟨outcomes, now, List.mem_cons_of_mem event settled, ended⟩

theorem reposts_cons : reposts envelope (event :: history) =
    reposts envelope history + if event.repost envelope then 1 else 0 :=
  List.countP_cons

theorem lastPost_cons : lastPost envelope (event :: history) =
    (event.posted envelope).or (lastPost envelope history) := by
  rw [lastPost, List.findSome?_cons]
  cases event.posted envelope <;> rfl

theorem Due.logged {now : Nat} {read : List String} (due : Due settings log envelope now read history)
    (later : List String) : Due settings (log ++ later) envelope now read history :=
  { due with known := due.known.trans (List.prefix_append log later) }

theorem Account.logged (account : Account settings log history) (later : List String) :
    Account settings (log ++ later) history :=
  { account with
    found := fun envelope found => List.mem_append_left later (account.found envelope found)
    again := fun front envelope now read earlier split =>
      (account.again front envelope now read earlier split).logged later }

theorem Account.record (account : Account settings log history)
    (found : ∀ envelope, event = .found envelope → envelope ∈ log)
    (again : ∀ envelope now read, event = .again envelope now read →
      Due settings log envelope now read history)
    (few : ∀ envelope, event.repost envelope = true → reposts envelope history < settings.renotifyMax)
    (once : ∀ envelope, event = .first envelope →
      history.count (.first envelope) ≤ history.count (.cut envelope)) :
    Account settings log (event :: history) where
  found envelope mem := by
    obtain same | old := List.mem_cons.mp mem
    · exact found envelope same.symm
    · exact account.found envelope old
  again later envelope now read earlier split := by
    obtain ⟨rfl, same⟩ | ⟨front, rfl, old⟩ := List.cons_eq_append_iff.mp split
    · obtain ⟨rfl, rfl⟩ := List.cons_eq_cons.mp same
      exact again envelope now read rfl
    · exact account.again front envelope now read earlier old
  few envelope := by
    rw [reposts_cons]
    split_ifs with hit
    · exact few envelope hit
    · exact account.few envelope
  once envelope := by
    have before := account.once envelope
    by_cases first : event = .first envelope
    · have even := once envelope first
      subst first
      rw [List.count_cons_self, List.count_cons_of_ne (by simp)]
      omega
    · rw [List.count_cons_of_ne first]
      have cuts := List.count_le_count_cons (a := Event.cut envelope) (b := event) (l := history)
      omega

end History

/-! ### The file -/

/-- The envelopes that the cursor has passed. -/
def passed (envelopes : List String) (cursor : Option String) : List String :=
  envelopes.take (position envelopes cursor)

/-- An entry of the watch list is what the saved POSTs say. -/
structure Tracked (history : List Event) (item : Watched) : Prop where
  hex : isHex64 item.envelope = true
  stamp : ∀ n, item.stamp = some n → n.Short
  posts : item.posts = reposts item.envelope history + 1
  last : ∃ now, lastPost item.envelope history = some now ∧ item.last = .ofNat now ∧ now ≤ MAX_TIME

/-- The state in the file, while the first POST of some envelope is open. The floor is one more than a place
that the cursor has reached. -/
structure Filed (settings : Settings) (floor : Nat) (envelopes : List String) (history : List Event) (b : Nat)
    (working : List String) (saved : Saved) : Prop where
  stands : Stands envelopes b (Done settings history) saved.cursor
  floor : floor ≤ position envelopes saved.cursor + 1
  hex : ∀ envelope, saved.cursor = some envelope → isHex64 envelope = true
  nodup : (saved.watch.map Watched.envelope).Nodup
  watch : ∀ item ∈ saved.watch, item.envelope ∈ passed envelopes saved.cursor ∧ Tracked history item
  few : saved.watch.length ≤ MAX_WATCH
  fresh : ∀ envelope, envelope ∉ passed envelopes saved.cursor → reposts envelope history = 0
  first : ∀ envelope, envelope ∉ passed envelopes saved.cursor → history.count (.first envelope) =
    history.count (.cut envelope) + working.count envelope

section Files

variable {settings : Settings} {floor b : Nat} {envelopes log working : List String} {history : List Event}
  {saved : Saved} {envelope : String} {event : Event}

theorem passed_append {cursor : Option String} (member : ∀ e, cursor = some e → e ∈ envelopes)
    (later : List String) : passed (envelopes ++ later) cursor = passed envelopes cursor := by
  rw [passed, passed, Cursor.position_append member,
    List.take_append_of_le_length (Cursor.position_le member)]

theorem Tracked.few {item : Watched} (tracked : Tracked history item)
    (account : Account settings log history) : item.posts ≤ settings.renotifyMax + 1 := by
  rw [tracked.posts]
  exact Nat.succ_le_succ (account.few item.envelope)

/-- The state has the shape that `loadState` accepts. -/
theorem Filed.valid (filed : Filed settings floor envelopes history b working saved)
    (account : Account settings log history) : saved.Valid where
  cursor := filed.hex
  few := filed.few
  watch item member := by
    have tracked := (filed.watch item member).2
    have most := tracked.few account
    have range := settings.renotifyMax_range
    obtain ⟨now, -, last, before⟩ := tracked.last
    refine ⟨tracked.hex, ?_, by omega, tracked.stamp, ?_⟩
    · rw [tracked.posts]
      exact Nat.succ_le_succ (Nat.zero_le _)
    · rw [last]
      refine ⟨?_, show (0 : Int).natAbs < 400 by decide⟩
      show (now : Int).natAbs < 10 ^ 17
      rw [Int.natAbs_natCast]
      exact lt_of_le_of_lt before (by decide)

/-- Its envelopes are appended to. -/
theorem Filed.append (filed : Filed settings floor envelopes history b working saved) (later : List String) :
    Filed settings floor (envelopes ++ later) history b working saved := by
  have same := passed_append filed.stands.member later
  constructor
  case stands => exact filed.stands.append later
  case floor =>
    rw [Cursor.position_append filed.stands.member]
    exact filed.floor
  case hex => exact filed.hex
  case nodup => exact filed.nodup
  case few => exact filed.few
  all_goals rw [same]
  case watch => exact filed.watch
  case fresh => exact filed.fresh
  case first => exact filed.first

/-- Entries leave the watch list. -/
theorem Filed.sub (filed : Filed settings floor envelopes history b working saved) {watch : List Watched}
    (sub : watch.Sublist saved.watch) :
    Filed settings floor envelopes history b working { saved with watch } :=
  { filed with
    nodup := filed.nodup.sublist (sub.map Watched.envelope)
    watch := fun item member => filed.watch item (sub.subset member)
    few := sub.length_le.trans filed.few }

theorem Tracked.record {item : Watched} (tracked : Tracked history item)
    (repost : event.repost item.envelope = false) (posted : event.posted item.envelope = none) :
    Tracked (event :: history) item where
  hex := tracked.hex
  stamp := tracked.stamp
  posts := by
    rw [reposts_cons, repost]
    exact tracked.posts
  last := by
    rw [lastPost_cons, posted, Option.none_or]
    exact tracked.last

/-- An event that is not a saved POST. -/
theorem Filed.record {working' : List String} (filed : Filed settings floor envelopes history b working saved)
    (repost : ∀ envelope, event.repost envelope = false) (posted : ∀ envelope, event.posted envelope = none)
    (first : ∀ envelope, envelope ∉ passed envelopes saved.cursor →
      (event :: history).count (.first envelope) =
        (event :: history).count (.cut envelope) + working'.count envelope) :
    Filed settings floor envelopes (event :: history) b working' saved :=
  { filed with
    stands := filed.stands.mono fun _ done => done.record event
    watch := fun item member => ⟨(filed.watch item member).1,
      (filed.watch item member).2.record (repost item.envelope) (posted item.envelope)⟩
    fresh := fun envelope outside => by
      rw [reposts_cons, repost]
      exact filed.fresh envelope outside
    first }

/-- The event says nothing of the first POSTs. -/
theorem Filed.remark (filed : Filed settings floor envelopes history b working saved)
    (repost : ∀ envelope, event.repost envelope = false) (posted : ∀ envelope, event.posted envelope = none)
    (first : ∀ envelope, event ≠ .first envelope) (cut : ∀ envelope, event ≠ .cut envelope) :
    Filed settings floor envelopes (event :: history) b working saved :=
  filed.record repost posted fun envelope outside => by
    rw [List.count_cons_of_ne (first envelope), List.count_cons_of_ne (cut envelope)]
    exact filed.first envelope outside

/-- The cursor goes on to the next envelope. -/
theorem passed_next (nodup : envelopes.Nodup) {cursor : Option String}
    (here : envelopes[position envelopes cursor]? = some envelope) :
    passed envelopes (some envelope) = passed envelopes cursor ++ [envelope] := by
  rw [passed, Cursor.position_getElem? nodup here, List.take_add_one, here]
  rfl

theorem notMem_passed (nodup : envelopes.Nodup) {cursor : Option String}
    (here : envelopes[position envelopes cursor]? = some envelope) : envelope ∉ passed envelopes cursor := by
  intro inside
  obtain ⟨i, there⟩ := List.mem_iff_getElem?.mp inside
  rw [passed, List.getElem?_take] at there
  split_ifs at there with before
  rw [← Cursor.idxOf_of_getElem? nodup there, Cursor.idxOf_of_getElem? nodup here] at before
  exact lt_irrefl _ before

theorem Filed.next (filed : Filed settings floor envelopes history b working saved) (nodup : envelopes.Nodup)
    (here : envelopes[position envelopes saved.cursor]? = some envelope) (hex : isHex64 envelope = true)
    (done : Done settings history envelope) (only : ∀ other ∈ working, other = envelope) :
    Filed settings floor envelopes history b [] { saved with cursor := some envelope } := by
  have more := passed_next nodup here
  have place := Cursor.position_getElem? nodup here
  have outside : ∀ other, other ∉ passed envelopes (some envelope) →
      other ∉ passed envelopes saved.cursor ∧ other ≠ envelope := by
    intro other outside
    rw [more, List.mem_append, List.mem_singleton] at outside
    exact not_or.mp outside
  constructor
  case stands =>
    refine ⟨?_, ?_, ?_⟩
    · rintro _ ⟨⟩
      exact List.mem_of_getElem? here
    · rw [place]
      exact Nat.le_succ_of_le filed.stands.after
    · rw [place]
      exact filed.stands.upto.next here done
  case floor =>
    show floor ≤ position envelopes (some envelope) + 1
    rw [place]
    exact Nat.le_succ_of_le filed.floor
  case hex =>
    rintro _ ⟨⟩
    exact hex
  case nodup => exact filed.nodup
  case few => exact filed.few
  case watch =>
    intro item member
    refine ⟨?_, (filed.watch item member).2⟩
    show item.envelope ∈ passed envelopes (some envelope)
    rw [more]
    exact List.mem_append_left _ (filed.watch item member).1
  case fresh => exact fun other there => filed.fresh other (outside other there).1
  case first =>
    intro other there
    obtain ⟨before, apart⟩ := outside other there
    rw [filed.first other before, List.count_eq_zero_of_not_mem fun working => apart (only other working)]
    rfl

end Files

/-! ### The process -/

def Phase.rows : Phase → List Pending
  | .posting row _ | .settled row _ => [row]
  | _ => []

/-- The envelope whose first POST is at work. -/
def Phase.working (phase : Phase) : List String := (phase.rows.filter (!·.renotify)).map Pending.envelope

/-- The rows that are left, the one at work first. -/
def Notifier.rows (n : Notifier) : List Pending := n.phase.rows ++ n.pending

/-- Where the process stands in the queue and in the log, and what it has still to post. -/
structure Follows (settings : Settings) (queue : List Row) (log : List String) (now : Nat) (n : Notifier) :
    Prop where
  read : n.read ≤ queue.length
  place : position (queue.map Row.envelope) n.state.cursor ≤ n.read
  rows : n.rows.filter (!·.renotify) =
    ((queue.take n.read).drop (position (queue.map Row.envelope) n.state.cursor)).map Row.pending
  logRead : n.logRead ≤ log.length
  readIds : n.readIds = remembered (log.take n.logRead)
  once : ((n.rows.filter (·.renotify)).map Pending.envelope).Nodup
  queued : ∀ row ∈ n.rows, row.renotify = true →
    row.envelope ∈ n.queuedRenotify ∧ row.envelope ∈ passed (queue.map Row.envelope) n.state.cursor
  due : ∀ row ∈ n.rows, row.renotify = true → ∀ item ∈ n.state.watch, item.envelope = row.envelope →
    item.posts ≤ settings.renotifyMax ∧ item.last.value + settings.renotifyMs ≤ now

/-- What is posted again is on the watch list. -/
def Held (n : Notifier) (row : Pending) : Prop :=
  row.renotify = true → ∃ item ∈ n.state.watch, item.envelope = row.envelope

/-- What holds where the main loop stands. -/
def At (settings : Settings) (history : List Event) (n : Notifier) : Prop :=
  match n.phase with
  | .waiting | .polled => True
  | .reviewed => ∀ item ∈ n.state.watch, item.envelope ∉ n.readIds
  | .posting row outcomes =>
      (∀ ok ∈ outcomes, ok = false) ∧ outcomes.length < settings.attempts ∧ Held n row
  | .settled row outcomes => Over settings outcomes ∧ Held n row ∧
      (row.renotify = false → ∃ now, .settled row.envelope false outcomes now ∈ history)

section Processes

variable {settings : Settings} {queue : List Row} {log : List String} {now : Nat} {n : Notifier}
  {row : Pending} {rest : List Pending}

theorem filter_pending (rows : List Row) :
    (rows.map Row.pending).filter (!·.renotify) = rows.map Row.pending ∧
      (rows.map Row.pending).filter (·.renotify) = [] := by
  constructor
  · refine List.filter_eq_self.mpr fun row member => ?_
    obtain ⟨r, -, rfl⟩ := List.mem_map.mp member
    rfl
  · refine List.filter_eq_nil_iff.mpr fun row member => ?_
    obtain ⟨r, -, rfl⟩ := List.mem_map.mp member
    exact Bool.false_ne_true

theorem Follows.enqueue (follows : Follows settings queue log now n) (row : Row)
    (member : ∀ e, n.state.cursor = some e → e ∈ queue.map Row.envelope) :
    Follows settings (queue ++ [row]) log now n := by
  have place : position ((queue ++ [row]).map Row.envelope) n.state.cursor =
      position (queue.map Row.envelope) n.state.cursor := by
    rw [List.map_append, Cursor.position_append member]
  constructor
  case read =>
    rw [List.length_append]
    exact Nat.le_add_right_of_le follows.read
  case rows =>
    rw [place, List.take_append_of_le_length follows.read]
    exact follows.rows
  case queued =>
    rw [List.map_append, passed_append member]
    exact follows.queued
  case place => exact place ▸ follows.place
  case logRead => exact follows.logRead
  case readIds => exact follows.readIds
  case once => exact follows.once
  case due => exact follows.due

theorem Follows.logged (follows : Follows settings queue log now n) (later : List String) :
    Follows settings queue (log ++ later) now n :=
  { follows with
    logRead := by
      rw [List.length_append]
      exact Nat.le_add_right_of_le follows.logRead
    readIds := by
      rw [List.take_append_of_le_length follows.logRead]
      exact follows.readIds }

theorem Follows.tick (follows : Follows settings queue log now n) {later : Nat} (after : now ≤ later) :
    Follows settings queue log later n :=
  { follows with
    due := fun row member renotify item watched same =>
      have ⟨few, waited⟩ := follows.due row member renotify item watched same
      ⟨few, waited.trans (Nat.cast_le.mpr after)⟩ }

/-- A row goes to work, or its POST goes on. -/
theorem Follows.moved (follows : Follows settings queue log now n) {phase : Phase} {pending : List Pending}
    (same : phase.rows ++ pending = n.rows) : Follows settings queue log now { n with pending, phase } := by
  have same : Notifier.rows { n with pending, phase } = n.rows := same
  constructor
  case rows => exact same ▸ follows.rows
  case once => exact same ▸ follows.once
  case queued => exact same ▸ follows.queued
  case due => exact same ▸ follows.due
  case read => exact follows.read
  case place => exact follows.place
  case logRead => exact follows.logRead
  case readIds => exact follows.readIds

/-- The first row that is left, where it comes from the queue. -/
theorem Follows.head (follows : Follows settings queue log now n) (rows : n.rows = row :: rest)
    (first : row.renotify = false) : ∃ r ∈ queue, row = r.pending ∧
      (queue.map Row.envelope)[position (queue.map Row.envelope) n.state.cursor]? = some row.envelope ∧
      position (queue.map Row.envelope) n.state.cursor + 1 ≤ n.read ∧
      rest.filter (!·.renotify) = ((queue.take n.read).drop
        (position (queue.map Row.envelope) n.state.cursor + 1)).map Row.pending := by
  have left := follows.rows
  generalize position (queue.map Row.envelope) n.state.cursor = p at left ⊢
  rw [rows, List.filter_cons_of_pos (by simp [first]), eq_comm, List.map_eq_cons_iff] at left
  obtain ⟨r, after, split, rfl, others⟩ := left
  have here : (queue.take n.read)[p]? = some r := by
    rw [← List.head?_drop, split]
    rfl
  rw [List.getElem?_take] at here
  split_ifs at here with before
  refine ⟨r, List.mem_of_getElem? here, rfl, ?_, before, ?_⟩
  · rw [List.getElem?_map, here]
    rfl
  · rw [← others, ← List.drop_drop, split]
    rfl

/-- The row that stood first is done. -/
theorem Follows.leave (follows : Follows settings queue log now n) (rows : n.rows = row :: rest)
    {state : Saved} {queuedRenotify : List String} {phase : Phase} (idle : phase.rows = [])
    (place : position (queue.map Row.envelope) state.cursor ≤ n.read)
    (left : rest.filter (!·.renotify) =
      ((queue.take n.read).drop (position (queue.map Row.envelope) state.cursor)).map Row.pending)
    (watch : ∀ item ∈ state.watch, item ∈ n.state.watch ∨ item.envelope = row.envelope)
    (queued : ∀ other ∈ rest, other.renotify = true → other.envelope ≠ row.envelope ∧
      other.envelope ∈ queuedRenotify ∧ other.envelope ∈ passed (queue.map Row.envelope) state.cursor) :
    Follows settings queue log now { n with state, pending := rest, queuedRenotify, phase } := by
  have same : Notifier.rows { n with state, pending := rest, queuedRenotify, phase } = rest := by
    rw [Notifier.rows, idle, List.nil_append]
  constructor
  case read => exact follows.read
  case place => exact place
  case logRead => exact follows.logRead
  case readIds => exact follows.readIds
  all_goals rw [same]
  case rows => exact left
  case once =>
    have once := follows.once
    rw [rows] at once
    exact once.sublist (((List.sublist_cons_self row rest).filter _).map Pending.envelope)
  case queued => exact fun other member renotify => (queued other member renotify).2
  case due =>
    intro other member renotify item watched own
    obtain old | new := watch item watched
    · exact follows.due other (rows ▸ List.mem_cons_of_mem row member) renotify item old own
    · exact absurd (own.symm.trans new) (queued other member renotify).1

/-- It was one to post again. -/
theorem Follows.leave_again (follows : Follows settings queue log now n) (rows : n.rows = row :: rest)
    (again : row.renotify = true) {state : Saved} {phase : Phase} (idle : phase.rows = [])
    (cursor : state.cursor = n.state.cursor)
    (watch : ∀ item ∈ state.watch, item ∈ n.state.watch ∨ item.envelope = row.envelope) :
    Follows settings queue log now { n with
      state
      pending := rest
      queuedRenotify := n.queuedRenotify.erase row.envelope
      phase } := by
  refine follows.leave rows idle (cursor ▸ follows.place) ?_ watch fun other member renotify => ?_
  · rw [cursor, ← follows.rows, rows, List.filter_cons_of_neg (by simp [again])]
  · have once := follows.once
    rw [rows, List.filter_cons_of_pos again, List.map_cons, List.nodup_cons] at once
    have apart : other.envelope ≠ row.envelope := fun same =>
      once.1 (same ▸ List.mem_map_of_mem (List.mem_filter.mpr ⟨member, renotify⟩))
    obtain ⟨queued, old⟩ := follows.queued other (rows ▸ List.mem_cons_of_mem row member) renotify
    exact ⟨apart, (List.mem_erase_of_ne apart).mpr queued, cursor ▸ old⟩

/-- It came from the queue. -/
theorem Follows.leave_first (follows : Follows settings queue log now n) (rows : n.rows = row :: rest)
    (first : row.renotify = false) (nodup : (queue.map Row.envelope).Nodup) {state : Saved} {phase : Phase}
    (idle : phase.rows = []) (cursor : state.cursor = some row.envelope)
    (watch : ∀ item ∈ state.watch, item ∈ n.state.watch ∨ item.envelope = row.envelope) :
    Follows settings queue log now { n with state, pending := rest, phase } := by
  obtain ⟨r, -, -, here, inside, left⟩ := follows.head rows first
  have place := Cursor.position_getElem? nodup here
  refine follows.leave rows idle ?_ ?_ watch fun other member renotify => ?_
  · rw [cursor, place]
    exact inside
  · rw [cursor, place]
    exact left
  · obtain ⟨queued, old⟩ := follows.queued other (rows ▸ List.mem_cons_of_mem row member) renotify
    refine ⟨fun same => notMem_passed nodup here (same ▸ old), queued, ?_⟩
    rw [cursor, passed_next nodup here]
    exact List.mem_append_left _ old

end Processes

/-! ### The review of the watch list -/

/-- What stays on the watch list, and what is pending again. -/
structure Reviewed (settings : Settings) (readIds : List String) (now : Nat) (watch : List Watched)
    (queued : List String) (result : List Watched × List String × List Pending) : Prop where
  kept : result.1.Sublist watch
  unread : ∀ item ∈ result.1, item.envelope ∉ readIds
  extended : result.2.1 = queued ++ result.2.2.map Pending.envelope
  again : ∀ row ∈ result.2.2, row.renotify = true ∧ row.envelope ∉ queued ∧ ∃ item ∈ watch,
    item.envelope = row.envelope ∧ item.posts ≤ settings.renotifyMax ∧
      item.last.value + settings.renotifyMs ≤ now
  nodup : (result.2.2.map Pending.envelope).Nodup

section Reviews

variable {settings : Settings} {readIds queued : List String} {now : Nat} {item : Watched}
  {watch : List Watched} {result : List Watched × List String × List Pending}

/-- An entry that is dropped. -/
theorem Reviewed.drop (reviewed : Reviewed settings readIds now watch queued result) :
    Reviewed settings readIds now (item :: watch) queued result where
  kept := reviewed.kept.trans (List.sublist_cons_self item watch)
  unread := reviewed.unread
  extended := reviewed.extended
  again row member :=
    have ⟨renotify, outside, due, there, same⟩ := reviewed.again row member
    ⟨renotify, outside, due, List.mem_cons_of_mem item there, same⟩
  nodup := reviewed.nodup

/-- An entry that waits. -/
theorem Reviewed.keep (reviewed : Reviewed settings readIds now watch queued result)
    (unread : item.envelope ∉ readIds) :
    Reviewed settings readIds now (item :: watch) queued (item :: result.1, result.2) where
  kept := reviewed.kept.cons_cons item
  unread := List.forall_mem_cons.mpr ⟨unread, reviewed.unread⟩
  extended := reviewed.extended
  again := reviewed.drop.again
  nodup := reviewed.nodup

/-- An entry that is posted again. -/
theorem Reviewed.renotify (reviewed : Reviewed settings readIds now watch (queued ++ [item.envelope]) result)
    (unread : item.envelope ∉ readIds) (outside : item.envelope ∉ queued)
    (few : item.posts ≤ settings.renotifyMax) (waited : item.last.value + settings.renotifyMs ≤ now) :
    Reviewed settings readIds now (item :: watch) queued
      (item :: result.1, result.2.1, item.pending :: result.2.2) where
  kept := reviewed.kept.cons_cons item
  unread := List.forall_mem_cons.mpr ⟨unread, reviewed.unread⟩
  extended := by
    rw [reviewed.extended, List.append_assoc]
    rfl
  again := by
    refine List.forall_mem_cons.mpr ⟨⟨rfl, outside, item, List.mem_cons_self, rfl, few, waited⟩, ?_⟩
    intro row member
    obtain ⟨renotify, apart, due⟩ := reviewed.drop.again row member
    exact ⟨renotify, fun inside => apart (List.mem_append_left _ inside), due⟩
  nodup := by
    refine List.nodup_cons.mpr ⟨fun twice => ?_, reviewed.nodup⟩
    obtain ⟨row, member, same⟩ := List.mem_map.mp twice
    refine (reviewed.again row member).2.1 (List.mem_append_right _ ?_)
    exact List.mem_singleton.mpr same

theorem reviewed (watch : List Watched) (queued : List String) :
    Reviewed settings readIds now watch queued (review settings readIds now watch queued) := by
  induction watch generalizing queued with
  | nil => exact ⟨.slnil, by simp [review], by simp [review], by simp [review], List.nodup_nil⟩
  | cons item watch ih =>
      unfold review
      split_ifs with read waits stops
      · exact (ih queued).drop
      · exact (ih queued).keep read
      · exact (ih queued).drop
      · obtain ⟨outside, waited⟩ := not_or.mp waits
        refine (ih (queued ++ [item.envelope])).renotify read outside (not_lt.mp stops) ?_
        linarith [not_lt.mp waited]

end Reviews

/-! ### After a POST -/

/-- The entry of a row whose first POST was answered. -/
def Pending.watched (row : Pending) (now : Nat) : Watched := ⟨row.envelope, row.kind, row.stamp, 1, .ofNat now⟩

section Posts

variable {settings : Settings} {floor b now : Nat} {envelopes working : List String} {history : List Event}
  {saved : Saved} {envelope : String} {row : Pending}

theorem touch_envelopes (watch : List Watched) :
    (touch envelope now watch).map Watched.envelope = watch.map Watched.envelope := by
  induction watch with
  | nil => rfl
  | cons item watch ih =>
      unfold touch
      split_ifs
      · rfl
      · rw [List.map_cons, List.map_cons, ih]

/-- The entry of the envelope has one POST more, and the others are left alone. -/
theorem mem_touch {watch : List Watched} (nodup : (watch.map Watched.envelope).Nodup) {item : Watched}
    (member : item ∈ touch envelope now watch) : item ∈ watch ∧ item.envelope ≠ envelope ∨
      ∃ old ∈ watch, old.envelope = envelope ∧
        item = { old with posts := old.posts + 1, last := .ofNat now } := by
  induction watch with
  | nil => cases member
  | cons first watch ih =>
      obtain ⟨outside, nodup⟩ := List.nodup_cons.mp nodup
      unfold touch at member
      split_ifs at member with here
      · obtain rfl | later := List.mem_cons.mp member
        · exact .inr ⟨first, List.mem_cons_self, here, rfl⟩
        · refine .inl ⟨List.mem_cons_of_mem first later, fun same => outside ?_⟩
          rw [here, ← same]
          exact List.mem_map_of_mem later
      · obtain rfl | later := List.mem_cons.mp member
        · exact .inl ⟨List.mem_cons_self, here⟩
        · obtain ⟨old, apart⟩ | ⟨old, there, same⟩ := ih nodup later
          · exact .inl ⟨List.mem_cons_of_mem first old, apart⟩
          · exact .inr ⟨old, List.mem_cons_of_mem first there, same⟩

theorem posted_of_ne {renotify : Bool} {other : String} (apart : other ≠ envelope) :
    (Event.saved envelope renotify now).repost other = false ∧
      (Event.saved envelope renotify now).posted other = none := by
  constructor
  · cases renotify with
    | true => exact decide_eq_false apart.symm
    | false => rfl
  · exact if_neg apart.symm

theorem lastPost_saved {renotify : Bool} :
    lastPost envelope (.saved envelope renotify now :: history) = some now := by
  rw [lastPost_cons, Event.posted, if_pos rfl, Option.some_or]

/-- The saved POST of an envelope that the cursor has passed. -/
theorem Filed.posted (filed : Filed settings floor envelopes history b working saved) {renotify : Bool}
    {watch : List Watched} (nodup : (watch.map Watched.envelope).Nodup) (few : watch.length ≤ MAX_WATCH)
    (inside : envelope ∈ passed envelopes saved.cursor)
    (items : ∀ item ∈ watch, item ∈ saved.watch ∧ item.envelope ≠ envelope ∨ item.envelope = envelope ∧
      Tracked (.saved envelope renotify now :: history) item) :
    Filed settings floor envelopes (.saved envelope renotify now :: history) b working
      { saved with watch } where
  stands := filed.stands.mono fun _ done => done.record _
  floor := filed.floor
  hex := filed.hex
  nodup := nodup
  few := few
  watch item member := by
    obtain ⟨old, apart⟩ | ⟨rfl, tracked⟩ := items item member
    · have ⟨there, tracked⟩ := filed.watch item old
      obtain ⟨repost, posted⟩ : (Event.saved envelope renotify now).repost item.envelope = false ∧
          (Event.saved envelope renotify now).posted item.envelope = none := posted_of_ne apart
      exact ⟨there, tracked.record repost posted⟩
    · exact ⟨inside, tracked⟩
  fresh other outside := by
    have apart : other ≠ envelope := fun same => outside (same ▸ inside)
    rw [reposts_cons, (posted_of_ne apart).1]
    exact filed.fresh other outside
  first other outside := by
    rw [List.count_cons_of_ne (by simp), List.count_cons_of_ne (by simp)]
    exact filed.first other outside

/-- The state after a POST that re-notifies. -/
theorem Filed.after_again (filed : Filed settings floor envelopes history b working saved)
    (again : row.renotify = true) {item : Watched} (watched : item ∈ saved.watch)
    (same : item.envelope = row.envelope) (clock : now ≤ MAX_TIME) {delivered : Bool} :
    Filed settings floor envelopes (.saved row.envelope true now :: history) b working
      (saved.after settings row delivered now) := by
  rw [Saved.after, if_pos again]
  refine filed.posted ?_ ?_ (same ▸ (filed.watch item watched).1) fun other member => ?_
  · rw [touch_envelopes]
    exact filed.nodup
  · rw [← List.length_map (f := Watched.envelope), touch_envelopes, List.length_map]
    exact filed.few
  · refine (mem_touch filed.nodup member).imp_right ?_
    rintro ⟨old, there, here, rfl⟩
    have tracked := (filed.watch old there).2
    refine ⟨here, tracked.hex, tracked.stamp, ?_, now, ?_, rfl, clock⟩
    · show old.posts + 1 = reposts old.envelope _ + 1
      rw [reposts_cons, here, Event.repost, decide_eq_true rfl, if_pos rfl, tracked.posts, here]
    · show lastPost old.envelope _ = _
      rw [here, lastPost_saved]

theorem after_first (delivered : Bool) (first : row.renotify = false) :
    (saved.after settings row delivered now).cursor = some row.envelope ∧
      ∀ item ∈ (saved.after settings row delivered now).watch, item ∈ saved.watch ∨ item.envelope = row.envelope := by
  have more : ∀ item ∈ saved.watch ++ [row.watched now], item ∈ saved.watch ∨ item.envelope = row.envelope := by
    intro item member
    refine (List.mem_append.mp member).imp_right fun new => ?_
    rw [List.mem_singleton.mp new]
    rfl
  unfold Saved.after
  rw [if_neg (by simp [first])]
  split_ifs with answered
  · refine ⟨rfl, fun item member => more item ?_⟩
    dsimp only at member
    split_ifs at member
    · exact List.mem_of_mem_tail member
    · exact member
  · exact ⟨rfl, fun item member => .inl member⟩

/-- The state after a first POST. -/
theorem Filed.after_first (filed : Filed settings floor envelopes history b working saved)
    (nodup : envelopes.Nodup) {r : Row} (here : envelopes[position envelopes saved.cursor]? = some r.envelope)
    (done : Done settings history r.envelope) (only : ∀ other ∈ working, other = r.envelope)
    (clock : now ≤ MAX_TIME) (delivered : Bool) :
    Filed settings floor envelopes (.saved r.envelope false now :: history) b []
      (saved.after settings r.pending delivered now) := by
  have outside := notMem_passed nodup here
  have next := filed.next nodup here r.hex done only
  have inside : r.envelope ∈ passed envelopes (some r.envelope) := by
    rw [passed_next nodup here]
    exact List.mem_append_right _ List.mem_cons_self
  have apart : ∀ item ∈ saved.watch, item.envelope ≠ r.envelope := fun item member same =>
    outside (same ▸ (filed.watch item member).1)
  have others : ∀ item ∈ saved.watch, item ∈ saved.watch ∧ item.envelope ≠ r.envelope ∨
      item.envelope = r.envelope ∧ Tracked (.saved r.envelope false now :: history) item :=
    fun item member => .inl ⟨member, apart item member⟩
  -- the new entry of the watch list
  have tracked : Tracked (.saved r.envelope false now :: history) (r.pending.watched now) := by
    refine ⟨r.hex, r.short, ?_, now, lastPost_saved, rfl, clock⟩
    show 1 = reposts r.envelope _ + 1
    rw [reposts_cons, filed.fresh r.envelope outside]
    rfl
  have more : ∀ item ∈ saved.watch ++ [r.pending.watched now],
      item ∈ saved.watch ∧ item.envelope ≠ r.envelope ∨
        item.envelope = r.envelope ∧ Tracked (.saved r.envelope false now :: history) item := by
    intro item member
    obtain old | new := List.mem_append.mp member
    · exact others item old
    · obtain rfl := List.mem_singleton.mp new
      exact .inr ⟨rfl, tracked⟩
  have distinct : ((saved.watch ++ [r.pending.watched now]).map Watched.envelope).Nodup := by
    rw [List.map_append, List.map_singleton]
    refine List.nodup_append.mpr ⟨filed.nodup, List.nodup_singleton _, fun a old b new same => ?_⟩
    obtain ⟨item, member, rfl⟩ := List.mem_map.mp old
    exact apart item member (same.trans (List.mem_singleton.mp new))
  have room := filed.few
  unfold Saved.after
  rw [if_neg (by simp [Row.pending])]
  split_ifs with answered
  · dsimp only
    split_ifs with full
    · refine next.posted (distinct.sublist ((List.tail_sublist _).map _)) ?_ inside fun item member =>
        more item (List.mem_of_mem_tail member)
      rw [List.length_tail, List.length_append, List.length_singleton]
      exact room
    · exact next.posted distinct (not_lt.mp full) inside more
  · exact next.posted filed.nodup filed.few inside others

end Posts

/-! ### The invariant -/

/-- The process and the file beside it. -/
structure Running (settings : Settings) (floor : Nat) (w : World) (b : Nat) (n : Notifier) : Prop where
  file : w.file = some (stateFile settings.id n.state)
  baseline : w.baseline = some b
  filed : Filed settings floor w.envelopes w.history b n.phase.working n.state
  follows : Follows settings w.queue w.log w.now n
  phase : At settings w.history n

/-- Before the first start, between two processes, and while one runs. -/
inductive Stage (settings : Settings) (floor : Nat) (w : World) : Prop
  | cold (bottom : floor = 0) (file : w.file = none) (notifier : w.notifier = none) (baseline : w.baseline = none)
      (history : w.history = [])
  | stopped (b : Nat) (saved : Saved) (file : w.file = some (stateFile settings.id saved))
      (notifier : w.notifier = none) (baseline : w.baseline = some b)
      (filed : Filed settings floor w.envelopes w.history b [] saved)
  | running (b : Nat) (n : Notifier) (notifier : w.notifier = some n) (running : Running settings floor w b n)

/-- The invariant. -/
structure Live (settings : Settings) (floor : Nat) (w : World) : Prop where
  nodup : w.envelopes.Nodup
  clock : w.now ≤ MAX_TIME
  account : Account settings w.log w.history
  stage : Stage settings floor w

/-- The queue holds each envelope once. -/
def World.Fresh (w : World) : Action → Prop
  | .enqueue row => row.envelope ∉ w.envelopes
  | _ => True

section Steps

variable {settings : Settings} {floor b : Nat} {w : World} {n : Notifier} {row : Pending}

/-- The process goes on without an event. -/
theorem Live.goes (live : Live settings floor w) {n' : Notifier} (running : Running settings floor (w.run n') b n') :
    Live settings floor (w.run n') :=
  ⟨live.nodup, live.clock, live.account, .running b n' rfl running⟩

theorem onPoll_live (live : Live settings floor w) (running : Running settings floor w b n) :
    Live settings floor (w.onPoll n) := by
  unfold World.onPoll
  cases phase : n.phase with
  | waiting =>
      have filed := running.filed
      have follows := running.follows
      obtain ⟨kept, none⟩ := filter_pending (w.queue.drop n.read)
      have rows : n.rows = n.pending := by rw [Notifier.rows, phase]; rfl
      rw [phase] at filed
      refine live.goes ⟨running.file, running.baseline, filed, ?_, trivial⟩
      constructor
      case read => exact le_rfl
      case place => exact follows.place.trans follows.read
      case logRead => exact follows.logRead
      case readIds => exact follows.readIds
      case rows =>
        have before := follows.rows
        rw [rows] at before
        show (n.pending ++ _).filter _ =
          ((w.queue.take w.queue.length).drop (position (w.queue.map Row.envelope) n.state.cursor)).map Row.pending
        rw [List.filter_append, before, kept, ← List.map_append]
        congr 1
        rw [List.take_length, ← List.drop_append_of_le_length, List.take_append_drop]
        rw [List.length_take, min_eq_left follows.read]
        exact follows.place
      case once =>
        have once := follows.once
        rw [rows] at once
        show (((n.pending ++ _).filter _).map _).Nodup
        rwa [List.filter_append, none, List.append_nil]
      all_goals
        intro row member renotify
        obtain old | new := List.mem_append.mp (show row ∈ n.pending ++ _ from member)
      case queued.inl => exact follows.queued row (rows ▸ old) renotify
      case due.inl => exact follows.due row (rows ▸ old) renotify
      all_goals exact absurd (List.mem_filter.mpr ⟨new, renotify⟩) (none ▸ List.not_mem_nil)
  | polled | reviewed | posting | settled => exact live

/-- What the process knows of the read log after it has read on. -/
theorem remembered_drop {log : List String} {k : Nat} :
    (log.drop k).foldl remember (remembered (log.take k)) = remembered log := by
  unfold remembered
  rw [← List.foldl_append, List.take_append_drop]

theorem onReview_live (live : Live settings floor w) (running : Running settings floor w b n) (readable : Bool) :
    Live settings floor (w.onReview settings readable n) := by
  unfold World.onReview
  cases phase : n.phase with
  | polled =>
      have filed := running.filed
      have follows := running.follows
      rw [phase] at filed
      have rows : n.rows = n.pending := by rw [Notifier.rows, phase]; rfl
      dsimp only
      -- what it has read of the log
      obtain ⟨logRead, readIds, same, sameIds, inside, known⟩ : ∃ logRead readIds,
          (if readable then w.log.length else n.logRead) = logRead ∧
          (if readable then (w.log.drop n.logRead).foldl remember n.readIds else n.readIds) = readIds ∧
          logRead ≤ w.log.length ∧ readIds = remembered (w.log.take logRead) := by
        cases readable with
        | false => exact ⟨n.logRead, n.readIds, rfl, rfl, follows.logRead, follows.readIds⟩
        | true =>
            refine ⟨w.log.length, _, rfl, rfl, le_rfl, ?_⟩
            rw [if_pos rfl, List.take_length, follows.readIds, remembered_drop]
      rw [same, sameIds]
      have done : Reviewed settings readIds w.now n.state.watch n.queuedRenotify
          (review settings readIds w.now n.state.watch n.queuedRenotify) := reviewed _ _
      generalize review settings readIds w.now n.state.watch n.queuedRenotify = result at done
      obtain ⟨watch, queued, again⟩ := result
      have next : Follows settings w.queue w.log w.now { n with
          state := { n.state with watch }
          pending := n.pending ++ again
          readIds
          logRead
          queuedRenotify := queued
          phase := .reviewed } := by
        have fresh : again.filter (!·.renotify) = [] :=
          List.filter_eq_nil_iff.mpr fun row member => by simp [(done.again row member).1]
        have all : again.filter (·.renotify) = again :=
          List.filter_eq_self.mpr fun row member => (done.again row member).1
        have extended : queued = n.queuedRenotify ++ again.map Pending.envelope := done.extended
        constructor
        case read => exact follows.read
        case place => exact follows.place
        case logRead => exact inside
        case readIds => exact known
        case rows =>
          have before := follows.rows
          rw [rows] at before
          show (n.pending ++ again).filter _ = _
          rw [List.filter_append, fresh, List.append_nil, before]
        case once =>
          have before := follows.once
          rw [rows] at before
          show (((n.pending ++ again).filter _).map _).Nodup
          rw [List.filter_append, all, List.map_append]
          refine List.nodup_append.mpr ⟨before, done.nodup, fun a old b new same => ?_⟩
          obtain ⟨row, member, rfl⟩ := List.mem_map.mp old
          obtain ⟨other, there, rfl⟩ := List.mem_map.mp new
          obtain ⟨member, renotify⟩ := List.mem_filter.mp member
          refine (done.again other there).2.1 (same ▸ ?_)
          exact (follows.queued row (rows ▸ member) renotify).1
        case queued =>
          intro row member renotify
          obtain old | new := List.mem_append.mp (show row ∈ n.pending ++ again from member)
          · obtain ⟨listed, before⟩ := follows.queued row (rows ▸ old) renotify
            exact ⟨extended ▸ List.mem_append_left _ listed, before⟩
          · obtain ⟨-, -, item, watched, same, -⟩ := done.again row new
            refine ⟨extended ▸ List.mem_append_right _ (List.mem_map_of_mem new), ?_⟩
            exact same ▸ (filed.watch item watched).1
        case due =>
          intro row member renotify item watched own
          have watched : item ∈ n.state.watch := done.kept.subset watched
          obtain old | new := List.mem_append.mp (show row ∈ n.pending ++ again from member)
          · exact follows.due row (rows ▸ old) renotify item watched own
          · obtain ⟨-, -, other, there, same, due⟩ := done.again row new
            rwa [List.inj_on_of_nodup_map filed.nodup watched there (own.trans same.symm)]
      have left := filed.sub done.kept
      split_ifs with changed
      · exact ⟨live.nodup, live.clock, live.account, .running b _ rfl
          ⟨rfl, running.baseline, left, next, done.unread⟩⟩
      · have whole : watch = n.state.watch := done.kept.eq_of_length (not_not.mp changed)
        refine live.goes ⟨?_, running.baseline, left, next, done.unread⟩
        subst whole
        exact running.file
  | waiting | reviewed | posting | settled => exact live

/-- The row from the queue that stands first: nothing is known of it yet. -/
theorem Running.head {rest : List Pending} (running : Running settings floor w b n) (nodup : w.envelopes.Nodup)
    (rows : n.rows = row :: rest) (first : row.renotify = false) : ∃ r : Row, row = r.pending ∧
      w.envelopes[position w.envelopes n.state.cursor]? = some r.envelope ∧
      row.envelope ∉ passed w.envelopes n.state.cursor := by
  obtain ⟨r, -, rfl, here, -⟩ := running.follows.head rows first
  exact ⟨r, rfl, here, notMem_passed nodup here⟩

theorem onNext_live (live : Live settings floor w) (running : Running settings floor w b n) :
    Live settings floor (w.onNext settings n) := by
  unfold World.onNext
  have filed := running.filed
  have follows := running.follows
  have unread := running.phase
  cases phase : n.phase with
  | reviewed =>
      rw [phase] at filed
      rw [At, phase] at unread
      cases pending : n.pending with
      | nil =>
          have rows : Phase.waiting.rows ++ [] = n.rows := by rw [Notifier.rows, phase, pending]; rfl
          exact live.goes ⟨running.file, running.baseline, filed, follows.moved rows, trivial⟩
      | cons row rest =>
          have rows : n.rows = row :: rest := by rw [Notifier.rows, phase, pending]; rfl
          dsimp only
          split_ifs with found first gone
          · -- the log has it
            obtain ⟨read, first⟩ := found
            obtain ⟨r, rfl, here, -⟩ := running.head live.nodup rows first
            have account : Account settings w.log (.found r.envelope :: w.history) := by
              refine live.account.record ?_ nofun nofun nofun
              rintro _ ⟨⟩
              rw [follows.readIds, remembered_eq] at read
              have inside := List.mem_of_mem_drop (Recent.rtake_eq_drop _ _ ▸ read)
              exact List.mem_of_mem_take (List.mem_dedup.mp inside)
            have remarked : Filed settings floor w.envelopes (.found r.envelope :: w.history) b [] n.state :=
              filed.remark (fun _ => rfl) (fun _ => rfl) nofun nofun
            have next := remarked.next live.nodup here r.hex (.inl List.mem_cons_self)
              (fun _ member => absurd member List.not_mem_nil)
            exact ⟨live.nodup, live.clock, account, .running b _ rfl ⟨rfl, running.baseline, next,
              follows.leave_first rows first live.nodup rfl rfl fun _ member => .inl member, trivial⟩⟩
          · -- its first POST begins
            obtain ⟨r, rfl, -, outside⟩ := running.head live.nodup rows first
            have even := filed.first r.envelope outside
            have account : Account settings w.log (.first r.envelope :: w.history) := by
              refine live.account.record nofun nofun nofun ?_
              rintro _ ⟨⟩
              exact even.le
            have begun : Filed settings floor w.envelopes (.first r.envelope :: w.history) b [r.envelope]
                n.state := by
              refine filed.record (fun _ => rfl) (fun _ => rfl) fun other there => ?_
              have same := filed.first other there
              by_cases own : r.envelope = other
              · subst own
                rw [List.count_cons_self, List.count_cons_of_ne (by simp), List.count_singleton_self, same]
                rfl
              · rw [List.count_cons_of_ne (by simpa using own), List.count_cons_of_ne (by simp), same,
                  List.count_singleton, if_neg (by simpa using own)]
                rfl
            refine ⟨live.nodup, live.clock, account, .running b _ rfl ⟨running.file, running.baseline, begun,
              follows.moved rows.symm, ?_⟩⟩
            exact ⟨nofun, settings.attempts_range.1, fun again => absurd again Bool.false_ne_true⟩
          · have again : row.renotify = true := by simpa using first
            exact live.goes ⟨running.file, running.baseline, filed,
              follows.leave_again rows again rfl rfl fun _ member => .inl member, trivial⟩
          · -- a POST that re-notifies begins
            have again : row.renotify = true := by simpa using first
            obtain ⟨item, watched⟩ := Option.ne_none_iff_exists'.mp (mt Option.isNone_iff_eq_none.mpr gone)
            have same : item.envelope = row.envelope := by simpa using List.find?_some watched
            have watched := List.mem_of_find?_eq_some watched
            obtain ⟨few, waited⟩ := follows.due row (rows ▸ List.mem_cons_self) again item watched same
            have tracked := (filed.watch item watched).2
            have account : Account settings w.log
                (.again row.envelope w.now (w.log.take n.logRead) :: w.history) := by
              refine live.account.record nofun ?_ nofun nofun
              rintro _ _ _ ⟨⟩
              refine ⟨List.take_prefix _ _, ?_, ?_, ?_⟩
              · rw [← remembered_eq, ← follows.readIds, ← same]
                exact unread item watched
              · obtain ⟨last, posted, value, -⟩ := tracked.last
                refine ⟨last, same ▸ posted, ?_⟩
                rw [value] at waited
                have waited : (last : ℚ) + settings.renotifyMs ≤ w.now := by
                  simpa [Number.value, Number.ofNat] using waited
                exact_mod_cast waited
              · rw [tracked.posts, same] at few
                exact few
            have begun : Filed settings floor w.envelopes
                (.again row.envelope w.now (w.log.take n.logRead) :: w.history) b [] n.state :=
              filed.remark (fun _ => rfl) (fun _ => rfl) nofun nofun
            refine ⟨live.nodup, live.clock, account, .running b _ rfl ⟨running.file, running.baseline, ?_,
              follows.moved rows.symm, ?_⟩⟩
            · have idle : Phase.working (.posting row []) = [] := by simp [Phase.working, Phase.rows, again]
              exact idle ▸ begun
            · exact ⟨nofun, settings.attempts_range.1, fun _ => ⟨item, watched, same⟩⟩
  | waiting | polled | posting | settled => exact live

theorem onAnswer_live (live : Live settings floor w) (running : Running settings floor w b n) (ok : Bool) :
    Live settings floor (w.onAnswer settings ok n) := by
  unfold World.onAnswer
  have filed := running.filed
  have at' := running.phase
  cases phase : n.phase with
  | posting row outcomes =>
      rw [phase] at filed
      rw [At, phase] at at'
      obtain ⟨failed, short, held⟩ := at'
      have rows : [row] ++ n.pending = n.rows := by rw [Notifier.rows, phase]; rfl
      dsimp only
      split_ifs with ended
      · have account : Account settings w.log
            (.settled row.envelope row.renotify (outcomes ++ [ok]) w.now :: w.history) :=
          live.account.record nofun nofun nofun nofun
        have settled : Filed settings floor w.envelopes
            (.settled row.envelope row.renotify (outcomes ++ [ok]) w.now :: w.history) b
            (Phase.working (.settled row (outcomes ++ [ok]))) n.state :=
          filed.remark (fun _ => rfl) (fun _ => rfl) nofun nofun
        refine ⟨live.nodup, live.clock, account, .running b _ rfl ⟨running.file, running.baseline, settled,
          running.follows.moved rows, ⟨?_, ?_⟩, held, fun first => ⟨w.now, ?_⟩⟩⟩
        · rw [List.dropLast_concat]
          exact failed
        · rw [List.getLast?_concat, List.length_append, List.length_singleton] at *
          obtain rfl | last := ended
          · exact .inl rfl
          · exact .inr (le_antisymm short last)
        · rw [← first]
          exact List.mem_cons_self
      · obtain ⟨refused, more⟩ := not_or.mp ended
        refine live.goes ⟨running.file, running.baseline, filed, running.follows.moved rows, ?_, not_le.mp more, held⟩
        intro answer member
        obtain old | new := List.mem_append.mp member
        · exact failed answer old
        · rw [List.mem_singleton.mp new]
          exact Bool.eq_false_of_not_eq_true refused
  | waiting | polled | reviewed | settled => exact live

theorem onSave_live (live : Live settings floor w) (running : Running settings floor w b n) :
    Live settings floor (w.onSave settings n) := by
  unfold World.onSave
  have filed := running.filed
  have at' := running.phase
  cases phase : n.phase with
  | settled row outcomes =>
      rw [phase] at filed
      rw [At, phase] at at'
      obtain ⟨ended, held, posted⟩ := at'
      have rows : n.rows = row :: n.pending := by rw [Notifier.rows, phase]; rfl
      dsimp only
      cases renotify : row.renotify with
      | true =>
          obtain ⟨item, watched, same⟩ := held renotify
          have few := (running.follows.due row (rows ▸ List.mem_cons_self) renotify item watched same).1
          have tracked := (filed.watch item watched).2
          have account : Account settings w.log (.saved row.envelope true w.now :: w.history) := by
            refine live.account.record nofun nofun (fun other hit => ?_) nofun
            obtain rfl : row.envelope = other := of_decide_eq_true hit
            rw [tracked.posts, same] at few
            exact few
          have idle : Phase.working (.settled row outcomes) = [] := by simp [Phase.working, Phase.rows, renotify]
          rw [idle] at filed
          refine ⟨live.nodup, live.clock, account, .running b _ rfl ⟨rfl, running.baseline,
            filed.after_again renotify watched same live.clock, ?_, trivial⟩⟩
          rw [if_pos rfl]
          refine running.follows.leave_again rows renotify rfl ?_ fun item member => ?_
          · rw [Saved.after, if_pos renotify]
          · rw [Saved.after, if_pos renotify] at member
            obtain ⟨old, -⟩ | ⟨old, -, here, rfl⟩ := mem_touch filed.nodup member
            · exact .inl old
            · exact .inr here
      | false =>
          obtain ⟨r, rfl, here, -⟩ := running.head live.nodup rows renotify
          obtain ⟨now, settled⟩ := posted renotify
          have account : Account settings w.log (.saved r.pending.envelope false w.now :: w.history) :=
            live.account.record nofun nofun nofun nofun
          have next := filed.after_first live.nodup here (.inr ⟨outcomes, now, settled, ended⟩)
            (fun other member => List.mem_singleton.mp member) live.clock (outcomes.getLast? = some true)
          refine ⟨live.nodup, live.clock, account, .running b _ rfl ⟨rfl, running.baseline, next, ?_, trivial⟩⟩
          obtain ⟨cursor, watch⟩ := @after_first settings w.now n.state _ (outcomes.getLast? = some true) renotify
          rw [if_neg Bool.false_ne_true]
          exact running.follows.leave_first rows renotify live.nodup rfl cursor watch
  | waiting | polled | reviewed | posting => exact live

theorem onKill_live (live : Live settings floor w) (running : Running settings floor w b n) :
    Live settings floor (w.onKill n) := by
  have filed := running.filed
  -- between two POSTs nothing is lost
  have stops : n.phase.working = [] → Live settings floor { w with notifier := none } := by
    intro idle
    rw [idle] at filed
    exact ⟨live.nodup, live.clock, live.account, .stopped b _ running.file rfl running.baseline filed⟩
  unfold World.onKill
  have cuts : ∀ row : Pending, n.phase.rows = [row] → Live settings floor { w with
      notifier := none
      history := if row.renotify then w.history else .cut row.envelope :: w.history } := by
    intro row rows
    cases renotify : row.renotify with
    | true => exact stops (by simp [Phase.working, rows, renotify])
    | false =>
        have working : n.phase.working = [row.envelope] := by simp [Phase.working, rows, renotify]
        have account : Account settings w.log (.cut row.envelope :: w.history) :=
          live.account.record nofun nofun nofun nofun
        refine ⟨live.nodup, live.clock, account, .stopped b _ running.file rfl running.baseline ?_⟩
        refine filed.record (fun _ => rfl) (fun _ => rfl) fun other outside => ?_
        have same := filed.first other outside
        rw [working] at same
        by_cases own : row.envelope = other
        · subst own
          rw [List.count_cons_of_ne (by simp), List.count_cons_self, same, List.count_singleton_self]
          rfl
        · rw [List.count_cons_of_ne (by simp), List.count_cons_of_ne (by simpa using own), same,
            List.count_singleton, if_neg (by simpa using own)]
          rfl
  cases phase : n.phase with
  | posting row outcomes => exact cuts row (by rw [phase]; rfl)
  | settled row outcomes => exact cuts row (by rw [phase]; rfl)
  | waiting | polled | reviewed => exact stops (by rw [phase]; rfl)

/-! ### The start -/

/-- The rows after the cursor, found from the end. -/
theorem rowsAfter_eq {queue : List Row} (nodup : (queue.map Row.envelope).Nodup) {cursor : String}
    (member : cursor ∈ queue.map Row.envelope) :
    rowsAfter cursor queue = queue.drop (position (queue.map Row.envelope) (some cursor)) := by
  have names : (rowsAfter cursor queue).map Row.envelope = afterLast cursor (queue.map Row.envelope) := by
    have reversed : (queue.map Row.envelope).reverse = queue.reverse.map Row.envelope := List.map_reverse.symm
    rw [rowsAfter, afterLast, List.map_reverse, reversed, List.takeWhile_map]
    rfl
  have suffix : rowsAfter cursor queue <:+ queue := by
    rw [← List.reverse_prefix, rowsAfter, List.reverse_reverse]
    exact List.takeWhile_prefix _
  rw [Cursor.afterLast_eq_drop nodup member, ← List.map_drop] at names
  have length := congrArg List.length names
  rw [List.length_map, List.length_map] at length
  exact (List.suffix_of_suffix_length_le suffix (List.drop_suffix _ queue) length.le).eq_of_length length

/-- A process that has read the queue to its end, and has the rows after its cursor to do. -/
theorem Live.starts (live : Live settings floor w) {state : Saved}
    (file : w.file = some (stateFile settings.id state)) (baseline : w.baseline = some b)
    (filed : Filed settings floor w.envelopes w.history b [] state) (rows : List Row)
    (left : rows = w.queue.drop (position w.envelopes state.cursor)) :
    Live settings floor (w.run ⟨state, rows.map Row.pending, w.queue.length, [], 0, [], .waiting⟩) := by
  obtain ⟨kept, none⟩ := filter_pending rows
  have never : ∀ row ∈ rows.map Row.pending, ¬ row.renotify = true := fun row member renotify =>
    absurd (List.mem_filter.mpr ⟨member, renotify⟩) (none ▸ List.not_mem_nil)
  have inside := Cursor.position_le filed.stands.member
  rw [World.envelopes, List.length_map] at inside
  refine live.goes ⟨file, baseline, filed, ?_, trivial⟩
  constructor
  case read => exact le_rfl
  case place => exact inside
  case rows =>
    show (rows.map Row.pending).filter _ =
      ((w.queue.take w.queue.length).drop (position w.envelopes state.cursor)).map Row.pending
    rw [kept, List.take_length, left]
  case logRead => exact Nat.zero_le _
  case readIds => rfl
  case once =>
    show (((rows.map Row.pending).filter _).map _).Nodup
    rw [none]
    exact List.nodup_nil
  case queued => exact fun row member renotify => absurd renotify (never row member)
  case due => exact fun row member renotify => absurd renotify (never row member)

theorem onStart_live (live : Live settings floor w) : Live settings floor (w.onStart settings) := by
  unfold World.onStart
  cases live.stage with
  | running b n notifier running =>
      rw [notifier]
      exact live
  | cold bottom file notifier baseline history =>
      rw [notifier, file]
      dsimp only
      -- the baseline: the end of the queue
      have last : w.envelopes.getLast? = (w.envelopes.take w.queue.length).getLast? := by
        rw [World.envelopes, List.take_of_length_le (List.length_map _).le]
      have inside : w.queue.length ≤ w.envelopes.length := (List.length_map _).ge
      have filed : Filed settings floor w.envelopes w.history w.queue.length [] ⟨w.envelopes.getLast?, []⟩ := by
        have stands : Stands w.envelopes w.queue.length (Done settings w.history) w.envelopes.getLast? :=
          last ▸ Cursor.stands_getLast? live.nodup inside
        refine ⟨stands, bottom ▸ Nat.zero_le _, ?_, List.nodup_nil, nofun, Nat.zero_le _, ?_, ?_⟩
        · intro envelope same
          obtain ⟨row, -, rfl⟩ := List.mem_map.mp (List.mem_of_getLast? same)
          exact row.hex
        all_goals
          intro envelope _
          rw [history]
          rfl
      have begun : Live settings floor ({ w with baseline := some w.queue.length }.save settings
          ⟨w.envelopes.getLast?, []⟩) :=
        ⟨live.nodup, live.clock, live.account, .stopped _ _ rfl notifier rfl filed⟩
      refine begun.starts rfl rfl filed [] ?_
      show [] = w.queue.drop (position w.envelopes w.envelopes.getLast?)
      rw [last, Cursor.position_getLast? live.nodup inside, List.drop_length]
  | stopped b saved file notifier baseline filed =>
      rw [notifier, file]
      dsimp only
      rw [loadState_saved settings.id_length (filed.valid live.account)]
      dsimp only
      cases cursor : saved.cursor with
      | none => exact live.starts file baseline filed w.queue (by rw [cursor]; rfl)
      | some envelope =>
          have member := filed.stands.member envelope cursor
          dsimp only
          rw [if_pos member]
          refine live.starts file baseline filed _ ?_
          rw [cursor]
          exact rowsAfter_eq live.nodup member

/-- The queue, the log and the clock go on beside the process. -/
theorem Stage.beside (stage : Stage settings floor w) {queue : List Row} {log : List String} {now : Nat}
    (filed : ∀ b working saved, Filed settings floor w.envelopes w.history b working saved →
      Filed settings floor (queue.map Row.envelope) w.history b working saved)
    (follows : ∀ n, (∀ e, n.state.cursor = some e → e ∈ w.envelopes) →
      Follows settings w.queue w.log w.now n → Follows settings queue log now n) :
    Stage settings floor { w with queue, log, now } := by
  cases stage with
  | cold bottom file notifier baseline history => exact .cold bottom file notifier baseline history
  | stopped b saved file notifier baseline here =>
      exact .stopped b saved file notifier baseline (filed _ _ _ here)
  | running b n notifier running =>
      exact .running b n notifier ⟨running.file, running.baseline, filed _ _ _ running.filed,
        follows n running.filed.stands.member running.follows, running.phase⟩

/-- **Every step keeps the invariant.** -/
theorem live_step (live : Live settings floor w) {action : Action} (fresh : w.Fresh action) :
    Live settings floor (w.step settings action) := by
  have goes : ∀ act : Notifier → World, (∀ b n, Running settings floor w b n → Live settings floor (act n)) →
      Live settings floor (w.notifier.elim w act) := by
    intro act keeps
    cases live.stage with
    | cold _ _ notifier => exact notifier ▸ live
    | stopped _ _ _ notifier => exact notifier ▸ live
    | running b n notifier running =>
        rw [notifier]
        exact keeps b n running
  cases action with
  | enqueue row =>
      have envelopes : World.envelopes { w with queue := w.queue ++ [row] } = w.envelopes ++ [row.envelope] :=
        List.map_append
      refine ⟨?_, live.clock, live.account, ?_⟩
      · show (World.envelopes _).Nodup
        rw [World.step, envelopes]
        exact List.concat_eq_append ▸ live.nodup.concat fresh
      · refine live.stage.beside (fun _ _ _ filed => ?_) fun _ member follows => follows.enqueue row member
        rw [List.map_append]
        exact filed.append [row.envelope]
  | markRead envelope =>
      exact ⟨live.nodup, live.clock, live.account.logged [envelope],
        live.stage.beside (fun _ _ _ filed => filed) fun _ _ follows => follows.logged [envelope]⟩
  | tick ms =>
      exact ⟨live.nodup, min_le_right _ _, live.account, live.stage.beside (fun _ _ _ filed => filed)
        fun _ _ follows => follows.tick (le_min (Nat.le_add_right _ _) live.clock)⟩
  | start => exact onStart_live live
  | poll => exact goes _ fun b n running => onPoll_live live running
  | review readable => exact goes _ fun b n running => onReview_live live running readable
  | next => exact goes _ fun b n running => onNext_live live running
  | answer ok => exact goes _ fun b n running => onAnswer_live live running ok
  | save => exact goes _ fun b n running => onSave_live live running
  | kill => exact goes _ fun b n running => onKill_live live running

end Steps

/-! ### Over a run -/

/-- Before the first start of the notifier. -/
structure World.Cold (w : World) : Prop where
  nodup : w.envelopes.Nodup
  clock : w.now ≤ MAX_TIME
  file : w.file = none
  notifier : w.notifier = none
  baseline : w.baseline = none
  history : w.history = []

/-- What the state in the file says, and what was done. -/
structure Notified (settings : Settings) (w : World) : Prop where
  /-- A state that was saved is accepted, and of what was queued after the baseline its cursor has passed
  what is done. -/
  accepted : ∀ file, w.file = some file → ∃ saved b, loadState settings.id file = .ok saved ∧
    w.baseline = some b ∧ Stands w.envelopes b (Done settings w.history) saved.cursor
  account : Account settings w.log w.history

/-- The place of the cursor in the file. -/
def World.place (settings : Settings) (w : World) : Option Nat := do
  let file ← w.file
  let saved ← (loadState settings.id file).toOption
  some (position w.envelopes saved.cursor)

section Whole

variable {settings : Settings} {floor : Nat} {w : World} {actions : List Action}

theorem World.Cold.live (cold : w.Cold) : Live settings 0 w where
  nodup := cold.nodup
  clock := cold.clock
  account := by
    rw [cold.history]
    refine ⟨nofun, fun later _ _ _ _ split => ?_, fun _ => Nat.zero_le _, fun _ => Nat.zero_le _⟩
    exact absurd split.symm (List.append_ne_nil_of_right_ne_nil later (List.cons_ne_nil _ _))
  stage := .cold rfl cold.file cold.notifier cold.baseline cold.history

/-- What is in the file, if there is one. -/
theorem Live.filed (live : Live settings floor w) {file : List UInt8} (there : w.file = some file) :
    ∃ b saved working, file = stateFile settings.id saved ∧ w.baseline = some b ∧
      Filed settings floor w.envelopes w.history b working saved := by
  cases live.stage with
  | cold _ absent => exact absurd (absent.symm.trans there) nofun
  | stopped b saved file notifier baseline filed =>
      exact ⟨b, saved, [], Option.some_inj.mp (there.symm.trans file), baseline, filed⟩
  | running b n notifier running =>
      exact ⟨b, n.state, _, Option.some_inj.mp (there.symm.trans running.file), running.baseline, running.filed⟩

theorem place_eq {saved : Saved} (valid : saved.Valid) (file : w.file = some (stateFile settings.id saved)) :
    w.place settings = some (position w.envelopes saved.cursor) := by
  rw [World.place, file, Option.bind_eq_bind, Option.bind_some, loadState_saved settings.id_length valid]
  rfl

/-- The floor can be raised to where the cursor stands. -/
theorem Live.place (live : Live settings floor w) {k : Nat} (place : w.place settings = some k) :
    floor ≤ k + 1 ∧ Live settings (k + 1) w := by
  cases stage : live.stage with
  | cold _ absent =>
      rw [World.place, absent] at place
      cases place
  | stopped b saved file notifier baseline filed =>
      obtain rfl := Option.some_inj.mp ((place_eq (filed.valid live.account) file).symm.trans place)
      exact ⟨filed.floor, live.nodup, live.clock, live.account,
        .stopped b saved file notifier baseline { filed with floor := le_rfl }⟩
  | running b n notifier running =>
      obtain rfl := Option.some_inj.mp
        ((place_eq (running.filed.valid live.account) running.file).symm.trans place)
      exact ⟨running.filed.floor, live.nodup, live.clock, live.account,
        .running b n notifier { running with filed := { running.filed with floor := le_rfl } }⟩

theorem run_live (live : Live settings floor w) (fresh : Meets (World.step settings) World.Fresh w actions) :
    Live settings floor (runs settings w actions) :=
  @Meets.keeps _ _ _ _ (Live settings floor) (fun _ _ live fresh => live_step live fresh) w actions live fresh

/-- **What the webhook wake promises.** Over every run with starts and kills anywhere, with any answers to its
POSTs, the file is one that `loadState` accepts, what its cursor has passed was posted until an answer or the
last attempt or was found in the read log, and the history is accounted for. -/
theorem notifies (cold : w.Cold) (fresh : Meets (World.step settings) World.Fresh w actions) :
    Notified settings (runs settings w actions) := by
  have live := run_live cold.live fresh
  refine ⟨fun file there => ?_, live.account⟩
  obtain ⟨b, saved, working, rfl, baseline, filed⟩ := live.filed there
  exact ⟨saved, b, loadState_saved settings.id_length (filed.valid live.account), baseline, filed.stands⟩

end Whole

/-! ### An envelope that is posted -/

/-- The flags as they are without arguments. -/
def sampleSettings : Settings where
  id := "wake"
  attempts := 6
  renotifyMs := 720000
  renotifyMax := 2
  id_length := by decide
  attempts_range := by decide
  renotifyMs_range := by decide
  renotifyMax_range := by decide

theorem isHex64_first : isHex64 (String.ofList (List.replicate 64 'a')) = true := by decide

def firstRow : Row := ⟨String.ofList (List.replicate 64 'a'), .task, none, isHex64_first, nofun⟩

/-- The first start, before anything is queued. -/
theorem coldStart : World.Cold {} := ⟨List.nodup_nil, Nat.zero_le _, rfl, rfl, rfl, rfl⟩

def firstPost : List Action :=
  [.enqueue firstRow, .poll, .review true, .next, .answer false, .answer true, .save]

theorem fresh_firstPost : Meets (World.step sampleSettings) World.Fresh {} ([.start] ++ firstPost) :=
  ⟨trivial, List.not_mem_nil, trivial, trivial, trivial, trivial, trivial, trivial, trivial⟩

theorem notifies_firstPost : Notified sampleSettings (runs sampleSettings {} ([.start] ++ firstPost)) ∧
    .settled firstRow.envelope false [false, true] 0 ∈
      (runs sampleSettings {} ([.start] ++ firstPost)).history := by
  exact ⟨notifies coldStart fresh_firstPost, List.mem_cons_of_mem _ List.mem_cons_self⟩

end Nvoy.Watch.Webhook
