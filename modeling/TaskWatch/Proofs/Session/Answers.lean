import Mathlib.Algebra.GroupWithZero.Nat
import TaskWatch.Proofs.Run.Script
import TaskWatch.Proofs.Session.Course
import TaskWatch.Proofs.Session.Facet
import TaskWatch.Proofs.Store.Forward

/-!
# What answers come to

What the sessions of a task do about the answers to their requests depends on the record of the task
and on the answers alone: which callbacks are called, and what becomes of the record. It does not
depend on how long the answers take, on the intervals between the requests, or on which session of the
task deals with which answer. What is still to be done about a task is therefore the same after a turn
of its session, but for what has been done in the turn.

## Main definitions

* `Machine.callsFor`, `lifecycleCalls`, `answered` — which callbacks have been called for a task, and
  how many requests have been answered.
* `Hooks.account` — what a list of answers comes to.
* `Backend.Answers` — a fetcher answers with a list of answers, each in due time.
* `Facet.DealsWith` — what a session does about an answer.
* `Facet.Owes` — what is still to be done about a task, and by when.

## Main results

* `Facet.Owes.turn` — a turn pays what it takes off the debt.
* `Facet.Owes.passes` — so does time, and when the time that is given is over everything is paid.
-/

namespace TaskWatch

variable {σ κ : Type}

/-- The answer to a request. -/
abbrev Answer : Type := Except FetchError Report

/-! ### Calls of callbacks and fetchers -/

/-- The callback or fetcher that is called. -/
def Glimpse.call? (g : Glimpse κ) : Option (κ × Occasion) :=
  match g.what with
  | .calls label occasion => some (label, occasion)
  | _ => none

/-- The callbacks and fetchers that are called. -/
def Glimpse.callsIn (seen : List (Glimpse κ)) : List (κ × Occasion) := seen.filterMap call?

theorem Glimpse.callsIn_append (seen seen' : List (Glimpse κ)) :
    callsIn (seen ++ seen') = callsIn seen ++ callsIn seen' :=
  List.filterMap_append

/-- The callbacks among them that belong to the lifecycle of a session that goes on. -/
def lifecycleCalls (calls : List (κ × Occasion)) : List (κ × Occasion) :=
  calls.filter fun p => p.2.isLifecycle

/-- Whether a fetcher is asked and has the answer. -/
def Backend.hasAnswered (b : Backend κ) : κ × Occasion → Bool
  | (label, .fetching request turn) =>
    match b.progress label request turn with
    | some (.answer _) => true
    | _ => false
  | _ => false

/-- How many answers there have been. -/
def answered (b : Backend κ) (calls : List (κ × Occasion)) : Nat := calls.countP b.hasAnswered

namespace Machine

/-- What is called for a task in a state. -/
def calledFor (id : TaskId) (m : Machine σ κ) : Option (κ × Occasion) :=
  match m.control with
  | .calling label occasion => if occasion.subject? = some id then some (label, occasion) else none
  | _ => none

/-- The callbacks and fetchers that are called for a task, in the order of the calls. -/
def callsFor (id : TaskId) (states : List (Machine σ κ)) : List (κ × Occasion) :=
  states.filterMap (calledFor id)

variable {c : Consumer σ κ} {given : Code σ κ → Prop} {m m' : Machine σ κ}
  {id : TaskId} {states : List (Machine σ κ)}

theorem callsFor_append (id : TaskId) (states further : List (Machine σ κ)) :
    callsFor id (states ++ further) = callsFor id states ++ callsFor id further :=
  List.filterMap_append

theorem callsIn_shown (id : TaskId) (m : Machine σ κ) :
    Glimpse.callsIn (m.shown id) = callsFor id [m] := by
  rw [shown, callsFor, List.filterMap_cons, calledFor]
  cases m.control with
  | calling label occasion =>
    by_cases here : occasion.subject? = some id
    · simp [Control.shows, here, Glimpse.callsIn, Glimpse.call?]
    · simp [Control.shows, here, Glimpse.callsIn]
  | telling number n =>
    rw [Control.shows, Glimpse.callsIn, List.map_map, List.filterMap_map]
    exact List.filterMap_eq_nil_iff.mpr fun _ _ => rfl
  | _ => rfl

theorem callsIn_change (number : Nat) (id : TaskId) (w w' : World κ) :
    Glimpse.callsIn (World.change number id w w') = [] := by
  rw [World.change]
  split <;> rfl

/-- What is called for a task can be seen. -/
theorem Run.callsFor_eq (run : Run c given m states m') (number : Nat) (idle : m.isIdle = true)
    (idle' : m'.isIdle = true) :
    callsFor id states = Glimpse.callsIn (glimpses number id m states) := by
  have silent : ∀ {m : Machine σ κ}, m.isIdle = true → callsFor id [m] = [] := by
    intro m idle
    rw [← callsIn_shown, shown_of_isIdle idle]
    rfl
  -- The last state is not seen before the next one, and shows nothing.
  have all : callsFor id (m :: states) =
      Glimpse.callsIn (glimpses number id m states) ++ callsFor id [m'] := by
    clear idle idle'
    induction states generalizing m with
    | nil =>
      rcases run.uncons with ⟨_, rfl⟩ | ⟨_, _, begun, _⟩
      · rfl
      · simp at begun
    | cons m₁ rest ih =>
      rcases run.uncons with ⟨none, _⟩ | ⟨_, _, begun, _, further⟩
      · simp at none
      · obtain ⟨rfl, rfl⟩ := List.cons.inj begun
        rw [glimpses, Glimpse.callsIn_append, Glimpse.callsIn_append, callsIn_change, callsIn_shown,
          List.append_nil, List.append_assoc, ← ih further]
        exact callsFor_append id [m] _
  rw [silent idle', List.append_nil, ← List.singleton_append, callsFor_append, silent idle] at all
  exact all

end Machine

/-! ### What answers come to -/

/-- A callback is called, if it is set. -/
def ofHook (label : Option κ) (occasion : Occasion) : List (κ × Occasion) :=
  label.toList.map fun label => (label, occasion)

/-- Whether a session ends with an answer. -/
def Answer.isFinal : Answer → Bool
  | .ok report => report.status.isTerminal
  | .error _ => false

/-- The record after an answer. A status that may not follow its own is passed over. -/
def Task.informed (task : Task) : Answer → Task
  | .ok report =>
    if task.status.mayBecome report.status then task.patched (.ofStatus report.status) else task
  | .error _ => task

/-- The callback that is called at the end of a session. -/
def Hooks.callsAtEnd (h : Hooks κ) (id : TaskId) (report : Report) : List (κ × Occasion) :=
  match report.status with
  | .completed => ofHook h.complete (.completed id report)
  | .failed => ofHook h.failed (.failed id report)
  | _ => []

/-- The callbacks that are called about an answer. -/
def Hooks.callsAbout (h : Hooks κ) (id : TaskId) (task : Task) : Answer → List (κ × Occasion)
  | .error e => if e.isCancellation then [] else ofHook h.error (.fetchFailed id e)
  | .ok report =>
    (if task.status.successors.contains report.status then
        ofHook h.statusChange (.statusChanged id report.status)
      else []) ++ h.callsAtEnd id report

/-- What a list of answers comes to: the callbacks that are called, and the record in the end. What
follows a final answer does not count. -/
def Hooks.account (h : Hooks κ) (id : TaskId) : Task → List Answer → List (κ × Occasion) × Task
  | task, [] => ([], task)
  | task, answer :: rest =>
    if answer.isFinal then (h.callsAbout id task answer, task.informed answer)
    else
      let further := h.account id (task.informed answer) rest
      (h.callsAbout id task answer ++ further.1, further.2)

/-! ### Answers in due time -/

/-- The longer one of the intervals. -/
def Cadence.longest (c : Cadence) : Nat := max c.processing c.queued

/-- How long a fetcher still waits from a turn on. -/
def Response.left (r : Response) (turn : Nat) : Nat := ((r.waits.drop turn).map (·.getD 0)).sum

/-- A fetcher answers the requests of a session after so many, and takes no longer for each answer
than so many milliseconds. -/
def Backend.Answers (b : Backend κ) (patience : Nat) (fetcher : κ) (id : TaskId) (made : Nat)
    (answers : List Answer) : Prop :=
  ∀ k answer, answers[k]? = some answer → ∃ r : Response, r.answer = some answer ∧
    r.left 0 ≤ patience ∧
    ∀ turn, b.progress fetcher ⟨id, made + k + 1, false⟩ turn = some (r.progress turn)

/-- A session waits for answers, until a time at the latest. -/
inductive Stint.Awaits (b : Backend κ) (patience pace : Nat) (id : TaskId) (clock : Nat) (task : Task)
    (s : Stint κ) : List Answer → Pause → Nat → Prop
  /-- It has not made a request yet. -/
  | fresh {answers : List Answer} (follows : b.Answers patience s.fetcher id s.calls answers) :
      Awaits b patience pace id clock task s answers .fresh
        (clock + answers.length * (patience + pace))
  /-- It is about to make the next one. -/
  | sleeping {answers : List Answer} {time : Nat} (last : s.last = some task.status)
      (follows : b.Answers patience s.fetcher id s.calls answers) :
      Awaits b patience pace id clock task s answers (.sleeping time)
        (max clock time + answers.length * (patience + pace))
  /-- It is making one. -/
  | fetching {answer : Answer} {answers : List Answer} {turn time : Nat} {r : Response}
      (last : s.last = some task.status) (comes : r.answer = some answer)
      (progress : ∀ turn, b.progress s.fetcher ⟨id, s.calls, false⟩ turn = some (r.progress turn))
      (follows : b.Answers patience s.fetcher id s.calls answers) :
      Awaits b patience pace id clock task s (answer :: answers) (.fetching turn (some time))
        (max clock time + (r.left (turn + 1) + pace) + answers.length * (patience + pace))

/-- What is still to be done about a task, given the answers that are still to come: callbacks are to
be called and a record is to be reached, until a time at the latest. -/
inductive Facet.Owes (b : Backend κ) (patience : Nat) (id : TaskId) (F : Facet κ)
    (answers : List Answer) : Nat → List (κ × Occasion) × Task → Prop
  /-- The task is polled for. -/
  | polls {task : Task} {s : Stint κ} {pause : Pause} {limit : Nat} (record : F.record = some task)
      (active : task.isTerminal = false) (session : F.session = some (s, pause))
      (ends : answers.any Answer.isFinal = true)
      (awaits : s.Awaits b patience F.settings.cadence.longest id F.clock task answers pause limit) :
      Owes b patience id F answers limit (F.settings.hooks.account id task answers)
  /-- Nothing is left to be done. -/
  | finished {task : Task} {limit : Nat} (record : F.record = some task) (ended : task.isTerminal = true)
      (nobody : F.session = none) : Owes b patience id F answers limit ([], task)

/-- What happens is taken off what is to be done. -/
def Facet.Next.Pays (b : Backend κ) (patience : Nat) (id : TaskId) (next : Facet.Next κ)
    (answers : List Answer) (limit : Nat) (owed : List (κ × Occasion) × Task) : Prop :=
  ∃ limit' ≤ limit, ∃ owed',
    next.1.Owes b patience id (answers.drop (answered b (Glimpse.callsIn next.2))) limit' owed' ∧
      lifecycleCalls (Glimpse.callsIn next.2) ++ owed'.1 = owed.1 ∧ owed'.2 = owed.2

variable {b : Backend κ} {patience : Nat} {id : TaskId} {F F' : Facet κ} {s : Stint κ} {task : Task}
  {answers : List Answer} {limit : Nat} {calls calls' : List (κ × Occasion)}
  {owed : List (κ × Occasion) × Task}
  {seen seen' : List (Glimpse κ)}

/-! ### An answer is dealt with -/

/-- Of what is seen, these are the callbacks of the lifecycle, and there is no answer. -/
structure Reports (b : Backend κ) (seen : List (Glimpse κ)) (calls : List (κ × Occasion)) : Prop where
  lifecycle : lifecycleCalls (Glimpse.callsIn seen) = calls
  unanswered : answered b (Glimpse.callsIn seen) = 0

theorem lifecycleCalls_append (calls calls' : List (κ × Occasion)) :
    lifecycleCalls (calls ++ calls') = lifecycleCalls calls ++ lifecycleCalls calls' :=
  List.filter_append ..

theorem answered_append (b : Backend κ) (calls calls' : List (κ × Occasion)) :
    answered b (calls ++ calls') = answered b calls + answered b calls' :=
  List.countP_append

theorem Reports.append (reports : Reports b seen calls) (reports' : Reports b seen' calls') :
    Reports b (seen ++ seen') (calls ++ calls') where
  lifecycle := by
    rw [Glimpse.callsIn_append, lifecycleCalls_append, reports.lifecycle, reports'.lifecycle]
  unanswered := by
    rw [Glimpse.callsIn_append, answered_append, reports.unanswered, reports'.unanswered]

theorem reports_nothing (none : Glimpse.callsIn seen = []) : Reports b seen [] := by
  constructor <;> rw [none] <;> rfl

theorem Reports.after {next : Facet.Next κ} (reports : Reports b next.2 calls')
    (first : Reports b seen calls) : Reports b (next.after seen).2 (calls ++ calls') :=
  first.append reports

namespace Facet

theorem reports_calls (b : Backend κ) (label : Option κ) {occasion : Occasion}
    (lifecycle : occasion.isLifecycle = true) :
    Reports b (F.calls label occasion) (ofHook label occasion) := by
  cases label with
  | none => exact reports_nothing rfl
  | some label => cases occasion with
    | statusChanged => exact ⟨rfl, rfl⟩
    | completed => exact ⟨rfl, rfl⟩
    | failed => exact ⟨rfl, rfl⟩
    | fetchFailed => exact ⟨rfl, rfl⟩
    | _ => simp [Occasion.isLifecycle] at lifecycle

theorem reports_stopped (b : Backend κ) (id : TaskId) (reason : StopReason) :
    Reports b (F.stopped id reason).2 [] := by
  rw [stopped]
  cases F.settings.hooks.stopped with
  | none => exact reports_nothing rfl
  | some label => exact ⟨rfl, rfl⟩

theorem reports_mutated (b : Backend κ) (record : Option Task) (notices : List Notice) :
    Reports b (F.mutated record notices).2 [] := by
  refine reports_nothing ?_
  rw [mutated, Glimpse.callsIn_append]
  have untold : Glimpse.callsIn (notices.flatMap F.tells) = [] := by
    induction notices with
    | nil => rfl
    | cons n rest ih => exact ih
  rw [untold, keeps]
  split <;> rfl

/-- What a session does about a report after it has dealt with the status. -/
theorem afterStatus_eq (b : Backend κ) (id : TaskId) (s : Stint κ) (report : Report) (h : Hooks κ) :
    ∃ pace ≤ F.settings.cadence.longest,
      (F.afterStatus id s report h).1 =
        { F with
          session := if report.status.isTerminal then none else some (s, .sleeping (F.clock + pace)) } ∧
      Reports b (F.afterStatus id s report h).2 (h.callsAtEnd id report) := by
  have sleeps : ∀ status : Status,
      F.settings.cadence.intervalFor status ≤ F.settings.cadence.longest := by
    intro status
    cases status with
    | processing => exact Nat.le_max_left _ _
    | _ => exact Nat.le_max_right _ _
  rw [afterStatus, Hooks.callsAtEnd]
  cases report.status with
  | queued => exact ⟨_, sleeps .queued, rfl, reports_nothing rfl⟩
  | processing => exact ⟨_, sleeps .processing, rfl, reports_nothing rfl⟩
  | completed =>
    refine ⟨_, sleeps .completed, rfl, ?_⟩
    simpa using (F.reports_stopped b id .completed).after (F.reports_calls b h.complete rfl)
  | failed =>
    refine ⟨_, sleeps .failed, rfl, ?_⟩
    simpa using (F.reports_stopped b id .failed).after (F.reports_calls b h.failed rfl)

/-- The session has dealt with an answer: the record is informed of it, and the session sleeps for no
longer than the longest interval or has ended. -/
def DealsWith (F : Facet κ) (b : Backend κ) (id : TaskId) (s : Stint κ) (task : Task)
    (answer : Answer) : Prop :=
  ∃ pace ≤ F.settings.cadence.longest,
    (F.receive id s answer).1 =
      { F with
        record := some (task.informed answer)
        session :=
          if answer.isFinal then none
          else some ({ s with last := some (task.informed answer).status },
            .sleeping (F.clock + pace)) } ∧
    Reports b (F.receive id s answer).2 (F.settings.hooks.callsAbout id task answer)

section DealsWith

variable (b : Backend κ) (id : TaskId) (record : F.record = some task)
  (last : s.last = some task.status)

include record last

/-- An error. -/
private theorem receive_error (e : FetchError) : F.DealsWith b id s task (.error e) := by
  refine ⟨F.settings.cadence.queued, Nat.le_max_right _ _, ?_, ?_⟩
  · have same : { s with last := some task.status } = s := by rw [← last]
    simp only [receive, Next.after, sleeps, paused, Task.informed, record, same, Answer.isFinal,
      Bool.false_eq_true, if_false]
  · have sleeps : Reports b (F.sleeps s F.settings.cadence.queued).2 [] := reports_nothing rfl
    rw [receive, Hooks.callsAbout]
    cases e.isCancellation with
    | true => exact sleeps
    | false => simpa using sleeps.after (F.reports_calls b F.settings.hooks.error rfl)

/-- A report whose status the record has already, or may not be given. -/
private theorem receive_passed {report : Report} (same : task.informed (.ok report) = task)
    (goes : F.receive id s (.ok report) = F.afterStatus id s report F.settings.hooks)
    (silent : task.status.successors.contains report.status = false) :
    F.DealsWith b id s task (.ok report) := by
  obtain ⟨pace, le, ends, reports⟩ := F.afterStatus_eq b id s report F.settings.hooks
  refine ⟨pace, le, ?_, ?_⟩
  · rw [goes, ends, same, ← record, ← last]
    rfl
  · rw [goes, Hooks.callsAbout, silent]
    exact reports

omit last in
/-- A report whose status the record may be given and does not have: it is written first, and then the
callback for it is called. -/
private theorem receive_written {report : Report} (differs : task.status ≠ report.status)
    (goes : F.receive id s (.ok report) = F.recordStatus id s report F.settings.hooks)
    (may : task.status.mayBecome report.status = true)
    (told : task.status.successors.contains report.status = true) :
    F.DealsWith b id s task (.ok report) := by
  have changed : (task.patched (.ofStatus report.status) == task) = false :=
    Bool.eq_false_iff.mpr fun same => differs (Task.status_eq_of_beq same).symm
  have informed : task.informed (.ok report) = task.patched (.ofStatus report.status) := if_pos may
  let written := F.mutated (some (task.patched (.ofStatus report.status))) [.store (.updated id)]
  have writes : F.receive id s (.ok report) =
      (written.1.changeStatus id s report F.settings.hooks).after written.2 := by
    rw [goes, recordStatus, record]
    simp only [may, changed, Bool.false_eq_true, if_true, if_false]
    rfl
  obtain ⟨pace, le, ends, reports⟩ := written.1.afterStatus_eq b id
    { s with last := some report.status } report F.settings.hooks
  refine ⟨pace, le, ?_, ?_⟩
  · rw [writes, informed]
    exact ends
  · rw [writes, Hooks.callsAbout, told]
    exact ((reports.after (written.1.reports_calls b F.settings.hooks.statusChange rfl)).after
      (F.reports_mutated b _ _))

/-- What a session does about an answer. -/
theorem receive_eq (answer : Answer) : F.DealsWith b id s task answer := by
  cases answer with
  | error e => exact F.receive_error b id record last e
  | ok report =>
    by_cases again : task.status = report.status
    · refine F.receive_passed b id record last ?_ ?_ ?_
      · rw [Task.informed, ← again, if_pos (Status.mayBecome_refl _)]
        rfl
      · rw [receive, last, if_pos (congrArg some again)]
      · rw [← again]
        cases task.status <;> rfl
    have differs : s.last ≠ some report.status := by simpa [last] using again
    have goes : F.receive id s (.ok report) = F.recordStatus id s report F.settings.hooks := by
      rw [receive, if_neg differs]
    have edge : task.status.mayBecome report.status = task.status.successors.contains report.status := by
      rw [Status.mayBecome, beq_false_of_ne again, Bool.false_or]
    cases may : task.status.mayBecome report.status with
    | false =>
      refine F.receive_passed b id record last ?_ ?_ (edge ▸ may)
      · rw [Task.informed, may]
        rfl
      · rw [goes, recordStatus, record]
        simp only [may, Bool.false_eq_true, if_false]
    | true => exact F.receive_written b id record again goes may (edge ▸ may)

end DealsWith

end Facet

/-! ### A turn -/

theorem Task.isTerminal_informed (active : task.isTerminal = false) (answer : Answer) :
    (task.informed answer).isTerminal = answer.isFinal := by
  cases answer with
  | error e => exact active
  | ok report =>
    rw [Task.informed]
    split
    · rfl
    · next refused =>
      -- A status that may not follow another one that is not terminal is not terminal either.
      show task.status.isTerminal = report.status.isTerminal
      have active : task.status.isTerminal = false := active
      revert active refused
      cases task.status <;> cases report.status <;> decide

theorem Hooks.account_cons (h : Hooks κ) (id : TaskId) (task : Task) (answer : Answer)
    (rest : List Answer) :
    h.account id task (answer :: rest) =
      if answer.isFinal then (h.callsAbout id task answer, task.informed answer)
      else (h.callsAbout id task answer ++ (h.account id (task.informed answer) rest).1,
        (h.account id (task.informed answer) rest).2) :=
  rfl

theorem Backend.Answers.next {fetcher : κ} {made : Nat} {answer : Answer}
    (follows : b.Answers patience fetcher id made (answer :: answers)) :
    (∃ r : Response, r.answer = some answer ∧ r.left 0 ≤ patience ∧
      ∀ turn, b.progress fetcher ⟨id, made + 1, false⟩ turn = some (r.progress turn)) ∧
    b.Answers patience fetcher id (made + 1) answers := by
  refine ⟨follows 0 answer rfl, fun k other there => ?_⟩
  obtain ⟨r, comes, left, progress⟩ := follows (k + 1) other there
  refine ⟨r, comes, left, fun turn => ?_⟩
  rw [← progress turn, Nat.add_right_comm made 1 k, Nat.add_assoc made k 1]

/-- How a fetcher goes on while it has an answer to come. -/
theorem Response.progress_cases {r : Response} {answer : Answer} (comes : r.answer = some answer)
    (turn : Nat) :
    (∃ millis, r.progress turn = .wait millis ∧ r.left turn = millis + r.left (turn + 1)) ∨
      r.progress turn = .yield ∧ r.left turn = r.left (turn + 1) ∨ r.progress turn = .answer answer := by
  rw [progress, comes, left, left]
  cases found : r.waits[turn]? with
  | none => exact .inr (.inr rfl)
  | some wait =>
    obtain ⟨inside, there⟩ := List.getElem?_eq_some_iff.mp found
    rw [List.drop_eq_getElem_cons inside, there]
    cases wait with
    | none => exact .inr (.inl ⟨rfl, by simp⟩)
    | some millis => exact .inl ⟨millis, rfl, by simp⟩

namespace Facet

variable {r : Response} {answer : Answer} {next : Facet.Next κ} {p : κ × Occasion}

/-- The fetcher is asked, and waits before it has the answer. -/
private theorem waits_pays (record : F.record = some task) (active : task.isTerminal = false)
    (last : s.last = some task.status) (comes : r.answer = some answer)
    (progress : ∀ turn, b.progress s.fetcher ⟨id, s.calls, false⟩ turn = some (r.progress turn))
    (follows : b.Answers patience s.fetcher id s.calls answers)
    (ends : (answer :: answers).any Answer.isFinal = true) {turn time : Nat} (later : F.clock ≤ time)
    (left : time + r.left (turn + 1) = F.clock + r.left turn)
    (pauses : next.1 = { F with session := some (s, .fetching turn (some time)) })
    (asks : Glimpse.callsIn next.2 = [p]) (unanswered : b.hasAnswered p = false)
    (other : p.2.isLifecycle = false) :
    next.Pays b patience id (answer :: answers)
      (F.clock + (r.left turn + F.settings.cadence.longest) +
        answers.length * (patience + F.settings.cadence.longest))
      (F.settings.hooks.account id task (answer :: answers)) := by
  have none : answered b [p] = 0 := by simp [answered, unanswered]
  have silent : lifecycleCalls [p] = [] := by simp [lifecycleCalls, other]
  rw [Next.Pays, asks, none, silent, pauses]
  refine ⟨_, ?_, _, .polls record active rfl ends (.fetching last comes progress follows), rfl, rfl⟩
  have sum : max F.clock time + (r.left (turn + 1) + F.settings.cadence.longest) ≤
      F.clock + (r.left turn + F.settings.cadence.longest) := by
    rw [Nat.max_eq_right later]
    omega
  exact Nat.add_le_add_right sum _

/-- The fetcher is asked and has the answer. -/
private theorem answer_pays (record : F.record = some task) (active : task.isTerminal = false)
    (last : s.last = some task.status)
    (follows : b.Answers patience s.fetcher id s.calls answers)
    (ends : (answer :: answers).any Answer.isFinal = true)
    (receives : next.1 = (F.receive id s answer).1)
    (asks : Glimpse.callsIn next.2 = p :: Glimpse.callsIn (F.receive id s answer).2)
    (has : b.hasAnswered p = true) (other : p.2.isLifecycle = false) :
    next.Pays b patience id (answer :: answers)
      (F.clock + F.settings.cadence.longest +
        answers.length * (patience + F.settings.cadence.longest))
      (F.settings.hooks.account id task (answer :: answers)) := by
  obtain ⟨pace, le, state, reports⟩ := F.receive_eq b id record last answer
  have one : answered b (Glimpse.callsIn next.2) = 1 := by
    rw [asks, answered, List.countP_cons_of_pos has]
    exact congrArg (· + 1) reports.unanswered
  have calls : lifecycleCalls (Glimpse.callsIn next.2) = F.settings.hooks.callsAbout id task answer := by
    rw [asks, lifecycleCalls, List.filter_cons_of_neg (by simp [other])]
    exact reports.lifecycle
  have terminal := Task.isTerminal_informed active answer
  rw [Next.Pays, one, calls, receives, state, Hooks.account_cons]
  cases final : answer.isFinal with
  | true =>
    rw [final] at terminal
    exact ⟨0, Nat.zero_le _, _, .finished rfl terminal rfl, List.append_nil _, rfl⟩
  | false =>
    rw [final] at terminal
    have ends : answers.any Answer.isFinal = true := by simpa [final] using ends
    refine ⟨_, ?_, _, .polls rfl terminal rfl ends (.sleeping rfl follows), rfl, rfl⟩
    show max F.clock (F.clock + pace) + _ ≤ _
    rw [Nat.max_eq_right (Nat.le_add_right _ _)]
    exact Nat.add_le_add_right (Nat.add_le_add_left le _) _

/-- The fetcher works on a request to which it has an answer to come. -/
theorem fetch_pays (record : F.record = some task) (active : task.isTerminal = false)
    (last : s.last = some task.status) (comes : r.answer = some answer)
    (progress : ∀ turn, b.progress s.fetcher ⟨id, s.calls, false⟩ turn = some (r.progress turn))
    (follows : b.Answers patience s.fetcher id s.calls answers)
    (ends : (answer :: answers).any Answer.isFinal = true) (turn : Nat) :
    (F.fetch b id s turn).Pays b patience id (answer :: answers)
      (F.clock + (r.left turn + F.settings.cadence.longest) +
        answers.length * (patience + F.settings.cadence.longest))
      (F.settings.hooks.account id task (answer :: answers)) := by
  have asks : Glimpse.callsIn (F.fetch b id s turn).2 =
      (s.fetcher, .fetching ⟨id, s.calls, false⟩ turn) ::
        Glimpse.callsIn (F.goesOn id s turn (b.progress s.fetcher ⟨id, s.calls, false⟩ turn)).2 :=
    Glimpse.callsIn_append _ _
  have goes : (F.fetch b id s turn).1 =
      (F.goesOn id s turn (b.progress s.fetcher ⟨id, s.calls, false⟩ turn)).1 :=
    rfl
  rw [progress] at asks goes
  obtain ⟨millis, waits, left⟩ | ⟨yields, left⟩ | arrives := r.progress_cases comes turn
  · rw [waits] at asks goes
    exact waits_pays record active last comes progress follows ends (Nat.le_add_right F.clock millis)
      (by omega) goes asks (by simp [Backend.hasAnswered, progress, waits]) rfl
  · rw [yields] at asks goes
    exact waits_pays record active last comes progress follows ends (Nat.le_refl F.clock)
      (by omega) goes asks (by simp [Backend.hasAnswered, progress, yields]) rfl
  · rw [arrives] at asks goes
    obtain ⟨limit, le, owed, paid⟩ := answer_pays record active last follows ends goes asks
      (by simp [Backend.hasAnswered, progress, arrives]) rfl
    exact ⟨limit, by omega, owed, paid⟩

theorem Next.Pays.mono (pays : next.Pays b patience id answers limit owed) {limit' : Nat}
    (le : limit ≤ limit') : next.Pays b patience id answers limit' owed := by
  obtain ⟨limit₁, le₁, owed₁, paid⟩ := pays
  exact ⟨limit₁, Nat.le_trans le₁ le, owed₁, paid⟩

/-- A turn of the session pays what it takes off the debt. -/
theorem Owes.turn (owes : F.Owes b patience id answers limit owed) {time : Nat}
    (due : F.due = some time) :
    ((F.atTime time).turn b id).Pays b patience id answers limit owed := by
  cases owes with
  | finished record ended nobody => simp [Facet.due, nobody] at due
  | @polls task s pause limit record active session ends awaits =>
    -- There is at least one answer to come.
    obtain ⟨answer, rest, rfl⟩ : ∃ answer rest, answers = answer :: rest :=
      List.exists_cons_of_ne_nil fun none => by simp [none] at ends
    have sum : ∀ pace, (answer :: rest).length * (patience + pace) =
        rest.length * (patience + pace) + (patience + pace) := fun pace => Nat.succ_mul _ _
    have asked : ∀ t : Stint κ, t.fetcher = s.fetcher → t.calls = s.calls + 1 →
        t.last = some task.status → b.Answers patience s.fetcher id s.calls (answer :: rest) →
        ((F.atTime time).fetch b id t 0).Pays b patience id (answer :: rest)
          (time + (answer :: rest).length * (patience + F.settings.cadence.longest))
          (F.settings.hooks.account id task (answer :: rest)) := by
      intro t fetcher calls last follows
      obtain ⟨⟨r, comes, left, progress⟩, follows⟩ := follows.next
      rw [← fetcher, ← calls] at progress follows
      refine (fetch_pays (F := F.atTime time) record active last comes progress follows ends 0).mono ?_
      rw [sum]
      show time + (r.left 0 + F.settings.cadence.longest) +
        rest.length * (patience + F.settings.cadence.longest) ≤ _
      omega
    cases awaits with
    | fresh follows =>
      obtain rfl : F.clock = time := by simpa [Facet.due, session] using due
      have goes : (F.atTime F.clock).turn b id = (F.atTime F.clock).fetch b id
          { s with last := F.record.map Task.status, calls := s.calls + 1 } 0 := by
        rw [Facet.turn, show (F.atTime F.clock).session = _ from session]
        rfl
      rw [goes]
      exact asked _ rfl rfl (by rw [record]; rfl) follows
    | @sleeping _ wake last follows =>
      obtain rfl : max F.clock wake = time := by
        simpa [Facet.due, session, Pause.wakeTime] using due
      have goes : (F.atTime (max F.clock wake)).turn b id = (F.atTime (max F.clock wake)).fetch b id
          { s with calls := s.calls + 1 } 0 := by
        rw [Facet.turn, show (F.atTime (max F.clock wake)).session = _ from session]
      rw [goes]
      exact asked _ rfl rfl last follows
    | @fetching _ _ turn wake r last comes progress follows =>
      obtain rfl : max F.clock wake = time := by
        simpa [Facet.due, session, Pause.wakeTime] using due
      have goes : (F.atTime (max F.clock wake)).turn b id =
          (F.atTime (max F.clock wake)).fetch b id s (turn + 1) := by
        rw [Facet.turn, show (F.atTime (max F.clock wake)).session = _ from session]
      rw [goes]
      exact fetch_pays (F := F.atTime (max F.clock wake)) record active last comes progress follows
        ends (turn + 1)

/-- As long as something is to be done, a turn is due by then. -/
theorem Owes.exists_due (owes : F.Owes b patience id answers limit owed)
    (polled : F.session ≠ none) : ∃ time, F.due = some time ∧ time ≤ limit := by
  cases owes with
  | finished record ended nobody => exact absurd nobody polled
  | polls record active session ends awaits =>
    cases awaits with
    | fresh follows => exact ⟨F.clock, by simp [Facet.due, session], Nat.le_add_right _ _⟩
    | sleeping last follows =>
      exact ⟨_, by simp [Facet.due, session, Pause.wakeTime], Nat.le_add_right _ _⟩
    | fetching last comes progress follows =>
      exact ⟨_, by simp [Facet.due, session, Pause.wakeTime],
        Nat.le_trans (Nat.le_add_right _ _) (Nat.le_add_right _ _)⟩

/-- Until a turn is due, time makes no difference. -/
theorem Owes.atTime (owes : F.Owes b patience id answers limit owed) {time : Nat}
    (early : ∀ due ∈ F.due, time ≤ due) :
    ∃ limit' ≤ limit, (F.atTime time).Owes b patience id answers limit' owed := by
  cases owes with
  | finished record ended nobody => exact ⟨limit, Nat.le_refl _, .finished record ended nobody⟩
  | polls record active session ends awaits =>
    cases awaits with
    | fresh follows =>
      have le : time ≤ F.clock := early _ (by simp [Facet.due, session])
      exact ⟨_, Nat.add_le_add_right le _, .polls record active session ends (.fresh follows)⟩
    | @sleeping _ wake last follows =>
      have le : time ≤ max F.clock wake := early _ (by simp [Facet.due, session, Pause.wakeTime])
      refine ⟨_, Nat.add_le_add_right ?_ _, .polls record active session ends (.sleeping last follows)⟩
      exact Nat.max_le.mpr ⟨le, Nat.le_max_right _ _⟩
    | @fetching _ _ turn wake r last comes progress follows =>
      have le : time ≤ max F.clock wake := early _ (by simp [Facet.due, session, Pause.wakeTime])
      refine ⟨_, Nat.add_le_add_right (Nat.add_le_add_right ?_ _) _,
        .polls record active session ends (.fetching last comes progress follows)⟩
      exact Nat.max_le.mpr ⟨le, Nat.le_max_right _ _⟩

/-- What is paid first and what is paid then. -/
theorem Next.Pays.trans (pays : next.Pays b patience id answers limit owed)
    (further : ∀ {limit' owed'} (rest : List Answer), limit' ≤ limit →
      next.1.Owes b patience id rest limit' owed' → Pays b patience id (F', seen) rest limit' owed') :
    Pays b patience id (F', next.2 ++ seen) answers limit owed := by
  obtain ⟨limit₁, le₁, owed₁, owes, calls, final⟩ := pays
  obtain ⟨limit₂, le₂, owed₂, owes', calls', final'⟩ := further _ le₁ owes
  refine ⟨limit₂, Nat.le_trans le₂ le₁, owed₂, ?_, ?_, final'.trans final⟩
  · rw [Glimpse.callsIn_append, answered_append, ← List.drop_drop]
    exact owes'
  · rw [Glimpse.callsIn_append, lifecycleCalls_append, List.append_assoc, calls', calls]

/-- So does time. When the limit has passed, nobody polls for the task any more. -/
theorem Owes.passes {deadline : Nat} (owes : F.Owes b patience id answers limit owed)
    (passes : F.Passes b id deadline seen F') :
    Next.Pays b patience id (F', seen) answers limit owed ∧
      (limit < deadline → F'.session = none) := by
  induction passes generalizing answers limit owed with
  | @finished G early =>
    obtain ⟨limit', le, owes'⟩ := owes.atTime early
    refine ⟨⟨limit', le, owed, owes', rfl, rfl⟩, fun enough => ?_⟩
    by_contra polled
    obtain ⟨time, due, intime⟩ := owes.exists_due polled
    exact Nat.not_lt.mpr (Nat.le_trans (early time due) intime) enough
  | @turn G G' time seen due intime rest ih =>
    have pays := owes.turn due
    refine ⟨pays.trans fun rest _ owes' => (ih owes').1, fun enough => ?_⟩
    obtain ⟨limit', le, owed', owes', _⟩ := pays
    exact (ih owes').2 (Nat.lt_of_le_of_lt le enough)

end Facet

end TaskWatch
