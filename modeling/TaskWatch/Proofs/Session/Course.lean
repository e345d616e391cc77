import TaskWatch.Proofs.Run.Above

/-!
# The course of a session

What a session does is determined by the record of its task, by the settings of its tracker, and by
what its requests bring and when. The course of a session says what it does from its first turn on,
request by request, with the time of each act and with the record as it then is. Time does not pass
while an answer is dealt with, so all that is done about an answer bears the time of the answer.

The course is written down without any reference to the machine, its stack or its list of suspended
sessions. It has no end if no terminal report comes, so it is given up to any number of requests.

## Main definitions

* `Sighting` — an act of a session, with its time and the record of the task.
* `Response` — what a request brings, and after which waits.
* `Course`, `Course.trace` — the course of a session, and the acts in it.
* `Machine.course` — the course of a session that has not had a turn yet.
* `Course.IsObserved` — the consumer leaves the session alone.
-/

namespace TaskWatch

variable {σ κ : Type}

/-- What a session has been seen to do. -/
structure Sighting (κ : Type) where
  /-- When it was done. -/
  time : Nat
  /-- What was done. -/
  act : Act κ
  /-- The record of the task of the session then. -/
  record : Option Task

/-- A callback is called once, if it is set. -/
def Sighting.ofHook (label : Option κ) (occasion : Occasion) (time : Nat) (record : Option Task) :
    List (Sighting κ) :=
  label.toList.map fun label => ⟨time, .calls label occasion, record⟩

/-- What a request brings. -/
structure Response where
  /-- How long the fetcher waits before it has its answer, one wait after the other: so many
  milliseconds, or, without a number, until the others have had their turn. -/
  waits : List (Option Nat)
  /-- The answer. Without one the fetcher waits forever. -/
  answer : Option (Except FetchError Report)

/-- How the fetcher goes on after a turn. -/
def Response.progress (r : Response) (turn : Nat) : Progress :=
  match r.waits[turn]?, r.answer with
  | some (some millis), _ => .wait millis
  | some none, _ => .yield
  | none, some result => .answer result
  | none, none => .hang

/-- The labels of the callbacks that are set. -/
def Hooks.labels (h : Hooks κ) : List κ :=
  [h.statusChange, h.complete, h.failed, h.error, h.stopped].flatMap Option.toList

/-- What determines the acts of a session, the record of its task apart. -/
structure Course (κ : Type) where
  /-- The session. -/
  session : SessionName
  /-- Its fetcher. -/
  fetcher : κ
  /-- The settings of its tracker. -/
  settings : Settings κ
  /-- What the request with a number brings. -/
  responses : Nat → Response

/-- Whether a session takes note of a status, given the one that it has seen or read last: it is a
different one, and the record, if there is one, may go on to it from there. -/
def notes (last : Option Status) (record : Option Task) (status : Status) : Bool :=
  last != some status &&
    (record.isNone || last.any fun current => current.successors.contains status)

namespace Course

variable (C : Course κ)

/-- All tasks but the one of the session. -/
def others (number : Nat) (id : TaskId) : Prop :=
  ¬ (number = C.session.tracker ∧ id = C.session.id)

/-- The fetcher works on a request. -/
def poll (number turn time : Nat) (record : Option Task) : Sighting κ :=
  ⟨time, .calls C.fetcher (.fetching ⟨C.session.id, number, false⟩ turn), record⟩

/-- The record has been changed, and the listeners of the store are told of it. -/
def write (time : Nat) (record : Option Task) : List (Sighting κ) :=
  record.toList.map fun task =>
    ⟨time, .tells C.session.tracker (.store (.updated C.session.id)), some task⟩

/-- The listeners of sessions are told once that the session has ended. -/
def farewell (reason : StopReason) (time : Nat) (record : Option Task) : Sighting κ :=
  ⟨time, .tells C.session.tracker (.session (.stopped C.session.id reason)), record⟩

/-- The session ends after a terminal report: the callback for stopped sessions is called, and the
end is announced. -/
def conclusion (reason : StopReason) (time : Nat) (record : Option Task) : List (Sighting κ) :=
  Sighting.ofHook C.settings.hooks.stopped (.stopped C.session.id reason) time record ++
    [C.farewell reason time record]

/-- The session deals with a report after its status has been dealt with. On a terminal status it
ends; on another one the `next` request is made at the time after the interval for the status. -/
def settle (next : Nat → List (Sighting κ)) (report : Report) (time : Nat) (record : Option Task) :
    List (Sighting κ) :=
  match report.status with
  | .queued => next (time + C.settings.cadence.queued)
  | .processing => next (time + C.settings.cadence.processing)
  | .completed =>
    Sighting.ofHook C.settings.hooks.complete (.completed C.session.id report) time record ++
      C.conclusion .completed time record
  | .failed =>
    Sighting.ofHook C.settings.hooks.failed (.failed C.session.id report) time record ++
      C.conclusion .failed time record

/-- The session deals with the answer to a request. A status that it takes note of is written to the
record, if there is one, and reported. An error is reported unless it is a cancellation, and the
`next` request is made after the queued interval. -/
def receive (next : Nat → Option Status → Option Task → List (Sighting κ))
    (result : Except FetchError Report) (time : Nat) (last : Option Status) (record : Option Task) :
    List (Sighting κ) :=
  match result with
  | .ok report =>
    if notes last record report.status then
      let record := record.map (Task.patched · (.ofStatus report.status))
      C.write time record ++
        (Sighting.ofHook C.settings.hooks.statusChange (.statusChanged C.session.id report.status) time
          record ++
        C.settle (next · (some report.status) record) report time record)
    else C.settle (next · last record) report time record
  | .error e =>
    (if e.isCancellation then []
      else Sighting.ofHook C.settings.hooks.error (.fetchFailed C.session.id e) time record) ++
      next (time + C.settings.cadence.queued) last record

/-- The fetcher works on a request until it has the answer: after each wait it is called again. -/
def response (next : Nat → Option Status → Option Task → List (Sighting κ)) (number : Nat)
    (last : Option Status) (record : Option Task) :
    (waits : List (Option Nat)) → (turn time : Nat) → List (Sighting κ)
  | [], _, time =>
    match (C.responses number).answer with
    | some result => C.receive next result time last record
    | none => []
  | millis :: rest, turn, time =>
    let time := time + millis.getD 0
    C.poll number (turn + 1) time record :: response next number last record rest (turn + 1) time

/-- The acts of the session in a number of requests, beginning at a time with the request of some
`number`. -/
def requests : (rounds number time : Nat) → (last : Option Status) → (record : Option Task) →
    List (Sighting κ)
  | 0, _, _, _, _ => []
  | rounds + 1, number, time, last, record =>
    C.poll number 0 time record ::
      C.response (requests rounds (number + 1)) number last record (C.responses number).waits 0 time

/-- The acts of the session in a number of requests, from its first turn on. In the beginning it
reads the status of the record. -/
def trace (rounds number time : Nat) (record : Option Task) : List (Sighting κ) :=
  C.requests rounds number time (record.map Task.status) record

/-! ### The order of the acts in time -/

/-- No act is before a time. -/
def IsFrom (time : Nat) (acts : List (Sighting κ)) : Prop := ∀ x ∈ acts, time ≤ x.time

theorem IsFrom.append {time : Nat} {first second : List (Sighting κ)} (h : IsFrom time first)
    (h' : IsFrom time second) : IsFrom time (first ++ second) := fun x mem =>
  (List.mem_append.mp mem).elim (h x) (h' x)

theorem IsFrom.cons {time : Nat} {x : Sighting κ} {rest : List (Sighting κ)} (first : time ≤ x.time)
    (h : IsFrom time rest) : IsFrom time (x :: rest) := by
  intro y mem
  rcases List.mem_cons.mp mem with rfl | mem
  · exact first
  · exact h y mem

theorem IsFrom.mono {time later : Nat} {acts : List (Sighting κ)} (h : IsFrom later acts)
    (le : time ≤ later) : IsFrom time acts := fun x mem => Nat.le_trans le (h x mem)

theorem isFrom_ofHook (label : Option κ) (occasion : Occasion) (time : Nat) (record : Option Task) :
    IsFrom time (Sighting.ofHook label occasion time record) := by
  intro x mem
  obtain ⟨_, _, rfl⟩ := List.mem_map.mp mem
  exact Nat.le_refl time

theorem isFrom_conclusion (reason : StopReason) (time : Nat) (record : Option Task) :
    IsFrom time (C.conclusion reason time record) :=
  .append (isFrom_ofHook _ _ _ _) (.cons (Nat.le_refl time) (by simp [IsFrom]))

variable {C}

theorem isFrom_settle {next : Nat → List (Sighting κ)} (later : ∀ time, IsFrom time (next time))
    (report : Report) (time : Nat) (record : Option Task) :
    IsFrom time (C.settle next report time record) := by
  rw [settle]
  split
  · exact (later _).mono (Nat.le_add_right _ _)
  · exact (later _).mono (Nat.le_add_right _ _)
  · exact (isFrom_ofHook _ _ _ _).append (C.isFrom_conclusion _ _ _)
  · exact (isFrom_ofHook _ _ _ _).append (C.isFrom_conclusion _ _ _)

theorem isFrom_receive {next : Nat → Option Status → Option Task → List (Sighting κ)}
    (later : ∀ time last record, IsFrom time (next time last record))
    (result : Except FetchError Report) (time : Nat) (last : Option Status) (record : Option Task) :
    IsFrom time (C.receive next result time last record) := by
  cases result with
  | ok report =>
    simp only [receive]
    split
    · refine .append ?_ ((isFrom_ofHook _ _ _ _).append (isFrom_settle (fun _ => later _ _ _) _ _ _))
      intro x mem
      obtain ⟨_, _, rfl⟩ := List.mem_map.mp mem
      exact Nat.le_refl time
    · exact isFrom_settle (fun _ => later _ _ _) _ _ _
  | error e =>
    simp only [receive]
    refine .append ?_ ((later _ _ _).mono (Nat.le_add_right _ _))
    split
    · simp [IsFrom]
    · exact isFrom_ofHook _ _ _ _

theorem isFrom_response {next : Nat → Option Status → Option Task → List (Sighting κ)}
    (later : ∀ time last record, IsFrom time (next time last record)) (number : Nat)
    (last : Option Status) (record : Option Task) (waits : List (Option Nat)) (turn time : Nat) :
    IsFrom time (C.response next number last record waits turn time) := by
  induction waits generalizing turn time with
  | nil =>
    rw [response]
    split
    · exact isFrom_receive later _ _ _ _
    · simp [IsFrom]
  | cons millis rest ih =>
    have waited : time ≤ time + millis.getD 0 := Nat.le_add_right _ _
    exact .cons waited ((ih _ _).mono waited)

/-- Requests are made one after the other. -/
theorem isFrom_requests (rounds number time : Nat) (last : Option Status) (record : Option Task) :
    IsFrom time (C.requests rounds number time last record) := by
  induction rounds generalizing number time last record with
  | zero => simp [requests, IsFrom]
  | succ rounds ih =>
    exact .cons (Nat.le_refl time) (isFrom_response (fun _ _ _ => ih _ _ _ _) _ _ _ _ _ _)

variable (C)

/-! ### What is seen of a session in a run -/

/-- The record of the task of the session. -/
def record (w : World κ) : Option Task :=
  (w.tracker C.session.tracker).store.tasks.find? C.session.id

/-- What the session is seen to do at a moment. -/
def sighting? (m : Machine σ κ) : Option (Sighting κ) :=
  match m.act? with
  | some (S, act) => if S = C.session then some ⟨m.world.clock, act, C.record m.world⟩ else none
  | none => none

/-- What the session is seen to do in states one after the other. -/
def sightings (states : List (Machine σ κ)) : List (Sighting κ) := states.filterMap C.sighting?

theorem sightings_concat (states : List (Machine σ κ)) (m : Machine σ κ) :
    C.sightings (states ++ [m]) = C.sightings states ++ (C.sighting? m).toList := by
  rw [sightings, sightings, List.filterMap_append]
  cases seen : C.sighting? m <;> simp [seen]

/-- When the fetcher of the session has ended a turn in some state, it goes on as the course has it.
-/
def IsFollowed (c : Consumer σ κ) (m : Machine σ κ) : Prop :=
  ∀ s turn rest r, m.stack = .session s (.fetching turn) :: rest → m.control = .returned r →
    s.name = C.session →
    c.proceed s.fetcher (m.request s) turn m.memory = (C.responses s.calls).progress turn

/-- The consumer leaves the session alone. -/
structure IsObserved (c : Consumer σ κ) : Prop where
  /-- No callback, listener, fetcher or factory touches the task of the session, or the settings of
  its tracker. -/
  others : c.IsWithin C.others
  /-- The fetcher of the session does not panic. -/
  fetcher : ∀ request turn, Code.IsHarmless (c.react C.fetcher (.fetching request turn))
  /-- Nor do the callbacks. -/
  hooks : ∀ label occasion, label ∈ C.settings.hooks.labels →
    Code.IsHarmless (c.react label occasion)

end Course

/-- The course of a session that has not had a turn yet. -/
def Machine.course (m : Machine σ κ) (s : SessionTask κ) (responses : Nat → Response) : Course κ :=
  ⟨s.name, s.fetcher, (m.tracker s.tracker).settings, responses⟩

end TaskWatch
