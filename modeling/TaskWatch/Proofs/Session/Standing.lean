import TaskWatch.Proofs.Session.AfterEnd
import TaskWatch.Proofs.Session.Course

/-!
# Where a session stands in its course

At every moment of a run in which a session is left alone, it stands somewhere in its course: it is
suspended, something that it has called runs above its frame, it is about to announce its end, or it
is over. Where it stands determines which acts are still to come. Whenever the session itself goes
on, it does the next of these acts, if any, and stands at the place after it.

## Main definitions

* `Course.Holds`, `Course.IsRunBy` — the world and the session are as the course has them.
* `Course.waiting`, `Course.after` — the acts still to come for a suspended session, and for one in
  its turn.
* `Course.Stands` — where a session stands, and the acts still to come.
* `Course.GoesOn` — a state shows the next act, if any, and the session stands at the place after
  it.

## Main results

* `Course.continueSession_goesOn`, `Course.wake_goesOn`, `Course.announce_goesOn` — a session that
  goes on does the next act of its course.
-/

namespace TaskWatch

variable {σ κ : Type}

namespace Course

variable (C : Course κ)

/-! ### What is still to come -/

/-- At a time the world is as the course has it: the settings of the tracker are those of the
course, and the record is a certain one. -/
structure Holds (time : Nat) (record : Option Task) (w : World κ) : Prop where
  clock : w.clock = time
  inside : C.session.tracker < w.trackers.length
  settings : (w.tracker C.session.tracker).settings = C.settings
  record : C.record w = record

/-- A task of the executor runs the session of the course, which lives. -/
structure IsRunBy (s : SessionTask κ) (time : Nat) (record : Option Task) (w : World κ) : Prop
    extends C.Holds time record w where
  /-- It is this session. -/
  name : s.name = C.session
  /-- It has this fetcher. -/
  fetcher : s.fetcher = C.fetcher
  /-- The session lives. -/
  lives : w.lives C.session = true

/-- The status that a session has seen or read last is the one in the record, if there is one. -/
def Knows (last : Option Status) (record : Option Task) : Prop :=
  ∀ task, record = some task → last = some task.status

/-- The acts of a suspended session that are still to come. -/
def waiting (s : SessionTask κ) (time : Nat) (record : Option Task) :
    Pause → (rounds : Nat) → List (Sighting κ)
  | .fresh, rounds => C.requests rounds (s.calls + 1) time (record.map Task.status) record
  | .sleeping wake, rounds => C.requests rounds (s.calls + 1) wake s.last record
  | .fetching turn (some wake), rounds =>
    C.poll s.calls (turn + 1) wake record ::
      C.response (C.requests rounds (s.calls + 1)) s.calls s.last record
        ((C.responses s.calls).waits.drop (turn + 1)) (turn + 1) wake
  | .fetching _ none, _ => []

/-- The acts of a session that are still to come after what has been called at a point of its turn.
-/
def after (s : SessionTask κ) (time : Nat) (record : Option Task) :
    Point κ → (rounds : Nat) → List (Sighting κ)
  | .fetching turn, rounds =>
    C.response (C.requests rounds (s.calls + 1)) s.calls s.last record
      ((C.responses s.calls).waits.drop turn) turn time
  | .recorded report hooks, rounds =>
    Sighting.ofHook hooks.statusChange (.statusChanged C.session.id report.status) time record ++
      C.settle (C.requests rounds (s.calls + 1) · (some report.status) record) report time record
  | .changed report _, rounds =>
    C.settle (C.requests rounds (s.calls + 1) · s.last record) report time record
  | .concluded reason, _ => C.conclusion reason time record
  | .failed, rounds =>
    C.requests rounds (s.calls + 1) (time + C.settings.cadence.queued) s.last record
  | .ending, _ | .dropping, _ | .aborting, _ => []

theorem isFrom_waiting (s : SessionTask κ) (time : Nat) (record : Option Task) (pause : Pause)
    (rounds : Nat) : IsFrom (pause.wakeTime.getD time) (C.waiting s time record pause rounds) := by
  have later (rounds number : Nat) : ∀ time last record,
      IsFrom time (C.requests rounds number time last record) :=
    fun _ _ _ => isFrom_requests _ _ _ _ _
  cases pause with
  | fresh => exact later _ _ _ _ _
  | sleeping wake => exact later _ _ _ _ _
  | fetching turn wake =>
    cases wake with
    | some wake => exact .cons (Nat.le_refl wake) (isFrom_response (later _ _) _ _ _ _ _ _)
    | none => simp [waiting, IsFrom]

theorem isFrom_after (s : SessionTask κ) (time : Nat) (record : Option Task) (point : Point κ)
    (rounds : Nat) : IsFrom time (C.after s time record point rounds) := by
  have later (rounds number : Nat) : ∀ time last record,
      IsFrom time (C.requests rounds number time last record) :=
    fun _ _ _ => isFrom_requests _ _ _ _ _
  cases point with
  | fetching turn => exact isFrom_response (later _ _) _ _ _ _ _ _
  | recorded report hooks =>
    exact (isFrom_ofHook _ _ _ _).append (isFrom_settle (fun _ => later _ _ _ _ _) _ _ _)
  | changed report hooks => exact isFrom_settle (fun _ => later _ _ _ _ _) _ _ _
  | concluded reason => exact C.isFrom_conclusion reason time record
  | failed => exact (later _ _ _ _ _).mono (Nat.le_add_right _ _)
  | _ => simp [after, IsFrom]

/-- What a session has at hand at a point of its turn fits the course. -/
def Fits (s : SessionTask κ) (record : Option Task) : Point κ → Prop
  | .fetching _ | .failed => Knows s.last record
  | .recorded report hooks => hooks = C.settings.hooks ∧ Knows (some report.status) record
  | .changed _ hooks => hooks = C.settings.hooks ∧ Knows s.last record
  | .concluded _ => True
  | .ending | .dropping | .aborting => False

/-- Where the session of a course stands, and the acts that are still to come in so many further
requests. -/
inductive Stands (c : Consumer σ κ) (m : Machine σ κ) : ((rounds : Nat) → List (Sighting κ)) → Prop
  /-- It is suspended, and not longer than until its time. -/
  | suspended {s time record pause} (run : C.IsRunBy s time record m.world)
      (listed : ⟨s, pause⟩ ∈ m.world.suspended) (heeds : m.Heeds C.others)
      (due : ∀ wake ∈ pause.wakeTime, time ≤ wake) (knows : pause = .fresh ∨ Knows s.last record) :
      Stands c m (C.waiting s time record pause)
  /-- Something that it has called runs in its turn. -/
  | turn {s time record point} (run : C.IsRunBy s time record m.world)
      (above : Machine.Above c [.session s point] m) (heeds : m.Heeds C.others)
      (fits : C.Fits s record point) : Stands c m (C.after s time record point)
  /-- It has ended itself, and the callback for this runs. -/
  | announcing {s time record reason} (name : s.name = C.session)
      (holds : C.Holds time record m.world)
      (above : Machine.Above c
        [.announcing C.session.tracker C.session.id reason, .session s .ending] m)
      (heeds : m.Heeds C.others) (dead : m.world.lives C.session = false) :
      Stands c m fun _ => [C.farewell reason time record]
  /-- It has ended itself, and listeners are told of this. -/
  | announced {s r} (name : s.name = C.session)
      (above : Machine.Above c [.answering r, .session s .ending] m)
      (dead : m.world.lives C.session = false) : Stands c m fun _ => []
  /-- It has ended itself, and listeners have been told of this. -/
  | ending {s r} (name : s.name = C.session) (stack : m.stack = [.session s .ending])
      (control : m.control = .returned r) (dead : m.world.lives C.session = false) :
      Stands c m fun _ => []
  /-- It is over. -/
  | done (away : C.session ∉ m.names) (created : C.session.serial < m.world.nextSerial) :
      Stands c m fun _ => []

/-- A state shows the next act of a session, if any, and the session stands at the place after it.
-/
def GoesOn (c : Consumer σ κ) (m : Machine σ κ) (acts : (rounds : Nat) → List (Sighting κ)) : Prop :=
  ∃ left begun, C.Stands c m left ∧
    ∀ rounds, acts (rounds + begun) = (C.sighting? m).toList ++ left rounds

/-! ### Going on -/

section Turn

open Machine

variable {C : Course κ} {c : Consumer σ κ} {m : Machine σ κ} {s : SessionTask κ} {time : Nat}
  {record : Option Task}

theorem sighting?_eq_none (quiet : m.act? = none) : C.sighting? m = none := by
  rw [sighting?, quiet]

theorem sighting?_eq_some (act : Act κ) (acts : m.act? = some (C.session, act))
    (holds : C.Holds time record m.world) : C.sighting? m = some ⟨time, act, record⟩ := by
  simp only [sighting?, acts, if_true, holds.clock, holds.record]

theorem IsRunBy.tracker {w : World κ} (run : C.IsRunBy s time record w) :
    s.tracker = C.session.tracker :=
  congrArg SessionName.tracker run.name

theorem IsRunBy.id {w : World κ} (run : C.IsRunBy s time record w) : s.id = C.session.id :=
  congrArg SessionName.id run.name

theorem IsRunBy.isLive {w : World κ} (run : C.IsRunBy s time record w) : w.isLive s = true := by
  have lives := run.lives
  rwa [← run.name] at lives

theorem GoesOn.congr {acts same : Nat → List (Sighting κ)} (goes : C.GoesOn c m same)
    (equal : ∀ rounds, acts rounds = same rounds) : C.GoesOn c m acts := by
  rwa [funext equal]

/-- A session stands somewhere, and nothing has been seen of it. -/
theorem Stands.goesOn {acts : Nat → List (Sighting κ)} (stands : C.Stands c m acts)
    (unseen : C.sighting? m = none) : C.GoesOn c m acts :=
  ⟨acts, 0, stands, fun _ => by rw [unseen]; rfl⟩

/-- A session that is suspended waits for its time. -/
theorem suspend_goesOn (run : C.IsRunBy s time record m.world) (empty : m.stack = [])
    (knows : Knows s.last record) {pause : Pause} (due : ∀ wake ∈ pause.wakeTime, time ≤ wake) :
    C.GoesOn c (m.suspend s pause) (C.waiting s time record pause) := by
  refine Stands.goesOn ?_ (sighting?_eq_none rfl)
  refine .suspended ⟨⟨run.clock, run.inside, run.settings, run.record⟩, run.name, run.fetcher,
    run.lives⟩ ?_ ⟨trivial, ?_⟩ due (.inr knows)
  · exact List.mem_append_right _ (List.mem_singleton.mpr rfl)
  · show ∀ f ∈ m.stack, f.IsWithin C.others
    simp [empty]

theorem sleep_goesOn (run : C.IsRunBy s time record m.world) (empty : m.stack = [])
    (knows : Knows s.last record) (millis : Nat) :
    C.GoesOn c (m.sleep s millis) fun rounds =>
      C.requests rounds (s.calls + 1) (time + millis) s.last record := by
  rw [sleep, run.clock]
  refine suspend_goesOn run empty knows fun wake due => ?_
  rw [← Option.some.inj due]
  exact Nat.le_add_right time millis

/-- A session calls its fetcher or a callback in its turn. -/
theorem call_goesOn (run : C.IsRunBy s time record m.world) (empty : m.stack = []) {label : κ}
    {occasion : Occasion} {point : Point κ} (harmless : Code.IsHarmless (c.react label occasion))
    (fits : C.Fits s record point) :
    C.GoesOn c ((m.push (.session s point)).invoke label occasion) fun rounds =>
      ⟨time, .calls label occasion, record⟩ :: C.after s time record point rounds := by
  refine ⟨C.after s time record point, 0, .turn run (.next ?_ harmless) ⟨trivial, ?_⟩ fits, ?_⟩
  · rw [← empty]
    rfl
  · show ∀ f ∈ .session s point :: m.stack, f.IsWithin C.others
    simp [empty, Frame.IsWithin]
  · intro rounds
    have acts : ((m.push (.session s point)).invoke label occasion).act? =
        some (C.session, .calls label occasion) := by
      rw [← run.name]
      rfl
    rw [sighting?_eq_some _ acts run.toHolds]
    rfl

/-- The end of the session leaves everything else as the course has it. -/
theorem Holds.ended {w : World κ} (holds : C.Holds time record w) :
    C.Holds time record (w.after (.ended C.session.tracker C.session.id)) where
  clock := holds.clock
  inside := (List.length_modify _ _ _).symm ▸ holds.inside
  settings := by
    rw [World.settings_after]
    exact holds.settings
  record := by
    rw [Course.record, World.tasks_after]
    exact holds.record

/-- The end of a session is announced. -/
theorem announce_goesOn (name : s.name = C.session) (holds : C.Holds time record m.world)
    (dead : m.world.lives C.session = false) (stack : m.stack = [.session s .ending])
    (reason : StopReason) :
    C.GoesOn c (m.announce C.session.tracker C.session.id reason) fun _ =>
      [C.farewell reason time record] := by
  refine ⟨fun _ => [], 0, .announced (r := .flag true) name (.next ?_ trivial) dead, fun _ => ?_⟩
  · show .answering (.flag true) :: m.stack = _
    rw [stack]
  · have acts : (m.announce C.session.tracker C.session.id reason).act? =
        some (C.session, .tells C.session.tracker (.session (.stopped C.session.id reason))) := by
      rw [← name]
      simp only [act?, announce, Machine.tell, Machine.push, stack]
    rw [sighting?_eq_some _ acts holds]
    rfl

/-- A session stops itself after a terminal report. -/
theorem conclude_goesOn (observed : C.IsObserved c) (run : C.IsRunBy s time record m.world)
    (empty : m.stack = []) (reason : StopReason) :
    C.GoesOn c (m.conclude s reason) fun _ => C.conclusion reason time record := by
  have dead := m.world.lives_after_ended C.session
  have holds := run.toHolds.ended
  rw [conclude, Machine.stopSession_of_lives (m := m.push (.session s .ending)) (run.name ▸ run.lives),
    run.tracker, run.id]
  have settings : (((m.push (.session s .ending)).world.after
      (.ended C.session.tracker C.session.id)).tracker C.session.tracker).settings = C.settings :=
    holds.settings
  rw [settings]
  cases hook : C.settings.hooks.stopped with
  | none =>
    simp only [conclusion, hook, Sighting.ofHook, Option.toList_none, List.map_nil, List.nil_append]
    exact announce_goesOn run.name holds dead (by rw [← empty]; rfl) reason
  | some label =>
    have set : label ∈ C.settings.hooks.labels := by simp [Hooks.labels, hook]
    refine ⟨fun _ => [C.farewell reason time record], 0,
      .announcing (s := s) run.name holds (.next ?_ (observed.hooks label _ set)) ⟨trivial, ?_⟩ dead,
      fun _ => ?_⟩
    · rw [← empty]
      rfl
    · show ∀ f ∈ .announcing C.session.tracker C.session.id reason :: .session s .ending :: m.stack,
        f.IsWithin C.others
      simp [empty, Frame.IsWithin]
    · rw [sighting?_eq_some (.calls label (.stopped C.session.id reason)) ?_ holds]
      · simp [conclusion, hook, Sighting.ofHook]
      · rw [← run.name]
        rfl

/-- The session goes on with a report after its status has been dealt with. -/
theorem afterStatus_goesOn (observed : C.IsObserved c) (run : C.IsRunBy s time record m.world)
    (empty : m.stack = []) (knows : Knows s.last record) (report : Report) :
    C.GoesOn c (m.afterStatus s report C.settings.hooks) fun rounds =>
      C.settle (C.requests rounds (s.calls + 1) · s.last record) report time record := by
  rw [afterStatus, if_pos run.isLive, Machine.tracker, run.tracker, run.settings]
  simp only [settle]
  cases status : report.status with
  | queued => exact sleep_goesOn run empty knows _
  | processing => exact sleep_goesOn run empty knows _
  | completed =>
    cases hook : C.settings.hooks.complete with
    | none => exact conclude_goesOn observed run empty .completed
    | some label =>
      have set : label ∈ C.settings.hooks.labels := by simp [Hooks.labels, hook]
      rw [run.id]
      exact call_goesOn run empty (observed.hooks label _ set) trivial
  | failed =>
    cases hook : C.settings.hooks.failed with
    | none => exact conclude_goesOn observed run empty .failed
    | some label =>
      have set : label ∈ C.settings.hooks.labels := by simp [Hooks.labels, hook]
      rw [run.id]
      exact call_goesOn run empty (observed.hooks label _ set) trivial

/-- The session takes note of a status and calls the callback for it. -/
theorem changeStatus_goesOn (observed : C.IsObserved c) (run : C.IsRunBy s time record m.world)
    (empty : m.stack = []) {report : Report} (knows : Knows (some report.status) record) :
    C.GoesOn c (m.changeStatus s report C.settings.hooks)
      (C.after s time record (.recorded report C.settings.hooks)) := by
  have noted : C.IsRunBy { s with last := some report.status } time record m.world :=
    ⟨run.toHolds, run.name, run.fetcher, run.lives⟩
  rw [changeStatus]
  cases hook : C.settings.hooks.statusChange with
  | none =>
    refine (afterStatus_goesOn observed noted empty knows report).congr fun rounds => ?_
    rw [after, hook]
    rfl
  | some label =>
    have set : label ∈ C.settings.hooks.labels := by simp [Hooks.labels, hook]
    have fits : C.Fits { s with last := some report.status } record
        (.changed report C.settings.hooks) := ⟨rfl, knows⟩
    refine (call_goesOn noted empty (observed.hooks label _ set) fits).congr fun rounds => ?_
    rw [after, hook, ← run.id]
    rfl

theorem IsRunBy.found {w : World κ} (run : C.IsRunBy s time record w) :
    (w.tracker s.tracker).store.tasks.find? s.id = record := by
  rw [run.tracker, run.id]
  exact run.record

/-- A status that is written changes the record, and nothing else that the course is about. -/
theorem IsRunBy.patched {w : World κ} (run : C.IsRunBy s time record w) (keyed : w.Keyed)
    {patch : Patch}
    (applied : ((w.tracker s.tracker).store.tasks.update s.id patch).answer = .applied) :
    C.IsRunBy s time (record.map (Task.patched · patch)) (w.after (.patched s.tracker s.id patch))
    where
  clock := run.clock
  inside := (List.length_modify _ _ _).symm ▸ run.inside
  settings := by
    rw [World.settings_after]
    exact run.settings
  record := by
    have inside : s.tracker < w.trackers.length := run.tracker ▸ run.inside
    rw [Course.record, ← run.tracker, ← run.id, World.tasks_after]
    dsimp only
    rw [if_pos ⟨rfl, inside⟩, Collection.find?_update (keyed _), if_pos ⟨rfl, applied⟩, run.found]
  name := run.name
  fetcher := run.fetcher
  lives := by
    rw [World.lives_iff, World.sessions_after]
    exact World.lives_iff.mp run.lives

/-- The session writes a status to its record. -/
private theorem write_goesOn {current : Task} (run : C.IsRunBy s time (some current) m.world)
    (empty : m.stack = []) (keyed : m.world.Keyed) {report : Report}
    (applied : ((m.tracker s.tracker).store.tasks.update s.id (.ofStatus report.status)).answer =
      .applied)
    (noted : notes s.last (some current) report.status = true) :
    C.GoesOn c
      (((m.withWorld (m.world.mutate s.tracker
        ((m.tracker s.tracker).store.tasks.update s.id (.ofStatus report.status)))).push
          (.session s (.recorded report C.settings.hooks))).tell s.tracker
            (.store (.updated current.id)))
      fun rounds =>
        C.receive (C.requests rounds (s.calls + 1)) (.ok report) time s.last (some current) := by
  have target : current.id = C.session.id := (keyed _ run.found).trans run.id
  have written := run.patched keyed applied
  have fits : C.Fits s (some (current.patched (.ofStatus report.status)))
      (.recorded report C.settings.hooks) := by
    refine ⟨rfl, ?_⟩
    rintro _ ⟨⟩
    rfl
  refine ⟨C.after s time _ _, 0, .turn written (.next ?_ trivial) ⟨trivial, ?_⟩ fits, fun rounds => ?_⟩
  · rw [← empty]
    rfl
  · show ∀ f ∈ .session s (.recorded report C.settings.hooks) :: m.stack, f.IsWithin C.others
    simp [empty, Frame.IsWithin]
  · rw [sighting?_eq_some (.tells s.tracker (.store (.updated current.id))) ?_
      written.toHolds]
    · simp only [receive, noted, if_true, Option.map_some, write, Option.toList_some, List.map_cons,
        List.map_nil, after, run.tracker, target]
      rfl
    · rw [← run.name]
      rfl

/-- The session writes a status that it has not seen before, if the record may go on to it, and
takes note of it. -/
theorem recordStatus_goesOn (observed : C.IsObserved c) (run : C.IsRunBy s time record m.world)
    (empty : m.stack = []) (keyed : m.world.Keyed) (knows : Knows s.last record) {report : Report}
    (other : s.last ≠ some report.status) :
    C.GoesOn c (m.recordStatus s report C.settings.hooks) fun rounds =>
      C.receive (C.requests rounds (s.calls + 1)) (.ok report) time s.last record := by
  rw [recordStatus]
  have differs : (s.last != some report.status) = true := bne_iff_ne.mpr other
  have found : (m.tracker s.tracker).store.tasks.find? s.id = record := run.found
  obtain ⟨absent, ended⟩ | ⟨current, present, ⟨error, refused, ended⟩ | ⟨_, same, _⟩ |
      ⟨allowed, _, ended⟩⟩ :=
    (m.tracker s.tracker).store.tasks.update_cases s.id (.ofStatus report.status)
  · -- Without a record there is nothing to write.
    obtain rfl : none = record := absent.symm.trans found
    rw [ended]
    have unknown : Knows (some report.status) none := by rintro _ ⟨⟩
    refine (changeStatus_goesOn observed run empty unknown).congr fun rounds => ?_
    have noted : notes s.last none report.status = true := by simp [notes, differs]
    simp only [receive, noted, if_true, Option.map_none, write, Option.toList_none, List.map_nil,
      List.nil_append, after]
  · obtain rfl : some current = record := present.symm.trans found
    rw [ended]
    refine (afterStatus_goesOn observed run empty knows report).congr fun rounds => ?_
    have kept : ¬ current.status.mayBecome report.status = true := by
      intro may
      rw [(Collection.refusal_ofStatus _ _).mpr may] at refused
      simp at refused
    simp only [Status.mayBecome, Bool.or_eq_true, not_or, Bool.not_eq_true] at kept
    have passed : notes s.last (some current) report.status = false := by
      rw [notes, knows current rfl, Option.any_some, kept.2]
      simp
    simp only [receive, passed, Bool.false_eq_true, if_false]
  · -- The session would have seen the status before.
    obtain rfl : some current = record := present.symm.trans found
    refine absurd ?_ other
    rw [knows current rfl]
    exact congrArg some (Task.status_eq_of_beq same).symm
  · obtain rfl : some current = record := present.symm.trans found
    have noted : notes s.last (some current) report.status = true := by
      have may := (Collection.refusal_ofStatus _ _).mp allowed
      simp only [Status.mayBecome, Bool.or_eq_true, beq_iff_eq] at may
      rcases may with same | next
      · exact absurd ((knows current rfl).trans (congrArg some same)) other
      · rw [notes, differs, knows current rfl, Option.any_some, next]
        rfl
    have event := congrArg Mutation.event ended
    simp only [event]
    exact write_goesOn run empty keyed (congrArg Mutation.answer ended) noted

/-- The session deals with the answer to a request. -/
theorem receive_goesOn (observed : C.IsObserved c) (run : C.IsRunBy s time record m.world)
    (empty : m.stack = []) (keyed : m.world.Keyed) (knows : Knows s.last record)
    (result : Except FetchError Report) :
    C.GoesOn c (m.receive s result) fun rounds =>
      C.receive (C.requests rounds (s.calls + 1)) result time s.last record := by
  rw [Machine.receive, if_pos run.isLive, Machine.tracker, run.tracker, run.settings]
  cases result with
  | ok report =>
    dsimp only
    by_cases same : s.last = some report.status
    · rw [if_pos same]
      refine (afterStatus_goesOn observed run empty knows report).congr fun rounds => ?_
      have passed : notes s.last record report.status = false := by simp [notes, same]
      simp only [receive, passed, Bool.false_eq_true, if_false]
    · rw [if_neg same]
      exact recordStatus_goesOn observed run empty keyed knows same
  | error e =>
    have sleeps := sleep_goesOn (c := c) run empty knows C.settings.cadence.queued
    dsimp only
    cases cancelled : e.isCancellation with
    | true =>
      refine sleeps.congr fun rounds => ?_
      simp only [receive, cancelled, if_true, List.nil_append]
    | false =>
      cases hook : C.settings.hooks.error with
      | none =>
        refine sleeps.congr fun rounds => ?_
        simp only [receive, cancelled, Bool.false_eq_true, if_false, hook, Sighting.ofHook,
          Option.toList_none, List.map_nil, List.nil_append]
      | some label =>
        have set : label ∈ C.settings.hooks.labels := by simp [Hooks.labels, hook]
        have fits : C.Fits s record .failed := knows
        refine (call_goesOn run empty (observed.hooks label _ set) fits).congr fun rounds => ?_
        simp only [receive, cancelled, Bool.false_eq_true, if_false, hook, run.id, after]
        rfl

/-- The fetcher of the session waits, or it has its answer. -/
private theorem fetched_goesOn (observed : C.IsObserved c) (run : C.IsRunBy s time record m.world)
    (empty : m.stack = []) (keyed : m.world.Keyed) (knows : Knows s.last record) {turn : Nat}
    (follows : c.proceed s.fetcher (m.request s) turn m.memory =
      (C.responses s.calls).progress turn) :
    C.GoesOn c (m.continueSession c s (.fetching turn)) (C.after s time record (.fetching turn)) := by
  rw [continueSession, follows, Response.progress, run.clock]
  cases next : (C.responses s.calls).waits[turn]? with
  | some pause =>
    obtain ⟨inside, here⟩ := List.getElem?_eq_some_iff.mp next
    have rest := List.drop_eq_getElem_cons inside
    rw [here] at rest
    have waits : C.GoesOn c (m.suspend s (.fetching turn (some (time + pause.getD 0))))
        (C.after s time record (.fetching turn)) := by
      refine (suspend_goesOn run empty knows fun wake due => ?_).congr fun rounds => ?_
      · rw [← Option.some.inj due]
        exact Nat.le_add_right time _
      · rw [after, rest]
        rfl
    cases pause with
    | some millis => exact waits
    | none => exact waits
  | none =>
    have rest := List.drop_eq_nil_iff.mpr (List.getElem?_eq_none_iff.mp next)
    cases answer : (C.responses s.calls).answer with
    | some result =>
      refine (receive_goesOn observed run empty keyed knows result).congr fun rounds => ?_
      simp only [after, rest, response, answer]
    | none =>
      have never : ∀ wake ∈ (Pause.fetching turn none).wakeTime, time ≤ wake := by
        simp [Pause.wakeTime]
      refine (suspend_goesOn run empty knows never).congr fun rounds => ?_
      simp only [after, rest, response, answer, waiting]

/-- A session that goes on in its turn does the next act of its course. -/
theorem continueSession_goesOn (observed : C.IsObserved c) (run : C.IsRunBy s time record m.world)
    (empty : m.stack = []) (keyed : m.world.Keyed) {point : Point κ} (fits : C.Fits s record point)
    (follows : ∀ turn, point = .fetching turn → c.proceed s.fetcher (m.request s) turn m.memory =
      (C.responses s.calls).progress turn) :
    C.GoesOn c (m.continueSession c s point) (C.after s time record point) := by
  cases point with
  | fetching turn => exact fetched_goesOn observed run empty keyed fits (follows turn rfl)
  | recorded report hooks =>
    obtain ⟨rfl, knows⟩ := fits
    exact changeStatus_goesOn observed run empty knows
  | changed report hooks =>
    obtain ⟨rfl, knows⟩ := fits
    exact afterStatus_goesOn observed run empty knows report
  | concluded reason => exact conclude_goesOn observed run empty reason
  | failed =>
    rw [continueSession, Machine.tracker, run.tracker, run.settings]
    exact sleep_goesOn run empty fits _
  | ending => exact fits.elim
  | dropping => exact fits.elim
  | aborting => exact fits.elim

/-- The fetcher of the session works on a request. -/
private theorem fetch_goesOn (observed : C.IsObserved c) (run : C.IsRunBy s time record m.world)
    (empty : m.stack = []) (knows : Knows s.last record) (turn : Nat) :
    C.GoesOn c (m.fetch s turn) fun rounds =>
      C.poll s.calls turn time record :: C.after s time record (.fetching turn) rounds := by
  have request : m.request s = ⟨C.session.id, s.calls, false⟩ := by
    rw [Machine.request, run.isLive, run.id]
    rfl
  rw [fetch, request, run.fetcher]
  exact call_goesOn run empty (observed.fetcher _ turn) knows

/-- One of the requests is made now. -/
private theorem GoesOn.begun {acts : Nat → List (Sighting κ)}
    (goes : C.GoesOn c m fun rounds => acts (rounds + 1)) : C.GoesOn c m acts := by
  obtain ⟨left, begun, stands, equal⟩ := goes
  exact ⟨left, begun + 1, stands, equal⟩

private theorem nextRequest_goesOn (observed : C.IsObserved c)
    (run : C.IsRunBy s time record m.world) (empty : m.stack = []) (knows : Knows s.last record) :
    C.GoesOn c (m.nextRequest s) fun rounds =>
      C.requests rounds (s.calls + 1) time s.last record := by
  have asking : C.IsRunBy { s with calls := s.calls + 1 } time record m.world :=
    ⟨run.toHolds, run.name, run.fetcher, run.lives⟩
  rw [nextRequest, if_pos run.isLive]
  exact .begun (fetch_goesOn observed asking empty knows 0)

/-- A session that is ready has not had a turn yet, or its time has come. -/
private theorem IsRunBy.wakeTime {w : World κ} (run : C.IsRunBy s time record w) {pause : Pause}
    (due : ∀ wake ∈ pause.wakeTime, time ≤ wake) (ready : w.isReady ⟨s, pause⟩ = true) :
    pause = .fresh ∨ pause.wakeTime = some time := by
  simp only [World.isReady, run.isLive, Bool.not_true, Bool.false_or, Bool.or_eq_true, beq_iff_eq,
    run.clock] at ready
  rcases ready with fresh | ready
  · exact .inl fresh
  · cases wakes : pause.wakeTime with
    | none => simp [wakes] at ready
    | some wake =>
      have now : wake ≤ time := by simpa [wakes] using ready
      exact .inr (congrArg some (Nat.le_antisymm now (due wake wakes)))

/-- A session whose time has come is given its turn. -/
theorem wake_goesOn (observed : C.IsObserved c) (run : C.IsRunBy s time record m.world)
    (empty : m.stack = []) {pause : Pause} (due : ∀ wake ∈ pause.wakeTime, time ≤ wake)
    (knows : pause = .fresh ∨ Knows s.last record) (ready : m.world.isReady ⟨s, pause⟩ = true) :
    C.GoesOn c (m.wake ⟨s, pause⟩) (C.waiting s time record pause) := by
  have now := run.wakeTime due ready
  cases pause with
  | fresh =>
    have reading : C.IsRunBy { s with last := record.map Task.status } time record m.world :=
      ⟨run.toHolds, run.name, run.fetcher, run.lives⟩
    have known : Knows (record.map Task.status) record := by
      rintro task rfl
      rfl
    have found : (m.tracker s.tracker).store.tasks.find? s.id = record := run.found
    simp only [wake, found]
    exact nextRequest_goesOn observed reading empty known
  | sleeping until_ =>
    obtain rfl : until_ = time := by simpa [Pause.wakeTime] using now
    exact nextRequest_goesOn observed run empty (by simpa using knows)
  | fetching turn until_ =>
    obtain rfl : until_ = some time := by simpa [Pause.wakeTime] using now
    simp only [wake, run.isLive, if_true]
    exact fetch_goesOn observed run empty (by simpa using knows) (turn + 1)

end Turn

end Course

end TaskWatch
