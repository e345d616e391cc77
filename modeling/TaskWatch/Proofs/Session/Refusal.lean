import TaskWatch.Proofs.Session.Sparing

/-!
# Statuses that are never refused

The store refuses a status that the lifecycle forbids. A session writes what its fetcher reports, so
nothing is refused as long as each report may follow on the one before it and nobody else takes the
record forward. The record does not always have the status that was reported last, since others may
set it back. But it may always be given this status, and with it every status that is reported
later.

## Main definitions

* `World.Admits` — the record of a task may be given a status.
* `Feed` — answers to requests, each report of which may follow on the one before it.
* `Machine.IsFed` — a session gets certain answers.
* `Machine.IsInStep` — the record of a session may be given what has been reported.
* `Machine.Refuses` — a status that a session has been told is about to be refused.

## Main results

* `Machine.Move.inStep` — a session that is fed stays in step.
* `Machine.Run.never_refuses` — the store refuses nothing that such a session has been told.
-/

namespace TaskWatch

variable {σ κ : Type}

/-! ### What a record may become -/

namespace World

variable {w w' : World κ} {k : Nat} {id : TaskId} {status : Status}

/-- The record of a task, if there is one, may be given a status. -/
def Admits (w : World κ) (k : Nat) (id : TaskId) (status : Status) : Prop :=
  ∀ current ∈ w.status? k id, current.mayBecome status = true

/-- A record that has not been taken forward may be given what it could be given before. -/
theorem Spares.admits (spares : Spares k id w w') (admits : w.Admits k id status) :
    w'.Admits k id status := by
  intro current found
  rcases spares current found with rfl | before
  · cases status <;> rfl
  · exact admits current before

/-- A record that may be given a status may still be given it when it has been written. -/
theorem Admits.patched (admits : w.Admits k id status) (inside : k < w.trackers.length)
    (keyed : w.Keyed) : (w.after (.patched k id (.ofStatus status))).Admits k id status := by
  intro current has
  obtain ⟨task, found, rfl⟩ := Option.map_eq_some_iff.mp has
  rw [tasks_after] at found
  dsimp only at found
  rw [if_pos ⟨rfl, inside⟩, Collection.find?_update (keyed k)] at found
  split at found
  · obtain ⟨_, _, rfl⟩ := Option.map_eq_some_iff.mp found
    exact status.mayBecome_refl
  · exact admits _ (Option.map_eq_some_iff.mpr ⟨task, found, rfl⟩)

/-- A status that a record may be given is not refused. -/
theorem Admits.not_rejected (admits : w.Admits k id status) {error : TransitionError} :
    ((w.tracker k).store.tasks.update id (.ofStatus status)).answer ≠ .rejected error := by
  intro rejected
  obtain ⟨_, ended⟩ | ⟨task, there, ⟨error, refused, _⟩ | ⟨_, _, ended⟩ | ⟨_, _, ended⟩⟩ :=
    (w.tracker k).store.tasks.update_cases id (.ofStatus status)
  · simp [ended] at rejected
  · have may := admits task.status (Option.map_eq_some_iff.mpr ⟨task, there, rfl⟩)
    simp [(Collection.refusal_ofStatus task status).mpr may] at refused
  · simp [ended] at rejected
  · simp [ended] at rejected

end World

/-! ### Sessions that are in step -/

/-- Answers to the requests of a session, which are counted from one, and the statuses that they
lead to. Each report may follow on the status that has been reached before it. -/
structure Feed where
  /-- The answer to the request with a number. -/
  answer : Nat → Except FetchError Report
  /-- The status that so many answers lead to. -/
  reached : Nat → Status
  report : ∀ answers report, answer (answers + 1) = .ok report →
    (reached answers).mayBecome report.status = true ∧ reached (answers + 1) = report.status
  failure : ∀ answers e, answer (answers + 1) = .error e → reached (answers + 1) = reached answers

/-- Whether a session in its turn still waits for the answer to its last request. -/
def Point.isAsking : Point κ → Bool
  | .fetching _ | .dropping => true
  | _ => false

/-- Whether a suspended session does. -/
def Pause.isAsking : Pause → Bool
  | .fetching _ _ => true
  | _ => false

namespace Feed

variable (F : Feed)

/-- A session is in step: it has a certain fetcher, and its record may be given the status that its
answers lead to. -/
structure InStep (fetcher : κ) (w : World κ) (s : SessionTask κ) (asking : Bool) : Prop where
  fetcher : s.fetcher = fetcher
  admits : ∃ answers, s.calls = answers + asking.toNat ∧
    w.Admits s.tracker s.id (F.reached answers)

/-- Wherever a session is, it is in step. -/
structure Paces (S : SessionName) (fetcher : κ) (m : Machine σ κ) : Prop where
  begun : ∀ s, .spawning s ∈ m.stack → s.name ≠ S
  turn : ∀ s point, .session s point ∈ m.stack → s.name = S →
    F.InStep fetcher m.world s point.isAsking
  suspended : ∀ entry ∈ m.world.suspended, entry.task.name = S →
    F.InStep fetcher m.world entry.task entry.pause.isAsking

/-- A session has ended, or it is in step. -/
def Keeps (S : SessionName) (fetcher : κ) (m : Machine σ κ) : Prop :=
  m.world.lives S = false ∨ F.Paces S fetcher m

end Feed

namespace Machine

open World (Spares)

variable {m m' m₀ : Machine σ κ} {c : Consumer σ κ} {given : Code σ κ → Prop} {S : SessionName}
  {s : SessionTask κ} {F : Feed} {fetcher : κ}

private theorem not_mem_of_away (away : S ∉ m.names) {f : Frame σ κ} (mem : f ∈ m.stack) :
    S ∉ f.names :=
  fun named => away (List.mem_append_left _ (List.mem_flatMap.mpr ⟨f, mem, named⟩))

private theorem ne_of_away (away : S ∉ m.names) {entry : Suspended κ}
    (mem : entry ∈ m.world.suspended) : entry.task.name ≠ S :=
  fun own => away (List.mem_append_right _ (List.mem_map.mpr ⟨entry, mem, own⟩))

private theorem name_ne_of_away (away : S ∉ m.names) {point : Point κ}
    (mem : .session s point ∈ m.stack) : s.name ≠ S :=
  fun own => not_mem_of_away away mem (List.mem_singleton.mpr own.symm)

/-- A session that is nowhere is in step. -/
private theorem paces_of_away (away : S ∉ m.names) : F.Paces S fetcher m where
  begun _ mem own := not_mem_of_away away mem (List.mem_singleton.mpr own.symm)
  turn _ _ mem own := absurd own (name_ne_of_away away mem)
  suspended _ mem own := absurd own (ne_of_away away mem)

section Turn

variable (away : s.name ∉ m.names)

include away

/-- A session calls something in its turn. -/
private theorem push_paces {memory : σ} {w : World κ} {control : Control σ κ} {point : Point κ}
    (same : w.suspended = m.world.suspended) (step : F.InStep fetcher w s point.isAsking) :
    F.Paces s.name fetcher ⟨memory, w, control, .session s point :: m.stack⟩ where
  begun t mem own := by
    rcases List.mem_cons.mp mem with spawns | old
    · exact nomatch spawns
    · exact not_mem_of_away away old (List.mem_singleton.mpr own.symm)
  turn t place mem own := by
    rcases List.mem_cons.mp mem with top | old
    · obtain ⟨rfl, rfl⟩ := Frame.session.inj top
      exact step
    · exact absurd own (name_ne_of_away away old)
  suspended entry mem own := absurd own (ne_of_away away (same ▸ mem))

/-- A session is suspended. -/
private theorem suspend_paces {pause : Pause} (step : F.InStep fetcher m.world s pause.isAsking) :
    F.Paces s.name fetcher (m.suspend s pause) where
  begun t mem own := not_mem_of_away away mem (List.mem_singleton.mpr own.symm)
  turn t place mem own := absurd own (name_ne_of_away away mem)
  suspended entry mem own := by
    rcases List.mem_append.mp mem with old | new
    · exact absurd own (ne_of_away away old)
    · obtain rfl := List.mem_singleton.mp new
      exact ⟨step.fetcher, step.admits⟩

omit away in
private theorem finish_keeps (m : Machine σ κ) (s : SessionTask κ) :
    F.Keeps s.name fetcher (m.finish s) := by
  left
  rw [finish]
  split
  · exact lives_stopSession _ s .aborted
  · next dead => exact Bool.eq_false_iff.mpr dead

private theorem Responds.keeps {report : Report} {hooks : Hooks κ} {seen : List (Option Status)}
    (responds : Responds m s report hooks seen m') (step : F.InStep fetcher m.world s false) :
    F.Keeps s.name fetcher m' := by
  have noted : ∀ last, F.InStep fetcher m.world { s with last } false := fun _ =>
    ⟨step.fetcher, step.admits⟩
  cases responds with
  | ends ended => exact .inl ended
  | tells _ hook =>
    exact .inr (push_paces (s := { s with last := some report.status }) away rfl (noted _))
  | @sleeps last _ undecided => exact .inr (suspend_paces (s := { s with last }) away (noted last))
  | @handles last label reason _ verdict hook =>
    exact .inr (push_paces (s := { s with last }) away rfl (noted last))
  | concludes _ verdict unset => exact .inl (lives_stopSession _ s _)

/-- A session gets an answer, and its record may be given the status that it leads to. -/
private theorem Receives.keeps {result : Except FetchError Report}
    (receives : Receives m s result m') (keyed : m.world.Keyed)
    (step : F.InStep fetcher m.world s true) (answered : result = F.answer s.calls) :
    F.Keeps s.name fetcher m' := by
  obtain ⟨answers, calls, admits⟩ := step.admits
  have calls : s.calls = answers + 1 := calls
  rw [calls] at answered
  have reports : ∀ report, result = .ok report →
      m.world.Admits s.tracker s.id report.status ∧
        ∀ w : World κ, w.Admits s.tracker s.id report.status → F.InStep fetcher w s false := by
    rintro report rfl
    obtain ⟨may, reached⟩ := F.report answers report answered.symm
    exact ⟨fun current has => Status.mayBecome_trans (admits current has) may,
      fun w admits => ⟨step.fetcher, answers + 1, calls, reached ▸ admits⟩⟩
  have failed : ∀ e, result = .error e → F.InStep fetcher m.world s false := by
    rintro e rfl
    exact ⟨step.fetcher, answers + 1, calls, F.failure answers e answered.symm ▸ admits⟩
  cases receives with
  | ends ended => exact .inl ended
  | @writes report event lives new counted =>
    obtain ⟨admits', told⟩ := reports report rfl
    have inside : s.tracker < m.world.trackers.length := World.inside_of_lives (S := s.name) lives
    exact .inr (push_paces away rfl (told _ (admits'.patched inside keyed)))
  | @responds report _ lives responds =>
    obtain ⟨admits', told⟩ := reports report rfl
    exact responds.keeps away (told _ admits')
  | complains lives uncancelled hook => exact .inr (push_paces away rfl (failed _ rfl))
  | sleeps lives => exact .inr (suspend_paces away (failed _ rfl))

private theorem nextRequest_keeps (step : F.InStep fetcher m.world s false) :
    F.Keeps s.name fetcher (m.nextRequest s) := by
  have asks : F.InStep fetcher m.world { s with calls := s.calls + 1 } true := by
    obtain ⟨answers, calls, admits⟩ := step.admits
    exact ⟨step.fetcher, answers, congrArg (· + 1) calls, admits⟩
  rw [nextRequest]
  split
  · exact .inr (push_paces (s := { s with calls := s.calls + 1 }) away rfl asks)
  · exact finish_keeps m s

/-- A session that goes on after what ran inside its turn. -/
private theorem continueSession_keeps (keyed : m.world.Keyed) {point : Point κ}
    (step : F.InStep fetcher m.world s point.isAsking)
    (fed : ∀ turn, point = .fetching turn → ∀ result,
      c.proceed s.fetcher (m.request s) turn m.memory = .answer result →
        result = F.answer s.calls) :
    F.Keeps s.name fetcher (m.continueSession c s point) := by
  cases point with
  | fetching turn =>
    rw [continueSession]
    split
    · next result answers =>
      exact (m.receive_receives s result).keeps away keyed step (fed turn rfl result answers)
    · exact .inr (suspend_paces away step)
    · exact .inr (suspend_paces away step)
    · exact .inr (suspend_paces away step)
  | recorded report hooks => exact (m.changeStatus_responds s report hooks).keeps away step
  | changed report hooks => exact (m.afterStatus_responds s report hooks).keeps away step
  | concluded reason => exact .inl (lives_stopSession _ s reason)
  | failed => exact .inr (suspend_paces away step)
  | ending => exact finish_keeps m s
  | dropping => exact finish_keeps m s
  | aborting => exact .inr (paces_of_away away)

end Turn

private theorem wake_keeps {entry : Suspended κ} (away : entry.task.name ∉ m.names)
    (step : F.InStep fetcher m.world entry.task entry.pause.isAsking) :
    F.Keeps entry.task.name fetcher (m.wake entry) := by
  obtain ⟨s, pause⟩ := entry
  cases pause with
  | fresh =>
    let last := ((m.tracker s.tracker).store.tasks.find? s.id).map Task.status
    exact nextRequest_keeps (s := { s with last }) away ⟨step.fetcher, step.admits⟩
  | fetching turn until_ =>
    rw [wake]
    dsimp only
    split
    · exact .inr (push_paces away rfl step)
    · exact .inr (push_paces away rfl step)
  | sleeping until_ => exact nextRequest_keeps away step

private theorem abandon_keeps {entry : Suspended κ} (away : entry.task.name ∉ m.names)
    (step : F.InStep fetcher m.world entry.task entry.pause.isAsking) :
    F.Keeps entry.task.name fetcher (m.abandon entry) := by
  obtain ⟨s, pause⟩ := entry
  cases pause with
  | fresh => exact .inr (paces_of_away away)
  | fetching turn until_ => exact .inr (push_paces away rfl step)
  | sleeping until_ => exact finish_keeps m s

/-! ### Moves -/

/-- When the fetcher of a session has answered in some state, this is the answer with the number of
the request. -/
def IsFed (c : Consumer σ κ) (S : SessionName) (fetcher : κ)
    (answer : Nat → Except FetchError Report) (m : Machine σ κ) : Prop :=
  ∀ s turn rest r result, s.name = S → s.fetcher = fetcher →
    m.stack = .session s (.fetching turn) :: rest → m.control = .returned r →
    c.proceed fetcher (m.request s) turn m.memory = .answer result → result = answer s.calls

theorem StandsBy.paces (standsBy : StandsBy S m m') (paces : F.Paces S fetcher m) :
    F.Paces S fetcher m' := by
  have spared : ∀ {s : SessionTask κ} {asking : Bool}, s.name = S →
      F.InStep fetcher m.world s asking → F.InStep fetcher m'.world s asking := by
    rintro s asking rfl ⟨same, answers, calls, admits⟩
    exact ⟨same, answers, calls, standsBy.record.admits admits⟩
  exact ⟨fun s mem own => paces.begun s (standsBy.begun s mem own) own,
    fun s point mem own => spared own (paces.turn s point (standsBy.turn s point mem own) own),
    fun entry mem own =>
      spared own (paces.suspended entry (standsBy.suspended entry mem own) own)⟩

/-- A session that goes on stays in step, or it ends. -/
private theorem OwnMove.keeps (own : OwnMove c S m m') (sound : m.Sound)
    (paces : F.Paces S fetcher m) (fed : m.IsFed c S fetcher F.answer) : F.Keeps S fetcher m' := by
  cases own with
  | @resumed s point rest r own stack control =>
    subst own
    have step := paces.turn s point (stack ▸ List.mem_cons_self) rfl
    have away : s.name ∉ ({ m with stack := rest } : Machine σ κ).names := by
      have nodup : m.names.Nodup := sound.nodup
      rw [names, stack, List.flatMap_cons, List.append_assoc] at nodup
      exact (List.nodup_cons.mp nodup).1
    rw [step_of_returned control stack, resume]
    refine continueSession_keeps away sound.keyed step ?_
    rintro turn rfl result answers
    exact fed s turn rest r result rfl step.fetcher stack control (step.fetcher ▸ answers)
  | unwound own stack control =>
    subst own
    rw [step_of_unwinding control stack, unwind_session]
    exact finish_keeps _ _
  | @woken before entry after own listed =>
    subst own
    have step := paces.suspended entry (listed ▸ List.mem_append_right _ List.mem_cons_self) rfl
    exact wake_keeps (sound.not_mem_without listed) ⟨step.fetcher, step.admits⟩
  | @abandoned before entry after own listed =>
    subst own
    have step := paces.suspended entry (listed ▸ List.mem_append_right _ List.mem_cons_self) rfl
    exact abandon_keeps (sound.not_mem_without listed) ⟨step.fetcher, step.admits⟩

/-- A session has ended, or it lives and is in step. -/
def IsInStep (F : Feed) (S : SessionName) (fetcher : κ) (m : Machine σ κ) : Prop :=
  Ended S m ∨ m.world.lives S = true ∧ F.Paces S fetcher m

/-- A session that is fed stays in step in every move, unless the consumer sets the status of its
record. -/
theorem Move.inStep (move : Move c given m m') (sound : m.Sound) (inStep : m.IsInStep F S fetcher)
    (fed : m.IsFed c S fetcher F.answer) (calm : ¬ m.Meddles S.tracker S.id) :
    m'.IsInStep F S fetcher := by
  rcases inStep with ended | ⟨lives, paces⟩
  · exact .inl (ended.move move)
  · have keeps : F.Keeps S fetcher m' := by
      rcases move.own_or_standsBy sound lives paces.begun calm with own | standsBy
      · exact own.keeps sound paces fed
      · exact .inr (standsBy.paces paces)
    by_cases dead : m'.world.lives S = false
    · have created := Nat.lt_of_lt_of_le (sound.given S lives) move.succeeds.serials
      exact .inl ⟨created, dead⟩
    · exact .inr ⟨Bool.of_not_eq_false dead, keeps.resolve_left dead⟩

/-! ### Statuses that are refused -/

/-- The fetcher of a session has answered with a report whose status the session has not seen yet,
and the store does not allow this status for the record. The session lives, so this is what it
tries to write next. -/
def Refuses (c : Consumer σ κ) (S : SessionName) (m : Machine σ κ) : Prop :=
  ∃ s turn rest r report error, s.name = S ∧ m.stack = .session s (.fetching turn) :: rest ∧
    m.control = .returned r ∧ m.world.isLive s = true ∧
    c.proceed s.fetcher (m.request s) turn m.memory = .answer (.ok report) ∧
    s.last ≠ some report.status ∧
    ((m.tracker s.tracker).store.tasks.update s.id (.ofStatus report.status)).answer =
      .rejected error

/-- Nothing is refused that a session in step is told. -/
theorem IsInStep.not_refuses (inStep : m.IsInStep F S fetcher)
    (fed : m.IsFed c S fetcher F.answer) : ¬ m.Refuses c S := by
  rintro ⟨s, turn, rest, r, report, error, rfl, stack, control, isLive, answers, _, rejected⟩
  rcases inStep with ended | ⟨_, paces⟩
  · exact Bool.false_ne_true (ended.dead.symm.trans isLive)
  · obtain ⟨same, number, calls, admits⟩ := paces.turn s _ (stack ▸ List.mem_cons_self) rfl
    have calls : s.calls = number + 1 := calls
    have answered : .ok report = F.answer s.calls :=
      fed s turn rest r _ rfl same stack control (same ▸ answers)
    rw [calls] at answered
    have may := (F.report number report answered.symm).1
    have admits' : m.world.Admits s.tracker s.id report.status := fun current has =>
      Status.mayBecome_trans (admits current has) may
    exact admits'.not_rejected rejected

/-- A session that has not had a turn yet is in step with a feed that begins where its record is. -/
theorem isInStep_fresh (sound : m.Sound) (listed : ⟨s, .fresh⟩ ∈ m.world.suspended)
    (admits : m.world.Admits s.tracker s.id (F.reached s.calls)) :
    m.IsInStep F s.name s.fetcher := by
  have suspended : s.name ∈ m.world.suspended.map fun entry => entry.task.name :=
    List.mem_map.mpr ⟨_, listed, rfl⟩
  by_cases lives : m.world.lives s.name = true
  · refine .inr ⟨lives, ?_⟩
    have nodup := List.nodup_append.mp sound.nodup
    have nowhere : ∀ f ∈ m.stack, s.name ∉ f.names := fun f mem named =>
      nodup.2.2 s.name (List.mem_flatMap.mpr ⟨f, mem, named⟩) s.name suspended rfl
    refine ⟨fun t mem own => nowhere _ mem (List.mem_singleton.mpr own.symm),
      fun t point mem own => absurd (List.mem_singleton.mpr own.symm) (nowhere _ mem),
      fun entry mem own => ?_⟩
    obtain rfl := List.inj_on_of_nodup_map nodup.2.1 mem listed own
    exact ⟨rfl, s.calls, rfl, admits⟩
  · have created := sound.below s.name (List.mem_append_right _ suspended)
    exact .inl ⟨created, Bool.eq_false_iff.mpr lives⟩

variable {states : List (Machine σ κ)}

/-- The store never refuses a status that a session has been told, if each report may follow on the
status before it, beginning with that of its record, and the consumer does not set the status of
this record. The consumer may delete the record or add it again, stop the session, panic, and
whatever else it likes. -/
theorem Run.never_refuses (reach : Reachable c m₀) (listed : ⟨s, .fresh⟩ ∈ m₀.world.suspended)
    (admits : m₀.world.Admits s.tracker s.id (F.reached s.calls))
    (run : Run c given m₀ states m)
    (fed : ∀ m₁ ∈ m₀ :: states, m₁.IsFed c s.name s.fetcher F.answer)
    (calm : ∀ m₁ ∈ m₀ :: states, ¬ m₁.Meddles s.tracker s.id) :
    ∀ m₁ ∈ m₀ :: states, ¬ m₁.Refuses c s.name := by
  have inStep : ∀ m₁ ∈ m₀ :: states, m₁.IsInStep F s.name s.fetcher := by
    induction run with
    | start =>
      exact List.forall_mem_singleton.mpr (isInStep_fresh reach.sound listed admits)
    | @move states m₁ m₂ run next ih =>
      rw [← List.cons_append] at fed calm ⊢
      have before := ih (fun m mem => fed m (List.mem_append_left _ mem))
        fun m mem => calm m (List.mem_append_left _ mem)
      have on : m₁ ∈ m₀ :: states := run.mem_cons
      intro m mem
      rcases List.mem_append.mp mem with old | new
      · exact before m old
      · obtain rfl := List.mem_singleton.mp new
        exact next.inStep (reach.run run).sound (before m₁ on)
          (fed m₁ (List.mem_append_left _ on)) (calm m₁ (List.mem_append_left _ on))
  exact fun m₁ mem => (inStep m₁ mem).not_refuses (fed m₁ mem)

end Machine

end TaskWatch
