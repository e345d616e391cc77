import TaskWatch.Proofs.Session.Account
import TaskWatch.Proofs.Session.Stage

/-!
# Why sessions end

A session can be ended by a call of the consumer, by itself after a terminal report, and by itself
because it cannot go on. All of them reach the same function, tasks of sessions that have ended long
ago are still under way, and other sessions have been started under their identifiers. Yet the
reason that is given is the true one.

The executor may go away before the first turn of a session. Then its task vanishes and the session
is not ended: it remains registered until somebody stops it, and the reason that is given then is
that somebody asked for it.

## Main definitions

* `Machine.Parting` — there is a reason for a session to end in a move.
* `Machine.Departs` — a session has ended, and its end is about to be made known with a reason.

## Main results

* `Machine.Parting.departs` — where there is a reason, a session that lives ends, for this reason.
* `Machine.Move.departs` — a session that ends in a move ends for a reason.
-/

namespace TaskWatch

variable {σ κ : Type}

/-- A session lives on unless one of its task is ended. -/
theorem World.Does.lives_on {w w' : World κ} {d : Deed κ} (does : w.Does d w')
    (unended : ∀ number id, d ≠ .ended number id) {S : SessionName} (lives : w.lives S = true) :
    w'.lives S = true := by
  cases d with
  | ended number id => exact absurd rfl (unended number id)
  | began number id => exact does.lives lives trivial
  | _ => rwa [(does.retains rfl).lives]

namespace Machine

/-- There is a reason for a session to end in a move. -/
inductive Parting (c : Consumer σ κ) (S : SessionName) :
    StopReason → Machine σ κ → Machine σ κ → Prop
  /-- The consumer stops polling for its task. -/
  | stopped {m next} (control : m.control = .code (.call (.stop S.tracker S.id) next)) :
      Parting c S .requested m (m.step c)
  /-- The consumer deletes its task. -/
  | forgotten {m next} (control : m.control = .code (.call (.forget S.tracker S.id) next)) :
      Parting c S .requested m (m.step c)
  /-- The consumer stops polling for all tasks, and it is the first. -/
  | first {m next} (control : m.control = .code (.call (.stopAll S.tracker) next))
      (first : (m.tracker S.tracker).activeIds.head? = some S.id) :
      Parting c S .requested m (m.step c)
  /-- The consumer stops polling for all tasks, and it is the next. -/
  | next {m r rest count below} (control : m.control = .returned r)
      (stack : m.stack = .stopping S.tracker (S.id :: rest) count :: below) :
      Parting c S .requested m (m.step c)
  /-- The callback for the end of its job has returned. -/
  | handled {m r s reason below} (own : s.name = S) (control : m.control = .returned r)
      (stack : m.stack = .session s (.concluded reason) :: below) : Parting c S reason m (m.step c)
  /-- It has dealt with a terminal report for which there is no callback, and all that is left to do
  is to stop itself. -/
  | reported {m r s t point report hooks reason below} (own : s.name = S)
      (control : m.control = .returned r) (stack : m.stack = .session s point :: below)
      (reports : (point.grounds c { m with stack := below } s).reports report hooks)
      (verdict : report.status.verdict? = some reason) (unset : hooks.handler? reason = none)
      (same : t.name = S) (settled : m.step c = conclude { m with stack := below } t reason) :
      Parting c S reason m (m.step c)
  /-- Something has panicked in its turn. -/
  | unwound {m s point below} (own : s.name = S) (control : m.control = .unwinding)
      (stack : m.stack = .session s point :: below) : Parting c S .aborted m (m.step c)
  /-- The executor has gone away, and its request has been given up. -/
  | dropped {m r s below} (own : s.name = S) (control : m.control = .returned r)
      (stack : m.stack = .session s .dropping :: below) : Parting c S .aborted m (m.step c)
  /-- The executor has gone away while it slept. -/
  | abandoned {m before entry after until_} (own : entry.task.name = S)
      (closed : m.world.hasExecutor = false) (listed : m.world.suspended = before ++ entry :: after)
      (asleep : entry.pause = .sleeping until_) :
      Parting c S .aborted m
        ((m.withWorld { m.world with suspended := before ++ after }).abandon entry)

variable {m m' m₀ : Machine σ κ} {c : Consumer σ κ} {given : Code σ κ → Prop} {S : SessionName}
  {reason : StopReason}

/-- A session has ended, and its end is about to be made known with a reason. -/
def Departs (m' : Machine σ κ) (S : SessionName) (reason : StopReason) : Prop :=
  m'.world.lives S = false ∧ m'.farewell? = some (S.tracker, S.id, reason)

/-! ### Ends with a reason -/

theorem stopSession_departs (lives : m.world.lives S = true) {only : Option Serial}
    (meant : only.all (· = S.serial) = true) (reason : StopReason) :
    (m.stopSession S.tracker S.id only reason).Departs S reason := by
  have found : (m.tracker S.tracker).sessions.find? S.id = some S.serial := World.lives_iff.mp lives
  have ended := m.world.lives_after_ended S
  rw [stopSession, found]
  dsimp only
  rw [if_pos meant]
  split
  · exact ⟨ended, rfl⟩
  · exact ⟨ended, rfl⟩

/-- A session that stops itself under its serial number departs. -/
theorem stopSelf_departs {s : SessionTask κ} (own : s.name = S) (lives : m.world.lives S = true)
    (reason : StopReason) :
    (m.stopSession s.tracker s.id (some s.serial) reason).Departs S reason := by
  subst own
  exact stopSession_departs (S := s.name) lives (by simp [SessionTask.name]) reason

theorem finish_departs {s : SessionTask κ} (own : s.name = S) (lives : m.world.lives S = true) :
    (m.finish s).Departs S .aborted := by
  subst own
  have registered : m.world.isLive s = true := lives
  rw [finish, if_pos registered]
  exact stopSelf_departs (m := m.push (.session s .aborting)) rfl lives .aborted

/-- Where there is a reason for a session that lives to end, it ends for this reason. -/
theorem Parting.departs (parting : Parting c S reason m m') (lives : m.world.lives S = true) :
    m'.Departs S reason := by
  cases parting with
  | @stopped _ next control =>
    obtain ⟨memory, world, _, stack⟩ := m
    subst control
    exact stopSession_departs (m := push ⟨memory, world, _, stack⟩ (.awaiting next)) lives rfl _
  | @forgotten _ next control =>
    obtain ⟨memory, world, _, stack⟩ := m
    subst control
    exact stopSession_departs
      (m := push (push ⟨memory, world, _, stack⟩ (.awaiting next)) (.forgetting S.tracker S.id))
      lives rfl _
  | @first _ next control first =>
    obtain ⟨memory, world, _, stack⟩ := m
    subst control
    obtain ⟨rest, ids⟩ : ∃ rest, (world.tracker S.tracker).activeIds = S.id :: rest :=
      List.head?_eq_some_iff.mp first
    let called : Machine σ κ := ⟨memory, world, .code (.call (.stopAll S.tracker) next), stack⟩
    have goes : called.step c = stopEach (called.push (.awaiting next)) S.tracker 0 (S.id :: rest) :=
      congrArg (stopEach (called.push (.awaiting next)) S.tracker 0) ids
    rw [goes]
    exact stopSession_departs
      (m := (called.push (.awaiting next)).push (.stopping S.tracker rest 0)) lives rfl _
  | @next _ r rest count below control stack =>
    rw [step_of_returned control stack]
    exact stopSession_departs (m := push { m with stack := below } (.stopping S.tracker rest _))
      lives rfl _
  | @handled _ r s reason below own control stack =>
    rw [step_of_returned control stack]
    exact stopSelf_departs (m := push { m with stack := below } (.session s .ending)) own lives reason
  | @reported _ r s t point report hooks reason below own control stack reports verdict unset same
      settled =>
    rw [settled]
    exact stopSelf_departs (m := push { m with stack := below } (.session t .ending)) same lives reason
  | @unwound _ s point below own control stack =>
    rw [step_of_unwinding control stack, unwind_session]
    exact finish_departs (m := { m with stack := below }) own lives
  | @dropped _ r s below own control stack =>
    rw [step_of_returned control stack]
    exact finish_departs (m := { m with stack := below }) own lives
  | @abandoned _ before entry after until_ own closed listed asleep =>
    rw [abandon, asleep]
    exact finish_departs (m := m.withWorld _) own lives

/-! ### Reasons for ends -/

/-- A session that ends in its own turn stops itself because its job has ended, or because it cannot
go on. -/
theorem Turn.departs {g : Grounds κ} {T : SessionName} (turn : Turn g T m m')
    (lived : m.world.lives S = true) (dead : m'.world.lives S = false) :
    S = T ∧ ((∃ s reason, s.name = S ∧ m' = m.conclude s reason ∧ m'.Departs S reason ∧
        (g.handled reason ∨ ∃ report hooks, g.reports report hooks ∧
          report.status.verdict? = some reason ∧ hooks.handler? reason = none)) ∨
      g.breaks ∧ m'.Departs S .aborted) := by
  have same : S = T := by
    obtain ⟨d, does, covers⟩ := turn.warranted
    by_contra other
    have lives : m'.world.lives S = true := by
      cases d with
      | ended number id =>
        obtain ⟨T', reason, rfl, rfl, lived', _, rfl⟩ := covers
        exact ((does.ends lived').lives S).mpr ⟨lived, other⟩
      | _ => exact does.lives_on nofun lived
    simp [lives] at dead
  subst same
  have stays : m'.world.lives S = m.world.lives S → False := fun still => by
    simp [still, lived] at dead
  refine ⟨rfl, ?_⟩
  cases turn with
  | @concludes s reason own ends =>
    exact .inl ⟨s, reason, own, rfl,
      stopSelf_departs (m := m.push (.session s .ending)) own lived reason, ends⟩
  | @aborts s own lives breaks =>
    exact .inr ⟨breaks, stopSelf_departs (m := m.push (.session s .aborting)) own lived .aborted⟩
  | @writes s report hooks event own reported counted =>
    exact (stays ((World.Does.retains (d := .patched s.tracker s.id (.ofStatus report.status))
      (World.does_after _ rfl) rfl).lives S)).elim
  | _ => exact (stays rfl).elim

/-- When a session in its turn does not go on in a step, another one is ended on behalf of a call.
-/
private theorem step_departs (foreign : ∀ f ∈ m.taken, f.isSession = false)
    (lived : m.world.lives S = true) (dead : (m.step c).world.lives S = false) :
    ∃ reason, (m.step c).Departs S reason ∧ Parting c S reason m (m.step c) := by
  obtain ⟨d, does, covers⟩ := m.step_warranted c
  rw [m.world_below] at does
  obtain ⟨number, id, rfl⟩ : ∃ number id, d = .ended number id := by
    by_contra unended
    have lives := does.lives_on (fun number id same => unended ⟨number, id, same⟩) lived
    simp [lives] at dead
  obtain ⟨T, reason, rfl, rfl, lived', farewell, stops⟩ := covers
  rw [m.world_below] at lived'
  obtain rfl : S = T := by
    by_contra other
    have lives := ((does.ends lived').lives S).mpr ⟨lived, other⟩
    simp [lives] at dead
  refine ⟨reason, ⟨dead, farewell⟩, ?_⟩
  obtain ⟨memory, world, control, stack⟩ := m
  cases control with
  | code p =>
    cases p with
    | call request next =>
      cases request with
      | stop number id =>
        obtain ⟨⟨rfl, rfl⟩, rfl⟩ := stops
        exact .stopped rfl
      | forget number id =>
        obtain ⟨⟨rfl, rfl⟩, rfl⟩ := stops
        exact .forgotten rfl
      | stopAll number =>
        obtain ⟨⟨rfl, first⟩, rfl⟩ := stops
        exact .first rfl first
      | _ => exact stops.elim
    | _ => exact stops.elim
  | returned r =>
    cases stack with
    | nil => exact stops.elim
    | cons f below =>
      cases f with
      | stopping number rest count =>
        obtain ⟨⟨rfl, first⟩, rfl⟩ := stops
        obtain ⟨others, rfl⟩ := List.head?_eq_some_iff.mp first
        exact .next rfl rfl
      | session s point => simpa [Frame.isSession] using foreign _ (List.mem_singleton.mpr rfl)
      | _ => exact stops.elim
  | unwinding =>
    cases stack with
    | nil => exact stops.elim
    | cons f below =>
      cases f with
      | session s point => simpa [Frame.isSession] using foreign _ (List.mem_singleton.mpr rfl)
      | _ => exact stops.elim
  | _ => exact stops.elim

/-- A session that ends when it goes on has a reason. -/
private theorem resume_departs {s : SessionTask κ} {point : Point κ} (taken : .session s point ∈ m.taken)
    (stages : m.Stages) (lived : m.world.lives S = true)
    (dead : (m.step c).world.lives S = false) :
    ∃ reason, (m.step c).Departs S reason ∧ Parting c S reason m (m.step c) := by
  have on := head?_of_mem_taken taken
  obtain ⟨memory, world, control, stack⟩ := m
  cases stack with
  | nil => exact absurd on.symm (Option.some_ne_none _)
  | cons f below =>
    obtain rfl : f = .session s point := Option.some.inj on
    cases control with
    | returned r =>
      have turn := Machine.continueSession_turn ⟨memory, world, .returned r, below⟩ c s point
      have goes : (⟨memory, world, .returned r, .session s point :: below⟩ : Machine σ κ).step c =
        continueSession c ⟨memory, world, .returned r, below⟩ s point := rfl
      rw [goes] at dead ⊢
      obtain ⟨name, ⟨t, reason, own, settled, departs, handled | ⟨report, hooks, reports, verdict,
        unset⟩⟩ | ⟨breaks, departs⟩⟩ := turn.departs lived dead
      · refine ⟨reason, departs, ?_⟩
        cases point with
        | concluded reason' =>
          obtain rfl : reason = reason' := handled
          exact .handled name.symm rfl rfl
        | _ => exact handled.elim
      · exact ⟨reason, departs,
          goes ▸ .reported name.symm rfl rfl reports verdict unset own (goes.trans settled)⟩
      · refine ⟨.aborted, departs, ?_⟩
        cases point with
        | ending =>
          have ended : world.lives s.name = false := stages.ending s List.mem_cons_self
          rw [← name] at ended
          exact absurd lived (by simp [ended])
        | dropping => exact .dropped name.symm rfl rfl
        | _ => exact breaks.elim
    | unwinding =>
      have turn : Turn { breaks := True } s.name (⟨memory, world, .unwinding, below⟩ : Machine σ κ)
        (finish ⟨memory, world, .unwinding, below⟩ s) := finish_turn rfl fun _ => trivial
      have goes : (⟨memory, world, .unwinding, .session s point :: below⟩ : Machine σ κ).step c =
        finish ⟨memory, world, .unwinding, below⟩ s := unwind_session _ s point
      rw [goes] at dead
      obtain ⟨name, _⟩ := turn.departs lived dead
      refine ⟨.aborted, goes ▸ finish_departs name.symm lived, .unwound name.symm rfl rfl⟩
    | _ => exact absurd taken List.not_mem_nil

/-- A session that ends in a move ends for a reason. -/
theorem Move.departs (move : Move c given m m') (stages : m.Stages) (lived : m.world.lives S = true)
    (dead : m'.world.lives S = false) : ∃ reason, m'.Departs S reason ∧ Parting c S reason m m' := by
  have stays : m'.world.lives S = m.world.lives S →
      ∃ reason, m'.Departs S reason ∧ Parting c S reason m m' := fun still => by
    simp [still, lived] at dead
  cases move.happens with
  | step busy =>
    by_cases own : ∃ s point, .session s point ∈ m.taken
    · obtain ⟨s, point, taken⟩ := own
      exact resume_departs taken stages lived dead
    · refine step_departs (fun f mem => ?_) lived dead
      cases f with
      | session s point => exact absurd ⟨s, point, mem⟩ own
      | _ => rfl
  | @wake before entry after idle listed ready =>
    let w := { m.world with suspended := before ++ after }
    obtain ⟨_, ⟨_, _, _, _, _, handled | ⟨_, _, reports, _⟩⟩ | ⟨breaks, _⟩⟩ :=
      (wake_turn (m.withWorld w) entry).departs (S := S) lived dead
    · exact handled.elim
    · exact reports.elim
    · exact breaks.elim
  | idles idles => exact stays (idles.lives S)
  | @abandon before entry after idle closed listed =>
    let w := { m.world with suspended := before ++ after }
    obtain ⟨name, ⟨_, _, _, _, _, handled | ⟨_, _, reports, _⟩⟩ | ⟨⟨until_, asleep⟩, departs⟩⟩ :=
      (abandon_turn (m := m.withWorld w) closed entry).departs lived dead
    · exact handled.elim
    · exact reports.elim
    · exact ⟨.aborted, departs, .abandoned name.symm closed listed asleep⟩

/-- In a move a session that lives ends for a reason exactly if there is this reason. -/
theorem Move.parting_iff (move : Move c given m m') (stages : m.Stages)
    (lived : m.world.lives S = true) : m'.Departs S reason ↔ Parting c S reason m m' := by
  constructor
  · rintro ⟨dead, farewell⟩
    obtain ⟨reason', ⟨_, farewell'⟩, parting⟩ := move.departs stages lived dead
    obtain rfl : reason = reason' := by
      have same := farewell.symm.trans farewell'
      simpa using same
    exact parting
  · exact fun parting => parting.departs lived

end Machine

end TaskWatch
