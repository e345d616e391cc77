import Mathlib.Data.List.Nodup
import TaskWatch.Proofs.Session.Announced

/-!
# Sessions end with their tasks

A session that lives has a task that runs it: it is about to be handed to the executor, it is in its
turn, or it is suspended. Whenever the task comes to its end, after a terminal report, because
something panicked in its turn, or because the executor went away, the session is ended first. There
is one exception. A task that the executor gives up before its first turn just vanishes, and its
session lives on without it.

## Main definitions

* `Machine.Keeps`, `Machine.Minds` — the task of a session is somewhere; it is if the session lives.
* `Machine.Forsakes` — the executor has gone away before the first turn of a session that lives.

## Main results

* `Machine.Move.minds` — a session that lives keeps its task, unless it is forsaken.
* `Machine.ends_with_task` — when its task is gone the session has ended, and this was announced
  once.
-/

namespace TaskWatch

variable {σ κ : Type}

/-- The task of a session waits in a frame and has not gone over to ending the session: it is about
to be handed to the executor, or in its turn. -/
def Frame.Carries (S : SessionName) : Frame σ κ → Prop
  | .session _ .aborting => False
  | .spawning s | .session s _ => s.name = S
  | _ => False

namespace Machine

variable {c : Consumer σ κ} {given : Code σ κ → Prop} {m m' m₀ : Machine σ κ} {S : SessionName}
  {s : SessionTask κ}

/-- The task of a session is somewhere. -/
def Keeps (m : Machine σ κ) (S : SessionName) : Prop :=
  (∃ f ∈ m.stack, f.Carries S) ∨ ∃ entry ∈ m.world.suspended, entry.task.name = S

/-- The executor has gone away, and a session that lives has not had a turn yet. -/
def Forsakes (m : Machine σ κ) (S : SessionName) : Prop :=
  m.world.hasExecutor = false ∧ m.world.lives S = true ∧
    ∃ entry ∈ m.world.suspended, entry.task.name = S ∧ entry.pause = .fresh

/-- A session does not live without its task. -/
def Minds (m : Machine σ κ) (S : SessionName) : Prop := m.world.lives S = true → m.Keeps S

theorem minds_of_mem {f : Frame σ κ} (on : f ∈ m.stack) (carries : f.Carries S) : m.Minds S :=
  fun _ => .inl ⟨f, on, carries⟩

theorem minds_of_ended (ended : m.world.lives S = false) : m.Minds S := fun living => by
  simp [ended] at living

/-! ### Turns of a session -/

theorem suspend_minds (m : Machine σ κ) (s : SessionTask κ) (pause : Pause) :
    (m.suspend s pause).Minds s.name := fun _ =>
  .inr ⟨⟨s, pause⟩, List.mem_append_right _ List.mem_cons_self, rfl⟩

theorem conclude_minds (m : Machine σ κ) (s : SessionTask κ) (reason : StopReason) :
    (m.conclude s reason).Minds s.name := minds_of_ended (lives_stopSession _ s reason)

theorem finish_minds (m : Machine σ κ) (s : SessionTask κ) : (m.finish s).Minds s.name := by
  rw [finish]
  split
  · exact minds_of_ended (lives_stopSession _ s .aborted)
  · next dead => exact minds_of_ended (Bool.eq_false_iff.mpr dead)

theorem nextRequest_minds (m : Machine σ κ) (s : SessionTask κ) :
    (m.nextRequest s).Minds s.name := by
  rw [nextRequest]
  split
  · exact minds_of_mem List.mem_cons_self rfl
  · exact m.finish_minds s

theorem Responds.minds {report : Report} {hooks : Hooks κ} {seen : List (Option Status)}
    (responds : Responds m s report hooks seen m') : m'.Minds s.name := by
  cases responds with
  | ends ended => exact minds_of_ended ended
  | tells noted hook => exact minds_of_mem List.mem_cons_self rfl
  | @sleeps last noted undecided => exact m.suspend_minds { s with last } _
  | handles noted verdict hook => exact minds_of_mem List.mem_cons_self rfl
  | @concludes last reason noted verdict unset => exact m.conclude_minds { s with last } reason

theorem Receives.minds {result : Except FetchError Report} (receives : Receives m s result m') :
    m'.Minds s.name := by
  cases receives with
  | ends ended => exact minds_of_ended ended
  | writes lives new counted => exact minds_of_mem List.mem_cons_self rfl
  | responds lives responds => exact responds.minds
  | complains lives uncancelled hook => exact minds_of_mem List.mem_cons_self rfl
  | sleeps lives => exact m.suspend_minds s _

/-- A session that goes on keeps its task or ends. -/
theorem continueSession_minds (m : Machine σ κ) (c : Consumer σ κ) {point : Point κ}
    (carries : (Frame.session s point : Frame σ κ).Carries S) :
    (m.continueSession c s point).Minds S := by
  cases point with
  | aborting => exact carries.elim
  | fetching turn =>
    obtain rfl : s.name = S := carries
    rw [continueSession]
    split
    · exact (m.receive_receives s _).minds
    · exact m.suspend_minds s _
    · exact m.suspend_minds s _
    · exact m.suspend_minds s _
  | recorded report hooks =>
    obtain rfl : s.name = S := carries
    exact (m.changeStatus_responds s report hooks).minds
  | changed report hooks =>
    obtain rfl : s.name = S := carries
    exact (m.afterStatus_responds s report hooks).minds
  | concluded reason =>
    obtain rfl : s.name = S := carries
    exact m.conclude_minds s reason
  | failed =>
    obtain rfl : s.name = S := carries
    exact m.suspend_minds s _
  | ending =>
    obtain rfl : s.name = S := carries
    exact m.finish_minds s
  | dropping =>
    obtain rfl : s.name = S := carries
    exact m.finish_minds s

theorem wake_minds (m : Machine σ κ) (entry : Suspended κ) :
    (m.wake entry).Minds entry.task.name := by
  rw [wake]
  dsimp only
  split
  · exact m.nextRequest_minds _
  · split
    · exact minds_of_mem List.mem_cons_self rfl
    · exact minds_of_mem List.mem_cons_self rfl
  · exact m.nextRequest_minds _

/-- A session that is given up after its first turn is ended. -/
theorem abandon_minds (m : Machine σ κ) {entry : Suspended κ} (begun : entry.pause ≠ .fresh) :
    (m.abandon entry).Minds entry.task.name := by
  rw [abandon]
  split
  · next fresh => exact absurd fresh begun
  · exact minds_of_mem List.mem_cons_self rfl
  · exact m.finish_minds _

/-! ### Moves -/

/-- A session that is created has its task. -/
theorem Turnover.minds {added : Nat → TaskId → Prop} (turnover : Turnover added m₀ m')
    (before : m₀.world.lives S = false) : m'.Minds S := by
  intro living
  cases turnover with
  | still new stack plain control does same records =>
    simp [(does.retains same).lives, before] at living
  | @began new s stack plain control does serial =>
    have begins : m₀.world.Begins s.name m'.world := does.begins (S := s.name) serial
    rcases begins.lives living with old | rfl
    · simp [before] at old
    · exact .inl ⟨.spawning s, by rw [stack]; exact List.mem_cons_self, rfl⟩
  | ended new stack plain control does lived =>
    have old := ((does.ends lived).lives S).mp living
    simp [before] at old
  | ending new stack plain control does lived =>
    have old := ((does.ends lived).lives S).mp living
    simp [before] at old

/-- What lies below a step stays where it is. -/
private theorem Extends.keeps {tasks : Nat → TaskId → Prop} {taken : List SessionName}
    (extends_ : Extends tasks taken m₀ m') (keeps : m₀.Keeps S) : m'.Keeps S := by
  obtain ⟨new, d, grows⟩ := extends_
  rcases keeps with ⟨f, on, carries⟩ | ⟨entry, mem, same⟩
  · exact .inl ⟨f, by rw [grows.stack]; exact List.mem_append_right _ on, carries⟩
  · exact .inr ⟨entry, by rw [grows.does.suspended]; exact List.mem_append_left _ mem, same⟩

/-- The task of a session that goes on with a frame is kept, or the session ends. -/
private theorem step_minds_of_taken {f : Frame σ κ} (mem : f ∈ m.taken) (carries : f.Carries S)
    (shelters : m.Shelters Frame.isSpawning) (c : Consumer σ κ) : (m.step c).Minds S := by
  have top := head?_of_mem_taken mem
  obtain ⟨memory, world, control, stack⟩ := m
  cases control with
  | returned r =>
    cases stack with
    | nil => exact absurd mem List.not_mem_nil
    | cons g rest =>
      obtain rfl : f = g := List.mem_singleton.mp mem
      cases f with
      | spawning s =>
        obtain rfl : s.name = S := carries
        exact suspend_minds _ s .fresh
      | session s point => exact continueSession_minds _ c carries
      | _ => exact carries.elim
  | unwinding =>
    cases stack with
    | nil => exact absurd mem List.not_mem_nil
    | cons g rest =>
      obtain rfl : f = g := List.mem_singleton.mp mem
      cases f with
      | spawning s =>
        -- A panic does not reach a new session.
        have calm := shelters.top _ top rfl
        simp [Control.isCalm] at calm
      | session s point =>
        have name : s.name = S := by
          cases point with
          | aborting => exact carries.elim
          | _ => exact carries
        have goes : (⟨memory, world, .unwinding, .session s point :: rest⟩ : Machine σ κ).step c =
            finish ⟨memory, world, .unwinding, rest⟩ s := unwind_session _ s point
        rw [goes, ← name]
        exact finish_minds _ s
      | _ => exact carries.elim
  | _ => exact absurd mem List.not_mem_nil

private theorem step_minds (minds : m.Minds S) (shelters : m.Shelters Frame.isSpawning)
    (c : Consumer σ κ) : (m.step c).Minds S := by
  by_cases lived : m.world.lives S = true
  · rcases minds lived with ⟨f, on, carries⟩ | suspended
    · rw [m.stack_eq] at on
      rcases List.mem_append.mp on with taken | left
      · exact step_minds_of_taken taken carries shelters c
      · exact fun _ => (m.step_extends_anyhow c).keeps (.inl ⟨f, left, carries⟩)
    · exact fun _ => (m.step_extends_anyhow c).keeps (.inr (m.world_below.symm ▸ suspended))
  · have dead : m.world.lives S = false := Bool.eq_false_iff.mpr lived
    rcases m.step_near_or_turnover c with near | turnover
    · exact minds_of_ended ((near.lives S).trans dead)
    · exact turnover.minds (by rw [world_below, dead])

/-- The other sessions keep their tasks when the executor takes a suspended one. -/
private theorem Minds.without {before after : List (Suspended κ)} {entry : Suspended κ}
    (minds : m.Minds S) (idle : m.isIdle = true)
    (listed : m.world.suspended = before ++ entry :: after) (other : entry.task.name ≠ S) :
    (m.withWorld { m.world with suspended := before ++ after }).Minds S := by
  intro living
  rcases minds living with ⟨f, on, _⟩ | ⟨found, mem, same⟩
  · rw [stack_of_isIdle idle] at on
    exact absurd on List.not_mem_nil
  · have differs : found ≠ entry := fun equal => other (equal ▸ same)
    refine .inr ⟨found, ?_, same⟩
    rw [listed, List.mem_append, List.mem_cons] at mem
    rcases mem with mem | equal | mem
    · exact List.mem_append_left _ mem
    · exact absurd equal differs
    · exact List.mem_append_right _ mem

/-- What stays below is kept, and what is created has its task. -/
private theorem Minds.extends {tasks : Nat → TaskId → Prop} {names : List SessionName}
    (minds : m₀.Minds S) (extends_ : Extends tasks names m₀ m')
    (turnover : Turnover (fun _ _ => False) m₀ m') : m'.Minds S := by
  by_cases lived : m₀.world.lives S = true
  · exact fun _ => extends_.keeps (minds lived)
  · exact turnover.minds (Bool.eq_false_iff.mpr lived)

private theorem Minds.idles (minds : m.Minds S) (idles : Idles m m') : m'.Minds S := by
  intro living
  rcases minds (idles.lives S ▸ living) with ⟨f, on, _⟩ | ⟨entry, mem, name⟩
  · rw [stack_of_isIdle idles.idle] at on
    exact absurd on List.not_mem_nil
  · exact .inr ⟨entry, idles.suspended.symm.subset mem, name⟩

/-- A session that lives keeps its task, unless it is forsaken. -/
theorem Move.minds (minds : m.Minds S) (shelters : m.Shelters Frame.isSpawning)
    (move : Move c given m m') : m'.Minds S ∨ m.Forsakes S := by
  cases move.happens with
  | step busy => exact .inl (step_minds minds shelters c)
  | @wake before entry after idle listed ready =>
    left
    by_cases same : entry.task.name = S
    · exact same ▸ wake_minds _ entry
    · have others := minds.without idle listed same
      exact others.extends (wake_extends_anyhow _ entry) (wake_turnover _ entry)
  | idles idles => exact .inl (minds.idles idles)
  | @abandon before entry after idle closed listed =>
    by_cases same : entry.task.name = S
    · by_cases fresh : entry.pause = .fresh
      · by_cases lived : m.world.lives S = true
        · have mem : entry ∈ m.world.suspended := listed ▸ List.mem_append_right _ List.mem_cons_self
          exact .inr ⟨closed, lived, entry, mem, same, fresh⟩
        · left
          rw [Machine.abandon, fresh]
          exact minds_of_ended (Bool.eq_false_iff.mpr lived)
      · exact .inl (same ▸ abandon_minds _ fresh)
    · left
      have others := minds.without idle listed same
      exact others.extends (abandon_extends_anyhow _ entry) (abandon_turnover _ entry)

/-! ### Runs -/

section Ends

variable {past later : List (Machine σ κ)} {m₁ m₂ : Machine σ κ}

/-- A session that lives after another one of its task is a newer one. -/
theorem Run.newer {T : SessionName} (reach : Reachable c m₁) (lived : m₁.world.lives S = true)
    (further : Run c given m₁ later m₂) (dead : m₂.world.lives S = false)
    (tracker : T.tracker = S.tracker) (id : T.id = S.id) (living : m₂.world.lives T = true) :
    S.serial < T.serial := by
  rcases further.succeeds.lives T living with old | ⟨new, _⟩
  · -- Two sessions of one task do not live at the same time.
    have same : S.serial = T.serial := by
      have found := World.lives_iff.mp old
      rw [tracker, id, World.lives_iff.mp lived] at found
      exact Option.some.inj found
    have equal : T = S := by
      obtain ⟨k, i, n⟩ := T
      obtain ⟨k', i', n'⟩ := S
      simp_all
    rw [equal, dead] at living
    exact absurd living Bool.false_ne_true
  · exact Nat.lt_of_lt_of_le (reach.sound.given S lived) new

/-- The end of a session is announced once, if no panic reaches the announcement. -/
theorem Run.announced_once (reach : Reachable c m₀) (calm : m₀.errandFrames = [])
    (run : Run c given m₀ past m₁) (lived : m₁.world.lives S = true)
    (further : Run c given m₁ later m₂) (dead : m₂.world.lives S = false) (idle : m₂.isIdle = true)
    (returns : ∀ m ∈ m₁ :: later, m.control = .unwinding → ∀ reason,
      m.stack.head? ≠ some (.announcing S.tracker S.id reason)) :
    (Ledger.after m₀ (past ++ later)).ended.count S = 1 ∧
      ∃ reason, (S.tracker, .stopped S.id reason) ∈ later.flatMap emits := by
  have fresh := run.not_mem_gone reach calm lived
  have ended : S ∈ (Ledger.after m₀ (past ++ later)).ended := by
    refine (run.mem_ended_or_lost calm lived further dead idle).resolve_right fun lost => ?_
    obtain ⟨m, mem, control, reason, top⟩ := run.panicked calm further lost fresh
    exact returns m mem control reason top
  constructor
  · have once := ((run.append further).balances reach calm).once
    rw [Ledger.gone, List.append_assoc, List.nodup_append] at once
    exact List.count_eq_one_of_mem once.1 ended
  · obtain ⟨reason, announced⟩ := Ledger.mem_ended.mp ended
    obtain ⟨news, grown, told⟩ := run.news calm further
    have new : .ended S reason ∈ news := by
      rw [grown, List.mem_append] at announced
      refine announced.resolve_left fun old => fresh ?_
      exact Ledger.mem_gone_of_ended (Ledger.mem_ended.mpr ⟨reason, old⟩)
    exact ⟨reason, told ▸ List.mem_map_of_mem new⟩

end Ends

section History

variable {memory : σ} {storage : Storage} {wallClock : Nat} {hasExecutor : Bool}
  {past later : List (Machine σ κ)} {m₁ m₂ : Machine σ κ}

/-- At every time a session that lives has its task, unless it has been forsaken before. -/
theorem Run.minds (run : Run c given (.idle memory (.blank storage wallClock hasExecutor)) past m₁)
    (S : SessionName) : m₁.Minds S ∨ ∃ m ∈ past, m.Forsakes S := by
  have blank : (World.blank storage wallClock hasExecutor : World κ).lives S = false := by
    refine Bool.eq_false_iff.mpr fun living => ?_
    exact absurd (World.inside_of_lives living) (Nat.not_lt_zero _)
  induction run with
  | start => exact .inl (minds_of_ended blank)
  | @move states m₁ m₂ run next ih =>
    rcases ih with minds | ⟨m, mem, forsakes⟩
    · rcases next.minds minds run.reachable.shelters_spawning with minds | forsakes
      · exact .inl minds
      · rcases List.mem_cons.mp run.mem_cons with rfl | mem
        · have lived := forsakes.2.1
          exact absurd (blank.symm.trans lived) Bool.false_ne_true
        · exact .inr ⟨m₁, List.mem_append_left _ mem, forsakes⟩
    · exact .inr ⟨m, List.mem_append_left _ mem, forsakes⟩

/-- When the task of a session has come to its end, the session has ended, any session of its task
that lives is a newer one, and its end has been announced once. Otherwise the session lives on,
nothing has been announced, and the executor went away before its first turn. -/
theorem ends_with_task
    (run : Run c given (.idle memory (.blank storage wallClock hasExecutor)) past m₁)
    (lived : m₁.world.lives S = true) (further : Run c given m₁ later m₂)
    (idle : m₂.isIdle = true) (gone : S ∉ m₂.names)
    (returns : ∀ m ∈ m₁ :: later, m.control = .unwinding → ∀ reason,
      m.stack.head? ≠ some (.announcing S.tracker S.id reason)) :
    m₂.world.lives S = false ∧
        (∀ T, T.tracker = S.tracker → T.id = S.id → m₂.world.lives T = true →
          S.serial < T.serial) ∧
        (Ledger.after (.idle memory (.blank storage wallClock hasExecutor))
          (past ++ later)).ended.count S = 1 ∧
        (∃ reason, (S.tracker, .stopped S.id reason) ∈ later.flatMap emits) ∨
      m₂.world.lives S = true ∧
        (Ledger.after (.idle memory (.blank storage wallClock hasExecutor))
          (past ++ later)).ended.count S = 0 ∧
        ∃ m ∈ past ++ later, m.Forsakes S := by
  have whole := run.append further
  have blank : Reachable c (.idle memory (.blank storage wallClock hasExecutor)) :=
    ⟨memory, storage, wallClock, hasExecutor, .refl _⟩
  by_cases living : m₂.world.lives S = true
  · refine .inr ⟨living, List.count_eq_zero.mpr fun ended => ?_, ?_⟩
    · have dead := (whole.balances blank rfl).dead S (Ledger.mem_gone_of_ended ended)
      simp [dead] at living
    · refine (whole.minds S).resolve_left fun minds => gone ?_
      rcases minds living with ⟨f, on, _⟩ | ⟨entry, mem, rfl⟩
      · rw [stack_of_isIdle idle] at on
        exact absurd on List.not_mem_nil
      · exact List.mem_append_right _ (List.mem_map_of_mem mem)
  · have dead : m₂.world.lives S = false := Bool.eq_false_iff.mpr living
    have reach : Reachable c m₁ := blank.run run
    exact .inl ⟨dead, fun T tracker id living => further.newer reach lived dead tracker id living,
      run.announced_once blank rfl lived further dead idle returns⟩

end History

/-! ### A task that is given up before its first turn -/

/-- A session is about to be started in a new world. -/
def launching : Machine Unit Nat :=
  (idle () (.blank .inMemory 0 true)).code <|
    .call (.openTracker "tasks" .default) fun _ =>
    .call (.start 0 "a" 1) fun _ => .done

/-- The session has been started and has not had a turn. -/
def launched : Machine Unit Nat := stepTimes saboteur 7 launching

/-- The task of the session. -/
def pending : Suspended Nat := ⟨{ tracker := 0, id := "a", serial := 1, fetcher := 1 }, .fresh⟩

/-- What has happened until then. -/
def launch : List (Machine Unit Nat) := [launching] ++ trail saboteur 7 launching

theorem launch_run :
    Run saboteur (fun _ => True) (.idle () (.blank .inMemory 0 true)) launch launched :=
  (Run.start.move (.code rfl trivial)).append (run_steps (by decide +kernel))

/-- The executor has gone away. -/
def deserted : Machine Unit Nat :=
  launched.withWorld { launched.world with hasExecutor := false }

/-- The executor goes away before the first turn of a session: the task of the session is nowhere,
but the session lives on, and nothing has been announced. -/
theorem lives_on_unpolled :
    ∃ (past later : List (Machine Unit Nat)) (m₁ m₂ : Machine Unit Nat) (S : SessionName),
      Run saboteur (fun _ => True) (.idle () (.blank .inMemory 0 true)) past m₁ ∧
      m₁.world.lives S = true ∧ Run saboteur (fun _ => True) m₁ later m₂ ∧ m₂.isIdle = true ∧
      S ∉ m₂.names ∧ (∀ m ∈ m₁ :: later, (m.control matches .unwinding) = false) ∧
      m₂.world.lives S = true ∧ later.flatMap emits = [] := by
  have closes : Move saboteur (fun _ => True) launched deserted :=
    .close (by decide +kernel) (.refl _)
  have gives : Move saboteur (fun _ => True) deserted
      ((deserted.withWorld { deserted.world with suspended := [] ++ [] }).abandon pending) :=
    .abandon (by decide +kernel) rfl rfl
  exact ⟨launch, _, launched, _, ⟨0, "a", 1⟩, launch_run, by decide +kernel,
    (Run.start.move closes).move gives, by decide +kernel, by decide +kernel, by decide +kernel,
    by decide +kernel, by decide +kernel⟩

/-- The session gets its first turn. -/
def polled : Machine Unit Nat :=
  (launched.withWorld { launched.world with suspended := [] ++ [] }).wake pending

/-- In its first turn the fetcher of the session panics: the session ends, which is announced once.
-/
theorem ends_with_task_panicking :
    (Ledger.after (.idle () (.blank .inMemory 0 true))
      (launch ++ ([polled] ++ trail saboteur 6 polled))).ended.count ⟨0, "a", 1⟩ = 1 := by
  have wakes : Move saboteur (fun _ => True) launched polled :=
    .wake (by decide +kernel) rfl (by decide +kernel)
  have turn : Run saboteur (fun _ => True) launched ([polled] ++ trail saboteur 6 polled) _ :=
    (Run.start.move wakes).append (run_steps (by decide +kernel))
  have none : ∀ m ∈ launched :: ([polled] ++ trail saboteur 6 polled),
      m.stack.head?.any Frame.isErrand = false := by
    decide +kernel
  have gone : (⟨0, "a", 1⟩ : SessionName) ∉ (stepTimes saboteur 6 polled).names := by
    decide +kernel
  rcases ends_with_task launch_run (by decide +kernel) turn (by decide +kernel) gone
      (fun m mem _ reason top => by
        simpa [top, Frame.isErrand] using none m mem) with
    ⟨_, _, once, _⟩ | ⟨living, _⟩
  · exact once
  · exact absurd living (by decide +kernel)

end Machine

end TaskWatch
