import TaskWatch.Configuration
import TaskWatch.Proofs.Run.Executor
import TaskWatch.Proofs.Run.Tuning
import TaskWatch.Proofs.Session.Stage

/-!
# Sessions pause between requests

Intervals are whole milliseconds, and one of zero would make a session spin. Trackers are opened
with intervals of a millisecond at least, and a patch that sets a shorter one is refused as a whole.
So the intervals of all trackers are positive at every time, whoever configures them and from
wherever, and after each answer a session sleeps until the clock has moved.

## Main definitions

* `Duration.total` — a duration in nanoseconds.
* `Cadence.IsPositive` — both intervals are a millisecond at least.
* `SettingsPatch.IsShort`, `Settings.replaced` — a patch that is to be refused, and what one that is
  accepted sets.
* `Machine.Relents` — a session deals with an answer.
* `Machine.Reposes` — a session makes no request before a time has passed.
* `Machine.IsPaced` — what is true of settings and pauses at every time.

## Main results

* `Settings.patched_of_isShort`, `Settings.patched_of_not_isShort` — a patch is refused if it sets
  an interval that is too short, and replaces exactly what it sets otherwise.
* `Machine.Reachable.isPositive` — all intervals are positive in every reachable state.
* `Machine.Run.reposes` — after an answer a session makes no request before the clock has moved.
* `Machine.reachable_paced` — all of it, for every reachable state.
-/

namespace TaskWatch

variable {σ κ : Type}

/-! ### Durations and intervals -/

namespace Duration

/-- A duration in nanoseconds. -/
def total (d : Duration) : Nat := d.seconds * 1000000000 + d.nanos

/-- Whole milliseconds are nanoseconds rounded down; the longest 64-bit count of them stands for all
that are longer. -/
theorem millis_eq (d : Duration) : d.millis = min longest (d.total / 1000000) := by
  have split : d.total / 1000000 = d.seconds * 1000 + d.nanos / 1000000 := by
    rw [total]
    omega
  rw [millis, split]

theorem millis_eq_zero (d : Duration) : d.millis = 0 ↔ d.total < 1000000 := by
  rw [millis_eq, longest]
  omega

end Duration

namespace Cadence

/-- Both intervals are a millisecond at least. -/
structure IsPositive (c : Cadence) : Prop where
  processing : 1 ≤ c.processing
  queued : 1 ≤ c.queued

theorem isPositive_default : default.IsPositive := ⟨by decide, by decide⟩

theorem check_eq_ok {c : Cadence} : c.check = .ok () ↔ c.IsPositive := by
  rw [check]
  constructor
  · intro passes
    split at passes
    · simp at passes
    · split at passes
      · simp at passes
      · next processing queued => exact ⟨Nat.pos_of_ne_zero processing, Nat.pos_of_ne_zero queued⟩
  · rintro ⟨processing, queued⟩
    rw [if_neg (Nat.ne_of_gt processing), if_neg (Nat.ne_of_gt queued)]

/-- The pause after a report is a millisecond at least. -/
theorem IsPositive.intervalFor {c : Cadence} (positive : c.IsPositive) (status : Status) :
    1 ≤ c.intervalFor status := by
  cases status with
  | processing => exact positive.processing
  | _ => exact positive.queued

end Cadence

/-- A document with an interval of zero is no configuration. -/
theorem Configuration.isPositive_of_ofToml {text : String} {configuration : Configuration}
    (reads : ofToml text = .ok configuration) : configuration.cadence.IsPositive := by
  rw [ofToml] at reads
  split at reads
  · simp at reads
  · split at reads
    · next checked =>
      obtain rfl := Except.ok.inj reads
      exact Cadence.check_eq_ok.mp checked
    · simp at reads

/-! ### Patches -/

/-- A patch sets an interval shorter than a millisecond. -/
def SettingsPatch.IsShort (patch : SettingsPatch κ) : Prop :=
  ∃ d, (patch.processing = some d ∨ patch.queued = some d) ∧ d.total < 1000000

namespace Settings

/-- Settings with exactly what a patch sets replaced. -/
def replaced (s : Settings κ) (patch : SettingsPatch κ) : Settings κ where
  cadence :=
    { processing := (patch.processing.map Duration.millis).getD s.cadence.processing
      queued := (patch.queued.map Duration.millis).getD s.cadence.queued }
  hooks :=
    { statusChange := patch.hooks.statusChange.or s.hooks.statusChange
      complete := patch.hooks.complete.or s.hooks.complete
      failed := patch.hooks.failed.or s.hooks.failed
      error := patch.hooks.error.or s.hooks.error
      stopped := patch.hooks.stopped.or s.hooks.stopped }

variable {s : Settings κ} {patch : SettingsPatch κ}

private theorem patched_cadence (s : Settings κ) (patch : SettingsPatch κ) :
    s.cadence.patched patch.processing patch.queued = (s.replaced patch).cadence := by
  obtain ⟨processing, queued, hooks⟩ := patch
  cases processing <;> cases queued <;> rfl

/-- Intervals are too short after a patch only if the patch sets one that is. -/
theorem isPositive_replaced (positive : s.cadence.IsPositive) :
    (s.replaced patch).cadence.IsPositive ↔ ¬ patch.IsShort := by
  have long : ∀ {d : Duration}, 1 ≤ d.millis ↔ ¬ d.total < 1000000 := fun {d} => by
    rw [← d.millis_eq_zero]
    omega
  constructor
  · rintro ⟨processing, queued⟩ ⟨d, set, short⟩
    rcases set with set | set
    · rw [replaced, set] at processing
      exact long.mp processing short
    · rw [replaced, set] at queued
      exact long.mp queued short
  · intro never
    refine ⟨?_, ?_⟩
    · cases set : patch.processing with
      | none => simpa [replaced, set] using positive.processing
      | some d => simpa [replaced, set] using long.mpr fun short => never ⟨d, .inl set, short⟩
    · cases set : patch.queued with
      | none => simpa [replaced, set] using positive.queued
      | some d => simpa [replaced, set] using long.mpr fun short => never ⟨d, .inr set, short⟩

/-- A patch that sets an interval too short is refused, whatever has been set before. -/
theorem patched_of_isShort (positive : s.cadence.IsPositive) (short : patch.IsShort) :
    ∃ e, s.patched patch = .error e := by
  have fails : (s.replaced patch).cadence.check ≠ .ok () := fun passes =>
    (isPositive_replaced positive).mp (Cadence.check_eq_ok.mp passes) short
  rw [patched, patched_cadence]
  cases check : (s.replaced patch).cadence.check with
  | error e => exact ⟨e, rfl⟩
  | ok _ => exact absurd check fails

/-- Every other patch replaces exactly what it sets. -/
theorem patched_of_not_isShort (positive : s.cadence.IsPositive) (long : ¬ patch.IsShort) :
    s.patched patch = .ok (s.replaced patch) := by
  have passes : (s.replaced patch).cadence.check = .ok () :=
    Cadence.check_eq_ok.mpr ((isPositive_replaced positive).mpr long)
  rw [patched, patched_cadence]
  simp only [passes]
  rfl

end Settings

namespace World

/-- The intervals of all trackers are a millisecond at least. -/
def IsPositive (w : World κ) : Prop := ∀ k, (w.tracker k).settings.cadence.IsPositive

/-- However settings are changed, the intervals stay positive. -/
theorem Tunes.isPositive {w w' : World κ} {asked : Option (Call κ)} (tunes : w.Tunes asked w')
    (positive : w.IsPositive) : w'.IsPositive := fun k => by
  cases tunes with
  | keeps same => exact same k ▸ positive k
  | opened call checked =>
    rw [settings_after]
    dsimp only
    split
    · exact Cadence.check_eq_ok.mp checked
    · exact positive k
  | @configured number patch settings call accepted =>
    rw [settings_after]
    dsimp only
    split
    · by_cases short : patch.IsShort
      · obtain ⟨e, refused⟩ := Settings.patched_of_isShort (positive number) short
        simp [refused] at accepted
      · rw [Settings.patched_of_not_isShort (positive number) short] at accepted
        obtain rfl := Except.ok.inj accepted
        exact (Settings.isPositive_replaced (positive number)).mpr short
    · exact positive k

end World

/-- Whether a session in this frame may make a request without having slept: it has not had a turn
yet, or its fetcher works. -/
def Frame.isEager : Frame σ κ → Bool
  | .spawning _ | .session _ (.fetching _) => true
  | _ => false

/-- Whether a fetcher is being called. -/
def Control.isRequest : Control σ κ → Bool
  | .calling _ (.fetching _ _) => true
  | _ => false

namespace Machine

variable {m m' m₀ : Machine σ κ} {c : Consumer σ κ} {given : Code σ κ → Prop} {S : SessionName}
  {s : SessionTask κ} {time : Nat} {states : List (Machine σ κ)}

/-- All intervals are positive in every reachable state. -/
theorem Reachable.isPositive (reach : Reachable c m) : m.world.IsPositive :=
  reach.induction (fun _ _ _ _ _ => Cadence.isPositive_default) fun _ _ positive move =>
    move.tunes.isPositive positive

/-! ### What a session does with an answer -/

/-- A session makes no request, and if it is suspended it sleeps until the clock has moved. -/
structure Relents (m m' : Machine σ κ) : Prop where
  stack : ∃ new, m'.stack = new ++ m.stack ∧ ∀ f ∈ new, f.isEager = false
  suspended : ∀ entry ∈ m'.world.suspended, entry ∈ m.world.suspended ∨
    ∃ wake, entry.pause = .sleeping wake ∧ m.world.clock < wake
  silent : m'.control.isRequest = false

/-- Nothing is pushed, and nobody is suspended. -/
theorem Relents.pass {w : World κ} {control : Control σ κ} (same : w.suspended = m.world.suspended)
    (silent : control.isRequest = false) :
    Relents m ⟨m.memory, w, control, m.stack⟩ :=
  ⟨⟨[], rfl, by simp⟩, fun _ mem => .inl (same ▸ mem), silent⟩

/-- One frame is pushed, and nobody is suspended. -/
theorem Relents.push {w : World κ} {control : Control σ κ} {f : Frame σ κ}
    (same : w.suspended = m.world.suspended) (calm : f.isEager = false)
    (silent : control.isRequest = false) :
    Relents m ⟨m.memory, w, control, f :: m.stack⟩ :=
  ⟨⟨[f], rfl, by simpa using calm⟩, fun _ mem => .inl (same ▸ mem), silent⟩

theorem sleep_relents (m : Machine σ κ) (s : SessionTask κ) {millis : Nat} (positive : 1 ≤ millis) :
    Relents m (m.sleep s millis) := by
  refine ⟨⟨[], rfl, by simp⟩, fun entry mem => ?_, rfl⟩
  rcases List.mem_append.mp mem with old | new
  · exact .inl old
  · rw [List.mem_singleton.mp new]
    exact .inr ⟨_, rfl, Nat.lt_add_of_pos_right positive⟩

/-- A session stops itself. -/
private theorem stop_relents (m : Machine σ κ) (s : SessionTask κ) {point : Point κ}
    (calm : (Frame.session s point : Frame σ κ).isEager = false) (reason : StopReason) :
    Relents m
      ((m.push (.session s point)).stopSession s.tracker s.id (some s.serial) reason) := by
  have both : ∀ {f : Frame σ κ}, f.isEager = false →
      ∀ g ∈ [f, .session s point], g.isEager = false := fun first =>
    List.forall_mem_cons.mpr ⟨first, List.forall_mem_singleton.mpr calm⟩
  obtain still | ⟨serial, _, ended | ⟨label, ended⟩⟩ :=
    (m.push (.session s point)).stopSession_cases s.tracker s.id (some s.serial) reason
  · rw [still]
    exact .push rfl calm rfl
  · rw [ended]
    exact ⟨⟨[.answering (.flag true), .session s point], rfl, both rfl⟩, fun _ => .inl, rfl⟩
  · rw [ended]
    exact ⟨⟨[.announcing _ _ _, .session s point], rfl, both rfl⟩, fun _ => .inl, rfl⟩

theorem finish_relents (m : Machine σ κ) (s : SessionTask κ) : Relents m (m.finish s) := by
  rw [finish]
  split
  · exact m.stop_relents s rfl _
  · exact .pass rfl rfl

section Positive

variable (positive : m.world.IsPositive)

include positive

theorem Responds.relents {report : Report} {hooks : Hooks κ} {seen : List (Option Status)}
    (responds : Responds m s report hooks seen m') : Relents m m' := by
  cases responds with
  | ends ended => exact .pass rfl rfl
  | tells noted hook => exact .push rfl rfl rfl
  | sleeps noted undecided => exact m.sleep_relents _ ((positive s.tracker).intervalFor _)
  | handles noted verdict hook =>
    refine .push rfl rfl ?_
    rw [Report.conclusion]
    split <;> rfl
  | concludes noted verdict unset => exact m.stop_relents _ rfl _

theorem Receives.relents {result : Except FetchError Report} (receives : Receives m s result m') :
    Relents m m' := by
  cases receives with
  | ends ended => exact .pass rfl rfl
  | writes lives new counted => exact .push rfl rfl rfl
  | responds lives responds => exact responds.relents positive
  | complains lives uncancelled hook => exact .push rfl rfl rfl
  | sleeps lives => exact m.sleep_relents s (positive s.tracker).queued

/-- A session that goes on after its fetcher has been at work makes no request before it has slept.
-/
theorem continueSession_relents (c : Consumer σ κ) (s : SessionTask κ) {point : Point κ}
    (past : (Frame.session s point : Frame σ κ).isEager = false) :
    Relents m (m.continueSession c s point) := by
  cases point with
  | fetching turn => simp [Frame.isEager] at past
  | recorded report hooks => exact (m.changeStatus_responds s report hooks).relents positive
  | changed report hooks => exact (m.afterStatus_responds s report hooks).relents positive
  | concluded reason => exact m.stop_relents s rfl _
  | failed => exact m.sleep_relents s (positive s.tracker).queued
  | ending => exact m.finish_relents s
  | dropping => exact m.finish_relents s
  | aborting => exact .pass rfl rfl

end Positive

/-! ### Sleeping until the clock has moved -/

/-- The fetcher of a session is being called. -/
def Asks (S : SessionName) (m : Machine σ κ) : Prop :=
  ∃ label request turn, m.act? = some (S, .calls label (.fetching request turn))

/-- A session has to sleep until after a time before it makes a request: its fetcher does not work,
and where it is suspended it sleeps for longer. -/
structure Reposes (S : SessionName) (time : Nat) (m : Machine σ κ) : Prop where
  created : S.serial < m.world.nextSerial
  frames : ∀ f ∈ m.stack, S ∈ f.names → f.isEager = false
  suspended : ∀ entry ∈ m.world.suspended, entry.task.name = S →
    ∃ wake, entry.pause = .sleeping wake ∧ time < wake

theorem Asks.standing (asks : Asks S m) :
    (∃ label request turn, m.control = .calling label (.fetching request turn)) ∧
      ∃ s point rest, m.stack = .session s point :: rest ∧ s.name = S := by
  obtain ⟨label, request, turn, act⟩ := asks
  rw [act?] at act
  split at act
  · next control stack =>
    obtain ⟨own, called⟩ := Prod.mk.inj (Option.some.inj act)
    obtain ⟨rfl, rfl⟩ := Act.calls.inj called
    exact ⟨⟨_, _, _, control⟩, _, _, _, stack, own⟩
  all_goals simp at act

private theorem not_asks_of_quiet (quiet : m.act? = none) : ¬ Asks S m := by
  rintro ⟨label, request, turn, act⟩
  simp [quiet] at act

/-- A session that deals with an answer makes no request before the clock has moved. -/
private theorem Relents.reposes (relents : Relents m m') (reposes : Reposes S time m)
    (serials : m.world.nextSerial ≤ m'.world.nextSerial) (late : time ≤ m.world.clock) :
    Reposes S time m' ∧ ¬ Asks S m' := by
  obtain ⟨new, stack, calm⟩ := relents.stack
  refine ⟨⟨Nat.lt_of_lt_of_le reposes.created serials, fun f mem own => ?_,
    fun entry mem own => ?_⟩, fun asks => ?_⟩
  · rw [stack] at mem
    exact (List.mem_append.mp mem).elim (calm f) fun old => reposes.frames f old own
  · rcases relents.suspended entry mem with old | ⟨wake, sleeps, later⟩
    · exact reposes.suspended entry old own
    · exact ⟨wake, sleeps, Nat.lt_of_le_of_lt late later⟩
  · obtain ⟨label, request, turn, control⟩ := asks.standing.1
    exact Bool.false_ne_true (relents.silent.symm.trans (congrArg Control.isRequest control))

/-- What is done without the session does not give it a turn. -/
private theorem Extends.reposes {tasks : Nat → TaskId → Prop} {turns : List SessionName}
    (h : Extends tasks turns m m') (other : S ∉ turns) (reposes : Reposes S time m) :
    Reposes S time m' ∧ ¬ Asks S m' := by
  obtain ⟨new, d, grows⟩ := h
  -- A session that stands somewhere new is another one, or has just been created.
  have absent : S ∉ new.flatMap Frame.names ++ d.suspends.map fun entry => entry.task.name :=
    fun mem => (List.mem_append.mp (grows.names.subset mem)).elim other fun created =>
      Nat.ne_of_lt reposes.created (serial_of_mem_news created).1
  have onNew : ∀ f ∈ new, S ∉ f.names := fun f mem own =>
    absent (List.mem_append_left _ (List.mem_flatMap.mpr ⟨f, mem, own⟩))
  refine ⟨⟨Nat.lt_of_lt_of_le reposes.created grows.does.succeeds.serials, fun f mem own => ?_,
    fun entry mem own => ?_⟩, fun asks => ?_⟩
  · rw [grows.stack] at mem
    exact (List.mem_append.mp mem).elim (fun fresh => absurd own (onNew f fresh))
      fun old => reposes.frames f old own
  · rw [grows.does.suspended] at mem
    refine (List.mem_append.mp mem).elim (fun old => reposes.suspended entry old own)
      fun fresh => ?_
    exact absurd (List.mem_append_right _ (List.mem_map.mpr ⟨entry, fresh, own⟩)) absent
  · obtain ⟨⟨label, request, turn, control⟩, s, point, rest, stack, own⟩ := asks.standing
    rw [grows.stack] at stack
    cases new with
    | nil => exact grows.top (by rw [control]; rfl) rfl
    | cons f others =>
      obtain ⟨rfl, _⟩ := List.cons.inj stack
      exact onNew _ List.mem_cons_self (List.mem_singleton.mpr own.symm)

/-- Nobody gets a turn. -/
private theorem Reposes.of_subset (reposes : Reposes S time m) (stack : m'.stack ⊆ m.stack)
    (suspended : ∀ entry ∈ m'.world.suspended, entry ∈ m.world.suspended)
    (serials : m'.world.nextSerial = m.world.nextSerial) : Reposes S time m' where
  created := serials ▸ reposes.created
  frames f mem := reposes.frames f (stack mem)
  suspended entry mem := reposes.suspended entry (suspended entry mem)

private theorem Reposes.without (reposes : Reposes S time m) {before after : List (Suspended κ)}
    {entry : Suspended κ} (listed : m.world.suspended = before ++ entry :: after) :
    Reposes S time (m.withWorld { m.world with suspended := before ++ after }) := by
  refine reposes.of_subset (List.Subset.refl _) (fun other mem => ?_) rfl
  rw [listed]
  exact (List.mem_append.mp mem).elim (List.mem_append_left _) fun later =>
    List.mem_append_right _ (List.mem_cons_of_mem _ later)

/-- A session that has to sleep goes on with an answer in a step, or does not go on at all. -/
private theorem step_reposes (positive : m.world.IsPositive) (reposes : Reposes S time m)
    (late : time ≤ m.world.clock) (c : Consumer σ κ) :
    Reposes S time (m.step c) ∧ ¬ Asks S (m.step c) := by
  have below : Reposes S time m.below := by
    refine reposes.of_subset ?_ (fun entry mem => m.world_below ▸ mem) (by rw [world_below])
    rw [m.stack_eq]
    exact List.subset_append_right _ _
  have positive' : m.below.world.IsPositive := m.world_below ▸ positive
  have late' : time ≤ m.below.world.clock := m.world_below ▸ late
  have serials : m.below.world.nextSerial ≤ (m.step c).world.nextSerial :=
    m.world_below ▸ (m.step_succeeds c).serials
  by_cases own : S ∈ m.taken.flatMap Frame.names
  · obtain ⟨f, mem, named⟩ := List.mem_flatMap.mp own
    have stands : f ∈ m.stack := m.stack_eq ▸ List.mem_append_left _ mem
    have calm : f.isEager = false := reposes.frames f stands named
    cases f with
    | session s point =>
      have relents : Relents m.below (m.step c) := by
        rcases step_of_mem_taken mem c with ⟨r, goes⟩ | goes
        · rw [goes]
          exact continueSession_relents positive' c s calm
        · rw [goes, unwind_session]
          exact m.below.finish_relents s
      exact relents.reposes below serials late'
    | spawning s => simp [Frame.isEager] at calm
    | _ => simp [Frame.names] at named
  · exact (m.step_extends_anyhow c).reposes own below

/-- As long as the clock has not moved, a session that has to sleep makes no request in any move. -/
theorem Move.reposes (positive : m.world.IsPositive) (reposes : Reposes S time m)
    (late : time ≤ m.world.clock) (move : Move c given m m') :
    time < m'.world.clock ∨ Reposes S time m' ∧ ¬ Asks S m' := by
  have serials : m.world.nextSerial ≤ m'.world.nextSerial := move.succeeds.serials
  cases move.happens with
  | step busy => exact .inr (step_reposes positive reposes late c)
  | @wake before entry after idle listed ready =>
    have without := reposes.without listed
    by_cases own : entry.task.name = S
    · -- It is ready because its time has come, or because it has ended.
      obtain ⟨time', sleeps, later⟩ := reposes.suspended entry
        (listed ▸ List.mem_append_right _ List.mem_cons_self) own
      by_cases due : time' ≤ m.world.clock
      · left
        rw [wake_clock]
        exact Nat.lt_of_lt_of_le later due
      · right
        have dead : m.world.isLive entry.task = false := by
          simpa [World.isReady, sleeps, Pause.wakeTime, due] using ready
        have ends : (m.withWorld { m.world with suspended := before ++ after }).wake entry =
            finish (m.withWorld { m.world with suspended := before ++ after }) entry.task := by
          rw [Machine.wake, sleeps]
          exact if_neg (Bool.eq_false_iff.mp dead)
        exact Relents.reposes (ends ▸ finish_relents _ _) without serials late
    · exact .inr ((wake_extends_anyhow _ _).reposes
        (fun mem => own (List.mem_singleton.mp mem).symm) without)
  | @abandon before entry after idle closed listed =>
    right
    have without := reposes.without listed
    by_cases own : entry.task.name = S
    · obtain ⟨_, sleeps, _⟩ := reposes.suspended entry
        (listed ▸ List.mem_append_right _ List.mem_cons_self) own
      have ends : (m.withWorld { m.world with suspended := before ++ after }).abandon entry =
          finish (m.withWorld { m.world with suspended := before ++ after }) entry.task := by
        rw [Machine.abandon, sleeps]
      exact Relents.reposes (ends ▸ finish_relents _ _) without serials late
    · exact (abandon_extends_anyhow _ _).reposes (fun mem => own (List.mem_singleton.mp mem).symm)
        without
  | idles idles =>
    refine .inr ⟨reposes.of_subset ?_ (fun _ mem => idles.suspended.subset mem) idles.nextSerial,
      not_asks_of_quiet idles.act?⟩
    rw [idles.stack]
    exact List.nil_subset _

/-- The fetcher of a session has answered. -/
def IsAnswered (c : Consumer σ κ) (S : SessionName) (m : Machine σ κ) : Prop :=
  ∃ s turn rest r result, s.name = S ∧ m.stack = .session s (.fetching turn) :: rest ∧
    m.control = .returned r ∧ c.proceed s.fetcher (m.request s) turn m.memory = .answer result

theorem IsAnswered.isIdle (answered : IsAnswered c S m) : m.isIdle = false := by
  obtain ⟨s, turn, rest, r, result, _, stack, _⟩ := answered
  exact isIdle_of_mem_stack (stack ▸ List.mem_cons_self)

/-- A session that has been answered has to sleep. -/
private theorem IsAnswered.reposes (sound : m.Sound) (positive : m.world.IsPositive)
    (answered : IsAnswered c S m) :
    Reposes S m.world.clock (m.step c) ∧ ¬ Asks S (m.step c) := by
  obtain ⟨s, turn, rest, r, result, rfl, stack, control, answers⟩ := answered
  have goes : m.step c = receive { m with stack := rest } s result := by
    have answers' : c.proceed s.fetcher (Machine.request { m with stack := rest } s) turn
        m.memory = .answer result := answers
    rw [step_of_returned control stack, resume, continueSession, answers']
  have serials : m.world.nextSerial ≤ (m.step c).world.nextSerial := (m.step_succeeds c).serials
  -- It stands in its frame, so it is nowhere else.
  have once : s.name ∉ rest.flatMap Frame.names ++
      m.world.suspended.map fun entry => entry.task.name := by
    have nodup : m.names.Nodup := sound.nodup
    rw [names, stack, List.flatMap_cons, List.append_assoc] at nodup
    exact (List.nodup_cons.mp nodup).1
  have below : Reposes s.name m.world.clock { m with stack := rest } := by
    refine ⟨?_, fun f mem own => ?_, fun entry mem own => ?_⟩
    · exact sound.created (stack ▸ List.mem_cons_self)
    · exact absurd (List.mem_append_left _ (List.mem_flatMap.mpr ⟨f, mem, own⟩)) once
    · exact absurd (List.mem_append_right _ (List.mem_map.mpr ⟨entry, mem, own⟩)) once
  rw [goes] at serials ⊢
  have relents : Relents { m with stack := rest } _ :=
    (receive_receives { m with stack := rest } s result).relents positive
  exact relents.reposes below serials (Nat.le_refl _)

/-- After an answer a session makes no request before the clock has moved. -/
theorem Run.reposes (reach : Reachable c m) (answered : IsAnswered c S m)
    (run : Run c given m states m') :
    m' = m ∨ m.world.clock < m'.world.clock ∨ Reposes S m.world.clock m' ∧ ¬ Asks S m' := by
  induction run with
  | start => exact .inl rfl
  | @move states m₁ m₂ run next ih =>
    right
    rcases ih with rfl | later | ⟨reposes, _⟩
    · rw [next.eq_step answered.isIdle]
      exact .inr (answered.reposes reach.sound reach.isPositive)
    · exact .inl (Nat.lt_of_lt_of_le later next.clock_le)
    · exact next.reposes (reach.run run).isPositive reposes run.clock_le

theorem IsAnswered.not_asks (answered : IsAnswered c S m) : ¬ Asks S m := by
  obtain ⟨s, turn, rest, r, result, _, _, control, _⟩ := answered
  exact not_asks_of_quiet (act?_of_passive (by rw [control]; rfl))

/-! ### Settings and pauses at every time -/

/-- What is true of settings and pauses at a time. -/
structure IsPaced (c : Consumer σ κ) (m : Machine σ κ) : Prop where
  /-- All intervals are a millisecond at least. -/
  intervals : ∀ number, (m.tracker number).settings.cadence.IsPositive
  /-- A tracker is opened with intervals of a millisecond at least. -/
  opens : ∀ key cadence next, m.control = .code (.call (.openTracker key cadence) next) →
    cadence.IsPositive →
    m.step c = ((m.push (.awaiting next)).withWorld
      { m.world with
        trackers := m.world.trackers ++ [.ofStorage m.world.storage key cadence] }).reply
      (.number m.world.trackers.length)
  /-- It is not opened with others, and nothing changes. -/
  opensNot : ∀ key cadence next, m.control = .code (.call (.openTracker key cadence) next) →
    ¬ cadence.IsPositive → ∃ e, m.step c = (m.push (.awaiting next)).reply (.refused e)
  /-- A patch that sets an interval too short is refused, and nothing changes. -/
  refuses : ∀ number patch next, m.control = .code (.call (.configure number patch) next) →
    patch.IsShort → ∃ e, m.step c = (m.push (.awaiting next)).reply (.refused e)
  /-- Every other patch is accepted, and exactly what it sets is replaced. -/
  accepts : ∀ number patch next, m.control = .code (.call (.configure number patch) next) →
    ¬ patch.IsShort →
    m.step c = ((m.push (.awaiting next)).withWorld (m.world.modifyTracker number fun t =>
      { t with settings := (m.tracker number).settings.replaced patch })).reply .unit
  /-- Between an answer and the next request of the same session the clock moves. -/
  pauses : ∀ S, IsAnswered c S m → ∀ given states m', Run c given m states m' → Asks S m' →
    m.world.clock + 1 ≤ m'.world.clock

/-- In every reachable state both intervals of each tracker are a millisecond at least, whoever has
configured it and from wherever, and so is every pause between an answer and the next request of the
same session. A patch is refused exactly if it sets a shorter interval, whatever has been set
before, and then nothing changes; otherwise exactly the intervals, in whole milliseconds, and the
callbacks that it sets are replaced. The default and what a configuration file says can be used to
open a tracker. -/
theorem reachable_paced (reach : Reachable c m) :
    IsPaced c m ∧ (∀ d : Duration, d.millis = min Duration.longest (d.total / 1000000)) ∧
      Cadence.default.IsPositive ∧ ∀ text configuration,
        Configuration.ofToml text = .ok configuration → configuration.cadence.IsPositive := by
  have positive := reach.isPositive
  refine ⟨⟨positive, ?_, ?_, ?_, ?_, ?_⟩, Duration.millis_eq, Cadence.isPositive_default,
    fun _ _ => Configuration.isPositive_of_ofToml⟩
  · intro key cadence next control sound
    rw [step_openTracker control, Cadence.check_eq_ok.mpr sound]
    rfl
  · intro key cadence next control unsound
    rw [step_openTracker control]
    cases checked : cadence.check with
    | error e => exact ⟨e, rfl⟩
    | ok _ => exact absurd (Cadence.check_eq_ok.mp checked) unsound
  · intro number patch next control short
    obtain ⟨e, refused⟩ := Settings.patched_of_isShort (positive number) short
    have refused' : (m.tracker number).settings.patched patch = .error e := refused
    exact ⟨e, by rw [step_configure control, refused']⟩
  · intro number patch next control long
    have accepted : (m.tracker number).settings.patched patch = _ :=
      Settings.patched_of_not_isShort (positive number) long
    rw [step_configure control, accepted]
    rfl
  · intro S answered given states m' run asks
    rcases run.reposes reach answered with rfl | later | ⟨_, never⟩
    · exact absurd asks answered.not_asks
    · exact later
    · exact absurd asks never

/-! ### A callback that configures its tracker -/

/-- A consumer whose fetchers report every time that the job is being processed. When the callback
`1` is told of a new status, it tries to set an interval just short of a millisecond, and then it
sets one of a millisecond and a half. -/
def hasty : Consumer Unit Nat where
  react label occasion :=
    match label, occasion with
    | 1, .statusChanged _ _ =>
      .call (.configure 0 { processing := some ⟨0, 999999⟩ }) fun _ =>
      .call (.configure 0 { processing := some ⟨0, 1500000⟩ }) fun _ => .done
    | _, _ => .done
  proceed _ _ _ _ := .answer (.ok { status := .processing })
  supply _ _ _ := none

/-- A session has been started, and its callback is set. -/
def hastening : Machine Unit Nat :=
  (idle () (.blank .inMemory 0 true)).call hasty <|
    .call (.openTracker "tasks" .default) fun _ =>
    .call (.configure 0 { hooks := { statusChange := some 1 } }) fun _ =>
    .call (.start 0 "a" 0) fun _ => .done

/-- The only session gets its turn. -/
def hastened (m : Machine Unit Nat) (entry : Suspended Nat) : Machine Unit Nat :=
  (m.withWorld { m.world with suspended := [] ++ [] }).wake entry

/-- The session that polls for the job. -/
def hastener (last : Option Status) (calls : Nat) : SessionTask Nat :=
  { tracker := 0, id := "a", serial := 1, fetcher := 0, last, calls }

/-- The first report is there. -/
def hastyAnswer : Machine Unit Nat :=
  stepTimes hasty 2 (hastened hastening ⟨hastener none 0, .fresh⟩)

/-- The second request is made. -/
def hastyRequest : Machine Unit Nat :=
  hastened ((stepTimes hasty 8 hastyAnswer).atTime 1) ⟨hastener (some .processing) 1, .sleeping 1⟩

private theorem hastened_move {m : Machine Unit Nat} {entry : Suspended Nat}
    (idle : m.isIdle = true) (listed : m.world.suspended = [entry])
    (ready : m.world.isReady entry = true) :
    Move hasty (fun _ => True) m (hastened m entry) :=
  .wake idle listed ready

private theorem hastyAnswer_reachable : Reachable hasty hastyAnswer := by
  have started : Reachable hasty hastening := ⟨(), .inMemory, 0, true, call_leads trivial⟩
  have wakes : Move hasty (fun _ => True) hastening
      (hastened hastening ⟨hastener none 0, .fresh⟩) :=
    hastened_move (by decide +kernel) rfl rfl
  have goesOn : Run hasty (fun _ => True) _ _ hastyAnswer := run_steps (by decide +kernel)
  exact (started.run (Run.start.move wakes)).run goesOn

private theorem hastyAnswer_leads (steps : Nat)
    (busy : ∀ k < steps, (stepTimes hasty k hastyAnswer).isIdle = false) :
    Leads hasty (fun _ => True) hastyAnswer (stepTimes hasty steps hastyAnswer) :=
  ⟨_, run_steps busy⟩

private theorem hastyRequest_leads : Leads hasty (fun _ => True) hastyAnswer hastyRequest := by
  have ticks : Move hasty (fun _ => True) (stepTimes hasty 8 hastyAnswer)
      ((stepTimes hasty 8 hastyAnswer).atTime 1) :=
    .tick (by decide +kernel) (by decide +kernel) (by decide +kernel)
  have wakes : Move hasty (fun _ => True) ((stepTimes hasty 8 hastyAnswer).atTime 1) hastyRequest :=
    hastened_move (by decide +kernel) rfl (by decide +kernel)
  exact (hastyAnswer_leads 8 (by decide +kernel)).trans (ticks.leads.trans wakes.leads)

/-- The session makes its next request a millisecond after the first answer, although the callback
has tried to set a shorter interval: this was refused. -/
theorem reachable_paced_hasty :
    IsAnswered hasty ⟨0, "a", 1⟩ hastyAnswer ∧ Asks ⟨0, "a", 1⟩ hastyRequest ∧
      hastyAnswer.world.clock + 1 ≤ hastyRequest.world.clock ∧ hastyRequest.world.clock = 1 ∧
      ∃ e, ((stepTimes hasty 2 hastyAnswer).step hasty).control = .returned (.refused e) := by
  have answered : IsAnswered hasty ⟨0, "a", 1⟩ hastyAnswer :=
    ⟨hastener none 1, 0, [], .unit, _, rfl, rfl, rfl, rfl⟩
  have asks : Asks ⟨0, "a", 1⟩ hastyRequest := ⟨0, ⟨"a", 2, false⟩, 0, rfl⟩
  obtain ⟨states, run⟩ := hastyRequest_leads
  obtain ⟨_, before⟩ := hastyAnswer_leads 2 (by decide +kernel)
  have paced := (reachable_paced hastyAnswer_reachable).1
  have trying := (reachable_paced (hastyAnswer_reachable.run before)).1
  obtain ⟨e, refused⟩ := trying.refuses 0 { processing := some ⟨0, 999999⟩ } _ rfl
    ⟨_, .inl rfl, by decide⟩
  exact ⟨answered, asks, paced.pauses _ answered _ states _ run asks, by decide +kernel, e,
    by rw [refused]; rfl⟩

end Machine

end TaskWatch
