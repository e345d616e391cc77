import TaskWatch.Proofs.Simulation.Launch
import TaskWatch.Proofs.Simulation.Tally

/-!
# Accounts of simulations

Whatever jobs are drawn, and in whatever order their sessions have their turns, a simulation comes to
its end: no session is left, every job is recorded with its outcome, other records are as they were,
and the counts are those of the jobs. Whoever waits for all jobs learns of it then, and not before.

## Main definitions

* `Simulation.Begins` — jobs have been launched.
* `Simulation.Accounts` — a simulation has ended, and its counts are right.
* `Simulation.Concludes` — what somebody who waits for all jobs learns.
* `Simulation.Finishes` — what the executor comes to that waits for all jobs.

## Main results

* `Simulation.Begins.job`, `Simulation.Begins.other` — what has become of a job and of another task.
* `Simulation.Begins.counts` — the counts are the sums of what the jobs add.
* `Simulation.Begins.concludes`, `Simulation.Begins.finishes` — whoever waits for all jobs learns of
  their ends, and does not wait any longer.
* `Simulation.launch_accounts` — every simulation ends as its jobs were to end.
-/

namespace TaskWatch

namespace World

variable {κ : Type} {w : World κ} {number : Nat} {id : TaskId}

/-- What a tracker for which nobody polls shows of a task. -/
theorem Vacant.shows (vacant : w.Vacant) (number : Nat) (id : TaskId) :
    w.Shows number id ⟨w.clock, (w.tracker number).settings, w.record number id, none⟩ := by
  refine ⟨⟨rfl, rfl, rfl⟩, ?_⟩
  rw [seat]
  cases found : (w.tracker number).sessions.find? id with
  | none => rfl
  | some serial =>
    have lives : w.lives ⟨number, id, serial⟩ = true := lives_iff.mpr found
    exact absurd ((vacant.nobody _).symm.trans lives) Bool.false_ne_true

theorem Vacant.settled (vacant : w.Vacant) (inside : number < w.trackers.length) :
    w.Settled number where
  inside := inside
  keyed := vacant.keyed
  executor := vacant.executor
  below := vacant.below
  given S lives := absurd ((vacant.nobody S).symm.trans lives) Bool.false_ne_true
  sole S lives := absurd ((vacant.nobody S).symm.trans lives) Bool.false_ne_true
  shown id := ⟨_, vacant.shows number id⟩

/-- When no task has a session, none is shown to have one, and conversely. -/
theorem Settled.activeIds_eq_nil_iff (settled : w.Settled number) :
    (w.tracker number).activeIds = [] ↔ ∀ id F, w.Shows number id F → F.session = none := by
  have active : ∀ id F, w.Shows number id F →
      (id ∈ (w.tracker number).activeIds ↔ F.session.isSome = true) := fun id F shows => by
    rw [← shows.isPolling]
    exact Dictionary.mem_keys _
  constructor
  · intro inactive id F shows
    refine Option.not_isSome_iff_eq_none.mp fun session => ?_
    have mem := (active id F shows).mpr session
    rw [inactive] at mem
    exact List.not_mem_nil mem
  · refine fun nobody => List.eq_nil_iff_forall_not_mem.mpr fun id mem => ?_
    obtain ⟨F, shows⟩ := settled.shown id
    have session := (active id F shows).mp mem
    rw [nobody id F shows] at session
    exact Bool.false_ne_true session

end World

namespace Simulation

open Machine

variable {number : Nat} {plans : List JobPlan} {w w' : World Label} {m m₁ m' : Running}
  {states further : List Running} {cadence : Cadence}

/-! ### Launching and waiting -/

theorem isNoteless_submitEach (number : Nat) (plans : List JobPlan) :
    Code.IsNoteless (submitEach number plans) := by
  induction plans with
  | nil => trivial
  | cons p rest ih =>
    intro reply
    cases reply with
    | none => trivial
    | some reply => exact ih

theorem launch_notesFirst (number : Nat) (plans : List JobPlan) :
    Code.NotesFirst (launch number plans) := by
  intro reply
  cases reply with
  | none => trivial
  | some reply => exact isNoteless_submitEach number plans

/-- Jobs have been launched in a world, and the callbacks have counted nothing. -/
structure Begins (number : Nat) (cadence : Cadence) (plans : List JobPlan) (m : Running)
    (states : List Running) (m₁ : Running) : Prop where
  path : Path consumer (m.code (launch number plans)) states m₁
  idle : m₁.isIdle = true
  launched : Launched number ⟨cadence, hooks⟩ plans m.world
    (fun id => glimpses number id (m.code (launch number plans)) states) m₁.world

/-- Launching jobs comes to an end. -/
theorem exists_begins (idle : m.isIdle = true) (vacant : m.world.Vacant)
    (inside : number < m.world.trackers.length)
    (fresh : (m.world.tracker number).settings = { cadence }) (valid : cadence.check = .ok ())
    (distinct : (plans.map JobPlan.id).Nodup) :
    ∃ states m₁, Begins number cadence plans m states m₁ := by
  obtain ⟨memory, w, control, stack⟩ := m
  obtain rfl : stack = [] := stack_of_isIdle idle
  have free : ∀ p ∈ plans, ∀ F, w.Shows number p.id F → F.session = none := fun p _ F shows => by
    rw [(vacant.shows number p.id).unique shows]
  have lands : Lands consumer number w ⟨memory, w, .code (launch number plans), []⟩ [] _ :=
    launch_lands (vacant.settled inside) fresh valid distinct free
  obtain ⟨states, memory', reply, after, path, launched⟩ := lands
  simp only [World.change_self, List.nil_append] at launched
  exact ⟨states, _, path, rfl, launched⟩

/-- What is called while jobs are launched can be seen. -/
theorem Begins.callsFor_eq (begins : Begins number cadence plans m states m₁) (idle : m.isIdle = true)
    (id : TaskId) : callsFor id states =
      Glimpse.callsIn (glimpses number id (m.code (launch number plans)) states) := by
  have run : Run consumer (fun _ => True) m (m.code (launch number plans) :: states) m₁ :=
    begins.path.run.cons (.code idle trivial)
  have seen : callsFor id (m.code (launch number plans) :: states) =
      Glimpse.callsIn (glimpses number id m (m.code (launch number plans) :: states)) :=
    run.callsFor_eq number idle begins.idle
  rw [glimpses, shown_of_isIdle idle] at seen
  have unchanged : World.change number id m.world (m.code (launch number plans)).world = [] :=
    World.change_self _ _ _
  rw [unchanged] at seen
  exact seen

/-- A job that has just been tracked has all its answers to come. -/
theorem begun_owes (F : Facet Label) (cadence : Cadence) {p : JobPlan} {number : Nat} {last : Report}
    (regular : p.IsRegular number last) (now : Instant) :
    (begun F ⟨cadence, hooks⟩ p now).Owes backend 0 p.id p.answers
      (F.clock + p.answers.length * (0 + cadence.longest))
      (hooks.account p.id (p.draft.stamped now) p.answers) :=
  .polls rfl (isTerminal_draft p now) rfl regular.any_isFinal (.fresh (backend_answers p))

section Waiting

variable (begins : Begins number cadence plans m states m₁) (idle : m.isIdle = true)
  (vacant : m.world.Vacant) (unattended : Unattended consumer m₁ further m')
  (idle' : m'.isIdle = true) (there : m'.world.hasExecutor = true)

include begins unattended idle' there in
theorem Begins.elapsed : Elapsed backend number m₁ further m' :=
  Lapses.passes ⟨unattended.run, idle', there⟩ consumer_obeys begins.idle begins.launched.settled

include begins idle vacant unattended idle' there

/-- What has become of a job while time has passed. After fourteen intervals its session has ended, and
when it has ended, there has been what the job comes to. -/
theorem Begins.job {p : JobPlan} (mem : p ∈ plans) {number' : Nat} {last : Report}
    (regular : p.IsRegular number' last) : ∃ now F, m'.world.Shows number p.id F ∧
      (m.world.clock + 14 * cadence.longest < m'.world.clock → F.session = none) ∧
      (F.session = none →
        lifecycleCalls (callsFor p.id (states ++ further)) =
          (hooks.account p.id (p.draft.stamped now) p.answers).1 ∧
        F.record = some (hooks.account p.id (p.draft.stamped now) p.answers).2) := by
  obtain ⟨now, shows₁, silent⟩ := begins.launched.jobs p mem _ (vacant.shows number p.id)
  have elapsed := begins.elapsed unattended idle' there
  obtain ⟨F, shows, passes⟩ := elapsed.passes p.id _ shows₁
  have owes := begun_owes ⟨m.world.clock, (m.world.tracker number).settings,
    m.world.record number p.id, none⟩ cadence regular now
  obtain ⟨⟨limit, _, owed, rest, called, final⟩, ended⟩ := owes.passes passes
  refine ⟨now, F, shows, fun late => ended (Nat.lt_of_le_of_lt ?_ late), fun nobody => ?_⟩
  · show m.world.clock + p.answers.length * (0 + cadence.longest) ≤ _
    rw [Nat.zero_add]
    exact Nat.add_le_add_left (Nat.mul_le_mul_right _ regular.length_le) _
  · obtain ⟨record, paid⟩ := rest.of_nobody nobody
    rw [paid, List.append_nil] at called
    rw [callsFor_append, begins.callsFor_eq idle, silent, List.nil_append,
      unattended.run.callsFor_eq number begins.idle idle']
    exact ⟨called, record.trans (congrArg some final)⟩

/-- Nothing has become of other tasks. -/
theorem Begins.other {id : TaskId} (out : id ∉ plans.map JobPlan.id) :
    ∃ F, m'.world.Shows number id F ∧ F.session = none ∧ F.record = m.world.record number id ∧
      callsFor id (states ++ further) = [] := by
  obtain ⟨shows₁, silent⟩ := begins.launched.others id _ out (vacant.shows number id)
  have elapsed := begins.elapsed unattended idle' there
  obtain ⟨F, shows, passes⟩ := elapsed.passes id _ shows₁
  obtain ⟨unseen, rfl⟩ := passes.of_nobody rfl
  refine ⟨_, shows, rfl, rfl, ?_⟩
  rw [callsFor_append, begins.callsFor_eq idle, silent,
    unattended.run.callsFor_eq number begins.idle idle', unseen]
  rfl

/-- Everything that counts has been called for the jobs. -/
theorem Begins.subject_mem : ∀ call ∈ calls (states ++ further), ∀ id, call.2.subject? = some id →
    call.2.isLifecycle = true → id ∈ plans.map JobPlan.id := by
  intro call mem id subject _
  by_contra out
  obtain ⟨_, _, _, _, silent⟩ := begins.other idle vacant unattended idle' there out
  have own : call ∈ callsOf id (calls (states ++ further)) :=
    List.mem_filter.mpr ⟨mem, decide_eq_true subject⟩
  rw [← callsFor_eq_callsOf, silent] at own
  exact List.not_mem_nil own

end Waiting

/-- Nothing but the number of jobs has been noted when the first callback is called. -/
theorem Begins.memory (begins : Begins number cadence plans m states m₁) (idle : m.isIdle = true)
    (unattended : Unattended consumer m₁ further m') (idle' : m'.isIdle = true)
    (uncounted : m.memory.summary = {}) : ∃ memory : Console,
      memory.summary = { submitted := plans.length } ∧
      m'.memory = consumer.noted memory (calls (states ++ further)) := by
  have orderly : (m.code (launch number plans)).Orderly :=
    ⟨fun p same => Control.code.inj same ▸ launch_notesFirst number plans,
      (Orderly.of_isIdle idle).awaiting⟩
  obtain ⟨_, balance⟩ :=
    (begins.path.executes.unattended.append unattended).balance consumer_notesFirst orderly
  rw [balance_of_isIdle idle'] at balance
  refine ⟨_, ?_, balance⟩
  show ({ m.memory.summary with submitted := plans.length } : Summary) = _
  rw [uncounted]

/-! ### The end -/

/-- A simulation of so many jobs has ended as the jobs were to end. -/
structure Accounts (number count : Nat) (plans : List JobPlan) (w : World Label) (m : Running) :
    Prop where
  /-- No session is left. -/
  nobody : ∀ S, m.world.lives S = false
  /-- Every job is recorded with its outcome, and otherwise as it was to be recorded. -/
  planned : ∀ p ∈ plans, ∃ now status, p.outcome = some status ∧
    m.world.record number p.id = some { p.draft.stamped now with status }
  /-- Other records are as they were before. -/
  untouched : ∀ id, id ∉ plans.map JobPlan.id → m.world.record number id = w.record number id
  submitted : m.memory.summary.submitted = count
  completed : m.memory.summary.completed = plans.countP fun p => p.outcome = some .completed
  failed : m.memory.summary.failed = plans.countP fun p => p.outcome = some .failed
  total : m.memory.summary.completed + m.memory.summary.failed = count
  transientErrors : m.memory.summary.transientErrors = (plans.map JobPlan.errorCount).sum
  statusChanges : m.memory.summary.statusChanges = 2 * count

section Ended

variable (begins : Begins number cadence plans m states m₁) (idle : m.isIdle = true)
  (vacant : m.world.Vacant) (regular : ∀ p ∈ plans, ∃ number last, p.IsRegular number last)
  (unattended : Unattended consumer m₁ further m') (idle' : m'.isIdle = true)
  (there : m'.world.hasExecutor = true)

include begins idle vacant regular unattended idle' there

/-- After fourteen intervals nobody polls any more. -/
theorem Begins.ends (late : m.world.clock + 14 * cadence.longest < m'.world.clock) :
    (m'.world.tracker number).activeIds = [] := by
  refine (begins.elapsed unattended idle' there).settled.activeIds_eq_nil_iff.mpr fun id F shows => ?_
  by_cases mem : id ∈ plans.map JobPlan.id
  · obtain ⟨p, listed, rfl⟩ := List.mem_map.mp mem
    obtain ⟨_, _, regular⟩ := regular p listed
    obtain ⟨_, G, shown, ended, _⟩ := begins.job idle vacant unattended idle' there listed regular
    exact shown.unique shows ▸ ended late
  · obtain ⟨G, shown, nobody, _⟩ := begins.other idle vacant unattended idle' there mem
    exact shown.unique shows ▸ nobody

variable (inactive : (m'.world.tracker number).activeIds = [])

include inactive

/-- When nobody polls any more, there has been what the jobs come to. -/
theorem Begins.ended {p : JobPlan} (mem : p ∈ plans) :
    (∀ column, counted column (callsFor p.id (states ++ further)) = p.entries column) ∧
      ∃ now status, p.outcome = some status ∧
        m'.world.record number p.id = some { p.draft.stamped now with status } := by
  obtain ⟨_, last, regular⟩ := regular p mem
  obtain ⟨now, F, shows, _, comes⟩ := begins.job idle vacant unattended idle' there mem regular
  have settled := (begins.elapsed unattended idle' there).settled
  have nobody : F.session = none := settled.activeIds_eq_nil_iff.mp inactive p.id F shows
  obtain ⟨called, record⟩ := comes nobody
  refine ⟨fun column => ?_, now, last.status, regular.outcome, shows.record.trans ?_⟩
  · rw [← counted_lifecycleCalls, called]
    exact regular.count_account rfl column
  · rw [record, (regular.account (h := hooks) rfl p.id rfl).2]

/-- The counts are the sums of what the jobs add. -/
theorem Begins.counts (distinct : (plans.map JobPlan.id).Nodup) (uncounted : m.memory.summary = {})
    (column : Column) : m'.memory.summary.at column = (plans.map (·.entries column)).sum ∧
      m'.memory.summary.submitted = plans.length := by
  obtain ⟨memory, begun, balance⟩ := begins.memory idle unattended idle' uncounted
  have each : ∀ p ∈ plans, counted column (callsOf p.id (calls (states ++ further))) =
      p.entries column := fun p mem => by
    rw [← callsFor_eq_callsOf]
    exact (begins.ended idle vacant regular unattended idle' there inactive mem).1 column
  have zero : memory.summary.at column = 0 := by
    rw [begun]
    cases column <;> rfl
  constructor
  · rw [balance, noted_at, zero, Nat.zero_add, count_eq_sum distinct
      (begins.subject_mem idle vacant unattended idle' there), List.map_map]
    exact congrArg List.sum (List.map_congr_left each)
  · rw [balance, noted_submitted, begun]

/-- The simulation has ended as the jobs were to end. -/
theorem Begins.accounts (distinct : (plans.map JobPlan.id).Nodup)
    (uncounted : m.memory.summary = {}) : Accounts number plans.length plans m.world m' := by
  have settled := (begins.elapsed unattended idle' there).settled
  have counts := begins.counts idle vacant regular unattended idle' there inactive distinct uncounted
  have total : m'.memory.summary.completed + m'.memory.summary.failed = plans.length := by
    show m'.memory.summary.at .completed + m'.memory.summary.at .failed = _
    rw [(counts .completed).1, (counts .failed).1]
    exact JobPlan.sum_entries_ends regular
  exact {
    nobody := (settled.vacant (settled.activeIds_eq_nil_iff.mp inactive)).nobody
    planned := fun p mem => (begins.ended idle vacant regular unattended idle' there inactive mem).2
    untouched := fun id out => by
      obtain ⟨F, shows, _, same, _⟩ := begins.other idle vacant unattended idle' there out
      exact shows.record.trans same
    submitted := (counts .completed).2
    completed := (counts .completed).1.trans (JobPlan.sum_map_ite plans _)
    failed := (counts .failed).1.trans (JobPlan.sum_map_ite plans _)
    total := total
    transientErrors := (counts .transientErrors).1
    statusChanges := by
      refine (counts .statusChanges).1.trans ?_
      rw [Nat.mul_comm]
      exact (congrArg List.sum List.map_const').trans List.sum_replicate_nat }

end Ended

theorem Accounts.near {count : Nat} (accounts : Accounts number count plans w m)
    (near : m.world.Near w') : Accounts number count plans w (m.withWorld w') where
  nobody S := (near.lives S).trans (accounts.nobody S)
  planned p mem := by
    rw [world_withWorld, near.record]
    exact accounts.planned p mem
  untouched id out := (near.record number id).trans (accounts.untouched id out)
  submitted := accounts.submitted
  completed := accounts.completed
  failed := accounts.failed
  total := accounts.total
  transientErrors := accounts.transientErrors
  statusChanges := accounts.statusChanges

/-! ### Waiting for the end -/

/-- Somebody waits for all jobs to end. Time never stands still; he learns that they have ended exactly
when no session is left, and after fourteen intervals at the latest; and when he has learnt it, the
simulation has ended as the jobs were to end. -/
structure Concludes (number count : Nat) (cadence : Cadence) (plans : List JobPlan) (w : World Label)
    (waits : List Nat) (m : Running) : Prop where
  passes : ∀ deadline, m.world.clock ≤ deadline → ∃ later m', Executes consumer m later m' ∧
    m'.isIdle = true ∧ m'.world.clock = deadline
  learnt_iff : (∀ wait ∈ waits, (m.world.waitOutcome wait).isSome = true) ↔
    (m.world.tracker number).activeIds = []
  late : w.clock + 14 * cadence.longest < m.world.clock →
    ∀ wait ∈ waits, (m.world.waitOutcome wait).isSome = true
  accounts : (∀ wait ∈ waits, (m.world.waitOutcome wait).isSome = true) →
    Accounts number count plans w m

/-- The executor has waited for all jobs to end, at most for so many milliseconds: whether they have
ended, and what the simulation has come to. -/
structure Finishes (number count : Nat) (cadence : Cadence) (plans : List JobPlan) (w : World Label)
    (millis : Nat) (r : Bool × Running) : Prop where
  late : 14 * cadence.longest < millis → r.1 = true
  ended_iff : r.1 = true ↔ (r.2.world.tracker number).activeIds = []
  accounts : r.1 = true → Accounts number count plans w r.2

section Waiting

variable {m₂ : Running} {later : List Running}

/-- Nobody attends to the simulation while somebody waits. -/
theorem exists_waiting (unattended : Unattended consumer m₁ further m₂) (idle₂ : m₂.isIdle = true)
    (there : m₂.world.hasExecutor = true)
    (executes : Executes consumer
      (m₂.withWorld (m₂.world.beginWaits number (plans.map JobPlan.id)).2) later m') :
    ∃ further', Unattended consumer m₁ further' m' ∧ m'.world.hasExecutor = true := by
  obtain ⟨_, awaiting⟩ := exists_awaiting (c := consumer) idle₂ number (plans.map JobPlan.id)
  have near := (m₂.world.beginWaits_begunAll number (plans.map JobPlan.id)).near
  exact ⟨_, (unattended.append awaiting).append executes.unattended,
    executes.hasExecutor.trans (near.hasExecutor.trans there)⟩

variable (begins : Begins number cadence plans m states m₁) (idle : m.isIdle = true)
  (vacant : m.world.Vacant) (regular : ∀ p ∈ plans, ∃ number last, p.IsRegular number last)
  (valid : cadence.check = .ok ()) (distinct : (plans.map JobPlan.id).Nodup)
  (uncounted : m.memory.summary = {})

include begins idle vacant regular valid distinct uncounted

/-- Whoever waits for the jobs learns of their ends. -/
theorem Begins.concludes (unattended : Unattended consumer m₁ further m₂) (idle₂ : m₂.isIdle = true)
    (there : m₂.world.hasExecutor = true)
    (executes : Executes consumer
      (m₂.withWorld (m₂.world.beginWaits number (plans.map JobPlan.id)).2) later m')
    (idle' : m'.isIdle = true) :
    Concludes number plans.length cadence plans m.world
      (m₂.world.beginWaits number (plans.map JobPlan.id)).1 m' := by
  obtain ⟨further', unattended', there'⟩ := exists_waiting unattended idle₂ there executes
  have elapsed := begins.elapsed unattended' idle' there'
  have before := begins.elapsed unattended idle₂ there
  have learnt_iff := executes.learnt_iff consumer_isPassive idle₂ before.settled.sole idle'
  have inactive_iff :
      (∀ id ∈ plans.map JobPlan.id, (m'.world.tracker number).isPolling id = false) ↔
        (m'.world.tracker number).activeIds = [] := by
    rw [elapsed.settled.activeIds_eq_nil_iff]
    constructor
    · intro gone id F shows
      by_cases mem : id ∈ plans.map JobPlan.id
      · have none := gone id mem
        rw [shows.isPolling] at none
        exact Option.not_isSome_iff_eq_none.mp (Bool.eq_false_iff.mp none)
      · obtain ⟨G, shown, nobody, _⟩ := begins.other idle vacant unattended' idle' there' mem
        exact shown.unique shows ▸ nobody
    · intro nobody id _
      obtain ⟨F, shows⟩ := elapsed.settled.shown id
      rw [shows.isPolling, nobody id F shows]
      rfl
  have ended_iff := learnt_iff.trans inactive_iff
  have positive : (m'.world.tracker number).settings.cadence.IsPositive := by
    rw [elapsed.elapses.settings, begins.launched.configured]
    exact Cadence.check_eq_ok.mp valid
  refine ⟨fun deadline soon => ?_, ended_iff, fun late => ended_iff.mpr ?_, fun learnt => ?_⟩
  · obtain ⟨_, m'', settles, clock⟩ :=
      exists_executes consumer_obeys backend_isPrompt positive idle' elapsed.settled soon
    exact ⟨_, m'', settles.executes, settles.idle, clock⟩
  · exact begins.ends idle vacant regular unattended' idle' there' late
  · exact begins.accounts idle vacant regular unattended' idle' there' (ended_iff.mp learnt)
      distinct uncounted

/-- An executor that is given enough steps and turns waits until every job has ended, and no longer. -/
theorem Begins.finishes (millis : Nat) : ∃ least, ∀ limit, least ≤ limit →
    Finishes number plans.length cadence plans m.world millis
      (finish m₁ plans millis number limit) := by
  have settled₁ := begins.launched.settled
  rcases waiting : m₁.world.beginWaits number (plans.map JobPlan.id) with ⟨waits, w₁⟩
  have near : m₁.world.Near w₁ := by
    have begun := m₁.world.beginWaits_begunAll number (plans.map JobPlan.id)
    exact (waiting ▸ begun).near
  have positive : (w₁.tracker number).settings.cadence.IsPositive := by
    rw [near.settings, begins.launched.configured]
    exact Cadence.check_eq_ok.mp valid
  obtain ⟨least, later, m', settles, ends, runs⟩ :=
    exists_runUntil (m := m₁.withWorld w₁) consumer_obeys backend_isPrompt positive begins.idle
      (settled₁.near near) (fun w => waits.all fun wait => (w.waitOutcome wait).isSome)
      (Nat.le_add_right w₁.clock millis)
      (Nat.add_lt_add_left (Nat.lt_succ_self millis) w₁.clock)
  have executes : Executes consumer
      (m₁.withWorld (m₁.world.beginWaits number (plans.map JobPlan.id)).2) later m' := by
    rw [waiting]
    exact settles.executes
  have concludes := begins.concludes idle vacant regular valid distinct uncounted .start begins.idle
    settled₁.executor executes settles.idle
  rw [waiting] at concludes
  refine ⟨least, fun limit much => ?_⟩
  have finished : finish m₁ plans millis number limit =
      (waits.all fun wait => (m'.world.waitOutcome wait).isSome,
        m'.withWorld (waits.foldl World.endWait m'.world)) := by
    rw [finish, awaitAll, waiting]
    dsimp only
    rw [runs limit much]
  have after := m'.world.near_endWaits waits
  have inactive : ((waits.foldl World.endWait m'.world).tracker number).activeIds =
      (m'.world.tracker number).activeIds := congrArg Dictionary.keys (after.sessions number)
  rw [finished]
  have ended_iff : (waits.all fun wait => (m'.world.waitOutcome wait).isSome) = true ↔
      ∀ wait ∈ waits, (m'.world.waitOutcome wait).isSome = true := List.all_eq_true
  refine ⟨fun long => ended_iff.mpr ?_, ended_iff.trans (inactive ▸ concludes.learnt_iff),
    fun learnt => (concludes.accounts (ended_iff.mp learnt)).near after⟩
  rw [ended_iff] at ends
  rcases ends with learnt | clock
  · exact learnt
  · have launching : Run consumer (fun _ => True) (m.code (launch number plans)) states m₁ :=
      begins.path.run
    have start : m.world.clock ≤ m₁.world.clock := launching.clock_le
    have same : w₁.clock = m₁.world.clock := near.clock
    exact concludes.late (by omega)

end Waiting

/-- Jobs that are drawn and have different identifiers are launched on a tracker that has not been used
yet, over whatever store. Launching them comes to an end. Whenever somebody begins to wait for all of
them then, and whatever the order of the turns, time can always pass; he learns that they have ended
exactly when no session is left, and after fourteen intervals at the latest; and then the simulation
has ended as its jobs were to end. So an executor that is given enough steps and turns waits until
then. -/
theorem launch_accounts {count : Nat} {seed : UInt64}
    (distinct : ((JobPlan.generate count seed).map JobPlan.id).Nodup) (idle : m.isIdle = true)
    (vacant : m.world.Vacant) (inside : number < m.world.trackers.length)
    (fresh : (m.world.tracker number).settings = { cadence }) (valid : cadence.check = .ok ())
    (uncounted : m.memory.summary = {}) :
    ∃ states m₁, Path consumer (m.code (launch number (JobPlan.generate count seed))) states m₁ ∧
      m₁.isIdle = true ∧
      (∀ further m₂, Unattended consumer m₁ further m₂ → m₂.isIdle = true →
        m₂.world.hasExecutor = true → ∀ waits w later m',
          m₂.world.beginWaits number ((JobPlan.generate count seed).map JobPlan.id) = (waits, w) →
          Executes consumer (m₂.withWorld w) later m' → m'.isIdle = true →
          Concludes number count cadence (JobPlan.generate count seed) m.world waits m') ∧
      ∀ millis, ∃ least, ∀ limit, least ≤ limit →
        Finishes number count cadence (JobPlan.generate count seed) m.world millis
          (finish m₁ (JobPlan.generate count seed) millis number limit) := by
  have length := JobPlan.length_generate count seed
  have regular : ∀ p ∈ JobPlan.generate count seed, ∃ number last, p.IsRegular number last :=
    fun p => JobPlan.isRegular_of_mem_generate
  generalize JobPlan.generate count seed = plans at *
  subst length
  obtain ⟨states, m₁, begins⟩ := exists_begins idle vacant inside fresh valid distinct
  refine ⟨states, m₁, begins.path, begins.idle, ?_,
    begins.finishes idle vacant regular valid distinct uncounted⟩
  intro further m₂ unattended idle₂ there waits w later m' waiting executes idle'
  obtain ⟨rfl, rfl⟩ := Prod.mk.inj waiting.symm
  exact begins.concludes idle vacant regular valid distinct uncounted unattended idle₂ there executes
    idle'

/-- A world in which nothing has happened but that a tracker has been opened. -/
def opened : World Label := (World.blank .inMemory 0 true).after (.opened "tasks" .default)

/-- One job is drawn, launched on a tracker that has just been opened, and comes to its end, while
somebody waits for it and when the executor does. -/
theorem launch_accounts_one_job : ∃ states m₁ later m' least,
    Path consumer (Machine.code ⟨{}, opened, .returned .unit, []⟩
      (launch 0 (JobPlan.generate 1 42))) states m₁ ∧
    (Executes consumer (m₁.withWorld (m₁.world.beginWaits 0
        ((JobPlan.generate 1 42).map JobPlan.id)).2) later m' ∧
      Accounts 0 1 (JobPlan.generate 1 42) opened m') ∧
    ∀ limit, least ≤ limit → (finish m₁ (JobPlan.generate 1 42) 100000 0 limit).1 = true ∧
      Accounts 0 1 (JobPlan.generate 1 42) opened
        (finish m₁ (JobPlan.generate 1 42) 100000 0 limit).2 := by
  have settled : opened.Settled 0 := (World.vacant_blank .inMemory 0).opened "tasks" .default
  have vacant : opened.Vacant := settled.vacant fun id F shows => by
    rw [(World.Vacant.opened_shows "tasks" .default id _).unique shows]
  have distinct : ((JobPlan.generate 1 42).map JobPlan.id).Nodup := by
    obtain ⟨p, single⟩ := List.length_eq_one_iff.mp (JobPlan.length_generate 1 42)
    rw [single]
    exact List.nodup_singleton _
  obtain ⟨states, m₁, path, idle, waits, finishes⟩ :=
    launch_accounts (m := ⟨{}, opened, .returned .unit, []⟩) distinct rfl vacant settled.inside
      rfl rfl rfl
  generalize JobPlan.generate 1 42 = plans at *
  have there : m₁.world.hasExecutor = true := path.executes.hasExecutor
  -- Somebody begins to wait at once, and then time passes.
  rcases waiting : m₁.world.beginWaits 0 (plans.map JobPlan.id) with ⟨entries, w⟩
  have begun := waits [] m₁ .start idle there entries w [] _ waiting .start idle
  obtain ⟨later, m', executes, idle', clock⟩ :=
    begun.passes (max w.clock (14 * Cadence.default.longest + 1)) (Nat.le_max_left _ _)
  have concludes := waits [] m₁ .start idle there entries w later m' waiting executes idle'
  have late : 0 + 14 * Cadence.default.longest < m'.world.clock := by omega
  obtain ⟨least, enough⟩ := finishes 100000
  refine ⟨states, m₁, later, m', least, path, ⟨?_, concludes.accounts (concludes.late late)⟩,
    fun limit much => ?_⟩
  · rw [waiting]
    exact executes
  · have ended := (enough limit much).late (by decide)
    exact ⟨ended, (enough limit much).accounts ended⟩

end Simulation

end TaskWatch
