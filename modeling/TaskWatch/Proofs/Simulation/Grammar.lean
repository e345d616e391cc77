import TaskWatch.Proofs.Session.Refusal
import TaskWatch.Proofs.Simulation.Accounting

/-!
# The grammar of simulated jobs

Whatever is drawn, the reports of a simulated job follow one grammar: at most two that it is queued,
one to four that it is processing, and one that it has completed or failed. A transient failure
stands only right before a report. Each report may therefore follow on the one before it, and when a
session gets these answers, the store refuses no status that it has been told.

Jobs are drawn one after the other, so fewer jobs of a seed are the first ones of more jobs.

## Main definitions

* `JobPlan.IsGrammatical` — the answers of a job follow the grammar.
* `Machine.Feeds` — a session that has just begun gets the answers of a job.

## Main results

* `JobPlan.take_generate` — fewer jobs of a seed are the first ones of more jobs.
* `JobPlan.IsRegular.isGrammatical` — the jobs that are drawn follow the grammar.
* `Machine.Feeds.never_refuses` — nothing is refused that a session is told about such a job.
* `Simulation.Begins.feeds`, `Simulation.Begins.exists_feeds` — the jobs of a simulation are fed to
  their sessions, until no session is left.
* `JobPlan.generate_grammar` — all of this about the jobs of a seed.
-/

namespace TaskWatch

namespace JobPlan

variable {p : JobPlan} {reports : List Report} {answers : List Answer} {last : Report}

/-! ### Fewer jobs and more jobs -/

theorem take_drawFrom (g : Generator) (number : Nat) {n count : Nat} (fewer : n ≤ count) :
    (drawFrom g number count).take n = drawFrom g number n := by
  induction n generalizing g number count with
  | zero => rfl
  | succ n ih =>
    cases count with
    | zero => exact absurd fewer (Nat.not_succ_le_zero n)
    | succ count => exact congrArg ((draw g number).1 :: ·) (ih _ _ (Nat.le_of_succ_le_succ fewer))

/-- Fewer jobs of a seed are the first ones of more jobs. -/
theorem take_generate {n count : Nat} (fewer : n ≤ count) (seed : UInt64) :
    (generate count seed).take n = generate n seed :=
  take_drawFrom _ 0 fewer

/-! ### The grammar -/

/-- The reports among answers. -/
abbrev reportsIn (answers : List Answer) : List Report := answers.filterMap Except.toOption

/-- The answers of a job follow the grammar. -/
structure IsGrammatical (p : JobPlan) : Prop where
  /-- The reports come in the order of the lifecycle, and the job ends with the last one. -/
  reports : ∃ queued ≤ 2, ∃ processing, 1 ≤ processing ∧ processing ≤ 4 ∧ ∃ last : Report,
    (last.status = .completed ∨ last.status = .failed) ∧
      reportsIn p.answers = course queued processing last ∧ p.outcome = some last.status
  /-- No failure comes last, or right before another one. -/
  failures : ∀ before e after, p.answers = before ++ .error e :: after →
    e = .network "simulated connection reset" ∧ ∃ report rest, after = .ok report :: rest
  errorCount : p.errorCount ≤ (reportsIn p.answers).length

theorem Disturbs.reportsIn_eq (disturbs : Disturbs reports answers) :
    reportsIn answers = reports := by
  induction disturbs with
  | nil => rfl
  | report report rest ih => exact congrArg (report :: ·) ih
  | failure report rest ih => exact congrArg (report :: ·) ih

/-- Each failure comes right before a report. -/
theorem Disturbs.before_report (disturbs : Disturbs reports answers) {before after : List Answer}
    {e : FetchError} (split : answers = before ++ .error e :: after) :
    e = transient ∧ ∃ report rest, after = .ok report :: rest := by
  induction disturbs generalizing before with
  | nil => exact absurd split.symm (List.append_ne_nil_of_right_ne_nil _ (List.cons_ne_nil _ _))
  | report report rest ih =>
    cases before with
    | nil => exact nomatch (List.cons.inj split).1
    | cons _ before => exact ih (List.cons.inj split).2
  | failure report rest ih =>
    match before with
    | [] =>
      obtain ⟨same, tail⟩ := List.cons.inj split
      exact ⟨(Except.error.inj same).symm, report, _, tail.symm⟩
    | [_] => exact nomatch (List.cons.inj (List.cons.inj split).2).1
    | _ :: _ :: before => exact ih (List.cons.inj (List.cons.inj split).2).2

/-- There are no more failures than reports. -/
theorem Disturbs.failures_le (disturbs : Disturbs reports answers) :
    failures answers ≤ reports.length := by
  induction disturbs with
  | nil => exact Nat.le_refl 0
  | @report report reports answers rest ih =>
    have same : failures (.ok report :: answers) = failures answers :=
      List.countP_cons_of_neg Bool.false_ne_true
    rw [same]
    exact Nat.le_succ_of_le ih
  | @failure report reports answers rest ih =>
    have one : failures (.error transient :: .ok report :: answers) = failures answers + 1 :=
      (List.countP_cons_of_pos rfl).trans
        (congrArg (· + 1) (List.countP_cons_of_neg Bool.false_ne_true))
    rw [one]
    exact Nat.succ_le_succ ih

/-- A job that goes through the lifecycle follows the grammar. -/
theorem IsRegular.isGrammatical {number : Nat} (regular : p.IsRegular number last) :
    p.IsGrammatical := by
  obtain ⟨queued, few, processing, some, many, disturbs⟩ := regular.reports
  have ends : last.status = .completed ∨ last.status = .failed := by
    obtain ⟨completes, rfl⟩ := regular.ends
    cases completes
    · exact .inr rfl
    · exact .inl rfl
  refine ⟨⟨queued, few, processing, some, many, last, ends, disturbs.reportsIn_eq,
    regular.outcome⟩, fun _ _ _ split => disturbs.before_report split, ?_⟩
  rw [disturbs.reportsIn_eq]
  exact disturbs.failures_le

/-! ### The grammar and the lifecycle -/

/-- Each report may follow on each one before it, and on a record that is queued. -/
theorem pairwise_course (queued processing : Nat)
    (ends : last.status = .completed ∨ last.status = .failed) :
    (.queued :: (course queued processing last).map Report.status).Pairwise
      fun earlier later => earlier.mayBecome later = true := by
  have begins : ∀ status : Status, Status.queued.mayBecome status = true := by
    rintro ⟨⟩ <;> rfl
  have goesOn : Status.processing.mayBecome last.status = true := by
    rcases ends with status | status <;> rw [status] <;> rfl
  simp [course, List.pairwise_append, List.pairwise_replicate, begins, goesOn,
    Status.mayBecome_refl]

theorem filterMap_statusOf (answers : List Answer) :
    answers.filterMap statusOf = (reportsIn answers).map Report.status := by
  rw [reportsIn, List.map_filterMap]
  refine congrArg (List.filterMap · answers) (funext fun answer => ?_)
  cases answer <;> rfl

/-- The status that so many answers lead to, beginning with a record that is queued. -/
def reached (answers : List Answer) (count : Nat) : Status :=
  ((answers.take count).filterMap statusOf).getLast?.getD .queued

theorem reached_succ (answers : List Answer) (count : Nat) :
    reached answers (count + 1) =
      (statusOf (answer answers (count + 1))).getD (reached answers count) := by
  rw [reached, reached, List.take_add_one, List.filterMap_append, List.getLast?_append]
  rw [answer, Nat.add_sub_cancel, List.getD_eq_getElem?_getD]
  cases answers[count]? with
  | none => rfl
  | some given => cases given <;> rfl

/-- If each status may follow on all statuses before it, it may follow on the latest one of them. -/
private theorem mayBecome_of_pairwise {first next : Status} {before after : List Status}
    (ordered : (first :: (before ++ next :: after)).Pairwise fun s t => s.mayBecome t = true) :
    (before.getLast?.getD first).mayBecome next = true := by
  obtain ⟨begins, ordered⟩ := List.pairwise_cons.mp ordered
  cases found : before.getLast? with
  | none => exact begins next (List.mem_append_right _ List.mem_cons_self)
  | some status =>
    exact (List.pairwise_append.mp ordered).2.2 status (List.mem_of_getLast? found) next
      List.mem_cons_self

/-- A report that is answered stands among the answers. -/
private theorem split_of_answer {count : Nat} {report : Report}
    (given : answer answers (count + 1) = .ok report) :
    answers = answers.take count ++ .ok report :: answers.drop (count + 1) := by
  rw [answer, Nat.add_sub_cancel, List.getD_eq_getElem?_getD] at given
  cases found : answers[count]? with
  | none => simp [found, exhausted] at given
  | some there =>
    obtain ⟨inside, rfl⟩ := List.getElem?_eq_some_iff.mp found
    have same : answers[count] = .ok report := by rwa [found] at given
    rw [← same, List.cons_getElem_drop_succ, List.take_append_drop]

/-- Each report of a job that follows the grammar may follow on the one before it. -/
def IsGrammatical.feed (grammatical : p.IsGrammatical) : Feed where
  answer := answer p.answers
  reached := reached p.answers
  report count report given := by
    refine ⟨?_, by rw [reached_succ, given]; rfl⟩
    obtain ⟨queued, _, processing, _, _, last, ends, reports, _⟩ := grammatical.reports
    -- The status that has been reached is the one before the report, among those of the grammar.
    have ordered := pairwise_course queued processing ends
    rw [← reports, ← filterMap_statusOf, split_of_answer given, List.filterMap_append] at ordered
    exact mayBecome_of_pairwise ordered
  failure count e given := by rw [reached_succ, given]; rfl

end JobPlan

/-! ### Sessions that are fed a job -/

namespace Machine

variable {σ κ : Type} {c : Consumer σ κ} {p : JobPlan} {s : SessionTask κ} {m₀ m : Machine σ κ}
  {states : List (Machine σ κ)}

/-- A session that has just begun gets the answers of a job along a run. Its record is queued, if
there is one. The consumer does whatever it likes, but it does not set the status of the record
itself. -/
structure Feeds (c : Consumer σ κ) (p : JobPlan) (s : SessionTask κ) (m₀ : Machine σ κ)
    (states : List (Machine σ κ)) (m : Machine σ κ) : Prop where
  reach : Reachable c m₀
  listed : ⟨s, .fresh⟩ ∈ m₀.world.suspended
  new : s.calls = 0
  queued : ∀ task ∈ m₀.world.record s.tracker s.id, task.status = .queued
  run : Run c (fun _ => True) m₀ states m
  fed : ∀ m₁ ∈ m₀ :: states, m₁.IsFed c s.name s.fetcher (JobPlan.answer p.answers)
  alone : ∀ m₁ ∈ m₀ :: states, ¬ m₁.Meddles s.tracker s.id

/-- The store refuses no status that a session has been told of a job that follows the grammar. -/
theorem Feeds.never_refuses (feeds : Feeds c p s m₀ states m) (grammatical : p.IsGrammatical) :
    ∀ m₁ ∈ m₀ :: states, ¬ m₁.Refuses c s.name := by
  refine feeds.run.never_refuses (F := grammatical.feed) feeds.reach feeds.listed ?_ feeds.fed
    feeds.alone
  intro current has
  obtain ⟨task, found, rfl⟩ := Option.map_eq_some_iff.mp has
  rw [feeds.queued task found, feeds.new]
  rfl

end Machine

namespace Simulation

open Machine

variable {number : Nat} {plans : List JobPlan} {m m₁ m' : Running} {states further : List Running}
  {cadence : Cadence}

/-- The callbacks of a simulation make no calls. -/
theorem consumer_isWithin (tasks : Nat → TaskId → Prop) : consumer.IsWithin tasks := by
  intro label occasion
  cases label <;> cases occasion <;> trivial

/-- A fetcher that goes through a plan answers with its answers, whatever has been noted. -/
theorem isFed_backend (m : Running) (S : SessionName) (p : JobPlan) :
    m.IsFed consumer S (.backend p.answers) (JobPlan.answer p.answers) := by
  intro s turn rest r result _ _ _ _ answers
  exact (Progress.answer.inj answers).symm

/-- When jobs have been launched, each one is fed to a session, as long as no other code is run that
touches its record. -/
theorem Begins.feeds (begins : Begins number cadence plans m states m₁) (vacant : m.world.Vacant)
    (reach : Reachable consumer m) (idle : m.isIdle = true) {p : JobPlan} (mem : p ∈ plans)
    (run : Run consumer (Code.IsWithin fun n i => ¬ (n = number ∧ i = p.id)) m₁ further m') :
    ∃ s : SessionTask Label, s.tracker = number ∧ s.id = p.id ∧ m₁.world.lives s.name = true ∧
      Feeds consumer p s m₁ further m' := by
  obtain ⟨now, shows, _⟩ := begins.launched.jobs p mem _ (vacant.shows number p.id)
  obtain ⟨⟨s, pause⟩, listed, lives, fresh, stint, rfl, id⟩ := shows.exists_entry rfl
  obtain rfl : pause = .fresh := fresh
  have fetcher : s.fetcher = .backend p.answers := congrArg Stint.fetcher stint
  have launches : Run consumer (fun _ => True) m (m.code (launch s.tracker plans) :: states) m₁ :=
    begins.path.run.cons (.code idle trivial)
  refine ⟨s, rfl, id, lives, reach.run launches, listed, congrArg Stint.calls stint, ?_,
    run.mono fun _ _ => trivial, fun m _ => fetcher ▸ isFed_backend m s.name p, ?_⟩
  · intro task found
    rw [id, shows.record] at found
    obtain rfl := Option.some.inj found
    rfl
  · rw [id]
    exact run.never_meddles (consumer_isWithin _) (heeds_of_isIdle begins.idle)

/-- Every job that has been launched is fed to a session while time passes until no session is
left. -/
theorem Begins.exists_feeds (begins : Begins number cadence plans m states m₁)
    (vacant : m.world.Vacant) (reach : Reachable consumer m) (idle : m.isIdle = true)
    (valid : cadence.check = .ok ()) (regular : ∀ p ∈ plans, ∃ number last, p.IsRegular number last)
    {p : JobPlan} (mem : p ∈ plans) :
    ∃ (s : SessionTask Label) (further : List Running) (m' : Running),
      m₁.world.lives s.name = true ∧ (∀ S, m'.world.lives S = false) ∧
        Feeds consumer p s m₁ further m' := by
  have positive : (m₁.world.tracker number).settings.cadence.IsPositive := by
    rw [begins.launched.configured]
    exact Cadence.check_eq_ok.mp valid
  obtain ⟨further, m', settles, clock⟩ := exists_executes consumer_obeys backend_isPrompt positive
    begins.idle begins.launched.settled
    (Nat.le_max_left m₁.world.clock (m.world.clock + 14 * cadence.longest + 1))
  -- A job has fourteen answers at most, so nobody polls after as many intervals.
  have late : m.world.clock + 14 * cadence.longest < m'.world.clock := by omega
  have inactive : (m'.world.tracker number).activeIds = [] :=
    begins.ends idle vacant regular settles.executes.unattended settles.idle
      settles.settled.executor late
  have vacant' : m'.world.Vacant :=
    settles.settled.vacant (settles.settled.activeIds_eq_nil_iff.mp inactive)
  obtain ⟨s, _, _, lives, feeds⟩ := begins.feeds vacant reach idle mem
    settles.executes.run
  exact ⟨s, further, m', lives, vacant'.nobody, feeds⟩

private theorem opened_vacant : opened.Vacant := by
  have settled : opened.Settled 0 := (World.vacant_blank .inMemory 0).opened "tasks" .default
  refine settled.vacant fun id F shows => ?_
  rw [(World.Vacant.opened_shows "tasks" .default id _).unique shows]

private theorem opened_reachable : Reachable consumer ⟨{}, opened, .returned .unit, []⟩ :=
  ⟨{}, .inMemory, 0, true,
    call_leads (p := .require (.openTracker "tasks" .default) fun _ => .done) trivial⟩

end Simulation

namespace JobPlan

/-- As many jobs of a seed are drawn as are asked for, and fewer jobs are the first ones of more.
Each job follows the grammar, and when a session is fed one of them, the store refuses no status that
it has been told. -/
theorem generate_grammar (count : Nat) (seed : UInt64) :
    (generate count seed).length = count ∧
      (∀ n ≤ count, (generate count seed).take n = generate n seed) ∧
      ∀ p ∈ generate count seed, p.IsGrammatical ∧
        ∀ {σ κ : Type} {c : Consumer σ κ} {s : SessionTask κ} {m₀ m : Machine σ κ}
          {states : List (Machine σ κ)}, Machine.Feeds c p s m₀ states m →
            ∀ m₁ ∈ m₀ :: states, ¬ m₁.Refuses c s.name := by
  refine ⟨length_generate count seed, fun n fewer => take_generate fewer seed, fun p mem => ?_⟩
  obtain ⟨_, _, regular⟩ := isRegular_of_mem_generate mem
  exact ⟨regular.isGrammatical, fun feeds => feeds.never_refuses regular.isGrammatical⟩

/-- A job is drawn, launched, and polled for until its session has ended. -/
theorem generate_grammar_one_job :
    ∃ (p : JobPlan) (s : SessionTask Simulation.Label) (m₀ m : Simulation.Running)
      (states : List Simulation.Running), p ∈ generate 1 42 ∧ p.IsGrammatical ∧
        m₀.world.lives s.name = true ∧ m.world.lives s.name = false ∧
        Machine.Feeds Simulation.consumer p s m₀ states m ∧
        ∀ m₁ ∈ m₀ :: states, ¬ m₁.Refuses Simulation.consumer s.name := by
  obtain ⟨p, single⟩ := List.length_eq_one_iff.mp (length_generate 1 42)
  have mem : p ∈ generate 1 42 := single ▸ List.mem_singleton_self p
  have distinct : ((generate 1 42).map JobPlan.id).Nodup := single ▸ List.nodup_singleton _
  obtain ⟨_, m₀, begins⟩ :=
    Simulation.exists_begins (m := ⟨{}, Simulation.opened, .returned .unit, []⟩) rfl
      Simulation.opened_vacant (Nat.one_pos : 0 < 1) rfl rfl distinct
  obtain ⟨s, states, m, lives, nobody, feeds⟩ := begins.exists_feeds Simulation.opened_vacant
    Simulation.opened_reachable rfl rfl (fun _ => isRegular_of_mem_generate) mem
  obtain ⟨grammatical, never⟩ := (generate_grammar 1 42).2.2 p mem
  exact ⟨p, s, m₀, m, states, mem, grammatical, lives, nobody _, feeds, never feeds⟩

end JobPlan

end TaskWatch
