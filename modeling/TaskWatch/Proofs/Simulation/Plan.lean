import TaskWatch.Proofs.Session.Answers
import TaskWatch.Simulation.Plan

/-!
# What simulated jobs go through

Whatever is drawn, a simulated job is reported queued at most twice, then processing, and completed
or failed in the end, and a transient failure comes before a report now and then. A session that
gets these answers therefore does the same about each job, but for the failures and the outcome: it
writes and announces two changes of status, and the end.

## Main definitions

* `JobPlan.Disturbs` — answers are some reports, with transient failures before some of them.
* `JobPlan.IsRegular` — a job goes through the lifecycle.

## Main results

* `JobPlan.isRegular_of_mem_generate` — every job that is drawn does.
* `JobPlan.IsRegular.account` — what comes of such a job.
-/

namespace TaskWatch

/-! ### Draws -/

namespace Generator

theorem below_lt (g : Generator) {bound : Nat} (positive : 0 < bound) (small : bound ≤ 4294967296) :
    (g.below bound).1 < bound := by
  have words : ∀ g : Generator, g.word.1.toNat * bound ≤ 4294967295 * bound := fun g =>
    Nat.mul_le_mul_right bound (Nat.le_of_lt_succ g.word.1.toNat_lt)
  have first := words g
  have second := words g.word.2
  rw [below]
  dsimp only
  split
  · -- The lower half is so large that the upper half is not the last number.
    dsimp only
    omega
  · dsimp only
    omega

theorem between_mem (g : Generator) {least greatest : Nat} (order : least ≤ greatest)
    (small : greatest - least < 4294967296) :
    least ≤ (g.between least greatest).1 ∧ (g.between least greatest).1 ≤ greatest := by
  have below : (g.below (greatest - least + 1)).1 < greatest - least + 1 :=
    g.below_lt (Nat.succ_pos _) small
  rw [between]
  dsimp only
  omega

end Generator

namespace JobPlan

/-- Answers are some reports in their order, with a transient failure before a report now and then. -/
inductive Disturbs : List Report → List Answer → Prop
  | nil : Disturbs [] []
  /-- A report comes at once. -/
  | report (report : Report) {reports : List Report} {answers : List Answer}
      (rest : Disturbs reports answers) : Disturbs (report :: reports) (.ok report :: answers)
  /-- A report comes after a failure. -/
  | failure (report : Report) {reports : List Report} {answers : List Answer}
      (rest : Disturbs reports answers) :
      Disturbs (report :: reports) (.error transient :: .ok report :: answers)

theorem disturbs_disturbed (g : Generator) (reports : List Report) :
    Disturbs reports (disturbed g reports).1 := by
  induction reports generalizing g with
  | nil => exact .nil
  | cons report rest ih =>
    rw [disturbed]
    dsimp only
    split
    · exact .failure report (ih _)
    · exact .report report (ih _)

/-- The reports of a job: it is queued for so many of them, then processing for so many, and the last
one is given. -/
def course (queued processing : Nat) (last : Report) : List Report :=
  List.replicate queued { status := .queued } ++
    (List.replicate processing { status := .processing } ++ [last])

/-- The job with a number goes through the lifecycle. -/
structure IsRegular (number : Nat) (p : JobPlan) (last : Report) : Prop where
  ends : ∃ completes, last = lastReport number completes
  reports : ∃ queued ≤ 2, ∃ processing, 1 ≤ processing ∧ processing ≤ 4 ∧
    Disturbs (course queued processing last) p.answers

/-- What a draw comes to once the numbers of reports have been drawn. -/
private theorem isRegular_disturbed {queued processing : Nat} (few : queued ≤ 2)
    (some : 1 ≤ processing) (many : processing ≤ 4) (g : Generator) (number : Nat)
    (completes : Bool) (id : TaskId) (kind : Kind) :
    IsRegular number
      { id, kind, answers := (disturbed g (List.replicate queued { status := .queued } ++
          List.replicate processing { status := .processing } ++ [lastReport number completes])).1 }
      (lastReport number completes) := by
  refine ⟨⟨completes, rfl⟩, queued, few, processing, some, many, ?_⟩
  rw [course, ← List.append_assoc]
  exact disturbs_disturbed g _

theorem isRegular_draw (g : Generator) (number : Nat) :
    ∃ last, (draw g number).1.IsRegular number last := by
  have queued := fun g : Generator => g.between_mem (Nat.zero_le 2) (by decide)
  have processing := fun g : Generator => g.between_mem (by decide : 1 ≤ 4) (by decide)
  exact ⟨_, isRegular_disturbed (queued _).2 (processing _).1 (processing _).2 _ number _ _ _⟩

theorem isRegular_of_mem_drawFrom {g : Generator} {number count : Nat} {p : JobPlan}
    (mem : p ∈ drawFrom g number count) : ∃ number last, p.IsRegular number last := by
  induction count generalizing g number with
  | zero => exact absurd mem List.not_mem_nil
  | succ count ih =>
    rcases List.mem_cons.mp mem with rfl | mem
    · exact ⟨number, isRegular_draw g number⟩
    · exact ih mem

/-- Every job that is drawn goes through the lifecycle. -/
theorem isRegular_of_mem_generate {count : Nat} {seed : UInt64} {p : JobPlan}
    (mem : p ∈ generate count seed) : ∃ number last, p.IsRegular number last :=
  isRegular_of_mem_drawFrom mem

theorem length_drawFrom (g : Generator) (number count : Nat) :
    (drawFrom g number count).length = count := by
  induction count generalizing g number with
  | zero => rfl
  | succ count ih => exact congrArg (· + 1) (ih _ _)

theorem length_generate (count : Nat) (seed : UInt64) : (generate count seed).length = count :=
  length_drawFrom _ _ _

/-! ### What a job goes through -/

variable {reports : List Report} {answers : List Answer} {number : Nat} {p : JobPlan} {last : Report}

theorem Disturbs.statuses (disturbs : Disturbs reports answers) :
    answers.filterMap statusOf = reports.map Report.status := by
  induction disturbs with
  | nil => rfl
  | report report rest ih => exact congrArg _ ih
  | failure report rest ih => exact congrArg _ ih

theorem Disturbs.length_le (disturbs : Disturbs reports answers) :
    answers.length ≤ 2 * reports.length := by
  induction disturbs with
  | nil => exact Nat.le_refl 0
  | report report rest ih =>
    simp only [List.length_cons]
    omega
  | failure report rest ih =>
    simp only [List.length_cons]
    omega

/-- There are seven reports at most, each with a failure before it at most. -/
theorem IsRegular.length_le (regular : p.IsRegular number last) : p.answers.length ≤ 14 := by
  obtain ⟨queued, few, processing, _, many, disturbs⟩ := regular.reports
  have length := disturbs.length_le
  simp only [course, List.length_append, List.length_replicate, List.length_singleton] at length
  omega

theorem IsRegular.outcome (regular : p.IsRegular number last) : p.outcome = some last.status := by
  obtain ⟨queued, _, processing, _, _, disturbs⟩ := regular.reports
  rw [JobPlan.outcome, disturbs.statuses, course, ← List.append_assoc, List.map_append]
  exact List.getLast?_concat

theorem IsRegular.isTerminal (regular : p.IsRegular number last) : last.status.isTerminal = true := by
  obtain ⟨completes, rfl⟩ := regular.ends
  cases completes <;> rfl

variable {κ : Type} {h : Hooks κ} {id : TaskId} {task : Task}

/-- A session does nothing about a report with the status that the record has. -/
private theorem account_replicate (status : Status) (active : status.isTerminal = false)
    (same : task.status = status) (count : Nat) (rest : List Answer) :
    h.account id task (List.replicate count (.ok { status }) ++ rest) = h.account id task rest := by
  subst same
  induction count with
  | zero => rfl
  | succ count ih =>
    have calm : h.callsAbout id task (.ok { status := task.status }) = [] := by
      cases status : task.status <;>
        simp_all [Hooks.callsAbout, Hooks.callsAtEnd, Status.successors, Status.isTerminal]
    have kept : task.informed (.ok { status := task.status }) = task := by
      simp only [Task.informed, Status.mayBecome, beq_self_eq_true, Bool.true_or, if_true]
      rfl
    rw [List.replicate_succ, List.cons_append, Hooks.account_cons, calm, kept, ih]
    simp only [Answer.isFinal, active, Bool.false_eq_true, if_false, List.nil_append]

/-- What comes of reports that no failure disturbs. -/
private theorem account_course (queued : task.status = .queued) {processing : Nat}
    (some : 1 ≤ processing) (ends : last.status.isTerminal = true) (waits : Nat) :
    h.account id task ((course waits processing last).map .ok) =
      (ofHook h.statusChange (.statusChanged id .processing) ++
        (ofHook h.statusChange (.statusChanged id last.status) ++ h.callsAtEnd id last),
        { task with status := last.status }) := by
  obtain ⟨further, rfl⟩ := Nat.exists_eq_add_of_le' some
  obtain ⟨begun, made⟩ : ∃ begun : Task, begun = { task with status := .processing } := ⟨_, rfl⟩
  have begins : task.informed (.ok { status := .processing }) = begun := by
    simp [made, Task.informed, queued, Status.mayBecome, Status.successors, Task.patched,
      Patch.ofStatus]
  have announces : h.callsAbout id task (.ok { status := .processing }) =
      ofHook h.statusChange (.statusChanged id .processing) := by
    simp [Hooks.callsAbout, Hooks.callsAtEnd, queued, Status.successors]
  have follows : Status.processing.successors.contains last.status = true := by
    revert ends
    cases last.status <;> decide
  have finishes : begun.informed (.ok last) = { task with status := last.status } := by
    simp only [made, Task.informed, Status.mayBecome, follows, Bool.or_true, if_true]
    rfl
  have concludes : h.callsAbout id begun (.ok last) =
      ofHook h.statusChange (.statusChanged id last.status) ++ h.callsAtEnd id last := by
    rw [Hooks.callsAbout, made, if_pos follows]
  rw [course, List.map_append, List.map_replicate, account_replicate .queued rfl queued,
    List.replicate_succ, List.cons_append, List.map_cons, Hooks.account_cons, begins, announces,
    List.map_append, List.map_replicate, account_replicate .processing rfl (made ▸ rfl), List.map_cons,
    Hooks.account_cons, concludes, finishes]
  have final : Answer.isFinal (.ok last) = true := ends
  rw [if_pos final]
  rfl

/-- How many answers are failures. -/
abbrev failures (answers : List Answer) : Nat := answers.countP fun a => (statusOf a).isNone

/-- Of all reports only the last one may be final. -/
abbrev EndsLast (reports : List Report) : Prop :=
  ∀ report ∈ reports.dropLast, report.status.isTerminal = false

private theorem EndsLast.tail {report : Report} (going : EndsLast (report :: reports)) :
    EndsLast reports := by
  cases reports with
  | nil => exact fun _ mem => absurd mem List.not_mem_nil
  | cons next rest => exact fun other mem => going other (List.mem_cons_of_mem _ mem)

private theorem EndsLast.eq_nil {report : Report} (going : EndsLast (report :: reports))
    (ends : report.status.isTerminal = true) : reports = [] := by
  cases reports with
  | nil => rfl
  | cons next rest =>
    have goes : report.status.isTerminal = false := going report List.mem_cons_self
    exact absurd (goes.symm.trans ends) Bool.false_ne_true

/-- What comes of answers is what comes of reports, and each failure is announced. -/
def ComesTo (h : Hooks κ) (label : κ) (id : TaskId) (reports : List Report) (answers : List Answer) :
    Prop :=
  ∀ task : Task,
    (h.account id task answers).1.Perm
        (List.replicate (failures answers) (label, .fetchFailed id transient) ++
          (h.account id task (reports.map .ok)).1) ∧
      (h.account id task answers).2 = (h.account id task (reports.map .ok)).2

variable {label : κ}

/-- A report is dealt with before what follows it. If it is final, nothing follows. -/
private theorem ComesTo.report (rest : ComesTo h label id reports answers)
    (disturbs : Disturbs reports answers) {report : Report} (going : EndsLast (report :: reports)) :
    ComesTo h label id (report :: reports) (.ok report :: answers) := by
  intro task
  have same : failures (.ok report :: answers) = failures answers :=
    List.countP_cons_of_neg Bool.false_ne_true
  rw [same, List.map_cons, Hooks.account_cons, Hooks.account_cons]
  cases final : Answer.isFinal (.ok report) with
  | true =>
    obtain rfl := going.eq_nil final
    cases disturbs
    exact ⟨.refl _, rfl⟩
  | false =>
    obtain ⟨perm, same⟩ := rest (task.informed (.ok report))
    exact ⟨(perm.append_left _).trans (List.perm_append_comm_assoc _ _ _), same⟩

/-- A failure is announced, and leaves the record alone. -/
private theorem ComesTo.failure (rest : ComesTo h label id reports answers)
    (set : h.error = some label) : ComesTo h label id reports (.error transient :: answers) := by
  intro task
  obtain ⟨perm, same⟩ := rest task
  have announced : h.callsAbout id task (.error transient) =
      [(label, .fetchFailed id transient)] := by
    simp [Hooks.callsAbout, transient, FetchError.isCancellation, ofHook, set]
  have one : failures (.error transient :: answers) = failures answers + 1 :=
    List.countP_cons_of_pos rfl
  rw [Hooks.account_cons, announced, one, List.replicate_succ]
  exact ⟨perm.cons _, same⟩

/-- Failures do not change what comes of the reports, as long as only the last report is final. -/
private theorem Disturbs.comesTo (disturbs : Disturbs reports answers) (set : h.error = some label)
    (id : TaskId) (going : EndsLast reports) : ComesTo h label id reports answers := by
  induction disturbs with
  | nil => exact fun _ => ⟨.refl _, rfl⟩
  | report report rest ih => exact (ih going.tail).report rest going
  | failure report rest ih => exact ((ih going.tail).report rest going).failure set

theorem endsLast_course (queued processing : Nat) (last : Report) :
    EndsLast (course queued processing last) := by
  intro report mem
  rw [course, ← List.append_assoc, List.dropLast_concat] at mem
  rcases List.mem_append.mp mem with mem | mem
  · rw [List.eq_of_mem_replicate mem]
    rfl
  · rw [List.eq_of_mem_replicate mem]
    rfl

/-- What comes of a job that is recorded as queued: each failure is announced, the two changes of
status and the end are announced, and the record gets the status of the last report. -/
theorem IsRegular.account (regular : p.IsRegular number last) (set : h.error = some label)
    (id : TaskId) (queued : task.status = .queued) :
    (h.account id task p.answers).1.Perm
        (List.replicate p.errorCount (label, .fetchFailed id transient) ++
          (ofHook h.statusChange (.statusChanged id .processing) ++
            (ofHook h.statusChange (.statusChanged id last.status) ++ h.callsAtEnd id last))) ∧
      (h.account id task p.answers).2 = { task with status := last.status } := by
  obtain ⟨waits, _, processing, some, _, disturbs⟩ := regular.reports
  obtain ⟨perm, same⟩ := disturbs.comesTo set id (endsLast_course _ _ _) task
  rw [account_course queued some regular.isTerminal waits] at perm same
  exact ⟨perm, same⟩

/-- A final answer is among the answers. -/
theorem IsRegular.any_isFinal (regular : p.IsRegular number last) :
    p.answers.any Answer.isFinal = true := by
  have outcome := regular.outcome
  obtain ⟨answer, mem, same⟩ := List.mem_filterMap.mp (List.mem_of_getLast? outcome)
  refine List.any_eq_true.mpr ⟨answer, mem, ?_⟩
  cases answer with
  | error e => simp [statusOf] at same
  | ok report =>
    have final : report.status = last.status := Option.some.inj same
    show report.status.isTerminal = true
    rw [final]
    exact regular.isTerminal

end JobPlan

end TaskWatch
