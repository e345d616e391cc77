import Mathlib.Algebra.BigOperators.Group.List.Basic
import TaskWatch.Proofs.Run.Noting
import TaskWatch.Proofs.Simulation.Plan
import TaskWatch.Simulation.Run

/-!
# What a simulation counts

Each callback of a simulation counts one thing, whichever job it is called for. So the counts at the
end are those of what has been called, and because every callback is called for one job, they are the
sums of what has been called for the jobs.

## Main definitions

* `Simulation.Column`, `Simulation.Summary.at` — the counts of what happens to jobs.
* `Simulation.column?` — the one that a call adds to.
* `JobPlan.entries` — what a job adds to a count.

## Main results

* `Simulation.noted_at` — the counts are those of what has been called.
* `Simulation.count_eq_sum` — and the sums of what has been called for the jobs.
* `JobPlan.IsRegular.count_account` — what is called for a job is what the job adds.
-/

namespace TaskWatch

namespace Simulation

/-- Something that is counted while jobs go on. -/
inductive Column where
  | completed
  | failed
  | transientErrors
  | statusChanges
deriving DecidableEq

/-- How often it has been counted. -/
def Summary.at (s : Summary) : Column → Nat
  | .completed => s.completed
  | .failed => s.failed
  | .transientErrors => s.transientErrors
  | .statusChanges => s.statusChanges

/-- What a call counts. -/
def column? : Label × Occasion → Option Column
  | (.reporter, .statusChanged _ _) => some .statusChanges
  | (.reporter, .completed _ _) => some .completed
  | (.reporter, .failed _ _) => some .failed
  | (.reporter, .fetchFailed _ _) => some .transientErrors
  | _ => none

/-- How often some calls count it. -/
def counted (column : Column) (calls : List (Label × Occasion)) : Nat :=
  calls.countP fun call => column? call = some column

variable {column : Column} {call : Label × Occasion} {calls : List (Label × Occasion)}

theorem counted_cons (column : Column) (call : Label × Occasion) (calls : List (Label × Occasion)) :
    counted column (call :: calls) =
      counted column calls + if column? call = some column then 1 else 0 := by
  rw [counted, List.countP_cons]
  simp only [decide_eq_true_eq, counted]

/-- Only callbacks of the lifecycle are counted. -/
theorem isLifecycle_of_column? (counts : column? call = some column) :
    call.2.isLifecycle = true ∧ ∃ id, call.2.subject? = some id := by
  obtain ⟨label, occasion⟩ := call
  cases label <;> cases occasion <;> first | exact ⟨rfl, _, rfl⟩ | simp [column?] at counts

theorem counted_lifecycleCalls (column : Column) (calls : List (Label × Occasion)) :
    counted column (lifecycleCalls calls) = counted column calls := by
  rw [counted, lifecycleCalls, List.countP_filter, counted]
  refine List.countP_congr fun call _ => ?_
  simp only [Bool.and_eq_true, decide_eq_true_eq, and_iff_left_iff_imp]
  exact fun counts => (isLifecycle_of_column? counts).1

/-! ### The memory -/

theorem consumer_notesFirst : consumer.NotesFirst := by
  intro label occasion
  cases label <;> cases occasion <;> trivial

/-- A call of a callback counts one thing. -/
private theorem react_at (memory : Console) (call : Label × Occasion) (column : Column) :
    ((react call.1 call.2).noted memory).summary.at column =
        (memory.summary.at column + if column? call = some column then 1 else 0) ∧
      ((react call.1 call.2).noted memory).summary.submitted = memory.summary.submitted := by
  obtain ⟨label, occasion⟩ := call
  cases label <;> cases occasion <;> cases column <;> exact ⟨rfl, rfl⟩

/-- The counts are those of what has been called. -/
theorem noted_at (memory : Console) (calls : List (Label × Occasion)) (column : Column) :
    (consumer.noted memory calls).summary.at column =
      memory.summary.at column + counted column calls := by
  induction calls generalizing memory with
  | nil => rfl
  | cons call rest ih =>
    have first := (react_at memory call column).1
    refine (ih ((react call.1 call.2).noted memory)).trans ?_
    rw [first, counted_cons]
    omega

/-- No callback counts submitted jobs. -/
theorem noted_submitted (memory : Console) (calls : List (Label × Occasion)) :
    (consumer.noted memory calls).summary.submitted = memory.summary.submitted := by
  induction calls generalizing memory with
  | nil => rfl
  | cons call rest ih =>
    exact (ih ((react call.1 call.2).noted memory)).trans (react_at memory call .completed).2

/-! ### One job after the other -/

/-- The calls among some that are for a task. -/
def callsOf (id : TaskId) (calls : List (Label × Occasion)) : List (Label × Occasion) :=
  calls.filter fun call => call.2.subject? = some id

/-- What is called for a task along a run. -/
theorem callsFor_eq_callsOf (id : TaskId) (states : List Running) :
    Machine.callsFor id states = callsOf id (Machine.calls states) := by
  induction states with
  | nil => rfl
  | cons m rest ih =>
    have split :
        Machine.callsFor id (m :: rest) = Machine.callsFor id [m] ++ Machine.callsFor id rest :=
      Machine.callsFor_append id [m] rest
    have split' : Machine.calls (m :: rest) = m.called ++ Machine.calls rest := List.flatMap_cons
    rw [split, split', ih, callsOf, callsOf, List.filter_append]
    refine congrArg (· ++ _) ?_
    rw [Machine.callsFor, List.filterMap_cons, Machine.calledFor, Machine.called]
    cases m.control with
    | calling label occasion => by_cases here : occasion.subject? = some id <;> simp [here]
    | _ => rfl

/-- What has been called for some jobs and counts, counts for these jobs. -/
theorem count_eq_sum {ids : List TaskId} (distinct : ids.Nodup)
    (within : ∀ call ∈ calls, ∀ id, call.2.subject? = some id → call.2.isLifecycle = true → id ∈ ids)
    (column : Column) :
    counted column calls = (ids.map fun id => counted column (callsOf id calls)).sum := by
  induction calls with
  | nil => simp [counted, callsOf]
  | cons call rest ih =>
    have others := ih fun other mem => within other (List.mem_cons_of_mem _ mem)
    by_cases counts : column? call = some column
    · obtain ⟨lifecycle, id, subject⟩ := isLifecycle_of_column? counts
      have mem := within call List.mem_cons_self id subject lifecycle
      have each : ∀ other, counted column (callsOf other (call :: rest)) =
          counted column (callsOf other rest) + if other = id then 1 else 0 := by
        intro other
        rw [callsOf, List.filter_cons, subject]
        by_cases here : other = id
        · simp [here, counted_cons, counts, callsOf]
        · simp [here, Ne.symm here, callsOf]
      have single : (ids.map fun other => if other = id then 1 else 0).sum = 1 := by
        rw [List.sum_map_eq_nsmul_single id _ fun other differs _ => if_neg differs,
          List.count_eq_one_of_mem distinct mem, if_pos rfl]
        rfl
      rw [counted_cons, if_pos counts, List.map_congr_left fun other _ => each other, List.sum_map_add,
        others, single]
    · have each : ∀ other, counted column (callsOf other (call :: rest)) =
          counted column (callsOf other rest) := by
        intro other
        rw [callsOf, List.filter_cons]
        split
        · rw [counted_cons, if_neg counts]
          rfl
        · rfl
      rw [counted_cons, if_neg counts, others, List.map_congr_left fun other _ => each other]
      rfl

end Simulation

namespace JobPlan

open Simulation

/-- What a job adds to a count. -/
def entries (p : JobPlan) : Column → Nat
  | .completed => if p.outcome = some .completed then 1 else 0
  | .failed => if p.outcome = some .failed then 1 else 0
  | .transientErrors => p.errorCount
  | .statusChanges => 2

variable {p : JobPlan} {plans : List JobPlan} {number : Nat} {last : Report} {task : Task}

theorem sum_map_ite (plans : List JobPlan) (counts : JobPlan → Prop) [DecidablePred counts] :
    (plans.map fun p => if counts p then 1 else 0).sum = plans.countP fun p => counts p := by
  induction plans with
  | nil => rfl
  | cons p rest ih =>
    rw [List.map_cons, List.sum_cons, ih, List.countP_cons, Nat.add_comm]
    simp only [decide_eq_true_eq]

/-- Every job completes or fails. -/
theorem IsRegular.entries_ends (regular : p.IsRegular number last) :
    p.entries .completed + p.entries .failed = 1 := by
  have ends := regular.isTerminal
  rw [entries, entries, regular.outcome]
  cases status : last.status <;> simp_all [Status.isTerminal]

/-- The jobs that complete and those that fail are all jobs. -/
theorem sum_entries_ends (regular : ∀ p ∈ plans, ∃ number last, p.IsRegular number last) :
    (plans.map (·.entries .completed)).sum + (plans.map (·.entries .failed)).sum = plans.length := by
  have each : ∀ p ∈ plans, p.entries .completed + p.entries .failed = 1 := fun p mem => by
    obtain ⟨_, _, regular⟩ := regular p mem
    exact regular.entries_ends
  rw [← List.sum_map_add, List.map_congr_left each, List.map_const', List.sum_replicate_nat,
    Nat.mul_one]

/-- What is called for a job is what the job adds. -/
theorem IsRegular.count_account (regular : p.IsRegular number last) (queued : task.status = .queued)
    (column : Column) : counted column (hooks.account p.id task p.answers).1 = p.entries column := by
  have perm := (regular.account (h := hooks) rfl p.id queued).1
  have failures :
      counted column (List.replicate p.errorCount (.reporter, .fetchFailed p.id transient)) =
      if column = .transientErrors then p.errorCount else 0 := by
    rw [counted, List.countP_replicate]
    cases column <;> rfl
  have outcome := regular.outcome
  have ends := regular.isTerminal
  rw [counted, perm.countP_eq, List.countP_append, ← counted, failures]
  cases status : last.status with
  | queued => simp [status, Status.isTerminal] at ends
  | processing => simp [status, Status.isTerminal] at ends
  | completed =>
    rw [status] at outcome
    cases column <;> simp [entries, outcome, Hooks.callsAtEnd, status, ofHook, hooks, column?]
  | failed =>
    rw [status] at outcome
    cases column <;> simp [entries, outcome, Hooks.callsAtEnd, status, ofHook, hooks, column?]

end JobPlan

end TaskWatch
