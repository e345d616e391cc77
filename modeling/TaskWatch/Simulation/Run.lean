import TaskWatch.Machine.Executor
import TaskWatch.Simulation.Plan

/-!
# Running simulated jobs

All jobs are tracked at once by one tracker, which polls a fake backend that goes through their
plans. The lifecycle callbacks print what happens to a job, and count it.

## Main definitions

* `Simulation.Console` — what has been printed and counted.
* `Simulation.begin?` — a tracker with all jobs submitted, unless an interval is zero.
* `Simulation.finish` — let time pass until every job has ended.
* `Simulation.turns`, `Simulation.isOver` — the same step by step.
* `Simulation.Summary` — the counts.
-/

namespace TaskWatch

namespace Simulation

/-- How jobs went. -/
structure Summary where
  /-- Jobs submitted. -/
  submitted : Nat := 0
  /-- Jobs that completed. -/
  completed : Nat := 0
  /-- Jobs that failed. -/
  failed : Nat := 0
  /-- Requests that failed. -/
  transientErrors : Nat := 0
  /-- Changes of status. -/
  statusChanges : Nat := 0
deriving DecidableEq, Repr

/-- What has been printed and counted. -/
structure Console where
  /-- The printed texts, latest first; each ends its line. -/
  printed : List String := []
  /-- The counts. -/
  summary : Summary := {}

/-- Print a text about a job. -/
def Console.print (c : Console) (id : TaskId) (text : String) : Console :=
  { c with printed := (id ++ "  " ++ text) :: c.printed }

/-- The printed texts, earliest first. -/
def Console.history (c : Console) : List String := c.printed.reverse

/-- What callbacks and fetchers are called. -/
inductive Label where
  /-- A callback that prints and counts. -/
  | reporter
  /-- A fetcher that goes through a plan. -/
  | backend (answers : List (Except FetchError Report))

/-- Code of a simulation. -/
abbrev Script : Type := Code Console Label

/-- The payload of a report as a text. -/
def payloadText (report : Report) : String :=
  match report.data with
  | some data => String.ofList data.compact
  | none => ""

/-- What callbacks do. -/
def react : Label → Occasion → Script
  | .reporter, .statusChanged id status =>
    .note (fun c => { c.print id status.name with
      summary := { c.summary with statusChanges := c.summary.statusChanges + 1 } }) .done
  | .reporter, .completed id report =>
    .note (fun c => { c.print id ("done " ++ payloadText report) with
      summary := { c.summary with completed := c.summary.completed + 1 } }) .done
  | .reporter, .failed id report =>
    .note (fun c => { c.print id ("failed: " ++ report.errorMessage) with
      summary := { c.summary with failed := c.summary.failed + 1 } }) .done
  | .reporter, .fetchFailed id error =>
    .note (fun c => { c.print id ("retrying after error: " ++ error.message) with
      summary := { c.summary with transientErrors := c.summary.transientErrors + 1 } }) .done
  | _, _ => .done

/-- What fetchers answer. -/
def proceed (label : Label) (request : Request) (_ : Nat) (_ : Console) : Progress :=
  match label with
  | .backend answers => .answer (JobPlan.answer answers request.number)
  | .reporter => .hang

/-- The consumer that runs a simulation. -/
def consumer : Consumer Console Label := ⟨react, proceed, fun _ _ _ => none⟩

/-- The callbacks. -/
def hooks : Hooks Label :=
  { statusChange := some .reporter
    complete := some .reporter
    failed := some .reporter
    error := some .reporter }

/-- Track jobs one after the other. -/
def submitEach (tracker : Nat) : List JobPlan → Script
  | [] => .done
  | plan :: rest =>
    .require (.track tracker plan.draft (.backend plan.answers)) fun _ => submitEach tracker rest

/-- Set the callbacks of a tracker and track all jobs. -/
def launch (tracker : Nat) (plans : List JobPlan) : Script :=
  .note (fun c => { c with summary := { c.summary with submitted := plans.length } }) <|
    .require (.configure tracker { hooks }) fun _ => submitEach tracker plans

/-- Open a tracker, set its callbacks and track all jobs. -/
def submit (key : String) (cadence : Cadence) (plans : List JobPlan) : Script :=
  .require (.openTracker key cadence) fun
    | .number tracker => launch tracker plans
    | _ => .done

/-- A simulation under way. Its tracker has the number zero. -/
abbrev Running : Type := Machine Console Label

/-- The number of the tracker. -/
def tracker : Nat := 0

/-- A tracker with all jobs submitted. An interval of zero is refused. -/
def begin? (storage : Storage) (key : String) (cadence : Cadence) (wallClock : Nat)
    (plans : List JobPlan) : Except CadenceError Running :=
  match cadence.check with
  | .error e => .error e
  | .ok () =>
    .ok <| Machine.call consumer (.idle {} { storage, wallClock }) (submit key cadence plans)

/-- Let time pass until every job has ended, but no longer than so many milliseconds. The jobs have
been launched on the tracker with the number zero if no other is given. A turn has at most `limit`
steps, and there are at most `limit` turns at one time. -/
def finish (m : Running) (plans : List JobPlan) (millis : Nat) (number : Nat := tracker)
    (limit : Nat := Machine.patience) : Bool × Running :=
  Machine.awaitAll consumer m number (plans.map JobPlan.id) millis limit

/-- Give turns to all sessions that are ready. -/
def turns (m : Running) : Running :=
  Machine.runReady consumer Machine.patience Machine.patience m

/-- Whether every job has ended. -/
def isOver (m : Running) : Bool := (m.tracker tracker).activeIds.isEmpty

/-- Stop what is still being polled. -/
def shutdown (m : Running) : Running :=
  Machine.call consumer m (.require (.stopAll tracker) fun _ => .done)

end Simulation

end TaskWatch
