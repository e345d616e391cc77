import TaskWatch.Scenario.Step

/-!
# What a scenario remembers

## Main definitions

* `Result` — the result of a step.
* `Happening`, `Record` — something that happened, when, and in whose turn.
* `FetchCount` — what a fetcher has counted.
* `Notebook` — the memory of a scenario.
-/

namespace TaskWatch

namespace Scenario

/-- What a fetcher with a name has counted. -/
inductive FetchCount where
  | nothing
  /-- The times of its requests, latest first. -/
  | requests (times : List Nat)
  | answered (n : Nat)
  | begun (n : Nat)
deriving DecidableEq, Repr

/-- Milliseconds between neighbours in a list of times, latest first; the earliest gap comes
first. -/
def gaps (times : List Nat) : List Nat :=
  (List.zipWith (· - ·) times times.tail).reverse

/-- How many of a session's requests ran at the same time: a session makes one after the other. -/
def concurrency (times : List Nat) : Nat := min 1 times.length

/-- The result of a step. -/
inductive Result where
  | ok
  | panicked
  | noSubscription
  | refused (error : CadenceError)
  | task (t : Task)
  | maybeTask (t : Option Task)
  | tasks (list : List Task)
  | outcome (o : UpdateOutcome)
  | truth (b : Bool)
  | count (n : Nat)
  | maybeCount (n : Option Nat)
  | ids (list : List TaskId)
  | size (n : Nat)
  | text (t : Option String)
  | names (list : Option (List String))
  | polling (ids : List TaskId)
  | cadence (c : Cadence)
  | fetchCount (count : FetchCount)
  /-- What a view shows, and whether it is the same object as the last time. -/
  | snapshot (kind : ViewKind) (value : ViewValue) (same : Option Bool)
  | waited (w : WaitResult)

/-- Something that happened. -/
inductive Happening where
  | store (name : String) (event : StoreEvent)
  | session (name : String) (event : SessionEvent)
  | statusChanged (id : TaskId) (status : Status) (tag : Option String)
  | completed (id : TaskId) (report : Report) (tag : Option String)
  | failed (id : TaskId) (report : Report) (tag : Option String)
  | fetchFailed (id : TaskId) (error : FetchError) (tag : Option String)
  | stopped (id : TaskId) (reason : StopReason) (tag : Option String)
  | fetched (request : Request)
  | fetchDropped (request : Request)
  | offered (id : TaskId)
  | viewChanged (view name : String)
  | acted (step : Step) (result : Result)

/-- The task that something is recorded under; the empty name if it is about none. -/
def Happening.subject : Happening → TaskId
  | session _ event => event.taskId
  | store _ (.added id) | store _ (.updated id) | store _ (.removed id) => id
  | statusChanged id _ _ | completed id _ _ | failed id _ _ | fetchFailed id _ _ => id
  | stopped id _ _ | offered id => id
  | fetched request | fetchDropped request => request.id
  | store _ (.cleared _) | viewChanged _ _ | acted _ _ => ""

/-- Something that happened, when, and in the turn of which task's session. -/
structure Record where
  /-- Milliseconds on the executor's clock. -/
  time : Nat
  /-- The task whose session had its turn. -/
  turnOf : Option TaskId
  happening : Happening

/-- A view under a name. -/
structure OpenView where
  number : Nat
  kind : ViewKind
  /-- The edition that was read last. -/
  seen : Option Nat := none

/-- The memory of a scenario. -/
structure Notebook where
  tracker : Nat := 0
  /-- The intervals that each tracker is opened with. -/
  cadence : Cadence
  /-- Whether views have no tracker behind them. -/
  detached : Bool
  /-- Whether callbacks take no steps and do not panic. -/
  quiet : Bool := false
  subscriptions : List (String × Subscription) := []
  views : List (String × OpenView) := []
  /-- How often each callback has acted. -/
  counters : List Nat := []
  /-- What each fetcher has counted. -/
  counts : List FetchCount := []
  /-- The numbers of the fetchers with a name. -/
  fetchers : List (String × Nat) := []
  /-- What happened, latest first. -/
  records : List Record := []
  /-- The result of the latest step of the scenario itself. -/
  result : Result := .ok

namespace Notebook

/-- The subscription under a name. -/
def subscription? (n : Notebook) (name : String) : Option Subscription := n.subscriptions.lookup name

/-- Take the subscription under a name away. -/
def without (n : Notebook) (name : String) : Notebook :=
  { n with subscriptions := n.subscriptions.filter fun entry => entry.1 != name }

/-- Keep a subscription under a name. -/
def keep (n : Notebook) (name : String) (s : Subscription) : Notebook :=
  { n with subscriptions := (name, s) :: (n.without name).subscriptions }

/-- Note something that happened. -/
def record (n : Notebook) (r : Record) : Notebook := { n with records := r :: n.records }

/-- How often a callback has acted. -/
def acted (n : Notebook) (counter : Nat) : Nat := n.counters.getD counter 0

/-- Count a call on which a callback acts. -/
def countAct (n : Notebook) (counter : Nat) : Notebook :=
  { n with counters := n.counters.modify counter (· + 1) }

/-- Make room for counters. -/
def withCounters (n : Notebook) (howMany : Nat) : Notebook :=
  { n with counters := n.counters ++ List.replicate howMany 0 }

/-- Change what a fetcher has counted. -/
def modifyCount (n : Notebook) (fetcher : Nat) (f : FetchCount → FetchCount) : Notebook :=
  { n with counts := n.counts.modify fetcher f }

/-- What the fetcher with a name has counted. -/
def fetchCount (n : Notebook) (name : String) : FetchCount :=
  ((n.fetchers.lookup name).bind (n.counts[·]?)).getD .nothing

/-- Take note of a new fetcher. -/
def enlist (n : Notebook) (plan : FetchPlan Step) : Notebook :=
  let number := n.counts.length
  let named (name : String) (count : FetchCount) : Notebook :=
    { n with counts := n.counts ++ [count], fetchers := (name, number) :: n.fetchers }
  match plan with
  | .told _ _ => { n with counts := n.counts ++ [.nothing] }
  | .counted name _ _ => named name (.requests [])
  | .slow name _ _ => named name (.answered 0)
  | .hanging name => named name (.begun 0)

/-- Keep a view under a name. -/
def keepView (n : Notebook) (name : String) (view : OpenView) : Notebook :=
  { n with views := (name, view) :: n.views.filter fun entry => entry.1 != name }

end Notebook

end Scenario

end TaskWatch
