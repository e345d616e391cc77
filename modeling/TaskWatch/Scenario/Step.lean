import TaskWatch.Machine.World

/-!
# Steps of a scenario

A scenario is a list of steps on one tracker at a time. The listeners, callbacks and fetchers that
the steps hand over are told beforehand what to do: to take further steps, to panic, and, for a
fetcher, what to answer and how long to take.

## Main definitions

* `Trigger` — what a callback does on its first calls.
* `Answer`, `FetchPlan` — what a fetcher does.
* `Step` — a step that takes no time; `Stage` — a step of the scenario itself.
-/

namespace TaskWatch

namespace Scenario

/-- What a callback does on its first `times` calls, apart from recording them. Events other than
those asked for do not count. The steps are of type `α`. -/
structure Trigger (α : Type) where
  act : List α := []
  /-- Whether it panics after them. -/
  panics : Bool := false
  /-- The task that an event has to touch. -/
  only : Option TaskId := none
  /-- The kind that an event has to be of. -/
  kind : Option String := none
  /-- On how many calls it acts. -/
  times : Nat := 1
deriving Inhabited

/-- One answer of a fetcher. -/
structure Answer (α : Type) where
  /-- The steps taken when the request comes in. -/
  act : List α := []
  /-- Whether the answer never comes. -/
  hangs : Bool := false
  /-- Milliseconds until the answer comes. -/
  delay : Nat := 0
  /-- The steps taken before the answer is given. -/
  later : List α := []
  /-- Whether the fetcher panics instead of answering. -/
  panics : Bool := false
  result : Except FetchError Report

instance {α : Type} : Inhabited (Answer α) := ⟨{ result := .error .cancelled }⟩

/-- What a fetcher does with each request. Those with a name keep a count of their requests under
it. -/
inductive FetchPlan (α : Type) where
  /-- It gives answers in order, and then the last one over and over, and records its requests. -/
  | told (answers : List (Answer α)) (fallback : Answer α)
  /-- It lets others have their turn and then gives answers in order, and then the last one over and
  over. -/
  | counted (name : String) (answers : List (Except FetchError Report))
      (fallback : Except FetchError Report)
  /-- It gives the same report after the same delay. -/
  | slow (name : String) (delay : Nat) (report : Report)
  | hanging (name : String)

instance {α : Type} : Inhabited (FetchPlan α) := ⟨.hanging ""⟩

/-- What the lifecycle callbacks do, each with the tag under which it is recorded. -/
structure HookTriggers (α : Type) where
  statusChange : Option (Trigger α × Option String) := none
  complete : Option (Trigger α × Option String) := none
  failed : Option (Trigger α × Option String) := none
  error : Option (Trigger α × Option String) := none
  stopped : Option (Trigger α × Option String) := none
deriving Inhabited

/-- What is to be described. -/
inductive Subject where
  | store
  /-- The polling side of the tracker. -/
  | polling
  | tracker
deriving DecidableEq, Repr

/-- A step that takes no time. -/
inductive Step where
  | add (draft : Draft)
  | update (id : TaskId) (patch : Patch)
  | remove (id : TaskId)
  | get (id : TaskId)
  /-- Ask whether there is a record. -/
  | contains (id : TaskId)
  | list
  | active
  | byKind (kind : Kind)
  /-- List the records with a value under a metadata key. -/
  | find (key : String) (value : Json)
  | ids
  | size
  | version
  | storageKey
  | clearTerminal
  /-- Be told of changes of the store. -/
  | subscribe (name : String) (trigger : Trigger Step)
  /-- Look at what is stored under a key. -/
  | raw (key : Option String)
  /-- Put bytes into the storage. -/
  | setRaw (key : Option String) (content : ByteArray)
  | files
  | writeAttempts
  /-- Open a new tracker over the same storage. -/
  | reopen (key : Option String)
  /-- Release a subscription by hand. -/
  | unsubscribe (name : String)
  /-- Let a subscription go. -/
  | drop (name : String)
  /-- Keep the listener of a subscription for good. -/
  | detach (name : String)
  | start (id : TaskId) (plan : FetchPlan Step)
  | stop (id : TaskId)
  | stopAll
  /-- Ask whether there is a session. -/
  | isPolling (id : TaskId)
  | activeIds
  | cadence
  | configure (processing queued : Option Nat) (hooks : HookTriggers Step)
  /-- Be told of sessions. -/
  | subscribeSessions (name : String) (trigger : Trigger Step)
  /-- Keep a record and poll for it. -/
  | track (draft : Draft) (plan : FetchPlan Step)
  /-- Resume polling for tasks that have a plan. -/
  | resume (plans : List (TaskId × FetchPlan Step))
  | forget (id : TaskId)
  /-- Delete all terminal records of the tracker. -/
  | clearFinished
  | shutdown
  /-- Ask what a fetcher with a name has counted. -/
  | fetchCount (name : String)
  /-- Ask whether views show nothing but defaults. -/
  | isDetached
  | view (name : String) (kind : ViewKind)
  | snapshot (view : String)
  /-- Be told when a view may have changed. -/
  | watch (view name : String) (trigger : Trigger Step)
  | describe (subject : Subject)

instance : Inhabited Step := ⟨.list⟩

/-- A step of the scenario itself. -/
inductive Stage where
  | step (s : Step)
  /-- Let a number of milliseconds pass. -/
  | advance (millis : Nat)
  /-- Wait for a session to end, but no longer than so many milliseconds. -/
  | wait (id : TaskId) (millis : Nat)

end Scenario

end TaskWatch
