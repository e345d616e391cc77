import TaskWatch.Store.Basic
import TaskWatch.Polling.Settings
import TaskWatch.Polling.Session

/-!
# Trackers

A tracker owns a task store, the sessions that poll the backend for its tasks, the settings of
the poller, and those who want to hear of sessions. There is at most one session for a task. Each
session has a serial number that no other session has; a session lives as long as the tracker
knows its task under this number.

So one look-up decides three things: whether there is a session for the task, whether the request of
the session has been cancelled, and whether the session may still write and call callbacks. A program
that runs in several threads has to keep them apart, and to change them one after the other when a
session ends. Here code runs one piece at a time and to its end, and no consumer code runs between
these changes; so nobody can see one of them without the others.

## Main definitions

* `Audience` — who is told of an event: a callback, the callback of a view, or someone waiting.
* `Notice` — what is told.
* `Tracker` — the tracker.
* `Tracker.isLive` — whether a session lives.
-/

namespace TaskWatch

/-- Something that listeners are told. -/
inductive Notice where
  /-- The collection has changed. -/
  | store (event : StoreEvent)
  /-- The set of sessions has changed. -/
  | session (event : SessionEvent)
deriving DecidableEq, Repr

namespace Notice

/-- Whether a notice is about a task. -/
def affects (n : Notice) (id : TaskId) : Bool :=
  match n with
  | store event => event.affects id
  | session event => event.taskId == id

end Notice

/-- Who is told of an event. -/
inductive Audience (κ : Type) where
  /-- A callback that is handed the event. -/
  | callback (label : κ)
  /-- A callback that is only told that a view may have changed: by anything, or by what is about
  one task. -/
  | view (about : Option TaskId) (label : κ)
  /-- Someone who waits for a session to end. -/
  | wait (number : Nat)
deriving DecidableEq, Repr

/-- The serial number of a session. -/
abbrev Serial : Type := Nat

/-- A store with the sessions that keep it current. -/
structure Tracker (κ : Type) where
  /-- The task store. -/
  store : Store (Audience κ)
  /-- The serial numbers of the live sessions under their tasks. -/
  sessions : Dictionary Serial := .empty
  /-- Cadence and lifecycle callbacks. -/
  settings : Settings κ := {}
  /-- Who is told of sessions. -/
  watchers : Registry (Audience κ) := {}

namespace Tracker

variable {κ : Type}

instance : Inhabited (Tracker κ) := ⟨{ store := default }⟩

/-- A tracker over what a storage holds under a key. -/
def ofStorage (storage : Storage) (key : String) (cadence : Cadence) : Tracker κ :=
  { store := .ofStorage storage key, settings := { cadence } }

/-- Whether there is a session for a task. -/
def isPolling (t : Tracker κ) (id : TaskId) : Bool := t.sessions.contains id

/-- The tasks with a session, in ascending order. -/
def activeIds (t : Tracker κ) : List TaskId := t.sessions.keys

/-- Whether the session of a task with a serial number lives. -/
def isLive (t : Tracker κ) (id : TaskId) (serial : Serial) : Bool :=
  t.sessions.find? id == some serial

/-- The word for a truth value. -/
def truthText (b : Bool) : String := if b then "true" else "false"

/-- The description of the lifecycle callbacks: which of them are set. -/
def hooksDescription (h : Hooks κ) : String :=
  "PollerHooks \x7b on_status_change: " ++ truthText h.statusChange.isSome ++
    ", on_complete: " ++ truthText h.complete.isSome ++
    ", on_failed: " ++ truthText h.failed.isSome ++
    ", on_error: " ++ truthText h.error.isSome ++
    ", on_stopped: " ++ truthText h.stopped.isSome ++ " \x7d"

/-- The description of the settings. -/
def settingsDescription (s : Settings κ) : String :=
  "Settings \x7b config: PollerConfig \x7b processing_interval_ms: " ++
    toString s.cadence.processing ++
    ", queued_interval_ms: " ++ toString s.cadence.queued ++
    " \x7d, hooks: " ++ hooksDescription s.hooks ++ " \x7d"

/-- The description of the polling side of a tracker. -/
def pollingDescription (t : Tracker κ) : String :=
  "PollingOrchestrator \x7b sessions: " ++ toString t.sessions.size ++
    ", settings: " ++ settingsDescription t.settings ++ ", .. \x7d"

/-- The description of a tracker. -/
def description (t : Tracker κ) : String :=
  "TaskTracker \x7b store: " ++ t.store.description ++
    ", orchestrator: " ++ t.pollingDescription ++ " \x7d"

end Tracker

end TaskWatch
