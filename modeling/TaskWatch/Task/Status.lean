/-!
# The status of a task

A backend job is accepted, runs, and ends in success or failure. A status may be skipped but never
taken back, and the two terminal statuses are final.

## Main definitions

* `Status` — the four statuses.
* `Status.successors`, `Status.mayBecome` — the statuses that can follow, and the check made
  before a status is changed.
* `TransitionError` — a change of status that the check refuses.
-/

namespace TaskWatch

/-- The lifecycle status of a backend job. -/
inductive Status where
  /-- Accepted by the backend and not yet started. -/
  | queued
  /-- Running on the backend. -/
  | processing
  /-- Finished with success. -/
  | completed
  /-- Finished with an error. -/
  | failed
deriving DecidableEq, Repr, Inhabited

namespace Status

/-- All statuses in the order of the lifecycle. -/
def all : List Status := [queued, processing, completed, failed]

/-- The word for a status. -/
def name : Status → String
  | queued => "queued"
  | processing => "processing"
  | completed => "completed"
  | failed => "failed"

/-- The status a word stands for. -/
def ofName? (word : String) : Option Status := all.find? fun s => s.name = word

/-- Whether a job with this status has ended for good. -/
def isTerminal : Status → Bool
  | completed | failed => true
  | queued | processing => false

/-- The statuses that can follow a status in one step. -/
def successors : Status → List Status
  | queued => [processing, completed, failed]
  | processing => [completed, failed]
  | completed | failed => []

/-- Whether a record may be given a status: its own or one that can follow it. -/
def mayBecome (current next : Status) : Bool :=
  current == next || current.successors.contains next

end Status

/-- A change of status outside the lifecycle. -/
structure TransitionError where
  /-- The current status. -/
  current : Status
  /-- The status that was asked for. -/
  requested : Status
deriving DecidableEq, Repr

namespace TransitionError

/-- The text that reports the refused change. -/
def message (e : TransitionError) : String :=
  "illegal status transition: " ++ e.current.name ++ " -> " ++ e.requested.name

end TransitionError

/-- Check a change of status. -/
def Status.check (current next : Status) : Except TransitionError Unit :=
  if current.mayBecome next then .ok () else .error ⟨current, next⟩

end TaskWatch
