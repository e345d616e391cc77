import TaskWatch.Task.Basic

/-!
# Polling sessions as the outside sees them

## Main definitions

* `StopReason` — why a session ended.
* `SessionEvent` — a session was created or has ended.
* `StopReason.verdict` — what the end of a session means to someone who waited for the job.
-/

namespace TaskWatch

/-- Why a session ended. -/
inductive StopReason where
  /-- Somebody asked for it. -/
  | requested
  /-- The backend reported completion. -/
  | completed
  /-- The backend reported failure. -/
  | failed
  /-- The session could not go on: a callback panicked, or its executor went away. -/
  | aborted
deriving DecidableEq, Repr

namespace StopReason

/-- The word for a reason. -/
def name : StopReason → String
  | requested => "requested"
  | completed => "completed"
  | failed => "failed"
  | aborted => "aborted"

/-- The word for a reason with a capital letter, as it stands in messages. -/
def title : StopReason → String
  | requested => "Requested"
  | completed => "Completed"
  | failed => "Failed"
  | aborted => "Aborted"

/-- All reasons. -/
def all : List StopReason := [requested, completed, failed, aborted]

/-- The reason a word stands for. -/
def ofName? (word : String) : Option StopReason := all.find? fun r => r.name = word

/-- Only completion is a success for someone who waited; anything else is reported. -/
def verdict (id : TaskId) : StopReason → Except String Unit
  | completed => .ok ()
  | failed => .error ("job " ++ id ++ " failed")
  | reason => .error ("job " ++ id ++ " stopped before finishing (" ++ reason.title ++ ")")

end StopReason

/-- A change in the set of live sessions. -/
inductive SessionEvent where
  /-- A session was created for the task. -/
  | started (id : TaskId)
  /-- The session of the task has ended. -/
  | stopped (id : TaskId) (reason : StopReason)
deriving DecidableEq, Repr

namespace SessionEvent

/-- The task a session event is about. -/
def taskId : SessionEvent → TaskId
  | started id | stopped id _ => id

/-- The word for the kind of event. -/
def kind : SessionEvent → String
  | started _ => "started"
  | stopped _ _ => "stopped"

end SessionEvent

end TaskWatch
