import TaskWatch.Task.Basic

/-!
# What a store reports

## Main definitions

* `StoreEvent` — what a change of the collection was.
* `StoreEvent.affects` — whether it touched a task.
* `UpdateOutcome` — how an update ended.
-/

namespace TaskWatch

/-- A change of the collection. -/
inductive StoreEvent where
  /-- A record was inserted, or took the place of another one. -/
  | added (id : TaskId)
  /-- Fields of a record were changed. -/
  | updated (id : TaskId)
  /-- A record was deleted. -/
  | removed (id : TaskId)
  /-- All terminal records were deleted in one step. -/
  | cleared (ids : List TaskId)
deriving DecidableEq, Repr

namespace StoreEvent

/-- Whether the change touched a task. -/
def affects (e : StoreEvent) (id : TaskId) : Bool :=
  match e with
  | added other | updated other | removed other => other == id
  | cleared ids => ids.contains id

/-- The word for the kind of change. -/
def kind : StoreEvent → String
  | added _ => "added"
  | updated _ => "updated"
  | removed _ => "removed"
  | cleared _ => "cleared"

end StoreEvent

/-- How an update ended. -/
inductive UpdateOutcome where
  /-- The fields were changed and listeners were told. -/
  | applied
  /-- The record already had these fields; nothing happened. -/
  | unchanged
  /-- There is no record with the identifier. -/
  | missing
  /-- The change of status is outside the lifecycle; nothing happened. -/
  | rejected (error : TransitionError)
deriving DecidableEq, Repr

end TaskWatch
