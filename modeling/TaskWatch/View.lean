import TaskWatch.Tracker

/-!
# Views

A view is something that presentation code can read over and over: all tasks, one task, the tasks
being polled, or whether one task is. Each snapshot carries an edition. Two snapshots of one view
with the same edition are the same object, so a reader can tell by the edition that nothing has
changed.

The list of all tasks makes a new edition whenever the store's version has moved on; the other
views make one whenever their value has changed. A view without a tracker shows the default.

## Main definitions

* `ViewKind`, `ViewValue` — what a view shows.
* `View` — a view with its latest edition.
* `View.refresh` — the view brought up to date.
-/

namespace TaskWatch

/-- What a view is about. -/
inductive ViewKind where
  /-- All tasks, oldest first. -/
  | tasks
  /-- One task. -/
  | task (id : TaskId)
  /-- The tasks being polled. -/
  | polling
  /-- Whether one task is being polled. -/
  | flag (id : TaskId)
deriving DecidableEq, Repr

/-- What a view shows. -/
inductive ViewValue where
  /-- All tasks. -/
  | tasks (list : List Task)
  /-- One task, if there is a record of it. -/
  | task (record : Option Task)
  /-- The tasks being polled. -/
  | polling (ids : List TaskId)
  /-- Whether a task is being polled. -/
  | flag (value : Bool)

/-- Values of views are equal when the records in them are. -/
instance : BEq ViewValue where
  beq
    | .tasks a, .tasks b => a == b
    | .task a, .task b => a == b
    | .polling a, .polling b => a == b
    | .flag a, .flag b => a == b
    | _, _ => false

namespace ViewKind

variable {κ : Type}

/-- What a view without a tracker shows. -/
def blank : ViewKind → ViewValue
  | tasks => .tasks []
  | task _ => .task none
  | polling => .polling []
  | flag _ => .flag false

/-- What a view of a tracker shows. -/
def read (k : ViewKind) (t : Tracker κ) : ViewValue :=
  match k with
  | tasks => .tasks t.store.tasks.list
  | task id => .task (t.store.tasks.find? id)
  | polling => .polling t.activeIds
  | flag id => .flag (t.isPolling id)

/-- The task to which a view is limited. -/
def about : ViewKind → Option TaskId
  | tasks | polling => none
  | task id | flag id => some id

/-- Whether a view follows the store; the others follow the sessions. -/
def followsStore : ViewKind → Bool
  | tasks | task _ => true
  | polling | flag _ => false

end ViewKind

/-- A view with the value it showed last. -/
structure View where
  /-- The number of the tracker behind it, if there is one. -/
  source : Option Nat
  /-- What it is about. -/
  kind : ViewKind
  /-- The value of the latest edition. -/
  value : ViewValue
  /-- The number of the latest edition. -/
  edition : Nat := 0
  /-- The version of the store from which the list of all tasks was read. -/
  readAt : Option Nat := none

namespace View

variable {κ : Type}

/-- A view that has not been read yet. -/
def make (source : Option Nat) (kind : ViewKind) : View := { source, kind, value := kind.blank }

instance : Inhabited View := ⟨make none .tasks⟩

/-- A view with another value in a new edition. -/
def renewed (v : View) (value : ViewValue) : View := { v with value, edition := v.edition + 1 }

/-- A view brought up to date with its tracker. -/
def refresh (v : View) (tracker : Option (Tracker κ)) : View :=
  match tracker with
  | none => v
  | some t =>
    match v.kind with
    | .tasks =>
      if v.readAt = some t.store.version then v
      else { v.renewed (v.kind.read t) with readAt := some t.store.version }
    | _ =>
      let value := v.kind.read t
      if v.value == value then v else v.renewed value

end View

end TaskWatch
