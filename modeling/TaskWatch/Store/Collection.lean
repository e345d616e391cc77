import TaskWatch.Task.Codec
import TaskWatch.Store.Event

/-!
# Collections of tasks

The records of a store, kept under their identifiers, and the four ways to change them. Each
change yields an answer for its caller, the new collection, and the event to be reported, if
anything is to be reported at all.

## Main definitions

* `Collection` — records under their identifiers.
* `Mutation` — answer, new collection and event of a change.
* `Collection.add`, `Collection.update`, `Collection.remove`, `Collection.clearTerminal` — the
  changes.
* `Collection.listed` — the records that pass a test, oldest first.
-/

namespace TaskWatch

/-- Records kept under their identifiers. -/
abbrev Collection : Type := Dictionary Task

/-- What a change of a collection comes to. -/
structure Mutation (α : Type) where
  /-- The answer for the caller. -/
  answer : α
  /-- The collection after the change. -/
  tasks : Collection
  /-- The event to be reported; without one, nothing counts as changed. -/
  event : Option StoreEvent

namespace Collection

/-- Keep a record, replacing one with the same identifier. Keeping an equal record again is not
reported. -/
def add (tasks : Collection) (task : Task) : Mutation Task where
  answer := task
  tasks := tasks.insert task.id task
  event := match tasks.find? task.id with
    | some previous => if previous == task then none else some (.added task.id)
    | none => some (.added task.id)

/-- The error of a patch whose status the lifecycle forbids. -/
def refusal (current : Task) (patch : Patch) : Option TransitionError :=
  match patch.status with
  | none => none
  | some next =>
    match current.status.check next with
    | .ok () => none
    | .error e => some e

/-- Merge a patch into the record with an identifier. -/
def update (tasks : Collection) (id : TaskId) (patch : Patch) : Mutation UpdateOutcome :=
  match tasks.find? id with
  | none => ⟨.missing, tasks, none⟩
  | some current =>
    match refusal current patch with
    | some error => ⟨.rejected error, tasks, none⟩
    | none =>
      let merged := current.patched patch
      if merged == current then ⟨.unchanged, tasks, none⟩
      else ⟨.applied, tasks.insert merged.id merged, some (.updated merged.id)⟩

/-- Delete the record with an identifier. -/
def remove (tasks : Collection) (id : TaskId) : Mutation (Option Task) :=
  match tasks.find? id with
  | none => ⟨none, tasks, none⟩
  | some task => ⟨some task, tasks.erase id, some (.removed task.id)⟩

/-- The identifiers of the terminal records, in ascending order. -/
def terminalIds (tasks : Collection) : List TaskId :=
  (tasks.filter fun entry => entry.2.isTerminal).keys

/-- Delete every terminal record. -/
def clearTerminal (tasks : Collection) : Mutation (List TaskId) :=
  match tasks.terminalIds with
  | [] => ⟨[], tasks, none⟩
  | ids => ⟨ids, tasks.filter fun entry => !entry.2.isTerminal, some (.cleared ids)⟩

/-- Put a task at its place in a list ordered by creation time and identifier. -/
def place (task : Task) : List Task → List Task
  | [] => [task]
  | other :: rest =>
    if other.listedBefore task then other :: place task rest else task :: other :: rest

/-- The records that pass a test, ordered by creation time and identifier. -/
def listed (tasks : Collection) (keep : Task → Bool) : List Task :=
  (tasks.values.filter keep).foldr place []

/-- All records, oldest first. -/
def list (tasks : Collection) : List Task := tasks.listed fun _ => true

/-- The records that are not terminal, oldest first. -/
def active (tasks : Collection) : List Task := tasks.listed fun t => !t.isTerminal

/-- The records of one kind, oldest first. -/
def byKind (tasks : Collection) (kind : Kind) : List Task := tasks.listed fun t => t.kind == kind

/-- The records whose metadata have a value under a key, oldest first. -/
def findByMetadata (tasks : Collection) (key : String) (value : Json) : List Task :=
  tasks.listed fun t =>
    match t.metadata.find? key with
    | some found => found == value
    | none => false

end Collection

end TaskWatch
