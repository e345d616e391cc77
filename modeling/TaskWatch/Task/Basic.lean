import TaskWatch.Task.Status
import TaskWatch.Task.Kind
import TaskWatch.Time.Instant
import TaskWatch.Json.Basic

/-!
# Tasks

The record kept for a backend job, the draft from which a record is made, and the patch that is
merged into one.

## Main definitions

* `Task` — a record.
* `Draft` — a record whose creation time may still be missing; `Draft.stamped` fills it in.
* `Patch` — the fields to be changed; `Task.patched` changes them.
-/

namespace TaskWatch

/-- The identifier of a task, issued by the backend. -/
abbrev TaskId : Type := String

/-- A tracked backend job. -/
structure Task where
  /-- The identifier. -/
  id : TaskId
  /-- The kind of job. -/
  kind : Kind
  /-- The last known status. -/
  status : Status
  /-- Identifiers of what the job is about, kept for the consumer. -/
  metadata : Metadata
  /-- When the record was made. -/
  createdAt : Instant
  /-- When processing began, if the consumer has noted it. -/
  startedAt : Option Instant
deriving Inhabited

namespace Task

/-- Records are equal when all their fields are. -/
instance : BEq Task where
  beq a b := a.id == b.id && a.kind == b.kind && a.status == b.status &&
    a.metadata == b.metadata && a.createdAt == b.createdAt && a.startedAt == b.startedAt

/-- Whether the job has ended for good. -/
def isTerminal (t : Task) : Bool := t.status.isTerminal

/-- The order in which tasks are listed: by creation time and then by identifier. -/
def listedBefore (a b : Task) : Bool :=
  a.createdAt.before b.createdAt || a.createdAt == b.createdAt && a.id < b.id

end Task

/-- A task about to be recorded. -/
structure Draft where
  /-- The identifier. -/
  id : TaskId
  /-- The kind of job. -/
  kind : Kind
  /-- The status to begin with. -/
  status : Status := .queued
  /-- Identifiers of what the job is about. -/
  metadata : Metadata := .empty
  /-- When the record was made, if that is known already. -/
  createdAt : Option Instant := none
  /-- When processing began, if that is known already. -/
  startedAt : Option Instant := none

namespace Draft

/-- The record of a draft, made now if the draft does not say when. -/
def stamped (d : Draft) (now : Instant) : Task :=
  { id := d.id
    kind := d.kind
    status := d.status
    metadata := d.metadata
    createdAt := d.createdAt.getD now
    startedAt := d.startedAt }

end Draft

/-- The draft that records a task again as it is. -/
def Task.draft (t : Task) : Draft :=
  { id := t.id
    kind := t.kind
    status := t.status
    metadata := t.metadata
    createdAt := some t.createdAt
    startedAt := t.startedAt }

/-- The fields of a record to be changed. -/
structure Patch where
  /-- The new kind. -/
  kind : Option Kind := none
  /-- The new status. -/
  status : Option Status := none
  /-- The metadata that replace the old ones. -/
  metadata : Option Metadata := none
  /-- The new start of processing; it may be cleared. -/
  startedAt : Option (Option Instant) := none

namespace Patch

/-- The patch that changes the status alone. -/
def ofStatus (s : Status) : Patch := { status := some s }

/-- Whether the patch sets no field. -/
def isEmpty (p : Patch) : Bool :=
  p.kind.isNone && p.status.isNone && p.metadata.isNone && p.startedAt.isNone

end Patch

/-- A record with the fields of a patch changed. Identifier and creation time stay. -/
def Task.patched (t : Task) (p : Patch) : Task :=
  { t with
    kind := p.kind.getD t.kind
    status := p.status.getD t.status
    metadata := p.metadata.getD t.metadata
    startedAt := p.startedAt.getD t.startedAt }

end TaskWatch
