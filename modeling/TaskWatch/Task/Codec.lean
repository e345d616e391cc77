import TaskWatch.Task.Basic
import TaskWatch.Time.Reader
import TaskWatch.Json.Decode
import TaskWatch.Json.Print

/-!
# The written form of tasks

A task is written as a record with the fields `id`, `type`, `status`, `metadata`, `createdAt` and
`startedAt`, in this order. When a task is read, `metadata` may be missing and stands for no
members, and `startedAt` may be missing or `null`.

## Main definitions

* `Task.toJson`, `Task.encode` — the written form.
* `Task.decoder`, `Task.decode?` — reading it.
-/

namespace TaskWatch

/-- The word for a status, as a decoder. -/
def Status.decoder : Json.Decoder Status := Json.Decoder.word Status.ofName?

/-- The word for a kind, as a decoder. -/
def Kind.decoder : Json.Decoder Kind := Json.Decoder.word Kind.ofName?

/-- A point in time, as a decoder. -/
def Instant.decoder : Json.Decoder Instant := fun room tree =>
  (Json.Decoder.text room tree).bind fun text => Instant.read? text.toList

/-- A point in time as a JSON text. -/
def Instant.toJson (t : Instant) : Json := .text (String.ofList t.timestamp)

namespace Task

/-- The names of the fields in the order in which they are written. -/
def fieldNames : List String :=
  ["id", "type", "status", "metadata", "createdAt", "startedAt"]

/-- The record as a JSON value. -/
def toJson (t : Task) : Json :=
  .object [
    ("id", .text t.id),
    ("type", .text t.kind.name),
    ("status", .text t.status.name),
    ("metadata", .object t.metadata.entries),
    ("createdAt", t.createdAt.toJson),
    ("startedAt", match t.startedAt with
      | some time => time.toJson
      | none => .null)]

/-- The record as a text without blanks. -/
def encode (t : Task) : String := String.ofList t.toJson.compact

/-- A record, as a decoder. -/
def decoder : Json.Decoder Task := fun room tree =>
  match Json.Decoder.fields fieldNames room tree with
  | some (room, [id, kind, status, metadata, createdAt, startedAt]) => do
    pure {
      id := ← Json.Decoder.required Json.Decoder.text room id
      kind := ← Json.Decoder.required Kind.decoder room kind
      status := ← Json.Decoder.required Status.decoder room status
      metadata := ← Json.Decoder.withDefault .empty Json.Decoder.metadata room metadata
      createdAt := ← Json.Decoder.required Instant.decoder room createdAt
      startedAt := ← Json.Decoder.withDefault none
        (Json.Decoder.nullable Instant.decoder) room startedAt }
  | _ => none

/-- The record of a text. -/
def decode? (text : String) : Option Task := Json.decode? decoder text

end Task

end TaskWatch
