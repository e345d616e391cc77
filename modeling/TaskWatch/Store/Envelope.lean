import TaskWatch.Store.Collection
import TaskWatch.Storage.Basic

/-!
# The stored form of a collection

A collection is stored as one text: a format version and the records in ascending order of their
identifiers. A text that cannot be read as a whole, or that carries another version, stands for
no records; of several records with one identifier the last one counts.

## Main definitions

* `Collection.encode` — the stored text.
* `Collection.decode?` — the collection of a stored text.
* `Collection.hydrate` — the collection found in a storage.
-/

namespace TaskWatch

/-- The key under which a collection is stored unless another one is configured. -/
def defaultStorageKey : String := "background-tasks"

/-- The storage key of a store configuration, as a decoder. -/
def storageKeyDecoder : Json.Decoder String := fun room tree =>
  match Json.Decoder.fields ["storage_key"] room tree with
  | some (room, [key]) =>
    Json.Decoder.withDefault defaultStorageKey Json.Decoder.text room key
  | _ => none

namespace Collection

/-- The version of the stored form. -/
def formatVersion : Nat := 1

/-- The stored form as a JSON value. -/
def toJson (tasks : Collection) : Json :=
  .object [
    ("version", .whole formatVersion),
    ("tasks", .array (tasks.values.map Task.toJson))]

/-- The stored text of a collection. -/
def encode (tasks : Collection) : String := String.ofList tasks.toJson.compact

/-- Records kept under their own identifiers, the last of equal identifiers winning. -/
def ofTasks (tasks : List Task) : Collection :=
  Dictionary.ofList (tasks.map fun t => (t.id, t))

/-- Version and records of a stored text, as a decoder. -/
def envelopeDecoder : Json.Decoder (Nat × List Task) := fun room tree =>
  match Json.Decoder.fields ["version", "tasks"] room tree with
  | some (room, [version, tasks]) => do
    pure (
      ← Json.Decoder.required (Json.Decoder.natural (4294967296)) room version,
      ← Json.Decoder.required (Json.Decoder.listOf Task.decoder) room tasks)
  | _ => none

/-- The collection of a stored text of the current version. -/
def decode? (text : String) : Option Collection :=
  match Json.decode? envelopeDecoder text with
  | some (version, tasks) => if version = formatVersion then some (ofTasks tasks) else none
  | none => none

/-- The collection stored under a key; empty if there is none that can be read. -/
def hydrate (storage : Storage) (key : String) : Collection :=
  match storage.text? key with
  | some text => (decode? text).getD .empty
  | none => .empty

end Collection

end TaskWatch
