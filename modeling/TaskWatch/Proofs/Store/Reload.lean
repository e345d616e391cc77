import TaskWatch.Proofs.Json.Free
import TaskWatch.Proofs.Json.Record
import TaskWatch.Proofs.Store.Collection
import TaskWatch.Proofs.Time.Timestamp

/-!
# Reading a stored collection back

Writing a collection has no limit on the depth of a value, reading has one: of the containers that
may be open at once, four are the stored form, the list of its records, a record and its metadata,
and the others are left for a value of the metadata. Below this limit a store that is opened on the
stored text has the collection that was stored; one value that goes beyond it costs all records.

## Main definitions

* `Task.IsProper`, `Collection.IsProper` — records and collections that can occur.

## Main results

* `Task.decoder_raw` — reading a written record.
* `Collection.decode?_encode` — reading a stored collection.
* `Store.ofStorage_encode` — a store that is opened on a stored collection.
-/

namespace TaskWatch

/-! ### Records -/

theorem Kind.decoder_raw (k : Kind) (room : Nat) :
    Kind.decoder room (Json.raw (.text k.name)) = some k := by
  rw [Kind.decoder, Json.Decoder.word_raw]
  cases k <;> rfl

theorem Status.decoder_raw (s : Status) (room : Nat) :
    Status.decoder room (Json.raw (.text s.name)) = some s := by
  rw [Status.decoder, Json.Decoder.word_raw]
  cases s <;> decide

theorem Instant.decoder_raw {t : Instant} (proper : t.IsProper) (room : Nat) :
    Instant.decoder room (Json.raw t.toJson) = some t := by
  rw [Instant.decoder, Instant.toJson, Json.Decoder.text_raw, Option.bind_some,
    String.toList_ofList, Instant.read?_timestamp proper]

/-- A point in time that may be missing is written as `null` when it is. -/
theorem Instant.nullable_decoder_raw {time : Option Instant} (proper : ∀ t ∈ time, t.IsProper)
    (room : Nat) :
    Json.Decoder.nullable Instant.decoder room (Json.raw (time.elim .null Instant.toJson)) =
      some time := by
  cases time with
  | none => rfl
  | some t =>
    have read := Instant.decoder_raw (proper t rfl) room
    rw [Instant.toJson, Json.raw] at read
    simp only [Option.elim, Instant.toJson, Json.raw, Json.Decoder.nullable, read, Option.map_some]

namespace Task

/-- A record that can occur: its metadata can, and its points in time can be represented. -/
def IsProper (t : Task) : Prop :=
  Json.isProperMembers t.metadata.entries = true ∧ t.createdAt.IsProper ∧
    ∀ time ∈ t.startedAt, time.IsProper

instance (t : Task) : Decidable t.IsProper := inferInstanceAs (Decidable (_ ∧ _ ∧ _))

/-- How many containers are open at once at the deepest place of a value of the metadata. -/
def depth (t : Task) : Nat := Json.depthMembers t.metadata.entries

theorem isExact_toJson (t : Task) : t.toJson.isExact = t.isExact := by
  cases started : t.startedAt <;>
    simp [toJson, Json.isExact, Json.isExactMembers, Instant.toJson, isExact, started]

/-- The fields of a written record. -/
theorem fields_raw (t : Task) (room : Nat) :
    Json.Decoder.fields fieldNames (room + 1) (Json.raw t.toJson) = some (room, [
      some (Json.raw (.text t.id)),
      some (Json.raw (.text t.kind.name)),
      some (Json.raw (.text t.status.name)),
      some (Json.raw (.object t.metadata.entries)),
      some (Json.raw t.createdAt.toJson),
      some (Json.raw (t.startedAt.elim .null Instant.toJson))]) := by
  have distinct : fieldNames.Nodup := by decide
  refine (Json.Decoder.fields_raw ?_ distinct room).trans ?_
  · rfl
  · cases t.startedAt <;> rfl

/-- A written record is read if no value of its metadata nests too deep. -/
theorem decoder_raw {t : Task} (exact_ : t.isExact = true) (proper : t.IsProper) (room : Nat) :
    decoder (room + 2) (Json.raw t.toJson) = if t.depth ≤ room then some t else none := by
  obtain ⟨values, created, started⟩ := proper
  have metadata : Json.Decoder.metadata (room + 1) (Json.raw (.object t.metadata.entries)) =
      if t.depth ≤ room then some t.metadata else none :=
    Json.Decoder.metadata_raw exact_ values room
  simp only [decoder, fields_raw, Json.Decoder.required, Json.Decoder.withDefault,
    Json.Decoder.text_raw, Kind.decoder_raw, Status.decoder_raw, metadata,
    Instant.decoder_raw created, Instant.nullable_decoder_raw started,
    Option.bind_eq_bind, Option.bind_some]
  split <;> rfl

end Task

namespace Collection

variable {tasks : Collection}

/-- A collection that can occur: its records can. -/
def IsProper (tasks : Collection) : Prop := ∀ task ∈ tasks.values, task.IsProper

instance (tasks : Collection) : Decidable tasks.IsProper :=
  inferInstanceAs (Decidable (∀ task ∈ tasks.values, task.IsProper))

/-! ### Collections -/

theorem isExact_toJson (tasks : Collection) : tasks.toJson.isExact = tasks.isExact := by
  have items : ∀ records : List Task,
      Json.isExactItems (records.map Task.toJson) = records.all Task.isExact := by
    intro records
    induction records with
    | nil => rfl
    | cons task rest ih =>
      rw [List.map_cons, Json.isExactItems, Task.isExact_toJson, ih, List.all_cons]
  simp [toJson, Json.isExact, Json.isExactMembers, items, isExact]

/-- Records that are kept under their own identifiers are collected again from their list. -/
theorem ofTasks_values (keyed : tasks.Keyed) : ofTasks tasks.values = tasks := by
  have entries : tasks.values.map (fun t => (t.id, t)) = tasks.entries := by
    rw [Dictionary.values, List.map_map]
    conv => rhs; rw [← List.map_id tasks.entries]
    refine List.map_congr_left fun entry mem => ?_
    have id : entry.2.id = entry.1 := keyed (tasks.mem_entries.mp mem)
    simp [id]
  rw [ofTasks, entries, Dictionary.ofList_entries]

/-- The stored form of a collection is read if no value in the metadata of any record nests too
deep. -/
theorem envelopeDecoder_raw (exact_ : tasks.isExact = true) (proper : tasks.IsProper) (room : Nat) :
    envelopeDecoder (room + 4) (Json.raw tasks.toJson) =
      if tasks.values.all (·.depth ≤ room) then some (formatVersion, tasks.values) else none := by
  have distinct : ["version", "tasks"].Nodup := by decide
  have fields : Json.Decoder.fields ["version", "tasks"] (room + 4) (Json.raw tasks.toJson) =
      some (room + 3, [some (Json.raw (.whole formatVersion)),
        some (Json.raw (.array (tasks.values.map Task.toJson)))]) :=
    Json.Decoder.fields_raw (by rfl) distinct (room + 3)
  have version := Json.Decoder.natural_raw (show formatVersion < 4294967296 by decide) (by decide)
    (room + 3)
  have each : ∀ task ∈ tasks.values, Task.decoder (room + 2) (Json.raw task.toJson) =
      if decide (task.depth ≤ room) = true then some task else none := fun task mem => by
    simpa using Task.decoder_raw (List.all_eq_true.mp exact_ task mem) (proper task mem) room
  have records := Json.Decoder.listOf_raw each
  simp only [envelopeDecoder, fields, Json.Decoder.required, version, records,
    Option.bind_eq_bind, Option.bind_some]
  split <;> rfl

/-- What is read from the stored text of a collection. -/
theorem decode?_encode (keyed : tasks.Keyed) (exact_ : tasks.isExact = true)
    (proper : tasks.IsProper) :
    decode? tasks.encode = if tasks.values.all (·.depth ≤ 123) then some tasks else none := by
  have limit : Json.nestingLimit = 123 + 4 := rfl
  have read : Json.decode? envelopeDecoder tasks.encode =
      envelopeDecoder (123 + 4) (Json.raw tasks.toJson) := by
    rw [Json.decode?, encode, String.toList_ofList,
      Json.Raw.read?_compact ((isExact_toJson tasks).trans exact_), Option.bind_some, limit]
  rw [decode?, read, envelopeDecoder_raw exact_ proper]
  by_cases shallow : tasks.values.all (·.depth ≤ 123) = true
  · simp only [if_pos shallow, if_pos, ofTasks_values keyed]
  · simp only [if_neg shallow]

end Collection

namespace Store

variable {α : Type}

/-- A store that is opened on the stored text of a collection has exactly this collection, whatever
is in its texts, points in time and metadata, if no value of the metadata opens more than 123
containers at once. A single value that does leaves the store without any record. -/
theorem ofStorage_encode {storage : Storage} {key : String} {tasks : Collection}
    (keyed : tasks.Keyed) (exact_ : tasks.isExact = true) (proper : tasks.IsProper)
    (stored : storage.text? key = some tasks.encode) :
    ((∀ task ∈ tasks.values, ∀ member ∈ task.metadata.entries, member.2.depth ≤ 123) →
      (ofStorage storage key : Store α) = { key, tasks }) ∧
    (∀ task ∈ tasks.values, ∀ member ∈ task.metadata.entries, 123 < member.2.depth →
      (ofStorage storage key : Store α) = { key, tasks := .empty }) := by
  have fits : ∀ task : Task, task.depth ≤ 123 ↔
      ∀ member ∈ task.metadata.entries, member.2.depth ≤ 123 := fun task =>
    Json.depthMembers_le_iff task.metadata.entries 123
  have opened : (ofStorage storage key : Store α) =
      { key, tasks := (if tasks.values.all (·.depth ≤ 123) then some tasks else none).getD .empty } := by
    rw [← Collection.decode?_encode keyed exact_ proper, ofStorage, Collection.hydrate, stored]
  constructor
  · intro shallow
    have all : tasks.values.all (·.depth ≤ 123) = true :=
      List.all_eq_true.mpr fun task mem => decide_eq_true ((fits task).mpr (shallow task mem))
    rw [opened, if_pos all, Option.getD_some]
  · intro task there member mem deep
    have refused : ¬ tasks.values.all (·.depth ≤ 123) = true := fun all => by
      have shallow : task.depth ≤ 123 := of_decide_eq_true (List.all_eq_true.mp all task there)
      exact absurd ((fits task).mp shallow member mem) (by omega)
    rw [opened, if_neg refused, Option.getD_none]

/-- A value with a number of lists inside one another. -/
def nested : Nat → Json
  | 0 => .whole (-9223372036854775808)
  | n + 1 => .array [nested n]

/-- Two records: one from a leap second, begun in the year `-43`, with a value of the given depth;
the other one from the year `10000`. -/
def chronicle (depth : Nat) : Collection :=
  let first : Task := {
    id := "\"\\\n\x01é"
    kind := .documentGeneration
    status := .processing
    metadata := Dictionary.empty.insert "key" (nested depth)
    createdAt := ⟨17166, 86399, 1500000000⟩
    startedAt := some ⟨-734913, 0, 1⟩ }
  let second : Task := {
    id := ""
    kind := .analysis
    status := .queued
    metadata := .empty
    createdAt := ⟨2932897, 43200, 0⟩
    startedAt := none }
  (Dictionary.insert .empty first.id first).insert second.id second

theorem keyed_chronicle (depth : Nat) : (chronicle depth).Keyed :=
  (Collection.keyed_empty.insert _).insert _

/-- A storage that holds the text of a collection. -/
def holding (tasks : Collection) : Storage :=
  .memory none (Dictionary.empty.insert defaultStorageKey tasks.encode)

theorem text?_holding (tasks : Collection) :
    (holding tasks).text? defaultStorageKey = some tasks.encode := by
  simp [holding, Storage.text?, Storage.read, Dictionary.find?_insert]

theorem ofStorage_encode_chronicle :
    (ofStorage (holding (chronicle 123)) defaultStorageKey : Store Unit) =
        { key := defaultStorageKey, tasks := chronicle 123 } ∧
      (ofStorage (holding (chronicle 124)) defaultStorageKey : Store Unit) =
        { key := defaultStorageKey, tasks := .empty } :=
  ⟨(ofStorage_encode (keyed_chronicle 123) (by decide +kernel) (by decide +kernel)
      (text?_holding _)).1 (by decide +kernel),
    (ofStorage_encode (keyed_chronicle 124) (by decide +kernel) (by decide +kernel)
      (text?_holding _)).2 _ (List.mem_cons_of_mem _ List.mem_cons_self) _ List.mem_cons_self
      (by decide +kernel)⟩

end Store

end TaskWatch
