import TaskWatch.Proofs.Json.Proper
import TaskWatch.Proofs.Store.Reload
import TaskWatch.Proofs.Time.Reading

/-!
# Opening a store on any text

A store can be opened on any text. It holds all records of the text or none: none unless the whole
text is a payload of the current version in which every record can be read, and of several records
with one identifier the last one. The text may write them in many ways, with fields in any order,
further fields, lists in the place of objects, defaults and offsets; what is read is in one form all
the same, the one that is written. So a store that is opened on what it would write itself is the
same store.

## Main definitions

* `Collection.recordTrees?` — the items of the list of records in a text.
* `Collection.payload?` — the records in the order in which they are written.

## Main results

* `Task.decoder_proper` — a record that has been read can occur, and is not too deep.
* `Collection.decode?_eq_map_ofTasks` — all records of a payload, or none.
* `Collection.decode?_encode_hydrate` — what was opened is read back from what it is written to.
* `Store.ofStorage_normal` — opening a store on any text.
-/

namespace TaskWatch

/-! ### What decoders accept -/

namespace Json.Decoder

variable {α : Type}

/-- Inside a record one more container is open. -/
theorem fields_room {names : List String} {room inside : Nat} {tree : Raw}
    {given : List (Option Raw)} (read : fields names room tree = some (inside, given)) :
    room = inside + 1 := by
  unfold fields at read
  split at read
  · split at read
    · simp at read
    · obtain ⟨_, -, same⟩ := Option.map_eq_some_iff.mp read
      rw [(Prod.mk.inj same).1]
  · obtain ⟨_, -, same⟩ := Option.map_eq_some_iff.mp read
    rw [(Prod.mk.inj same).1]
  · simp at read

/-- Trees are decoded one by one, and each of them has to be. -/
theorem all?_eq_some_iff {decode : Raw → Option α} {trees : List Raw} {values : List α} :
    all? decode trees = some values ↔ trees.map decode = values.map some := by
  induction trees generalizing values with
  | nil => cases values <;> simp [all?]
  | cons tree rest ih =>
    rw [all?, List.map_cons]
    cases first : decode tree with
    | none => cases values <;> simp
    | some value =>
      cases values with
      | nil => simp
      | cons other values =>
        simp only [Option.map_eq_some_iff, List.cons.injEq, List.map_cons, Option.some.injEq, ih]
        constructor
        · rintro ⟨_, others, same, rfl⟩
          exact ⟨same, others⟩
        · rintro ⟨same, others⟩
          exact ⟨values, others, same, rfl⟩

/-- A field with a default is that, or it has been read. -/
theorem withDefault_eq_some {fallback value : α} {decoder : Decoder α} {room : Nat}
    {given : Option Raw} (read : withDefault fallback decoder room given = some value) :
    value = fallback ∨ ∃ tree, decoder room tree = some value := by
  cases given with
  | none => exact .inl (Option.some.inj read).symm
  | some tree => exact .inr ⟨tree, read⟩

/-- A field that has to be given has been read. -/
theorem required_eq_some {value : α} {decoder : Decoder α} {room : Nat} {given : Option Raw}
    (read : required decoder room given = some value) : ∃ tree, decoder room tree = some value := by
  cases given with
  | none => simp [required] at read
  | some tree => exact ⟨tree, read⟩

end Json.Decoder

theorem Instant.decoder_proper {room : Nat} {tree : Json.Raw} {t : Instant}
    (read : Instant.decoder room tree = some t) : t.IsProper := by
  obtain ⟨text, -, read⟩ := Option.bind_eq_some_iff.mp read
  exact Instant.read?_proper read

theorem Instant.nullable_decoder_proper {room : Nat} {tree : Json.Raw} {time : Option Instant}
    (read : Json.Decoder.nullable Instant.decoder room tree = some time) :
    ∀ t ∈ time, t.IsProper := by
  unfold Json.Decoder.nullable at read
  split at read
  · obtain rfl := Option.some.inj read
    exact fun t mem => absurd mem (by simp)
  · obtain ⟨found, decoded, rfl⟩ := Option.map_eq_some_iff.mp read
    exact fun t mem => Option.mem_some.mp mem ▸ Instant.decoder_proper decoded

/-- A record that has been read can occur, and its metadata fit what room there was. -/
theorem Task.decoder_proper {room : Nat} {tree : Json.Raw} {task : Task}
    (read : Task.decoder room tree = some task) : task.IsProper ∧ task.depth ≤ room - 2 := by
  unfold Task.decoder at read
  split at read
  · next inside id kind status metadata createdAt startedAt given =>
    obtain rfl := Json.Decoder.fields_room given
    simp only [Option.bind_eq_bind, Option.bind_eq_some_iff] at read
    obtain ⟨_, -, _, -, _, -, members, readMembers, created, readCreated, started, readStarted,
      made⟩ := read
    obtain rfl := Option.some.inj made
    have values : Json.isProperMembers members.entries = true ∧
        Json.depthMembers members.entries ≤ inside - 1 := by
      rcases Json.Decoder.withDefault_eq_some readMembers with rfl | ⟨tree, read⟩
      · exact ⟨rfl, Nat.zero_le _⟩
      · have found := Json.Decoder.metadata_proper read
        exact ⟨found.1, Nat.le_sub_of_add_le found.2⟩
    have start : created.IsProper := by
      obtain ⟨tree, read⟩ := Json.Decoder.required_eq_some readCreated
      exact Instant.decoder_proper read
    have begun : ∀ t ∈ started, t.IsProper := by
      rcases Json.Decoder.withDefault_eq_some readStarted with rfl | ⟨tree, read⟩
      · exact fun t mem => absurd mem (by simp)
      · exact Instant.nullable_decoder_proper read
    exact ⟨⟨values.1, start, begun⟩, values.2⟩
  · simp at read

namespace Collection

/-! ### Payloads -/

/-- The items of the list of records in an envelope of the current version, before they are read. -/
def recordTrees : Json.Decoder (List Json.Raw) := fun room tree =>
  match Json.Decoder.fields ["version", "tasks"] room tree with
  | some (room, [version, some (.array items)]) =>
    if Json.Decoder.required (Json.Decoder.natural 4294967296) room version = some formatVersion
    then some items else none
  | _ => none

/-- The items of the list of records in a text of the current version. -/
def recordTrees? (text : String) : Option (List Json.Raw) := Json.decode? recordTrees text

/-- A record of a stored text; it lies in two containers. -/
def readRecord? (tree : Json.Raw) : Option Task := Task.decoder (Json.nestingLimit - 2) tree

/-- The records of a text of the current version in the order in which they are written, if every
one of them can be read. -/
def payload? (text : String) : Option (List Task) :=
  (recordTrees? text).bind (Json.Decoder.all? readRecord?)

/-- An envelope is read if its fields are there, its version is a number, and its records can be
read. -/
private theorem envelopeDecoder_eq_some {room v : Nat} {tree : Json.Raw} {tasks : List Task} :
    envelopeDecoder (room + 2) tree = some (v, tasks) ↔ ∃ version items,
      Json.Decoder.fields ["version", "tasks"] (room + 2) tree =
          some (room + 1, [version, some (.array items)]) ∧
        Json.Decoder.required (Json.Decoder.natural 4294967296) (room + 1) version = some v ∧
        Json.Decoder.all? (Task.decoder room) items = some tasks := by
  constructor
  · intro read
    unfold envelopeDecoder at read
    split at read
    · next inside version list given =>
      obtain rfl : room + 1 = inside := Nat.succ.inj (Json.Decoder.fields_room given)
      simp only [Option.bind_eq_bind, Option.bind_eq_some_iff] at read
      obtain ⟨v, current, tasks, records, same⟩ := read
      obtain ⟨rfl, rfl⟩ := Prod.mk.inj (Option.some.inj same)
      cases list with
      | none => simp [Json.Decoder.required] at records
      | some tree =>
        cases tree with
        | array items => exact ⟨version, items, given, current, records⟩
        | _ => simp [Json.Decoder.required, Json.Decoder.listOf] at records
    · simp at read
  · rintro ⟨version, items, given, current, records⟩
    have list : Json.Decoder.required (Json.Decoder.listOf Task.decoder) (room + 1)
        (some (.array items)) = some tasks := records
    simp only [envelopeDecoder, given, current, list, Option.bind_eq_bind, Option.bind_some]
    rfl

/-- The list of records is that of an envelope of the current version. -/
private theorem recordTrees_eq_some {room : Nat} {tree : Json.Raw} {items : List Json.Raw} :
    recordTrees (room + 2) tree = some items ↔ ∃ version,
      Json.Decoder.fields ["version", "tasks"] (room + 2) tree =
          some (room + 1, [version, some (.array items)]) ∧
        Json.Decoder.required (Json.Decoder.natural 4294967296) (room + 1) version =
          some formatVersion := by
  constructor
  · intro read
    unfold recordTrees at read
    split at read
    · next inside version _ given =>
      obtain rfl : room + 1 = inside := Nat.succ.inj (Json.Decoder.fields_room given)
      split at read
      · next current => exact ⟨version, Option.some.inj read ▸ given, current⟩
      · simp at read
    · simp at read
  · rintro ⟨version, given, current⟩
    simp only [recordTrees, given, if_pos current]

/-- What a text stands for is all records of its payload, or nothing. -/
theorem decode?_eq_map_ofTasks (text : String) : decode? text = (payload? text).map ofTasks := by
  have envelope : ∀ tasks, Json.decode? envelopeDecoder text = some (formatVersion, tasks) ↔
      payload? text = some tasks := by
    intro tasks
    have limit : Json.nestingLimit = 125 + 2 := rfl
    rw [payload?, recordTrees?, Json.decode?, Json.decode?, limit]
    simp only [Option.bind_eq_some_iff, envelopeDecoder_eq_some, recordTrees_eq_some]
    constructor
    · rintro ⟨tree, syntax_, version, items, given, current, records⟩
      exact ⟨items, ⟨tree, syntax_, version, given, current⟩, records⟩
    · rintro ⟨items, ⟨tree, syntax_, version, given, current⟩, records⟩
      exact ⟨tree, syntax_, version, items, given, current, records⟩
  rw [decode?]
  cases read : payload? text with
  | some tasks => simp [(envelope tasks).mpr read]
  | none =>
    split
    · next version tasks decoded =>
      rw [if_neg]
      · rfl
      · rintro rfl
        simp [(envelope tasks).mp decoded] at read
    · rfl

/-- The records of a payload can occur, and none of their metadata nests too deep to be read
again. -/
theorem proper_of_payload {text : String} {tasks : List Task} (read : payload? text = some tasks) :
    ∀ task ∈ tasks, task.IsProper ∧ task.depth ≤ 123 := by
  obtain ⟨items, -, records⟩ := Option.bind_eq_some_iff.mp read
  have each := Json.Decoder.all?_eq_some_iff.mp records
  intro task mem
  have there : some task ∈ items.map readRecord? := each ▸ List.mem_map.mpr ⟨task, mem, rfl⟩
  obtain ⟨tree, -, decoded⟩ := List.mem_map.mp there
  exact Task.decoder_proper decoded

/-- The records of a collection that was filled from a list are among its items. -/
theorem mem_of_mem_ofTasks {tasks : List Task} {task : Task} (mem : task ∈ (ofTasks tasks).values) :
    task ∈ tasks := by
  obtain ⟨id, found⟩ := (Dictionary.mem_values _).mp mem
  have there := (Dictionary.mem_entries _).mpr found
  rw [ofTasks, Dictionary.entries_ofList] at there
  obtain ⟨other, mem, same⟩ := List.mem_map.mp (Entries.mem_ofList there)
  exact (Prod.mk.inj same).2 ▸ mem

/-- What a storage holds is all records of the payload in its text, or nothing. -/
theorem hydrate_eq_map_ofTasks (storage : Storage) (key : String) :
    hydrate storage key =
      (((storage.text? key).bind payload?).map ofTasks).getD .empty := by
  rw [hydrate]
  cases storage.text? key with
  | none => rfl
  | some text => rw [Option.bind_some, ← decode?_eq_map_ofTasks]

/-- What a storage holds can occur, and none of its metadata nests too deep to be read again. -/
theorem proper_hydrate (storage : Storage) (key : String) :
    ∀ task ∈ (hydrate storage key).values, task.IsProper ∧ task.depth ≤ 123 := by
  rw [hydrate_eq_map_ofTasks]
  cases read : (storage.text? key).bind payload? with
  | none => exact fun task mem => absurd mem (by simp [Dictionary.values, Dictionary.empty])
  | some records =>
    obtain ⟨text, -, payload⟩ := Option.bind_eq_some_iff.mp read
    exact fun task mem => proper_of_payload payload task (mem_of_mem_ofTasks mem)

/-- What was opened is read back from the text to which it is written. -/
theorem decode?_encode_hydrate {storage : Storage} {key : String}
    (exact_ : (hydrate storage key).isExact = true) :
    decode? (hydrate storage key).encode = some (hydrate storage key) := by
  have proper := proper_hydrate storage key
  have shallow : (hydrate storage key).values.all (·.depth ≤ 123) = true :=
    List.all_eq_true.mpr fun task mem => decide_eq_true (proper task mem).2
  rw [decode?_encode (keyed_hydrate storage key) exact_ fun task mem => (proper task mem).1,
    if_pos shallow]

end Collection

namespace Store

variable {α : Type}

/-- A store can be opened on any text. If the whole text is a payload of the current version, the
store has exactly one record for each identifier in it, the last one with this identifier, kept
under its own identifier; otherwise it has none. A store that is opened on the text which it would
write itself is the same store and would write the same text, if there are no binary64 numbers in
the metadata. -/
theorem ofStorage_normal (storage : Storage) (key : String) :
    let opened : Store α := ofStorage storage key
    let payload := (storage.text? key).bind Collection.payload?
    (∀ records, payload = some records → ∀ id, opened.tasks.find? id =
      records.reverse.find? fun record => record.id = id) ∧
    (payload = none → opened.tasks = .empty) ∧
    opened.tasks.Keyed ∧
    (opened.tasks.isExact = true →
      ∀ storage' : Storage, storage'.text? key = some opened.tasks.encode →
        (ofStorage storage' key : Store α) = opened ∧
        (ofStorage storage' key : Store α).tasks.encode = opened.tasks.encode) := by
  intro opened payload
  have tasks : opened.tasks = (payload.map Collection.ofTasks).getD .empty :=
    Collection.hydrate_eq_map_ofTasks storage key
  refine ⟨fun records read id => ?_, fun none_ => ?_, Collection.keyed_hydrate storage key, ?_⟩
  · rw [tasks, read]
    exact Collection.find?_ofTasks records id
  · rw [tasks, none_]
    rfl
  · intro exact_ storage' stored
    have again : Collection.hydrate storage' key = Collection.hydrate storage key := by
      rw [Collection.hydrate, stored]
      simp only [opened, ofStorage, Collection.decode?_encode_hydrate exact_, Option.getD_some]
    have same : (ofStorage storage' key : Store α) = opened := by
      simp only [opened, ofStorage, again]
    exact ⟨same, by rw [same]⟩

/-- A text that no store writes: lists in the place of objects, an identifier and a key given twice,
a kind given as an object, a leap second with an offset, and `startedAt` left out. -/
def reworded : String :=
  "[1,[[\"a\",\"analysis\",\"queued\",\x7b\x7d,\"2020-1-1t0:0:0z\"],[\"a\",\x7b\"analysis\":null\x7d,
    \"failed\",\x7b\"k\":1,\"k\":[]\x7d,\"+10000-1-1 1:0:60+01:00\"]]]"

/-- A storage that holds this text. -/
def holdingReworded : Storage :=
  .memory none (Dictionary.empty.insert defaultStorageKey reworded)

/-- The store on this text has the second one of its records, and so has the store on what it
writes. -/
theorem ofStorage_normal_reworded :
    let opened : Store Unit := ofStorage holdingReworded defaultStorageKey
    opened.tasks.isExact = true ∧ opened.tasks.values.map Task.status = [.failed] ∧
      (ofStorage (holding opened.tasks) defaultStorageKey : Store Unit) = opened := by
  intro opened
  have evaluated : opened.tasks.isExact = true ∧ opened.tasks.values.map Task.status = [.failed] := by
    decide +kernel
  obtain ⟨-, -, -, stable⟩ := ofStorage_normal (α := Unit) holdingReworded defaultStorageKey
  exact ⟨evaluated.1, evaluated.2, (stable evaluated.1 _ (text?_holding _)).1⟩

end Store

end TaskWatch
