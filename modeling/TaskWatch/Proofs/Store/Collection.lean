import TaskWatch.Store.Basic
import TaskWatch.Proofs.Json.Exact

/-!
# Records after a change

What a look-up sees after each of the four changes of a collection, and in a collection that has
just been read from a storage. The statements about changes need the records to be kept under their
own identifiers, which every change preserves.

## Main definitions

* `Collection.Keyed` — every record is kept under its own identifier.
* `Collection.isExact` — no record has binary64 numbers in its metadata.
* `Collection.storedTasks` — the records that a storage holds under a key.

## Main results

* `Collection.find?_add`, `Collection.find?_update`, `Collection.find?_remove`,
  `Collection.find?_clearTerminal` — look-ups after a change.
* `Collection.find?_hydrate` — look-ups in what a storage holds.
* `Collection.Keyed.add`, `Collection.Keyed.update`, `Collection.Keyed.remove`,
  `Collection.Keyed.clearTerminal`, `Collection.keyed_hydrate` — records stay under their
  identifiers.
-/

namespace TaskWatch

/-- Records are compared field by field. -/
theorem Task.beq_fields (a b : Task) : (a == b) = (a.id == b.id && a.kind == b.kind &&
    a.status == b.status && a.metadata == b.metadata && a.createdAt == b.createdAt &&
    a.startedAt == b.startedAt) := rfl

theorem Task.status_eq_of_beq {a b : Task} (same : (a == b) = true) : a.status = b.status := by
  rw [beq_fields] at same
  simp only [Bool.and_eq_true] at same
  exact eq_of_beq same.1.1.1.2

/-- Whether there is no binary64 number in the metadata of a record. -/
def Task.isExact (t : Task) : Bool := Json.isExactMembers t.metadata.entries

/-- Equal records without binary64 numbers are the same. -/
theorem Task.eq_of_beq {a b : Task} (exact_ : a.isExact = true) (same : (a == b) = true) : a = b := by
  rw [beq_fields] at same
  simp only [Bool.and_eq_true] at same
  obtain ⟨⟨⟨⟨⟨id, kind⟩, status⟩, metadata⟩, createdAt⟩, startedAt⟩ := same
  obtain ⟨_, _, _, ⟨entries, _⟩, _, _⟩ := a
  obtain ⟨_, _, _, ⟨entries', _⟩, _, _⟩ := b
  obtain rfl : entries = entries' := Json.eq_of_beqMembers exact_ metadata
  simp_all

namespace Collection

variable {tasks : Collection}

/-- Every record is kept under its own identifier. -/
def Keyed (tasks : Collection) : Prop :=
  ∀ ⦃id task⦄, tasks.find? id = some task → task.id = id

/-- Whether no record has binary64 numbers in its metadata. -/
def isExact (tasks : Collection) : Bool := tasks.values.all Task.isExact

theorem isExact_of_find? {task : Task} {id : TaskId} (exact_ : tasks.isExact = true)
    (found : tasks.find? id = some task) : task.isExact = true :=
  List.all_eq_true.mp exact_ task (tasks.mem_values.mpr ⟨id, found⟩)

/-- A record may be given exactly the statuses that it may become. -/
theorem refusal_ofStatus (current : Task) (status : Status) :
    refusal current (.ofStatus status) = none ↔ current.status.mayBecome status = true := by
  simp only [refusal, Patch.ofStatus, Status.check]
  by_cases allowed : current.status.mayBecome status = true
  · simp [allowed]
  · simp [allowed]

/-! ### Look-ups -/

theorem find?_add (tasks : Collection) (task : Task) (id : TaskId) :
    (tasks.add task).tasks.find? id = if id = task.id then some task else tasks.find? id :=
  Dictionary.find?_insert tasks task.id id task

/-- The ways in which an update can end. -/
theorem update_cases (tasks : Collection) (id : TaskId) (patch : Patch) :
    (tasks.find? id = none ∧ tasks.update id patch = ⟨.missing, tasks, none⟩) ∨
    ∃ current, tasks.find? id = some current ∧
      ((∃ error, refusal current patch = some error ∧
          tasks.update id patch = ⟨.rejected error, tasks, none⟩) ∨
        refusal current patch = none ∧ (current.patched patch == current) = true ∧
          tasks.update id patch = ⟨.unchanged, tasks, none⟩ ∨
        refusal current patch = none ∧ (current.patched patch == current) = false ∧
          tasks.update id patch = ⟨.applied, tasks.insert current.id (current.patched patch),
            some (.updated current.id)⟩) := by
  cases found : tasks.find? id with
  | none => exact .inl ⟨rfl, by simp only [update, found]⟩
  | some current =>
    refine .inr ⟨current, rfl, ?_⟩
    cases refused : refusal current patch with
    | some error => exact .inl ⟨error, rfl, by simp only [update, found, refused]⟩
    | none =>
      cases same : current.patched patch == current with
      | true => exact .inr (.inl ⟨rfl, rfl, by simp [update, found, refused, same]⟩)
      | false =>
        refine .inr (.inr ⟨rfl, rfl, ?_⟩)
        simp only [update, found, refused, same]
        rfl

theorem find?_update (keyed : tasks.Keyed) (id other : TaskId) (patch : Patch) :
    (tasks.update id patch).tasks.find? other =
      if other = id ∧ (tasks.update id patch).answer = .applied then
        (tasks.find? id).map (Task.patched · patch)
      else tasks.find? other := by
  obtain ⟨_, ended⟩ | ⟨current, found, ⟨_, _, ended⟩ | ⟨_, _, ended⟩ | ⟨_, _, ended⟩⟩ :=
    tasks.update_cases id patch
  · simp [ended]
  · simp [ended]
  · simp [ended]
  · rw [ended, Dictionary.find?_insert, keyed found, found]
    simp

theorem find?_remove (tasks : Collection) (id other : TaskId) :
    (tasks.remove id).tasks.find? other = if other = id then none else tasks.find? other := by
  rw [remove]
  split
  · next absent =>
    by_cases same : other = id
    · simp [same, absent]
    · simp [same]
  · exact Dictionary.find?_erase tasks id other

theorem mem_terminalIds {id : TaskId} :
    id ∈ tasks.terminalIds ↔ ∃ task, tasks.find? id = some task ∧ task.isTerminal := by
  simp only [terminalIds, Dictionary.mem_keys, Dictionary.find?_filter, Option.isSome_iff_exists,
    Option.filter_eq_some_iff]

theorem find?_clearTerminal (tasks : Collection) (id : TaskId) :
    tasks.clearTerminal.tasks.find? id = (tasks.find? id).filter fun task => !task.isTerminal := by
  rw [clearTerminal]
  split
  · next nobody =>
    -- Without a terminal record the test keeps everything.
    cases found : tasks.find? id with
    | none => rfl
    | some task =>
      cases terminal : task.isTerminal with
      | false => simp [Option.filter, terminal]
      | true =>
        have mem := mem_terminalIds.mpr ⟨task, found, terminal⟩
        simp [nobody] at mem
  · exact Dictionary.find?_filter tasks _ id

/-! ### Identifiers -/

theorem keyed_empty : Keyed .empty := fun _ _ found => by simp at found

theorem Keyed.insert (keyed : tasks.Keyed) (task : Task) :
    Keyed (Dictionary.insert tasks task.id task) := by
  intro id found h
  rw [Dictionary.find?_insert] at h
  split at h
  · next same => rw [same, ← Option.some.inj h]
  · exact keyed h

theorem Keyed.add (keyed : tasks.Keyed) (task : Task) : (tasks.add task).tasks.Keyed :=
  keyed.insert task

theorem Keyed.update (keyed : tasks.Keyed) (id : TaskId) (patch : Patch) :
    (tasks.update id patch).tasks.Keyed := by
  intro other task h
  rw [find?_update keyed] at h
  split at h
  · next changed =>
    obtain ⟨current, found, rfl⟩ := Option.map_eq_some_iff.mp h
    rw [changed.1]
    show current.id = id
    exact keyed found
  · exact keyed h

theorem Keyed.remove (keyed : tasks.Keyed) (id : TaskId) : (tasks.remove id).tasks.Keyed := by
  intro other task h
  rw [find?_remove] at h
  split at h
  · simp at h
  · exact keyed h

theorem Keyed.clearTerminal (keyed : tasks.Keyed) : tasks.clearTerminal.tasks.Keyed := by
  intro id task h
  rw [find?_clearTerminal, Option.filter_eq_some_iff] at h
  exact keyed h.1

/-! ### What a storage holds -/

/-- The records that a storage holds under a key; none if there is nothing that can be read. -/
def storedTasks (storage : Storage) (key : String) : List Task :=
  match (storage.text? key).bind (Json.decode? envelopeDecoder) with
  | some (version, tasks) => if version = formatVersion then tasks else []
  | none => []

private theorem hydrate_eq_ofTasks (storage : Storage) (key : String) :
    hydrate storage key = ofTasks (storedTasks storage key) := by
  cases stored : storage.text? key with
  | none => simp [hydrate, storedTasks, stored, ofTasks, Dictionary.ofList]
  | some text =>
    cases decoded : Json.decode? envelopeDecoder text with
    | none => simp [hydrate, storedTasks, stored, decode?, decoded, ofTasks, Dictionary.ofList]
    | some envelope =>
      obtain ⟨version, tasks⟩ := envelope
      by_cases current : version = formatVersion
      · simp [hydrate, storedTasks, stored, decode?, decoded, current]
      · simp [hydrate, storedTasks, stored, decode?, decoded, current, ofTasks, Dictionary.ofList]

/-- Of several records with one identifier the last one counts. -/
theorem find?_ofTasks (tasks : List Task) (id : TaskId) :
    (ofTasks tasks).find? id = tasks.reverse.find? fun task => task.id = id := by
  rw [ofTasks, Dictionary.find?_ofList, ← List.map_reverse, List.find?_map, Option.map_map]
  simp [Function.comp_def]

theorem find?_hydrate (storage : Storage) (key : String) (id : TaskId) :
    (hydrate storage key).find? id =
      (storedTasks storage key).reverse.find? fun task => task.id = id := by
  rw [hydrate_eq_ofTasks, find?_ofTasks]

theorem keyed_hydrate (storage : Storage) (key : String) : (hydrate storage key).Keyed := by
  intro id task found
  rw [find?_hydrate] at found
  simpa using List.find?_some found

end Collection

end TaskWatch
