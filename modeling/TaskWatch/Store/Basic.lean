import TaskWatch.Store.Envelope
import TaskWatch.Listener.Registry
import TaskWatch.Text.Quoted

/-!
# Task stores

A store keeps a collection, counts its changes, writes the whole collection to a storage after
each change, and knows who wants to hear of them. A write that fails is passed over: the
collection in memory is what counts, and the next write that succeeds catches up. Versions have no
bound: it is assumed that a collection is not changed as often as a number of 64 bits can count.

Telling the listeners is not done here, because they are code of the consumer.

## Main definitions

* `Store` — the store.
* `Store.ofStorage` — a store filled from what a storage holds.
* `Store.commit` — count and store a change.
* `Store.apply` — carry out a change of the collection.
-/

namespace TaskWatch

/-- A store whose listeners are of type `α`. -/
structure Store (α : Type) where
  /-- The key under which the collection is stored. -/
  key : String
  /-- The records. -/
  tasks : Collection
  /-- How many changes there have been since the store was opened. -/
  version : Nat := 0
  /-- The version of the collection that was stored last. -/
  persisted : Nat := 0
  /-- Who is told of changes. -/
  listeners : Registry α := {}

namespace Store

variable {α : Type}

instance : Inhabited (Store α) := ⟨{ key := defaultStorageKey, tasks := .empty }⟩

/-- Open a store on what a storage holds under a key. -/
def ofStorage (storage : Storage) (key : String) : Store α :=
  { key, tasks := .hydrate storage key }

/-- Write the collection to the storage unless this version, or a later one, is stored already. -/
def persist (s : Store α) (storage : Storage) : Store α × Storage :=
  if s.version ≤ s.persisted then (s, storage)
  else
    match storage.write s.key s.tasks.encode with
    | (storage, .ok ()) => ({ s with persisted := s.version }, storage)
    | (storage, .error _) => (s, storage)

/-- Count a change of the collection and store it. -/
def commit (s : Store α) (storage : Storage) : Store α × Storage :=
  { s with version := s.version + 1 }.persist storage

/-- Carry out a change; it is counted and stored if there is something to report. -/
def apply {β : Type} (s : Store α) (storage : Storage) (m : Mutation β) : Store α × Storage :=
  let changed := { s with tasks := m.tasks }
  match m.event with
  | none => (changed, storage)
  | some _ => changed.commit storage

/-- Storing a collection, with success or not, does not change it. -/
theorem tasks_persist (s : Store α) (storage : Storage) : (s.persist storage).1.tasks = s.tasks := by
  rw [persist]
  split
  · rfl
  · split <;> rfl

theorem tasks_apply {β : Type} (s : Store α) (storage : Storage) (m : Mutation β) :
    (s.apply storage m).1.tasks = m.tasks := by
  rw [apply]
  split
  · rfl
  · exact tasks_persist _ _

theorem listeners_persist (s : Store α) (storage : Storage) :
    (s.persist storage).1.listeners = s.listeners := by
  rw [persist]
  split
  · rfl
  · split <;> rfl

/-- A change leaves the listeners alone. -/
theorem listeners_apply {β : Type} (s : Store α) (storage : Storage) (m : Mutation β) :
    (s.apply storage m).1.listeners = s.listeners := by
  rw [apply]
  split
  · rfl
  · exact listeners_persist _ _

/-- The description of a store. -/
def description (s : Store α) : String :=
  "TaskStore \x7b storage_key: " ++ Text.quote s.key ++
    ", tasks: " ++ toString s.tasks.size ++
    ", version: " ++ toString s.version ++
    ", listeners: " ++ toString s.listeners.size ++ ", .. \x7d"

end Store

end TaskWatch
