import TaskWatch.Proofs.Store.Listed
import TaskWatch.Proofs.Run.Basic

/-!
# The net effect of calls of a store

A store behaves like a plain map from identifiers to records. The map begins with the records found
in the storage, and each call answers and changes it as a single entry, or the terminal entries,
demand. What the storage refuses, who listens, and what else goes on between the calls does not
matter.

## Main definitions

* `Records` — a plain map; `Records.seeded` — the map of some stored records.
* `StoreCall` — the calls that change a store; `StoreCall.effect` — what they do to the map;
  `StoreCall.Answers` — what they answer.
* `Task.IsMerged`, `Draft.IsStamped` — a record after a patch, and the record of a draft.
* `Machine.History` — a machine after calls of one store, and the map after the same calls.
* `Collection.Agrees` — all ways to read a collection show the same map.

## Main results

* `StoreCall.effect_add`, `StoreCall.effect_update` — what is kept of a draft, and what an applied
  patch makes of a record.
* `Machine.History.agrees` — after every history the store agrees with the map, and every further
  call answers as the map demands.
-/

namespace TaskWatch

/-- A plain map from identifiers to records. -/
abbrev Records : Type := TaskId → Option Task

namespace Records

/-- The map of some stored records, in which the last of equal identifiers counts. -/
def seeded (stored : List Task) : Records := fun id => stored.reverse.find? fun task => task.id = id

/-- The map with another entry under an identifier. -/
def put (r : Records) (id : TaskId) (entry : Option Task) : Records :=
  fun other => if other = id then entry else r other

/-- How an update ends: there may be no entry, the status may be outside the lifecycle, or the entry
may be as the patch wants it already. -/
def outcome (r : Records) (id : TaskId) (patch : Patch) : UpdateOutcome :=
  match r id with
  | none => .missing
  | some current =>
    match patch.status.filter fun s => s ≠ current.status ∧ s ∉ current.status.successors with
    | some requested => .rejected ⟨current.status, requested⟩
    | none => if current.patched patch == current then .unchanged else .applied

/-- A list holds exactly the entries that pass a test, each once, by creation time and identifier.
-/
structure Lists (r : Records) (keep : Task → Prop) (tasks : List Task) : Prop where
  /-- The entries that pass the test, and nothing else, are on the list. -/
  mem : ∀ task, task ∈ tasks ↔ r task.id = some task ∧ keep task
  /-- None is on it twice. -/
  nodup : tasks.Nodup
  /-- They stand in order. -/
  ordered : tasks.Pairwise Task.Precedes

end Records

/-! ### Drafts and patches -/

/-- A field after a change: the value that is given for it, or else the old one. -/
structure IsSet {α : Type} (given : Option α) (old new : α) : Prop where
  of_some : ∀ value, given = some value → new = value
  of_none : given = none → new = old

theorem isSet_iff {α : Type} {given : Option α} {old new : α} :
    IsSet given old new ↔ new = given.getD old := by
  cases given with
  | none => exact ⟨fun set => set.of_none rfl, fun same => ⟨nofun, fun _ => same⟩⟩
  | some value =>
    refine ⟨fun set => set.of_some value rfl, fun same => ⟨fun other given_ => ?_, nofun⟩⟩
    rw [same, ← Option.some.inj given_]
    rfl

/-- A record after a patch: it has the identifier and the creation time of the one before, and the
fields of the patch, and nothing else has changed. -/
structure Task.IsMerged (old : Task) (patch : Patch) (new : Task) : Prop where
  id : new.id = old.id
  createdAt : new.createdAt = old.createdAt
  kind : IsSet patch.kind old.kind new.kind
  status : IsSet patch.status old.status new.status
  metadata : IsSet patch.metadata old.metadata new.metadata
  startedAt : IsSet patch.startedAt old.startedAt new.startedAt

/-- This determines the record. -/
theorem Task.isMerged_iff {old new : Task} {patch : Patch} :
    old.IsMerged patch new ↔ new = old.patched patch := by
  constructor
  · intro merged
    cases new
    rw [patched, Task.mk.injEq]
    exact ⟨merged.id, isSet_iff.mp merged.kind, isSet_iff.mp merged.status,
      isSet_iff.mp merged.metadata, merged.createdAt, isSet_iff.mp merged.startedAt⟩
  · rintro rfl
    exact ⟨rfl, rfl, isSet_iff.mpr rfl, isSet_iff.mpr rfl, isSet_iff.mpr rfl, isSet_iff.mpr rfl⟩

/-- The record of a draft has all its fields; the time counts only if the draft has none. -/
structure Draft.IsStamped (draft : Draft) (now : Instant) (task : Task) : Prop where
  id : task.id = draft.id
  kind : task.kind = draft.kind
  status : task.status = draft.status
  metadata : task.metadata = draft.metadata
  createdAt : IsSet draft.createdAt now task.createdAt
  startedAt : task.startedAt = draft.startedAt

theorem Draft.isStamped_iff {draft : Draft} {now : Instant} {task : Task} :
    draft.IsStamped now task ↔ task = draft.stamped now := by
  constructor
  · intro stamped
    cases task
    rw [Draft.stamped, Task.mk.injEq]
    exact ⟨stamped.id, stamped.kind, stamped.status, stamped.metadata,
      isSet_iff.mp stamped.createdAt, stamped.startedAt⟩
  · rintro rfl
    exact ⟨rfl, rfl, rfl, rfl, isSet_iff.mpr rfl, rfl⟩

/-! ### Calls -/

/-- A call that changes a store. -/
inductive StoreCall where
  /-- Keep a record. -/
  | add (draft : Draft)
  /-- Merge a patch into a record. -/
  | update (id : TaskId) (patch : Patch)
  /-- Delete a record. -/
  | remove (id : TaskId)
  /-- Delete all terminal records. -/
  | clearTerminal

namespace StoreCall

/-- The call as one of the consumer's. -/
def toCall {κ : Type} (number : Nat) : StoreCall → Call κ
  | add draft => .add number draft
  | update id patch => .update number id patch
  | remove id => .remove number id
  | clearTerminal => .clearTerminal number

/-- What a call at some time does to the map. -/
def effect (now : Instant) (r : Records) : StoreCall → Records
  | add draft => r.put draft.id (some (draft.stamped now))
  | update id patch =>
    if r.outcome id patch = .applied then r.put id ((r id).map (Task.patched · patch)) else r
  | remove id => r.put id none
  | clearTerminal => fun id => (r id).filter fun task => !task.isTerminal

/-- What a call at some time answers. -/
def Answers (now : Instant) (r : Records) : StoreCall → Reply → Prop
  | add draft, reply => reply = .task (draft.stamped now)
  | update id patch, reply => reply = .outcome (r.outcome id patch)
  | remove id, reply => reply = .removed (r id)
  | clearTerminal, reply => ∃ ids : List TaskId, reply = .cleared ids ∧ ids.Pairwise (· < ·) ∧
      ∀ id, id ∈ ids ↔ ∃ task, r id = some task ∧ task.isTerminal

/-- What is kept is the record of the draft, under its identifier, and nothing else changes. -/
theorem effect_add (now : Instant) (r : Records) (draft : Draft) :
    (∃ task, draft.IsStamped now task ∧ effect now r (.add draft) draft.id = some task) ∧
      ∀ other, other ≠ draft.id → effect now r (.add draft) other = r other :=
  ⟨⟨_, Draft.isStamped_iff.mpr rfl, if_pos rfl⟩, fun _ distinct => if_neg distinct⟩

/-- An update that is applied merges the patch into the entry that is there, and nothing else
changes. -/
theorem effect_update {r : Records} {id : TaskId} {patch : Patch}
    (applied : r.outcome id patch = .applied) (now : Instant) :
    (∃ old new, r id = some old ∧ old.IsMerged patch new ∧
      effect now r (.update id patch) id = some new) ∧
      ∀ other, other ≠ id → effect now r (.update id patch) other = r other := by
  have effect_eq : effect now r (.update id patch) = r.put id ((r id).map (Task.patched · patch)) :=
    if_pos applied
  rw [effect_eq]
  refine ⟨?_, fun other distinct => if_neg distinct⟩
  cases found : r id with
  | none => simp [Records.outcome, found] at applied
  | some old => exact ⟨old, _, rfl, Task.isMerged_iff.mpr rfl, if_pos rfl⟩

end StoreCall

/-! ### Reading -/

namespace Collection

/-- All ways to read a collection show the entries of a map, and each entry is kept under its own
identifier. -/
structure Agrees (tasks : Collection) (r : Records) : Prop where
  /-- Looking up. -/
  find : ∀ id, tasks.find? id = r id
  /-- Identifiers. -/
  keyed : ∀ id task, r id = some task → task.id = id
  /-- Asking whether there is an entry. -/
  contains : ∀ id, tasks.contains id = (r id).isSome
  /-- Counting. -/
  size : ∃ ids : List TaskId, ids.Nodup ∧ (∀ id, id ∈ ids ↔ (r id).isSome) ∧ tasks.size = ids.length
  /-- Listing all entries. -/
  list : r.Lists (fun _ => True) tasks.list
  /-- Listing those that are not terminal. -/
  active : r.Lists (fun task => task.isTerminal = false) tasks.active
  /-- Listing those of one kind. -/
  byKind : ∀ kind, r.Lists (fun task => task.kind = kind) (tasks.byKind kind)
  /-- Listing those whose metadata have a value under a key. -/
  findByMetadata : ∀ key value,
    r.Lists (fun task => ∃ found, task.metadata.find? key = some found ∧ found == value)
      (tasks.findByMetadata key value)

variable {tasks : Collection}

private theorem lists_listed (keyed : tasks.Keyed) {keep : Task → Bool} {passes : Task → Prop}
    (same : ∀ task, keep task = true ↔ passes task) :
    Records.Lists tasks.find? passes (tasks.listed keep) where
  mem task := by rw [mem_listed keyed, same]
  nodup := nodup_listed keyed keep
  ordered := listed_ordered keyed keep

theorem Keyed.agrees_find? (keyed : tasks.Keyed) : tasks.Agrees tasks.find? where
  find _ := rfl
  keyed _ _ found := keyed found
  contains _ := rfl
  size := ⟨tasks.keys, tasks.nodup_keys, fun _ => tasks.mem_keys, (List.length_map _).symm⟩
  list := lists_listed keyed fun _ => by simp
  active := lists_listed keyed fun _ => by simp
  byKind _ := lists_listed keyed fun _ => beq_iff_eq
  findByMetadata key value := lists_listed keyed fun task => by
    cases task.metadata.find? key <;> simp

/-! ### Changes -/

private theorem refusal_eq (current : Task) (patch : Patch) :
    refusal current patch =
      (patch.status.filter fun s => s ≠ current.status ∧ s ∉ current.status.successors).map
        fun requested => ⟨current.status, requested⟩ := by
  cases wanted : patch.status with
  | none => simp [refusal, wanted]
  | some next =>
    simp only [refusal, wanted, Option.filter_some]
    generalize current.status = status
    cases status <;> cases next <;> rfl

private theorem answer_update (tasks : Collection) (id : TaskId) (patch : Patch) :
    (tasks.update id patch).answer = Records.outcome tasks.find? id patch := by
  cases found : tasks.find? id with
  | none => simp only [update, Records.outcome, found]
  | some current =>
    simp only [update, Records.outcome, found, refusal_eq]
    cases patch.status.filter fun s => s ≠ current.status ∧ s ∉ current.status.successors with
    | some requested => rfl
    | none =>
      cases current.patched patch == current <;> rfl

private theorem answer_remove (tasks : Collection) (id : TaskId) :
    (tasks.remove id).answer = tasks.find? id := by
  rw [remove]
  split
  · next absent => exact absent.symm
  · next found => exact found.symm

private theorem answer_clearTerminal (tasks : Collection) :
    tasks.clearTerminal.answer = tasks.terminalIds := by
  rw [clearTerminal]
  split
  · next nobody => exact nobody.symm
  · rfl

end Collection

namespace StoreCall

/-- The collection after a call at some time. -/
def collection (now : Instant) (tasks : Collection) : StoreCall → Collection
  | add draft => (tasks.add (draft.stamped now)).tasks
  | update id patch => (tasks.update id patch).tasks
  | remove id => (tasks.remove id).tasks
  | clearTerminal => tasks.clearTerminal.tasks

variable {tasks : Collection}

theorem keyed_collection (keyed : tasks.Keyed) (now : Instant) (call : StoreCall) :
    (call.collection now tasks).Keyed := by
  cases call with
  | add draft => exact keyed.add _
  | update id patch => exact keyed.update id patch
  | remove id => exact keyed.remove id
  | clearTerminal => exact keyed.clearTerminal

theorem find?_collection (keyed : tasks.Keyed) (now : Instant) (call : StoreCall) :
    (call.collection now tasks).find? = call.effect now tasks.find? := by
  funext other
  cases call with
  | add draft => exact Collection.find?_add tasks (draft.stamped now) other
  | update id patch =>
    rw [collection, Collection.find?_update keyed, Collection.answer_update, effect]
    by_cases applied : Records.outcome tasks.find? id patch = .applied <;>
      simp [applied, Records.put]
  | remove id => exact Collection.find?_remove tasks id other
  | clearTerminal => exact Collection.find?_clearTerminal tasks other

end StoreCall

/-! ### Calls on a machine -/

namespace World

variable {κ : Type}

theorem tasks_tracker_mutate {α : Type} {w : World κ} {number : Nat}
    (inside : number < w.trackers.length) (m : Mutation α) :
    ((w.mutate number m).tracker number).store.tasks = m.tasks := by
  rw [tracker_mutate, if_pos ⟨rfl, inside⟩]
  exact Store.tasks_apply _ _ m

theorem length_trackers_mutate {α : Type} (w : World κ) (number : Nat) (m : Mutation α) :
    (w.mutate number m).trackers.length = w.trackers.length :=
  List.length_modify _ _ _

theorem stampDraft_task (w : World κ) (draft : Draft) :
    (w.stampDraft draft).1 = draft.stamped w.stamp.1 := by
  rw [stampDraft]
  split
  · next known => simp only [Draft.stamped, known, Option.getD_some]
  · rfl

theorem stampDraft_trackers (w : World κ) (draft : Draft) :
    (w.stampDraft draft).2.trackers = w.trackers := by
  rw [stampDraft]
  split <;> rfl

end World

namespace Machine

variable {σ κ : Type} {number : Nat}

/-- The time that a record without one is stamped with. -/
def now (m : Machine σ κ) : Instant := m.world.stamp.1

/-- What a call that has just begun will reply: at once, or after the listeners have been told. -/
def replyDue (m : Machine σ κ) : Option Reply :=
  match m.control, m.stack with
  | .returned r, _ => some r
  | .telling _ _, .answering r :: _ => some r
  | _, _ => none

theorem world_mutate {α : Type} (m : Machine σ κ) (number : Nat) (mutation : Mutation α)
    (r : Reply) : (m.mutate number mutation r).world = m.world.mutate number mutation := by
  rw [mutate]
  cases mutation.event <;> rfl

theorem replyDue_mutate {α : Type} (m : Machine σ κ) (number : Nat) (mutation : Mutation α)
    (r : Reply) : (m.mutate number mutation r).replyDue = some r := by
  rw [mutate]
  cases mutation.event <;> rfl

/-- A machine after calls of the store with a number, and the map after the same calls. Between the
calls anything may happen that leaves the collection alone. -/
inductive History (number : Nat) : Machine σ κ → Records → Prop
  /-- The store has just been opened on what a storage holds. -/
  | opened {m : Machine σ κ} {key : String} {cadence : Cadence} (valid : cadence.check = .ok ())
      (next : number = m.world.trackers.length) :
      History number (m.perform (.openTracker key cadence))
        (.seeded (Collection.storedTasks m.world.storage key))
  /-- One more call. -/
  | called {m : Machine σ κ} {r : Records} (before : History number m r) (call : StoreCall) :
      History number (m.perform (call.toCall number)) (call.effect m.now r)
  /-- Something else has happened. -/
  | passed {m m' : Machine σ κ} {r : Records} (before : History number m r)
      (inside : number < m'.world.trackers.length)
      (kept : (m'.tracker number).store.tasks = (m.tracker number).store.tasks) :
      History number m' r

/-- What a call comes to: a change of the collection of the store, and a reply. -/
theorem perform_toCall (m : Machine σ κ) (number : Nat) (call : StoreCall) :
    ∃ (α : Type) (w : World κ) (mutation : Mutation α) (reply : Reply),
      m.perform (call.toCall number) = (m.withWorld w).mutate number mutation reply ∧
      w.trackers = m.world.trackers ∧
      mutation.tasks = call.collection m.now (m.tracker number).store.tasks ∧
      call.Answers m.now (m.tracker number).store.tasks.find? reply := by
  cases call with
  | add draft =>
    have same := m.world.stampDraft_trackers draft
    have task := m.world.stampDraft_task draft
    refine ⟨_, (m.world.stampDraft draft).2,
      ((m.world.stampDraft draft).2.tracker number).store.tasks.add (m.world.stampDraft draft).1,
      .task (m.world.stampDraft draft).1, rfl, same, ?_, congrArg Reply.task task⟩
    rw [World.tracker, same, task]
    rfl
  | update id patch =>
    exact ⟨_, m.world, _, _, rfl, rfl, rfl, congrArg Reply.outcome (Collection.answer_update _ _ _)⟩
  | remove id =>
    exact ⟨_, m.world, _, _, rfl, rfl, rfl, congrArg Reply.removed (Collection.answer_remove _ _)⟩
  | clearTerminal =>
    refine ⟨_, m.world, _, _, rfl, rfl, rfl, _, congrArg Reply.cleared
      (Collection.answer_clearTerminal _), ?_, fun _ => Collection.mem_terminalIds⟩
    exact Dictionary.keys_ascending _

/-- What every history keeps: the store is there, and holds the entries of the map under their own
identifiers. -/
theorem History.find?_tasks {m : Machine σ κ} {r : Records} (history : History number m r) :
    number < m.world.trackers.length ∧ (m.tracker number).store.tasks.Keyed ∧
      (m.tracker number).store.tasks.find? = r := by
  induction history with
  | @opened m key cadence valid next =>
    subst next
    have opened : m.perform (.openTracker key cadence) =
        (m.withWorld { m.world with
          trackers := m.world.trackers ++ [.ofStorage m.world.storage key cadence] }).reply
            (.number m.world.trackers.length) := by
      simp only [perform, valid]
    have found : (m.perform (.openTracker key cadence)).tracker m.world.trackers.length =
        .ofStorage m.world.storage key cadence := by
      simp [opened, tracker, World.tracker, reply, withWorld]
    refine ⟨by simp [opened, reply, withWorld], ?_, ?_⟩
    · rw [found]
      exact Collection.keyed_hydrate _ _
    · rw [found]
      exact funext fun id => Collection.find?_hydrate _ _ id
  | @called m r before call ih =>
    obtain ⟨inside, keyed, same⟩ := ih
    obtain ⟨_, w, mutation, reply, began, trackers, tasks, _⟩ := m.perform_toCall number call
    have inside' : number < w.trackers.length := trackers ▸ inside
    have after : ((m.perform (call.toCall number)).tracker number).store.tasks =
        call.collection m.now (m.tracker number).store.tasks := by
      rw [began, tracker, world_mutate, withWorld, World.tasks_tracker_mutate inside', tasks]
    refine ⟨?_, ?_, ?_⟩
    · rw [began, world_mutate, withWorld, World.length_trackers_mutate]
      exact inside'
    · rw [after]
      exact StoreCall.keyed_collection keyed _ call
    · rw [after, StoreCall.find?_collection keyed, same]
  | passed _ inside kept ih => exact ⟨inside, kept ▸ ih.2.1, kept ▸ ih.2.2⟩

/-- After every history of calls, whatever else happens between them, a store agrees with the plain
map on which the same calls have been carried out, and every further call answers what the map
demands. -/
theorem History.agrees {m : Machine σ κ} {r : Records} (history : History number m r) :
    (m.tracker number).store.tasks.Agrees r ∧
      ∀ call : StoreCall, ∃ reply,
        (m.perform (call.toCall number)).replyDue = some reply ∧ call.Answers m.now r reply := by
  obtain ⟨_, keyed, same⟩ := history.find?_tasks
  refine ⟨same ▸ keyed.agrees_find?, fun call => ?_⟩
  obtain ⟨_, w, mutation, reply, began, _, _, answers⟩ := m.perform_toCall number call
  exact ⟨reply, by rw [began, replyDue_mutate], same ▸ answers⟩

/-- A terminal record is kept and then cleared again. -/
theorem History.agrees_cleared :
    let opened : Machine Unit Unit :=
      (idle () (.blank .inMemory 0 true)).perform (.openTracker "tasks" .default)
    let kept := opened.perform (.add 0 { id := "job", kind := .analysis, status := .completed })
    let cleared := kept.perform (.clearTerminal 0)
    ∃ r, History 0 cleared r ∧ r "job" = none ∧ (cleared.tracker 0).store.tasks.Agrees r ∧
      ∀ call : StoreCall, ∃ reply,
        (cleared.perform (call.toCall 0)).replyDue = some reply ∧ call.Answers cleared.now r reply := by
  have history := (((History.opened rfl rfl :
    History 0 ((idle () (.blank .inMemory 0 true) : Machine Unit Unit).perform
      (.openTracker "tasks" .default)) _).called
        (.add { id := "job", kind := .analysis, status := .completed })).called .clearTerminal)
  exact ⟨_, history, rfl, history.agrees⟩

end Machine

end TaskWatch
