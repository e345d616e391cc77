import TaskWatch.Proofs.Json.Canonical
import TaskWatch.Proofs.Store.Snapshot

/-!
# What a change reports is what it does

A change of a collection comes with the event that is to be reported. Records are compared as the
store compares them, so keeping an equal record again changes nothing, although it may put another
record in the place of the old one. In this sense the event affects exactly those tasks whose
records the change inserts, alters or deletes, and there is an event exactly if there is such a
task.

Records are equal exactly if their representatives are the same, and whatever does not look at the
sign of a zero treats representatives alike. So a collection in which equal records have taken the
places of others has an equal list of records.

## Main definitions

* `Task.canonical`, `Collection.canonical` — representatives of equal records and collections.
* `Collection.alters` — whether a record was inserted, altered or deleted between two collections.
* `Collection.differs` — whether any record was.
* `Collection.Change` — the four changes.
* `Mutation.IsTruthful` — the event says what the change does.

## Main results

* `Task.beq_iff` — records are equal exactly if their representatives are the same.
* `Collection.list_beq_of_alters` — nothing is altered, so the list of records is equal.
* `Collection.Change.isTruthful` — the event of every change says what it does.
-/

namespace TaskWatch

variable {α β : Type}

/-! ### Dictionaries -/

namespace Dictionary

/-- Entries are what look-ups find, so they make up the dictionary. -/
theorem ext_find? {d d' : Dictionary α} (same : ∀ key, d.find? key = d'.find? key) : d = d' := by
  have mem : ∀ entry, entry ∈ d.entries ↔ entry ∈ d'.entries := fun entry => by
    obtain ⟨key, value⟩ := entry
    rw [mem_entries, mem_entries, same]
  have distinct : ∀ d : Dictionary α, d.entries.Nodup := fun d =>
    List.Pairwise.of_map Prod.fst (fun _ _ differ same => differ (congrArg Prod.fst same))
      d.nodup_keys
  have perm : d.entries.Perm d'.entries :=
    (List.perm_ext_iff_of_nodup (distinct d) (distinct d')).mpr mem
  have entries : d.entries = d'.entries :=
    perm.eq_of_pairwise (fun a b _ _ below above => absurd below (String.lt_asymm above))
      d.ascending d'.ascending
  cases d
  cases d'
  congr

/-- Change every value. -/
def map (f : α → β) (d : Dictionary α) : Dictionary β where
  entries := d.entries.map fun entry => (entry.1, f entry.2)
  ascending := by
    rw [Entries.Ascending, List.pairwise_map]
    exact d.ascending

theorem find?_map (f : α → β) (d : Dictionary α) (key : String) :
    (d.map f).find? key = (d.find? key).map f := by
  obtain ⟨entries, ascending⟩ := d
  have found : Entries.find? key (entries.map fun entry => (entry.1, f entry.2)) =
      (Entries.find? key entries).map f := by
    clear ascending
    induction entries with
    | nil => rfl
    | cons entry rest ih =>
      rw [List.map_cons, Entries.find?, Entries.find?, ih, apply_ite (Option.map f)]
      rfl
  exact found

end Dictionary

/-! ### Representatives -/

/-- The record with every zero in its metadata written without a minus sign. -/
def Task.canonical (t : Task) : Task := { t with metadata := t.metadata.map Json.canonical }

private theorem entries_map_canonical (metadata : Metadata) :
    (metadata.map Json.canonical).entries = Json.canonicalMembers metadata.entries := by
  have members : ∀ entries : List (String × Json),
      (entries.map fun entry => (entry.1, entry.2.canonical)) = Json.canonicalMembers entries := by
    intro entries
    induction entries with
    | nil => rfl
    | cons entry rest ih => rw [List.map_cons, Json.canonicalMembers, ih]
  exact members metadata.entries

/-- Metadata are equal exactly if their representatives are the same. -/
theorem beq_metadata_iff {a b : Metadata} :
    (a == b) = true ↔ a.map Json.canonical = b.map Json.canonical := by
  have members : (a == b) = true ↔
      Json.canonicalMembers a.entries = Json.canonicalMembers b.entries := Json.beqMembers_iff
  rw [members, ← entries_map_canonical, ← entries_map_canonical]
  refine ⟨fun same => ?_, congrArg Dictionary.entries⟩
  cases first : a.map Json.canonical
  cases second : b.map Json.canonical
  rw [first, second] at same
  congr

/-- Records are equal exactly if their representatives are the same. -/
theorem Task.beq_iff {a b : Task} : (a == b) = true ↔ a.canonical = b.canonical := by
  rw [beq_fields, canonical, canonical, Task.mk.injEq]
  simp only [Bool.and_eq_true, beq_iff_eq, beq_metadata_iff, and_assoc]

/-- Representatives stand in the same order. -/
theorem Task.listedBefore_canonical (a b : Task) :
    a.canonical.listedBefore b.canonical = a.listedBefore b := rfl

/-- There may be no record. -/
theorem beq_record_iff {a b : Option Task} :
    (a == b) = true ↔ a.map Task.canonical = b.map Task.canonical := by
  cases a <;> cases b <;> simp [Task.beq_iff]

theorem beq_records_iff {as bs : List Task} :
    (as == bs) = true ↔ as.map Task.canonical = bs.map Task.canonical := by
  induction as generalizing bs with
  | nil => cases bs <;> simp
  | cons a as ih =>
    cases bs with
    | nil => simp
    | cons b bs => rw [List.cons_beq_cons, Bool.and_eq_true, Task.beq_iff, ih]; simp

namespace Collection

variable {tasks tasks' : Collection}

/-- The collection of the representatives. -/
def canonical (tasks : Collection) : Collection := Dictionary.map Task.canonical tasks

/-- Whether the record of a task was inserted, altered or deleted between two collections. -/
def alters (tasks tasks' : Collection) (id : TaskId) : Bool := tasks.find? id != tasks'.find? id

theorem alters_eq_false_iff {id : TaskId} : tasks.alters tasks' id = false ↔
    tasks.canonical.find? id = tasks'.canonical.find? id := by
  have opened : tasks.alters tasks' id = !(tasks.find? id == tasks'.find? id) := rfl
  rw [opened, canonical, canonical, Dictionary.find?_map, Dictionary.find?_map, ← beq_record_iff,
    Bool.not_eq_false']

/-- Nothing is altered exactly if the representatives are the same. -/
theorem forall_alters_iff :
    (∀ id, tasks.alters tasks' id = false) ↔ tasks.canonical = tasks'.canonical := by
  simp only [alters_eq_false_iff]
  exact ⟨Dictionary.ext_find?, fun same id => by rw [same]⟩

theorem alters_self (tasks : Collection) (id : TaskId) : tasks.alters tasks id = false :=
  alters_eq_false_iff.mpr rfl

/-- Whether any record was inserted, altered or deleted between two collections. -/
def differs (tasks tasks' : Collection) : Bool :=
  (tasks.keys ++ tasks'.keys).any fun id => tasks.alters tasks' id

theorem differs_iff : tasks.differs tasks' = true ↔ ∃ id, tasks.alters tasks' id = true := by
  refine ⟨fun differ => ?_, fun ⟨id, altered⟩ => ?_⟩
  · obtain ⟨id, _, altered⟩ := List.any_eq_true.mp differ
    exact ⟨id, altered⟩
  · refine List.any_eq_true.mpr ⟨id, List.mem_append.mpr ?_, altered⟩
    -- What neither collection has a record of is not altered.
    by_contra neither
    rw [Dictionary.mem_keys, Dictionary.mem_keys, not_or, Option.not_isSome_iff_eq_none,
      Option.not_isSome_iff_eq_none] at neither
    rw [alters, neither.1, neither.2] at altered
    exact Bool.false_ne_true altered

theorem differs_eq_false_iff :
    tasks.differs tasks' = false ↔ ∀ id, tasks.alters tasks' id = false := by
  rw [Bool.eq_false_iff, Ne, differs_iff, not_exists]
  simp only [Bool.not_eq_true]

theorem differs_self (tasks : Collection) : tasks.differs tasks = false :=
  differs_eq_false_iff.mpr tasks.alters_self

private theorem map_place (task : Task) (given : List Task) :
    (place task given).map Task.canonical = place task.canonical (given.map Task.canonical) := by
  induction given with
  | nil => rfl
  | cons other rest ih =>
    rw [place, List.map_cons, place, Task.listedBefore_canonical,
      apply_ite (List.map Task.canonical), List.map_cons, ih]
    rfl

/-- The list of the representatives. -/
theorem list_canonical (tasks : Collection) :
    tasks.canonical.list = tasks.list.map Task.canonical := by
  have placed : ∀ given : List Task, (given.map Task.canonical).foldr place [] =
      (given.foldr place []).map Task.canonical := by
    intro given
    induction given with
    | nil => rfl
    | cons task rest ih => rw [List.map_cons, List.foldr_cons, List.foldr_cons, ih, map_place]
  have values : tasks.canonical.values = tasks.values.map Task.canonical := by
    simp [canonical, Dictionary.values, Dictionary.map]
  have all : ∀ given : List Task, (given.filter fun _ => true) = given := fun given =>
    List.filter_eq_self.mpr fun _ _ => rfl
  rw [list, list, listed, listed, all, all, values, placed]

/-- When nothing is altered, the list of records is equal. -/
theorem list_beq_of_alters (same : ∀ id, tasks.alters tasks' id = false) :
    (tasks.list == tasks'.list) = true := by
  rw [beq_records_iff, ← list_canonical, ← list_canonical, forall_alters_iff.mp same]

/-! ### Changes -/

/-- The changes of a collection. -/
inductive Change (tasks : Collection) : {α : Type} → Mutation α → Prop
  /-- A record is kept. -/
  | add (task : Task) : Change tasks (tasks.add task)
  /-- A patch is merged into a record. -/
  | update (id : TaskId) (patch : Patch) : Change tasks (tasks.update id patch)
  /-- A record is deleted. -/
  | remove (id : TaskId) : Change tasks (tasks.remove id)
  /-- All terminal records are deleted. -/
  | clearTerminal : Change tasks tasks.clearTerminal

end Collection

/-- The event of a change affects exactly the tasks whose records it inserts, alters or deletes, and
there is one exactly if there are such tasks. -/
structure Mutation.IsTruthful (m : Mutation α) (tasks : Collection) : Prop where
  affects : ∀ id, tasks.alters m.tasks id = m.event.any (·.affects id)
  /-- No event is about nothing. -/
  alters : ∀ event, m.event = some event → ∃ id, event.affects id = true

namespace Collection

variable {tasks : Collection}

private theorem alters_of_find? {tasks' : Collection} {id : TaskId} {before after : Option Task}
    (first : tasks.find? id = before) (second : tasks'.find? id = after) :
    tasks.alters tasks' id = !(before == after) := by
  rw [alters, first, second, bne]

private theorem alters_of_eq {tasks' : Collection} {id : TaskId}
    (same : tasks'.find? id = tasks.find? id) : tasks.alters tasks' id = false := by
  rw [alters_eq_false_iff, canonical, canonical, Dictionary.find?_map, Dictionary.find?_map, same]

theorem isTruthful_add (tasks : Collection) (task : Task) : (tasks.add task).IsTruthful tasks := by
  have here : (tasks.add task).tasks.find? task.id = some task := by rw [find?_add, if_pos rfl]
  have other : ∀ id ≠ task.id, tasks.alters (tasks.add task).tasks id = false := fun id differs =>
    alters_of_eq (by rw [find?_add, if_neg differs])
  have reports : ∀ {event}, (tasks.add task).event = event →
      (∀ e ∈ event, e = .added task.id) →
      tasks.alters (tasks.add task).tasks task.id = event.isSome →
      (tasks.add task).IsTruthful tasks := by
    rintro event reported added own
    refine ⟨fun id => ?_, fun e some => ⟨task.id, ?_⟩⟩
    · rw [reported]
      by_cases same : id = task.id
      · subst same
        rw [own]
        cases event with
        | none => rfl
        | some e => rw [added e rfl]; simp [StoreEvent.affects]
      · rw [other id same]
        cases event with
        | none => rfl
        | some e => rw [added e rfl]; simp [StoreEvent.affects, Ne.symm same]
    · rw [added e (reported ▸ some)]
      simp [StoreEvent.affects]
  cases found : tasks.find? task.id with
  | none =>
    have reported : (tasks.add task).event = some (.added task.id) := by rw [add, found]
    exact reports reported (by simp) (alters_of_find? found here)
  | some previous =>
    have altered : tasks.alters (tasks.add task).tasks task.id = !(previous == task) :=
      alters_of_find? found here
    by_cases same : (previous == task) = true
    · have reported : (tasks.add task).event = none := by rw [add, found]; exact if_pos same
      exact reports reported (by simp) (by rw [altered, same]; rfl)
    · have reported : (tasks.add task).event = some (.added task.id) := by
        rw [add, found]
        exact if_neg same
      exact reports reported (by simp) (by rw [altered, Bool.eq_false_iff.mpr same]; rfl)

theorem isTruthful_update (keyed : tasks.Keyed) (id : TaskId) (patch : Patch) :
    (tasks.update id patch).IsTruthful tasks := by
  obtain ⟨_, ended⟩ | ⟨current, found, ⟨_, _, ended⟩ | ⟨_, _, ended⟩ | ⟨_, differs, ended⟩⟩ :=
    tasks.update_cases id patch
  · rw [ended]
    exact ⟨tasks.alters_self, by simp⟩
  · rw [ended]
    exact ⟨tasks.alters_self, by simp⟩
  · rw [ended]
    exact ⟨tasks.alters_self, by simp⟩
  · obtain rfl : current.id = id := keyed found
    rw [ended]
    refine ⟨fun other => ?_, fun event reported => ⟨current.id, ?_⟩⟩
    · by_cases same : other = current.id
      · subst same
        have put : (Dictionary.insert tasks current.id (current.patched patch)).find? current.id =
            some (current.patched patch) := by rw [Dictionary.find?_insert, if_pos rfl]
        have changed : (current == current.patched patch) = false := by
          rw [Bool.eq_false_iff] at differs ⊢
          exact fun equal => differs (Task.beq_iff.mpr (Task.beq_iff.mp equal).symm)
        rw [alters_of_find? found put, Option.some_beq_some, changed]
        simp [StoreEvent.affects]
      · have kept : (Dictionary.insert tasks current.id (current.patched patch)).find? other =
            tasks.find? other := by rw [Dictionary.find?_insert, if_neg same]
        rw [alters_of_eq kept]
        simp [StoreEvent.affects, Ne.symm same]
    · obtain rfl := Option.some.inj reported
      simp [StoreEvent.affects]

theorem isTruthful_remove (keyed : tasks.Keyed) (id : TaskId) :
    (tasks.remove id).IsTruthful tasks := by
  cases found : tasks.find? id with
  | none =>
    have ended : tasks.remove id = ⟨none, tasks, none⟩ := by rw [remove, found]
    rw [ended]
    exact ⟨tasks.alters_self, by simp⟩
  | some task =>
    obtain rfl : task.id = id := keyed found
    have event : (tasks.remove task.id).event = some (.removed task.id) := by rw [remove, found]
    refine ⟨fun other => ?_, fun e reported => ⟨task.id, ?_⟩⟩
    · rw [event]
      by_cases same : other = task.id
      · subst same
        rw [alters_of_find? found (by rw [find?_remove, if_pos rfl])]
        simp [StoreEvent.affects]
      · rw [alters_of_eq (by rw [find?_remove, if_neg same])]
        simp [StoreEvent.affects, Ne.symm same]
    · obtain rfl := Option.some.inj (event.symm.trans reported)
      simp [StoreEvent.affects]

theorem isTruthful_clearTerminal (tasks : Collection) : tasks.clearTerminal.IsTruthful tasks := by
  cases ids : tasks.terminalIds with
  | nil =>
    have ended : tasks.clearTerminal = ⟨[], tasks, none⟩ := by rw [clearTerminal, ids]
    rw [ended]
    exact ⟨tasks.alters_self, by simp⟩
  | cons first rest =>
    have event : tasks.clearTerminal.event = some (.cleared tasks.terminalIds) := by
      rw [clearTerminal, ids]
    refine ⟨fun id => ?_, fun e reported => ⟨first, ?_⟩⟩
    · have affected : tasks.clearTerminal.event.any (·.affects id) =
          decide (id ∈ tasks.terminalIds) :=
        event ▸ List.contains_eq_mem id tasks.terminalIds
      rw [affected, Bool.eq_iff_iff, decide_eq_true_eq, mem_terminalIds]
      cases found : tasks.find? id with
      | none =>
        have same : tasks.clearTerminal.tasks.find? id = none := by
          rw [find?_clearTerminal, found]
          rfl
        simp [alters_of_eq (same.trans found.symm)]
      | some task =>
        cases terminal : task.isTerminal with
        | false =>
          have same : tasks.clearTerminal.tasks.find? id = some task := by
            simp [find?_clearTerminal, found, Option.filter, terminal]
          simp [alters_of_eq (same.trans found.symm), terminal]
        | true =>
          have gone : tasks.clearTerminal.tasks.find? id = none := by
            simp [find?_clearTerminal, found, Option.filter, terminal]
          simp [alters_of_find? found gone, terminal]
    · obtain rfl := Option.some.inj (event.symm.trans reported)
      simp [StoreEvent.affects, ids]

/-- Every change reports what it does. -/
theorem Change.isTruthful {m : Mutation α} (change : Change tasks m) (keyed : tasks.Keyed) :
    m.IsTruthful tasks := by
  cases change with
  | add task => exact tasks.isTruthful_add task
  | update id patch => exact isTruthful_update keyed id patch
  | remove id => exact isTruthful_remove keyed id
  | clearTerminal => exact tasks.isTruthful_clearTerminal

end Collection

end TaskWatch
