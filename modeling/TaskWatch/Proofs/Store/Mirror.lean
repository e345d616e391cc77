import TaskWatch.Proofs.Session.Passing
import TaskWatch.Proofs.Store.Reload
import TaskWatch.Proofs.Store.Snapshot

/-!
# A storage that mirrors a store

A storage that accepts every write and answers every read has what the store has, as long as all
records are such that they are read back as they were written: what would be read from it at any time
is the collection of the store at this time. So the next store that is opened on it begins where this
one ends.

## Main definitions

* `Task.Lasts` — records that are read back as they were written.
* `Storage.IsReliable` — all writes under a key succeed, and nothing is lost.
* `World.Mirrors` — the storage has what the store of a tracker has.

## Main results

* `World.Mirrors.does` — this is kept whatever a session does, and when a record is kept.
* `World.mirrors_opened` — it holds of a tracker that is opened on the storage.
-/

namespace TaskWatch

variable {κ α β : Type}

/-- A record that is read back as it was written: there is no binary64 number in its metadata, no
value of it opens more than 123 containers at once, and its points in time can be represented. -/
structure Task.Lasts (t : Task) : Prop where
  isExact : t.isExact = true
  isProper : t.IsProper
  shallow : t.depth ≤ 123

/-- All records of a collection are read back as they were written. -/
def Collection.Lasts (tasks : Collection) : Prop :=
  ∀ id task, tasks.find? id = some task → task.Lasts

namespace Storage

/-- All writes under a key succeed, however often one writes. -/
def Accepts (s : Storage) (key : String) : Prop :=
  ∀ (texts : List String) (text : String),
    ((texts.foldl (fun s t => (s.write key t).1) s).write key text).2 = .ok ()

variable {s : Storage} {key : String}

theorem Accepts.write (accepts : s.Accepts key) (text : String) : (s.write key text).1.Accepts key :=
  fun texts => accepts (text :: texts)

theorem answers_write (s : Storage) (key text : String) :
    (s.write key text).1.answers = s.answers := by
  cases s with
  | memory limit entries =>
    cases limit with
    | none => rfl
    | some limit =>
      rw [Storage.write]
      split <;> rfl
  | files tree directory => rfl
  | absent => rfl
  | unreliable state =>
    rw [Storage.write]
    dsimp only
    split <;> rfl

end Storage

/-- A new status makes no difference. -/
theorem Task.Lasts.patched {task : Task} (lasts : task.Lasts) (status : Status) :
    (task.patched (.ofStatus status)).Lasts :=
  ⟨lasts.isExact, lasts.isProper, lasts.shallow⟩

namespace Collection.Lasts

variable {tasks : Collection}

theorem of_mem (lasts : tasks.Lasts) {task : Task} (mem : task ∈ tasks.values) : task.Lasts := by
  obtain ⟨id, found⟩ := tasks.mem_values.mp mem
  exact lasts id task found

theorem isExact (lasts : tasks.Lasts) : tasks.isExact = true :=
  List.all_eq_true.mpr fun _ mem => (lasts.of_mem mem).isExact

theorem add (lasts : tasks.Lasts) {task : Task} (lasts' : task.Lasts) :
    (tasks.add task).tasks.Lasts := by
  intro id found there
  rw [find?_add] at there
  split at there
  · exact Option.some.inj there ▸ lasts'
  · exact lasts id found there

theorem update (lasts : tasks.Lasts) (keyed : tasks.Keyed) (id : TaskId) (status : Status) :
    (tasks.update id (.ofStatus status)).tasks.Lasts := by
  intro other found there
  rw [find?_update keyed] at there
  split at there
  · obtain ⟨task, before, rfl⟩ := Option.map_eq_some_iff.mp there
    exact (lasts id task before).patched status
  · exact lasts other found there

end Collection.Lasts

/-- What is read from a storage that has stored a collection. -/
theorem Collection.hydrate_write {storage : Storage} {key : String} {tasks : Collection}
    (accepts : storage.Accepts key) (answers : storage.answers = true) (keyed : tasks.Keyed)
    (lasts : tasks.Lasts) : hydrate (storage.write key tasks.encode).1 key = tasks := by
  have succeeds : (storage.write key tasks.encode).2 = .ok () := accepts [] tasks.encode
  obtain ⟨content, shows⟩ := Storage.content_write succeeds
  have answers' := (Storage.answers_write storage key tasks.encode).trans answers
  have shallow : tasks.values.all (·.depth ≤ 123) = true :=
    List.all_eq_true.mpr fun _ mem => decide_eq_true (lasts.of_mem mem).shallow
  have decoded : decode? tasks.encode = some tasks := by
    rw [decode?_encode keyed lasts.isExact fun _ mem => (lasts.of_mem mem).isProper, if_pos shallow]
  rw [hydrate, shows answers' _ content]
  exact congrArg (Option.getD · _) decoded

/-- A storage that accepts all writes under a key and answers all reads. The records that it has
already are read back as they were written. -/
structure Storage.IsReliable (s : Storage) (key : String) : Prop where
  lasts : (Collection.hydrate s key).Lasts
  accepts : s.Accepts key
  answers : s.answers = true

theorem Storage.isReliable_inMemory (key : String) : inMemory.IsReliable key where
  lasts _ _ found := absurd found (Option.some_ne_none _).symm
  accepts texts text := by
    have accepts : ∀ entries, ((texts.foldl (fun s t => (s.write key t).1)
        (Storage.memory none entries)).write key text).2 = .ok () := by
      induction texts with
      | nil => exact fun _ => rfl
      | cons t texts ih => exact fun entries => ih (entries.insert key t)
    exact accepts .empty
  answers := rfl

/-! ### Stores -/

/-- A storage has what a store has, and will have it after the next changes. -/
structure Store.IsMirrored (s : Store α) (storage : Storage) (key : String) : Prop where
  named : s.key = key
  keyed : s.tasks.Keyed
  behind : s.persisted ≤ s.version
  read : Collection.hydrate storage key = s.tasks
  lasts : s.tasks.Lasts
  accepts : storage.Accepts key
  answers : storage.answers = true

namespace Store.IsMirrored

variable {s : Store α} {storage : Storage} {key : String}

theorem reliable (mirrored : s.IsMirrored storage key) : storage.IsReliable key :=
  ⟨mirrored.read ▸ mirrored.lasts, mirrored.accepts, mirrored.answers⟩

/-- Who listens does not matter. -/
theorem listeners (mirrored : s.IsMirrored storage key) (listeners : Registry α) :
    ({ s with listeners } : Store α).IsMirrored storage key :=
  ⟨mirrored.named, mirrored.keyed, mirrored.behind, mirrored.read, mirrored.lasts, mirrored.accepts,
    mirrored.answers⟩

/-- The storage is written whenever a change is counted. -/
theorem apply (mirrored : s.IsMirrored storage key) (m : Mutation β)
    (silent : m.event = none → m.tasks = s.tasks) (keyed : m.tasks.Keyed) (lasts : m.tasks.Lasts) :
    (s.apply storage m).1.IsMirrored (s.apply storage m).2 key := by
  obtain ⟨rfl, _, behind, read, _, accepts, answers⟩ := mirrored
  cases reported : m.event with
  | none =>
    rw [apply_silent reported]
    exact ⟨rfl, keyed, behind, read.trans (silent reported).symm, lasts, accepts, answers⟩
  | some event =>
    have succeeds : (storage.write s.key m.tasks.encode).2 = .ok () := accepts [] m.tasks.encode
    rw [apply_reported reported behind, succeeds]
    exact ⟨rfl, keyed, Nat.le_refl _, Collection.hydrate_write accepts answers keyed lasts, lasts,
      accepts.write _, (Storage.answers_write _ _ _).trans answers⟩

end Store.IsMirrored

/-! ### Worlds -/

/-- Of a tracker's records, a deed changes at most the status of one, or it keeps one that is read back
as it was written. -/
def Deed.Lasts (number : Nat) : Deed κ → Prop
  | kept k task => k = number ∧ task.Lasts
  | patched k _ patch => k = number ∧ ∃ status, patch = .ofStatus status
  | nothing | configured _ _ | began _ _ | ended _ _ | paused _ => True
  | opened _ _ | dropped _ _ | cleared _ | seeded _ _ => False

theorem Deed.IsSessional.lasts {number : Nat} {ids : TaskId → Prop} {d : Deed κ}
    (within : d.IsSessional number ids) : d.Lasts number := by
  cases d with
  | patched k id patch => exact ⟨within.1, within.2.2⟩
  | kept | opened | dropped | cleared | seeded | configured => exact within.elim
  | _ => trivial

namespace World

/-- The storage has what the store of the last tracker has. -/
structure Mirrors (w : World κ) (number : Nat) (key : String) : Prop where
  count : w.trackers.length = number + 1
  store : (w.tracker number).store.IsMirrored w.storage key

variable {w w' : World κ} {number : Nat} {key : String} {d : Deed κ}

theorem Mirrors.inside (mirrors : w.Mirrors number key) : number < w.trackers.length :=
  mirrors.count ▸ Nat.lt_succ_self number

private theorem Mirrors.mutate (mirrors : w.Mirrors number key) (m : Mutation β)
    (silent : m.event = none → m.tasks = (w.tracker number).store.tasks)
    (keyed : m.tasks.Keyed) (lasts : m.tasks.Lasts) : (w.mutate number m).Mirrors number key where
  count := (List.length_modify _ _ _).trans mirrors.count
  store := by
    rw [tracker_mutate, if_pos ⟨rfl, mirrors.inside⟩]
    exact mirrors.store.apply m silent keyed lasts

private theorem Mirrors.modifyTracker (mirrors : w.Mirrors number key) (k : Nat)
    {f : Tracker κ → Tracker κ} (same : ∀ t, (f t).store = t.store) :
    (w.modifyTracker k f).Mirrors number key where
  count := (List.length_modify _ _ _).trans mirrors.count
  store := by
    rw [w.proj_tracker_modifyTracker Tracker.store same]
    exact mirrors.store

/-- Nothing that a session does breaks the mirror, and no record that is kept. -/
theorem Mirrors.does (mirrors : w.Mirrors number key) (does : w.Does d w') (lasts : d.Lasts number) :
    w'.Mirrors number key := by
  obtain ⟨w₁, near, rfl, _⟩ := does
  have mirrors₁ : w₁.Mirrors number key := by
    obtain ⟨listeners, store⟩ := near.stores number
    refine ⟨near.count.trans mirrors.count, ?_⟩
    rw [store, near.storage]
    exact mirrors.store.listeners listeners
  obtain ⟨_, keyed, _, _, records, _, _⟩ := mirrors₁.store
  cases d with
  | nothing => exact mirrors₁
  | paused entry => exact ⟨mirrors₁.count, mirrors₁.store⟩
  | configured k settings => exact mirrors₁.modifyTracker k fun _ => rfl
  | began k id =>
    obtain ⟨count, store⟩ := mirrors₁.modifyTracker k (f := fun t =>
      { t with sessions := t.sessions.insert id w₁.nextSerial }) fun _ => rfl
    exact ⟨count, store⟩
  | ended k id => exact mirrors₁.modifyTracker k fun _ => rfl
  | kept k task =>
    obtain ⟨rfl, lasts⟩ := lasts
    exact mirrors₁.mutate _ (Collection.add_silent records.isExact) (keyed.add task) (records.add lasts)
  | patched k id patch =>
    obtain ⟨rfl, status, rfl⟩ := lasts
    exact mirrors₁.mutate _ Collection.update_silent (keyed.update id _) (records.update keyed id status)
  | _ => exact lasts.elim

theorem Mirrors.undergoes {allowed : Deed κ → Prop} (mirrors : w.Mirrors number key)
    (undergoes : w.Undergoes allowed w') (lasts : ∀ d, allowed d → d.Lasts number) :
    w'.Mirrors number key := by
  induction undergoes with
  | refl => exact mirrors
  | tail _ act ih =>
    obtain ⟨d, within, _, does⟩ := act
    exact ih.does does (lasts d within)

/-- The storage mirrors the store when time has passed. -/
theorem Mirrors.elapses (mirrors : w.Mirrors number key) (elapses : w.Elapses number w') :
    w'.Mirrors number key := by
  induction elapses with
  | refl => exact mirrors
  | tail _ act ih =>
    rcases act with goes | ⟨trackers, storage⟩
    · exact ih.undergoes goes fun d within => within.lasts
    · obtain ⟨count, store⟩ := ih
      refine ⟨trackers ▸ count, ?_⟩
      rw [World.tracker, trackers, storage]
      exact store

/-- A tracker that is opened on a reliable storage is mirrored from the beginning. -/
theorem mirrors_opened (count : w.trackers.length = number) (cadence : Cadence)
    (reliable : w.storage.IsReliable key) : (w.after (.opened key cadence)).Mirrors number key := by
  subst count
  refine ⟨by simp [World.after], ?_⟩
  rw [World.after, tracker_opened, if_pos rfl]
  exact ⟨rfl, Collection.keyed_hydrate _ _, Nat.le_refl _, rfl, reliable.lasts, reliable.accepts,
    reliable.answers⟩

end World

end TaskWatch
