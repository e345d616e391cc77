import TaskWatch.Proofs.Run.Executor
import TaskWatch.Proofs.Store.Snapshot

/-!
# What is stored is a snapshot

A store writes its whole collection after every change that it counts, and passes over writes that
fail. So what is stored under its key is always the collection of one version: the highest one whose
write has succeeded, whatever was written before and whoever changes the collection meanwhile,
listeners that are just being told of a change included. It never goes back to an earlier version,
and the next write that succeeds catches up.

## Main definitions

* `Snapshot` — a change that a store has counted.
* `Machine.snapshots` — the changes that it counts in a run.
* `Machine.Durable` — what is stored is one of these snapshots.

## Main results

* `Machine.durable_snapshot` — this holds at every time.
-/

namespace TaskWatch

variable {σ κ : Type}

/-- A change that a store has counted. -/
structure Snapshot where
  /-- The version that it has made. -/
  version : Nat
  /-- The collection of this version. -/
  tasks : Collection
  /-- Whether the write of the collection has succeeded. -/
  stored : Bool

/-- The last of some changes whose write has succeeded. -/
def lastStored (snapshots : List Snapshot) : Option Snapshot :=
  (snapshots.filter Snapshot.stored).getLast?

theorem lastStored_concat (snapshots : List Snapshot) (s : Snapshot) :
    lastStored (snapshots ++ [s]) = if s.stored then some s else lastStored snapshots := by
  rw [lastStored, List.filter_append]
  cases stored : s.stored with
  | true => simp [stored]
  | false => simp [stored, lastStored]

namespace Machine

/-- The change that the store of a tracker counts in a move, if it counts one. -/
def snapshot? (k : Nat) (p : Machine σ κ × Machine σ κ) : Option Snapshot :=
  let before := (p.1.tracker k).store
  let after := (p.2.tracker k).store
  if after.version = before.version then none
  else
    some
      { version := after.version
        tasks := after.tasks
        stored := (p.1.world.storage.write before.key after.tasks.encode).2.isOk }

/-- The changes that the store of a tracker counts in a run. -/
def snapshots (k : Nat) (m₀ : Machine σ κ) (states : List (Machine σ κ)) : List Snapshot :=
  (passages m₀ states).filterMap (snapshot? k)

/-- What is stored under the key of a tracker after some changes is one of their collections. -/
structure Durable (k : Nat) (m₀ : Machine σ κ) (past : List Snapshot) (m : Machine σ κ) : Prop where
  key : (m.tracker k).store.key = (m₀.tracker k).store.key
  /-- The changes are counted one by one. -/
  versions : past.map Snapshot.version =
    List.range' ((m₀.tracker k).store.version + 1) past.length
  version : (m.tracker k).store.version = (m₀.tracker k).store.version + past.length
  /-- The collection is that of the last version. -/
  tasks : (m.tracker k).store.tasks =
    past.getLast?.elim (m₀.tracker k).store.tasks Snapshot.tasks
  /-- The collection of the last version whose write has succeeded is stored, or what was there at
  first. -/
  content : m.world.storage.content (m₀.tracker k).store.key =
    (lastStored past).elim (m₀.world.storage.content (m₀.tracker k).store.key)
      fun s => some s.tasks.encode.toUTF8
  /-- The store knows which version this is. -/
  persisted : (m.tracker k).store.persisted =
    (lastStored past).elim (m₀.tracker k).store.persisted Snapshot.version
  /-- Once a write has succeeded, what is stored can be read. -/
  shows : (lastStored past).isSome → m.world.storage.Shows (m₀.tracker k).store.key

variable {c : Consumer σ κ} {given : Code σ κ → Prop} {m m' m₀ : Machine σ κ} {k : Nat}
  {past : List Snapshot} {states : List (Machine σ κ)}

theorem Durable.refl (k : Nat) (m : Machine σ κ) : Durable k m [] m where
  key := rfl
  versions := rfl
  version := rfl
  tasks := rfl
  content := rfl
  persisted := rfl
  shows := nofun

/-- Whether a change is counted or not, what is stored stays a snapshot. -/
theorem Durable.saves (durable : Durable k m₀ past m)
    (saves : Store.Saves (m.tracker k).store m.world.storage (m'.tracker k).store m'.world.storage) :
    Durable k m₀ (past ++ (snapshot? k (m, m')).toList) m' := by
  obtain ⟨key, versions, version, tasks, content, persisted, shows⟩ := durable
  cases saves with
  | still listeners store keeps =>
    have quiet : snapshot? k (m, m') = none := by
      rw [snapshot?, store]
      exact if_pos rfl
    rw [quiet, Option.toList_none, List.append_nil]
    rw [key] at keeps
    refine ⟨store ▸ key, versions, store ▸ version, store ▸ tasks, keeps.content.trans content,
      store ▸ persisted, fun some => keeps.shows (shows some)⟩
  | commits tasks' listeners store written =>
    have counted : snapshot? k (m, m') = some
        { version := (m.tracker k).store.version + 1
          tasks := tasks'
          stored := (m.world.storage.write (m.tracker k).store.key tasks'.encode).2.isOk } := by
      rw [snapshot?, store]
      exact if_neg (Nat.succ_ne_self _)
    rw [counted, Option.toList_some]
    rw [key] at written store ⊢
    have length : (past ++ [Snapshot.mk ((m.tracker k).store.version + 1) tasks'
        (m.world.storage.write (m₀.tracker k).store.key tasks'.encode).2.isOk]).length =
          past.length + 1 := List.length_append
    have counts : (m'.tracker k).store.version = (m.tracker k).store.version + 1 := store ▸ rfl
    refine ⟨store ▸ rfl, ?versions, ?version, ?tasks, ?content, ?persisted, ?shows⟩
    case versions =>
      rw [length, List.map_append, versions, List.range'_concat, version]
      simp [Nat.add_right_comm]
    case version => rw [length, counts, version, Nat.add_assoc]
    case tasks =>
      rw [List.getLast?_concat, store]
      rfl
    case content =>
      rw [lastStored_concat, written]
      cases outcome : (m.world.storage.write (m₀.tracker k).store.key tasks'.encode).2 with
      | ok => exact (Storage.content_write outcome).1
      | error e => exact (Storage.keeps_write_error outcome _).content.trans content
    case persisted =>
      rw [lastStored_concat, store]
      cases (m.world.storage.write (m₀.tracker k).store.key tasks'.encode).2 with
      | ok => rfl
      | error e => exact persisted
    case shows =>
      rw [lastStored_concat, written]
      cases outcome : (m.world.storage.write (m₀.tracker k).store.key tasks'.encode).2 with
      | ok => exact fun _ => (Storage.content_write outcome).2
      | error e => exact fun some => (Storage.keeps_write_error outcome _).shows (shows some)

/-- The stored version never goes back. -/
theorem persisted_le (behind : m.world.Behind)
    (saves : Store.Saves (m.tracker k).store m.world.storage (m'.tracker k).store m'.world.storage) :
    (m.tracker k).store.persisted ≤ (m'.tracker k).store.persisted := by
  cases saves with
  | still listeners store keeps => exact store ▸ Nat.le_refl _
  | commits tasks listeners store written =>
    rw [store]
    dsimp only
    split
    · exact Nat.le_succ_of_le (behind k)
    · exact Nat.le_refl _

/-- At every time, what is stored under the key of a tracker is the collection of the highest
version whose write has succeeded, or what was stored at first. It is the collection as it is now if
the last write has succeeded, whatever has failed before, and then this is what is read. The stored
version never goes back. -/
theorem durable_snapshot (reach : Reachable c m₀) (inside : k < m₀.world.trackers.length)
    (run : Run c given m₀ states m)
    (alone : ∀ p ∈ passages m₀ states, p.1.Sole k ∧ (p.1.tracker k).store.tasks.isExact = true) :
    Durable k m₀ (snapshots k m₀ states) m ∧
      (∀ s, (snapshots k m₀ states).getLast? = some s → s.stored = true →
        m.world.storage.content (m₀.tracker k).store.key =
            some (m.tracker k).store.tasks.encode.toUTF8 ∧
          (m.world.storage.answers = true → m.world.storage.text? (m₀.tracker k).store.key =
            some (m.tracker k).store.tasks.encode)) ∧
      ∀ p ∈ passages m₀ states, (p.1.tracker k).store.persisted ≤ (p.2.tracker k).store.persisted := by
  have saves : ∀ p ∈ passages m₀ states, Store.Saves (p.1.tracker k).store p.1.world.storage
      (p.2.tracker k).store p.2.world.storage := fun p mem => by
    obtain ⟨_, before, _, move⟩ := run.passage mem
    obtain ⟨sole, exact_⟩ := alone p mem
    exact move.saves (before.inside inside) (reach.run before).behind exact_ sole
  have durable : Durable k m₀ (snapshots k m₀ states) m := by
    clear alone
    induction run with
    | start => exact .refl k m₀
    | @move states m₁ m₂ run next ih =>
      rw [run.passages_move] at saves
      have last : [(m₁, m₂)].filterMap (snapshot? k) = (snapshot? k (m₁, m₂)).toList := by
        rw [List.filterMap_cons]
        cases snapshot? k (m₁, m₂) <;> rfl
      rw [snapshots, run.passages_move, List.filterMap_append, last]
      exact (ih fun p mem => saves p (List.mem_append_left _ mem)).saves
        (saves (m₁, m₂) (List.mem_append_right _ List.mem_cons_self))
  refine ⟨durable, fun s last stored => ?_, fun p mem => ?_⟩
  · obtain ⟨before, split⟩ := List.getLast?_eq_some_iff.mp last
    have latest : lastStored (snapshots k m₀ states) = some s := by
      rw [split, lastStored_concat, if_pos stored]
    have current : (m.tracker k).store.tasks = s.tasks := by
      rw [durable.tasks, last]
      rfl
    have content := durable.content
    rw [latest] at content
    rw [current]
    exact ⟨content, fun answers => durable.shows (by rw [latest]; rfl) answers _ content⟩
  · obtain ⟨_, before, _, _⟩ := run.passage mem
    exact persisted_le (reach.run before).behind (saves p mem)

/-- A consumer whose listener deletes the record of a task as soon as it is told that it was added.
-/
def sweeper : Consumer Unit Nat where
  react _ occasion :=
    match occasion with
    | .notice (.store (.added id)) => .call (.remove 0 id) fun _ => .done
    | _ => .done
  proceed _ _ _ _ := .hang
  supply _ _ _ := none

/-- A storage that refuses the second write. -/
def hesitant : Storage := .unreliable { answersReads := true, accepts := fun n => n != 1 }

/-- A tracker has been opened on it, and the listener hears of its changes. -/
def overseen : Machine Unit Nat :=
  (idle () (.blank hesitant 0 true)).call sweeper <|
    .call (.openTracker "tasks" .default) fun _ =>
    .call (.subscribeStore 0 7) fun _ => .done

/-- Two records are about to be added. -/
def adding : Machine Unit Nat :=
  overseen.code <|
    .call (.add 0 { id := "a", kind := .analysis }) fun _ =>
    .call (.add 0 { id := "b", kind := .analysis }) fun _ => .done

/-- What happens then. -/
def sweeping : List (Machine Unit Nat) := [adding] ++ trail sweeper 28 adding

/-- Nothing is put into the storage behind everyone's back, and records are added to the first
tracker only. -/
private def isTidy (m : Machine Unit Nat) : Bool :=
  m.world.trackers.length == 1 && match m.control with
    | .code (.call (.add n _) _) | .code (.call (.track n _ _) _) => n == 0
    | .code (.call (.seed _ _) _) => false
    | _ => true

private theorem sole_of_isTidy {m : Machine Unit Nat} (tidy : m.isTidy = true) : m.Sole 0 := by
  obtain ⟨one, called⟩ := Bool.and_eq_true_iff.mp tidy
  have one : m.world.trackers.length = 1 := eq_of_beq one
  refine ⟨fun n other opened => ?_, ?_, ?_⟩
  · omega
  · rintro n id ⟨request, next, control, adds⟩
    rw [control] at called
    cases request with
    | add number draft =>
      obtain rfl : number = 0 := eq_of_beq called
      exact adds.1 ▸ one ▸ Nat.one_pos
    | track number draft fetcher =>
      obtain rfl : number = 0 := eq_of_beq called
      exact adds.1 ▸ one ▸ Nat.one_pos
    | _ => exact adds.elim
  · rintro key content next control
    simp [control] at called

/-- The second write is refused: when the listener has deleted the first record, the storage still
holds it. The writes after this one catch up. -/
theorem durable_snapshot_hesitant :
    (snapshots 0 overseen sweeping).map (fun s => (s.version, s.tasks.keys, s.stored)) =
        [(1, ["a"], true), (2, [], false), (3, ["b"], true), (4, [], true)] ∧
      Durable 0 overseen (snapshots 0 overseen sweeping) (stepTimes sweeper 28 adding) ∧
      ∀ p ∈ passages overseen sweeping,
        (p.1.tracker 0).store.persisted ≤ (p.2.tracker 0).store.persisted := by
  have reach : Reachable sweeper overseen := ⟨(), hesitant, 0, true, call_leads trivial⟩
  have run : Run sweeper (fun _ => True) overseen sweeping (stepTimes sweeper 28 adding) :=
    (Run.start.move (.code rfl trivial)).append (run_steps (by decide +kernel))
  have tidy : ∀ p ∈ passages overseen sweeping,
      p.1.isTidy = true ∧ (p.1.tracker 0).store.tasks.isExact = true := by
    decide +kernel
  obtain ⟨durable, _, forward⟩ := durable_snapshot (k := 0) reach (by decide +kernel) run
    fun p mem => ⟨sole_of_isTidy (tidy p mem).1, (tidy p mem).2⟩
  exact ⟨by decide +kernel, durable, forward⟩

end Machine

end TaskWatch
