import TaskWatch.Proofs.Run.Stir
import TaskWatch.Proofs.Run.Executor
import TaskWatch.Proofs.Store.NetEffect

/-!
# What is reported, counted and written

Whatever happens to a store, its listeners are told of exactly those records that are inserted,
altered or deleted. If there are any, the version goes up by one and the collection is written once;
otherwise nothing is told, counted or written. So the version of a store is the number of times that
its collection has changed since it was opened. Records are compared as the store compares them.

## Main definitions

* `World.Reckons` — what is reported, counted and written is what has changed.
* `Machine.changes` — whether a move changes the collection of a tracker.

## Main results

* `World.Stir.reckons` — this holds of everything that stores notice.
* `Machine.reckons_changes` — it holds of every call and every move, so the version counts them.
-/

namespace TaskWatch

variable {σ κ : Type}

theorem Storage.attempts?_write (s : Storage) (key value : String) :
    (s.write key value).1.attempts? = s.attempts?.map (· + 1) := by
  cases s with
  | memory limit entries =>
    cases limit with
    | none => rfl
    | some limit => rw [Storage.write]; split <;> rfl
  | files tree directory => rfl
  | absent => rfl
  | unreliable state => rw [Storage.write]; split <;> rfl

theorem Storage.attempts?_seed (s : Storage) (key : String) (content : ByteArray) :
    (s.seed key content).attempts? = s.attempts? := by
  cases s with
  | memory limit entries => rw [Storage.seed]; split <;> rfl
  | _ => rfl

namespace World

/-- What the listeners of a tracker are about to be told between two states, and what has been
counted and written, is what has become of its collection. -/
structure Reckons (k : Nat) (w w' : World κ) (news : Option (Nat × StoreEvent)) : Prop where
  /-- The event affects exactly the tasks whose records were inserted, altered or deleted. -/
  affects : ∀ id, (w.tracker k).store.tasks.alters (w'.tracker k).store.tasks id =
    news.any fun told => told.1 == k && told.2.affects id
  /-- There is an event exactly if there are such tasks. -/
  reported : (w.tracker k).store.tasks.differs (w'.tracker k).store.tasks =
    news.any fun told => told.1 == k
  version : (w'.tracker k).store.version = (w.tracker k).store.version +
    if (w.tracker k).store.tasks.differs (w'.tracker k).store.tasks then 1 else 0
  written : (w.tracker k).store.tasks.differs (w'.tracker k).store.tasks = true → w'.storage =
    (w.storage.write (w.tracker k).store.key (w'.tracker k).store.tasks.encode).1

variable {w w' : World κ} {k : Nat} {asked : Option (Call κ)} {news : Option (Nat × StoreEvent)}

/-- The collection stays as it is, and its listeners are not told of anything. -/
theorem Reckons.of_same (tasks : (w'.tracker k).store.tasks = (w.tracker k).store.tasks)
    (version : (w'.tracker k).store.version = (w.tracker k).store.version)
    (others : (news.any fun told => told.1 == k) = false) : Reckons k w w' news := by
  have same : (w.tracker k).store.tasks.differs (w'.tracker k).store.tasks = false :=
    tasks ▸ Collection.differs_self _
  refine ⟨fun id => ?_, same.trans others.symm, ?_, fun differ => ?_⟩
  · rw [tasks, Collection.alters_self]
    cases news with
    | none => rfl
    | some told =>
      have other : (told.1 == k) = false := others
      simp [other]
  · rw [version, same]
    rfl
  · rw [same] at differ
    exact absurd differ Bool.false_ne_true

/-- A change of the collection. -/
theorem reckons_mutate {α : Type} {change : Mutation α} (inside : k < w.trackers.length)
    (behind : w.Behind) (truthful : change.IsTruthful (w.tracker k).store.tasks) :
    Reckons k w (w.mutate k change) (change.event.map (k, ·)) := by
  have store : ((w.mutate k change).tracker k).store =
      ((w.tracker k).store.apply w.storage change).1 := by
    rw [tracker_mutate, if_pos ⟨rfl, inside⟩]
  have storage : (w.mutate k change).storage =
      ((w.tracker k).store.apply w.storage change).2 := rfl
  have tasks : ((w.mutate k change).tracker k).store.tasks = change.tasks := by
    rw [store, Store.tasks_apply]
  have affects : ∀ id, (w.tracker k).store.tasks.alters change.tasks id =
      (change.event.map (k, ·)).any fun told => told.1 == k && told.2.affects id := fun id => by
    rw [truthful.affects, Option.any_map]
    simp
  have reported : (w.tracker k).store.tasks.differs change.tasks =
      (change.event.map (k, ·)).any fun told => told.1 == k := by
    cases event : change.event with
    | none =>
      refine Collection.differs_eq_false_iff.mpr fun id => ?_
      rw [truthful.affects, event]
      rfl
    | some e =>
      obtain ⟨id, affected⟩ := truthful.alters e event
      have differ : (w.tracker k).store.tasks.differs change.tasks = true := by
        refine Collection.differs_iff.mpr ⟨id, ?_⟩
        rw [truthful.affects, event]
        exact affected
      rw [differ]
      exact (beq_self_eq_true k).symm
  refine ⟨fun id => by rw [tasks, affects], by rw [tasks, reported], ?_, fun differ => ?_⟩
  · rw [tasks, reported, store]
    cases event : change.event with
    | none =>
      rw [Store.apply_silent event]
      rfl
    | some e =>
      rw [Store.apply_reported event (behind k)]
      simp
  · rw [tasks, reported] at differ
    rw [tasks, storage]
    cases event : change.event with
    | none => simp [event] at differ
    | some e => rw [Store.apply_reported event (behind k)]

/-- Something that nobody notices happens first. -/
theorem Reckons.of_calm {w₁ : World κ} (calm : w.Calm w₁) (reckons : Reckons k w₁ w' news) :
    Reckons k w w' news := by
  obtain ⟨affects, reported, version, written⟩ := reckons
  obtain ⟨listeners, store, _⟩ := calm.stores k
  rw [store] at affects reported version written
  rw [calm.storage] at written
  exact ⟨affects, reported, version, written⟩

theorem Calm.behind {w₁ : World κ} (calm : w.Calm w₁) (behind : w.Behind) : w₁.Behind := fun k => by
  obtain ⟨listeners, store, _⟩ := calm.stores k
  rw [store]
  exact behind k

/-- Whatever stores notice, what is reported, counted and written is what has changed. -/
theorem Stir.reckons (stir : w.Stir asked w' news) (inside : k < w.trackers.length)
    (keyed : (w.tracker k).store.tasks.Keyed) (behind : w.Behind) : Reckons k w w' news := by
  cases stir with
  | calm calm =>
    obtain ⟨_, store, _⟩ := calm.stores k
    exact .of_same (store ▸ rfl) (store ▸ rfl) rfl
  | @opened key cadence call =>
    have same : (w.after (.opened key cadence)).tracker k = w.tracker k := by
      rw [after, tracker_opened, if_neg (Nat.ne_of_lt inside)]
    exact .of_same (same ▸ rfl) (same ▸ rfl) rfl
  | seeded call => exact .of_same rfl rfl rfl
  | viewed call => exact .of_same rfl rfl rfl
  | read call => exact .of_same rfl rfl rfl
  | @changed w₁ number α change calm made =>
    have inside₁ : k < w₁.trackers.length := calm.count.symm ▸ inside
    by_cases here : number = k
    · subst here
      exact .of_calm calm (reckons_mutate inside₁ (calm.behind behind)
        (made.isTruthful (calm.tasks number ▸ keyed)))
    · have same : (w₁.mutate number change).tracker k = w₁.tracker k := by
        rw [tracker_mutate, if_neg fun both => here both.1]
      obtain ⟨_, store, _⟩ := calm.stores k
      refine .of_same (by rw [same, store]) (by rw [same, store]) ?_
      cases change.event with
      | none => rfl
      | some e => exact beq_false_of_ne here

/-- A tracker that has not been opened yet has version zero, and has it when it is opened. -/
theorem Stir.version_outside (stir : w.Stir asked w' news) (outside : w.trackers.length ≤ k) :
    (w'.tracker k).store.version = 0 := by
  have default : ∀ {w : World κ}, w.trackers.length ≤ k → (w.tracker k).store.version = 0 :=
    fun outside => by rw [tracker_outside outside]; rfl
  cases stir with
  | calm calm => exact default (calm.count ▸ outside)
  | @opened key cadence call =>
    rw [after, tracker_opened]
    split
    · rfl
    · exact default outside
  | seeded call => exact default outside
  | viewed call => exact default outside
  | read call => exact default outside
  | changed calm made => exact default (by rwa [length_trackers_mutate, calm.count])

/-- What is reported has been written once, and nothing else has been. -/
theorem Stir.attempts (stir : w.Stir asked w' news) (behind : w.Behind) :
    w'.storage.attempts? = w.storage.attempts?.map (· + if news.isSome then 1 else 0) := by
  have still : w.storage.attempts? = w.storage.attempts?.map (· + 0) := by simp
  cases stir with
  | calm calm => rw [calm.storage]; exact still
  | opened call => exact still
  | seeded call => exact (Storage.attempts?_seed _ _ _).trans still
  | viewed call => exact still
  | read call => exact still
  | @changed w₁ number α change calm made =>
    have storage : (w₁.mutate number change).storage =
        ((w₁.tracker number).store.apply w₁.storage change).2 := rfl
    rw [storage, ← calm.storage]
    cases event : change.event with
    | none =>
      rw [Store.apply_silent event]
      exact calm.storage ▸ still
    | some e =>
      rw [Store.apply_reported event (calm.behind behind number)]
      exact Storage.attempts?_write _ _ _

/-- When nothing is reported, nothing is written, except behind everyone's back. -/
theorem Stir.storage_of_silent (stir : w.Stir asked w' none)
    (honest : ∀ key content, asked ≠ some (.seed key content)) : w'.storage = w.storage := by
  generalize silent : (none : Option (Nat × StoreEvent)) = news at stir
  cases stir with
  | calm calm => exact calm.storage
  | opened call => rfl
  | @seeded key content call => exact absurd call (honest key content)
  | viewed call => rfl
  | read call => rfl
  | @changed w₁ number α change calm made =>
    have storage : (w₁.mutate number change).storage =
        ((w₁.tracker number).store.apply w₁.storage change).2 := rfl
    cases event : change.event with
    | none => rw [storage, Store.apply_silent event, calm.storage]
    | some e => simp [event] at silent

end World

namespace Machine

variable {c : Consumer σ κ} {given : Code σ κ → Prop} {m m' m₀ : Machine σ κ} {k : Nat}
  {states : List (Machine σ κ)}

/-- Whether a move changes the collection of a tracker that has been opened. -/
def changes (k : Nat) (p : Machine σ κ × Machine σ κ) : Bool :=
  decide (k < p.1.world.trackers.length) &&
    (p.1.tracker k).store.tasks.differs (p.2.tracker k).store.tasks

/-- A call that changes a store is at an end right away, or the listeners are about to be told of
one event, and when they have been told there is nothing left but to reply. -/
theorem perform_toCall_cases (m : Machine σ κ) (k : Nat) (call : StoreCall) :
    let m' := m.perform (call.toCall k)
    ∃ reply,
      (m'.report? = none ∧ m'.control = .returned reply ∧ m'.stack = m.stack) ∨
        ∃ event, m'.report? = some (k, event) ∧ m'.control = .telling k (.store event) ∧
          m'.stack = .answering reply :: m.stack := by
  obtain ⟨_, w, mutation, reply, began, _⟩ := m.perform_toCall k call
  refine ⟨reply, ?_⟩
  rw [began, mutate]
  cases mutation.event with
  | none => exact .inl ⟨rfl, rfl, rfl⟩
  | some event => exact .inr ⟨event, rfl, rfl, rfl⟩

/-- A version counts the changes. -/
theorem Move.version (move : Move c given m m') (reach : Reachable c m) (k : Nat) :
    (m'.tracker k).store.version =
      (m.tracker k).store.version + if changes k (m, m') then 1 else 0 := by
  by_cases inside : k < m.world.trackers.length
  · have reckons := move.stir.reckons inside (reach.sound.keyed k) reach.behind
    rw [changes, decide_eq_true inside, Bool.true_and]
    exact reckons.version
  · have outside := Nat.le_of_not_lt inside
    have before : (m.tracker k).store.version = 0 := by
      rw [tracker, World.tracker_outside outside]
      rfl
    rw [changes, decide_eq_false inside, before]
    exact move.stir.version_outside outside

theorem Run.version (reach : Reachable c m₀) (run : Run c given m₀ states m) (k : Nat) :
    (m.tracker k).store.version =
      (m₀.tracker k).store.version + (passages m₀ states).countP (changes k) := by
  induction run with
  | start => rfl
  | @move states m₁ m₂ run next ih =>
    rw [next.version (reach.run run) k, ih, run.passages_move, List.countP_append, Nat.add_assoc,
      List.countP_singleton]

/-- Listeners are told exactly what has changed. Whatever a store holds, a call that changes it
reports at most one event. There is one exactly if a record was inserted, altered or deleted, and it
affects exactly the tasks whose records were. Then the version has gone up by one and the collection
has been written once; otherwise nothing has been counted, and nothing has been written. The same
is true of all other moves of a run, so the version is the number of times that the collection has
changed since the tracker was opened. -/
theorem reckons_changes (reach : Reachable c m₀) (run : Run c given m₀ states m) (k : Nat) :
    (k < m.world.trackers.length → ∀ call : StoreCall,
      let m' := m.perform (call.toCall k)
      m.world.Reckons k m'.world m'.report? ∧
        m'.world.storage.attempts? =
          m.world.storage.attempts?.map (· + if m'.report?.isSome then 1 else 0) ∧
        (m'.report? = none → m'.world.storage = m.world.storage) ∧
        ∃ reply,
          (m'.report? = none ∧ m'.control = .returned reply ∧ m'.stack = m.stack) ∨
            ∃ event, m'.report? = some (k, event) ∧ m'.control = .telling k (.store event) ∧
              m'.stack = .answering reply :: m.stack) ∧
      (∀ p ∈ passages m₀ states,
        (k < p.1.world.trackers.length → p.1.world.Reckons k p.2.world p.2.report?) ∧
        p.2.world.storage.attempts? =
          p.1.world.storage.attempts?.map (· + if p.2.report?.isSome then 1 else 0) ∧
        (p.2.report? = none → (∀ key content, p.1.request? ≠ some (.seed key content)) →
          p.2.world.storage = p.1.world.storage)) ∧
      (m.tracker k).store.version =
        (m₀.tracker k).store.version + (passages m₀ states).countP (changes k) ∧
      (m₀.world.trackers.length ≤ k →
        (m.tracker k).store.version = (passages m₀ states).countP (changes k)) := by
  have version := run.version reach k
  refine ⟨fun inside call => ?_, fun p mem => ?_, version, fun outside => ?_⟩
  · have now := reach.run run
    have stir := (m.perform_stirs (call.toCall k)).stir
    refine ⟨stir.reckons inside (now.sound.keyed k) now.behind, stir.attempts now.behind,
      fun silent => ?_, m.perform_toCall_cases k call⟩
    rw [silent] at stir
    exact stir.storage_of_silent fun key content => by cases call <;> simp [StoreCall.toCall]
  · obtain ⟨_, before, _, move⟩ := run.passage mem
    have now := reach.run before
    refine ⟨fun inside => move.stir.reckons inside (now.sound.keyed k) now.behind,
      move.stir.attempts now.behind, fun silent honest => ?_⟩
    have stir := move.stir
    rw [silent] at stir
    exact stir.storage_of_silent honest
  · rw [version, tracker, World.tracker_outside outside]
    exact Nat.zero_add _

/-- A consumer whose listeners do nothing. -/
def onlooker : Consumer Unit Nat where
  react _ _ := .done
  proceed _ _ _ _ := .hang
  supply _ _ _ := none

/-- A task with a zero among its metadata. -/
def balanced (negative : Bool) : Draft :=
  { id := "a"
    kind := .analysis
    metadata := Dictionary.empty.insert "balance" (.real ⟨negative, 0, -1074⟩)
    createdAt := some .epoch }

/-- A tracker is opened and gets a listener. A record is kept, and an equal one in its place; it is
patched, and patched again to no effect; nothing is terminal yet; it is patched once more and then
cleared; there is nothing left to delete. -/
def bookkeeping : Code Unit Nat :=
  .call (.openTracker "tasks" .default) fun _ =>
  .call (.subscribeStore 0 7) fun _ =>
  .call (.add 0 (balanced false)) fun _ =>
  .call (.add 0 (balanced true)) fun _ =>
  .call (.update 0 "a" (.ofStatus .processing)) fun _ =>
  .call (.update 0 "a" (.ofStatus .processing)) fun _ =>
  .call (.clearTerminal 0) fun _ =>
  .call (.update 0 "a" (.ofStatus .completed)) fun _ =>
  .call (.clearTerminal 0) fun _ =>
  .call (.remove 0 "a") fun _ => .done

/-- Nothing has happened, and every write will succeed. -/
def blankPage : Machine Unit Nat :=
  idle () (.blank (.unreliable { answersReads := true, accepts := fun _ => true }) 0 true)

/-- What happens then. -/
def accounted : List (Machine Unit Nat) :=
  [blankPage.code bookkeeping] ++ trail onlooker 41 (blankPage.code bookkeeping)

/-- When it has happened. -/
def settledAccount : Machine Unit Nat := stepTimes onlooker 41 (blankPage.code bookkeeping)

/-- Eight changes are asked for, and four of them change the collection. The equal record, the patch
to no effect, the first clearing and the deletion are neither told nor counted nor written. -/
theorem reckons_changes_bookkeeping :
    let m := settledAccount
    (m.tracker 0).store.version = 4 ∧ m.world.storage.attempts? = some 4 ∧
      (passages blankPage accounted).countP (changes 0) = 4 ∧
      (∀ p ∈ passages blankPage accounted, 0 < p.1.world.trackers.length →
        p.1.world.Reckons 0 p.2.world p.2.report?) ∧
      ∀ call : StoreCall,
        let m' := m.perform (call.toCall 0)
        m.world.Reckons 0 m'.world m'.report? := by
  have reach : Reachable onlooker blankPage := ⟨_, _, _, _, .refl _⟩
  have run : Run onlooker (fun _ => True) blankPage accounted settledAccount :=
    (Run.start.move (.code rfl trivial)).append (run_steps (by decide +kernel))
  have version : (settledAccount.tracker 0).store.version = 4 := by decide +kernel
  have inside : 0 < settledAccount.world.trackers.length := by decide +kernel
  obtain ⟨calls, moves, _, counted⟩ := reckons_changes reach run 0
  exact ⟨version, by decide +kernel, (counted (Nat.le_refl 0)).symm.trans version,
    fun p mem => (moves p mem).1, fun call => (calls inside call).1⟩

end Machine

end TaskWatch
