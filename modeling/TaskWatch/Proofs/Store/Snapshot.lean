import TaskWatch.Proofs.Run.Warrant
import TaskWatch.Proofs.Storage.Content

/-!
# Changes that are stored

A change of a collection that is reported is counted, and the whole collection is written. One that
is not reported leaves the collection as it is, unless an equal record is kept in the place of
another one; without binary64 numbers in their metadata these are the same. So for a store two
things can happen in a move: nothing happens to it and to what is stored under its key, or one
change is counted and written.

## Main definitions

* `Store.Saves` — nothing happens, or one change is counted and written.
* `Machine.Sole` — nobody but the store of a tracker is about to write to the place of its key.

## Main results

* `Machine.Move.saves` — this is all that happens in a move.
* `Machine.Reachable.behind` — no store takes a version for stored that it has not come to.
-/

namespace TaskWatch

variable {α β σ κ : Type}

/-- Where a value is kept already, keeping it changes nothing. -/
theorem Dictionary.insert_of_find? {d : Dictionary α} {key : String} {value : α}
    (found : d.find? key = some value) : d.insert key value = d := by
  obtain ⟨entries, ascending⟩ := d
  have same : Entries.insert key value entries = entries := by
    have there : Entries.find? key entries = some value := found
    clear found
    induction entries with
    | nil => simp [Entries.find?] at there
    | cons head rest ih =>
      obtain ⟨k, v⟩ := head
      obtain ⟨below, tail⟩ := List.pairwise_cons.mp ascending
      rw [Entries.find?] at there
      rw [Entries.insert]
      split at there
      · next here =>
        rw [here, if_neg (String.lt_irrefl k), if_pos rfl, Option.some.inj there]
      · next other =>
        have later : k < key := below _ ((Entries.find?_eq_some_iff tail).mp there)
        rw [if_neg (String.lt_asymm later), if_neg other, ih tail there]
  rw [Dictionary.insert]
  congr

namespace Collection

variable {tasks : Collection} {task : Task} {id : TaskId} {patch : Patch}

theorem add_silent (exact_ : tasks.isExact = true) (silent : (tasks.add task).event = none) :
    (tasks.add task).tasks = tasks := by
  rw [add] at silent ⊢
  dsimp only at silent ⊢
  split at silent
  · next previous found =>
    split at silent
    · next same =>
      obtain rfl := Task.eq_of_beq (isExact_of_find? exact_ found) same
      exact Dictionary.insert_of_find? found
    · simp at silent
  · simp at silent

theorem update_silent (silent : (tasks.update id patch).event = none) :
    (tasks.update id patch).tasks = tasks := by
  obtain ⟨_, ended⟩ | ⟨_, _, ⟨_, _, ended⟩ | ⟨_, _, ended⟩ | ⟨_, _, ended⟩⟩ :=
    tasks.update_cases id patch
  · rw [ended]
  · rw [ended]
  · rw [ended]
  · simp [ended] at silent

theorem remove_silent (silent : (tasks.remove id).event = none) : (tasks.remove id).tasks = tasks := by
  rw [remove] at silent ⊢
  split at silent
  · rfl
  · simp at silent

theorem clearTerminal_silent (silent : tasks.clearTerminal.event = none) :
    tasks.clearTerminal.tasks = tasks := by
  rw [clearTerminal] at silent ⊢
  split at silent
  · rfl
  · simp at silent

end Collection

/-! ### Stores -/

namespace Store

/-- What may become of a store and of a storage: the collection and what is stored under its key
stay as they are, or a change is counted and the collection is written. -/
inductive Saves (s : Store α) (storage : Storage) (s' : Store α) (storage' : Storage) : Prop
  | still (listeners) (store : s' = { s with listeners }) (keeps : storage.Keeps storage' s.key)
  | commits (tasks listeners)
      (store : s' =
        { s with
          tasks
          listeners
          version := s.version + 1
          persisted := if (storage.write s.key tasks.encode).2.isOk then s.version + 1
            else s.persisted })
      (written : storage' = (storage.write s.key tasks.encode).1)

variable {s : Store α} {storage : Storage} {m : Mutation β}

theorem apply_silent (silent : m.event = none) :
    s.apply storage m = ({ s with tasks := m.tasks }, storage) := by
  rw [apply, silent]

theorem apply_reported {event : StoreEvent} (reported : m.event = some event)
    (behind : s.persisted ≤ s.version) :
    s.apply storage m =
      ({ s with
          tasks := m.tasks
          version := s.version + 1
          persisted := if (storage.write s.key m.tasks.encode).2.isOk then s.version + 1
            else s.persisted },
        (storage.write s.key m.tasks.encode).1) := by
  rw [apply, reported]
  dsimp only
  rw [commit, persist, if_neg (Nat.not_le.mpr (Nat.lt_succ_of_le behind))]
  dsimp only
  split
  · next written => rw [written]; rfl
  · next written => rw [written]; rfl

/-- A store never takes a version for stored that it has not come to. -/
theorem behind_apply (behind : s.persisted ≤ s.version) :
    (s.apply storage m).1.persisted ≤ (s.apply storage m).1.version := by
  cases reported : m.event with
  | none =>
    rw [apply_silent reported]
    exact behind
  | some event =>
    rw [apply_reported reported behind]
    dsimp only
    split
    · exact Nat.le_refl _
    · exact Nat.le_succ_of_le behind

theorem storage_apply (s : Store α) (storage : Storage) (m : Mutation β) :
    (s.apply storage m).2 = storage ∨
      (s.apply storage m).2 = (storage.write s.key m.tasks.encode).1 := by
  rw [apply]
  split
  · exact .inl rfl
  · rw [commit, persist]
    split
    · exact .inl rfl
    · right
      dsimp only
      split
      · next written => rw [written]
      · next written => rw [written]

theorem saves_apply (behind : s.persisted ≤ s.version) (silent : m.event = none → m.tasks = s.tasks) :
    Saves s storage (s.apply storage m).1 (s.apply storage m).2 := by
  cases reported : m.event with
  | none =>
    rw [apply_silent reported, silent reported]
    exact .still _ rfl ⟨rfl, id⟩
  | some event =>
    rw [apply_reported reported behind]
    exact .commits m.tasks _ rfl rfl

/-- Who listens does not matter. -/
theorem Saves.of_listeners {listeners : Registry α} {s' : Store α} {storage' : Storage}
    (saves : Saves { s with listeners } storage s' storage') : Saves s storage s' storage' := by
  cases saves with
  | still listeners store keeps => exact .still listeners store keeps
  | commits tasks listeners store written => exact .commits tasks listeners store written

end Store

/-! ### Deeds -/

namespace World

variable {w w' : World κ} {d : Deed κ} {k : Nat}

/-- A tracker that was never opened has no records. -/
theorem tracker_outside {n : Nat} (outside : w.trackers.length ≤ n) : w.tracker n = default := by
  rw [tracker, List.getD_eq_getElem?_getD, List.getElem?_eq_none outside]
  rfl

private theorem saves_still (store : (w'.tracker k).store = (w.tracker k).store)
    (keeps : w.storage.Keeps w'.storage (w.tracker k).store.key) :
    Store.Saves (w.tracker k).store w.storage (w'.tracker k).store w'.storage :=
  .still _ store keeps

private theorem saves_mutate (number : Nat) (m : Mutation β) (inside : k < w.trackers.length)
    (behind : (w.tracker k).store.persisted ≤ (w.tracker k).store.version)
    (silent : number = k → m.event = none → m.tasks = (w.tracker k).store.tasks)
    (apart : number ≠ k → m.event = none ∨
      ¬w.storage.Aliases (w.tracker number).store.key (w.tracker k).store.key) :
    Store.Saves (w.tracker k).store w.storage ((w.mutate number m).tracker k).store
      (w.mutate number m).storage := by
  have storage : (w.mutate number m).storage = ((w.tracker number).store.apply w.storage m).2 := rfl
  by_cases here : number = k
  · subst here
    rw [tracker_mutate, if_pos ⟨rfl, inside⟩, storage]
    exact Store.saves_apply behind (silent rfl)
  · have store : ((w.mutate number m).tracker k).store = (w.tracker k).store := by
      rw [tracker_mutate, if_neg fun both => here both.1]
    refine saves_still store ?_
    rw [storage]
    rcases apart here with quiet | other
    · rw [Store.apply_silent quiet]
      exact ⟨rfl, id⟩
    · rcases Store.storage_apply (w.tracker number).store w.storage m with same | written
      · rw [same]
        exact ⟨rfl, id⟩
      · rw [written]
        exact Storage.keeps_write _ other

/-- What a deed does to the store of a tracker, if no other tracker has the place of its key. -/
theorem saves_after (inside : k < w.trackers.length)
    (behind : (w.tracker k).store.persisted ≤ (w.tracker k).store.version)
    (exact_ : (w.tracker k).store.tasks.isExact = true)
    (others : ∀ n ≠ k, n < w.trackers.length →
      ¬w.storage.Aliases (w.tracker n).store.key (w.tracker k).store.key)
    (added : ∀ n task, d = .kept n task → n < w.trackers.length)
    (seeded : ∀ key content, d = .seeded key content →
      ¬w.storage.Aliases key (w.tracker k).store.key) :
    Store.Saves (w.tracker k).store w.storage ((w.after d).tracker k).store (w.after d).storage := by
  -- On a tracker that was never opened there is nothing to change.
  have apart : ∀ {β : Type} (n : Nat) (change : Collection → Mutation β),
      (change .empty).event = none → n ≠ k → (change (w.tracker n).store.tasks).event = none ∨
        ¬w.storage.Aliases (w.tracker n).store.key (w.tracker k).store.key := by
    intro β n change none other
    by_cases opened : n < w.trackers.length
    · exact .inr (others n other opened)
    · rw [tracker_outside (Nat.le_of_not_lt opened)]
      exact .inl none
  have unchanged : ∀ (n : Nat) (f : Tracker κ → Tracker κ), (∀ t, (f t).store = t.store) →
      Store.Saves (w.tracker k).store w.storage ((w.modifyTracker n f).tracker k).store w.storage :=
    fun n f same => saves_still (w.proj_tracker_modifyTracker Tracker.store same n k) ⟨rfl, id⟩
  cases d with
  | nothing => exact saves_still rfl ⟨rfl, id⟩
  | paused entry => exact saves_still rfl ⟨rfl, id⟩
  | opened key cadence =>
    refine saves_still (congrArg Tracker.store ?_) ⟨rfl, id⟩
    rw [after, tracker_opened, if_neg (Nat.ne_of_lt inside)]
  | configured n settings => exact unchanged n _ fun _ => rfl
  | began n id => exact unchanged n _ fun _ => rfl
  | ended n id => exact unchanged n _ fun _ => rfl
  | seeded key content =>
    exact saves_still rfl (Storage.keeps_seed content (seeded key content rfl))
  | kept n task =>
    refine saves_mutate n _ inside behind ?_ fun other => .inr (others n other (added n task rfl))
    rintro rfl silent
    exact Collection.add_silent exact_ silent
  | patched n id patch =>
    refine saves_mutate n _ inside behind ?_ (apart n (·.update id patch) rfl)
    rintro rfl silent
    exact Collection.update_silent silent
  | dropped n id =>
    refine saves_mutate n _ inside behind ?_ (apart n (·.remove id) rfl)
    rintro rfl silent
    exact Collection.remove_silent silent
  | cleared n =>
    refine saves_mutate n _ inside behind ?_ (apart n Collection.clearTerminal rfl)
    rintro rfl silent
    exact Collection.clearTerminal_silent silent

/-- No store takes a version for stored that it has not come to. -/
def Behind (w : World κ) : Prop :=
  ∀ k, (w.tracker k).store.persisted ≤ (w.tracker k).store.version

theorem Behind.after (behind : w.Behind) (d : Deed κ) : (w.after d).Behind := by
  intro k
  have mutated : ∀ {β : Type} (n : Nat) (m : Mutation β),
      ((w.mutate n m).tracker k).store.persisted ≤ ((w.mutate n m).tracker k).store.version := by
    intro β n m
    rw [tracker_mutate]
    split
    · exact Store.behind_apply (behind n)
    · exact behind k
  have unchanged : ∀ (n : Nat) (f : Tracker κ → Tracker κ), (∀ t, (f t).store = t.store) →
      ((w.modifyTracker n f).tracker k).store.persisted ≤
        ((w.modifyTracker n f).tracker k).store.version := by
    intro n f same
    have store : ((w.modifyTracker n f).tracker k).store = (w.tracker k).store :=
      w.proj_tracker_modifyTracker Tracker.store same n k
    rw [store]
    exact behind k
  cases d with
  | nothing => exact behind k
  | paused entry => exact behind k
  | seeded key content => exact behind k
  | opened key cadence =>
    rw [World.after, tracker_opened]
    split
    · exact Nat.le_refl 0
    · exact behind k
  | configured n settings => exact unchanged n _ fun _ => rfl
  | began n id => exact unchanged n _ fun _ => rfl
  | ended n id => exact unchanged n _ fun _ => rfl
  | kept n task => exact mutated n _
  | patched n id patch => exact mutated n _
  | dropped n id => exact mutated n _
  | cleared n => exact mutated n _

end World

/-! ### Moves -/

namespace Machine

variable {c : Consumer σ κ} {given : Code σ κ → Prop} {m m' : Machine σ κ} {k : Nat}

/-- Nobody but the store of a tracker is about to write to the place of its key: the keys of other
trackers have other places, records are added to trackers that have been opened, and nothing is put
there behind everyone's back. -/
structure Sole (k : Nat) (m : Machine σ κ) : Prop where
  others : ∀ n ≠ k, n < m.world.trackers.length →
    ¬m.world.storage.Aliases (m.tracker n).store.key (m.tracker k).store.key
  adds : ∀ n id, m.Adds n id → n < m.world.trackers.length
  seeds : ∀ key content next, m.control = .code (.call (.seed key content) next) →
    ¬m.world.storage.Aliases key (m.tracker k).store.key

theorem seeds_of_warrant {key : String} (seeds : m.warrant.seeds key) :
    ∃ content next, m.control = .code (.call (.seed key content) next) := by
  obtain ⟨memory, world, control, stack⟩ := m
  cases control with
  | code p =>
    cases p with
    | call request next =>
      cases request with
      | seed other content =>
        obtain rfl : other = key := seeds
        exact ⟨content, next, rfl⟩
      | _ => exact seeds.elim
    | _ => exact seeds.elim
  | returned r =>
    cases stack with
    | nil => exact seeds.elim
    | cons f rest => cases f <;> exact seeds.elim
  | unwinding =>
    cases stack with
    | nil => exact seeds.elim
    | cons f rest => cases f <;> exact seeds.elim
  | _ => exact seeds.elim

theorem Move.behind (move : Move c given m m') (behind : m.world.Behind) : m'.world.Behind := by
  obtain ⟨w, w', d, trackers, _, trackers', _, ⟨w₁, near, rfl, _⟩, _⟩ := move.backed
  have before : w₁.Behind := fun k => by
    obtain ⟨listeners, store⟩ := near.stores k
    rw [store, World.tracker, trackers]
    exact behind k
  intro k
  rw [World.tracker, ← trackers']
  exact before.after d k

/-- No store takes a version for stored that it has not come to. -/
theorem Reachable.behind (reach : Reachable c m) : m.world.Behind :=
  reach.induction (fun _ _ _ _ _ => Nat.le_refl 0) fun _ _ behind move => move.behind behind

/-- In a move nothing happens to a store and what is stored under its key, or one change is counted
and written. -/
theorem Move.saves (move : Move c given m m') (inside : k < m.world.trackers.length)
    (behind : m.world.Behind) (exact_ : (m.tracker k).store.tasks.isExact = true) (sole : m.Sole k) :
    Store.Saves (m.tracker k).store m.world.storage (m'.tracker k).store m'.world.storage := by
  obtain ⟨w, w', d, trackers, storage, trackers', storage', ⟨w₁, near, rfl, _⟩, backs⟩ := move.backed
  have tracker : ∀ n, w.tracker n = m.tracker n := fun n => by
    rw [Machine.tracker, World.tracker, World.tracker, trackers]
  have stores : ∀ n, ∃ listeners, (w₁.tracker n).store = { (m.tracker n).store with listeners } :=
    fun n => tracker n ▸ near.stores n
  have keys : ∀ n, (w₁.tracker n).store.key = (m.tracker n).store.key := fun n => by
    obtain ⟨listeners, store⟩ := stores n
    rw [store]
  have kept : w₁.storage = m.world.storage := near.storage.trans storage
  have count : w₁.trackers.length = m.world.trackers.length := by rw [near.count, trackers]
  obtain ⟨listeners, store⟩ := stores k
  have saves : Store.Saves (w₁.tracker k).store w₁.storage ((w₁.after d).tracker k).store
      (w₁.after d).storage := by
    refine World.saves_after (count ▸ inside) ?_ ?_ (fun n other opened => ?_) ?_ ?_
    · rw [store]
      exact behind k
    · rw [store]
      exact exact_
    · rw [keys, keys, kept]
      exact sole.others n other (count ▸ opened)
    · rintro n task rfl
      exact count ▸ sole.adds n task.id (adds_of_warrant backs)
    · rintro key content rfl
      obtain ⟨_, _, control⟩ := seeds_of_warrant backs
      rw [keys, kept]
      exact sole.seeds key _ _ control
  have after : (m'.tracker k).store = ((w₁.after d).tracker k).store := by
    rw [Machine.tracker, World.tracker, World.tracker, trackers']
  rw [after, ← storage', ← kept]
  exact (store ▸ saves).of_listeners

end Machine

end TaskWatch
