import Mathlib.Data.List.Destutter
import TaskWatch.Proofs.Run.Warrant
import TaskWatch.Proofs.Run.Executor

/-!
# Records go forward

Many write to the record of a task: the consumer with patches of any kind, sessions with whatever
the backend answers, and callbacks and listeners in the middle of all this. Every one of them passes
the check of the lifecycle against the status that the record has at that moment. So between two
times at which a record is added for a task the status of its record goes forward only: it changes
along the edges of the lifecycle, twice at most, and never comes back. Once it is terminal it stays
as it is until the record is deleted or replaced.

## Main definitions

* `World.status?` — the status of the record of a task.
* `Status.Follows` — what may become of a record that is not replaced.
* `Machine.Deletes` — the record of a task is about to be deleted.

## Main results

* `World.Does.forward` — a deed takes records forward, unless it keeps a new one.
* `Machine.Move.forward` — so does a move; it deletes records only on behalf of a call.
* `Machine.status_goes_forward` — what becomes of the status of a task along a run.
-/

namespace TaskWatch

variable {σ κ : Type}

/-! ### Statuses -/

namespace Status

theorem mayBecome_iff {current next : Status} :
    current.mayBecome next = true ↔ next = current ∨ next ∈ current.successors := by
  rw [mayBecome, Bool.or_eq_true, beq_iff_eq, List.contains_iff_mem, eq_comm]

theorem mayBecome_refl (status : Status) : status.mayBecome status = true :=
  mayBecome_iff.mpr (.inl rfl)

theorem mayBecome_trans {a b d : Status} (first : a.mayBecome b = true)
    (second : b.mayBecome d = true) : a.mayBecome d = true := by
  cases a <;> cases b <;> cases d <;> first | rfl | exact first | exact second

theorem eq_of_mayBecome {a b : Status} (forth : a.mayBecome b = true)
    (back : b.mayBecome a = true) : a = b := by
  cases a <;> cases b <;> first | rfl | exact absurd forth (by decide) | exact absurd back (by decide)

theorem successors_of_isTerminal {status : Status} (terminal : status.isTerminal = true) :
    status.successors = [] := by
  cases status <;> first | rfl | exact absurd terminal (by decide)

/-- How far a job has come. -/
def rank : Status → Nat
  | queued => 0
  | processing => 1
  | completed | failed => 2

theorem rank_lt_of_mayBecome {a b : Status} (may : a.mayBecome b = true) (differ : a ≠ b) :
    a.rank < b.rank := by
  cases a <;> cases b <;> first | exact absurd rfl differ | exact absurd may (by decide) | decide

/-- What may become of the status of a record that is not replaced by a new one: it stays or changes
along an edge of the lifecycle, or the record is deleted and remains absent. -/
def Follows (before after : Option Status) : Prop :=
  ∀ next ∈ after, ∃ current ∈ before, next = current ∨ next ∈ current.successors

theorem Follows.trans {first second third : Option Status} (h : Follows first second)
    (h' : Follows second third) : Follows first third := by
  intro next after
  obtain ⟨middle, between, later⟩ := h' next after
  obtain ⟨current, before, earlier⟩ := h middle between
  exact ⟨current, before,
    mayBecome_iff.mp (mayBecome_trans (mayBecome_iff.mpr earlier) (mayBecome_iff.mpr later))⟩

instance : Trans Follows Follows Follows := ⟨Follows.trans⟩

/-- Statuses that follow each other go forward. -/
theorem pairwise_of_follows {statuses : List (Option Status)} (chain : statuses.IsChain Follows) :
    statuses.reduceOption.Pairwise fun a b => a.mayBecome b = true := by
  refine List.pairwise_filterMap.mpr (chain.pairwise.imp ?_)
  intro before after follows current present next found
  obtain ⟨status, same, step⟩ := follows next found
  rw [Option.some.inj (present.symm.trans same)]
  exact mayBecome_iff.mpr step

/-- A status that only goes forward changes twice at most and never comes back. -/
theorem destutter_forward {statuses : List Status}
    (forward : statuses.Pairwise fun a b => a.mayBecome b = true) :
    (statuses.destutter (· ≠ ·)).Nodup ∧ (statuses.destutter (· ≠ ·)).length ≤ 3 := by
  have differ := List.isChain_iff_getElem.mp (List.isChain_destutter (· ≠ ·) statuses)
  have forth := List.isChain_iff_getElem.mp
    (forward.sublist (List.destutter_sublist (R := (· ≠ ·)) statuses)).isChain
  have chain : (statuses.destutter (· ≠ ·)).IsChain fun a b => a.rank < b.rank :=
    List.isChain_iff_getElem.mpr fun i inside =>
      rank_lt_of_mayBecome (forth i inside) (differ i inside)
  have distinct : ((statuses.destutter (· ≠ ·)).map rank).Nodup :=
    ((List.isChain_map rank).mpr chain).pairwise.nodup
  have bounded : (statuses.destutter (· ≠ ·)).map rank ⊆ List.range 3 := by
    intro n mem
    obtain ⟨status, _, rfl⟩ := List.mem_map.mp mem
    cases status <;> decide
  refine ⟨distinct.of_map _, ?_⟩
  simpa using (List.subperm_of_subset distinct bounded).length_le

end Status

namespace Collection

/-- A patch that is not refused takes a record forward. -/
theorem mayBecome_of_refusal {current : Task} {patch : Patch}
    (allowed : refusal current patch = none) :
    current.status.mayBecome (current.patched patch).status = true := by
  cases status : patch.status with
  | none => simp [Task.patched, status, Status.mayBecome]
  | some next =>
    rw [refusal, status] at allowed
    rw [Task.patched, status]
    by_cases may : current.status.mayBecome next = true
    · exact may
    · simp [Status.check, may] at allowed

/-- An update takes records forward. -/
theorem mayBecome_of_find?_update {tasks : Collection} (keyed : tasks.Keyed) {id other : TaskId}
    {patch : Patch} {task : Task} (found : (tasks.update id patch).tasks.find? other = some task) :
    ∃ current, tasks.find? other = some current ∧
      current.status.mayBecome task.status = true := by
  rw [find?_update keyed] at found
  split at found
  · next changed =>
    obtain ⟨rfl, applied⟩ := changed
    obtain ⟨current, before, rfl⟩ := Option.map_eq_some_iff.mp found
    refine ⟨current, before, ?_⟩
    obtain ⟨absent, _⟩ | ⟨_, present, ⟨_, _, ended⟩ | ⟨allowed, _, _⟩ | ⟨allowed, _, _⟩⟩ :=
      tasks.update_cases other patch
    · simp [absent] at before
    · simp [ended] at applied
    · obtain rfl := Option.some.inj (before.symm.trans present)
      exact mayBecome_of_refusal allowed
    · obtain rfl := Option.some.inj (before.symm.trans present)
      exact mayBecome_of_refusal allowed
  · exact ⟨task, found, task.status.mayBecome_refl⟩

/-- An update deletes nothing. -/
theorem find?_update_eq_none {tasks : Collection} (keyed : tasks.Keyed) {id other : TaskId}
    {patch : Patch} (absent : (tasks.update id patch).tasks.find? other = none) :
    tasks.find? other = none := by
  rw [find?_update keyed] at absent
  split at absent
  · next changed => exact changed.1 ▸ Option.map_eq_none_iff.mp absent
  · exact absent

end Collection

/-! ### Deeds -/

namespace World

variable {w w' : World κ} {d : Deed κ} {k : Nat} {id : TaskId}

/-- The status of the record of a task, if there is a record. -/
def status? (w : World κ) (k : Nat) (id : TaskId) : Option Status :=
  ((w.tracker k).store.tasks.find? id).map Task.status

/-- A deed takes the record of a task forward, unless it keeps a new one. -/
theorem Does.forward (does : w.Does d w') (inside : k < w.trackers.length) (keyed : w.Keyed)
    (unadded : ∀ task, d = .kept k task → task.id ≠ id) {task : Task}
    (found : (w'.tracker k).store.tasks.find? id = some task) :
    ∃ current, (w.tracker k).store.tasks.find? id = some current ∧
      current.status.mayBecome task.status = true := by
  obtain ⟨w₁, near, rfl, -⟩ := does
  rw [← near.tasks]
  have keyed₁ : (w₁.tracker k).store.tasks.Keyed := near.tasks k ▸ keyed k
  have same : ∀ {found : Task}, (w₁.tracker k).store.tasks.find? id = some found →
      ∃ current, (w₁.tracker k).store.tasks.find? id = some current ∧
        current.status.mayBecome found.status = true :=
    fun present => ⟨_, present, Status.mayBecome_refl _⟩
  rw [tasks_after] at found
  split at found
  · rw [near.count, if_neg (Nat.ne_of_lt inside)] at found
    exact same found
  · next number new =>
    split at found
    · next here =>
      rw [Collection.find?_add, if_neg] at found
      · exact same found
      · exact fun equal => unadded new (here.1 ▸ rfl) equal.symm
    · exact same found
  · next number other patch =>
    split at found
    · exact Collection.mayBecome_of_find?_update keyed₁ found
    · exact same found
  · next number other =>
    split at found
    · rw [Collection.find?_remove] at found
      split at found
      · simp at found
      · exact same found
    · exact same found
  · next number =>
    split at found
    · rw [Collection.find?_clearTerminal, Option.filter_eq_some_iff] at found
      exact same found.1
    · exact same found
  · exact same found

/-- A deed that deletes no record leaves one for every task that has one. -/
theorem Does.absent (does : w.Does d w') (inside : k < w.trackers.length) (keyed : w.Keyed)
    (undropped : d ≠ .dropped k id) (uncleared : d ≠ .cleared k)
    (absent : (w'.tracker k).store.tasks.find? id = none) :
    (w.tracker k).store.tasks.find? id = none := by
  obtain ⟨w₁, near, rfl, -⟩ := does
  rw [← near.tasks]
  have keyed₁ : (w₁.tracker k).store.tasks.Keyed := near.tasks k ▸ keyed k
  rw [tasks_after] at absent
  split at absent
  · rwa [near.count, if_neg (Nat.ne_of_lt inside)] at absent
  · split at absent
    · rw [Collection.find?_add] at absent
      split at absent
      · simp at absent
      · exact absent
    · exact absent
  · split at absent
    · exact Collection.find?_update_eq_none keyed₁ absent
    · exact absent
  · next number other =>
    split at absent
    · next here =>
      rw [Collection.find?_remove, if_neg] at absent
      · exact absent
      · rintro rfl
        exact undropped (here.1 ▸ rfl)
    · exact absent
  · next number =>
    split at absent
    · next here => exact absurd (here.1 ▸ rfl) uncleared
    · exact absent
  · exact absent

theorem Does.follows (does : w.Does d w') (inside : k < w.trackers.length) (keyed : w.Keyed)
    (unadded : ∀ task, d = .kept k task → task.id ≠ id) :
    Status.Follows (w.status? k id) (w'.status? k id) := by
  intro next after
  obtain ⟨task, found, rfl⟩ := Option.map_eq_some_iff.mp after
  obtain ⟨current, before, may⟩ := does.forward inside keyed unadded found
  exact ⟨current.status, Option.map_eq_some_iff.mpr ⟨current, before, rfl⟩,
    Status.mayBecome_iff.mp may⟩

end World

/-! ### Moves -/

namespace Machine

variable {c : Consumer σ κ} {given : Code σ κ → Prop} {m m' m₀ : Machine σ κ} {k : Nat} {id : TaskId}

/-- The record of a task is about to be deleted: by a call of the consumer, with all terminal
records, or because its task is forgotten. -/
inductive Deletes (m : Machine σ κ) (k : Nat) (id : TaskId) : Prop
  | removed {next} (control : m.control = .code (.call (.remove k id) next))
  | cleared {next} (control : m.control = .code (.call (.clearTerminal k) next))
  | forgotten {r rest} (control : m.control = .returned r)
      (stack : m.stack = .forgetting k id :: rest)

theorem deletes_of_warrant (deletes : m.warrant.removes k id ∨ m.warrant.clears k) :
    m.Deletes k id := by
  obtain ⟨memory, world, control, stack⟩ := m
  have nothing : ∀ {P : Prop}, False ∨ False → P := fun neither => (or_self_iff.mp neither).elim
  cases control with
  | code p =>
    cases p with
    | call request next =>
      cases request with
      | remove number other =>
        obtain ⟨rfl, rfl⟩ := deletes.resolve_right not_false
        exact .removed rfl
      | clearTerminal number =>
        obtain rfl := deletes.resolve_left not_false
        exact .cleared rfl
      | _ => exact nothing deletes
    | _ => exact nothing deletes
  | returned r =>
    cases stack with
    | nil => exact nothing deletes
    | cons f rest =>
      cases f with
      | forgetting number other =>
        obtain ⟨rfl, rfl⟩ := deletes.resolve_right not_false
        exact .forgotten rfl rfl
      | _ => exact nothing deletes
  | unwinding =>
    cases stack with
    | nil => exact nothing deletes
    | cons f rest => cases f <;> exact nothing deletes
  | _ => exact nothing deletes

/-- What may become of the status of a task in a move in which no record is added for it; and its
record is deleted only on behalf of a call. -/
structure GoesForward (k : Nat) (id : TaskId) (m m' : Machine σ κ) : Prop where
  follows : Status.Follows (m.world.status? k id) (m'.world.status? k id)
  absent : m'.world.status? k id = none → m.world.status? k id = none ∨ m.Deletes k id

/-- In a move in which no record is added for a task, its record goes forward. -/
theorem Move.forward (move : Move c given m m') (sound : m.Sound)
    (inside : k < m.world.trackers.length) (unadded : ¬ m.Adds k id) : GoesForward k id m m' := by
  obtain ⟨w, w', d, trackers, _, trackers', _, does, backs⟩ := move.backed
  have tracker : ∀ n, w.tracker n = m.world.tracker n := fun n => by
    rw [World.tracker, World.tracker, trackers]
  have before : w.status? k id = m.world.status? k id := by
    rw [World.status?, World.status?, tracker]
  have after : w'.status? k id = m'.world.status? k id := by
    rw [World.status?, World.status?, World.tracker, World.tracker, trackers']
  have inside_ : k < w.trackers.length := trackers ▸ inside
  have keyed : w.Keyed := fun n => by
    rw [tracker]
    exact sound.keyed n
  refine ⟨before ▸ after ▸ does.follows inside_ keyed ?_, fun absent => ?_⟩
  · rintro task rfl rfl
    exact unadded (adds_of_warrant backs)
  · by_cases deleted : m.Deletes k id
    · exact .inr deleted
    · rw [← after] at absent
      rw [← before]
      refine .inl (Option.map_eq_none_iff.mpr (does.absent inside_ keyed ?_ ?_
        (Option.map_eq_none_iff.mp absent)))
      · rintro rfl
        exact deleted (deletes_of_warrant (.inl backs))
      · rintro rfl
        exact deleted (deletes_of_warrant (.inr backs))

/-! ### Runs -/

theorem Run.follows {states : List (Machine σ κ)} (run : Run c given m₀ states m)
    (reach : Reachable c m₀) (inside : k < m₀.world.trackers.length)
    (alone : ∀ m₁ ∈ (m₀ :: states).dropLast, ¬ m₁.Adds k id) :
    k < m.world.trackers.length ∧
      ((m₀ :: states).map fun m => m.world.status? k id).IsChain Status.Follows := by
  induction run with
  | start => exact ⟨inside, List.isChain_singleton _⟩
  | @move states m₁ m₂ run next ih =>
    have before : ∀ m₁ ∈ m₀ :: states, ¬ m₁.Adds k id := by
      rwa [← List.cons_append, List.dropLast_concat] at alone
    obtain ⟨inside₁, chain⟩ := ih fun m₁ mem => before m₁ (List.dropLast_subset _ mem)
    refine ⟨next.inside inside₁, ?_⟩
    rw [← List.cons_append, List.map_append, List.isChain_append]
    refine ⟨chain, List.isChain_singleton _, fun last mem first same => ?_⟩
    have forward := next.forward (reach.run run).sound inside₁ (before m₁ run.mem_cons)
    obtain rfl : m₂.world.status? k id = first := Option.some.inj same
    obtain rfl : m₁.world.status? k id = last := by
      rw [List.getLast?_map, run.getLast?_cons] at mem
      exact Option.some.inj mem
    exact forward.follows

/-- What may become of the record of a task along a run in which none is added for it. -/
theorem Run.follows_last {states : List (Machine σ κ)} (run : Run c given m₀ states m)
    (reach : Reachable c m₀) (inside : k < m₀.world.trackers.length)
    (alone : ∀ m₁ ∈ (m₀ :: states).dropLast, ¬ m₁.Adds k id) :
    Status.Follows (m₀.world.status? k id) (m.world.status? k id) := by
  have chain := (run.follows reach inside alone).2.pairwise
  rcases List.mem_cons.mp run.mem_cons with rfl | later
  · exact fun status found => ⟨status, found, .inl rfl⟩
  · exact (List.pairwise_cons.mp chain).1 _ (List.mem_map_of_mem later)

/-- As long as no record is added for a task, the status of its record changes only along the edges
of the lifecycle: it changes twice at most and never comes back, and a record that has been deleted
remains absent. A record that has a terminal status keeps it in every move, unless the consumer adds
a record for the task or deletes this one. -/
theorem status_goes_forward {states : List (Machine σ κ)} (reach : Reachable c m₀)
    (run : Run c given m₀ states m) (inside : k < m₀.world.trackers.length)
    (alone : ∀ m₁ ∈ (m₀ :: states).dropLast, ¬ m₁.Adds k id) :
    ((m₀ :: states).map fun m => m.world.status? k id).IsChain Status.Follows ∧
      (((m₀ :: states).map fun m => m.world.status? k id).reduceOption.destutter (· ≠ ·)).Nodup ∧
      (((m₀ :: states).map fun m => m.world.status? k id).reduceOption.destutter (· ≠ ·)).length ≤ 3 ∧
      ∀ status ∈ m.world.status? k id, status.isTerminal = true → ∀ m', Move c given m m' →
        m'.world.status? k id = some status ∨ m.Adds k id ∨ m.Deletes k id := by
  obtain ⟨inside', chain⟩ := run.follows reach inside alone
  obtain ⟨distinct, short⟩ := Status.destutter_forward (Status.pairwise_of_follows chain)
  refine ⟨chain, distinct, short, fun status has terminal m' next => ?_⟩
  by_cases adds : m.Adds k id
  · exact .inr (.inl adds)
  have forward := next.forward (reach.run run).sound inside' adds
  cases after : m'.world.status? k id with
  | none =>
    refine .inr (.inr ((forward.absent after).resolve_left fun none => ?_))
    exact absurd (none.symm.trans has) (Option.some_ne_none status).symm
  | some later =>
    left
    obtain ⟨current, before, same | step⟩ := forward.follows later after
    · rw [same, Option.some.inj (before.symm.trans has)]
    · rw [Option.some.inj (before.symm.trans has), Status.successors_of_isTerminal terminal] at step
      exact absurd step List.not_mem_nil

/-- A consumer whose jobs are done at once. -/
def finisher : Consumer Unit Nat where
  react _ _ := .done
  proceed _ _ _ _ := .answer (.ok { status := .completed })
  supply _ _ _ := none

/-- A job has been tracked. -/
def booked : Machine Unit Nat :=
  (idle () (.blank .inMemory 0 true)).call finisher <|
    .call (.openTracker "tasks" .default) fun _ =>
    .call (.track 0 { id := "a", kind := .analysis } 0) fun _ => .done

/-- Its session gets a turn. -/
def served : Machine Unit Nat :=
  (booked.withWorld { booked.world with suspended := [] ++ [] }).wake
    ⟨{ tracker := 0, id := "a", serial := 1, fetcher := 0 }, .fresh⟩

/-- The status of this job goes from one end to the other, and there it stays. -/
theorem status_goes_forward_finished :
    (stepTimes finisher 4 served).world.status? 0 "a" = some .completed ∧
      ((booked :: ([served] ++ trail finisher 4 served)).map fun m =>
        m.world.status? 0 "a").reduceOption.destutter (· ≠ ·) = [.queued, .completed] ∧
      ∀ m', Move finisher (fun _ => True) (stepTimes finisher 4 served) m' →
        m'.world.status? 0 "a" = some .completed ∨ (stepTimes finisher 4 served).Adds 0 "a" ∨
          (stepTimes finisher 4 served).Deletes 0 "a" := by
  have reach : Reachable finisher booked := ⟨(), .inMemory, 0, true, call_leads trivial⟩
  have wakes : Move finisher (fun _ => True) booked served := .wake rfl rfl (by decide +kernel)
  have run : Run finisher (fun _ => True) booked ([served] ++ trail finisher 4 served)
      (stepTimes finisher 4 served) :=
    (Run.start.move wakes).append (run_steps (by decide +kernel))
  have quiet : ∀ m ∈ (booked :: ([served] ++ trail finisher 4 served)).dropLast,
      m.isCalling = false := by decide +kernel
  have alone : ∀ m ∈ (booked :: ([served] ++ trail finisher 4 served)).dropLast,
      ¬ m.Adds 0 "a" := fun m mem => not_adds (quiet m mem)
  have completed : (stepTimes finisher 4 served).world.status? 0 "a" = some .completed := by
    decide +kernel
  obtain ⟨_, _, _, final⟩ := status_goes_forward (k := 0) reach run (by decide +kernel) alone
  exact ⟨completed, by decide +kernel, final .completed completed rfl⟩

end Machine

end TaskWatch
