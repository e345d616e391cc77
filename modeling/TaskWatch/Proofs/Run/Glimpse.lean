import TaskWatch.Proofs.Run.Path

/-!
# What can be seen of a task

Of everything that happens in a run, some concerns one task: callbacks are called for it, its fetcher
is asked, listeners are told of it, and its record changes. In the order in which this happens, and
with the times, it makes up what can be seen of the task. A notice that a whole list of records has
been deleted counts for each of them.

## Main definitions

* `Happening`, `Glimpse` — what can be seen, and when.
* `Machine.shown`, `World.change` — what can be seen in a state, and between two states.
* `Machine.glimpses` — what can be seen along a run.

## Main results

* `Machine.Run.record_eq_latest` — what can be seen tells the record of the task at every time.
-/

namespace TaskWatch

variable {σ κ : Type}

/-- The task that a callback is called for, or that a fetcher works for. What is left of a request
after its session has ended is for nobody. -/
def Occasion.subject? : Occasion → Option TaskId
  | statusChanged id _ | completed id _ | failed id _ | fetchFailed id _ | stopped id _ => some id
  | fetching request _ => some request.id
  | notice _ | viewChanged | fetchDropped _ | offered _ => none

/-- What a notice says of a task. -/
def Notice.of (n : Notice) (id : TaskId) : List Notice :=
  match n with
  | store (.cleared ids) => if id ∈ ids then [store (.cleared [id])] else []
  | store event => if event.affects id then [store event] else []
  | session event => if event.taskId = id then [session event] else []

/-- Something that can be seen of a task. -/
inductive Happening (κ : Type) where
  /-- A callback is called for the task, or its fetcher is asked. -/
  | calls (label : κ) (occasion : Occasion)
  /-- Listeners are told of the task. -/
  | tells (n : Notice)
  /-- From now on this is its record. -/
  | keeps (record : Option Task)

/-- Something that can be seen of a task at a time. -/
structure Glimpse (κ : Type) where
  time : Nat
  what : Happening κ

/-- The record that has been seen last. -/
def Glimpse.latest (first : Option Task) (seen : List (Glimpse κ)) : Option Task :=
  seen.foldl (fun before g => match g.what with
    | .keeps record => record
    | _ => before) first

theorem Glimpse.latest_append (first : Option Task) (seen more : List (Glimpse κ)) :
    latest first (seen ++ more) = latest (latest first seen) more :=
  List.foldl_append

namespace World

/-- The record of a task. -/
def record (w : World κ) (number : Nat) (id : TaskId) : Option Task :=
  (w.tracker number).store.tasks.find? id

open Classical in
/-- The change of a record between two worlds. -/
noncomputable def change (number : Nat) (id : TaskId) (w w' : World κ) : List (Glimpse κ) :=
  if w'.record number id = w.record number id then []
  else [⟨w'.clock, .keeps (w'.record number id)⟩]

theorem change_of_eq {number : Nat} {id : TaskId} {w w' : World κ}
    (same : w'.record number id = w.record number id) : change number id w w' = [] :=
  if_pos same

theorem latest_change (number : Nat) (id : TaskId) (w w' : World κ) :
    Glimpse.latest (w.record number id) (change number id w w') = w'.record number id := by
  rw [change]
  split
  · next same => exact same.symm
  · rfl

end World

/-- What can be seen of a task when something is about to be done. -/
def Control.shows (id : TaskId) : Control σ κ → List (Happening κ)
  | .calling label occasion =>
    if occasion.subject? = some id then [.calls label occasion] else []
  | .telling _ n => (n.of id).map .tells
  | _ => []

namespace Machine

/-- What can be seen of a task in a state. -/
def shown (id : TaskId) (m : Machine σ κ) : List (Glimpse κ) :=
  (m.control.shows id).map (Glimpse.mk m.world.clock)

/-- No state by itself shows a change of a record. -/
theorem latest_shown (m : Machine σ κ) (record : Option Task) (id : TaskId) :
    Glimpse.latest record (m.shown id) = record := by
  rw [shown]
  cases m.control with
  | calling label occasion =>
    rw [Control.shows]
    split <;> rfl
  | telling number n =>
    rw [Control.shows, Glimpse.latest, List.map_map, List.foldl_map]
    exact List.foldl_fixed' (fun _ => rfl) _
  | _ => rfl

/-- What can be seen of a task along a run. -/
noncomputable def glimpses (number : Nat) (id : TaskId) :
    Machine σ κ → List (Machine σ κ) → List (Glimpse κ)
  | _, [] => []
  | m, m' :: rest =>
    m.shown id ++ World.change number id m.world m'.world ++ glimpses number id m' rest

variable {c : Consumer σ κ} {given : Code σ κ → Prop} {number : Nat} {id : TaskId}

/-- What is seen along one run after another. -/
theorem Run.glimpses_append {m m₁ : Machine σ κ} {first : List (Machine σ κ)}
    (run : Run c given m first m₁) (rest : List (Machine σ κ)) :
    glimpses number id m (first ++ rest) = glimpses number id m first ++ glimpses number id m₁ rest := by
  induction first generalizing m with
  | nil =>
    rcases run.uncons with ⟨_, rfl⟩ | ⟨_, _, begun, _⟩
    · rfl
    · simp at begun
  | cons m₂ first ih =>
    rcases run.uncons with ⟨none, _⟩ | ⟨m₂, _, begun, _, further⟩
    · simp at none
    · obtain ⟨rfl, rfl⟩ := List.cons.inj begun
      simp only [List.cons_append, glimpses, ih further, List.append_assoc]

theorem Path.glimpses_append {m m₁ : Machine σ κ} {first : List (Machine σ κ)}
    (path : Path c m first m₁) (rest : List (Machine σ κ)) :
    glimpses number id m (first ++ rest) = glimpses number id m first ++ glimpses number id m₁ rest :=
  (path.run : Run c (fun _ => True) m first m₁).glimpses_append rest

/-- The record of a task is the one that has been seen last. -/
theorem Run.record_eq_latest {m m' : Machine σ κ} {states : List (Machine σ κ)}
    (run : Run c given m states m') :
    m'.world.record number id =
      Glimpse.latest (m.world.record number id) (glimpses number id m states) := by
  induction states generalizing m with
  | nil =>
    rcases run.uncons with ⟨_, rfl⟩ | ⟨_, _, begun, _⟩
    · rfl
    · simp at begun
  | cons m₁ rest ih =>
    rcases run.uncons with ⟨none, _⟩ | ⟨_, _, begun, _, further⟩
    · simp at none
    · obtain ⟨rfl, rfl⟩ := List.cons.inj begun
      rw [ih further, glimpses, Glimpse.latest_append, Glimpse.latest_append, latest_shown,
        World.latest_change]

/-- Nothing is about to be done in a state without anything to do. -/
theorem shown_of_isIdle {m : Machine σ κ} (idle : m.isIdle = true) (id : TaskId) : m.shown id = [] := by
  rw [isIdle] at idle
  split at idle
  · next control => rw [shown, control]; rfl
  · next control => rw [shown, control]; rfl
  · simp at idle

end Machine

end TaskWatch
