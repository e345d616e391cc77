import TaskWatch.Proofs.Session.Passing
import TaskWatch.Proofs.Store.Veiled

/-!
# Tasks do not disturb one another

All tasks of a tracker share its collection, its settings, its listeners, its count of serial numbers
and the executor. Still, each of them goes through a script by itself: what is seen of a task, with
the times, is what is seen of it when all calls that concern other tasks are left out.

## Main definitions

* `Directive.subject?`, `purge` — a script without the calls that concern other tasks.
* `Facet.Lives` — a task goes through a script by itself.

## Main results

* `Machine.Conducts.lives` — every task goes through a script as it does by itself.
* `Machine.purge_invisible` — no task notices that the calls that concern others are left out.
-/

namespace TaskWatch

variable {σ κ : Type}

/-- The task that something concerns, if it concerns a single one. -/
def Directive.subject? : Directive κ → Option TaskId
  | call request => request.subject?
  | pass _ => none

/-- A script without the calls that concern other tasks than one. -/
def purge (id : TaskId) (script : List (Directive κ)) : List (Directive κ) :=
  script.filter fun directive => directive.subject?.all (· = id)

/-- A task goes through a script by itself. -/
inductive Facet.Lives (b : Backend κ) (id : TaskId) :
    Facet κ → List (Directive κ) → List (Glimpse κ) → Facet κ → Prop
  /-- There is nothing more to do. -/
  | finished (F : Facet κ) : Lives b id F [] [] F
  /-- A call is made. -/
  | call {F F' : Facet κ} {request : Call κ} {script : List (Directive κ)} {seen : List (Glimpse κ)}
      (rest : Lives b id (F.called b id request).1 script seen F') :
      Lives b id F (.call request :: script) ((F.called b id request).2 ++ seen) F'
  /-- Time passes. -/
  | pass {F F₁ F' : Facet κ} {millis : Nat} {script : List (Directive κ)}
      {first seen : List (Glimpse κ)} (passes : F.Passes b id (F.clock + millis) first F₁)
      (quiet : F₁.IsQuiet) (rest : Lives b id F₁ script seen F') :
      Lives b id F (.pass millis :: script) (first ++ seen) F'

namespace Facet.Lives

variable {b : Backend κ} {id : TaskId} {F F' F'' : Facet κ} {script : List (Directive κ)}
  {seen seen' : List (Glimpse κ)}

/-- What a script does to a task is determined. -/
theorem unique (lives : F.Lives b id script seen F') (lives' : F.Lives b id script seen' F'') :
    seen' = seen ∧ F'' = F' := by
  induction lives generalizing seen' F'' with
  | finished => cases lives' with
    | finished => exact ⟨rfl, rfl⟩
  | call _ ih => cases lives' with
    | call rest =>
      obtain ⟨rfl, rfl⟩ := ih rest
      exact ⟨rfl, rfl⟩
  | pass passes quiet _ ih => cases lives' with
    | pass passes' quiet' rest =>
      obtain ⟨rfl, rfl⟩ := passes.unique quiet passes' quiet'
      obtain ⟨rfl, rfl⟩ := ih rest
      exact ⟨rfl, rfl⟩

/-- Calls that concern other tasks make no difference. -/
theorem purge (lives : F.Lives b id script seen F') : F.Lives b id (purge id script) seen F' := by
  induction lives with
  | finished F => exact .finished F
  | @call F F' request script seen _ ih =>
    rw [TaskWatch.purge, List.filter_cons]
    split
    · exact .call ih
    · next elsewhere =>
      -- The call that is left out does nothing to the task.
      cases concerns : request.subject? with
      | none => simp [Directive.subject?, concerns] at elsewhere
      | some other =>
        have apart : other ≠ id := by simpa [Directive.subject?, concerns] using elsewhere
        rw [F.called_of_elsewhere b id concerns apart] at ih ⊢
        exact ih
  | pass passes quiet _ ih => exact .pass passes quiet ih

end Facet.Lives

/-! ### Trackers that have just been opened -/

/-- What a tracker that has just been opened shows of a task. -/
def Facet.opened (storage : Storage) (key : String) (cadence : Cadence) (id : TaskId) : Facet κ where
  clock := 0
  settings := { cadence }
  record := (Collection.hydrate storage key).find? id
  session := none

namespace Machine

variable {c : Consumer σ κ} {b : Backend κ} {number : Nat} {m m' : Machine σ κ}
  {script : List (Directive κ)} {states : List (Machine σ κ)} {id : TaskId} {F : Facet κ}

section Opened

variable (memory : σ) (storage : Storage) (key : String) (cadence : Cadence) (wallClock : Nat)

private theorem tracker_opened (hasExecutor : Bool) (k : Nat) :
    (opened memory storage key cadence wallClock hasExecutor : Machine σ κ).world.tracker k =
      if k = 0 then .ofStorage storage key cadence else default := by
  cases k <;> rfl

private theorem opened_not_lives (hasExecutor : Bool) (S : SessionName) :
    ¬ (opened memory storage key cadence wallClock hasExecutor : Machine σ κ).world.lives S = true := by
  rw [World.lives_iff, tracker_opened]
  split <;> exact nofun

theorem opened_shows (hasExecutor : Bool) (id : TaskId) :
    (opened memory storage key cadence wallClock hasExecutor : Machine σ κ).world.Shows 0 id
      (.opened storage key cadence id) :=
  ⟨⟨rfl, rfl, rfl⟩, rfl⟩

theorem opened_settled :
    (opened memory storage key cadence wallClock true : Machine σ κ).world.Settled 0 where
  inside := Nat.one_pos
  keyed k := by
    rw [tracker_opened]
    split
    · exact Collection.keyed_hydrate storage key
    · exact Collection.keyed_empty
  executor := rfl
  below _ mem := absurd mem List.not_mem_nil
  given S lives := absurd lives (opened_not_lives memory storage key cadence wallClock true S)
  sole S lives := absurd lives (opened_not_lives memory storage key cadence wallClock true S)
  shown id := ⟨_, opened_shows memory storage key cadence wallClock true id⟩

end Opened

/-- Every task goes through a script as it does by itself. -/
theorem Conducts.lives (obeys : c.Obeys b) (conducts : Conducts c m script states m')
    (idle : m.isIdle = true) (settled : m.world.Settled number)
    (on : ∀ request, .call request ∈ script → request.IsOn number) (shows : m.world.Shows number id F) :
    ∃ F', m'.world.Shows number id F' ∧ F.Lives b id script (glimpses number id m states) F' := by
  induction script generalizing m states F with
  | nil =>
    cases conducts
    exact ⟨F, shows, .finished F⟩
  | cons directive script ih =>
    have on' : ∀ request, .call request ∈ script → request.IsOn number := fun request mem =>
      on request (List.mem_cons_of_mem _ mem)
    cases directive with
    | call request =>
      obtain ⟨first, m₁, rest, rfl, further, idle₁, run, unfolds⟩ :=
        conducts.uncons_call obeys idle settled (on request List.mem_cons_self)
      obtain ⟨shows₁, seen⟩ := unfolds.shows id F shows
      obtain ⟨F', shows', lives⟩ := ih further idle₁ (unfolds.settled settled) on' shows₁
      refine ⟨F', shows', ?_⟩
      rw [run.glimpses_append, seen]
      exact .call lives
    | pass millis =>
      obtain ⟨first, m₁, rest, rfl, further, quiet, run, clock, elapsed⟩ :=
        conducts.uncons_pass obeys idle settled
      obtain ⟨F₁, shows₁, passes⟩ := elapsed.passes id F shows
      obtain ⟨F', shows', lives⟩ := ih further (isIdle_of_isQuiet quiet) elapsed.settled on' shows₁
      refine ⟨F', shows', ?_⟩
      rw [clock, shows.clock] at passes
      rw [run.glimpses_append]
      exact .pass passes (isQuiet.facet quiet shows₁) lives

/-- A tracker has been opened, and callbacks and listeners only observe. Then no task notices that all
calls are left out that concern other tasks. At the same times its fetcher is asked, its callbacks are
called, listeners are told of it, and its record changes, so its record is the same at every time.
Calls say of new records when they were made. -/
theorem purge_invisible (obeys : c.Obeys b) (memory : σ) (storage : Storage) (key : String)
    (cadence : Cadence) (wallClock : Nat) (id : TaskId)
    (on : ∀ request, .call request ∈ script → request.IsOn 0)
    (conducts : Conducts c (opened memory storage key cadence wallClock true) script states m)
    {states' : List (Machine σ κ)}
    (conducts' : Conducts c (opened memory storage key cadence wallClock true) (purge id script)
      states' m') :
    glimpses 0 id (opened memory storage key cadence wallClock true) states' =
        glimpses 0 id (opened memory storage key cadence wallClock true) states ∧
      m'.world.record 0 id = m.world.record 0 id := by
  have settled : (opened memory storage key cadence wallClock true : Machine σ κ).world.Settled 0 :=
    opened_settled memory storage key cadence wallClock
  have shows : (opened memory storage key cadence wallClock true : Machine σ κ).world.Shows 0 id _ :=
    opened_shows memory storage key cadence wallClock true id
  obtain ⟨F, shows₁, lives₁⟩ := conducts.lives obeys rfl settled on shows
  obtain ⟨F', shows₂, lives₂⟩ := conducts'.lives obeys rfl settled
    (fun request mem => on request (List.mem_of_mem_filter mem)) shows
  obtain ⟨same, rfl⟩ := lives₁.purge.unique lives₂
  exact ⟨same, shows₂.record.trans shows₁.record.symm⟩

/-- One fetcher waits before its first answer and completes with the second one. Another one panics in
its second request. -/
def neighbours : Backend Nat where
  progress label request turn :=
    match label, request.number, turn with
    | 0, 1, 0 => some (.wait 5)
    | 0, 1, _ => some (.answer (.ok { status := .processing }))
    | 0, _, _ => some (.answer (.ok { status := .completed }))
    | _, 1, _ => some (.answer (.ok { status := .queued }))
    | _, _, _ => none
  supply _ _ := some 1

/-- Two tasks are tracked. One of them is stopped in the middle of a request, and resumed later on; its
session is aborted, and in the end the other task is removed, because it is complete. -/
def neighbourhood : List (Directive Nat) := [
  .call (.configure 0 { hooks := { statusChange := some 8, stopped := some 9 } }),
  .call (.track 0 { id := "a", kind := .analysis, createdAt := some .epoch } 0),
  .call (.track 0 { id := "b", kind := .analysis, createdAt := some .epoch } 0),
  .pass 4,
  .call (.stop 0 "b"),
  .pass 3,
  .call (.resume 0 7),
  .pass 20000,
  .call (.clearTerminal 0)]

theorem purge_invisible_neighbours :
    (purge "a" neighbourhood).length = 7 ∧ ∃ states m states' m',
      Conducts neighbours.consumer (opened () .absent "tasks" .default 0 true) neighbourhood states m ∧
      Conducts neighbours.consumer (opened () .absent "tasks" .default 0 true)
        (purge "a" neighbourhood) states' m' ∧
      glimpses 0 "a" (opened () .absent "tasks" .default 0 true) states' =
          glimpses 0 "a" (opened () .absent "tasks" .default 0 true) states ∧
        m'.world.record 0 "a" = m.world.record 0 "a" := by
  have on : ∀ request, .call request ∈ neighbourhood → request.IsOn 0 := by
    simp [neighbourhood, Call.IsOn]
  obtain ⟨m, followed⟩ := Option.isSome_iff_exists.mp (by decide +kernel :
    ((opened () .absent "tasks" .default 0 true).follow? neighbours.consumer neighbourhood).isSome)
  obtain ⟨m', followed'⟩ := Option.isSome_iff_exists.mp (by decide +kernel :
    ((opened () .absent "tasks" .default 0 true).follow? neighbours.consumer
      (purge "a" neighbourhood)).isSome)
  obtain ⟨states, conducts⟩ := exists_conducts rfl followed
  obtain ⟨states', conducts'⟩ := exists_conducts rfl followed'
  exact ⟨by decide +kernel, states, _, states', _, conducts, conducts',
    purge_invisible neighbours.obeys () .absent "tasks" .default 0 "a" on conducts conducts'⟩

end Machine

end TaskWatch
