import TaskWatch.Proofs.Run.Landing

/-!
# One task by itself

What a tracker is for one of its tasks: the settings, the record of the task, its session, and the
time. As long as callbacks and listeners only observe, and every fetcher works for its own session,
nothing else matters to the task. This module says what calls and the passing of time do to it, and
what is seen of it meanwhile, without any reference to other tasks, to the machine or to its stack.

## Main definitions

* `Stint`, `Facet` — a session and a task by themselves.
* `Facet.turn` — a turn of the session.
* `Facet.called` — a call of the consumer.
* `Facet.Passes` — time passes.

## Main results

* `Facet.Passes.unique` — what happens while time passes is determined.
* `Facet.called_of_elsewhere` — calls that concern other tasks leave a task alone.
-/

namespace TaskWatch

variable {κ : Type}

/-- What a session carries from turn to turn, whichever session it is. -/
structure Stint (κ : Type) where
  fetcher : κ
  /-- The status it has seen or read last. -/
  last : Option Status
  /-- How many requests it has made. -/
  calls : Nat

/-- What a session carries with it, but for its name. -/
def SessionTask.stint (s : SessionTask κ) : Stint κ := ⟨s.fetcher, s.last, s.calls⟩

/-- A task as its tracker has it at a time. -/
structure Facet (κ : Type) where
  clock : Nat
  settings : Settings κ
  record : Option Task
  /-- The session of the task, if there is one, and where it is suspended. -/
  session : Option (Stint κ × Pause)

/-- The task that a call concerns, if it concerns a single one. -/
def Call.subject? : Call κ → Option TaskId
  | .add _ draft | .track _ draft _ => some draft.id
  | .update _ id _ | .remove _ id | .start _ id _ | .stop _ id | .forget _ id => some id
  | _ => none

namespace Facet

/-- What becomes of a task, and what is seen of it meanwhile. -/
abbrev Next (κ : Type) : Type := Facet κ × List (Glimpse κ)

/-- Something else is seen first. -/
def Next.after (next : Next κ) (seen : List (Glimpse κ)) : Next κ := (next.1, seen ++ next.2)

variable (F : Facet κ) (b : Backend κ) (id : TaskId)

/-- Nothing happens. -/
def still : Next κ := (F, [])

/-- A callback is called, if it is set. -/
def calls (label : Option κ) (occasion : Occasion) : List (Glimpse κ) :=
  label.toList.map fun label => ⟨F.clock, .calls label occasion⟩

/-- Listeners are told of something. -/
def tells (n : Notice) : List (Glimpse κ) := [⟨F.clock, .tells n⟩]

open Classical in
/-- The record is another one from now on. -/
noncomputable def keeps (record : Option Task) : List (Glimpse κ) :=
  if record = F.record then [] else [⟨F.clock, .keeps record⟩]

/-- The record is changed, and listeners are told of it if there is something to report. -/
noncomputable def mutated (record : Option Task) (notices : List Notice) : Next κ :=
  ({ F with record }, F.keeps record ++ notices.flatMap F.tells)

/-! ### The session -/

/-- The session ends: the callback for it is called, and it is announced. -/
def stopped (reason : StopReason) : Next κ :=
  ({ F with session := none },
    F.calls F.settings.hooks.stopped (.stopped id reason) ++
      F.tells (.session (.stopped id reason)))

/-- The session is suspended. -/
def paused (s : Stint κ) (pause : Pause) : Next κ := ({ F with session := some (s, pause) }, [])

/-- The session sleeps for a number of milliseconds. -/
def sleeps (s : Stint κ) (millis : Nat) : Next κ := F.paused s (.sleeping (F.clock + millis))

/-- What the session does about a report after it has dealt with the status. -/
def afterStatus (s : Stint κ) (report : Report) (hooks : Hooks κ) : Next κ :=
  match report.status with
  | .completed =>
    (F.stopped id .completed).after (F.calls hooks.complete (.completed id report))
  | .failed => (F.stopped id .failed).after (F.calls hooks.failed (.failed id report))
  | status => F.sleeps s (F.settings.cadence.intervalFor status)

/-- The session takes note of a new status. -/
def changeStatus (s : Stint κ) (report : Report) (hooks : Hooks κ) : Next κ :=
  (F.afterStatus id { s with last := some report.status } report hooks).after
    (F.calls hooks.statusChange (.statusChanged id report.status))

/-- The session writes a new status to the record, if there is one that may be given it. -/
noncomputable def recordStatus (s : Stint κ) (report : Report) (hooks : Hooks κ) : Next κ :=
  match F.record with
  | none => F.changeStatus id s report hooks
  | some task =>
    if task.status.mayBecome report.status then
      let task' := task.patched (.ofStatus report.status)
      if task' == task then F.changeStatus id s report hooks
      else
        let written := F.mutated (some task') [.store (.updated id)]
        (written.1.changeStatus id s report hooks).after written.2
    else F.afterStatus id s report hooks

/-- The session deals with an answer. -/
noncomputable def receive (s : Stint κ) (result : Except FetchError Report) : Next κ :=
  match result with
  | .ok report =>
    if s.last = some report.status then F.afterStatus id s report F.settings.hooks
    else F.recordStatus id s report F.settings.hooks
  | .error e =>
    (F.sleeps s F.settings.cadence.queued).after
      (if e.isCancellation then [] else F.calls F.settings.hooks.error (.fetchFailed id e))

/-- The session goes on after its fetcher has worked on a request. -/
noncomputable def goesOn (s : Stint κ) (turn : Nat) (progress : Option Progress) : Next κ :=
  match progress with
  | none => F.stopped id .aborted
  | some (.answer result) => F.receive id s result
  | some .yield => F.paused s (.fetching turn (some F.clock))
  | some (.wait millis) => F.paused s (.fetching turn (some (F.clock + millis)))
  | some .hang => F.paused s (.fetching turn none)

/-- The fetcher works on a request. -/
noncomputable def fetch (s : Stint κ) (turn : Nat) : Next κ :=
  let request : Request := ⟨id, s.calls, false⟩
  (F.goesOn id s turn (b.progress s.fetcher request turn)).after
    (F.calls (some s.fetcher) (.fetching request turn))

/-- A turn of the session. -/
noncomputable def turn : Next κ :=
  match F.session with
  | none => F.still
  | some (s, .fresh) => F.fetch b id { s with last := F.record.map Task.status, calls := s.calls + 1 } 0
  | some (s, .fetching turn _) => F.fetch b id s (turn + 1)
  | some (s, .sleeping _) => F.fetch b id { s with calls := s.calls + 1 } 0

/-! ### Calls -/

/-- A record is kept. -/
noncomputable def added (task : Task) : Next κ :=
  F.mutated (some task) (if F.record.any (· == task) then [] else [.store (.added id)])

/-- A patch is merged into the record. -/
noncomputable def updated (patch : Patch) : Next κ :=
  match F.record with
  | none => F.still
  | some task =>
    if (Collection.refusal task patch).isSome || task.patched patch == task then F.still
    else F.mutated (some (task.patched patch)) [.store (.updated id)]

/-- The record is deleted. -/
noncomputable def removed : Next κ :=
  if F.record.isSome then F.mutated none [.store (.removed id)] else F.still

/-- All terminal records are deleted. -/
noncomputable def cleared : Next κ :=
  if F.record.any Task.isTerminal then F.mutated none [.store (.cleared [id])] else F.still

/-- A session is started unless there is one. -/
def started (fetcher : κ) : Next κ :=
  if F.session.isSome then F.still
  else ({ F with session := some (⟨fetcher, none, 0⟩, .fresh) }, F.tells (.session (.started id)))

/-- The session is stopped if there is one. -/
def halted : Next κ := if F.session.isSome then F.stopped id .requested else F.still

/-- The settings are changed. -/
def configured (patch : SettingsPatch κ) : Next κ :=
  match F.settings.patched patch with
  | .error _ => F.still
  | .ok settings => ({ F with settings }, [])

/-- A record is kept and polled for unless it is terminal. -/
noncomputable def tracked (task : Task) (fetcher : κ) : Next κ :=
  let kept := F.added id task
  if task.isTerminal then kept else (kept.1.started id fetcher).after kept.2

/-- The record is polled for if it is not terminal and the factory has a fetcher for it. -/
def resumed (factory : κ) : Next κ :=
  match F.record with
  | none => F.still
  | some task =>
    if task.isTerminal then F.still
    else match b.supply factory task with
      | none => F.still
      | some fetcher => F.started id fetcher

/-- The session is stopped, and the record is deleted. -/
noncomputable def forgotten : Next κ :=
  let halted := F.halted id
  halted.1.removed id |>.after halted.2

/-- What a call does to the task. -/
noncomputable def called (request : Call κ) : Next κ :=
  if request.subject?.any (· ≠ id) then F.still
  else match request with
    | .add _ draft => F.added id (draft.stamped .epoch)
    | .update _ _ patch => F.updated id patch
    | .remove _ _ => F.removed id
    | .clearTerminal _ => F.cleared id
    | .start _ _ fetcher => F.started id fetcher
    | .stop _ _ | .stopAll _ => F.halted id
    | .configure _ patch => F.configured patch
    | .track _ draft fetcher => F.tracked id (draft.stamped .epoch) fetcher
    | .resume _ factory => F.resumed b id factory
    | .forget _ _ => F.forgotten id
    | _ => F.still

/-- A call that concerns another task does nothing to this one. -/
theorem called_of_elsewhere {request : Call κ} {other : TaskId}
    (concerns : request.subject? = some other) (elsewhere : other ≠ id) :
    F.called b id request = F.still :=
  if_pos (by simpa [concerns] using elsewhere)

/-! ### Time -/

/-- The time at which the session gets its next turn, unless something else happens before. -/
def due : Option Nat :=
  F.session.bind fun s =>
    if s.2 = .fresh then some F.clock else s.2.wakeTime.map (max F.clock)

theorem clock_le_due {time : Nat} (due : time ∈ F.due) : F.clock ≤ time := by
  obtain ⟨s, _, due⟩ := Option.bind_eq_some_iff.mp due
  split at due
  · exact Nat.le_of_eq (Option.some.inj due)
  · obtain ⟨wake, _, rfl⟩ := Option.map_eq_some_iff.mp due
    exact Nat.le_max_left _ _

/-- The same at another time. -/
def atTime (time : Nat) : Facet κ := { F with clock := time }

/-- Time passes until a deadline: the session gets its turns, one after the other, at the times at
which they are due. Of the turns that are due at the deadline, some may still be to come. -/
inductive Passes (deadline : Nat) : Facet κ → List (Glimpse κ) → Facet κ → Prop
  /-- No turn is due before. -/
  | finished {G : Facet κ} (early : ∀ time ∈ G.due, deadline ≤ time) :
      Passes deadline G [] (G.atTime deadline)
  /-- A turn is due by then. -/
  | turn {G G' : Facet κ} {time : Nat} {seen : List (Glimpse κ)} (due : G.due = some time)
      (intime : time ≤ deadline) (rest : Passes deadline ((G.atTime time).turn b id).1 seen G') :
      Passes deadline G (((G.atTime time).turn b id).2 ++ seen) G'

variable {F b id} {F' F'' : Facet κ} {deadline : Nat} {seen seen' : List (Glimpse κ)}

/-- No turn is due at the time. -/
def IsQuiet (F : Facet κ) : Prop := ∀ time ∈ F.due, F.clock < time

/-- When a turn is due, it is still due. -/
theorem due_atTime {time : Nat} (due : F.due = some time) : (F.atTime time).due = some time := by
  cases session : F.session with
  | none => simp [Facet.due, session] at due
  | some s =>
    by_cases fresh : s.2 = .fresh
    · simp [Facet.due, atTime, session, fresh]
    · simp only [Facet.due, atTime, session, Option.bind_some, if_neg fresh,
        Option.map_eq_some_iff] at due ⊢
      obtain ⟨wake, wakes, rfl⟩ := due
      exact ⟨wake, wakes, Nat.max_eq_left (Nat.le_max_right _ _)⟩

/-- A turn that is due by a deadline is not left out. -/
theorem not_isQuiet_of_due {time : Nat} (due : F.due = some time) (intime : time ≤ deadline)
    (early : ∀ time ∈ F.due, deadline ≤ time) : ¬ (F.atTime deadline).IsQuiet := by
  obtain rfl : time = deadline := Nat.le_antisymm intime (early time due)
  exact fun quiet => Nat.lt_irrefl time (quiet time (due_atTime due))

/-- What happens while time passes is determined, if all turns have been taken in the end. -/
theorem Passes.unique (passes : Passes b id deadline F seen F') (quiet : F'.IsQuiet)
    (passes' : Passes b id deadline F seen' F'') (quiet' : F''.IsQuiet) :
    seen' = seen ∧ F'' = F' := by
  induction passes generalizing seen' F'' with
  | finished early =>
    cases passes' with
    | finished _ => exact ⟨rfl, rfl⟩
    | turn due intime _ => exact absurd quiet (not_isQuiet_of_due due intime early)
  | turn due intime _ ih =>
    cases passes' with
    | finished early => exact absurd quiet' (not_isQuiet_of_due due intime early)
    | turn due' _ rest =>
      obtain rfl := Option.some.inj (due.symm.trans due')
      obtain ⟨rfl, rfl⟩ := ih quiet rest quiet'
      exact ⟨rfl, rfl⟩

/-- Until its next turn is due, it does not matter to a task how time passes. -/
theorem Passes.later {time : Nat} (passes : Passes b id deadline (F.atTime time) seen F')
    (after : F.clock ≤ time) (waiting : ∀ s ∈ F.session, s.2 ≠ .fresh)
    (early : ∀ s ∈ F.session, ∀ wake ∈ s.2.wakeTime, time ≤ wake) :
    Passes b id deadline F seen F' := by
  have due : (F.atTime time).due = F.due := by
    cases session : F.session with
    | none => simp [Facet.due, atTime, session]
    | some s =>
      have awake := waiting s session
      cases wakes : s.2.wakeTime with
      | none => simp [Facet.due, atTime, session, awake, wakes]
      | some wake =>
        have soon := early s session wake wakes
        simp only [Facet.due, atTime, session, Option.bind_some, if_neg awake, wakes, Option.map_some]
        rw [Nat.max_eq_right soon, Nat.max_eq_right (Nat.le_trans after soon)]
  generalize same : F.atTime time = G at passes
  cases passes with
  | finished early' =>
    subst same
    exact .finished (due ▸ early')
  | turn due' intime rest =>
    subst same
    exact .turn (due ▸ due') intime rest

end Facet

end TaskWatch
