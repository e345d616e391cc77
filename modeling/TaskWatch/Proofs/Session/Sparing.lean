import TaskWatch.Proofs.Run.Above
import TaskWatch.Proofs.Session.AfterEnd
import TaskWatch.Proofs.Store.Forward

/-!
# Who takes a record forward

A record changes its status when its session writes what has been reported, and when the consumer
sets the status itself, with a patch or with a record that it adds. Everything else that the
consumer may do sets the record back at most: it is deleted, or replaced by one that is queued.

## Main definitions

* `World.Spares` — the record of a task has not been taken forward.
* `Machine.Meddles` — a call is about to set the status of a record.
* `Machine.StandsBy` — a session is left where it is, and its record is not taken forward.

## Main results

* `Machine.step_spares` — a step spares the records of all sessions but the one that goes on.
* `Machine.Move.own_or_standsBy` — a session goes on, or it is left where it is.
* `Machine.Run.never_meddles` — a consumer that touches other tasks only does not meddle.
-/

namespace TaskWatch

variable {σ κ : Type}

/-! ### Records that are not taken forward -/

namespace World

variable {w w' : World κ} {k : Nat} {id : TaskId}

/-- The record of a task still has its status, or it is gone, or it has been replaced by one that is
queued. -/
def Spares (k : Nat) (id : TaskId) (w w' : World κ) : Prop :=
  ∀ current ∈ w'.status? k id, current = .queued ∨ current ∈ w.status? k id

theorem Spares.of_eq (same : w'.status? k id = w.status? k id) : Spares k id w w' :=
  fun _ found => .inr (same ▸ found)

theorem Spares.refl (w : World κ) : Spares k id w w := .of_eq rfl

theorem Near.spares (near : w.Near w') : Spares k id w w' :=
  .of_eq (by rw [status?, status?, near.tasks])

end World

/-- A deed does not take the record of a task forward. -/
def Deed.IsSparing (k : Nat) (id : TaskId) : Deed κ → Prop
  | .kept number task => number = k ∧ task.id = id → task.status = .queued
  | .patched number other patch => number = k ∧ other = id → patch.status = none
  | _ => True

namespace World

variable {w w' : World κ} {d : Deed κ} {k : Nat} {id : TaskId}

theorem Does.spares (does : w.Does d w') (inside : k < w.trackers.length) (keyed : w.Keyed)
    (sparing : d.IsSparing k id) : Spares k id w w' := by
  obtain ⟨w₁, near, rfl, -⟩ := does
  intro current has
  obtain ⟨task, found, rfl⟩ := Option.map_eq_some_iff.mp has
  have same : (w₁.tracker k).store.tasks.find? id = some task →
      task.status = .queued ∨ task.status ∈ w.status? k id := fun present => by
    rw [near.tasks] at present
    exact .inr (Option.map_eq_some_iff.mpr ⟨task, present, rfl⟩)
  rw [tasks_after] at found
  split at found
  · rw [near.count, if_neg (Nat.ne_of_lt inside)] at found
    exact same found
  · split at found
    · next here =>
      rw [Collection.find?_add] at found
      split at found
      · next own =>
        obtain rfl := Option.some.inj found
        exact .inl (sparing ⟨here.1, own.symm⟩)
      · exact same found
    · exact same found
  · split at found
    · next here =>
      rw [Collection.find?_update (near.tasks k ▸ keyed k)] at found
      split at found
      · next changed =>
        obtain ⟨before, present, rfl⟩ := Option.map_eq_some_iff.mp found
        have unset := sparing ⟨here.1, changed.1.symm⟩
        rw [← changed.1, near.tasks] at present
        refine .inr (Option.map_eq_some_iff.mpr ⟨before, present, ?_⟩)
        rw [Task.patched, unset]
        rfl
      · exact same found
    · exact same found
  · split at found
    · rw [Collection.find?_remove] at found
      split at found
      · simp at found
      · exact same found
    · exact same found
  · split at found
    · rw [Collection.find?_clearTerminal, Option.filter_eq_some_iff] at found
      exact same found.1
    · exact same found
  · exact same found

/-- A deed that touches other tasks only spares the record. -/
theorem Does.spares_of_isWithin (does : w.Does d w') (inside : k < w.trackers.length)
    (keyed : w.Keyed) (elsewhere : d.IsWithin fun n i => ¬ (n = k ∧ i = id)) :
    Spares k id w w' :=
  .of_eq (congrArg (Option.map Task.status) (does.sees inside keyed elsewhere).record)

theorem status_stampDraft (w : World κ) (draft : Draft) :
    (w.stampDraft draft).1.status = draft.status := by
  rw [stampDraft]
  split <;> rfl

/-- Two sessions of one task do not live at the same time. -/
theorem eq_of_lives {S T : SessionName} (lives : w.lives S = true) (other : w.lives T = true)
    (tracker : T.tracker = S.tracker) (id : T.id = S.id) : T = S := by
  have first := lives_iff.mp lives
  have second := lives_iff.mp other
  rw [tracker, id] at second
  obtain ⟨_, _, serial⟩ := T
  obtain rfl : serial = S.serial := Option.some.inj (second.symm.trans first)
  exact congrArg₂ (SessionName.mk · · _) tracker id

end World

/-- A call sets the status of the record of a task: by a patch, or with a record that is not queued.
-/
def Call.Meddles (k : Nat) (id : TaskId) : Call κ → Prop
  | .update number other patch => (number = k ∧ other = id) ∧ patch.status ≠ none
  | .add number draft | .track number draft _ =>
    (number = k ∧ draft.id = id) ∧ draft.status ≠ .queued
  | _ => False

namespace Machine

open World (Spares)

variable {m m' m₀ : Machine σ κ} {c : Consumer σ κ} {given : Code σ κ → Prop} {k : Nat}
  {id : TaskId}

/-- The consumer is about to set the status of the record of a task. -/
def Meddles (m : Machine σ κ) (k : Nat) (id : TaskId) : Prop :=
  ∃ request next, m.control = .code (.call request next) ∧ request.Meddles k id

private theorem mutate_spares {α : Type} {number : Nat} {mutation : Mutation α} {d : Deed κ}
    {w : World κ} (inside : k < w.trackers.length) (keyed : w.Keyed)
    (does : w.Does d (m.world.mutate number mutation)) (sparing : d.IsSparing k id) (r : Reply) :
    Spares k id w (m.mutate number mutation r).world := by
  rw [mutate]
  split
  · exact does.spares inside keyed sparing
  · exact does.spares inside keyed sparing

section Calm

variable (inside : k < m.world.trackers.length) (keyed : m.world.Keyed)

include inside keyed

private theorem Extends.spares {names : List SessionName}
    (h : Extends (fun n i => ¬ (n = k ∧ i = id)) names m m') : Spares k id m.world m'.world := by
  obtain ⟨_, _, grows⟩ := h
  exact grows.does.spares_of_isWithin inside keyed grows.within

private theorem stopSession_spares (number : Nat) (other : TaskId) (only : Option Serial)
    (reason : StopReason) :
    Spares k id m.world (m.stopSession number other only reason).world := by
  have ended : Spares k id m.world (m.world.after (.ended number other)) :=
    (World.does_after _ rfl).spares inside keyed trivial
  obtain still | ⟨serial, _, ends | ⟨label, ends⟩⟩ := m.stopSession_cases number other only reason
  · rw [still]
    exact .refl _
  · rw [ends]
    exact ended
  · rw [ends]
    exact ended

private theorem stopEach_spares (number count : Nat) (ids : List TaskId) :
    Spares k id m.world (m.stopEach number count ids).world := by
  cases ids with
  | nil => exact .refl _
  | cons first rest =>
    exact stopSession_spares (m := m.push (.stopping number rest count)) inside keyed _ _ _ _

/-- A record that is queued is kept. -/
private theorem add_spares (m₁ : Machine σ κ) {draft : Draft} {number : Nat}
    (stamped : m₁.world = (m.world.stampDraft draft).2)
    (calm : ¬ ((number = k ∧ draft.id = id) ∧ draft.status ≠ .queued)) (r : Reply) :
    Spares k id m.world (m₁.mutate number
      ((m₁.world.tracker number).store.tasks.add (m.world.stampDraft draft).1) r).world := by
  have queued : number = k ∧ draft.id = id → draft.status = .queued := fun own =>
    not_not.mp fun begun => calm ⟨own, begun⟩
  rw [← m.world.id_stampDraft, ← m.world.status_stampDraft] at queued
  have near : m.world.Near m₁.world := stamped ▸ m.world.near_stampDraft draft
  exact mutate_spares (d := .kept number (m.world.stampDraft draft).1) inside keyed
    (near.and_does (World.does_after _ rfl)) queued r

/-- A call that does not set the status of a record does not take it forward. -/
private theorem perform_spares {request : Call κ} (calm : ¬ request.Meddles k id) :
    Spares k id m.world (m.perform request).world := by
  by_cases within : request.IsWithin fun n i => ¬ (n = k ∧ i = id)
  · exact (perform_extends within).spares inside keyed
  · cases request with
    | add number draft => exact add_spares inside keyed (m.withWorld _) rfl calm _
    | track number draft fetcher =>
      exact add_spares inside keyed ((m.withWorld _).push _) rfl calm _
    | update number other patch =>
      have unset : number = k ∧ other = id → patch.status = none := fun own =>
        not_not.mp fun sets => calm ⟨own, sets⟩
      exact mutate_spares (d := .patched number other patch) inside keyed (World.does_after _ rfl)
        unset _
    | remove number other =>
      exact mutate_spares (d := .dropped number other) inside keyed (World.does_after _ rfl)
        trivial _
    | clearTerminal number =>
      exact mutate_spares (d := .cleared number) inside keyed (World.does_after _ rfl) trivial _
    | stop number other => exact stopSession_spares inside keyed _ _ _ _
    | stopAll number => exact stopEach_spares inside keyed _ _ _
    | forget number other =>
      exact stopSession_spares (m := m.push (.forgetting number other)) inside keyed _ _ _ _
    | configure number patch =>
      rw [perform]
      split
      · exact .refl _
      · next settings _ =>
        have does := World.does_after (d := .configured number settings) m.world rfl
        exact does.spares inside keyed trivial
    | _ => exact absurd trivial within

/-- What goes on with a frame does not take a record forward, unless a session of the task goes on
that lives. -/
private theorem resume_spares {f : Frame σ κ}
    (elsewhere : ∀ s point, f = .session s point → m.world.lives s.name →
      ¬ (s.tracker = k ∧ s.id = id)) (c : Consumer σ κ) (r : Reply) :
    Spares k id m.world (m.resume c r f).world := by
  by_cases within : f.IsWithin fun n i => ¬ (n = k ∧ i = id)
  · exact (resume_extends within elsewhere c r).spares inside keyed
  · cases f with
    | awaiting next => exact .refl _
    | stopping number rest count => exact stopEach_spares inside keyed _ _ _
    | forgetting number other =>
      exact mutate_spares (d := .dropped number other) inside keyed (World.does_after _ rfl)
        trivial _
    | _ => exact absurd trivial within

private theorem unwind_spares {f : Frame σ κ}
    (elsewhere : ∀ s point, f = .session s point → m.world.lives s.name →
      ¬ (s.tracker = k ∧ s.id = id)) : Spares k id m.world (m.unwind f).world := by
  by_cases within : f.IsWithin fun n i => ¬ (n = k ∧ i = id)
  · exact (unwind_extends within elsewhere).spares inside keyed
  · cases f with
    | awaiting next => exact .refl _
    | stopping number rest count => exact .refl _
    | forgetting number other => exact .refl _
    | _ => exact absurd trivial within

end Calm

/-- A step does not take a record forward, unless a session of the task goes on that lives, or the
consumer sets the status. -/
theorem step_spares (inside : k < m.world.trackers.length) (keyed : m.world.Keyed)
    (calm : ¬ m.Meddles k id)
    (elsewhere : ∀ s point, .session s point ∈ m.taken → m.world.lives s.name →
      ¬ (s.tracker = k ∧ s.id = id)) (c : Consumer σ κ) :
    Spares k id m.world (m.step c).world := by
  obtain ⟨memory, world, control, stack⟩ := m
  cases control with
  | code p =>
    cases p with
    | call request next =>
      exact perform_spares (m := push ⟨memory, world, _, stack⟩ (.awaiting next)) inside keyed
        fun meddles => calm ⟨request, next, rfl, meddles⟩
    | _ => exact .refl _
  | calling label occasion => exact .refl _
  | telling number n =>
    exact (near_deliver ⟨memory, world, .telling number n, stack⟩ n _).spares
  | returned r =>
    cases stack with
    | nil => exact .refl _
    | cons f rest =>
      refine resume_spares (m := ⟨memory, world, .returned r, rest⟩) inside keyed ?_ c r
      rintro s point rfl
      exact elsewhere s point List.mem_cons_self
  | unwinding =>
    cases stack with
    | nil => exact .refl _
    | cons f rest =>
      refine unwind_spares (m := ⟨memory, world, .unwinding, rest⟩) inside keyed ?_
      rintro s point rfl
      exact elsewhere s point List.mem_cons_self

/-! ### Sessions that do not go on -/

variable {S : SessionName}

/-- A session is left where it is, and its record is not taken forward. -/
structure StandsBy (S : SessionName) (m m' : Machine σ κ) : Prop where
  begun : ∀ s, .spawning s ∈ m'.stack → s.name = S → .spawning s ∈ m.stack
  turn : ∀ s point, .session s point ∈ m'.stack → s.name = S → .session s point ∈ m.stack
  suspended : ∀ entry ∈ m'.world.suspended, entry.task.name = S → entry ∈ m.world.suspended
  record : Spares S.tracker S.id m.world m'.world

private theorem standsBy_of_subset (stack : m'.stack ⊆ m.stack)
    (suspended : m'.world.suspended ⊆ m.world.suspended)
    (record : Spares S.tracker S.id m.world m'.world) : StandsBy S m m' :=
  ⟨fun _ mem _ => stack mem, fun _ _ mem _ => stack mem, fun _ mem _ => suspended mem, record⟩

/-- What is done without a session leaves it where it is. -/
private theorem Extends.standsBy {tasks : Nat → TaskId → Prop} {names : List SessionName}
    {m₁ : Machine σ κ} (h : Extends tasks names m₁ m') (other : S ∉ names)
    (created : S.serial < m₁.world.nextSerial) (stack : m₁.stack ⊆ m.stack)
    (suspended : m₁.world.suspended ⊆ m.world.suspended)
    (record : Spares S.tracker S.id m.world m'.world) : StandsBy S m m' := by
  obtain ⟨new, d, grows⟩ := h
  -- A session that stands somewhere new is another one, or has just been created.
  have absent : S ∉ new.flatMap Frame.names ++ d.suspends.map fun entry => entry.task.name :=
    fun mem => (List.mem_append.mp (grows.names.subset mem)).elim other fun news =>
      Nat.ne_of_lt created (serial_of_mem_news news).1
  have old : ∀ f ∈ m'.stack, S ∈ f.names → f ∈ m.stack := by
    intro f mem named
    rw [grows.stack] at mem
    rcases List.mem_append.mp mem with fresh | old
    · exact absurd (List.mem_append_left _ (List.mem_flatMap.mpr ⟨f, fresh, named⟩)) absent
    · exact stack old
  refine ⟨fun s mem own => old _ mem (List.mem_singleton.mpr own.symm),
    fun s point mem own => old _ mem (List.mem_singleton.mpr own.symm), fun entry mem own => ?_,
    record⟩
  rw [grows.does.suspended] at mem
  rcases List.mem_append.mp mem with old | fresh
  · exact suspended old
  · exact absurd (List.mem_append_right _ (List.mem_map.mpr ⟨entry, fresh, own⟩)) absent

/-- So does a session that is taken from the list of those that are suspended. -/
private theorem Extends.standsBy_of_listed {before after : List (Suspended κ)} {entry : Suspended κ}
    (h : Extends (fun n i => ¬ (n = S.tracker ∧ i = S.id)) [entry.task.name]
      (m.withWorld { m.world with suspended := before ++ after }) m')
    (listed : m.world.suspended = before ++ entry :: after) (other : entry.task.name ≠ S)
    (created : S.serial < m.world.nextSerial) (inside : S.tracker < m.world.trackers.length)
    (keyed : m.world.Keyed) : StandsBy S m m' := by
  have record : Spares S.tracker S.id m.world m'.world :=
    Extends.spares (m := m.withWorld { m.world with suspended := before ++ after }) inside keyed h
  refine h.standsBy (fun mem => other (List.mem_singleton.mp mem).symm) created
    (List.Subset.refl _) (fun found mem => ?_) record
  rw [listed]
  exact (List.mem_append.mp mem).elim (List.mem_append_left _) fun later =>
    List.mem_append_right _ (List.mem_cons_of_mem _ later)

/-- In every move a session that lives goes on, or it is left where it is and its record is not
taken forward, unless the consumer sets the status. -/
theorem Move.own_or_standsBy (move : Move c given m m') (sound : m.Sound)
    (lives : m.world.lives S = true) (begun : ∀ s, .spawning s ∈ m.stack → s.name ≠ S)
    (calm : ¬ m.Meddles S.tracker S.id) : OwnMove c S m m' ∨ StandsBy S m m' := by
  have created : S.serial < m.world.nextSerial := sound.given S lives
  have inside := World.inside_of_lives lives
  -- Other sessions of the task do not live, so they do not write.
  have elsewhere : ∀ s : SessionTask κ, s.name ≠ S → m.world.lives s.name = true →
      ¬ (s.tracker = S.tracker ∧ s.id = S.id) := fun s other living same =>
    other (World.eq_of_lives lives living same.1 same.2)
  cases move.happens with
  | step busy =>
    by_cases own : ∃ s point, .session s point ∈ m.taken ∧ s.name = S
    · obtain ⟨s, point, mem, rfl⟩ := own
      exact .inl (.of_mem_taken mem)
    · have other : ∀ s point, .session s point ∈ m.taken → s.name ≠ S := fun s point mem same =>
        own ⟨s, point, mem, same⟩
      have foreign : S ∉ m.taken.flatMap Frame.names := by
        intro mem
        obtain ⟨f, taken, named⟩ := List.mem_flatMap.mp mem
        have on : f ∈ m.stack := m.stack_eq ▸ List.mem_append_left _ taken
        cases f with
        | session s point => exact other s point taken (List.mem_singleton.mp named).symm
        | spawning s => exact begun s on (List.mem_singleton.mp named).symm
        | _ => exact absurd named List.not_mem_nil
      have spares := step_spares inside sound.keyed calm
        (fun s point mem => elsewhere s (other s point mem)) c
      refine .inr ((m.step_extends_anyhow c).standsBy foreign (m.world_below ▸ created) ?_ ?_ spares)
      · rw [m.stack_eq]
        exact List.subset_append_right _ _
      · rw [m.world_below]
        exact List.Subset.refl _
  | @wake before entry after idle listed ready =>
    by_cases own : entry.task.name = S
    · exact .inl (.woken own listed)
    · exact .inr (Extends.standsBy_of_listed (wake_extends (elsewhere entry.task own)) listed own
        created inside sound.keyed)
  | @abandon before entry after idle closed listed =>
    by_cases own : entry.task.name = S
    · exact .inl (.abandoned own listed)
    · exact .inr (Extends.standsBy_of_listed (abandon_extends (elsewhere entry.task own)) listed own
        created inside sound.keyed)
  | idles idles =>
    refine .inr (standsBy_of_subset ?_ idles.suspended.subset idles.near.spares)
    rw [idles.stack]
    exact List.nil_subset _

/-! ### Consumers that leave a record alone -/

variable {tasks : Nat → TaskId → Prop}

private theorem stopSession_heeds (frames : ∀ f ∈ m.stack, f.IsWithin tasks) (number : Nat)
    (other : TaskId) (only : Option Serial) (reason : StopReason) :
    (m.stopSession number other only reason).Heeds tasks := by
  have pushed : ∀ f : Frame σ κ, f.IsWithin tasks → ∀ g ∈ f :: m.stack, g.IsWithin tasks :=
    fun f within => List.forall_mem_cons.mpr ⟨within, frames⟩
  obtain still | ⟨serial, _, ended | ⟨label, ended⟩⟩ := m.stopSession_cases number other only reason
  · rw [still]
    exact ⟨trivial, frames⟩
  · rw [ended]
    exact ⟨trivial, pushed _ trivial⟩
  · rw [ended]
    exact ⟨trivial, pushed _ trivial⟩

/-- What a session does when it goes on is no code of the consumer. -/
theorem Turn.heeds {g : Grounds κ} (turn : Turn g S m m')
    (frames : ∀ f ∈ m.stack, f.IsWithin tasks) : m'.Heeds tasks := by
  have pushed : ∀ f : Frame σ κ, f.IsWithin tasks → ∀ g ∈ f :: m.stack, g.IsWithin tasks :=
    fun f within => List.forall_mem_cons.mpr ⟨within, frames⟩
  cases turn with
  | ends => exact ⟨trivial, frames⟩
  | rests own pause => exact ⟨trivial, frames⟩
  | concludes own ends => exact stopSession_heeds (pushed (.session _ .ending) trivial) _ _ _ _
  | aborts own lives breaks =>
    exact stopSession_heeds (pushed (.session _ .aborting) trivial) _ _ _ _
  | _ => exact ⟨trivial, pushed _ trivial⟩

/-- A consumer that touches certain tasks only makes no other calls, whatever sessions do. -/
theorem Move.heeds (move : Move c (Code.IsWithin tasks) m m') (consumer : c.IsWithin tasks)
    (heeds : m.Heeds tasks) : m'.Heeds tasks := by
  cases move with
  | step busy =>
    rcases m.step_turn_or_foreign c with ⟨s, point, g, _, turn⟩ | foreign
    · refine turn.heeds fun f on => heeds.frames f ?_
      rw [m.stack_eq]
      exact List.mem_append_right _ on
    · exact (heeds.step_foreign consumer foreign).1
  | code idle allowed => exact ⟨allowed, heeds.frames⟩
  | wake idle listed ready => exact (wake_turn _ _).heeds heeds.frames
  | @abandon before entry after idle closed listed =>
    let w := { m.world with suspended := before ++ after }
    exact (abandon_turn (m := m.withWorld w) closed entry).heeds heeds.frames
  | _ => exact ⟨heeds.control, heeds.frames⟩

theorem Heeds.not_meddles (heeds : m.Heeds fun n i => ¬ (n = k ∧ i = id)) : ¬ m.Meddles k id := by
  rintro ⟨request, next, control, meddles⟩
  have within : request.IsWithin fun n i => ¬ (n = k ∧ i = id) := by
    have code := heeds.control
    rw [control] at code
    exact code.1
  cases request with
  | update number other patch => exact within meddles.1
  | add number draft => exact within meddles.1
  | track number draft fetcher => exact within meddles.1
  | _ => exact meddles

/-- A consumer that touches other tasks only does not set the status of a record. -/
theorem Run.never_meddles {states : List (Machine σ κ)}
    (run : Run c (Code.IsWithin fun n i => ¬ (n = k ∧ i = id)) m₀ states m)
    (consumer : c.IsWithin fun n i => ¬ (n = k ∧ i = id))
    (heeds : m₀.Heeds fun n i => ¬ (n = k ∧ i = id)) :
    ∀ m₁ ∈ m₀ :: states, ¬ m₁.Meddles k id := by
  have all : ∀ m₁ ∈ m₀ :: states, m₁.Heeds fun n i => ¬ (n = k ∧ i = id) := by
    induction run with
    | start => exact List.forall_mem_singleton.mpr heeds
    | @move states m₁ m₂ run next ih =>
      intro m mem
      rw [← List.cons_append] at mem
      rcases List.mem_append.mp mem with old | new
      · exact ih m old
      · obtain rfl := List.mem_singleton.mp new
        exact next.heeds consumer (ih m₁ run.mem_cons)
  exact fun m₁ mem => (all m₁ mem).not_meddles

end Machine

end TaskWatch
