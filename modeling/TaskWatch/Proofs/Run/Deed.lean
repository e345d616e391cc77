import TaskWatch.Proofs.Run.Basic
import TaskWatch.Proofs.Store.Collection

/-!
# Deeds

Of all that a step does to the world, sessions and stores notice one thing at most: a tracker is
opened, one collection, the settings or the sessions of one tracker are changed, a session is
suspended, or somebody else writes to the storage. Listeners, views, those who wait and the wall
clock may change besides. The invariants of runs are derived from this list of deeds.

## Main definitions

* `World.Near` — worlds that sessions and stores cannot tell apart.
* `Deed` — what is done; `Deed.IsWithin` — the tasks that it touches.
* `World.after` — the world after a deed; `World.Does` — a deed, and what else sessions do not
  notice.
* `World.Succeeds` — sessions end for good, and new ones have new serial numbers.

## Main results

* `World.Does.succeeds`, `World.Does.keyed` — what every deed keeps.
* `World.Does.sees` — what a deed elsewhere leaves alone.
-/

namespace TaskWatch

variable {κ : Type}

/-- What is done to a world, as far as sessions and stores notice it. -/
inductive Deed (κ : Type) where
  /-- Nothing. -/
  | nothing
  /-- A tracker is opened. -/
  | opened (key : String) (cadence : Cadence)
  /-- A record is kept. -/
  | kept (number : Nat) (task : Task)
  /-- A patch is merged into a record. -/
  | patched (number : Nat) (id : TaskId) (patch : Patch)
  /-- A record is deleted. -/
  | dropped (number : Nat) (id : TaskId)
  /-- All terminal records are deleted. -/
  | cleared (number : Nat)
  /-- The settings are changed. -/
  | configured (number : Nat) (settings : Settings κ)
  /-- A session is created. -/
  | began (number : Nat) (id : TaskId)
  /-- The session of a task is ended. -/
  | ended (number : Nat) (id : TaskId)
  /-- A session is suspended. -/
  | paused (entry : Suspended κ)
  /-- Bytes are put into the storage behind everyone's back. -/
  | seeded (key : String) (content : ByteArray)

/-- A deed touches certain tasks only. Opening a tracker, creating and suspending sessions, and
writing to the storage touch none. -/
def Deed.IsWithin (tasks : Nat → TaskId → Prop) : Deed κ → Prop
  | kept number task => tasks number task.id
  | patched number id _ | dropped number id | ended number id => tasks number id
  | cleared number | configured number _ => ∀ id, tasks number id
  | nothing | opened _ _ | began _ _ | paused _ | seeded _ _ => True

/-- The sessions that a deed suspends. -/
def Deed.suspends : Deed κ → List (Suspended κ)
  | paused entry => [entry]
  | _ => []

/-- How many sessions a deed creates. -/
def Deed.begins : Deed κ → Nat
  | began _ _ => 1
  | _ => 0

namespace World

/-! ### What nobody notices -/

/-- Sessions and stores cannot tell two worlds apart. -/
structure Near (w w' : World κ) : Prop where
  count : w'.trackers.length = w.trackers.length
  /-- Nothing but the listeners of a store changes. -/
  stores : ∀ k, ∃ listeners, (w'.tracker k).store = { (w.tracker k).store with listeners }
  storage : w'.storage = w.storage
  sessions : ∀ k, (w'.tracker k).sessions = (w.tracker k).sessions
  settings : ∀ k, (w'.tracker k).settings = (w.tracker k).settings
  suspended : w'.suspended = w.suspended
  clock : w'.clock = w.clock
  nextSerial : w'.nextSerial = w.nextSerial
  hasExecutor : w'.hasExecutor = w.hasExecutor
  /-- Listeners of sessions keep their numbers. -/
  numbered : ∀ k, (w.tracker k).watchers.Sound → (w'.tracker k).watchers.Sound

/-- Views, those who wait and the wall clock are nobody's concern. -/
theorem near_aside (w : World κ) (views : List View) (waits : List Wait) (wallClock : Nat) :
    w.Near { w with views, waits, wallClock } where
  count := rfl
  stores _ := ⟨_, rfl⟩
  storage := rfl
  sessions _ := rfl
  settings _ := rfl
  suspended := rfl
  clock := rfl
  nextSerial := rfl
  hasExecutor := rfl
  numbered _ := id

theorem Near.refl (w : World κ) : w.Near w := w.near_aside _ _ _

theorem Near.tasks {w w' : World κ} (near : w.Near w') (k : Nat) :
    (w'.tracker k).store.tasks = (w.tracker k).store.tasks := by
  obtain ⟨listeners, same⟩ := near.stores k
  rw [same]

theorem Near.trans {w w₁ w₂ : World κ} (h : w.Near w₁) (h' : w₁.Near w₂) : w.Near w₂ where
  count := h'.count.trans h.count
  stores k := by
    obtain ⟨_, first⟩ := h.stores k
    obtain ⟨listeners, second⟩ := h'.stores k
    exact ⟨listeners, by rw [second, first]⟩
  storage := h'.storage.trans h.storage
  sessions k := (h'.sessions k).trans (h.sessions k)
  settings k := (h'.settings k).trans (h.settings k)
  suspended := h'.suspended.trans h.suspended
  clock := h'.clock.trans h.clock
  nextSerial := h'.nextSerial.trans h.nextSerial
  hasExecutor := h'.hasExecutor.trans h.hasExecutor
  numbered k sound := h'.numbered k (h.numbered k sound)

theorem near_modifyTracker (w : World κ) (number : Nat) {f : Tracker κ → Tracker κ}
    (stores : ∀ t, ∃ listeners, (f t).store = { t.store with listeners })
    (sessions : ∀ t, (f t).sessions = t.sessions)
    (settings : ∀ t, (f t).settings = t.settings)
    (numbered : (w.tracker number).watchers.Sound → (f (w.tracker number)).watchers.Sound) :
    w.Near (w.modifyTracker number f) where
  count := List.length_modify _ _ _
  stores k := by
    rw [tracker_modifyTracker]
    split
    · exact stores _
    · exact ⟨_, rfl⟩
  storage := rfl
  sessions := proj_tracker_modifyTracker Tracker.sessions sessions w number
  settings := proj_tracker_modifyTracker Tracker.settings settings w number
  suspended := rfl
  clock := rfl
  nextSerial := rfl
  hasExecutor := rfl
  numbered k sound := by
    rw [tracker_modifyTracker]
    split
    · next here =>
      obtain ⟨rfl, _⟩ := here
      exact numbered sound
    · exact sound

theorem near_stampDraft (w : World κ) (draft : Draft) : w.Near (w.stampDraft draft).2 := by
  rw [stampDraft]
  split
  · exact .refl w
  · exact w.near_aside _ _ _

theorem near_tellWait (w : World κ) (number : Nat) (n : Notice) : w.Near (w.tellWait number n) :=
  w.near_aside _ _ _

theorem near_subscribeStore (w : World κ) (number : Nat) (a : Audience κ) :
    w.Near (w.subscribeStore number a).2 :=
  w.near_modifyTracker number (fun _ => ⟨_, rfl⟩) (fun _ => rfl) (fun _ => rfl) id

theorem near_subscribeSessions (w : World κ) (number : Nat) (a : Audience κ) :
    w.Near (w.subscribeSessions number a).2 :=
  w.near_modifyTracker number (fun _ => ⟨_, rfl⟩) (fun _ => rfl) (fun _ => rfl) fun sound =>
    sound.subscribe a

theorem near_release (w : World κ) (subscription : Subscription) :
    w.Near (w.release subscription) := by
  cases subscription with
  | inert => exact .refl w
  | store number listener =>
    exact w.near_modifyTracker number (fun _ => ⟨_, rfl⟩) (fun _ => rfl) (fun _ => rfl) id
  | sessions number listener =>
    exact w.near_modifyTracker number (fun _ => ⟨_, rfl⟩) (fun _ => rfl) (fun _ => rfl) fun sound =>
      sound.unsubscribe listener

theorem near_watch (w : World κ) (view : Nat) (label : κ) : w.Near (w.watch view label).2 := by
  simp only [watch]
  split
  · exact .refl w
  · split
    · exact w.near_subscribeStore _ _
    · exact w.near_subscribeSessions _ _

theorem near_snapshot (w : World κ) (view : Nat) : w.Near (w.snapshot view).2 :=
  w.near_aside _ _ _

theorem near_endWait (w : World κ) (wait : Nat) : w.Near (w.endWait wait) := by
  rw [endWait]
  split
  · exact .refl w
  · exact w.near_release _

theorem near_beginWait {w w' : World κ} {number wait : Nat} {id : TaskId}
    (begun : w.beginWait number id = some (wait, w')) : w.Near w' := by
  rw [beginWait] at begun
  split at begun
  · obtain ⟨_, rfl⟩ := Prod.mk.inj (Option.some.inj begun)
    exact (w.near_subscribeSessions number (.wait w.waits.length)).trans (near_aside _ _ _ _)
  · simp at begun

/-! ### Deeds -/

/-- The world after a deed. -/
def after (w : World κ) : Deed κ → World κ
  | .nothing => w
  | .opened key cadence => { w with trackers := w.trackers ++ [.ofStorage w.storage key cadence] }
  | .kept number task => w.mutate number ((w.tracker number).store.tasks.add task)
  | .patched number id patch => w.mutate number ((w.tracker number).store.tasks.update id patch)
  | .dropped number id => w.mutate number ((w.tracker number).store.tasks.remove id)
  | .cleared number => w.mutate number (w.tracker number).store.tasks.clearTerminal
  | .configured number settings => w.modifyTracker number fun t => { t with settings }
  | .began number id =>
    let serial := w.nextSerial
    let w := w.modifyTracker number fun t => { t with sessions := t.sessions.insert id serial }
    { w with nextSerial := serial + 1 }
  | .ended number id => w.modifyTracker number fun t => { t with sessions := t.sessions.erase id }
  | .paused entry => { w with suspended := w.suspended ++ [entry] }
  | .seeded key content => { w with storage := w.storage.seed key content }

/-- Something is done, and perhaps something else that nobody notices. No session is created
for a task that has one. -/
def Does (d : Deed κ) (w w' : World κ) : Prop :=
  ∃ w₁, w.Near w₁ ∧ w' = w₁.after d ∧
    ∀ number id, d = .began number id → (w.tracker number).isPolling id = false

theorem Near.does {w w' : World κ} (near : w.Near w') : w.Does .nothing w' :=
  ⟨w', near, rfl, nofun⟩

/-- A deed that creates no session can be done at any time. -/
theorem does_after {d : Deed κ} (w : World κ) (calm : d.begins = 0) : w.Does d (w.after d) := by
  refine ⟨w, .refl w, rfl, fun number id began => ?_⟩
  rw [began] at calm
  exact absurd calm Nat.one_ne_zero

/-- A session can be created for a task that has none. -/
theorem does_began {w : World κ} {number : Nat} {id : TaskId}
    (free : (w.tracker number).isPolling id = false) :
    w.Does (.began number id) (w.after (.began number id)) := by
  refine ⟨w, .refl w, rfl, fun k other began => ?_⟩
  obtain ⟨rfl, rfl⟩ := Deed.began.inj began
  exact free

/-- What is done after something that nobody notices. -/
theorem Near.and_does {w w₁ w₂ : World κ} {d : Deed κ} (near : w.Near w₁) (does : w₁.Does d w₂) :
    w.Does d w₂ := by
  obtain ⟨w', near', same, fresh⟩ := does
  refine ⟨w', near.trans near', same, fun number id began => ?_⟩
  rw [Tracker.isPolling, ← near.sessions]
  exact fresh number id began

/-! ### What a deed changes -/

theorem tracker_opened (w : World κ) (t : Tracker κ) (k : Nat) :
    ({ w with trackers := w.trackers ++ [t] } : World κ).tracker k =
      if k = w.trackers.length then t else w.tracker k := by
  rw [tracker, tracker, List.getD_eq_getElem?_getD, List.getD_eq_getElem?_getD,
    List.getElem?_append]
  split
  · next inside => rw [if_neg (Nat.ne_of_lt inside)]
  · next outside =>
    split
    · next last => simp [last]
    · next beyond =>
      have : 0 < k - w.trackers.length := by omega
      simp [List.getElem?_eq_none (Nat.le_of_not_lt outside), Nat.ne_of_gt this]

private theorem tasks_mutate {α : Type} (w : World κ) (number k : Nat)
    (change : Collection → Mutation α) :
    ((w.mutate number (change (w.tracker number).store.tasks)).tracker k).store.tasks =
      if number = k ∧ k < w.trackers.length then (change (w.tracker k).store.tasks).tasks
      else (w.tracker k).store.tasks := by
  rw [tracker_mutate]
  split
  · next here =>
    rw [← here.1]
    exact Store.tasks_apply _ _ _
  · rfl

private theorem sessions_mutate {α : Type} (w : World κ) (number k : Nat) (m : Mutation α) :
    ((w.mutate number m).tracker k).sessions = (w.tracker k).sessions := by
  rw [tracker_mutate]
  split <;> rfl

private theorem settings_mutate {α : Type} (w : World κ) (number k : Nat) (m : Mutation α) :
    ((w.mutate number m).tracker k).settings = (w.tracker k).settings := by
  rw [tracker_mutate]
  split <;> rfl

/-- Sessions come and go by being created and ended, and in no other way. -/
theorem sessions_after (w : World κ) (d : Deed κ) (k : Nat) :
    ((w.after d).tracker k).sessions =
      match d with
      | .began number id =>
        if number = k ∧ k < w.trackers.length then (w.tracker k).sessions.insert id w.nextSerial
        else (w.tracker k).sessions
      | .ended number id =>
        if number = k ∧ k < w.trackers.length then (w.tracker k).sessions.erase id
        else (w.tracker k).sessions
      | _ => (w.tracker k).sessions := by
  cases d with
  | nothing => rfl
  | opened key cadence =>
    rw [after, tracker_opened]
    split
    · next last =>
      rw [last, tracker, List.getD_eq_getElem?_getD, List.getElem?_eq_none (Nat.le_refl _)]
      rfl
    · rfl
  | kept number task => exact w.sessions_mutate number k _
  | patched number id patch => exact w.sessions_mutate number k _
  | dropped number id => exact w.sessions_mutate number k _
  | cleared number => exact w.sessions_mutate number k _
  | configured number settings =>
    refine w.proj_tracker_modifyTracker Tracker.sessions ?_ number k
    exact fun _ => rfl
  | began number id =>
    exact (congrArg Tracker.sessions (w.tracker_modifyTracker number k _)).trans
      (apply_ite Tracker.sessions _ _ _)
  | ended number id =>
    exact (congrArg Tracker.sessions (w.tracker_modifyTracker number k _)).trans
      (apply_ite Tracker.sessions _ _ _)
  | paused entry => rfl
  | seeded key content => rfl

/-- The collections that a deed can leave behind. -/
theorem tasks_after (w : World κ) (d : Deed κ) (k : Nat) :
    ((w.after d).tracker k).store.tasks =
      match d with
      | .opened key _ =>
        if k = w.trackers.length then .hydrate w.storage key else (w.tracker k).store.tasks
      | .kept number task =>
        if number = k ∧ k < w.trackers.length then ((w.tracker k).store.tasks.add task).tasks
        else (w.tracker k).store.tasks
      | .patched number id patch =>
        if number = k ∧ k < w.trackers.length then ((w.tracker k).store.tasks.update id patch).tasks
        else (w.tracker k).store.tasks
      | .dropped number id =>
        if number = k ∧ k < w.trackers.length then ((w.tracker k).store.tasks.remove id).tasks
        else (w.tracker k).store.tasks
      | .cleared number =>
        if number = k ∧ k < w.trackers.length then (w.tracker k).store.tasks.clearTerminal.tasks
        else (w.tracker k).store.tasks
      | _ => (w.tracker k).store.tasks := by
  cases d with
  | nothing => rfl
  | opened key cadence =>
    rw [after, tracker_opened]
    split <;> rfl
  | kept number task => exact w.tasks_mutate number k (·.add task)
  | patched number id patch => exact w.tasks_mutate number k (·.update id patch)
  | dropped number id => exact w.tasks_mutate number k (·.remove id)
  | cleared number => exact w.tasks_mutate number k Collection.clearTerminal
  | configured number settings =>
    refine w.proj_tracker_modifyTracker (fun t => t.store.tasks) ?_ number k
    exact fun _ => rfl
  | began number id =>
    refine w.proj_tracker_modifyTracker (fun t => t.store.tasks) ?_ number k
    exact fun _ => rfl
  | ended number id =>
    refine w.proj_tracker_modifyTracker (fun t => t.store.tasks) ?_ number k
    exact fun _ => rfl
  | paused entry => rfl
  | seeded key content => rfl

theorem settings_after (w : World κ) (d : Deed κ) (k : Nat) :
    ((w.after d).tracker k).settings =
      match d with
      | .opened _ cadence =>
        if k = w.trackers.length then { cadence } else (w.tracker k).settings
      | .configured number settings =>
        if number = k ∧ k < w.trackers.length then settings else (w.tracker k).settings
      | _ => (w.tracker k).settings := by
  cases d with
  | nothing => rfl
  | opened key cadence =>
    rw [after, tracker_opened]
    split <;> rfl
  | kept number task => exact w.settings_mutate number k _
  | patched number id patch => exact w.settings_mutate number k _
  | dropped number id => exact w.settings_mutate number k _
  | cleared number => exact w.settings_mutate number k _
  | configured number settings =>
    exact (congrArg Tracker.settings (w.tracker_modifyTracker number k _)).trans
      (apply_ite Tracker.settings _ _ _)
  | began number id =>
    refine w.proj_tracker_modifyTracker Tracker.settings ?_ number k
    exact fun _ => rfl
  | ended number id =>
    refine w.proj_tracker_modifyTracker Tracker.settings ?_ number k
    exact fun _ => rfl
  | paused entry => rfl
  | seeded key content => rfl

/-! ### What every deed keeps -/

/-- The sessions of a later world lived before or have new serial numbers, and serial numbers are
never given twice. -/
structure Succeeds (w w' : World κ) : Prop where
  serials : w.nextSerial ≤ w'.nextSerial
  lives : ∀ S, w'.lives S → w.lives S ∨ w.nextSerial ≤ S.serial ∧ S.serial < w'.nextSerial

theorem Succeeds.refl (w : World κ) : w.Succeeds w := ⟨Nat.le_refl _, fun _ => .inl⟩

theorem Succeeds.trans {w w₁ w₂ : World κ} (h : w.Succeeds w₁) (h' : w₁.Succeeds w₂) :
    w.Succeeds w₂ where
  serials := Nat.le_trans h.serials h'.serials
  lives S living := by
    rcases h'.lives S living with living | ⟨new, below⟩
    · rcases h.lives S living with living | ⟨new, below⟩
      · exact .inl living
      · exact .inr ⟨new, Nat.lt_of_lt_of_le below h'.serials⟩
    · exact .inr ⟨Nat.le_trans h.serials new, below⟩

theorem lives_iff {w : World κ} {S : SessionName} :
    w.lives S ↔ (w.tracker S.tracker).sessions.find? S.id = some S.serial := by
  simp only [lives, Tracker.isLive, beq_iff_eq]

/-- A session lives only on a tracker that has been opened. -/
theorem inside_of_lives {w : World κ} {S : SessionName} (lives : w.lives S = true) :
    S.tracker < w.trackers.length := by
  refine Nat.lt_of_not_le fun outside => ?_
  rw [lives_iff, tracker, List.getD_eq_getElem?_getD, List.getElem?_eq_none outside] at lives
  exact absurd lives.symm (Option.some_ne_none _)

theorem lives_after_ended (w : World κ) (S : SessionName) :
    (w.after (.ended S.tracker S.id)).lives S = false := by
  refine Bool.eq_false_iff.mpr fun lives => ?_
  have inside : S.tracker < w.trackers.length := by
    have inside := inside_of_lives lives
    rwa [after, modifyTracker, List.length_modify] at inside
  rw [lives_iff, sessions_after] at lives
  dsimp only at lives
  rw [if_pos ⟨rfl, inside⟩, Dictionary.find?_erase, if_pos rfl] at lives
  exact absurd lives.symm (Option.some_ne_none _)

variable {w w' : World κ} {d : Deed κ}

theorem Near.lives (near : w.Near w') (S : SessionName) : w'.lives S = w.lives S := by
  simp only [World.lives, Tracker.isLive, near.sessions]

theorem Near.succeeds (near : w.Near w') : w.Succeeds w' where
  serials := Nat.le_of_eq near.nextSerial.symm
  lives S living := .inl (near.lives S ▸ living)

theorem nextSerial_after (w : World κ) (d : Deed κ) :
    (w.after d).nextSerial = w.nextSerial + d.begins := by
  cases d <;> rfl

theorem succeeds_after (w : World κ) (d : Deed κ) : w.Succeeds (w.after d) := by
  refine ⟨nextSerial_after w d ▸ Nat.le_add_right _ _, fun S living => ?_⟩
  · rw [lives_iff, sessions_after] at living
    rw [lives_iff, nextSerial_after]
    split at living
    · split at living
      · next here =>
        rw [Dictionary.find?_insert] at living
        split at living
        · have same : w.nextSerial = S.serial := Option.some.inj living
          exact .inr ⟨Nat.le_of_eq same, same ▸ Nat.lt_succ_self _⟩
        · exact .inl living
      · exact .inl living
    · split at living
      · rw [Dictionary.find?_erase] at living
        split at living
        · simp at living
        · exact .inl living
      · exact .inl living
    · exact .inl living

theorem Does.succeeds (does : w.Does d w') : w.Succeeds w' := by
  obtain ⟨w₁, near, rfl, _⟩ := does
  exact near.succeeds.trans (w₁.succeeds_after d)

theorem Does.clock (does : w.Does d w') : w'.clock = w.clock := by
  obtain ⟨w₁, near, rfl, _⟩ := does
  rw [← near.clock]
  cases d <;> rfl

theorem Does.hasExecutor (does : w.Does d w') : w'.hasExecutor = w.hasExecutor := by
  obtain ⟨w₁, near, rfl, _⟩ := does
  rw [← near.hasExecutor]
  cases d <;> rfl

theorem Does.suspended (does : w.Does d w') : w'.suspended = w.suspended ++ d.suspends := by
  obtain ⟨w₁, near, rfl, _⟩ := does
  rw [← near.suspended]
  cases d <;> first | rfl | exact (List.append_nil _).symm

theorem Does.nextSerial (does : w.Does d w') : w'.nextSerial = w.nextSerial + d.begins := by
  obtain ⟨w₁, near, rfl, _⟩ := does
  rw [nextSerial_after, near.nextSerial]

theorem Does.inside (does : w.Does d w') {k : Nat} (inside : k < w.trackers.length) :
    k < w'.trackers.length := by
  obtain ⟨w₁, near, rfl, _⟩ := does
  rw [← near.count] at inside
  cases d with
  | opened key cadence => simpa [after] using Nat.lt_succ_of_lt inside
  | nothing => exact inside
  | paused entry => exact inside
  | seeded key content => exact inside
  | kept number task => exact (List.length_modify _ _ _).symm ▸ inside
  | patched number id patch => exact (List.length_modify _ _ _).symm ▸ inside
  | dropped number id => exact (List.length_modify _ _ _).symm ▸ inside
  | cleared number => exact (List.length_modify _ _ _).symm ▸ inside
  | configured number settings => exact (List.length_modify _ _ _).symm ▸ inside
  | began number id => exact (List.length_modify _ _ _).symm ▸ inside
  | ended number id => exact (List.length_modify _ _ _).symm ▸ inside

/-- Listeners of sessions keep their numbers, and no two have the same. -/
theorem Does.numbered (does : w.Does d w') {k : Nat} (sound : (w.tracker k).watchers.Sound) :
    (w'.tracker k).watchers.Sound := by
  obtain ⟨w₁, near, rfl, _⟩ := does
  have before := near.numbered k sound
  cases d with
  | nothing => exact before
  | paused entry => exact before
  | seeded key content => exact before
  | opened key cadence =>
    rw [after, tracker_opened]
    split
    · exact Registry.Sound.empty
    · exact before
  | kept number task => rw [after, tracker_mutate]; split <;> exact before
  | patched number id patch => rw [after, tracker_mutate]; split <;> exact before
  | dropped number id => rw [after, tracker_mutate]; split <;> exact before
  | cleared number => rw [after, tracker_mutate]; split <;> exact before
  | configured number settings => rw [after, tracker_modifyTracker]; split <;> exact before
  | began number id =>
    refine (w₁.proj_tracker_modifyTracker Tracker.watchers ?_ number k).symm ▸ before
    exact fun _ => rfl
  | ended number id => rw [after, tracker_modifyTracker]; split <;> exact before

/-- In every store each record is kept under its own identifier. -/
def Keyed (w : World κ) : Prop := ∀ k, (w.tracker k).store.tasks.Keyed

theorem Does.keyed (does : w.Does d w') (keyed : w.Keyed) : w'.Keyed := by
  obtain ⟨w₁, near, rfl, _⟩ := does
  intro k
  have before : (w₁.tracker k).store.tasks.Keyed := near.tasks k ▸ keyed k
  rw [tasks_after]
  split
  · split
    · exact Collection.keyed_hydrate _ _
    · exact before
  · split
    · exact before.add _
    · exact before
  · split
    · exact before.update _ _
    · exact before
  · split
    · exact before.remove _
    · exact before
  · split
    · exact before.clearTerminal
    · exact before
  · exact before

/-! ### What a deed elsewhere leaves alone -/

/-- A task and its tracker look the same in two worlds, sessions apart. -/
structure Sees (n : Nat) (id : TaskId) (w w' : World κ) : Prop where
  settings : (w'.tracker n).settings = (w.tracker n).settings
  record : (w'.tracker n).store.tasks.find? id = (w.tracker n).store.tasks.find? id

theorem Sees.trans {n : Nat} {id : TaskId} {w₁ w₂ : World κ} (h : Sees n id w w₁)
    (h' : Sees n id w₁ w₂) : Sees n id w w₂ :=
  ⟨h'.settings.trans h.settings, h'.record.trans h.record⟩

theorem Near.sees (near : w.Near w') (n : Nat) (id : TaskId) : Sees n id w w' :=
  ⟨near.settings n, by rw [near.tasks]⟩

theorem sees_after {n : Nat} {id : TaskId} (inside : n < w.trackers.length) (keyed : w.Keyed)
    (elsewhere : d.IsWithin fun k i => ¬ (k = n ∧ i = id)) : Sees n id w (w.after d) := by
  refine ⟨?_, ?_⟩
  · rw [settings_after]
    split
    · exact if_neg (Nat.ne_of_lt inside)
    · next number settings =>
      exact if_neg fun here => elsewhere id ⟨here.1, rfl⟩
    · rfl
  · rw [tasks_after]
    split
    · rw [if_neg (Nat.ne_of_lt inside)]
    · next number task =>
      split
      · next here =>
        rw [Collection.find?_add, if_neg fun same => elsewhere ⟨here.1, same.symm⟩]
      · rfl
    · next number other patch =>
      split
      · next here =>
        rw [Collection.find?_update (keyed n), if_neg fun same => elsewhere ⟨here.1, same.1.symm⟩]
      · rfl
    · next number other =>
      split
      · next here =>
        rw [Collection.find?_remove, if_neg fun same => elsewhere ⟨here.1, same.symm⟩]
      · rfl
    · next number => rw [if_neg fun here => elsewhere id ⟨here.1, rfl⟩]
    · rfl

theorem Does.sees (does : w.Does d w') {n : Nat} {id : TaskId} (inside : n < w.trackers.length)
    (keyed : w.Keyed) (elsewhere : d.IsWithin fun k i => ¬ (k = n ∧ i = id)) :
    Sees n id w w' := by
  obtain ⟨w₁, near, rfl, _⟩ := does
  refine (near.sees n id).trans (sees_after (near.count ▸ inside) (fun k => ?_) elsewhere)
  exact near.tasks k ▸ keyed k

/-- A session lives on unless something is done to its task. -/
theorem Does.lives (does : w.Does d w') {S : SessionName} (living : w.lives S)
    (elsewhere : d.IsWithin fun k i => ¬ (k = S.tracker ∧ i = S.id)) : w'.lives S := by
  obtain ⟨w₁, near, rfl, fresh⟩ := does
  rw [← near.lives, lives_iff] at living
  rw [lives_iff, sessions_after]
  split
  · next number id =>
    split
    · next here =>
      have other : S.id ≠ id := by
        rintro rfl
        have idle := fresh number S.id rfl
        rw [here.1, Tracker.isPolling, Dictionary.contains, ← near.sessions, living] at idle
        simp at idle
      rw [Dictionary.find?_insert, if_neg other]
      exact living
    · exact living
  · next number id =>
    split
    · next here =>
      rw [Dictionary.find?_erase, if_neg fun same => elsewhere ⟨here.1, same.symm⟩]
      exact living
    · exact living
  · exact living

end World

end TaskWatch
