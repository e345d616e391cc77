import Mathlib.Data.Set.Card
import TaskWatch.Proofs.Run.Noting
import TaskWatch.Proofs.Session.Pacing
import TaskWatch.Proofs.Session.Reopening

/-!
# Time can always pass

When callbacks and listeners only observe, fetchers do not keep the executor busy, and intervals are
positive, a session that has had its turn is not due again at the same time. So there are only so
many turns at one time, and then the clock moves on: time passes for as long as anyone likes.

## Main definitions

* `Backend.IsPrompt` — fetchers wait for some time when they wait.
* `World.due` — the tasks whose sessions are to have a turn at the present time.

## Main results

* `Facet.turn_isQuiet` — after a turn no other one is due.
* `Machine.exists_quiet` — the executor gets to the end of the turns at one time.
* `Machine.exists_executes` — time passes.
* `Machine.exists_runUntil` — the executor lets it pass until something has happened.
-/

namespace TaskWatch

variable {σ κ : Type}

/-- A fetcher that does not answer at once waits for a millisecond at least. -/
def Backend.IsPrompt (b : Backend κ) : Prop :=
  ∀ fetcher request turn, b.progress fetcher request turn ≠ some .yield ∧
    b.progress fetcher request turn ≠ some (.wait 0)

/-! ### One task by itself -/

namespace Facet

variable {F : Facet κ} {b : Backend κ} {id : TaskId} {s : Stint κ}

theorem isQuiet_of_nobody (nobody : F.session = none) : F.IsQuiet := by
  intro time due
  simp [Facet.due, nobody] at due

theorem isQuiet_paused (s : Stint κ) {pause : Pause} (waits : pause ≠ .fresh)
    (later : ∀ wake ∈ pause.wakeTime, F.clock < wake) : (F.paused s pause).1.IsQuiet := by
  intro time due
  obtain ⟨wake, wakes, rfl⟩ : ∃ wake, pause.wakeTime = some wake ∧ max F.clock wake = time := by
    simpa [Facet.due, paused, waits] using due
  exact Nat.lt_of_lt_of_le (later wake wakes) (Nat.le_max_right _ _)

theorem isQuiet_sleeps (s : Stint κ) {millis : Nat} (some : 1 ≤ millis) :
    (F.sleeps s millis).1.IsQuiet := by
  refine isQuiet_paused s (by simp) fun wake wakes => ?_
  obtain rfl : F.clock + millis = wake := Option.some.inj wakes
  exact Nat.lt_add_of_pos_right some

section Turn

variable (positive : F.settings.cadence.IsPositive)

include positive

theorem isQuiet_afterStatus (id : TaskId) (s : Stint κ) (report : Report) (hooks : Hooks κ) :
    (F.afterStatus id s report hooks).1.IsQuiet := by
  rw [afterStatus]
  split
  · exact isQuiet_of_nobody rfl
  · exact isQuiet_of_nobody rfl
  · exact isQuiet_sleeps s (positive.intervalFor _)

theorem isQuiet_changeStatus (id : TaskId) (s : Stint κ) (report : Report) (hooks : Hooks κ) :
    (F.changeStatus id s report hooks).1.IsQuiet :=
  isQuiet_afterStatus positive id { s with last := some report.status } report hooks

theorem isQuiet_receive (id : TaskId) (s : Stint κ) (result : Answer) :
    (F.receive id s result).1.IsQuiet := by
  cases result with
  | error e => exact isQuiet_sleeps s positive.queued
  | ok report =>
    rw [receive]
    split
    · exact isQuiet_afterStatus positive id s report _
    · rw [recordStatus]
      split
      · exact isQuiet_changeStatus positive id s report _
      · next task _ =>
        split
        · dsimp only
          split
          · exact isQuiet_changeStatus positive id s report _
          · let written : Facet κ := { F with record := some (task.patched (.ofStatus report.status)) }
            exact isQuiet_changeStatus (F := written) positive id s report _
        · exact isQuiet_afterStatus positive id s report _

theorem isQuiet_fetch (prompt : b.IsPrompt) (id : TaskId) (s : Stint κ) (turn : Nat) :
    (F.fetch b id s turn).1.IsQuiet := by
  obtain ⟨yields, waits⟩ := prompt s.fetcher ⟨id, s.calls, false⟩ turn
  show (F.goesOn id s turn (b.progress s.fetcher ⟨id, s.calls, false⟩ turn)).1.IsQuiet
  cases progress : b.progress s.fetcher ⟨id, s.calls, false⟩ turn with
  | none => exact isQuiet_of_nobody rfl
  | some step =>
    rw [progress] at yields waits
    cases step with
    | answer result => exact isQuiet_receive positive id s result
    | yield => exact absurd rfl yields
    | wait millis =>
      have some : 1 ≤ millis := Nat.pos_of_ne_zero fun zero => waits (zero ▸ rfl)
      refine isQuiet_paused s (by simp) fun wake wakes => ?_
      obtain rfl : F.clock + millis = wake := Option.some.inj wakes
      exact Nat.lt_add_of_pos_right some
    | hang => exact isQuiet_paused s (by simp) (by simp [Pause.wakeTime])

/-- After a turn of the session no other one is due. -/
theorem turn_isQuiet (prompt : b.IsPrompt) (id : TaskId) : (F.turn b id).1.IsQuiet := by
  rw [turn]
  split
  · next nobody => exact isQuiet_of_nobody nobody
  · exact isQuiet_fetch positive prompt id _ _
  · exact isQuiet_fetch positive prompt id _ _
  · exact isQuiet_fetch positive prompt id _ _

end Turn

end Facet

/-! ### Turns at one time -/

namespace World

variable {w w' : World κ} {number : Nat} {id : TaskId} {F : Facet κ}

/-- The tasks whose sessions are to have a turn at the present time. -/
def due (w : World κ) (number : Nat) : Set TaskId := {id | ∃ F, w.Shows number id F ∧ ¬ F.IsQuiet}

theorem mem_due_iff (shows : w.Shows number id F) : id ∈ w.due number ↔ ¬ F.IsQuiet := by
  refine ⟨?_, fun busy => ⟨F, shows, busy⟩⟩
  rintro ⟨G, shown, busy⟩
  exact shown.unique shows ▸ busy

theorem finite_due (w : World κ) (number : Nat) : (w.due number).Finite := by
  refine ((w.tracker number).sessions.keys.toFinset.finite_toSet).subset ?_
  rintro id ⟨F, shows, busy⟩
  have session : F.session ≠ none := fun nobody => busy (Facet.isQuiet_of_nobody nobody)
  have polled : (w.tracker number).isPolling id = true := by
    rw [shows.isPolling]
    exact Option.isSome_iff_ne_none.mpr session
  simpa [Tracker.isPolling, Dictionary.contains, Dictionary.mem_keys] using polled

end World

namespace Machine

variable {c : Consumer σ κ} {b : Backend κ} {m m' : Machine σ κ} {number : Nat}

/-- The executor has got somewhere by itself, and nothing is different but for its sessions. -/
structure Settles (c : Consumer σ κ) (number : Nat) (m : Machine σ κ) (states : List (Machine σ κ))
    (m' : Machine σ κ) : Prop where
  executes : Executes c m states m'
  idle : m'.isIdle = true
  settled : m'.world.Settled number
  settings : (m'.world.tracker number).settings = (m.world.tracker number).settings

theorem Settles.refl (idle : m.isIdle = true) (settled : m.world.Settled number) :
    Settles c number m [] m :=
  ⟨.start, idle, settled, rfl⟩

theorem Settles.trans {m₁ : Machine σ κ} {first states : List (Machine σ κ)}
    (settles : Settles c number m first m₁) (further : Settles c number m₁ states m') :
    Settles c number m (first ++ states) m' :=
  ⟨settles.executes.trans further.executes, further.idle, further.settled,
    further.settings.trans settles.settings⟩

/-- When nobody is ready the clock may move on. -/
theorem Settles.tick {states : List (Machine σ κ)} (settles : Settles c number m states m')
    (quiet : m'.isQuiet = true) {time : Nat} (later : m'.world.clock ≤ time)
    (due : ∀ entry ∈ m'.world.suspended, ∀ wake ∈ entry.pause.wakeTime, time ≤ wake) :
    Settles c number m (states ++ [m'.atTime time]) (m'.atTime time) :=
  ⟨settles.executes.tick quiet later due, settles.idle, settles.settled.atTime time,
    settles.settings⟩

section Turn

variable {sooner later : List (Suspended κ)} {entry : Suspended κ}

/-- A session that was ready has had its turn, and the executor has nothing to do any more. -/
private structure HasTurn (c : Consumer σ κ) (number : Nat) (m : Machine σ κ)
    (sooner later : List (Suspended κ)) (entry : Suspended κ) (states : List (Machine σ κ))
    (m' : Machine σ κ) : Prop where
  path : Path c ((m.withWorld { m.world with suspended := sooner ++ later }).wake entry) states m'
  settles : Settles c number m
    ((m.withWorld { m.world with suspended := sooner ++ later }).wake entry :: states) m'
  clock : m'.world.clock = m.world.clock

/-- A session that lives and is ready has its turn, and then it is not due any more. -/
private theorem exists_turn_living (obeys : c.Obeys b) (prompt : b.IsPrompt)
    (positive : (m.world.tracker number).settings.cadence.IsPositive) (idle : m.isIdle = true)
    (settled : m.world.Settled number) (listed : m.world.suspended = sooner ++ entry :: later)
    (ready : m.world.isReady entry = true) (lives : m.world.lives entry.task.name = true) :
    ∃ states m', HasTurn c number m sooner later entry states m' ∧
      (m'.world.due number).ncard < (m.world.due number).ncard := by
  obtain rfl : entry.task.tracker = number := settled.sole _ lives
  obtain ⟨F, shows⟩ := settled.shown entry.task.id
  obtain ⟨session, _⟩ := shows.taken listed lives
  obtain ⟨states, memory, reply, after, path, _, affair⟩ :=
    wake_lands obeys settled.toTidy shows (stack_of_isIdle idle) listed lives
  have tidy := settled.without listed
  have others : ∀ id G, id ≠ entry.task.id → m.world.Shows entry.task.tracker id G →
      after.Shows entry.task.tracker id G := fun id G elsewhere shown =>
    affair.goes.shows tidy elsewhere <| shown.without listed fun serial _ same =>
      elsewhere (congrArg SessionName.id same).symm
  have quiet : (F.turn b entry.task.id).1.IsQuiet :=
    Facet.turn_isQuiet (shows.settings ▸ positive) prompt _
  have due : entry.task.id ∈ m.world.due entry.task.tracker :=
    (World.mem_due_iff shows).mpr fun quiet =>
      Nat.lt_irrefl _ (quiet _ (shows.due_of_isReady session lives ready))
  have left : after.due entry.task.tracker = m.world.due entry.task.tracker \ {entry.task.id} :=
    Set.ext fun id => by
      by_cases here : id = entry.task.id
      · rw [here, World.mem_due_iff affair.shows]
        simp [quiet]
      · obtain ⟨G, shown⟩ := settled.shown id
        rw [Set.mem_sdiff, World.mem_due_iff (others id G here shown), World.mem_due_iff shown]
        simp [here]
  have shown : ∀ id, ∃ G, after.Shows entry.task.tracker id G := fun id => by
    by_cases here : id = entry.task.id
    · exact here ▸ ⟨_, affair.shows⟩
    · obtain ⟨G, shown⟩ := settled.shown id
      exact ⟨G, others id G here shown⟩
  have settings : (after.tracker entry.task.tracker).settings =
      (m.world.tracker entry.task.tracker).settings :=
    World.Undergoes.settings affair.goes (fun _ within => .inl (within.mono fun _ _ => trivial)) _
  have clock := World.Undergoes.clock affair.goes
  have fewer := Set.ncard_sdiff_singleton_lt_of_mem due (m.world.finite_due _)
  exact ⟨states, _, ⟨path, ⟨(Executes.start.wake idle listed ready).trans path.executes, rfl,
    ⟨World.Goes.tidy affair.goes tidy, shown⟩, settings⟩, clock⟩, left ▸ fewer⟩

/-- A session that has been stopped has its last turn, and nothing else changes. -/
private theorem exists_turn_dead (obeys : c.Obeys b) (idle : m.isIdle = true)
    (settled : m.world.Settled number) (listed : m.world.suspended = sooner ++ entry :: later)
    (ready : m.world.isReady entry = true) (dead : m.world.lives entry.task.name = false) :
    ∃ states m', HasTurn c number m sooner later entry states m' ∧
      m'.world.due number = m.world.due number ∧
      m'.world.suspended.length < m.world.suspended.length := by
  let w := { m.world with suspended := sooner ++ later }
  obtain ⟨states, memory, reply, after, path, rfl, _⟩ :=
    wake_lands_dead (m := m.withWorld w) obeys number (stack_of_isIdle idle) dead
  have same : ∀ id G, m.world.Shows number id G → w.Shows number id G := fun id G shown =>
    shown.without listed fun serial living same =>
      Bool.false_ne_true (dead.symm.trans (same ▸ living))
  have shown : ∀ id, ∃ G, w.Shows number id G := fun id => by
    obtain ⟨G, shown⟩ := settled.shown id
    exact ⟨G, same id G shown⟩
  have due : w.due number = m.world.due number := Set.ext fun id => by
    obtain ⟨G, shown⟩ := settled.shown id
    rw [World.mem_due_iff (same id G shown), World.mem_due_iff shown]
  refine ⟨states, _, ⟨path, ⟨(Executes.start.wake idle listed ready).trans path.executes, rfl,
    ⟨settled.without listed, shown⟩, rfl⟩, rfl⟩, due, ?_⟩
  show (sooner ++ later).length < m.world.suspended.length
  rw [listed, List.length_append, List.length_append]
  exact Nat.add_lt_add_left (Nat.lt_succ_self _) _

/-- With enough steps for this turn the executor goes on after it. -/
private theorem HasTurn.runReady_eq {states : List (Machine σ κ)}
    (turned : HasTurn c number m sooner later entry states m') (idle : m.isIdle = true)
    (taken : m.world.takeReady =
      some (entry, { m.world with suspended := sooner ++ later })) {steps : Nat}
    (enough : states.length ≤ steps) (turns : Nat) :
    runReady c steps (turns + 1) m = runReady c steps turns m' := by
  rw [runReady, if_pos idle, taken]
  exact congrArg _ (turned.path.settle_eq turned.settles.idle enough)

end Turn

section Passing

variable (obeys : c.Obeys b) (prompt : b.IsPrompt)
  (positive : (m.world.tracker number).settings.cadence.IsPositive) (idle : m.isIdle = true)
  (settled : m.world.Settled number)

include obeys prompt positive idle settled

/-- Whoever is ready has a turn, until there is nothing left to do at this time. The executor gets
there when it is given enough steps and turns. -/
theorem exists_quiet : ∃ least states m', Settles c number m states m' ∧ m'.isQuiet = true ∧
    m'.world.clock = m.world.clock ∧
    ∀ steps turns, least ≤ steps → least ≤ turns → runReady c steps turns m = m' := by
  -- A session that lives has one turn at a time, and one that has ended is not suspended again.
  induction turns : (m.world.due number).ncard using Nat.strongRecOn generalizing m with
  | _ turns ih =>
    induction suspended : m.world.suspended.length using Nat.strongRecOn generalizing m with
    | _ suspended ih' =>
      obtain ⟨none, waits⟩ | ⟨sooner, entry, later, listed, ready, taken⟩ := m.world.takeReady_cases
      · have quiet : m.isQuiet = true := by
          simpa [isQuiet, idle] using waits
        refine ⟨0, [], m, .refl idle settled, quiet, rfl, fun steps turns _ _ => ?_⟩
        cases turns with
        | zero => rfl
        | succ turns => rw [runReady, if_pos idle, none]
      -- The executor goes on after the turn as it would have done at once.
      have goesOn : ∀ {first m₁}, HasTurn c number m sooner later entry first m₁ →
          (∃ least states m', Settles c number m₁ states m' ∧ m'.isQuiet = true ∧
            m'.world.clock = m₁.world.clock ∧
            ∀ steps turns, least ≤ steps → least ≤ turns → runReady c steps turns m₁ = m') →
          ∃ least states m', Settles c number m states m' ∧ m'.isQuiet = true ∧
            m'.world.clock = m.world.clock ∧
            ∀ steps turns, least ≤ steps → least ≤ turns → runReady c steps turns m = m' := by
        rintro first m₁ turned ⟨least, states, m', further, quiet, clock, runs⟩
        refine ⟨max first.length (least + 1), _, m', turned.settles.trans further, quiet,
          clock.trans turned.clock, fun steps turns enough many => ?_⟩
        obtain ⟨turns, rfl⟩ : ∃ rest, turns = rest + 1 := ⟨turns - 1, by omega⟩
        rw [turned.runReady_eq idle taken (by omega)]
        exact runs steps turns (by omega) (by omega)
      by_cases lives : m.world.lives entry.task.name = true
      · obtain ⟨first, m₁, turned, fewer⟩ :=
          exists_turn_living obeys prompt positive idle settled listed ready lives
        have settles := turned.settles
        exact goesOn turned
          (ih _ (turns ▸ fewer) (settles.settings ▸ positive) settles.idle settles.settled rfl)
      · obtain ⟨first, m₁, turned, same, shorter⟩ :=
          exists_turn_dead obeys idle settled listed ready (Bool.eq_false_iff.mpr lives)
        have settles := turned.settles
        exact goesOn turned (ih' _ (suspended ▸ shorter) (settles.settings ▸ positive) settles.idle
          settles.settled (same ▸ turns) rfl)

/-- Time passes until a deadline. -/
theorem exists_executes {deadline : Nat} (later : m.world.clock ≤ deadline) :
    ∃ states m', Settles c number m states m' ∧ m'.world.clock = deadline := by
  obtain ⟨left, rfl⟩ := Nat.exists_eq_add_of_le later
  clear later
  induction left generalizing m with
  | zero => exact ⟨[], m, .refl idle settled, rfl⟩
  | succ left ih =>
    obtain ⟨_, first, m₁, settles, quiet, clock, _⟩ :=
      exists_quiet obeys prompt positive idle settled
    -- Nobody is ready at the present time, so nobody is due before the next millisecond.
    have due : ∀ entry ∈ m₁.world.suspended, ∀ wake ∈ entry.pause.wakeTime,
        m₁.world.clock + 1 ≤ wake := by
      intro entry mem wake wakes
      have waits := List.all_eq_true.mp (Bool.and_eq_true_iff.mp quiet).2 entry mem
      by_contra soon
      have past : wake ≤ m₁.world.clock := Nat.le_of_lt_succ (Nat.lt_of_not_le soon)
      simp [World.isReady, Option.mem_def.mp wakes, past] at waits
    have whole := settles.tick quiet (Nat.le_succ _) due
    obtain ⟨states, m', further, clock'⟩ := ih (whole.settings ▸ positive) whole.idle whole.settled
    refine ⟨_, m', whole.trans further, clock'.trans ?_⟩
    show m₁.world.clock + 1 + left = _
    rw [clock, Nat.add_right_comm, Nat.add_assoc]

/-- The executor lets time pass until it is over or until the deadline, when it is given enough steps
and turns at each time. -/
theorem exists_runUntil {deadline : Nat} (isOver : World κ → Bool) {rounds : Nat}
    (before : m.world.clock ≤ deadline) (enough : deadline < m.world.clock + rounds) :
    ∃ least states m', Settles c number m states m' ∧
      (isOver m'.world = true ∨ m'.world.clock = deadline) ∧
      ∀ limit, least ≤ limit → runUntil c limit deadline isOver rounds m = m' := by
  induction rounds generalizing m with
  | zero => exact absurd before (Nat.not_le_of_lt enough)
  | succ rounds ih =>
    obtain ⟨least, first, m₁, settles, quiet, clock, runs⟩ :=
      exists_quiet obeys prompt positive idle settled
    have before₁ : m₁.world.clock ≤ deadline := clock ▸ before
    by_cases halted : isOver m₁.world = true
    · refine ⟨least, first, m₁, settles, .inl halted, fun limit much => ?_⟩
      rw [runUntil, runs limit limit much much]
      exact if_pos (by simp [halted])
    have goesOn : ∀ limit, least ≤ limit → runUntil c limit deadline isOver (rounds + 1) m =
        m₁.world.nextWake.elim (m₁.atTime deadline) fun time =>
          if time ≤ deadline then runUntil c limit deadline isOver rounds (m₁.atTime time)
          else m₁.atTime deadline := fun limit much => by
      rw [runUntil, runs limit limit much much]
      refine (if_neg (by simp [halted, quiet])).trans ?_
      cases m₁.world.nextWake <;> rfl
    cases next : m₁.world.nextWake with
    | none =>
      rw [next] at goesOn
      refine ⟨least, _, _, settles.tick quiet before₁ fun entry mem wake due => ?_, .inr rfl,
        goesOn⟩
      simp [nextWake_none next entry mem] at due
    | some time =>
      rw [next] at goesOn
      have due := nextWake_le next
      by_cases inTime : time ≤ deadline
      · -- The clock moves by a millisecond at least.
        have soon := lt_nextWake quiet next
        have whole := settles.tick quiet (Nat.le_of_lt soon) due
        have left : deadline < time + rounds := by omega
        obtain ⟨least', states, m', further, ends, runs'⟩ :=
          ih (whole.settings ▸ positive) whole.idle whole.settled inTime left
        refine ⟨max least least', _, m', whole.trans further, ends, fun limit much => ?_⟩
        rw [goesOn limit (by omega)]
        exact (if_pos inTime).trans (runs' limit (by omega))
      · refine ⟨least, _, _, settles.tick quiet before₁ fun entry mem wake at_ => ?_, .inr rfl,
          fun limit much => (goesOn limit much).trans (if_neg inTime)⟩
        exact Nat.le_of_lt (Nat.lt_of_lt_of_le (Nat.lt_of_not_le inTime) (due entry mem wake at_))

end Passing

end Machine

end TaskWatch
