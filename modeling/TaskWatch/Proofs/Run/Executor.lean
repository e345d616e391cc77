import TaskWatch.Proofs.Run.Step

/-!
# The executor makes runs

Everything that the executor does is a run: consumer code that it runs to its end, time that it lets
pass, waiting for sessions, and going away. So whatever holds along runs holds for programs that
drive the library through the executor.

## Main definitions

* `Machine.Executes` — the executor works, and nothing is done from outside.

## Main results

* `Machine.runUntil_executes` — letting time pass is work of the executor.
* `Machine.call_leads`, `Machine.advance_leads`, `Machine.await_leads`, `Machine.abandonAll_leads` —
  what the executor does is a run.
* `Machine.run_steps` — so many steps are a run if the machine is busy before each of them.
-/

namespace TaskWatch

variable {σ κ : Type}

namespace World

theorem takeFirst_eq_some {α : Type} {test : α → Bool} {l others : List α} {found : α}
    (h : takeFirst test l = some (found, others)) :
    ∃ before after, l = before ++ found :: after ∧ others = before ++ after ∧ test found = true := by
  induction l generalizing others with
  | nil => simp [takeFirst] at h
  | cons a rest ih =>
    rw [takeFirst] at h
    split at h
    · next passes =>
      obtain ⟨rfl, rfl⟩ := Prod.mk.inj (Option.some.inj h)
      exact ⟨[], rest, rfl, rfl, passes⟩
    · split at h
      · simp at h
      · next taken =>
        obtain ⟨rfl, rfl⟩ := Prod.mk.inj (Option.some.inj h)
        obtain ⟨before, after, rfl, rfl, passes⟩ := ih taken
        exact ⟨a :: before, after, rfl, rfl, passes⟩

theorem takeFirst_eq_none {α : Type} {test : α → Bool} {l : List α} (h : takeFirst test l = none) :
    ∀ a ∈ l, test a = false := by
  induction l with
  | nil => exact nofun
  | cons a rest ih =>
    rw [takeFirst] at h
    split at h
    · simp at h
    · next fails =>
      split at h
      · next none => exact List.forall_mem_cons.mpr ⟨Bool.eq_false_iff.mpr fails, ih none⟩
      · simp at h

/-- Unless nobody is ready, the executor finds someone who is. -/
theorem takeReady_cases (w : World κ) :
    w.takeReady = none ∧ (∀ entry ∈ w.suspended, w.isReady entry = false) ∨
      ∃ before entry after, w.suspended = before ++ entry :: after ∧ w.isReady entry = true ∧
        w.takeReady = some (entry, { w with suspended := before ++ after }) := by
  rw [takeReady]
  cases found : takeFirst w.isReady w.suspended with
  | none => exact .inl ⟨rfl, takeFirst_eq_none found⟩
  | some found' =>
    obtain ⟨entry, others⟩ := found'
    obtain ⟨before, after, listed, rfl, ready⟩ := takeFirst_eq_some found
    exact .inr ⟨before, entry, after, listed, ready, rfl⟩

end World

namespace Machine

variable {c : Consumer σ κ} {given : Code σ κ → Prop} {m : Machine σ κ}

theorem step_clock (m : Machine σ κ) (c : Consumer σ κ) : (m.step c).world.clock = m.world.clock := by
  obtain ⟨_, _, grows⟩ := m.step_extends_anyhow c
  rw [grows.does.clock, world_below]

theorem settle_clock (steps : Nat) (m : Machine σ κ) :
    (settle c steps m).world.clock = m.world.clock := by
  induction steps generalizing m with
  | zero => rfl
  | succ steps ih =>
    rw [settle]
    split
    · rfl
    · rw [ih, step_clock]

/-- The executor works: steps are taken, sessions that are ready get turns, and time passes. Nothing is
done from outside. -/
inductive Executes (c : Consumer σ κ) (m : Machine σ κ) : List (Machine σ κ) → Machine σ κ → Prop
  /-- Nothing has happened yet. -/
  | start : Executes c m [] m
  /-- A step is taken. -/
  | step {states m₁} (executes : Executes c m states m₁) (busy : m₁.isIdle = false) :
      Executes c m (states ++ [m₁.step c]) (m₁.step c)
  /-- A session gets a turn. -/
  | wake {states m₁ before entry after} (executes : Executes c m states m₁)
      (idle : m₁.isIdle = true) (listed : m₁.world.suspended = before ++ entry :: after)
      (ready : m₁.world.isReady entry = true) :
      Executes c m
        (states ++ [(m₁.withWorld { m₁.world with suspended := before ++ after }).wake entry])
        ((m₁.withWorld { m₁.world with suspended := before ++ after }).wake entry)
  /-- Time passes. -/
  | tick {states m₁ time} (executes : Executes c m states m₁) (quiet : m₁.isQuiet = true)
      (later : m₁.world.clock ≤ time)
      (due : ∀ entry ∈ m₁.world.suspended, ∀ wake ∈ entry.pause.wakeTime, time ≤ wake) :
      Executes c m (states ++ [m₁.atTime time]) (m₁.atTime time)

section Executes

variable {m₁ m' : Machine σ κ} {first states : List (Machine σ κ)}

theorem Executes.trans (executes : Executes c m first m₁) (further : Executes c m₁ states m') :
    Executes c m (first ++ states) m' := by
  induction further with
  | start => simpa only [List.append_nil] using executes
  | step _ busy ih => simpa only [List.append_assoc] using ih.step busy
  | wake _ idle listed ready ih => simpa only [List.append_assoc] using ih.wake idle listed ready
  | tick _ quiet later due ih => simpa only [List.append_assoc] using ih.tick quiet later due

theorem Executes.run (executes : Executes c m states m') : Run c given m states m' := by
  induction executes with
  | start => exact .start
  | step _ busy ih => exact ih.move (.step busy)
  | wake _ idle listed ready ih => exact ih.move (.wake idle listed ready)
  | tick _ quiet later due ih => exact ih.move (.tick quiet later due)

end Executes

theorem settle_executes (steps : Nat) (m : Machine σ κ) :
    ∃ states, Executes c m states (settle c steps m) := by
  induction steps generalizing m with
  | zero => exact ⟨[], .start⟩
  | succ steps ih =>
    rw [settle]
    split
    · exact ⟨[], .start⟩
    · next busy =>
      obtain ⟨states, executes⟩ := ih (m.step c)
      exact ⟨_, (Executes.start.step (Bool.eq_false_iff.mpr busy)).trans executes⟩

theorem settle_leads (steps : Nat) (m : Machine σ κ) : Leads c given m (settle c steps m) := by
  obtain ⟨states, executes⟩ := settle_executes (c := c) steps m
  exact ⟨states, executes.run⟩

/-- Running code of the consumer to its end is a run. -/
theorem call_leads {p : Code σ κ} (allowed : given p) : Leads c given m (m.call c p) := by
  rw [call]
  split
  · next idle => exact (Move.code idle allowed).leads.trans (settle_leads _ _)
  · exact .refl m

theorem runReady_executes (steps turns : Nat) (m : Machine σ κ) :
    ∃ states, Executes c m states (runReady c steps turns m) := by
  induction turns generalizing m with
  | zero => exact ⟨[], .start⟩
  | succ turns ih =>
    rw [runReady]
    split
    · next idle =>
      obtain ⟨none, _⟩ | ⟨before, entry, after, listed, ready, taken⟩ := m.world.takeReady_cases
      · rw [none]
        exact ⟨[], .start⟩
      · rw [taken]
        obtain ⟨first, settles⟩ := settle_executes (c := c) steps _
        obtain ⟨states, executes⟩ := ih _
        exact ⟨_, ((Executes.start.wake idle listed ready).trans settles).trans executes⟩
    · exact ⟨[], .start⟩

theorem runReady_leads (steps turns : Nat) (m : Machine σ κ) :
    Leads c given m (runReady c steps turns m) := by
  obtain ⟨states, executes⟩ := runReady_executes (c := c) steps turns m
  exact ⟨states, executes.run⟩

theorem wake_clock (m : Machine σ κ) (entry : Suspended κ) :
    (m.wake entry).world.clock = m.world.clock := by
  obtain ⟨_, _, grows⟩ := m.wake_extends_anyhow entry
  exact grows.does.clock

theorem runReady_clock (steps turns : Nat) (m : Machine σ κ) :
    (runReady c steps turns m).world.clock = m.world.clock := by
  induction turns generalizing m with
  | zero => rfl
  | succ turns ih =>
    rw [runReady]
    split
    · obtain ⟨none, _⟩ | ⟨before, entry, after, _, _, taken⟩ := m.world.takeReady_cases
      · rw [none]
      · rw [taken]
        dsimp only
        rw [ih, settle_clock, wake_clock]
        rfl
    · rfl

/-- Nobody is due before the time at which somebody will be ready. -/
theorem nextWake_le {w : World κ} {time : Nat} (next : w.nextWake = some time) :
    ∀ entry ∈ w.suspended, ∀ wake ∈ entry.pause.wakeTime, time ≤ wake := by
  intro entry mem wake due
  refine (List.min?_eq_some_iff.mp next).2 wake (List.mem_filterMap.mpr ⟨entry, mem, due⟩)

theorem nextWake_none {w : World κ} (none : w.nextWake = none) :
    ∀ entry ∈ w.suspended, entry.pause.wakeTime = .none := by
  intro entry mem
  have empty := List.min?_eq_none_iff.mp none
  exact List.filterMap_eq_nil_iff.mp empty entry mem

/-- When nobody is ready the next one will be so at a later time. -/
theorem lt_nextWake {time : Nat} (quiet : m.isQuiet = true)
    (next : m.world.nextWake = some time) : m.world.clock < time := by
  obtain ⟨entry, mem, wake⟩ := List.mem_filterMap.mp (List.min?_eq_some_iff.mp next).1
  have waits := List.all_eq_true.mp (Bool.and_eq_true_iff.mp quiet).2 entry mem
  simp only [World.isReady, wake, Option.any_some, Bool.not_eq_true', Bool.or_eq_false_iff,
    decide_eq_false_iff_not, Nat.not_le] at waits
  exact waits.2

/-- Letting time pass is work of the executor. -/
theorem runUntil_executes {deadline : Nat} (limit : Nat) (isOver : World κ → Bool) (rounds : Nat)
    (m : Machine σ κ) (before : m.world.clock ≤ deadline) :
    ∃ states, Executes c m states (runUntil c limit deadline isOver rounds m) := by
  induction rounds generalizing m with
  | zero => exact ⟨[], .start⟩
  | succ rounds ih =>
    rw [runUntil]
    obtain ⟨first, turns⟩ := runReady_executes (c := c) limit limit m
    rw [← runReady_clock (c := c) limit limit m] at before
    generalize runReady c limit limit m = m at before turns ⊢
    split
    · exact ⟨first, turns⟩
    · next going =>
      have quiet : m.isQuiet = true := by
        simp only [Bool.or_eq_true, Bool.not_eq_true', not_or, Bool.not_eq_false] at going
        exact going.2
      split
      · next none =>
        refine ⟨_, turns.tick quiet before fun entry mem wake due => ?_⟩
        simp [nextWake_none none entry mem] at due
      · next time next =>
        have due := nextWake_le next
        split
        · next inTime =>
          obtain ⟨states, executes⟩ := ih (m.atTime time) inTime
          exact ⟨_, (turns.tick quiet (Nat.le_of_lt (lt_nextWake quiet next)) due).trans executes⟩
        · next late =>
          refine ⟨_, turns.tick quiet before fun entry mem wake at_ => ?_⟩
          exact Nat.le_of_lt (Nat.lt_of_lt_of_le (Nat.lt_of_not_le late) (due entry mem wake at_))

/-- Letting time pass is a run. -/
theorem runUntil_leads {deadline : Nat} (limit : Nat) (isOver : World κ → Bool) (rounds : Nat)
    (m : Machine σ κ) (before : m.world.clock ≤ deadline) :
    Leads c given m (runUntil c limit deadline isOver rounds m) := by
  obtain ⟨states, executes⟩ := runUntil_executes (c := c) limit isOver rounds m before
  exact ⟨states, executes.run⟩

theorem advance_leads (m : Machine σ κ) (millis : Nat) : Leads c given m (m.advance c millis) :=
  runUntil_leads _ _ _ m (Nat.le_add_right _ _)

/-- Waiting for a session to end is a run. -/
theorem await_leads {number : Nat} {id : TaskId} {millis : Nat} (idle : m.isIdle = true)
    (done : (m.await c number id millis).2.isIdle = true) :
    Leads c given m (m.await c number id millis).2 := by
  rw [await] at done ⊢
  split
  · exact runReady_leads patience patience m
  · next wait world begun =>
    simp only [begun] at done
    have passed : Leads c given _ _ := runUntil_leads patience
      (fun w => (w.waitOutcome wait).isSome) (millis + 1) (m.withWorld world)
      (Nat.le_add_right world.clock millis)
    refine ((Move.await idle begun).leads.trans passed).trans ?_
    exact (Move.endWait (m := runUntil c _ _ _ _ _) done wait).leads

theorem step_hasExecutor (m : Machine σ κ) (c : Consumer σ κ) :
    (m.step c).world.hasExecutor = m.world.hasExecutor := by
  obtain ⟨_, _, grows⟩ := m.step_extends_anyhow c
  rw [grows.does.hasExecutor, world_below]

/-- An executor that is there has been there before. -/
theorem Move.hasExecutor {m' : Machine σ κ} (move : Move c given m m')
    (there : m'.world.hasExecutor = true) : m.world.hasExecutor = true := by
  rcases move.extends_or_idles with ⟨taken, m₀, suspended, ⟨new, d, grows⟩, _, world⟩ | idles
  · rwa [grows.does.hasExecutor, world] at there
  · exact idles.hasExecutor there

/-- The executor does not go away while it works. -/
theorem Executes.hasExecutor {states : List (Machine σ κ)} {m' : Machine σ κ}
    (executes : Executes c m states m') : m'.world.hasExecutor = m.world.hasExecutor := by
  induction executes with
  | start => rfl
  | step _ _ ih => rw [step_hasExecutor, ih]
  | @wake states m₁ before entry after _ _ _ _ ih =>
    obtain ⟨_, _, grows⟩ := (m₁.withWorld
      { m₁.world with suspended := before ++ after }).wake_extends_anyhow entry
    exact grows.does.hasExecutor.trans ih
  | tick _ _ _ _ ih => exact ih

/-- Time does not go back. -/
theorem Move.clock_le {m' : Machine σ κ} (move : Move c given m m') :
    m.world.clock ≤ m'.world.clock := by
  rcases move.extends_or_idles with ⟨taken, m₀, suspended, ⟨new, d, grows⟩, _, world⟩ | idles
  · exact Nat.le_of_eq (by rw [grows.does.clock, world])
  · exact idles.clock

theorem Run.hasExecutor {m' : Machine σ κ} {states : List (Machine σ κ)}
    (run : Run c given m states m') (there : m'.world.hasExecutor = true) :
    m.world.hasExecutor = true := by
  induction run with
  | start => exact there
  | move _ next ih => exact ih (next.hasExecutor there)

theorem Run.clock_le {m' : Machine σ κ} {states : List (Machine σ κ)}
    (run : Run c given m states m') : m.world.clock ≤ m'.world.clock := by
  induction run with
  | start => exact Nat.le_refl _
  | move _ next ih => exact Nat.le_trans ih next.clock_le

private theorem settle_hasExecutor (steps : Nat) (m : Machine σ κ) :
    (settle c steps m).world.hasExecutor = m.world.hasExecutor := by
  induction steps generalizing m with
  | zero => rfl
  | succ steps ih =>
    rw [settle]
    split
    · rfl
    · rw [ih, step_hasExecutor]

private theorem abandonEach_leads (turns : Nat) (m : Machine σ κ)
    (closed : m.world.hasExecutor = false) : Leads c given m (abandonEach c turns m) := by
  induction turns generalizing m with
  | zero => exact .refl m
  | succ turns ih =>
    rw [abandonEach]
    split
    · next entry suspended idle listed =>
      have listed : m.world.suspended = [] ++ entry :: suspended := listed
      refine ((Move.abandon idle closed listed).leads.trans (settle_leads _ _)).trans (ih _ ?_)
      obtain ⟨_, _, grows⟩ :=
        (m.withWorld { m.world with suspended := [] ++ suspended }).abandon_extends_anyhow entry
      rw [settle_hasExecutor, grows.does.hasExecutor]
      exact closed
    · exact .refl m

/-- Going away is a run. -/
theorem abandonAll_leads (idle : m.isIdle = true) : Leads c given m (m.abandonAll c) :=
  (Move.close idle (List.mergeSort_perm _ _)).leads.trans (abandonEach_leads _ _ rfl)

/-- So many steps one after the other. -/
def stepTimes (c : Consumer σ κ) : Nat → Machine σ κ → Machine σ κ
  | 0, m => m
  | steps + 1, m => (stepTimes c steps m).step c

/-- The states that so many steps lead to. -/
def trail (c : Consumer σ κ) (steps : Nat) (m : Machine σ κ) : List (Machine σ κ) :=
  (List.range steps).map fun k => stepTimes c (k + 1) m

theorem run_steps {steps : Nat} (busy : ∀ k < steps, (stepTimes c k m).isIdle = false) :
    Run c given m (trail c steps m) (stepTimes c steps m) := by
  induction steps with
  | zero => exact .start
  | succ steps ih =>
    rw [trail, List.range_succ, List.map_append]
    exact (ih fun k below => busy k (Nat.lt_succ_of_lt below)).move
      (.step (busy steps (Nat.lt_succ_self _)))

end Machine

end TaskWatch
