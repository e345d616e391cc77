import TaskWatch.Machine.Executor

/-!
# Runs

A run is a sequence of moves. As long as something is being done, the machine moves by itself: it
takes a step. When it has nothing to do, the world around it moves. The consumer begins to run code
or changes its memory, the executor gives a turn to any session that is ready, time passes while no
session is ready and no longer than until one is, somebody begins or ends a wait, and the executor
goes away and gives up its sessions in any order.

## Main definitions

* `Machine.Move` — one move. The code that the consumer begins to run may be restricted.
* `Machine.Run` — moves one after the other, with the states that they lead to.
* `Machine.passages` — the moves of a run, each from one state to the next.
* `Machine.Leads` — there is a run from one state to another.
* `Machine.Reachable` — the states that a world without trackers can get into.
* `SessionName`, `Act`, `Machine.act?` — what a session does at a moment.
-/

namespace TaskWatch

variable {σ κ : Type}

/-- A world in which nothing has happened yet. -/
def World.blank (storage : Storage) (wallClock : Nat) (hasExecutor : Bool) : World κ :=
  { storage, wallClock, hasExecutor }

/-! ### Sessions and what they do -/

/-- What tells a session from all others. -/
structure SessionName where
  /-- The number of its tracker. -/
  tracker : Nat
  /-- The task it polls. -/
  id : TaskId
  /-- Its serial number. -/
  serial : Serial
deriving DecidableEq, Repr

/-- The name of the session that a task of the executor runs. -/
def SessionTask.name (s : SessionTask κ) : SessionName := ⟨s.tracker, s.id, s.serial⟩

/-- Whether the session with a name lives. -/
def World.lives (w : World κ) (S : SessionName) : Bool := (w.tracker S.tracker).isLive S.id S.serial

/-- Something that is done to the outside. -/
inductive Act (κ : Type) where
  /-- A callback or fetcher is called. -/
  | calls (label : κ) (occasion : Occasion)
  /-- The listeners of a tracker are told of something. -/
  | tells (tracker : Nat) (n : Notice)

/-- Whether a callback is one of the lifecycle of a session that still goes on: for a new status,
for completion, for failure, or for a failed request. -/
def Occasion.isLifecycle : Occasion → Bool
  | .statusChanged _ _ | .completed _ _ | .failed _ _ | .fetchFailed _ _ => true
  | _ => false

/-- Whether a fetcher works on a request. -/
def Occasion.isFetching : Occasion → Bool
  | .fetching _ _ => true
  | _ => false

namespace Machine

/-- What a session does at this moment, and which session it is: it calls a callback or its fetcher,
it has changed a collection and tells the listeners, or it is stopping itself and calls the callback
for this or tells the listeners. What callbacks, fetchers and listeners do is not done by the
session. -/
def act? (m : Machine σ κ) : Option (SessionName × Act κ) :=
  match m.control, m.stack with
  | .calling label occasion, .session s _ :: _ => some (s.name, .calls label occasion)
  | .calling label (.stopped id reason), .announcing _ _ _ :: .session s _ :: _ =>
    some (s.name, .calls label (.stopped id reason))
  | .telling number (.store event), .session s _ :: _ =>
    some (s.name, .tells number (.store event))
  | .telling number (.session event), .answering _ :: .session s _ :: _ =>
    some (s.name, .tells number (.session event))
  | _, _ => none

/-! ### Moves and runs -/

/-- One move; `given` says which code the consumer may begin to run. -/
inductive Move (c : Consumer σ κ) (given : Code σ κ → Prop) : Machine σ κ → Machine σ κ → Prop
  /-- The machine takes a step. -/
  | step {m} (busy : m.isIdle = false) : Move c given m (m.step c)
  /-- The consumer begins to run code. -/
  | code {m p} (idle : m.isIdle = true) (allowed : given p) : Move c given m (m.code p)
  /-- The consumer changes its memory. -/
  | remember {m} (idle : m.isIdle = true) (memory : σ) : Move c given m { m with memory }
  /-- The executor gives a turn to a session that is ready. -/
  | wake {m before entry after} (idle : m.isIdle = true)
      (listed : m.world.suspended = before ++ entry :: after)
      (ready : m.world.isReady entry = true) :
      Move c given m ((m.withWorld { m.world with suspended := before ++ after }).wake entry)
  /-- Time passes. -/
  | tick {m time} (quiet : m.isQuiet = true) (later : m.world.clock ≤ time)
      (due : ∀ entry ∈ m.world.suspended, ∀ wake ∈ entry.pause.wakeTime, time ≤ wake) :
      Move c given m (m.atTime time)
  /-- Somebody begins to wait for a session to end. -/
  | await {m number id wait world} (idle : m.isIdle = true)
      (begun : m.world.beginWait number id = some (wait, world)) :
      Move c given m (m.withWorld world)
  /-- Somebody stops waiting. -/
  | endWait {m} (idle : m.isIdle = true) (wait : Nat) :
      Move c given m (m.withWorld (m.world.endWait wait))
  /-- The executor goes away; it will give up its sessions in some order. -/
  | close {m suspended} (idle : m.isIdle = true) (same : suspended.Perm m.world.suspended) :
      Move c given m (m.withWorld { m.world with suspended, hasExecutor := false })
  /-- A session is given up because the executor has gone away. -/
  | abandon {m before entry after} (idle : m.isIdle = true) (closed : m.world.hasExecutor = false)
      (listed : m.world.suspended = before ++ entry :: after) :
      Move c given m ((m.withWorld { m.world with suspended := before ++ after }).abandon entry)

variable {c : Consumer σ κ} {given : Code σ κ → Prop}

/-- Moves one after the other, and the states that they lead to. -/
inductive Run (c : Consumer σ κ) (given : Code σ κ → Prop) (m : Machine σ κ) :
    List (Machine σ κ) → Machine σ κ → Prop
  /-- Nothing has happened yet. -/
  | start : Run c given m [] m
  /-- One more move. -/
  | move {states m₁ m₂} (run : Run c given m states m₁) (next : Move c given m₁ m₂) :
      Run c given m (states ++ [m₂]) m₂

/-- The moves of a run, each from one state to the next. -/
def passages (m₀ : Machine σ κ) (states : List (Machine σ κ)) :
    List (Machine σ κ × Machine σ κ) :=
  (m₀ :: states).zip states

/-- There is a run from one state to another. -/
def Leads (c : Consumer σ κ) (given : Code σ κ → Prop) (m m' : Machine σ κ) : Prop :=
  ∃ states, Run c given m states m'

/-- The states that a world without trackers can get into, whatever the consumer does. -/
def Reachable (c : Consumer σ κ) (m : Machine σ κ) : Prop :=
  ∃ memory storage wallClock hasExecutor,
    Leads c (fun _ => True) (.idle memory (.blank storage wallClock hasExecutor)) m

/-- A machine that is busy moves by taking a step. -/
theorem Move.eq_step {m m' : Machine σ κ} (move : Move c given m m') (busy : m.isIdle = false) :
    m' = m.step c := by
  cases move with
  | step _ => rfl
  | code idle allowed => simp [busy] at idle
  | remember idle memory => simp [busy] at idle
  | wake idle listed ready => simp [busy] at idle
  | tick quiet later due => simp [isQuiet, busy] at quiet
  | await idle begun => simp [busy] at idle
  | endWait idle wait => simp [busy] at idle
  | close idle same => simp [busy] at idle
  | abandon idle closed listed => simp [busy] at idle

theorem Run.append {m m₁ m₂ : Machine σ κ} {first second : List (Machine σ κ)}
    (run : Run c given m first m₁) (further : Run c given m₁ second m₂) :
    Run c given m (first ++ second) m₂ := by
  induction further with
  | start => simpa only [List.append_nil] using run
  | move _ next ih => simpa only [List.append_assoc] using ih.move next

/-- A run ends in the last of its states. -/
theorem Run.getLast?_cons {m m' : Machine σ κ} {states : List (Machine σ κ)}
    (run : Run c given m states m') : (m :: states).getLast? = some m' := by
  cases run with
  | start => rfl
  | move run next => rw [← List.cons_append, List.getLast?_concat]

theorem Run.mem_cons {m m' : Machine σ κ} {states : List (Machine σ κ)}
    (run : Run c given m states m') : m' ∈ m :: states :=
  List.mem_of_getLast? run.getLast?_cons

theorem Run.passages_move {m₀ m₁ : Machine σ κ} {states : List (Machine σ κ)}
    (run : Run c given m₀ states m₁) (m₂ : Machine σ κ) :
    passages m₀ (states ++ [m₂]) = passages m₀ states ++ [(m₁, m₂)] := by
  obtain ⟨before, split⟩ : ∃ before, m₀ :: states = before ++ [m₁] :=
    List.getLast?_eq_some_iff.mp run.getLast?_cons
  have length : before.length = states.length := by simpa using (congrArg List.length split).symm
  have past : passages m₀ states = before.zip states := by
    rw [passages, split]
    have joined : (before ++ [m₁]).zip (states ++ []) = before.zip states ++ [m₁].zip [] :=
      List.zip_append length
    simpa using joined
  rw [past, passages, ← List.cons_append, split, List.append_assoc, List.zip_append length]
  rfl

/-- Each of them is a move, and the run leads to where it begins. -/
theorem Run.passage {m₀ m : Machine σ κ} {states : List (Machine σ κ)}
    (run : Run c given m₀ states m) {p : Machine σ κ × Machine σ κ} (mem : p ∈ passages m₀ states) :
    ∃ before, Run c given m₀ before p.1 ∧ before ⊆ states ∧ Move c given p.1 p.2 := by
  induction run with
  | start => exact absurd mem List.not_mem_nil
  | @move states m₁ m₂ run next ih =>
    rw [run.passages_move] at mem
    rcases List.mem_append.mp mem with old | last
    · obtain ⟨before, leads, inside, move⟩ := ih old
      exact ⟨before, leads, List.subset_append_of_subset_left _ inside, move⟩
    · obtain rfl := List.mem_singleton.mp last
      exact ⟨states, run, List.subset_append_left _ _, next⟩

theorem Move.mono {weaker : Code σ κ → Prop} (implies : ∀ p, given p → weaker p)
    {m m' : Machine σ κ} (move : Move c given m m') : Move c weaker m m' := by
  cases move with
  | step busy => exact .step busy
  | code idle allowed => exact .code idle (implies _ allowed)
  | remember idle memory => exact .remember idle memory
  | wake idle listed ready => exact .wake idle listed ready
  | tick quiet later due => exact .tick quiet later due
  | await idle begun => exact .await idle begun
  | endWait idle wait => exact .endWait idle wait
  | close idle same => exact .close idle same
  | abandon idle closed listed => exact .abandon idle closed listed

theorem Run.mono {weaker : Code σ κ → Prop} (implies : ∀ p, given p → weaker p)
    {m m' : Machine σ κ} {states : List (Machine σ κ)} (run : Run c given m states m') :
    Run c weaker m states m' := by
  induction run with
  | start => exact .start
  | move _ next ih => exact ih.move (next.mono implies)

theorem Leads.refl (m : Machine σ κ) : Leads c given m m := ⟨[], .start⟩

theorem Leads.trans {m m₁ m₂ : Machine σ κ} (first : Leads c given m m₁)
    (second : Leads c given m₁ m₂) : Leads c given m m₂ := by
  obtain ⟨_, run⟩ := first
  obtain ⟨_, further⟩ := second
  exact ⟨_, run.append further⟩

theorem Move.leads {m m' : Machine σ κ} (move : Move c given m m') : Leads c given m m' :=
  ⟨_, Run.start.move move⟩

theorem Run.reachable {memory : σ} {storage : Storage} {wallClock : Nat} {hasExecutor : Bool}
    {m : Machine σ κ} {states : List (Machine σ κ)}
    (run : Run c given (.idle memory (.blank storage wallClock hasExecutor)) states m) :
    Reachable c m :=
  ⟨memory, storage, wallClock, hasExecutor, states, run.mono fun _ _ => trivial⟩

theorem Reachable.run {m m' : Machine σ κ} {states : List (Machine σ κ)} (reach : Reachable c m)
    (run : Run c given m states m') : Reachable c m' := by
  obtain ⟨memory, storage, wallClock, hasExecutor, before⟩ := reach
  exact ⟨memory, storage, wallClock, hasExecutor,
    before.trans ⟨_, run.mono fun _ _ => trivial⟩⟩

/-- What holds in a world without trackers and survives every move holds in every reachable
state. -/
theorem Reachable.induction {motive : Machine σ κ → Prop}
    (blank : ∀ memory storage wallClock hasExecutor,
      motive (.idle memory (.blank storage wallClock hasExecutor)))
    (move : ∀ m m', motive m → Move c (fun _ => True) m m' → motive m')
    {m : Machine σ κ} (reach : Reachable c m) : motive m := by
  obtain ⟨memory, storage, wallClock, hasExecutor, states, run⟩ := reach
  induction run with
  | start => exact blank memory storage wallClock hasExecutor
  | move _ next ih => exact move _ _ ih next

end Machine

end TaskWatch
