import Mathlib.Data.List.Chain
import TaskWatch.Proofs.Session.Account
import TaskWatch.Proofs.Run.Executor

/-!
# Listeners hear that sessions come and go in turn

A listener that stays registered is told of each session of a task that it was created and that it
has ended. It has been told of as many beginnings as ends when the task has no session, and of one
more when it has one. Since listeners are told one after the other, and inside whatever caused it, a
listener may be told of things in another order than the one in which they happened: a session may
be stopped while the listeners before this one are told that it was created. If nothing of this kind
happens, beginnings and ends alternate.

## Main definitions

* `Ledger.pending` — what is on its way to a listener.
* `Ledger.isOrderly` — sessions of a task come and go only when nothing is on its way to a listener.
* `Ledger.turns` — the beginnings and ends that a listener has been told of.

## Main results

* `Ledger.Advance.turns` — what a move adds to what a listener has been told or is to be told.
* `Machine.sessions_alternate` — beginnings and ends balance, and alternate in orderly runs.
-/

namespace TaskWatch

variable {σ κ : Type}

/-- Whether a session was created. -/
def Tidings.isBeginning : Tidings → Bool
  | began _ => true
  | ended _ _ => false

/-- What an errand brings to the listener with a number about a task. -/
def Errand.pending (number : Nat) (id : TaskId) (listener : Nat) : Errand κ → List Tidings
  | announce S reason =>
    if (Tidings.ended S reason).isOf number id then [.ended S reason] else []
  | tell t listeners =>
    if t.isOf number id then (listeners.filter fun L => L.1 == listener).map fun _ => t else []

namespace Ledger

/-- What is on its way to the listener with a number about a task: it is to be told, or the callback
for a stopped session runs first. -/
def pending (l : Ledger κ) (number : Nat) (id : TaskId) (listener : Nat) : List Tidings :=
  l.errands.flatMap (Errand.pending number id listener)

/-- What the listener with a number has been told of a task. -/
def received (l : Ledger κ) (number : Nat) (id : TaskId) (listener : Nat) : List Tidings :=
  (l.heard number id listener).map Prod.snd

/-- The beginnings (`true`) and ends (`false`) of sessions of a task that a listener has been told
of. -/
def turns (l : Ledger κ) (number : Nat) (id : TaskId) (listener : Nat) : List Bool :=
  (l.received number id listener).map Tidings.isBeginning

/-- The beginnings and ends that it will have been told of when all that is on its way has arrived.
-/
def prospect (l : Ledger κ) (number : Nat) (id : TaskId) (listener : Nat) : List Bool :=
  (l.received number id listener ++ l.pending number id listener).map Tidings.isBeginning

/-- Whether sessions of a task come and go only when nothing is on its way to a listener. -/
def isOrderly (number : Nat) (id : TaskId) (listener : Nat) (l : Ledger κ) (m : Machine σ κ) :
    List (Machine σ κ) → Bool
  | [] => true
  | m' :: rest =>
    ((m.tracker number).isPolling id == (m'.tracker number).isPolling id ||
      (l.pending number id listener).isEmpty) && isOrderly number id listener (l.next m m') m' rest

variable {m m' : Machine σ κ} {l l' : Ledger κ} {number listener : Nat} {id : TaskId}
  {a : Audience κ}

/-! ### Moves -/

theorem isOrderly_append (states : List (Machine σ κ)) :
    isOrderly number id listener l m (states ++ [m']) =
      (isOrderly number id listener l m states &&
        let (l, m) := states.foldl (fun (l, m) m' => (l.next m m', m')) (l, m)
        (m.tracker number).isPolling id == (m'.tracker number).isPolling id ||
          (l.pending number id listener).isEmpty) := by
  induction states generalizing l m with
  | nil => simp [isOrderly]
  | cons m₁ rest ih => simp only [List.cons_append, isOrderly, List.foldl_cons, ih, Bool.and_assoc]

/-- What the first errand has on its way comes first. -/
private theorem pending_cons {e : Errand κ} {errands : List (Errand κ)}
    (first : l.errands = e :: errands) : l.pending number id listener =
      e.pending number id listener ++ ({ l with errands } : Ledger κ).pending number id listener := by
  rw [pending, pending, first, List.flatMap_cons]

/-- A registered listener is to be told of what is announced of its tracker. -/
private theorem pending_tell (registries : Nat → Registry (Audience κ))
    (sound : (registries number).Sound) (registered : (listener, a) ∈ (registries number).entries)
    (t : Tidings) :
    (Errand.tell t (registries t.session.tracker).entries).pending number id listener =
      if t.isOf number id then [t] else [] := by
  rw [Errand.pending]
  split
  · next of =>
    rw [(Tidings.isOf_iff.mp of).1, sound.filter_number registered]
    rfl
  · rfl

/-- What is announced is on its way to a registered listener, if it is about its task. -/
private theorem pending_announce (registries : Nat → Registry (Audience κ))
    (sound : (registries number).Sound) (registered : (listener, a) ∈ (registries number).entries)
    (l : Ledger κ) (t : Tidings) :
    (l.announce t (registries t.session.tracker).entries).pending number id listener =
      (if t.isOf number id then [t] else []) ++ l.pending number id listener := by
  rw [pending_cons rfl, pending_tell registries sound registered]
  rfl

/-- Somebody is told. -/
private theorem received_told (l : Ledger κ) (L : Listener κ) (t : Tidings)
    (errands : List (Errand κ)) :
    ({ l with errands, told := l.told ++ [(L, t)] } : Ledger κ).received number id listener =
      l.received number id listener ++
        if L.1 == listener && t.isOf number id then [t] else [] := by
  simp only [received, heard, List.filter_append, List.map_append]
  split
  · next own => simp [own]
  · next other => simp [other]

/-- What a move adds to what a listener has been told, or is to be told, of a task. -/
inductive Turns (number : Nat) (id : TaskId) (listener : Nat) (l : Ledger κ) (m : Machine σ κ)
    (l' : Ledger κ) (m' : Machine σ κ) : Prop
  /-- Nothing: no session comes or goes, and what is on its way stays so, or arrives. -/
  | nothing (polling : (m'.tracker number).isPolling id = (m.tracker number).isPolling id)
      (same : l'.prospect number id listener = l.prospect number id listener)
  /-- A session comes or goes, and the news of it is on its way before everything else. -/
  | news (t : Tidings) (before : (m.tracker number).isPolling id = !t.isBeginning)
      (polling : (m'.tracker number).isPolling id = t.isBeginning)
      (received : l'.received number id listener = l.received number id listener)
      (pending : l'.pending number id listener = t :: l.pending number id listener)

/-- A session of some task comes or goes. -/
private theorem turns_of_news {t : Tidings}
    (received : l'.received number id listener = l.received number id listener)
    (pending : l'.pending number id listener =
      (if t.isOf number id then [t] else []) ++ l.pending number id listener)
    (changes : t.session.tracker = number → t.session.id = id →
      (m.tracker number).isPolling id = !t.isBeginning ∧
        (m'.tracker number).isPolling id = t.isBeginning)
    (other : ¬ (number = t.session.tracker ∧ id = t.session.id) →
      (m'.tracker number).isPolling id = (m.tracker number).isPolling id) :
    Turns number id listener l m l' m' := by
  by_cases of : t.isOf number id = true
  · rw [if_pos of] at pending
    obtain ⟨tracker, same⟩ := Tidings.isOf_iff.mp of
    obtain ⟨before, after⟩ := changes tracker same
    exact .news t before after received pending
  · rw [if_neg of] at pending
    refine .nothing (other fun same => of (Tidings.isOf_iff.mpr ⟨same.1.symm, same.2.symm⟩)) ?_
    rw [prospect, prospect, received, pending, List.nil_append]

private theorem turns_of_ended {S : SessionName} (ends : m.world.Ends S m'.world)
    (reason : StopReason)
    (received : l'.received number id listener = l.received number id listener)
    (pending : l'.pending number id listener =
      (if (Tidings.ended S reason).isOf number id then [.ended S reason] else []) ++
        l.pending number id listener) : Turns number id listener l m l' m' := by
  refine turns_of_news received pending ?_ fun other => (ends.isPolling _ _).trans (if_neg other)
  rintro rfl rfl
  exact ⟨World.isPolling_of_lives ends.lived, (ends.isPolling _ _).trans (if_pos ⟨rfl, rfl⟩)⟩

/-- In a move a session of a task comes or goes, or what is on its way to a registered listener
stays so, or arrives. -/
theorem Advance.turns (advance : l.Advance m l' m')
    (inside : number < m.world.trackers.length) (sound : (m'.tracker number).watchers.Sound)
    (registered : (listener, a) ∈ (m'.tracker number).watchers.entries)
    (returns : m.control = .unwinding → ∀ reason,
      m.stack.head? ≠ some (.announcing number id reason)) :
    Turns number id listener l m l' m' := by
  have announced : ∀ (l : Ledger κ) (t : Tidings),
      (l.announce t (m'.tracker t.session.tracker).watchers.entries).pending number id listener =
        (if t.isOf number id then [t] else []) ++ l.pending number id listener :=
    pending_announce (fun k => (m'.tracker k).watchers) sound registered
  cases advance with
  | still retains => exact .nothing (retains.isPolling number id) rfl
  | @told _ t L rest errands first retains goes =>
    refine .nothing (retains.isPolling number id) ?_
    rw [prospect, prospect, received_told, List.append_assoc]
    congr 2
    by_cases of : t.isOf number id = true <;> by_cases mine : L.1 = listener <;>
      simp [pending, first, Errand.pending, of, mine]
  | @served _ t errands first retains =>
    refine .nothing (retains.isPolling number id) (congrArg _ (congrArg _ ?_))
    have nobody : (Errand.tell t ([] : List (Listener κ))).pending number id listener = [] := by
      rw [Errand.pending, List.filter_nil, List.map_nil, ite_self]
    rw [pending_cons first, nobody]
    rfl
  | @proceeds _ S reason errands first retains =>
    refine .nothing (retains.isPolling number id) (congrArg _ (congrArg _ ?_))
    exact (announced { l with errands } (.ended S reason)).trans (pending_cons first).symm
  | @loses _ S reason errands first control top retains =>
    refine .nothing (retains.isPolling number id) (congrArg _ (congrArg _ ?_))
    have other : (Errand.announce S reason : Errand κ).pending number id listener = [] := by
      rw [Errand.pending, if_neg]
      intro of
      obtain ⟨rfl, rfl⟩ := Tidings.isOf_iff.mp of
      exact returns control reason top
    rw [pending_cons first, other]
    rfl
  | @began _ S begins =>
    refine turns_of_news rfl (announced l (.began S)) ?_ fun other =>
      (begins.isPolling _ _).trans (if_neg fun here => other here.1)
    rintro rfl rfl
    exact ⟨congrArg Option.isSome begins.fresh,
      (begins.isPolling _ _).trans (if_pos ⟨⟨rfl, rfl⟩, inside⟩)⟩
  | @ended _ S reason ends => exact turns_of_ended ends reason rfl (announced l (.ended S reason))
  | @ending _ S reason ends =>
    refine turns_of_ended ends reason rfl ?_
    rw [pending_cons rfl]
    rfl

end Ledger

/-! ### Runs -/

namespace Machine

variable {c : Consumer σ κ} {given : Code σ κ → Prop} {m₀ m₁ : Machine σ κ}
  {states : List (Machine σ κ)} {number listener : Nat} {id : TaskId} {a : Audience κ}

section Registered

variable (reach : Reachable c m₀) (calm : m₀.errandFrames = [])

include reach calm

private theorem Run.turns {m₂ : Machine σ κ} (run : Run c given m₀ states m₁)
    (next : Move c given m₁ m₂)
    (registered : ∀ m ∈ m₀ :: (states ++ [m₂]), (listener, a) ∈ (m.tracker number).watchers.entries)
    (returns : ∀ m ∈ m₀ :: (states ++ [m₂]), m.control = .unwinding → ∀ reason,
      m.stack.head? ≠ some (.announcing number id reason)) :
    (Ledger.after m₀ states).Turns number id listener m₁ (Ledger.after m₀ (states ++ [m₂])) m₂ := by
  have before : m₁ ∈ m₀ :: (states ++ [m₂]) := List.mem_append_left [m₂] run.mem_cons
  have after : m₂ ∈ m₀ :: (states ++ [m₂]) :=
    List.mem_cons_of_mem _ (List.mem_append_right _ List.mem_cons_self)
  have inside : number < m₁.world.trackers.length := by
    refine Nat.lt_of_not_le fun outside => ?_
    have listed := registered m₁ before
    rw [Machine.tracker, World.tracker, List.getD_eq_getElem?_getD,
      List.getElem?_eq_none outside] at listed
    exact absurd listed List.not_mem_nil
  exact (run.advance calm next).turns inside ((reach.run (run.move next)).numbered number)
    (registered m₂ after) (returns m₁ before)

/-- A listener has been told, or is to be told, of as many beginnings as ends, up to the sessions
that the task had at first and has now. -/
private theorem Run.balanced (run : Run c given m₀ states m₁)
    (registered : ∀ m ∈ m₀ :: states, (listener, a) ∈ (m.tracker number).watchers.entries)
    (returns : ∀ m ∈ m₀ :: states, m.control = .unwinding → ∀ reason,
      m.stack.head? ≠ some (.announcing number id reason)) :
    ((Ledger.after m₀ states).prospect number id listener).count true +
        ((m₀.tracker number).isPolling id).toNat =
      ((Ledger.after m₀ states).prospect number id listener).count false +
        ((m₁.tracker number).isPolling id).toNat := by
  induction run with
  | start => rfl
  | @move states m₁ m₂ run next ih =>
    have ih := ih (fun m mem => registered m (List.mem_append_left [m₂] mem))
      fun m mem => returns m (List.mem_append_left [m₂] mem)
    cases run.turns reach calm next registered returns with
    | nothing polling same => rw [same, polling, ih]
    | news t before polling received pending =>
      have count : ∀ b, ((Ledger.after m₀ (states ++ [m₂])).prospect number id listener).count b =
          ((Ledger.after m₀ states).prospect number id listener).count b +
            if t.isBeginning == b then 1 else 0 := by
        intro b
        rw [Ledger.prospect, Ledger.prospect, received, pending]
        simp only [List.map_append, List.map_cons, List.count_append, List.count_cons]
        omega
      rw [before] at ih
      rw [count, count, polling]
      cases beginning : t.isBeginning with
      | true =>
        simp only [beginning, Bool.not_true, Bool.toNat_false, Bool.toNat_true] at ih ⊢
        simp
        omega
      | false =>
        simp only [beginning, Bool.not_false, Bool.toNat_true, Bool.toNat_false] at ih ⊢
        simp
        omega

/-- In an orderly run a listener has been told, or is to be told, of beginnings and ends in turn. -/
private theorem Run.alternating (run : Run c given m₀ states m₁)
    (registered : ∀ m ∈ m₀ :: states, (listener, a) ∈ (m.tracker number).watchers.entries)
    (returns : ∀ m ∈ m₀ :: states, m.control = .unwinding → ∀ reason,
      m.stack.head? ≠ some (.announcing number id reason))
    (orderly : Ledger.isOrderly number id listener {} m₀ states = true) :
    ((m₀.tracker number).isPolling id ::
        (Ledger.after m₀ states).prospect number id listener).IsChain (· ≠ ·) ∧
      ((m₀.tracker number).isPolling id ::
        (Ledger.after m₀ states).prospect number id listener).getLast? =
          some ((m₁.tracker number).isPolling id) := by
  induction run with
  | start => exact ⟨.singleton _, rfl⟩
  | @move states m₁ m₂ run next ih =>
    rw [Ledger.isOrderly_append, run.foldl_next, Bool.and_eq_true] at orderly
    obtain ⟨chain, last⟩ := ih (fun m mem => registered m (List.mem_append_left [m₂] mem))
      (fun m mem => returns m (List.mem_append_left [m₂] mem)) orderly.1
    cases run.turns reach calm next registered returns with
    | nothing polling same =>
      rw [same, polling]
      exact ⟨chain, last⟩
    | news t before polling received pending =>
      -- Nothing else is on its way, so what is new comes last.
      have empty : (Ledger.after m₀ states).pending number id listener = [] := by
        have idle : ((m₁.tracker number).isPolling id == (m₂.tracker number).isPolling id ||
            ((Ledger.after m₀ states).pending number id listener).isEmpty) = true := orderly.2
        rw [before, polling] at idle
        simpa using idle
      have grown : (Ledger.after m₀ (states ++ [m₂])).prospect number id listener =
          (Ledger.after m₀ states).prospect number id listener ++ [t.isBeginning] := by
        rw [Ledger.prospect, Ledger.prospect, received, pending, empty, List.append_nil,
          List.map_append]
        rfl
      rw [grown, polling, ← List.cons_append]
      refine ⟨List.isChain_append.mpr ⟨chain, .singleton _, ?_⟩, List.getLast?_concat⟩
      rw [last, before]
      simp

end Registered

/-- A listener that stays registered has been told of as many beginnings as ends of sessions of a
task when the machine has nothing to do, up to the sessions that the task had at first and has now.
In an orderly run they alternate: the first one is a beginning if the task had no session, and the
task has a session if and only if the last one is a beginning. -/
theorem sessions_alternate (reach : Reachable c m₀) (calm : m₀.errandFrames = [])
    (run : Run c given m₀ states m₁) (idle : m₁.isIdle = true)
    (registered : ∀ m ∈ m₀ :: states, (listener, a) ∈ (m.tracker number).watchers.entries)
    (returns : ∀ m ∈ m₀ :: states, m.control = .unwinding → ∀ reason,
      m.stack.head? ≠ some (.announcing number id reason)) :
    ((Ledger.after m₀ states).turns number id listener).count true +
        ((m₀.tracker number).isPolling id).toNat =
      ((Ledger.after m₀ states).turns number id listener).count false +
        ((m₁.tracker number).isPolling id).toNat ∧
    (Ledger.isOrderly number id listener {} m₀ states = true →
      ((m₀.tracker number).isPolling id ::
          (Ledger.after m₀ states).turns number id listener).IsChain (· ≠ ·) ∧
        ((m₀.tracker number).isPolling id ::
          (Ledger.after m₀ states).turns number id listener).getLast? =
            some ((m₁.tracker number).isPolling id)) := by
  have arrived : (Ledger.after m₀ states).prospect number id listener =
      (Ledger.after m₀ states).turns number id listener := by
    have empty : (Ledger.after m₀ states).pending number id listener = [] := by
      rw [Ledger.pending, run.errands_of_isIdle calm idle]
      rfl
    rw [Ledger.prospect, empty, List.append_nil]
    rfl
  rw [← arrived]
  exact ⟨run.balanced reach calm registered returns,
    run.alternating reach calm registered returns⟩

/-! ### A listener that stops what it hears of -/

/-- A consumer whose callback `1` stops every session that it is told of. -/
def canceller : Consumer Unit Nat where
  react label occasion :=
    match label, occasion with
    | 1, .notice (.session (.started id)) => .call (.stop 0 id) fun _ => .done
    | _, _ => .done
  proceed _ _ _ _ := .hang
  supply _ _ _ := none

/-- Two listeners have been registered. -/
def audience (first second : Nat) : Machine Unit Nat :=
  (idle () (.blank .inMemory 0 true)).call canceller <|
    .call (.openTracker "tasks" .default) fun _ =>
    .call (.subscribeSessions 0 first) fun _ =>
    .call (.subscribeSessions 0 second) fun _ => .done

private theorem audience_reachable (first second : Nat) :
    Reachable canceller (audience first second) :=
  ⟨(), .inMemory, 0, true, call_leads trivial⟩

/-- A session is about to be started. -/
def starting (first second : Nat) : Machine Unit Nat :=
  (audience first second).code (.call (.start 0 "a" 0) fun _ => .done)

/-- What happens then. -/
def nested : List (Machine Unit Nat) := [starting 1 2] ++ trail canceller 21 (starting 1 2)

private theorem nested_run : Run canceller (fun _ => True) (audience 1 2) nested
    (stepTimes canceller 21 (starting 1 2)) :=
  (Run.start.move (.code (by decide +kernel) trivial)).append (run_steps (by decide +kernel))

/-- The first listener stops the session when it is told that it was created. So the second listener
is told that the session has ended, and after that that it was created, and then the task has no
session. -/
theorem started_after_stopped :
    ∃ (m₀ m₁ : Machine Unit Nat) (states : List (Machine Unit Nat)),
      Reachable canceller m₀ ∧ Run canceller (fun _ => True) m₀ states m₁ ∧ m₁.isIdle = true ∧
      (∀ m ∈ m₀ :: states, (1, .callback 2) ∈ (m.tracker 0).watchers.entries) ∧
      (∀ m ∈ m₀ :: states, (m.control matches .unwinding) = false) ∧
      (states.flatMap hears).filter (fun told => told.1 == 2) =
        [(2, .stopped "a" .requested), (2, .started "a")] ∧
      (m₁.tracker 0).isPolling "a" = false :=
  ⟨audience 1 2, _, nested, audience_reachable 1 2, nested_run, by decide +kernel,
    by decide +kernel, by decide +kernel, by decide +kernel, by decide +kernel⟩

/-- To the first listener nothing is on its way when it stops the session. It is told that the
session was created, and then that it has ended. -/
theorem sessions_alternate_nested :
    ((audience 1 2).tracker 0).isPolling "a" = false ∧
      (((audience 1 2).tracker 0).isPolling "a" ::
        (Ledger.after (audience 1 2) nested).turns 0 "a" 0).IsChain (· ≠ ·) := by
  have panics : ∀ m ∈ audience 1 2 :: nested, (m.control matches .unwinding) = false := by
    decide +kernel
  have registered : ∀ m ∈ audience 1 2 :: nested,
      (0, .callback 1) ∈ (m.tracker 0).watchers.entries := by
    decide +kernel
  have returns : ∀ m ∈ audience 1 2 :: nested, m.control = .unwinding → ∀ reason,
      m.stack.head? ≠ some (.announcing 0 "a" reason) := fun m mem unwinding => by
    simpa [unwinding] using panics m mem
  have alternates := (sessions_alternate (audience_reachable 1 2)
    (errandFrames_of_isIdle (by decide +kernel)) nested_run (by decide +kernel) registered returns).2
  exact ⟨by decide +kernel, (alternates (by decide +kernel)).1⟩

end Machine

end TaskWatch
