import TaskWatch.Proofs.Run.Docket

/-!
# Listeners that look on

Listeners, and the callback for stopped sessions, may call the library. If they neither change
records nor start or stop sessions, nothing happens to records and sessions from the time of a
change until everyone has been told of it. So they find things as the change has left them.

## Main definitions

* `Code.IsObserving` — code that leaves records and sessions alone.
* `Consumer.LooksOn` — listeners and the callback for stopped sessions run such code.
* `World.Abides` — records and sessions stay as they are.
* `Machine.Attends` — a change is being made known, and nothing else is done.

## Main results

* `Machine.Attends.move` — this stays so, and records and sessions stay as they are.
-/

namespace TaskWatch

variable {σ κ : Type}

/-- A call leaves records and sessions alone. -/
def Call.isObserving : Call κ → Bool
  | .openTracker _ _ | .subscribeStore _ _ | .subscribeSessions _ _ | .release _ | .configure _ _
  | .openView _ _ | .watch _ _ | .snapshot _ | .seed _ _ => true
  | _ => false

/-- Code leaves records and sessions alone, whatever it sees. -/
def Code.IsObserving : Code σ κ → Prop
  | .done | .panic => True
  | .look next => ∀ scene memory, IsObserving (next scene memory)
  | .note _ next => IsObserving next
  | .call request next => request.isObserving = true ∧ ∀ reply, IsObserving (next reply)

/-- Listeners, and the callback for stopped sessions, leave records and sessions alone. -/
structure Consumer.LooksOn (c : Consumer σ κ) : Prop where
  notice : ∀ label n, Code.IsObserving (c.react label (.notice n))
  viewChanged : ∀ label, Code.IsObserving (c.react label .viewChanged)
  stopped : ∀ label id reason, Code.IsObserving (c.react label (.stopped id reason))

/-- What is going on leaves records and sessions alone. -/
def Control.IsObserving (c : Consumer σ κ) : Control σ κ → Prop
  | .code p => Code.IsObserving p
  | .calling label occasion => Code.IsObserving (c.react label occasion)
  | .returned _ | .unwinding => True
  | .telling _ _ => False

/-- Records and sessions stay as they are. -/
structure World.Abides (w w' : World κ) : Prop where
  count : w.trackers.length ≤ w'.trackers.length
  tasks : ∀ k < w.trackers.length, (w'.tracker k).store.tasks = (w.tracker k).store.tasks
  sessions : ∀ k < w.trackers.length, (w'.tracker k).sessions = (w.tracker k).sessions

namespace World

variable {w w₁ w' : World κ}

theorem Abides.refl (w : World κ) : w.Abides w := ⟨Nat.le_refl _, fun _ _ => rfl, fun _ _ => rfl⟩

theorem Abides.trans (h : w.Abides w₁) (h' : w₁.Abides w') : w.Abides w' where
  count := Nat.le_trans h.count h'.count
  tasks k inside := (h'.tasks k (Nat.lt_of_lt_of_le inside h.count)).trans (h.tasks k inside)
  sessions k inside :=
    (h'.sessions k (Nat.lt_of_lt_of_le inside h.count)).trans (h.sessions k inside)

theorem Near.abides (near : w.Near w') : w.Abides w' where
  count := Nat.le_of_eq near.count.symm
  tasks k _ := by
    obtain ⟨listeners, store⟩ := near.stores k
    rw [store]
  sessions k _ := near.sessions k

/-- A tracker that is opened does not touch those that there are. -/
theorem abides_opened (w : World κ) (t : Tracker κ) :
    w.Abides { w with trackers := w.trackers ++ [t] } := by
  have same : ∀ k < w.trackers.length,
      ({ w with trackers := w.trackers ++ [t] } : World κ).tracker k = w.tracker k :=
    fun k inside => by rw [tracker_opened, if_neg (Nat.ne_of_lt inside)]
  exact ⟨by simp, fun k inside => by rw [same k inside], fun k inside => by rw [same k inside]⟩

end World

namespace Machine

variable {c : Consumer σ κ} {given : Code σ κ → Prop} {m m' : Machine σ κ}
  {foot : List (Frame σ κ)}

/-- A change is being made known in a frame. -/
inductive Edge (foot : List (Frame σ κ)) : Frame σ κ → List (Frame σ κ) → Prop
  | delivering {n rest} : Edge foot (.delivering n rest) foot
  | announcing {number id reason below} (rest : foot = .answering (.flag true) :: below) :
      Edge foot (.announcing number id reason) below

/-- A change is being made known above certain frames, and nothing else is done. -/
inductive Attends (c : Consumer σ κ) (foot : List (Frame σ κ)) (m : Machine σ κ) : Prop
  /-- Listeners are about to be told. -/
  | telling {number n} (control : m.control = .telling number n) (stack : m.stack = foot)
  /-- A listener, or the callback for stopped sessions, runs. -/
  | running {edge : Frame σ κ} {base} (known : Edge foot edge base) (stack : m.stack = edge :: base)
      (control : m.control.IsObserving c)
  /-- A call that it has made is at an end. -/
  | replied {edge : Frame σ κ} {base next reply} (known : Edge foot edge base)
      (stack : m.stack = .awaiting next :: edge :: base) (control : m.control = .returned reply)
      (observing : ∀ reply, Code.IsObserving (next reply))

theorem Opens.attends (opens : m.Opens foot) (looks : c.LooksOn) : m.Attends c foot := by
  cases opens with
  | telling control stack => exact .telling control stack
  | ending control stack rest =>
    refine .running (.announcing rest) stack ?_
    rw [control]
    exact looks.stopped _ _ _

/-- A call that leaves records and sessions alone is at an end right away. -/
theorem perform_observing (m : Machine σ κ) {request : Call κ}
    (observing : request.isObserving = true) :
    ∃ w reply, m.perform request = (m.withWorld w).reply reply ∧ m.world.Abides w := by
  have near : ∀ {w : World κ} {reply}, m.perform request = (m.withWorld w).reply reply →
      m.world.Near w →
      ∃ w reply, m.perform request = (m.withWorld w).reply reply ∧ m.world.Abides w :=
    fun ended near => ⟨_, _, ended, near.abides⟩
  cases request with
  | openTracker key cadence =>
    rw [perform]
    split
    · exact ⟨m.world, _, rfl, .refl _⟩
    · exact ⟨_, _, rfl, m.world.abides_opened _⟩
  | subscribeStore number label => exact near rfl (m.world.near_subscribeStore _ _)
  | subscribeSessions number label => exact near rfl (m.world.near_subscribeSessions _ _)
  | release subscription => exact near rfl (m.world.near_release subscription)
  | configure number patch =>
    rw [perform]
    split
    · exact ⟨m.world, _, rfl, .refl _⟩
    · next settings _ =>
      have tasks := fun k => m.world.proj_tracker_modifyTracker (fun t => t.store.tasks)
        (f := fun t => { t with settings }) (fun _ => rfl) number k
      have sessions := fun k => m.world.proj_tracker_modifyTracker Tracker.sessions
        (f := fun t => { t with settings }) (fun _ => rfl) number k
      exact ⟨_, _, rfl, Nat.le_of_eq (List.length_modify _ _ _).symm, fun k _ => tasks k,
        fun k _ => sessions k⟩
  | openView source kind => exact near rfl (m.world.near_aside _ _ _)
  | watch view label => exact near rfl (m.world.near_watch view label)
  | snapshot view => exact near rfl (m.world.near_snapshot view)
  | seed key content => exact ⟨_, _, rfl, Nat.le_refl _, fun _ _ => rfl, fun _ _ => rfl⟩
  | _ => simp [Call.isObserving] at observing

private theorem not_deals_of_shorter (shorter : m.stack.length < foot.length) : ¬ m.Deals foot := by
  intro deals
  cases deals with
  | telling told stack => exact absurd (congrArg List.length stack) (Nat.ne_of_lt shorter)
  | delivering _ stack =>
    rw [stack] at shorter
    simp at shorter
    omega
  | announcing _ stack rest =>
    rw [stack, rest] at shorter
    simp at shorter
    omega

/-- When a change has been made known, nothing is made known above the same frames any more. -/
private theorem not_deals {reply : Reply} (control : m.control = .returned reply)
    (stack : m.stack = foot) : ¬ m.Deals foot := fun deals => by
  cases deals with
  | telling told _ => simp [control] at told
  | delivering _ stack' =>
    have length := congrArg List.length (stack.symm.trans stack')
    simp at length
    omega
  | @announcing above number id reason below stack' rest =>
    have same := rest.symm.trans (stack.symm.trans stack')
    cases above with
    | nil => simp at same
    | cons f above =>
      have length := congrArg List.length same
      simp at length
      omega

/-- Going on with a delivery is part of making a change known. -/
private theorem deliver_attends (looks : c.LooksOn) (n : Notice) (audience : List (Audience κ))
    (stack : m.stack = foot) (deals : (m.deliver n audience).Deals foot) :
    (m.deliver n audience).Attends c foot := by
  match audience with
  | [] => exact absurd deals (not_deals rfl stack)
  | .callback label :: rest =>
    exact .running .delivering (congrArg _ stack) (looks.notice label n)
  | .wait number :: rest => exact .running .delivering (congrArg _ stack) trivial
  | .view about label :: rest =>
    rw [deliver]
    split
    · exact .running .delivering (congrArg _ stack) (looks.viewChanged label)
    · exact .running .delivering (congrArg _ stack) trivial

/-- Going on with the frame in which a change is being made known is part of it. -/
private theorem edge_attends (looks : c.LooksOn) {edge : Frame σ κ} {base : List (Frame σ κ)}
    (known : Edge foot edge base) (stack : m.stack = edge :: base)
    (control : (∃ reply, m.control = .returned reply) ∨ m.control = .unwinding)
    (deals : (m.step c).Deals foot) :
    (m.step c).Attends c foot ∧ m.world.Abides (m.step c).world := by
  obtain ⟨memory, world, control', stack'⟩ := m
  obtain rfl : stack' = edge :: base := stack
  cases known with
  | @delivering n others =>
    have goes : (Machine.mk memory world control' (.delivering n others :: foot)).step c =
        (Machine.mk memory world control' foot).deliver n others := by
      rcases control with ⟨reply, rfl⟩ | rfl
      · rfl
      · rfl
    rw [goes] at deals ⊢
    exact ⟨deliver_attends looks _ _ rfl deals,
      (near_deliver (.mk memory world control' foot) _ _).abides⟩
  | announcing rest =>
    rcases control with ⟨reply, rfl⟩ | rfl
    · exact ⟨.telling rfl rest.symm, .refl _⟩
    · exact absurd deals (not_deals_of_shorter (rest ▸ Nat.lt_succ_self _))

/-- As long as a change is being made known, a step leaves records and sessions alone. -/
theorem Attends.step (attends : m.Attends c foot) (looks : c.LooksOn)
    (deals : (m.step c).Deals foot) :
    (m.step c).Attends c foot ∧ m.world.Abides (m.step c).world := by
  cases attends with
  | telling control stack =>
    rw [step_of_telling control] at deals ⊢
    exact ⟨deliver_attends looks _ _ stack deals, (near_deliver _ _ _).abides⟩
  | @running edge base known stack observing =>
    cases control : m.control with
    | code p =>
      rw [control] at observing
      obtain ⟨memory, world, _, stack'⟩ := m
      obtain rfl := control
      cases p with
      | done => exact ⟨.running known stack trivial, .refl _⟩
      | panic => exact ⟨.running known stack trivial, .refl _⟩
      | look next => exact ⟨.running known stack (observing _ _), .refl _⟩
      | note change next => exact ⟨.running known stack observing, .refl _⟩
      | call request next =>
        obtain ⟨w, reply, ended, abides⟩ := perform_observing
          ((Machine.mk memory world (.code (.call request next)) stack').push (.awaiting next))
          observing.1
        have goes :
            (Machine.mk memory world (.code (.call request next)) stack').step c = _ := ended
        rw [goes]
        exact ⟨.replied known (congrArg _ stack) rfl observing.2, abides⟩
    | calling label occasion =>
      rw [control] at observing
      obtain ⟨memory, world, _, stack'⟩ := m
      obtain rfl := control
      exact ⟨.running known stack observing, .refl _⟩
    | telling number n =>
      rw [control] at observing
      exact observing.elim
    | returned reply => exact edge_attends looks known stack (.inl ⟨reply, control⟩) deals
    | unwinding => exact edge_attends looks known stack (.inr control) deals
  | @replied edge base next reply known stack control observing =>
    rw [step_of_returned control stack]
    exact ⟨.running known rfl (observing _), .refl _⟩

theorem Deals.isIdle (deals : m.Deals foot) : m.isIdle = false := by
  cases deals with
  | telling told stack =>
    refine Bool.eq_false_iff.mpr fun idle => ?_
    rw [Machine.isIdle, told] at idle
    simp at idle
  | delivering _ stack =>
    exact isIdle_of_mem_stack (stack ▸ List.mem_append_right _ List.mem_cons_self)
  | announcing _ stack =>
    exact isIdle_of_mem_stack (stack ▸ List.mem_append_right _ List.mem_cons_self)

/-- As long as a change is being made known, a move leaves records and sessions alone. -/
theorem Attends.move (attends : m.Attends c foot) (looks : c.LooksOn) (dealt : m.Deals foot)
    (move : Move c given m m') (deals : m'.Deals foot) :
    m'.Attends c foot ∧ m.world.Abides m'.world := by
  obtain rfl := move.eq_step dealt.isIdle
  exact attends.step looks deals

end Machine

end TaskWatch
