import TaskWatch.Proofs.Session.Account
import TaskWatch.Proofs.Session.Shelter
import TaskWatch.Proofs.Run.Executor

/-!
# Ended sessions are announced

Between the end of a session and its announcement runs the callback for stopped sessions. If it
panics, the panic takes the announcement with it: no listener learns that the session has ended, and
whoever was stopping several sessions stops no more of them. This is the only way in which an
announcement is lost. Every other session that ends is announced to all listeners that are
registered from its end on, and whoever stops all sessions of a tracker ends all of them.

## Main definitions

* `Machine.Halting` — all sessions of a tracker are being stopped.

## Main results

* `Machine.Run.halting` — stopping all sessions ends all, or a callback panics.
* `Machine.ended_announced` — ended sessions are announced, and all sessions are ended.
-/

namespace TaskWatch

variable {σ κ : Type}

/-- Whether a panic is under way. -/
def Control.isUnwinding : Control σ κ → Bool
  | unwinding => true
  | _ => false

namespace Machine

variable {c : Consumer σ κ} {given : Code σ κ → Prop} {m m' : Machine σ κ} {number : Nat}
  {base : List (Frame σ κ)} {doomed : SessionName → Prop} {panicked : Prop}

/-! ### Stopping all sessions -/

/-- A panic has reached the announcement of one of the sessions that are being stopped. -/
def Panics (number : Nat) (base : List (Frame σ κ)) (m : Machine σ κ) : Prop :=
  m.control = .unwinding ∧ ∃ id reason rest count,
    m.stack = .announcing number id reason :: .stopping number rest count :: base

/-- Certain sessions that still live are on a list. -/
def Left (doomed : SessionName → Prop) (rest : List TaskId) (w : World κ) : Prop :=
  ∀ S, doomed S → w.lives S = true → S.id ∈ rest

/-- All sessions of a tracker are being stopped, and those that still live are on the list of those
to be stopped. -/
inductive Halting (number : Nat) (doomed : SessionName → Prop) (base : List (Frame σ κ))
    (panicked : Prop) (m : Machine σ κ) : Prop
  /-- The callback for a session runs. -/
  | callback (above) {id reason rest count}
      (stack : m.stack =
        above ++ .announcing number id reason :: .stopping number rest count :: base)
      (left : Left doomed rest m.world)
  /-- The end of a session is announced, and nobody is being told. -/
  | between {rest count}
      (stack : m.stack = .answering (.flag true) :: .stopping number rest count :: base)
      (control : m.control.isCalm = true) (left : Left doomed rest m.world)
  /-- The end of a session is announced, and a listener is being told. -/
  | telling (above) {n audience rest count}
      (stack : m.stack = above ++ .delivering n audience :: .answering (.flag true) ::
        .stopping number rest count :: base)
      (left : Left doomed rest m.world)
  /-- The next session is to be stopped. -/
  | next {rest count} (stack : m.stack = .stopping number rest count :: base)
      (control : ∃ r, m.control = .returned r) (left : Left doomed rest m.world)
  /-- All have been stopped. -/
  | done (stack : m.stack = base) (control : ∃ r, m.control = .returned r)
      (left : Left doomed [] m.world)
  /-- The callback for a session has panicked. -/
  | broken {rest count} (stack : m.stack = .stopping number rest count :: base)
      (control : m.control = .unwinding) (why : panicked)
  /-- So no further sessions are stopped. -/
  | failed (stack : m.stack = base) (control : m.control = .unwinding) (why : panicked)

namespace Halting

theorem mono {more : Prop} (implies : panicked → more)
    (halting : Halting number doomed base panicked m) : Halting number doomed base more m := by
  cases halting with
  | callback above stack left => exact .callback above stack left
  | between stack control left => exact .between stack control left
  | telling above stack left => exact .telling above stack left
  | next stack control left => exact .next stack control left
  | done stack control left => exact .done stack control left
  | broken stack control why => exact .broken stack control (implies why)
  | failed stack control why => exact .failed stack control (implies why)

end Halting

/-- The first of several sessions is stopped. -/
private theorem stopEach_halting {ids : List TaskId} (m : Machine σ κ)
    (here : ∀ S, doomed S → S.tracker = number) (count : Nat) (left : Left doomed ids m.world) :
    Halting number doomed m.stack panicked (m.stopEach number count ids) := by
  cases ids with
  | nil => exact .done rfl ⟨_, rfl⟩ left
  | cons id rest =>
    -- The sessions of all other tasks remain on the list.
    have others : ∀ {w : World κ}, (∀ S, doomed S → w.lives S = true → m.world.lives S = true) →
        (∀ S, doomed S → S.id = id → w.lives S = false) → Left doomed rest w := by
      intro w before dead S doom living
      rcases List.mem_cons.mp (left S doom (before S doom living)) with same | mem
      · simp [dead S doom same] at living
      · exact mem
    rw [stopEach, stopSession]
    split
    · next none =>
      refine .next rfl ⟨_, rfl⟩ (others (fun S _ living => living) fun S doom same => ?_)
      refine Bool.eq_false_iff.mpr fun living => ?_
      rw [World.lives_iff, here S doom, same] at living
      exact absurd (none.symm.trans living) (by simp)
    · next serial found =>
      have lived : m.world.lives ⟨number, id, serial⟩ = true := World.lives_iff.mpr found
      have ends : m.world.Ends ⟨number, id, serial⟩ (m.world.after (.ended number id)) :=
        World.Does.ends (World.does_after _ rfl) lived
      have left' : Left doomed rest (m.world.after (.ended number id)) := by
        refine others (fun S _ living => ((ends.lives S).mp living).1) fun S doom same => ?_
        refine Bool.eq_false_iff.mpr fun living => ?_
        rw [World.lives_iff, ends.sessions, if_pos ⟨here S doom, same⟩] at living
        simp at living
      split
      · dsimp only
        split
        · exact .between rfl rfl left'
        · exact .callback [] rfl left'
      · next other => simp at other

/-- The end of a session is announced to some listeners. -/
private theorem deliver_halting {rest : List TaskId} {count : Nat}
    (stack : m.stack = .answering (.flag true) :: .stopping number rest count :: base)
    (n : Notice) (audience : List (Audience κ))
    (left : Left doomed rest (m.deliver n audience).world) :
    Halting number doomed base panicked (m.deliver n audience) := by
  obtain ⟨same, control⟩ | ⟨others, pushed⟩ := m.deliver_cases n audience
  · exact .between (same.trans stack) (by rw [control]; rfl) left
  · exact .telling [] (pushed.trans (congrArg _ stack)) left

/-- While all sessions are being stopped, they are being stopped after the next step, too. -/
private theorem Halting.step (halting : Halting number doomed base panicked m)
    (here : ∀ S, doomed S → S.tracker = number)
    (created : ∀ S, doomed S → S.serial < m.world.nextSerial) (further : m.stack ≠ base)
    (c : Consumer σ κ) :
    Halting number doomed base (panicked ∨ Panics number base m) (m.step c) := by
  have still : ∀ {rest}, Left doomed rest m.world → Left doomed rest (m.step c).world := by
    intro rest left S doom living
    rcases (m.step_succeeds c).lives S living with before | ⟨new, _⟩
    · exact left S doom before
    · exact absurd (created S doom) (Nat.not_lt_of_le new)
  cases halting with
  | @callback above id reason rest count stack left =>
    rcases step_above stack c with ⟨above', stack'⟩ | ⟨stack, ⟨r, control, goes⟩ | ⟨control, goes⟩⟩
    · exact .callback above' stack' (still left)
    · rw [goes]
      exact .between rfl rfl left
    · rw [goes]
      exact .broken rfl rfl (.inr ⟨control, id, reason, rest, count, stack⟩)
  | @between rest count stack control left =>
    cases now : m.control with
    | telling k n =>
      have goes := step_of_telling now c
      rw [goes]
      exact deliver_halting stack n _ (goes ▸ still left)
    | returned r =>
      rw [step_of_returned now stack c]
      exact .next rfl ⟨_, rfl⟩ left
    | _ => simp [now, Control.isCalm] at control
  | @telling above n audience rest count stack left =>
    rcases step_above stack c with ⟨above', stack'⟩ | ⟨stack, goes⟩
    · exact .telling above' stack' (still left)
    · have goes : m.step c = ({ m with stack := _ } : Machine σ κ).deliver n audience :=
        goes.elim (fun back => back.choose_spec.2) And.right
      rw [goes]
      exact deliver_halting rfl n audience (goes ▸ still left)
  | @next rest count stack control left =>
    obtain ⟨r, control⟩ := control
    rw [step_of_returned control stack c]
    exact (stopEach_halting { m with stack := base } here _ left)
  | done stack control left => exact absurd stack further
  | broken stack control why =>
    rw [step_of_unwinding control stack c]
    exact .failed rfl rfl (.inl why)
  | failed stack control why => exact absurd stack further

/-- Whatever lies below the stopping of all sessions stays there. -/
private theorem Halting.mem_stack (halting : Halting number doomed base panicked m) {f : Frame σ κ}
    (mem : f ∈ base) : f ∈ m.stack := by
  cases halting with
  | callback above stack left => simp [stack, mem]
  | between stack control left => simp [stack, mem]
  | telling above stack left => simp [stack, mem]
  | next stack control left => simp [stack, mem]
  | done stack control left => simp [stack, mem]
  | broken stack control why => simp [stack, mem]
  | failed stack control why => simp [stack, mem]

/-- When it has come to its end all sessions have been stopped, or a callback has panicked. -/
private theorem Halting.of_stack (halting : Halting number doomed base panicked m)
    (stack : m.stack = base) : (∀ S, doomed S → m.world.lives S = false) ∨ panicked := by
  have length := congrArg List.length stack
  cases halting with
  | done _ control left =>
    exact .inl fun S doom => Bool.eq_false_iff.mpr fun living =>
      absurd (left S doom living) List.not_mem_nil
  | failed _ control why => exact .inr why
  | callback above stack left => simp [stack] at length; omega
  | between stack control left => simp [stack] at length; omega
  | telling above stack left => simp [stack] at length; omega
  | next stack control left => simp [stack] at length
  | broken stack control why => simp [stack] at length

/-- From the call that stops all sessions of a tracker until it comes to its end, they are being
stopped. -/
theorem Run.halting {m₁ m₂ : Machine σ κ} {states : List (Machine σ κ)}
    {next : Option Reply → Code σ κ} (reach : Reachable c m₁)
    (calls : m₁.control = .code (.call (.stopAll number) next))
    (run : Run c given (m₁.step c) states m₂)
    (during : ∀ m ∈ (m₁.step c :: states).dropLast, m.stack ≠ .awaiting next :: m₁.stack) :
    Halting number (fun S => S.tracker = number ∧ m₁.world.lives S = true)
      (.awaiting next :: m₁.stack)
      (∃ m ∈ m₁.step c :: states, Panics number (.awaiting next :: m₁.stack) m) m₂ := by
  induction run with
  | start =>
    have goes : m₁.step c = (m₁.push (.awaiting next)).stopEach number 0
        (m₁.tracker number).activeIds := by
      rw [step, calls]
      rfl
    have left : Left (fun S => S.tracker = number ∧ m₁.world.lives S = true)
        (m₁.tracker number).activeIds m₁.world := by
      rintro S ⟨rfl, lived⟩ _
      have found : (m₁.tracker S.tracker).sessions.find? S.id = some S.serial :=
        World.lives_iff.mp lived
      exact (Dictionary.mem_keys _).mpr (by rw [found]; rfl)
    rw [goes]
    exact stopEach_halting (m₁.push (.awaiting next)) (fun S doom => And.left doom) 0 left
  | @move states m₂ m₃ run goes ih =>
    have all : (m₁.step c :: (states ++ [m₃])).dropLast = m₁.step c :: states := by
      rw [← List.cons_append, List.dropLast_concat]
    rw [all] at during
    have halting := ih fun m mem => during m ((List.dropLast_sublist _).subset mem)
    have busy : m₂.isIdle = false :=
      isIdle_of_mem_stack (halting.mem_stack List.mem_cons_self)
    have created : ∀ S : SessionName, S.tracker = number ∧ m₁.world.lives S = true →
        S.serial < m₂.world.nextSerial := by
      rintro S ⟨_, lived⟩
      have later := (m₁.step_succeeds c).serials.trans run.succeeds.serials
      exact Nat.lt_of_lt_of_le (reach.sound.given S lived) later
    obtain rfl := goes.eq_step busy
    refine (halting.step (fun S doom => doom.1) created (during m₂ run.mem_cons) c).mono ?_
    rintro (⟨m, mem, panics⟩ | panics)
    · exact ⟨m, List.mem_append_left [_] mem, panics⟩
    · exact ⟨m₂, List.mem_append_left [_] run.mem_cons, panics⟩

/-! ### Announcements -/

/-- A session that ends is announced to a listener that is registered from then on, or a panic has
taken the announcement. -/
private theorem Run.announced {m₀ m₁ m₂ : Machine σ κ} {past later : List (Machine σ κ)}
    (reach : Reachable c m₀) (calm : m₀.errandFrames = []) (run : Run c given m₀ past m₁)
    (further : Run c given m₁ later m₂) {S : SessionName} {listener : Nat} {a : Audience κ}
    (lived : m₁.world.lives S = true) (dead : m₂.world.lives S = false)
    (idle : m₂.isIdle = true)
    (registered : ∀ m ∈ later, (listener, a) ∈ (m.tracker S.tracker).watchers.entries) :
    (∃ reason, ((listener, a), .ended S reason) ∈ (Ledger.after m₀ (past ++ later)).told ∧
        ∃ m ∈ later, ∃ (m' : Machine σ κ) (rest : List (Audience κ)),
          m = m'.deliver (.session (.stopped S.id reason)) (a :: rest)) ∨
      S ∈ (Ledger.after m₀ (past ++ later)).lost ∧ ∃ m ∈ m₁ :: later, m.control = .unwinding ∧
        ∃ reason, m.stack.head? = some (.announcing S.tracker S.id reason) := by
  have fresh := run.not_mem_gone reach calm lived
  rcases run.mem_ended_or_lost calm lived further dead idle with mem | lost
  · left
    obtain ⟨reason, announced⟩ := Ledger.mem_ended.mp mem
    have new : .ended S reason ∉ (Ledger.after m₀ past).announced := fun old =>
      fresh (Ledger.mem_gone_of_ended (Ledger.mem_ended.mpr ⟨reason, old⟩))
    obtain ⟨news, about, heard⟩ := run.heard reach calm S.id further registered
    have of : (Tidings.ended S reason).isOf S.tracker S.id = true := by
      simp [Tidings.isOf, Tidings.session]
    have mem : .ended S reason ∈ news := by
      have all := List.mem_filter.mpr ⟨announced, of⟩
      rw [← Ledger.about, about] at all
      exact (List.mem_append.mp all).resolve_left fun old => new (List.mem_filter.mp old).1
    have awaited : (Ledger.after m₀ (past ++ later)).awaited S.tracker S.id listener = [] := by
      rw [Ledger.awaited, (run.append further).errands_of_isIdle calm idle]
      rfl
    rw [awaited, List.append_nil] at heard
    have told := Ledger.mem_heard
      (heard.symm.subset (List.mem_append_right _ (List.mem_map_of_mem mem)))
    exact ⟨reason, told, run.delivered calm further told new⟩
  · exact .inr ⟨lost, run.panicked calm further lost fresh⟩

/-- Every session that ends is announced to every listener that is registered from then on, unless
the callback for stopped sessions panics: then a panic reaches the announcement, and it is lost. And
whoever stops all sessions of a tracker has ended all that lived when it comes to its end, unless
the callback for one of them panics. -/
theorem ended_announced {m₀ m₁ : Machine σ κ} {past : List (Machine σ κ)} (reach : Reachable c m₀)
    (calm : m₀.errandFrames = []) (run : Run c given m₀ past m₁) :
    (∀ S listener a later m₂, m₁.world.lives S = true → Run c given m₁ later m₂ →
      m₂.isIdle = true → m₂.world.lives S = false →
      (∀ m ∈ later, (listener, a) ∈ (m.tracker S.tracker).watchers.entries) →
      (∃ reason, ((listener, a), .ended S reason) ∈ (Ledger.after m₀ (past ++ later)).told ∧
        ∃ m ∈ later, ∃ (m' : Machine σ κ) (rest : List (Audience κ)),
          m = m'.deliver (.session (.stopped S.id reason)) (a :: rest)) ∨
      S ∈ (Ledger.after m₀ (past ++ later)).lost ∧ ∃ m ∈ m₁ :: later, m.control = .unwinding ∧
        ∃ reason, m.stack.head? = some (.announcing S.tracker S.id reason)) ∧
    (∀ number next states m₂, m₁.control = .code (.call (.stopAll number) next) →
      Run c given (m₁.step c) states m₂ →
      (∀ m ∈ (m₁.step c :: states).dropLast, m.stack ≠ .awaiting next :: m₁.stack) →
      m₂.stack = .awaiting next :: m₁.stack →
      (∀ S, S.tracker = number → m₁.world.lives S = true → m₂.world.lives S = false) ∨
      ∃ m ∈ m₁.step c :: states, Panics number (.awaiting next :: m₁.stack) m) := by
  refine ⟨fun S listener a later m₂ lived further idle dead registered => ?_,
    fun number next states m₂ calls further during returned => ?_⟩
  · exact run.announced reach calm further lived dead idle registered
  · exact ((further.halting (reach.run run) calls during).of_stack returned).imp_left
      fun dead S tracker lived => dead S ⟨tracker, lived⟩

/-- A consumer whose callback `1` panics. -/
def saboteur : Consumer Unit Nat where
  react label _ :=
    match label with
    | 1 => .panic
    | _ => .done
  proceed _ _ _ _ := .hang
  supply _ _ _ := none

/-- Two sessions live, the listener `2` hears of sessions, and a callback for stopped sessions is
set. -/
def attended (label : Nat) : Machine Unit Nat :=
  (idle () (.blank .inMemory 0 true)).call saboteur <|
    .call (.openTracker "tasks" .default) fun _ =>
    .call (.configure 0 { hooks := { stopped := some label } }) fun _ =>
    .call (.subscribeSessions 0 2) fun _ =>
    .call (.start 0 "a" 0) fun _ =>
    .call (.start 0 "b" 0) fun _ => .done

/-- All sessions are about to be stopped. -/
def besieged (label : Nat) : Machine Unit Nat :=
  (attended label).code (.call (.stopAll 0) fun _ => .done)

private theorem besieged_reachable (label : Nat) (idle : (attended label).isIdle = true) :
    Reachable saboteur (besieged label) :=
  ⟨(), .inMemory, 0, true, (call_leads trivial).trans (Move.code idle trivial).leads⟩

/-- The callback panics while all sessions are being stopped: one session has ended and the listener
does not hear of it, and the other one lives on. -/
theorem stopped_unannounced :
    ∃ (m₁ m₂ : Machine Unit Nat) (states : List (Machine Unit Nat)) (S T : SessionName)
      (next : Option Reply → Code Unit Nat),
      Reachable saboteur m₁ ∧ m₁.control = .code (.call (.stopAll 0) next) ∧
      m₁.world.lives S = true ∧ m₁.world.lives T = true ∧ S.tracker = 0 ∧ T.tracker = 0 ∧
      Run saboteur (fun _ => True) m₁ states m₂ ∧ m₂.isIdle = true ∧
      m₂.world.lives S = false ∧ m₂.world.lives T = true ∧
      (∀ m ∈ m₁ :: states, (0, .callback 2) ∈ (m.tracker 0).watchers.entries) ∧
      states.flatMap hears = [] :=
  ⟨besieged 1, _, trail saboteur 7 (besieged 1), ⟨0, "a", 1⟩, ⟨0, "b", 2⟩, _,
    besieged_reachable 1 (by decide +kernel), rfl, by decide +kernel, by decide +kernel, rfl, rfl,
    run_steps (by decide +kernel), by decide +kernel, by decide +kernel, by decide +kernel,
    by decide +kernel, by decide +kernel⟩

/-- If the callback returns, the listener hears of the end, and all sessions are stopped. -/
theorem ended_announced_besieged :
    (∃ reason, ((0, .callback 2), .ended ⟨0, "a", 1⟩ reason) ∈
        (Ledger.after (besieged 3) (trail saboteur 21 (besieged 3))).told) ∧
      ∀ S, S.tracker = 0 → (besieged 3).world.lives S = true →
        (stepTimes saboteur 18 ((besieged 3).step saboteur)).world.lives S = false := by
  have nothing : Run saboteur (fun _ => True) (besieged 3) [] (besieged 3) := .start
  have run : Run saboteur (fun _ => True) (besieged 3) (trail saboteur 21 (besieged 3)) _ :=
    run_steps (by decide +kernel)
  have halts : Run saboteur (fun _ => True) ((besieged 3).step saboteur)
      (trail saboteur 18 ((besieged 3).step saboteur)) _ := run_steps (by decide +kernel)
  have above : ∀ m ∈ ((besieged 3).step saboteur ::
      trail saboteur 18 ((besieged 3).step saboteur)).dropLast, m.stack.length ≠ 1 := by
    decide +kernel
  obtain ⟨announced, all⟩ :=
    ended_announced (besieged_reachable 3 (by decide +kernel)) rfl nothing
  constructor
  · rcases announced ⟨0, "a", 1⟩ 0 (.callback 2) _ _ (by decide +kernel) run (by decide +kernel)
      (by decide +kernel) (by decide +kernel) with ⟨reason, told, _⟩ | ⟨lost, _⟩
    · exact ⟨reason, told⟩
    · exact absurd lost (by decide +kernel)
  · rcases all 0 _ _ _ rfl halts (fun m mem same => above m mem (by rw [same]; rfl)) rfl with
      dead | ⟨m, mem, unwinding, _⟩
    · exact dead
    · have calm : ∀ m ∈ (besieged 3).step saboteur ::
          trail saboteur 18 ((besieged 3).step saboteur),
          m.control.isUnwinding = false := by
        decide +kernel
      exact absurd (calm m mem) (by rw [unwinding]; decide)

end Machine

end TaskWatch
