import TaskWatch.Proofs.Run.Growth

/-!
# Steps and what they keep

With one lemma for each function of the machine, a step as a whole is of the same form: it takes the
frame with which it goes on off the stack, if it goes on with one, and extends what lies below. From
this the invariants follow that hold in every reachable state.

## Main definitions

* `Machine.taken`, `Machine.below` — the frame that a step takes off the stack, and the rest.
* `Machine.names` — all sessions that are suspended, in their turn or about to be suspended.
* `Machine.Sound` — records are kept under their own identifiers, and every session is somewhere
  once at most.
* `Machine.Idles` — what changes where no code runs.
* `Machine.Happens` — what a move comes to: a step, a turn, a session given up, or none of these.

## Main results

* `Machine.step_extends` — the form of a step.
* `Machine.step_of_mem_taken` — a step goes on with the frame that it takes.
* `Machine.Move.happens` — every move is one of these.
* `Machine.Move.extends_or_idles` — a move is of the form of a step, or no code runs.
* `Machine.Reachable.sound` — every reachable state is sound.
* `Machine.Move.mem_names` — sessions that are somewhere have been somewhere before, or are new.
* `Machine.Run.succeeds` — a session that ends does not live again.
-/

namespace TaskWatch

variable {σ κ : Type}

namespace Machine

variable {tasks : Nat → TaskId → Prop} {m m' : Machine σ κ} {c : Consumer σ κ}

/-! ### Steps -/

theorem resume_extends {f : Frame σ κ} (frame : f.IsWithin tasks)
    (touch : ∀ s point, f = .session s point → m.world.lives s.name → tasks s.tracker s.id)
    (c : Consumer σ κ) (r : Reply) : Extends tasks f.names m (m.resume c r f) := by
  cases f with
  | awaiting next => exact .pass rfl (frame (some r))
  | delivering n rest => exact m.deliver_extends n rest
  | answering reply => exact m.reply_extends reply
  | announcing number id reason => exact m.announce_extends number id reason
  | stopping number rest count => exact stopEach_extends frame _
  | spawning s =>
    exact .stay (d := .paused ⟨s, .fresh⟩) (World.does_after _ rfl) trivial rfl trivial (.refl _)
  | tracking number task fetcher =>
    rw [resume]
    split
    · exact m.reply_extends _
    · exact .of_push (f := .answering (.task task)) (startSession_extends _ number task.id fetcher)
        trivial rfl
  | offering number factory task rest count =>
    rw [resume]
    split
    · exact m.resumeEach_extends number factory count rest
    · next fetcher _ =>
      exact .of_push (f := .resuming number factory rest count)
        (startSession_extends _ number task.id fetcher) trivial rfl
  | resuming number factory rest count => exact m.resumeEach_extends number factory _ rest
  | forgetting number id =>
    exact mutate_extends (d := .dropped number id) (World.does_after _ rfl) frame rfl _
  | session s point => exact continueSession_extends c (touch s point rfl) point

/-- A session that a panic reaches ends. -/
theorem unwind_session (m : Machine σ κ) (s : SessionTask κ) (point : Point κ) :
    m.unwind (.session s point) = m.finish s := by
  cases point <;> rfl

theorem unwind_extends {f : Frame σ κ} (frame : f.IsWithin tasks)
    (touch : ∀ s point, f = .session s point → m.world.lives s.name → tasks s.tracker s.id) :
    Extends tasks f.names m (m.unwind f) := by
  cases f with
  | awaiting next => exact .pass rfl (frame none)
  | delivering n rest => exact m.deliver_extends n rest
  | session s point =>
    rw [unwind_session]
    exact finish_extends (touch s point rfl)
  | spawning s => exact .pass rfl trivial
  | _ => exact .pass rfl trivial

theorem stepCode_extends {p : Code σ κ} (code : Code.IsWithin tasks p) :
    Extends tasks [] m (m.stepCode p) := by
  cases p with
  | done => exact m.reply_extends _
  | panic => exact .pass rfl trivial
  | look next => exact .pass rfl (code _ _)
  | note change next => exact .pass rfl code
  | call request next =>
    exact .of_push (f := .awaiting next) (perform_extends code.1) code.2 rfl

/-! ### The frame that a step takes -/

/-- The frame that a step takes off the stack. -/
def taken (m : Machine σ κ) : List (Frame σ κ) :=
  match m.control, m.stack with
  | .returned _, f :: _ | .unwinding, f :: _ => [f]
  | _, _ => []

/-- What lies below the frame that a step takes off the stack. -/
def below (m : Machine σ κ) : Machine σ κ :=
  match m.control, m.stack with
  | .returned _, _ :: rest | .unwinding, _ :: rest => { m with stack := rest }
  | _, _ => m

theorem stack_eq (m : Machine σ κ) : m.stack = m.taken ++ m.below.stack := by
  obtain ⟨memory, world, control, stack⟩ := m
  cases control <;> cases stack <;> rfl

theorem taken_cases {f : Frame σ κ} {rest : List (Frame σ κ)} (stack : m.stack = f :: rest) :
    m.taken = [f] ∧ m.below.stack = rest ∨ m.taken = [] ∧ m.below.stack = f :: rest := by
  obtain ⟨memory, world, control, stack'⟩ := m
  subst stack
  cases control with
  | returned r => exact .inl ⟨rfl, rfl⟩
  | unwinding => exact .inl ⟨rfl, rfl⟩
  | _ => exact .inr ⟨rfl, rfl⟩

theorem head?_of_mem_taken {f : Frame σ κ} (mem : f ∈ m.taken) : m.stack.head? = some f := by
  rw [taken] at mem
  split at mem
  · next stack => rw [stack, List.mem_singleton.mp mem, List.head?_cons]
  · next stack => rw [stack, List.mem_singleton.mp mem, List.head?_cons]
  · exact absurd mem List.not_mem_nil

theorem taken_of_mem {f : Frame σ κ} (mem : f ∈ m.taken) :
    m.taken = [f] ∧ m.stack = f :: m.below.stack := by
  obtain ⟨rest, stack⟩ := List.head?_eq_some_iff.mp (head?_of_mem_taken mem)
  rcases taken_cases stack with ⟨taken, below⟩ | ⟨taken, _⟩
  · exact ⟨taken, by rw [stack, below]⟩
  · rw [taken] at mem
    exact absurd mem List.not_mem_nil

theorem stack_of_isIdle (idle : m.isIdle = true) : m.stack = [] := by
  rw [isIdle] at idle
  split at idle <;> simp_all

theorem isIdle_of_mem_stack {f : Frame σ κ} (on : f ∈ m.stack) : m.isIdle = false := by
  refine Bool.eq_false_iff.mpr fun idle => ?_
  rw [stack_of_isIdle idle] at on
  exact absurd on List.not_mem_nil

@[simp]
theorem world_below (m : Machine σ κ) : m.below.world = m.world := by
  obtain ⟨memory, world, control, stack⟩ := m
  cases control <;> cases stack <;> rfl

/-- Whatever a step does, it takes a frame off the stack at most and extends the rest. -/
theorem step_extends (consumer : c.IsWithin tasks) (control : m.control.IsWithin tasks)
    (frames : ∀ f ∈ m.taken, f.IsWithin tasks)
    (touch : ∀ s point, .session s point ∈ m.taken → m.world.lives s.name →
      tasks s.tracker s.id) :
    Extends tasks (m.taken.flatMap Frame.names) m.below (m.step c) := by
  obtain ⟨memory, world, control', stack⟩ := m
  cases control' with
  | code p => exact stepCode_extends control
  | calling label occasion => exact .pass rfl (consumer label occasion)
  | telling number n => exact deliver_extends _ n _
  | returned r =>
    cases stack with
    | nil => exact .pass rfl trivial
    | cons f rest =>
      change Extends tasks (f.names ++ []) ⟨memory, world, .returned r, rest⟩
        (resume c ⟨memory, world, .returned r, rest⟩ r f)
      rw [List.append_nil]
      exact resume_extends (m := ⟨memory, world, .returned r, rest⟩)
        (frames f (List.mem_singleton.mpr rfl))
        (fun s point same => touch s point (List.mem_singleton.mpr same.symm)) c r
  | unwinding =>
    cases stack with
    | nil => exact .pass rfl trivial
    | cons f rest =>
      change Extends tasks (f.names ++ []) ⟨memory, world, .unwinding, rest⟩
        (unwind ⟨memory, world, .unwinding, rest⟩ f)
      rw [List.append_nil]
      exact unwind_extends (m := ⟨memory, world, .unwinding, rest⟩)
        (frames f (List.mem_singleton.mpr rfl))
        (fun s point same => touch s point (List.mem_singleton.mpr same.symm))

/-- What a step does, whatever it touches. -/
theorem step_extends_anyhow (m : Machine σ κ) (c : Consumer σ κ) :
    Extends (fun _ _ => True) (m.taken.flatMap Frame.names) m.below (m.step c) := by
  have all : ∀ (number : Nat) (id : TaskId), True := fun _ _ => trivial
  refine step_extends (fun label occasion => Code.isWithin_of_forall all _) ?_
    (fun f _ => f.isWithin_of_forall all) fun _ _ _ _ => trivial
  cases m.control with
  | code p => exact Code.isWithin_of_forall all p
  | _ => trivial

theorem wake_extends_anyhow (m : Machine σ κ) (entry : Suspended κ) :
    Extends (fun _ _ => True) [entry.task.name] m (m.wake entry) :=
  wake_extends fun _ => trivial

theorem abandon_extends_anyhow (m : Machine σ κ) (entry : Suspended κ) :
    Extends (fun _ _ => True) [entry.task.name] m (m.abandon entry) :=
  abandon_extends fun _ => trivial

/-! ### Single steps -/

/-- A delivery comes to an end, or goes on under its own frame. -/
theorem deliver_cases (m : Machine σ κ) (n : Notice) (audience : List (Audience κ)) :
    (m.deliver n audience).stack = m.stack ∧ (m.deliver n audience).control = .returned .unit ∨
    ∃ rest, (m.deliver n audience).stack = .delivering n rest :: m.stack := by
  match audience with
  | [] => exact .inl ⟨rfl, rfl⟩
  | .callback label :: rest => exact .inr ⟨rest, rfl⟩
  | .view about label :: rest =>
    refine .inr ⟨rest, ?_⟩
    rw [deliver]
    split <;> rfl
  | .wait number :: rest => exact .inr ⟨rest, rfl⟩

theorem step_of_returned {r : Reply} {f : Frame σ κ} {rest : List (Frame σ κ)}
    (control : m.control = .returned r) (stack : m.stack = f :: rest) (c : Consumer σ κ) :
    m.step c = resume c { m with stack := rest } r f := by
  obtain ⟨memory, world, control', stack'⟩ := m
  subst control stack
  rfl

theorem step_of_telling {number : Nat} {n : Notice} (control : m.control = .telling number n)
    (c : Consumer σ κ) : m.step c = m.deliver n (m.world.audience number n) := by
  obtain ⟨memory, world, control', stack⟩ := m
  subst control
  rfl

theorem step_of_unwinding {f : Frame σ κ} {rest : List (Frame σ κ)}
    (control : m.control = .unwinding) (stack : m.stack = f :: rest) (c : Consumer σ κ) :
    m.step c = unwind { m with stack := rest } f := by
  obtain ⟨memory, world, control', stack'⟩ := m
  subst control stack
  rfl

theorem act?_of_passive (passive : m.control.isAct = false) : m.act? = none := by
  obtain ⟨memory, world, control, stack⟩ := m
  cases control with
  | calling label occasion => simp [Control.isAct] at passive
  | telling number n => simp [Control.isAct] at passive
  | _ => rfl

theorem passive_of_isIdle (idle : m.isIdle = true) : m.control.isAct = false := by
  rw [isIdle] at idle
  split at idle
  · next control => rw [control]; rfl
  · next control => rw [control]; rfl
  · simp at idle

/-- What a session does at a moment it does with its frame on the stack. -/
theorem mem_names_of_act? {S : SessionName} {a : Act κ} (act : m.act? = some (S, a)) :
    S ∈ m.stack.flatMap Frame.names := by
  rw [act?] at act
  split at act <;> simp_all [Frame.names]

/-- A step goes on with the frame that it takes off the stack, if it takes one. -/
theorem step_of_mem_taken {f : Frame σ κ} (mem : f ∈ m.taken) (c : Consumer σ κ) :
    (∃ r, m.step c = m.below.resume c r f) ∨ m.step c = m.below.unwind f := by
  obtain ⟨memory, world, control, stack⟩ := m
  cases control with
  | returned r =>
    cases stack with
    | nil => exact absurd mem List.not_mem_nil
    | cons g rest =>
      obtain rfl : f = g := List.mem_singleton.mp mem
      exact .inl ⟨r, rfl⟩
  | unwinding =>
    cases stack with
    | nil => exact absurd mem List.not_mem_nil
    | cons g rest =>
      obtain rfl : f = g := List.mem_singleton.mp mem
      exact .inr rfl
  | code p => exact absurd mem List.not_mem_nil
  | calling label occasion => exact absurd mem List.not_mem_nil
  | telling number n => exact absurd mem List.not_mem_nil

/-- A frame stays on the stack until nothing runs above it any more; then the step goes on with it.
-/
theorem step_above {above rest : List (Frame σ κ)} {f : Frame σ κ}
    (stack : m.stack = above ++ f :: rest) (c : Consumer σ κ) :
    (∃ above', (m.step c).stack = above' ++ f :: rest) ∨
      m.stack = f :: rest ∧
        ((∃ r, m.control = .returned r ∧ m.step c = resume c { m with stack := rest } r f) ∨
          m.control = .unwinding ∧ m.step c = unwind { m with stack := rest } f) := by
  obtain ⟨new, d, grows⟩ := m.step_extends_anyhow c
  have grown := grows.stack
  cases above with
  | nil =>
    cases control : m.control with
    | returned r => exact .inr ⟨stack, .inl ⟨r, rfl, step_of_returned control stack c⟩⟩
    | unwinding => exact .inr ⟨stack, .inr ⟨rfl, step_of_unwinding control stack c⟩⟩
    | _ =>
      have below : m.below = m := by
        obtain ⟨memory, world, control', stack'⟩ := m
        cases control
        rfl
      rw [below, stack] at grown
      exact .inl ⟨new, grown⟩
  | cons g others =>
    rw [List.cons_append] at stack
    rcases taken_cases stack with ⟨_, left⟩ | ⟨_, left⟩
    · rw [left, ← List.append_assoc] at grown
      exact .inl ⟨_, grown⟩
    · rw [left, ← List.cons_append, ← List.append_assoc] at grown
      exact .inl ⟨_, grown⟩

/-- A delivery goes on with the next listener, whatever has become of the one before. -/
theorem step_delivering {n : Notice} {rest : List (Audience κ)}
    (mem : .delivering n rest ∈ m.taken) (c : Consumer σ κ) : m.step c = m.below.deliver n rest := by
  rcases step_of_mem_taken mem c with ⟨r, same⟩ | same
  · exact same
  · exact same

/-- Code of the consumer goes on with the reply, or without one. -/
theorem step_awaiting {next : Option Reply → Code σ κ} (mem : .awaiting next ∈ m.taken)
    (c : Consumer σ κ) : ∃ reply, m.step c = m.below.code (next reply) := by
  rcases step_of_mem_taken mem c with ⟨r, same⟩ | same
  · exact ⟨some r, same⟩
  · exact ⟨none, same⟩

/-- Handing a session to the executor is all that happens in a step. -/
theorem step_spawning {s : SessionTask κ} (mem : .spawning s ∈ m.taken) (c : Consumer σ κ) :
    (m.step c).stack = m.below.stack ∧ (m.step c).control.isAct = false := by
  rcases step_of_mem_taken mem c with ⟨r, same⟩ | same
  · rw [same]
    exact ⟨rfl, rfl⟩
  · rw [same]
    exact ⟨rfl, rfl⟩

/-- No session stands on the frame that a step takes unless it goes on or is handed to the executor.
-/
theorem names_taken (foreign : ∀ s point, .session s point ∉ m.taken)
    (spawns : ∀ s, .spawning s ∉ m.taken) : m.taken.flatMap Frame.names = [] := by
  refine List.flatMap_eq_nil_iff.mpr fun f mem => ?_
  cases f with
  | session s point => exact absurd mem (foreign s point)
  | spawning s => exact absurd mem (spawns s)
  | _ => rfl

/-- Unless a session goes on, no session gets its turn in a step. -/
theorem step_foreign (foreign : ∀ f ∈ m.taken, f.isSession = false) (c : Consumer σ κ) :
    ∃ new, (m.step c).stack = new ++ m.below.stack ∧ ∀ f ∈ new, f.isSession = false := by
  by_cases spawns : ∃ s, .spawning s ∈ m.taken
  · obtain ⟨s, mem⟩ := spawns
    exact ⟨[], (step_spawning mem c).1, by simp⟩
  · have nobody : m.taken.flatMap Frame.names = [] :=
      names_taken (fun s point mem => absurd (foreign _ mem) (by simp [Frame.isSession]))
        fun s mem => spawns ⟨s, mem⟩
    obtain ⟨new, d, grows⟩ := m.step_extends_anyhow c
    refine ⟨new, grows.stack, fun f mem => ?_⟩
    cases f with
    | session s point =>
      have own := grows.turns s point mem
      rw [nobody] at own
      exact absurd own List.not_mem_nil
    | _ => rfl

/-! ### Moves -/

/-- All sessions that are suspended, in their turn or about to be suspended. -/
def names (m : Machine σ κ) : List SessionName :=
  m.stack.flatMap Frame.names ++ m.world.suspended.map fun entry => entry.task.name

/-- Nothing of the library runs in a move: the consumer begins to run code or changes its memory,
time passes, somebody begins to wait or stops waiting, or the executor goes away. -/
structure Idles (m m' : Machine σ κ) : Prop where
  idle : m.isIdle = true
  stack : m'.stack = []
  passive : m'.control.isAct = false
  /-- But for the clock and the executor nobody notices anything. -/
  near : m.world.Near { m'.world with
    clock := m.world.clock, suspended := m.world.suspended, hasExecutor := m.world.hasExecutor }
  suspended : m'.world.suspended.Perm m.world.suspended
  clock : m.world.clock ≤ m'.world.clock
  hasExecutor : m'.world.hasExecutor = true → m.world.hasExecutor = true

theorem Idles.tracker_tasks (idles : Idles m m') (k : Nat) :
    (m'.world.tracker k).store.tasks = (m.world.tracker k).store.tasks := idles.near.tasks k

theorem Idles.lives (idles : Idles m m') (S : SessionName) : m'.world.lives S = m.world.lives S :=
  idles.near.lives S

theorem Idles.nextSerial (idles : Idles m m') : m'.world.nextSerial = m.world.nextSerial :=
  idles.near.nextSerial

theorem Idles.names (idles : Idles m m') : m'.names.Perm m.names := by
  rw [Machine.names, Machine.names, idles.stack, stack_of_isIdle idles.idle]
  exact (idles.suspended.map _).append_left _

theorem Idles.act? (idles : Idles m m') : m'.act? = none := act?_of_passive idles.passive

/-- The world has changed in a way that sessions do not notice. -/
theorem Idles.of_near (idle : m.isIdle = true) {w : World κ} (near : m.world.Near w) :
    Idles m (m.withWorld w) where
  idle := idle
  stack := stack_of_isIdle idle
  passive := passive_of_isIdle idle
  near := by
    rw [← near.clock, ← near.suspended, ← near.hasExecutor]
    exact near
  suspended := near.suspended ▸ .refl _
  clock := Nat.le_of_eq near.clock.symm
  hasExecutor there := near.hasExecutor ▸ there

/-- What happens in a move. -/
inductive Happens (c : Consumer σ κ) : Machine σ κ → Machine σ κ → Prop
  /-- The machine takes a step. -/
  | step {m : Machine σ κ} (busy : m.isIdle = false) : Happens c m (m.step c)
  /-- A session gets a turn. -/
  | wake {m : Machine σ κ} {before entry after} (idle : m.isIdle = true)
      (listed : m.world.suspended = before ++ entry :: after)
      (ready : m.world.isReady entry = true) :
      Happens c m ((m.withWorld { m.world with suspended := before ++ after }).wake entry)
  /-- A session is given up. -/
  | abandon {m : Machine σ κ} {before entry after} (idle : m.isIdle = true)
      (closed : m.world.hasExecutor = false)
      (listed : m.world.suspended = before ++ entry :: after) :
      Happens c m ((m.withWorld { m.world with suspended := before ++ after }).abandon entry)
  /-- Nothing of the library runs. -/
  | idles {m m' : Machine σ κ} (idles : Idles m m') : Happens c m m'

theorem Move.happens {given : Code σ κ → Prop} (move : Move c given m m') : Happens c m m' := by
  have still : ∀ w : World κ, w.Near w := .refl
  cases move with
  | step busy => exact .step busy
  | wake idle listed ready => exact .wake idle listed ready
  | abandon idle closed listed => exact .abandon idle closed listed
  | code idle allowed =>
    exact .idles ⟨idle, stack_of_isIdle (m := m) idle, rfl, still _, .refl _, Nat.le_refl _, id⟩
  | remember idle memory =>
    exact .idles ⟨idle, stack_of_isIdle (m := m) idle, passive_of_isIdle (m := m) idle, still _,
      .refl _, Nat.le_refl _, id⟩
  | tick quiet later due =>
    have idle : m.isIdle = true := (Bool.and_eq_true_iff.mp quiet).1
    exact .idles ⟨idle, stack_of_isIdle (m := m) idle, passive_of_isIdle (m := m) idle, still _,
      .refl _, later, id⟩
  | await idle begun => exact .idles (.of_near idle (World.near_beginWait begun))
  | endWait idle wait => exact .idles (.of_near idle (m.world.near_endWait wait))
  | close idle same =>
    exact .idles ⟨idle, stack_of_isIdle (m := m) idle, passive_of_isIdle (m := m) idle, still _, same,
      Nat.le_refl _, fun there => absurd there Bool.false_ne_true⟩

/-! ### Sessions are somewhere once -/

/-- In a sound state records are kept under their own identifiers, every session is somewhere once
at most, and the serial numbers of all sessions have been given before. -/
structure Sound (m : Machine σ κ) : Prop where
  keyed : m.world.Keyed
  once : (m.names.map SessionName.serial).Nodup
  below : ∀ S ∈ m.names, S.serial < m.world.nextSerial
  given : ∀ S, m.world.lives S → S.serial < m.world.nextSerial

/-- The session that a deed creates has the next serial number. -/
theorem serial_of_mem_news {d : Deed κ} {w : World κ} {S : SessionName} (mem : S ∈ d.news w) :
    S.serial = w.nextSerial ∧ d.begins = 1 := by
  cases d with
  | began number id =>
    rw [List.mem_singleton.mp mem]
    exact ⟨rfl, rfl⟩
  | _ => exact absurd mem List.not_mem_nil

/-- What stands somewhere after a step stood somewhere before, or has just been created. -/
private theorem Grows.moved {taken : List SessionName} {new : List (Frame σ κ)} {d : Deed κ}
    (grows : Grows tasks taken m m' new d) :
    m'.names.Subperm ((taken ++ m.names) ++ d.news m.world) := by
  have split : m'.names.Perm
      ((new.flatMap Frame.names ++ d.suspends.map fun entry => entry.task.name) ++ m.names) := by
    rw [Machine.names, Machine.names, grows.stack, grows.does.suspended, List.flatMap_append,
      List.map_append]
    simp only [List.append_assoc]
    refine List.Perm.append_left _ ?_
    rw [← List.append_assoc]
    exact List.perm_append_comm
  refine split.subperm.trans (((List.subperm_append_right _).mpr grows.names).trans ?_)
  simp only [List.append_assoc]
  exact (List.perm_append_comm.append_left _).subperm

private theorem Extends.sound {taken : List SessionName} {m m' : Machine σ κ}
    (h : Extends tasks taken m m') (keyed : m.world.Keyed)
    (once : ((taken ++ m.names).map SessionName.serial).Nodup)
    (below : ∀ S ∈ taken ++ m.names, S.serial < m.world.nextSerial)
    (given : ∀ S, m.world.lives S → S.serial < m.world.nextSerial) : Sound m' := by
  obtain ⟨new, d, grows⟩ := h
  have serial : m'.world.nextSerial = m.world.nextSerial + d.begins := grows.does.nextSerial
  have single : ((d.news m.world).map SessionName.serial).Nodup := by
    cases d <;> simp [Deed.news]
  refine ⟨grows.does.keyed keyed, ?_, fun S mem => ?_, fun S living => ?_⟩
  · obtain ⟨l, same, sub⟩ := grows.moved
    refine (same.map _).nodup_iff.mp ((sub.map _).nodup ?_)
    rw [List.map_append, List.nodup_append]
    refine ⟨once, single, fun a memA b memB equal => ?_⟩
    obtain ⟨A, old, rfl⟩ := List.mem_map.mp memA
    obtain ⟨B, fresh, rfl⟩ := List.mem_map.mp memB
    exact Nat.ne_of_lt (below A old) (equal.trans (serial_of_mem_news fresh).1)
  · rw [serial]
    rcases List.mem_append.mp (grows.moved.subset mem) with old | fresh
    · exact Nat.lt_add_right _ (below S old)
    · obtain ⟨same, one⟩ := serial_of_mem_news fresh
      rw [same, one]
      exact Nat.lt_succ_self _
  · rcases grows.does.succeeds.lives S living with old | ⟨_, fresh⟩
    · exact Nat.lt_of_lt_of_le (given S old) grows.does.succeeds.serials
    · exact fresh

private theorem Extends.mem_names {taken : List SessionName} (h : Extends tasks taken m m')
    {S : SessionName} (mem : S ∈ m'.names) :
    S ∈ taken ++ m.names ∨ S.serial = m.world.nextSerial := by
  obtain ⟨new, d, grows⟩ := h
  rcases List.mem_append.mp (grows.moved.subset mem) with old | fresh
  · exact .inl old
  · exact .inr (serial_of_mem_news fresh).1

theorem Sound.nodup (sound : m.Sound) : m.names.Nodup :=
  List.Pairwise.of_map SessionName.serial (fun _ _ differ same => differ (congrArg _ same)) sound.once

theorem names_eq (m : Machine σ κ) :
    m.names = m.taken.flatMap Frame.names ++ m.below.names := by
  rw [names, m.stack_eq, List.flatMap_append, List.append_assoc]
  simp only [names, world_below]

variable {given : Code σ κ → Prop}

/-- The session of an entry is taken from the list of those that are suspended. -/
private theorem names_without {before after : List (Suspended κ)} {entry : Suspended κ}
    (listed : m.world.suspended = before ++ entry :: after) :
    ([entry.task.name] ++
      (m.withWorld { m.world with suspended := before ++ after }).names).Perm m.names := by
  simp only [names, withWorld, listed, List.map_append, List.map_cons]
  rw [List.singleton_append, ← List.append_assoc, ← List.append_assoc]
  exact List.perm_middle.symm

/-- A move takes a frame off the stack at most, or a session from the list of those that are
suspended, and extends the rest, or nothing of the library runs in it. -/
theorem Move.extends_or_idles (move : Move c given m m') :
    (∃ (taken : List SessionName) (m₀ : Machine σ κ) (suspended : List (Suspended κ)),
      Extends (fun _ _ => True) taken m₀ m' ∧ (taken ++ m₀.names).Perm m.names ∧
        m₀.world = { m.world with suspended }) ∨ Idles m m' := by
  cases move.happens with
  | step busy =>
    refine .inl ⟨_, m.below, m.world.suspended, m.step_extends_anyhow c, ?_, m.world_below⟩
    exact m.names_eq ▸ .refl _
  | wake idle listed ready =>
    exact .inl ⟨_, _, _, wake_extends_anyhow _ _, names_without listed, rfl⟩
  | abandon idle closed listed =>
    exact .inl ⟨_, _, _, abandon_extends_anyhow _ _, names_without listed, rfl⟩
  | idles idles => exact .inr idles

/-- What is extended has been sound before a session was taken from where it was. -/
private theorem Sound.extended {taken : List SessionName} {m₀ : Machine σ κ}
    {suspended : List (Suspended κ)} (sound : m.Sound)
    (extends_ : Extends (fun _ _ => True) taken m₀ m') (same : (taken ++ m₀.names).Perm m.names)
    (world : m₀.world = { m.world with suspended }) : m'.Sound := by
  refine extends_.sound ?_ ((same.map _).nodup_iff.mpr sound.once) (fun S mem => ?_) ?_
  · rw [world]
    exact sound.keyed
  · rw [world]
    exact sound.below S (same.subset mem)
  · rw [world]
    exact sound.given

theorem Sound.step (sound : m.Sound) (c : Consumer σ κ) : (m.step c).Sound :=
  sound.extended (m.step_extends_anyhow c) (m.names_eq ▸ .refl _) m.world_below

theorem Move.sound (sound : m.Sound) (move : Move c given m m') : m'.Sound := by
  rcases move.extends_or_idles with ⟨taken, m₀, suspended, extends_, same, world⟩ | idles
  · exact sound.extended extends_ same world
  · exact {
      keyed := fun k => idles.tracker_tasks k ▸ sound.keyed k
      once := (idles.names.map _).nodup_iff.mpr sound.once
      below := fun S mem => idles.nextSerial ▸ sound.below S (idles.names.subset mem)
      given := fun S living => idles.nextSerial ▸ sound.given S (idles.lives S ▸ living) }

/-- In a sound state a suspended session is nowhere else. -/
theorem Sound.not_mem_without (sound : m.Sound) {before after : List (Suspended κ)}
    {entry : Suspended κ} (listed : m.world.suspended = before ++ entry :: after) :
    entry.task.name ∉ (m.withWorld { m.world with suspended := before ++ after }).names := by
  have once := ((names_without listed).map _).nodup_iff.mpr sound.once
  rw [List.singleton_append, List.map_cons, List.nodup_cons] at once
  exact fun mem => once.1 (List.mem_map_of_mem mem)

/-- Sessions that are somewhere have been somewhere before, or they have just been created. -/
theorem Move.mem_names (move : Move c given m m') {S : SessionName} (mem : S ∈ m'.names) :
    S ∈ m.names ∨ S.serial = m.world.nextSerial := by
  rcases move.extends_or_idles with ⟨taken, m₀, suspended, extends_, same, world⟩ | idles
  · have serial : m₀.world.nextSerial = m.world.nextSerial := world ▸ rfl
    exact serial ▸ (extends_.mem_names mem).imp_left fun old => same.subset old
  · exact .inl (idles.names.subset mem)

private theorem tracker_blank (storage : Storage) (wallClock : Nat) (hasExecutor : Bool) (k : Nat) :
    (World.blank storage wallClock hasExecutor : World κ).tracker k = default := rfl

theorem sound_blank (memory : σ) (storage : Storage) (wallClock : Nat) (hasExecutor : Bool) :
    (idle memory (.blank storage wallClock hasExecutor) : Machine σ κ).Sound where
  keyed k := by
    rw [idle, tracker_blank]
    exact Collection.keyed_empty
  once := List.nodup_nil
  below _ mem := absurd mem List.not_mem_nil
  given S living := by
    rw [World.lives_iff, idle, tracker_blank] at living
    exact absurd living.symm (Option.some_ne_none _)

theorem Reachable.sound (reach : Reachable c m) : m.Sound :=
  reach.induction sound_blank fun _ _ sound move => move.sound sound

/-! ### Trackers stay -/

/-- What a move does to the trackers is one deed. -/
theorem Move.does (move : Move c given m m') : ∃ (w w' : World κ) (d : Deed κ),
    w.trackers = m.world.trackers ∧ w'.trackers = m'.world.trackers ∧ w.Does d w' := by
  rcases move.extends_or_idles with ⟨taken, m₀, suspended, ⟨new, d, grows⟩, _, world⟩ | idles
  · exact ⟨m₀.world, _, d, world ▸ rfl, rfl, grows.does⟩
  · refine ⟨m.world, _, .nothing, rfl, ?_, idles.near.does⟩
    rfl

/-- Trackers that have been opened stay open. -/
theorem Move.inside (move : Move c given m m') {k : Nat} (inside : k < m.world.trackers.length) :
    k < m'.world.trackers.length := by
  obtain ⟨w, w', d, before, after, does⟩ := move.does
  rw [← before] at inside
  exact after ▸ does.inside inside

theorem Run.inside {states : List (Machine σ κ)} (run : Run c given m states m') {k : Nat}
    (inside : k < m.world.trackers.length) : k < m'.world.trackers.length := by
  induction run with
  | start => exact inside
  | move _ next ih => exact next.inside ih

/-- Listeners of sessions keep their numbers, and no two have the same. -/
theorem Move.numbered (move : Move c given m m') (k : Nat)
    (sound : (m.world.tracker k).watchers.Sound) : (m'.world.tracker k).watchers.Sound := by
  obtain ⟨w, w', d, before, after, does⟩ := move.does
  rw [World.tracker, ← before] at sound
  rw [World.tracker, ← after]
  exact does.numbered sound

theorem Reachable.numbered (reach : Reachable c m) (k : Nat) :
    (m.world.tracker k).watchers.Sound :=
  reach.induction (fun _ _ _ _ => Registry.Sound.empty) fun _ _ sound move => move.numbered k sound

/-! ### Sessions end for good -/

theorem step_succeeds (m : Machine σ κ) (c : Consumer σ κ) : m.world.Succeeds (m.step c).world := by
  obtain ⟨_, _, grows⟩ := m.step_extends_anyhow c
  exact m.world_below ▸ grows.does.succeeds

theorem Move.succeeds (move : Move c given m m') : m.world.Succeeds m'.world := by
  rcases move.extends_or_idles with ⟨taken, m₀, suspended, ⟨new, d, grows⟩, _, world⟩ | idles
  · have succeeds := grows.does.succeeds
    rw [world] at succeeds
    exact ⟨succeeds.serials, succeeds.lives⟩
  · exact ⟨Nat.le_of_eq idles.nextSerial.symm, fun S living => .inl (idles.lives S ▸ living)⟩

/-- Along a run serial numbers grow, and a session that ends does not live again. -/
theorem Run.succeeds {states : List (Machine σ κ)} (run : Run c given m states m') :
    m.world.Succeeds m'.world := by
  induction run with
  | start => exact .refl _
  | move _ next ih => exact ih.trans next.succeeds

end Machine

end TaskWatch
