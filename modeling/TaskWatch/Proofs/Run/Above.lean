import TaskWatch.Proofs.Run.Step

/-!
# What runs above a frame

While a callback of a session or one of its notices is dealt with, the session's own frame lies at
the bottom of the stack, and anything may be called above it. If the code that is called does not
panic by itself, no panic reaches the frame: panics in the depths are swallowed by deliveries, or
the code that asked for the call is told that there is no reply. So there is only one way in which
the stack comes back down to the frame, namely with a reply.

The tasks that are touched meanwhile are those that the code of the consumer touches.

## Main definitions

* `Code.IsHarmless` — code that does not panic.
* `Machine.Above` — something harmless runs above certain frames.
* `Machine.Heeds` — everything that is going on touches certain tasks only.

## Main results

* `Machine.Above.step` — it stays above these frames, or it comes back to them with a reply.
* `Machine.Heeds.step` — a step touches what the machine heeds.
-/

namespace TaskWatch

variable {σ κ : Type}

/-- Code does not panic, whatever the calls that it makes reply. -/
def Code.IsHarmless : Code σ κ → Prop
  | .done => True
  | .panic => False
  | .look next => ∀ scene memory, IsHarmless (next scene memory)
  | .note _ next => IsHarmless next
  | .call _ next => ∀ reply, IsHarmless (next reply)

/-- A frame lets no panic through: a delivery, or code that does not panic. -/
def Frame.IsHarmless : Frame σ κ → Prop
  | .awaiting next => ∀ reply, Code.IsHarmless (next reply)
  | .delivering _ _ => True
  | _ => False

/-- What is going on does not panic. -/
def Control.IsHarmless (c : Consumer σ κ) : Control σ κ → Prop
  | .code p => Code.IsHarmless p
  | .calling label occasion => Code.IsHarmless (c.react label occasion)
  | .telling _ _ | .returned _ => True
  | .unwinding => False

theorem Frame.IsHarmless.foreign {f : Frame σ κ} (harmless : f.IsHarmless) : f.isSession = false := by
  cases f with
  | awaiting next => rfl
  | delivering n rest => rfl
  | _ => exact harmless.elim

namespace Machine

variable {c : Consumer σ κ} {m m' : Machine σ κ} {base : List (Frame σ κ)}

/-- Something harmless runs above certain frames, and no session has its turn in it. -/
inductive Above (c : Consumer σ κ) (base : List (Frame σ κ)) (m : Machine σ κ) : Prop
  /-- It runs right above them. -/
  | next (stack : m.stack = base) (control : m.control.IsHarmless c)
  /-- It runs above further frames, the lowest of which lets no panic through. -/
  | further {above edge} (stack : m.stack = above ++ edge :: base) (harmless : edge.IsHarmless)
      (foreign : ∀ f ∈ above, f.isSession = false)

/-- A session that does something stands on top of the stack, or right below a frame that a panic
goes through. -/
private theorem session_of_act? {S : SessionName} {a : Act κ} (act : m.act? = some (S, a)) :
    ∃ f rest, m.stack = f :: rest ∧
      (f.isSession = true ∨ ¬ f.IsHarmless ∧ ∃ g ∈ rest.head?, g.isSession = true) := by
  rw [act?] at act
  split at act
  · next stack => exact ⟨_, _, stack, .inl rfl⟩
  · next stack => exact ⟨_, _, stack, .inr ⟨id, _, rfl, rfl⟩⟩
  · next stack => exact ⟨_, _, stack, .inl rfl⟩
  · next stack => exact ⟨_, _, stack, .inr ⟨id, _, rfl, rfl⟩⟩
  · simp at act

/-- Nothing that runs above further frames is done by the session below them. -/
theorem act?_further {above : List (Frame σ κ)} {edge : Frame σ κ}
    (stack : m.stack = above ++ edge :: base) (harmless : edge.IsHarmless)
    (foreign : ∀ f ∈ above, f.isSession = false) : m.act? = none := by
  rw [Option.eq_none_iff_forall_ne_some]
  rintro ⟨S, a⟩ act
  obtain ⟨f, rest, top, own⟩ := session_of_act? act
  rw [stack] at top
  have plain := harmless.foreign
  cases above with
  | nil =>
    obtain ⟨rfl, rfl⟩ := List.cons.inj top
    rcases own with own | ⟨open_, _⟩
    · simp [plain] at own
    · exact open_ harmless
  | cons g above =>
    obtain ⟨rfl, rfl⟩ := List.cons.inj top
    rcases own with own | ⟨_, h, second, own⟩
    · simp [foreign g List.mem_cons_self] at own
    · cases above with
      | nil =>
        have same : edge = h := by simpa using second
        simp [← same, plain] at own
      | cons k above =>
        have same : k = h := by simpa using second
        subst same
        simp [foreign k (List.mem_cons_of_mem _ List.mem_cons_self)] at own

/-- A delivery above some frames stays above them. -/
private theorem deliver_above (stack : m.stack = base) (n : Notice) (audience : List (Audience κ)) :
    Above c base (m.deliver n audience) ∧ (m.deliver n audience).act? = none := by
  obtain ⟨same, control⟩ | ⟨rest, pushed⟩ := m.deliver_cases n audience
  · refine ⟨.next (same.trans stack) ?_, act?_of_passive ?_⟩
    · rw [control]
      trivial
    · rw [control]
      rfl
  · have pushed : (m.deliver n audience).stack = [] ++ .delivering n rest :: base := stack ▸ pushed
    have none : ∀ f ∈ ([] : List (Frame σ κ)), f.isSession = false := by simp
    exact ⟨.further pushed trivial none, act?_further pushed trivial none⟩

/-- Code that does not panic and runs right above some frames. -/
private theorem stepCode_above {p : Code σ κ} (stack : m.stack = base)
    (harmless : Code.IsHarmless p) :
    Above c base (m.stepCode p) ∧ (m.stepCode p).act? = none := by
  cases p with
  | done => exact ⟨.next stack trivial, rfl⟩
  | panic => exact harmless.elim
  | look next => exact ⟨.next stack (harmless _ _), rfl⟩
  | note change next => exact ⟨.next stack harmless, rfl⟩
  | call request next =>
    have all : ∀ (number : Nat) (id : TaskId), True := fun _ _ => trivial
    obtain ⟨new, d, grows⟩ := perform_extends (m := m.push (.awaiting next))
      (request.isWithin_of_forall all)
    have pushed : (m.stepCode (.call request next)).stack = new ++ .awaiting next :: base := by
      rw [← stack]
      exact grows.stack
    have foreign : ∀ f ∈ new, f.isSession = false := by
      intro f mem
      cases f with
      | session s point => exact absurd (grows.turns s point mem) List.not_mem_nil
      | _ => rfl
    exact ⟨.further pushed harmless foreign, act?_further pushed harmless foreign⟩

/-- Further frames stay above when no session goes on. -/
private theorem step_further {edge : Frame σ κ} {rest : List (Frame σ κ)}
    (harmless : edge.IsHarmless) (plain : ∀ f ∈ m.taken, f.isSession = false)
    (own : ∀ f ∈ rest, f.isSession = false) (left : m.below.stack = rest ++ edge :: base) :
    Above c base (m.step c) ∧ (m.step c).act? = none := by
  obtain ⟨new, same, fresh⟩ := step_foreign plain c
  rw [left, ← List.append_assoc] at same
  have foreign : ∀ f ∈ new ++ rest, f.isSession = false := fun f mem =>
    (List.mem_append.mp mem).elim (fresh f) (own f)
  exact ⟨.further same harmless foreign, act?_further same harmless foreign⟩

/-- What runs above some frames stays above them until it comes back to them with a reply, and the
sessions on them do nothing meanwhile. -/
theorem Above.step (above : Above c base m)
    (working : ∀ r, m.stack = base → m.control ≠ .returned r) :
    Above c base (m.step c) ∧ (m.step c).act? = none := by
  cases above with
  | next same harmless =>
    obtain ⟨memory, world, control, stack⟩ := m
    cases control with
    | code p => exact stepCode_above same harmless
    | calling label occasion => exact ⟨.next same harmless, rfl⟩
    | telling number n => exact deliver_above same n _
    | returned r => exact absurd rfl (working r same)
    | unwinding => exact harmless.elim
  | @further frames edge pushed harmless foreign =>
    cases frames with
    | nil =>
      rcases taken_cases pushed with ⟨taken, left⟩ | ⟨taken, left⟩
      · have top : edge ∈ m.taken := taken ▸ List.mem_singleton.mpr rfl
        cases edge with
        | awaiting next =>
          obtain ⟨reply, goes⟩ := step_awaiting top c
          rw [goes]
          exact ⟨.next left (harmless reply), rfl⟩
        | delivering n rest =>
          rw [step_delivering top c]
          exact deliver_above left n rest
        | _ => exact harmless.elim
      · have nobody : ∀ f ∈ ([] : List (Frame σ κ)), f.isSession = false := by simp
        exact step_further harmless (taken ▸ nobody) nobody left
    | cons f rest =>
      have first : f.isSession = false := foreign f List.mem_cons_self
      have others : ∀ g ∈ rest, g.isSession = false := fun g mem =>
        foreign g (List.mem_cons_of_mem _ mem)
      rcases taken_cases pushed with ⟨taken, left⟩ | ⟨taken, left⟩
      · exact step_further harmless (by simpa [taken] using first) others left
      · exact step_further harmless (by simp [taken]) foreign left

theorem Above.mem_stack (above : Above c base m) {f : Frame σ κ} (mem : f ∈ base) : f ∈ m.stack := by
  cases above with
  | next stack control => rwa [stack]
  | further stack harmless foreign =>
    rw [stack]
    exact List.mem_append_right _ (List.mem_cons_of_mem _ mem)

/-- As long as it has not come back, no session goes on. -/
theorem Above.taken_foreign (above : Above c base m)
    (working : ∀ r, m.stack = base → m.control ≠ .returned r) :
    ∀ f ∈ m.taken, f.isSession = false := by
  intro f mem
  obtain ⟨memory, world, control, stack⟩ := m
  cases above with
  | next same harmless =>
    cases control with
    | returned r => exact absurd rfl (working r same)
    | unwinding => exact harmless.elim
    | _ => simp [taken] at mem
  | @further frames edge pushed harmless foreign =>
    have top := head?_of_mem_taken mem
    obtain rfl : stack = frames ++ edge :: base := pushed
    cases frames with
    | nil =>
      obtain rfl : edge = f := Option.some.inj top
      exact harmless.foreign
    | cons g rest =>
      obtain rfl : g = f := Option.some.inj top
      exact foreign g List.mem_cons_self

/-- It has come back with a reply, or a step leaves it above these frames. -/
theorem Above.returned_or_step (above : Above c base m) :
    (m.stack = base ∧ ∃ r, m.control = .returned r) ∨
      Above c base (m.step c) ∧ (m.step c).act? = none ∧ ∀ f ∈ m.taken, f.isSession = false := by
  by_cases back : m.stack = base ∧ ∃ r, m.control = .returned r
  · exact .inl back
  · have working : ∀ r, m.stack = base → m.control ≠ .returned r :=
      fun r stack control => back ⟨stack, r, control⟩
    obtain ⟨above', quiet⟩ := above.step working
    exact .inr ⟨above', quiet, above.taken_foreign working⟩

/-! ### What is touched meanwhile -/

/-- Everything that is going on touches certain tasks only. -/
structure Heeds (tasks : Nat → TaskId → Prop) (m : Machine σ κ) : Prop where
  control : m.control.IsWithin tasks
  frames : ∀ f ∈ m.stack, f.IsWithin tasks

variable {tasks : Nat → TaskId → Prop}

theorem Extends.heeds {given : List SessionName} (h : Extends tasks given m m')
    (frames : ∀ f ∈ m.stack, f.IsWithin tasks) :
    m'.Heeds tasks ∧ ∃ d, d.IsWithin tasks ∧ m.world.Does d m'.world := by
  obtain ⟨new, d, grows⟩ := h
  refine ⟨⟨grows.control, fun f mem => ?_⟩, d, grows.within, grows.does⟩
  rw [grows.stack] at mem
  rcases List.mem_append.mp mem with mem | mem
  · exact grows.frames f mem
  · exact frames f mem

/-- A step touches these tasks only, if the consumer does and the session that goes on does. -/
theorem Heeds.step (heeds : m.Heeds tasks) (consumer : c.IsWithin tasks)
    (touch : ∀ s point, .session s point ∈ m.taken → m.world.lives s.name →
      tasks s.tracker s.id) :
    (m.step c).Heeds tasks ∧ ∃ d, d.IsWithin tasks ∧ m.world.Does d (m.step c).world := by
  have taken : ∀ f ∈ m.taken, f.IsWithin tasks := fun f mem =>
    heeds.frames f (m.stack_eq ▸ List.mem_append_left _ mem)
  have below : ∀ f ∈ m.below.stack, f.IsWithin tasks := fun f mem =>
    heeds.frames f (m.stack_eq ▸ List.mem_append_right _ mem)
  have steps := (step_extends consumer heeds.control taken touch).heeds below
  rwa [world_below] at steps

/-- Unless a session goes on, a step touches what the consumer touches. -/
theorem Heeds.step_foreign (heeds : m.Heeds tasks) (consumer : c.IsWithin tasks)
    (foreign : ∀ f ∈ m.taken, f.isSession = false) :
    (m.step c).Heeds tasks ∧ ∃ d, d.IsWithin tasks ∧ m.world.Does d (m.step c).world :=
  heeds.step consumer fun s point mem => by simpa [Frame.isSession] using foreign _ mem

/-- A machine that has nothing to do touches nothing. -/
theorem heeds_of_isIdle (idle : m.isIdle = true) : m.Heeds tasks := by
  rw [isIdle] at idle
  split at idle
  · next stack control => exact ⟨control ▸ trivial, by simp [stack]⟩
  · next stack control => exact ⟨control ▸ trivial, by simp [stack]⟩
  · simp at idle

end Machine

end TaskWatch
