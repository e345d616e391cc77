import TaskWatch.Proofs.Run.Warrant
import TaskWatch.Proofs.Session.AfterEnd

/-!
# Where sessions stand

A session that stands on a frame has come there for a reason, and the reason stays true while others
act above it. One that stops itself has ended already, and one that gives up its request has ended
or has lost its executor. One that waits for the callback for the end of its job has called this
callback; it will only end, so the callback is called once at most.

## Main definitions

* `Machine.verdictCalls` — the callback for the end of its job that a session calls at this moment.
* `Machine.IsDone` — a session has ended, or it has called this callback.

## Main results

* `Machine.Reachable.stages` — what is known of a session from where it stands.
* `Machine.Run.concluded` — a session that waits for this callback has called it for a terminal
  report.
* `Machine.Run.verdictCalls_le_one` — no session calls it twice.
-/

namespace TaskWatch

variable {σ κ : Type}

namespace Machine

variable {m m' m₀ : Machine σ κ} {c : Consumer σ κ} {given : Code σ κ → Prop} {S : SessionName}
  {s : SessionTask κ}

/-! ### What is known of a session from where it stands -/

/-- A session that stops itself has ended, and one that gives up its request has ended or has lost
its executor. -/
structure Stages (m : Machine σ κ) : Prop where
  ending : ∀ s, .session s .ending ∈ m.stack → m.world.lives s.name = false
  aborting : ∀ s, .session s .aborting ∈ m.stack → m.world.lives s.name = false
  dropping : ∀ s, .session s .dropping ∈ m.stack → m.world.lives s.name = true →
    m.world.hasExecutor = false

theorem Sound.created (sound : m.Sound) {point : Point κ} (mem : .session s point ∈ m.stack) :
    s.name.serial < m.world.nextSerial :=
  sound.below s.name (List.mem_append_left _ (List.mem_flatMap.mpr
    ⟨_, mem, List.mem_singleton.mpr rfl⟩))

theorem Stages.move (stages : m.Stages) (sound : m.Sound) (move : Move c given m m') :
    m'.Stages where
  ending s mem := by
    rcases move.frame mem with old | attests
    · exact (Ended.move ⟨sound.created old, stages.ending s old⟩ move).dead
    · exact attests
  aborting s mem := by
    rcases move.frame mem with old | attests
    · exact (Ended.move ⟨sound.created old, stages.aborting s old⟩ move).dead
    · exact attests
  dropping s mem lives := by
    rcases move.frame mem with old | attests
    · refine Bool.eq_false_iff.mpr fun there => ?_
      have lived : m.world.lives s.name = true := by
        refine (move.succeeds.lives s.name lives).resolve_right fun new => ?_
        exact Nat.not_lt_of_le new.1 (sound.created old)
      have closed := stages.dropping s old lived
      simp [move.hasExecutor there] at closed
    · exact attests lives

theorem Reachable.stages (reach : Reachable c m) : m.Stages := by
  have both : m.Sound ∧ m.Stages := by
    refine reach.induction (motive := fun m => m.Sound ∧ m.Stages)
      (fun memory storage wallClock hasExecutor => ?_) fun m m' holds move => ?_
    · exact ⟨sound_blank memory storage wallClock hasExecutor, fun _ => nofun, fun _ => nofun,
        fun _ => nofun⟩
    · exact ⟨move.sound holds.1, holds.2.move holds.1 move⟩
  exact both.2

/-- A session that waits for the callback for the end of its job has called it, with a report of
this end. -/
theorem Run.concluded {states : List (Machine σ κ)} (run : Run c given m₀ states m)
    {reason : StopReason} (mem : .session s (.concluded reason) ∈ m.stack) :
    .session s (.concluded reason) ∈ m₀.stack ∨
      ∃ m₁ ∈ states, m₁.Attests s (.concluded reason) := by
  induction run with
  | start => exact .inl mem
  | @move states m₁ m₂ run next ih =>
    rcases next.frame mem with old | attests
    · exact (ih old).imp_right fun ⟨m₃, on, attests⟩ => ⟨m₃, List.mem_append_left _ on, attests⟩
    · exact .inr ⟨m₂, List.mem_append_right _ List.mem_cons_self, attests⟩

/-! ### The callback for the end of a job -/

/-- The callback for the end of its job that a session calls at this moment, if it calls one. -/
def verdictCalls (m : Machine σ κ) (S : SessionName) : List Occasion :=
  (m.lifecycleCalls S).filter Occasion.isVerdict

/-- A session has ended, or it has called the callback for the end of its job. -/
def IsDone (m : Machine σ κ) (S : SessionName) : Prop :=
  Ended S m ∨ ∃ s reason, s.name = S ∧ .session s (.concluded reason) ∈ m.stack

theorem length_verdictCalls_le (m : Machine σ κ) (S : SessionName) :
    (m.verdictCalls S).length ≤ 1 := by
  refine (List.length_filter_le _ _).trans ?_
  rw [lifecycleCalls]
  split
  · split <;> simp
  · simp

/-- When a session calls the callback, this is what is being called, and the session stands on top.
-/
theorem exists_of_mem_verdictCalls {occasion : Occasion} (mem : occasion ∈ m.verdictCalls S) :
    occasion.isVerdict = true ∧ ∃ label s point rest,
      m.control = .calling label occasion ∧ m.stack = .session s point :: rest ∧ s.name = S := by
  obtain ⟨mem, verdict⟩ := List.mem_filter.mp mem
  refine ⟨verdict, ?_⟩
  rw [lifecycleCalls] at mem
  split at mem
  · next T label occasion' act =>
    split at mem
    · next own =>
      obtain rfl := List.mem_singleton.mp mem
      rw [act?] at act
      split at act
      · next s point rest control stack =>
        obtain ⟨name, called⟩ := Prod.mk.inj (Option.some.inj act)
        obtain ⟨rfl, rfl⟩ := Act.calls.inj called
        exact ⟨_, s, point, rest, control, stack, name.trans own.1⟩
      · obtain ⟨_, called⟩ := Prod.mk.inj (Option.some.inj act)
        obtain ⟨_, rfl⟩ := Act.calls.inj called
        exact absurd verdict (by simp [Occasion.isVerdict])
      · exact absurd (Prod.mk.inj (Option.some.inj act)).2 (by simp)
      · exact absurd (Prod.mk.inj (Option.some.inj act)).2 (by simp)
      · exact absurd act (by simp)
    · exact absurd mem List.not_mem_nil
  · exact absurd mem List.not_mem_nil

/-- What a session still has to say is about statuses only. -/
theorem PassesBy.verdictCalls (passes : PassesBy S m m') : m'.verdictCalls S = [] := by
  refine List.filter_eq_nil_iff.mpr fun occasion mem verdict => ?_
  have said : occasion ∈ m.unsaid S := passes.lifecycle ▸ List.mem_append_left _ mem
  obtain ⟨f, _, own⟩ := List.mem_flatMap.mp said
  cases f with
  | session s point =>
    cases point with
    | recorded report hooks =>
      rw [Frame.unsaid] at own
      split at own
      · rw [List.mem_singleton.mp own] at verdict
        exact absurd verdict (by simp [Occasion.isVerdict])
      · exact absurd own List.not_mem_nil
    | _ => exact absurd own List.not_mem_nil
  | _ => exact absurd own List.not_mem_nil

/-- When a session calls the callback in a move, it waits for it to return. -/
private theorem isDone_of_verdictCalls (move : Move c given m m') {occasion : Occasion}
    (mem : occasion ∈ m'.verdictCalls S) : m'.IsDone S := by
  obtain ⟨verdict, label, s, point, rest, control, stack, name⟩ := exists_of_mem_verdictCalls mem
  have waits : ∀ {g T} {m₁ : Machine σ κ}, Turn g T m₁ m' → m'.IsDone S := by
    intro g T m₁ turn
    obtain ⟨t, reason, _, stack'⟩ := turn.verdict control verdict
    obtain ⟨same, _⟩ := List.cons.inj (stack.symm.trans stack')
    obtain ⟨rfl, _⟩ := Frame.session.inj same
    exact .inr ⟨s, reason, name, by rw [stack']; exact List.mem_cons_self⟩
  cases move.happens with
  | step busy =>
    rcases m.step_turn_or_foreign c with ⟨_, _, _, _, turn⟩ | nobody
    · exact waits turn
    · have passes : PassesBy S m (m.step c) := step_passesBy c fun t place taken =>
        absurd (nobody _ taken) (by simp [Frame.isSession])
      rw [passes.verdictCalls] at mem
      exact absurd mem List.not_mem_nil
  | wake idle listed ready => exact waits (wake_turn _ _)
  | idles idles =>
    rw [idles.stack] at stack
    cases stack
  | @abandon before entry after idle closed listed =>
    let w := { m.world with suspended := before ++ after }
    exact waits (abandon_turn (m := m.withWorld w) closed entry)

/-- A session that has called the callback, or has ended, does not call it again. -/
theorem IsDone.move (done : m.IsDone S) (sound : m.Sound) (sheltered : m.Sheltered)
    (move : Move c given m m') : m'.IsDone S ∧ m'.verdictCalls S = [] := by
  rcases done with ended | ⟨s, reason, name, on⟩
  · exact ⟨.inl (ended.move move), (ended.passesBy sheltered move).verdictCalls⟩
  have created : S.serial < m.world.nextSerial := name ▸ sound.created on
  obtain rfl := move.eq_step (isIdle_of_mem_stack on)
  have once : (m.taken.flatMap Frame.names ++ m.below.names).Nodup := m.names_eq ▸ sound.nodup
  have stays : .session s (.concluded reason) ∈ m.taken ∨
      .session s (.concluded reason) ∈ m.below.stack := by
    rw [m.stack_eq] at on
    exact List.mem_append.mp on
  rcases stays with taken | left
  · -- The callback has returned or panicked, and the session ends.
    have settled : (m.step c).world.lives s.name = false ∧ ∀ label occasion,
        (m.step c).control = .calling label occasion → occasion.isVerdict = false := by
      rcases step_of_mem_taken taken c with ⟨r, goes⟩ | goes
      · rw [goes]
        exact ⟨lives_stopSession _ s reason, fun _ _ => not_isVerdict_stopSession⟩
      · rw [goes, unwind_session, finish]
        split
        · exact ⟨lives_stopSession _ s .aborted, fun _ _ => not_isVerdict_stopSession⟩
        · next dead =>
          refine ⟨Bool.eq_false_iff.mpr dead, ?_⟩
          rintro _ _ ⟨⟩
    refine ⟨.inl ⟨Nat.lt_of_lt_of_le created move.succeeds.serials, name ▸ settled.1⟩,
      List.eq_nil_iff_forall_not_mem.mpr fun occasion mem => ?_⟩
    obtain ⟨verdict, label, _, _, _, control, _⟩ := exists_of_mem_verdictCalls mem
    simp [settled.2 label occasion control] at verdict
  · refine ⟨.inr ⟨s, reason, name, ?_⟩, ?_⟩
    · obtain ⟨new, d, grows⟩ := m.step_extends_anyhow c
      rw [grows.stack]
      exact List.mem_append_right _ left
    · refine (step_passesBy c fun t place taken own => ?_).verdictCalls
      -- No session stands on two frames.
      refine (List.nodup_append.mp once).2.2 S (List.mem_flatMap.mpr ⟨_, taken, ?_⟩) S ?_ rfl
      · exact List.mem_singleton.mpr own.symm
      · refine List.mem_append_left _ (List.mem_flatMap.mpr ⟨_, left, ?_⟩)
        exact List.mem_singleton.mpr name.symm

/-- No session calls the callback for the end of its job twice. -/
theorem Run.verdictCalls_le_one {states : List (Machine σ κ)} (reach : Reachable c m₀)
    (run : Run c given m₀ states m) (S : SessionName) :
    (states.flatMap (verdictCalls · S)).length ≤ 1 := by
  suffices states.flatMap (verdictCalls · S) = [] ∨
      (states.flatMap (verdictCalls · S)).length ≤ 1 ∧ m.IsDone S by
    rcases this with none | ⟨once, _⟩
    · simp [none]
    · exact once
  induction run with
  | start => exact .inl rfl
  | @move states m₁ m₂ run next ih =>
    have reach₁ := reach.run run
    rw [List.flatMap_append, List.flatMap_singleton]
    rcases ih with none | ⟨once, done⟩
    · rw [none, List.nil_append]
      cases calls : m₂.verdictCalls S with
      | nil => exact .inl rfl
      | cons occasion rest =>
        have mem : occasion ∈ m₂.verdictCalls S := calls ▸ List.mem_cons_self
        exact .inr ⟨calls ▸ m₂.length_verdictCalls_le S, isDone_of_verdictCalls next mem⟩
    · obtain ⟨done', quiet⟩ := done.move reach₁.sound reach₁.sheltered next
      rw [quiet, List.append_nil]
      exact .inr ⟨once, done'⟩

end Machine

end TaskWatch
