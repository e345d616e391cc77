import Mathlib.Data.Nat.Find
import Mathlib.Logic.Function.Iterate

/-!
# Rounds

Listeners are told of something one after the other, and each of them may cause others to be told of
something else before it is done. Two machines do this: the emitter, which does nothing else, and the
machine on which trackers work. Both have a stack of frames, on which those who are still to be told
wait while somebody is told. What can be said of this alone is said here, once for both.

Whatever listeners do, what they cause runs above the frame in which the others wait, and the next
listener begins when everything above this frame has come to its end, with a reply or with a panic.
So everybody is told, unless what a listener causes goes on forever.

## Main definitions

* `StackMachine` — a machine with a stack of frames.
* `StackMachine.Runs` — something runs to its end, with everything that it causes.
* `StackMachine.Persists` — it goes on forever.
* `Round` — a machine that tells listeners of something.
* `Round.Delivers` — listeners are told one after the other.
* `Round.Stalls` — one of them never comes to an end.

## Main results

* `StackMachine.runs_or_persists` — something runs to its end, or goes on forever above the frames on
  which it began.
* `Round.Delivers.iterate` — the steps of a round.
* `Round.delivers_or_stalls` — everybody is told unless somebody never comes to an end.
-/

namespace TaskWatch

/-- A machine with a stack of frames. -/
structure StackMachine (S F : Type) where
  /-- One step. -/
  step : S → S
  /-- What waits for the current step to end, the innermost frame first. -/
  stack : S → List F
  /-- What was done last has come to its end. -/
  isOver : S → Prop
  /-- While something is done, frames are put on the stack and none is taken off. -/
  step_working : ∀ s, ¬ isOver s → ∃ new, stack (step s) = new ++ stack s
  /-- When it has come to its end, the innermost frame goes on. -/
  step_over : ∀ s, isOver s →
    step s = s ∨ ∃ frame rest new, stack s = frame :: rest ∧ stack (step s) = new ++ rest

namespace StackMachine

variable {S F : Type} (M : StackMachine S F) {s s' : S} {base : List F}

/-- What ran above some frames has come to its end. -/
def IsBack (base : List F) (s : S) : Prop := M.stack s = base ∧ M.isOver s

/-- Something runs above some frames. -/
structure IsAbove (base : List F) (s : S) : Prop where
  /-- The frames lie at the bottom of the stack. -/
  stack : ∃ frames, M.stack s = frames ++ base
  /-- It has not come to its end. -/
  working : ¬ M.IsBack base s

/-- Something runs to its end in a number of steps, with everything that it causes. -/
structure Runs (s : S) (steps : Nat) (s' : S) : Prop where
  /-- The steps lead to the end. -/
  arrives : M.step^[steps] s = s'
  /-- Before the end everything happens above the frames on which it began. -/
  above : ∀ k < steps, M.IsAbove (M.stack s) (M.step^[k] s)
  /-- In the end it has come back to them. -/
  back : M.IsBack (M.stack s) s'

/-- Something goes on forever above the frames on which it began. -/
def Persists (s : S) : Prop := ∀ k, M.IsAbove (M.stack s) (M.step^[k] s)

variable {M}

/-- What runs above some frames leaves them alone. -/
theorem IsAbove.step (above : M.IsAbove base s) : ∃ frames, M.stack (M.step s) = frames ++ base := by
  obtain ⟨⟨frames, stack⟩, working⟩ := above
  by_cases halted : M.isOver s
  · rcases M.step_over s halted with same | ⟨frame, rest, new, top, same⟩
    · exact ⟨frames, by rw [same, stack]⟩
    · cases frames with
      | nil => exact absurd ⟨stack, halted⟩ working
      | cons first frames =>
        obtain ⟨rfl, rfl⟩ := List.cons.inj (top.symm.trans stack)
        exact ⟨new ++ frames, same.trans (List.append_assoc _ _ _).symm⟩
  · obtain ⟨new, same⟩ := M.step_working s halted
    exact ⟨new ++ frames, by rw [same, stack, List.append_assoc]⟩

/-- Something that comes back to the frames on which it began runs to its end. -/
theorem runs_of_isBack (ends : ∃ k, M.IsBack (M.stack s) (M.step^[k] s)) :
    ∃ steps s', M.Runs s steps s' := by
  classical
  have stays : ∀ k, (∀ j < k, ¬ M.IsBack (M.stack s) (M.step^[j] s)) →
      ∃ frames, M.stack (M.step^[k] s) = frames ++ M.stack s := by
    intro k working
    induction k with
    | zero => exact ⟨[], rfl⟩
    | succ k ih =>
      rw [Function.iterate_succ_apply']
      exact IsAbove.step ⟨ih fun j below => working j (Nat.lt_succ_of_lt below), working k k.lt_succ_self⟩
  have before : ∀ j < Nat.find ends, ¬ M.IsBack (M.stack s) (M.step^[j] s) :=
    fun j below => Nat.find_min ends below
  refine ⟨Nat.find ends, _, rfl, fun k below => ⟨?_, before k below⟩, Nat.find_spec ends⟩
  exact stays k fun j earlier => before j (Nat.lt_trans earlier below)

/-- Something runs to its end, or it goes on forever. -/
theorem runs_or_persists (M : StackMachine S F) (s : S) :
    (∃ steps s', M.Runs s steps s') ∨ M.Persists s := by
  by_cases ends : ∃ k, M.IsBack (M.stack s) (M.step^[k] s)
  · exact .inl (runs_of_isBack ends)
  · have working : ∀ k, ¬ M.IsBack (M.stack s) (M.step^[k] s) := not_exists.mp ends
    refine .inr fun k => ⟨?_, working k⟩
    induction k with
    | zero => exact ⟨[], rfl⟩
    | succ k ih =>
      rw [Function.iterate_succ_apply']
      exact IsAbove.step ⟨ih, working k⟩

end StackMachine

/-- A machine that tells listeners of something, one after the other. Those who are still to be told
wait in a frame. -/
structure Round (S F A : Type) extends StackMachine S F where
  /-- Tell some listeners, beginning with the first. -/
  deliver : S → List A → S
  /-- The frame in which listeners wait. -/
  waiting : List A → F
  /-- The machine with other frames on its stack. -/
  withStack : S → List F → S
  stack_withStack : ∀ s frames, stack (withStack s frames) = frames
  /-- When everybody has been told, there is a reply. -/
  deliver_nil : ∀ s, stack (deliver s []) = stack s ∧ isOver (deliver s [])
  /-- While somebody is told, the others wait. -/
  stack_deliver : ∀ s a rest, stack (deliver s (a :: rest)) = waiting rest :: stack s
  /-- When this has come to its end, the others are told. -/
  step_waiting : ∀ s rest base, stack s = waiting rest :: base → isOver s →
    step s = deliver (withStack s base) rest

namespace Round

variable {S F A : Type}

/-- Listeners are told in a number of steps: what each of them is told runs to its end, with
everything that it causes, before the next one is told. -/
inductive Delivers (R : Round S F A) : S → List A → Nat → S → Prop
  /-- There is nobody left. -/
  | done {s : S} : Delivers R s [] 0 (R.deliver s [])
  /-- A listener is told, and then the others are. -/
  | next {s s₁ s₂ : S} {a : A} {rest : List A} {steps more : Nat}
      (heard : R.Runs (R.deliver s (a :: rest)) steps s₁)
      (further : Delivers R (R.withStack s₁ (R.stack s)) rest more s₂) :
      Delivers R s (a :: rest) (steps + 1 + more) s₂

/-- The round does not come to an end, because what a listener is told does not. -/
inductive Stalls (R : Round S F A) (forever : S → Prop) : S → List A → Prop
  /-- This is the first listener. -/
  | here {s : S} {a : A} {rest : List A} (endless : forever (R.deliver s (a :: rest))) :
      Stalls R forever s (a :: rest)
  /-- It is a later one. -/
  | later {s s₁ : S} {a : A} {rest : List A} {steps : Nat}
      (heard : R.Runs (R.deliver s (a :: rest)) steps s₁)
      (further : Stalls R forever (R.withStack s₁ (R.stack s)) rest) :
      Stalls R forever s (a :: rest)

variable {R : Round S F A} {s s' : S} {a : A} {rest audience : List A} {steps : Nat}

/-- When a listener has come to its end, with a reply or with a panic, it is the next one's turn. -/
theorem iterate_heard (heard : R.Runs (R.deliver s (a :: rest)) steps s') :
    R.step^[steps + 1] (R.deliver s (a :: rest)) =
      R.deliver (R.withStack s' (R.stack s)) rest := by
  obtain ⟨stack, halted⟩ := heard.back
  rw [Function.iterate_succ_apply', heard.arrives]
  exact R.step_waiting _ _ _ (stack.trans (R.stack_deliver s a rest)) halted

/-- The steps of a round. -/
theorem Delivers.iterate (delivers : R.Delivers s audience steps s') :
    R.step^[steps] (R.deliver s audience) = s' := by
  induction delivers with
  | done => rfl
  | @next s s₁ s₂ a rest steps more heard further ih =>
    rw [Nat.add_comm, Function.iterate_add_apply, iterate_heard heard, ih]

/-- In the end nobody is left, and the stack is as it was. -/
theorem Delivers.ended (delivers : R.Delivers s audience steps s') :
    R.stack s' = R.stack s ∧ ∃ s₁, s' = R.deliver s₁ [] := by
  induction delivers with
  | @done s => exact ⟨(R.deliver_nil s).1, s, rfl⟩
  | next heard further ih => exact ⟨ih.1.trans (R.stack_withStack _ _), ih.2⟩

/-- A round that stalls gets to where somebody never comes to an end. -/
theorem Stalls.iterate {forever : S → Prop} (stalls : R.Stalls forever s audience) :
    ∃ k, forever (R.step^[k] (R.deliver s audience)) := by
  induction stalls with
  | here endless => exact ⟨0, endless⟩
  | @later s s₁ a rest steps heard further ih =>
    obtain ⟨k, endless⟩ := ih
    refine ⟨k + (steps + 1), ?_⟩
    rwa [Function.iterate_add_apply, iterate_heard heard]

/-- If whatever runs comes to its end or goes on forever, then a round comes to its end or stalls. -/
theorem delivers_or_stalls (R : Round S F A) {forever : S → Prop}
    (split : ∀ s, (∃ steps s', R.Runs s steps s') ∨ forever s) (s : S) (audience : List A) :
    (∃ steps s', R.Delivers s audience steps s') ∨ R.Stalls forever s audience := by
  induction audience generalizing s with
  | nil => exact .inl ⟨0, _, .done⟩
  | cons a rest ih =>
    rcases split (R.deliver s (a :: rest)) with ⟨steps, s₁, heard⟩ | endless
    · rcases ih (R.withStack s₁ (R.stack s)) with ⟨more, s₂, further⟩ | stalls
      · exact .inl ⟨_, _, .next heard further⟩
      · exact .inr (.later heard stalls)
    · exact .inr (.here endless)

end Round

end TaskWatch
