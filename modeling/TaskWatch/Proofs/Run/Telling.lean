import TaskWatch.Proofs.Listener.Round
import TaskWatch.Proofs.Run.Step

/-!
# How listeners of a tracker are told

The listeners of a store, and those of the sessions of a tracker, are told of something in a round, in
the same way in which an emitter delivers an event. Those are told that are registered when the round
begins, in registration order; each of them comes to its end before the next one is told, and if one
panics, the others are told all the same. A listener need not be code: for someone who waits for a
session a note is taken, and a view that the notice is not about is passed over.

## Main definitions

* `Machine.round` — telling listeners of something, as a round.

## Main results

* `Machine.telling_delivers` — all listeners are told, unless what one of them causes goes on forever.
-/

namespace TaskWatch

namespace Machine

variable {σ κ : Type} {c : Consumer σ κ} {m m' : Machine σ κ} {base : List (Frame σ κ)}

/-- What was done last has come to its end, with a reply or with a panic. -/
def isOver (m : Machine σ κ) : Bool :=
  match m.control with
  | .returned _ | .unwinding => true
  | _ => false

/-- While something is done, no frame is taken off the stack. -/
theorem below_of_working (working : m.isOver = false) : m.below = m := by
  obtain ⟨memory, world, control, stack⟩ := m
  cases control with
  | returned r => cases working
  | unwinding => cases working
  | _ => rfl

/-- Otherwise the innermost frame is. -/
theorem step_of_isOver (halted : m.isOver = true) :
    m.step c = m ∨ ∃ frame rest, m.stack = frame :: rest ∧ m.below.stack = rest := by
  obtain ⟨memory, world, control, stack⟩ := m
  cases stack with
  | nil =>
    cases control with
    | returned r => exact .inl rfl
    | unwinding => exact .inl rfl
    | _ => cases halted
  | cons frame rest =>
    cases control with
    | returned r => exact .inr ⟨frame, rest, rfl, rfl⟩
    | unwinding => exact .inr ⟨frame, rest, rfl, rfl⟩
    | _ => cases halted

/-- A machine on which trackers work, as one with a stack of frames. -/
abbrev machine (c : Consumer σ κ) : StackMachine (Machine σ κ) (Frame σ κ) where
  step := step c
  stack := stack
  isOver m := m.isOver = true
  step_working m working := by
    obtain ⟨new, d, grows⟩ := m.step_extends_anyhow c
    rw [below_of_working (Bool.eq_false_iff.mpr working)] at grows
    exact ⟨new, grows.stack⟩
  step_over m halted := by
    obtain ⟨new, d, grows⟩ := m.step_extends_anyhow c
    refine (step_of_isOver halted).imp_right fun ⟨frame, rest, top, below⟩ => ?_
    exact ⟨frame, rest, new, top, by rw [grows.stack, below]⟩

/-- Listeners are told of something in a round. -/
abbrev round (c : Consumer σ κ) (n : Notice) : Round (Machine σ κ) (Frame σ κ) (Audience κ) where
  toStackMachine := machine c
  deliver m := m.deliver n
  waiting := .delivering n
  withStack m stack := { m with stack }
  stack_withStack _ _ := rfl
  deliver_nil _ := ⟨rfl, rfl⟩
  stack_deliver m a rest := by
    cases a with
    | callback label => rfl
    | view about label =>
      rw [deliver]
      dsimp only
      split <;> rfl
    | wait number => rfl
  step_waiting m rest base stack halted := by
    obtain ⟨memory, world, control, frames⟩ := m
    obtain rfl : frames = .delivering n rest :: base := stack
    cases control with
    | returned r => rfl
    | unwinding => rfl
    | _ => cases halted

/-- When a tracker tells its listeners of something, all those that are registered are told, one after
the other and in registration order, and then there is a reply; or what one of them causes goes on
forever. -/
theorem telling_delivers {number : Nat} {n : Notice} (telling : m.control = .telling number n) :
    (∃ steps m', (round c n).Delivers m (m.world.audience number n) steps m' ∧
      (step c)^[steps + 1] m = m' ∧ m'.stack = m.stack ∧ m'.control = .returned .unit) ∨
      (round c n).Stalls (machine c).Persists m (m.world.audience number n) := by
  have begun : m.step c = m.deliver n (m.world.audience number n) := by
    obtain ⟨memory, world, control, stack⟩ := m
    cases telling
    rfl
  refine ((round c n).delivers_or_stalls (machine c).runs_or_persists m _).imp_left ?_
  rintro ⟨steps, m', delivers⟩
  obtain ⟨stack, m₁, rfl⟩ := delivers.ended
  refine ⟨steps, _, delivers, ?_, stack, rfl⟩
  rw [Function.iterate_succ_apply, begun]
  exact delivers.iterate

end Machine

end TaskWatch
