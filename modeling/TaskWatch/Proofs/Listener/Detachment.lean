import Mathlib.Logic.Function.Iterate
import TaskWatch.Listener.Emitter

/-!
# Detaching handles

A handle that is detached no longer does what it stands for. The handle of a single listener is then
as good as kept: the listener stays registered. A merged handle owns the handles it was merged from,
however deep they lie, and does not outlive being detached; they are let go with it, and each of
them unregisters its listener.

So a detached handle is as good as kept exactly if it owns no listener that is still registered.

## Main definitions

* `Handle.IsSubscription` — handles that come from registering listeners and from merging.
* `Handle.numbers` — the listeners a handle stands for.
* `Handle.owned` — the listeners whose handles it owns.
* `Emitter.kept`, `Emitter.without` — nothing is done about a handle; listeners are unregistered.

## Main results

* `Handle.IsSubscription.released_eq` — such a handle unregisters the listeners it stands for.
* `Emitter.iterate_release` — letting go of such handles unregisters their listeners.
* `Emitter.detach_unregisters` — what detaching does, and when it does nothing.
-/

namespace TaskWatch

variable {σ κ : Type}

namespace Handle

/-- Handles that come from registering listeners, and handles merged from such. There is nothing to
stand for when a listener is registered without a registry. -/
inductive IsSubscription : Handle κ → Prop
  | inert : IsSubscription inert
  | listener (number : Nat) : IsSubscription (listener number)
  | merged {parts : List (Handle κ)} (each : ∀ part ∈ parts, IsSubscription part) :
      IsSubscription (merged parts)

mutual

/-- The numbers of the listeners a handle stands for. -/
def numbers : Handle κ → List Nat
  | inert => []
  | listener number => [number]
  | action _ => []
  | merged parts => numbersAll parts

/-- The numbers of the listeners that handles stand for. -/
def numbersAll : List (Handle κ) → List Nat
  | [] => []
  | part :: rest => numbers part ++ numbersAll rest

end

/-- The numbers of the listeners whose handles a handle owns. Only a merged handle owns others. -/
def owned : Handle κ → List Nat
  | merged parts => numbersAll parts
  | _ => []

/-- Letting go of handles unregisters the listeners of all of them if it does for each of them. -/
private theorem releasedAll_eq {parts : List (Handle κ)}
    (each : ∀ part ∈ parts, part.released = part.numbers.map .listener) :
    releasedAll parts = (numbersAll parts).map .listener := by
  induction parts with
  | nil => rfl
  | cons part rest ih =>
    have first : part.released = part.numbers.map .listener := each part List.mem_cons_self
    have others := ih fun part mem => each part (List.mem_cons_of_mem _ mem)
    rw [releasedAll, numbersAll, first, others, List.map_append]

/-- Releasing such a handle unregisters the listeners it stands for, and does nothing else. -/
theorem IsSubscription.released_eq {h : Handle κ} (made : h.IsSubscription) :
    h.released = h.numbers.map .listener := by
  induction made with
  | inert => rfl
  | listener number => rfl
  | merged _ ih => exact releasedAll_eq ih

/-- Detaching such a handle unregisters the listeners whose handles it owns. -/
theorem IsSubscription.detached_eq {h : Handle κ} (made : h.IsSubscription) :
    h.detached = h.owned.map .listener := by
  cases made with
  | inert => rfl
  | listener number => rfl
  | merged each => exact releasedAll_eq fun part mem => (each part mem).released_eq

end Handle

namespace Registry

/-- Unregister the listeners with some numbers, as far as they are still there. -/
def without (r : Registry κ) (numbers : List Nat) : Registry κ :=
  { r with entries := r.entries.filter fun entry => entry.1 ∉ numbers }

theorem without_nil (r : Registry κ) : r.without [] = r := by
  have all : (r.entries.filter fun _ => true) = r.entries := List.filter_eq_self.mpr fun _ _ => rfl
  simp only [without, List.not_mem_nil, not_false_eq_true, decide_true, all]

/-- One after the other. -/
theorem without_cons (r : Registry κ) (number : Nat) (rest : List Nat) :
    r.without (number :: rest) = (r.unsubscribe number).without rest := by
  have split : ∀ entry : Nat × κ, decide (entry.1 ∉ number :: rest) =
      (decide (entry.1 ∉ rest) && (entry.1 != number)) := fun entry => by
    rw [Bool.eq_iff_iff]
    simp [and_comm]
  simp only [without, unsubscribe, split, List.filter_filter]

/-- Nothing changes exactly if none of the numbers is that of a registered listener. -/
theorem without_eq_self_iff {r : Registry κ} {numbers : List Nat} :
    r.without numbers = r ↔ ∀ entry ∈ r.entries, entry.1 ∉ numbers := by
  have entries : r.without numbers = r ↔
      (r.entries.filter fun entry => entry.1 ∉ numbers) = r.entries :=
    ⟨fun same => congrArg Registry.entries same, fun same => by rw [without, same]⟩
  rw [entries, List.filter_eq_self]
  simp only [decide_eq_true_eq]

/-- If one of them is, fewer listeners remain. -/
theorem length_listeners_without {r : Registry κ} {numbers : List Nat} {entry : Nat × κ}
    (registered : entry ∈ r.entries) (among : entry.1 ∈ numbers) :
    (r.without numbers).listeners.length < r.listeners.length := by
  simp only [listeners, List.length_map, without]
  exact List.length_filter_lt_length_iff_exists.mpr ⟨entry, registered, by simpa using among⟩

end Registry

namespace Emitter

variable {c : Consumer σ κ}

/-- An emitter with nothing done about a handle: there is a reply, and the handle is kept. -/
def kept (e : Emitter σ κ) : Emitter σ κ := { e with control := .returned .unit }

/-- The emitter once some listeners have been unregistered. -/
def without (e : Emitter σ κ) (numbers : List Nat) : Emitter σ κ :=
  { e.kept with registry := e.registry.map (·.without numbers) }

/-- Letting go of the handles of listeners takes one step for each of them. Then they are
unregistered, and everything else is as it was. -/
theorem iterate_release (c : Consumer σ κ) (e : Emitter σ κ) (numbers : List Nat) :
    (step c)^[numbers.length] (release c e false (numbers.map .listener)) =
      e.without numbers := by
  induction numbers generalizing e with
  | nil =>
    obtain ⟨memory, registry, control, stack⟩ := e
    have same : registry.map (·.without []) = registry := by
      simp only [Registry.without_nil, Option.map_id']
    simp only [without, kept, same]
    rfl
  | cons number rest ih =>
    obtain ⟨memory, registry, control, stack⟩ := e
    let first : Emitter σ κ :=
      ⟨memory, registry.map (·.unsubscribe number), .returned .unit, stack⟩
    calc (step c)^[rest.length + 1] (release c ⟨memory, registry, control, stack⟩ false
            ((number :: rest).map .listener))
        = (step c)^[rest.length] (release c first false (rest.map .listener)) := by
          rw [Function.iterate_succ_apply]
          rfl
      _ = first.without rest := ih first
      _ = _ := by
          simp only [first, without, kept, Option.map_map, Function.comp_def,
            Registry.without_cons]

/-- When a handle is detached that comes from registering listeners and from merging, then after a
step for each listener whose handle it owns exactly these listeners have been unregistered; the
others stay in their order. From then on all goes on as if the handle had been kept, in exactly
those cases in which it owns no listener that was still registered. Otherwise the next event already
reaches fewer listeners. -/
theorem detach_unregisters (c : Consumer σ κ) (e : Emitter σ κ) {h : Handle κ}
    (made : h.IsSubscription) :
    let detached := (step c)^[h.owned.length] (perform c e (.detach h))
    detached = e.without h.owned ∧
      ((∀ steps, (step c)^[steps] detached = (step c)^[steps] e.kept) ↔
        ∀ r ∈ e.registry, ∀ entry ∈ r.entries, entry.1 ∉ h.owned) ∧
      ∀ r ∈ e.registry, ∀ entry ∈ r.entries, entry.1 ∈ h.owned →
        ∃ r' ∈ detached.registry, r'.listeners.length < r.listeners.length := by
  intro detached
  have done : detached = e.without h.owned := by
    rw [← iterate_release c, ← made.detached_eq]
    rfl
  refine ⟨done, ⟨fun same r there entry registered among => ?_, fun none steps => ?_⟩, ?_⟩
  · have same : detached = e.kept := same 0
    have registry : e.registry.map (·.without h.owned) = e.registry := by
      calc e.registry.map (·.without h.owned) = detached.registry := by rw [done]; rfl
        _ = e.registry := by rw [same]; rfl
    rw [Option.mem_def.mp there, Option.map_some, Option.some_inj] at registry
    exact Registry.without_eq_self_iff.mp registry entry registered among
  · have registry : e.registry.map (·.without h.owned) = e.registry := by
      cases there : e.registry with
      | none => rfl
      | some r => exact congrArg some (Registry.without_eq_self_iff.mpr (none r there))
    rw [done, without, registry]
    rfl
  · intro r there entry registered among
    refine ⟨r.without h.owned, ?_, Registry.length_listeners_without registered among⟩
    rw [done]
    exact Option.map_eq_some_iff.mpr ⟨r, there, rfl⟩

/-- Listeners that write down who hears of an event. -/
def recorder : Consumer (List Nat) Nat := ⟨fun label _ => .note (· ++ [label]) .done⟩

/-- Three listeners. -/
def trio : Emitter (List Nat) Nat where
  memory := []
  registry := some { next := 3, entries := [(0, 10), (1, 11), (2, 12)] }
  control := .code .done
  stack := []

/-- The handle of the first listener, merged with a merged handle of the last one. -/
def nested : Handle Nat := .merged [.listener 0, .merged [.inert, .listener 2]]

private theorem nested_made : nested.IsSubscription := by
  have inner : (Handle.merged [.inert, .listener 2] : Handle Nat).IsSubscription :=
    .merged <| List.forall_mem_cons.mpr ⟨.inert, List.forall_mem_singleton.mpr (.listener 2)⟩
  exact .merged <| List.forall_mem_cons.mpr ⟨.listener 0, List.forall_mem_singleton.mpr inner⟩

/-- Only the listener in the middle remains. -/
theorem detach_unregisters_nested :
    nested.IsSubscription ∧
      (step recorder)^[2] (perform recorder trio (.detach nested)) =
        { trio.kept with registry := some { next := 3, entries := [(1, 11)] } } ∧
      ¬ ∀ steps, (step recorder)^[steps]
          ((step recorder)^[2] (perform recorder trio (.detach nested))) =
        (step recorder)^[steps] trio.kept := by
  obtain ⟨done, same, _⟩ := detach_unregisters recorder trio nested_made
  refine ⟨nested_made, done, fun all => ?_⟩
  exact same.mp all _ rfl (0, 10) (by decide) (by decide)

/-- Two listeners are registered and their handles are merged; then something is done about the
merged handle, and an event is emitted. -/
def merging (about : Handle Nat → Code (List Nat) Nat → Code (List Nat) Nat) :
    Code (List Nat) Nat :=
  .require (.subscribe 10) fun first => .require (.subscribe 11) fun second =>
    match first, second with
    | .handle first, .handle second =>
      about (.merged [first, second]) <| .call (.emit "event") fun _ => .done
    | _, _ => .done

/-- If the merged handle is detached, neither of the two listeners hears of the event; if it is
kept, both do. -/
theorem unheard_after_detach :
    (settle recorder 30 { idle [] with
      control := .code (merging fun merged next => .call (.detach merged) fun _ => next) }).memory =
        [] ∧
      (settle recorder 30 { idle [] with
        control := .code (merging fun _ next => next) }).memory = [10, 11] := by
  decide

end Emitter

end TaskWatch
