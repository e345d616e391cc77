/-!
# Registries of listeners

Listeners are kept in the order in which they were registered. Each gets a number that no other
listener of the registry ever had, and is unregistered by that number. Numbers have no bound: it is
assumed that nobody registers as many listeners as a number of 64 bits can tell apart.

## Main definitions

* `Registry` — the registered listeners and the next number.
* `Registry.subscribe`, `Registry.unsubscribe` — the changes.
* `Registry.listeners` — the listeners in registration order.

## Main results

* `Registry.listeners_subscribe` — a new listener comes last.
* `Registry.Sound.subscribe`, `Registry.Sound.unsubscribe` — numbers stay below the next one and
  grow along the registry.
* `Registry.Sound.filter_number` — a number stands for one listener at most.
-/

namespace TaskWatch

/-- Registered listeners under their numbers. -/
structure Registry (α : Type) where
  next : Nat := 0
  /-- The listeners with their numbers, in registration order. -/
  entries : List (Nat × α) := []

namespace Registry

variable {α : Type}

/-- The registry without listeners. -/
def empty : Registry α := {}

instance : Inhabited (Registry α) := ⟨empty⟩

/-- Register a listener: its number and the new registry. -/
def subscribe (r : Registry α) (listener : α) : Nat × Registry α :=
  (r.next, ⟨r.next + 1, r.entries ++ [(r.next, listener)]⟩)

/-- Unregister the listener with a number, if it is still there. -/
def unsubscribe (r : Registry α) (number : Nat) : Registry α :=
  { r with entries := r.entries.filter fun entry => entry.1 != number }

/-- The listeners in registration order. -/
def listeners (r : Registry α) : List α := r.entries.map Prod.snd

/-- How many listeners are registered. -/
def size (r : Registry α) : Nat := r.entries.length

/-- The numbers grow along the registry and stay below the next one. -/
structure Sound (r : Registry α) : Prop where
  /-- Numbers grow along the registry. -/
  growing : r.entries.Pairwise fun a b => a.1 < b.1
  /-- Every number is below the next one. -/
  below : ∀ entry ∈ r.entries, entry.1 < r.next

theorem listeners_subscribe (r : Registry α) (listener : α) :
    (r.subscribe listener).2.listeners = r.listeners ++ [listener] := by
  simp [subscribe, listeners]

theorem Sound.empty : (Registry.empty : Registry α).Sound :=
  ⟨List.Pairwise.nil, by simp [Registry.empty]⟩

theorem Sound.subscribe {r : Registry α} (h : r.Sound) (listener : α) :
    (r.subscribe listener).2.Sound where
  growing := by
    simp only [Registry.subscribe, List.pairwise_append, List.pairwise_cons, List.not_mem_nil,
      List.mem_singleton]
    exact ⟨h.growing, by simp, fun a mem b eq => eq ▸ h.below a mem⟩
  below := by
    intro entry mem
    simp only [Registry.subscribe, List.mem_append, List.mem_singleton] at mem ⊢
    rcases mem with mem | rfl
    · exact Nat.lt_succ_of_lt (h.below entry mem)
    · exact Nat.lt_succ_self _

theorem Sound.unsubscribe {r : Registry α} (h : r.Sound) (number : Nat) :
    (r.unsubscribe number).Sound where
  growing := List.Pairwise.filter _ h.growing
  below := fun entry mem => h.below entry (List.mem_filter.mp mem).1

/-- A number stands for one listener at most. -/
theorem Sound.filter_number {r : Registry α} (h : r.Sound) {number : Nat} {listener : α}
    (registered : (number, listener) ∈ r.entries) :
    (r.entries.filter fun entry => entry.1 == number) = [(number, listener)] := by
  obtain ⟨before, after, split⟩ := List.append_of_mem registered
  have growing := h.growing
  rw [split, List.pairwise_append, List.pairwise_cons] at growing
  obtain ⟨_, ⟨later, _⟩, earlier⟩ := growing
  have none : ∀ entries : List (Nat × α), (∀ entry ∈ entries, entry.1 ≠ number) →
      (entries.filter fun entry => entry.1 == number) = [] := fun entries other =>
    List.filter_eq_nil_iff.mpr fun entry mem same => other entry mem (beq_iff_eq.mp same)
  have first := none before fun entry mem =>
    Nat.ne_of_lt (earlier entry mem (number, listener) List.mem_cons_self)
  have last := none after fun entry mem => Nat.ne_of_gt (later entry mem)
  rw [split, List.filter_append, first, List.filter_cons_of_pos (by simp), last, List.nil_append]

end Registry

end TaskWatch
