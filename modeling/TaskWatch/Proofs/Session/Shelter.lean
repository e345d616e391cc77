import Mathlib.Data.List.Chain
import TaskWatch.Proofs.Run.Turnover

/-!
# Sheltered frames

A session that has written a new status tells the listeners of the store before it goes on, and a
new session is handed to the executor after listeners have been told of it. What stands on the stack
above such a frame is the delivery of the notice, which swallows panics. So no panic reaches the
session there, and it goes on in any case.

## Main definitions

* `Machine.Shelters` — above frames of a certain kind stand deliveries.
* `Machine.Sheltered` — above a session that has written a status stands a delivery.

## Main results

* `Machine.Shelters.step` — this holds after every step if the new frames suit.
* `Machine.Reachable.sheltered`, `Machine.Reachable.shelters_spawning` — this holds in every
  reachable state, of sessions that have written a status and of new sessions.
-/

namespace TaskWatch

variable {σ κ : Type}

/-- Whether a frame is a delivery to further listeners. -/
def Frame.isDelivering : Frame σ κ → Bool
  | delivering _ _ => true
  | _ => false

/-- Whether listeners are about to be told of something, or something has ended with a reply. -/
def Control.isCalm : Control σ κ → Bool
  | telling _ _ | returned _ => true
  | _ => false

namespace Machine

variable {m m' : Machine σ κ} {c : Consumer σ κ} {kind : Frame σ κ → Bool} {new : List (Frame σ κ)}

/-! ### Frames of a kind -/

/-- Only a delivery stands on a frame of this kind; on top of the stack nothing unwinds it and no
code runs in it. -/
structure Shelters (kind : Frame σ κ → Bool) (m : Machine σ κ) : Prop where
  chain : m.stack.IsChain fun f g => kind g = true → f.isDelivering = true
  top : ∀ f ∈ m.stack.head?, kind f = true → m.control.isCalm = true

/-- Of new frames only the top one may be of this kind, and then listeners are about to be told. -/
structure Suits (kind : Frame σ κ → Bool) (new : List (Frame σ κ)) (control : Control σ κ) :
    Prop where
  top : ∀ f ∈ new.head?, kind f = true → control.isTelling = true
  others : ∀ f ∈ new.tail, kind f = false

theorem suits_of_plain {control : Control σ κ} (plain : ∀ f ∈ new, kind f = false) :
    Suits kind new control where
  top f mem yes := by simp [plain f (List.mem_of_mem_head? mem)] at yes
  others f mem := plain f (List.mem_of_mem_tail mem)

/-- New frames that suit may be put on a frame of another kind. -/
private theorem Suits.shelters (suits : Suits kind new m'.control)
    (stack : m'.stack = new ++ m.stack)
    (chain : m.stack.IsChain fun f g => kind g = true → f.isDelivering = true)
    (plain : ∀ f ∈ m.stack.head?, kind f = false) : m'.Shelters kind := by
  cases new with
  | nil =>
    rw [List.nil_append] at stack
    refine ⟨stack ▸ chain, fun f mem yes => ?_⟩
    simp [plain f (stack ▸ mem)] at yes
  | cons top rest =>
    have others : ∀ f ∈ rest, kind f = false := suits.others
    have below : (rest ++ m.stack).IsChain fun f g => kind g = true → f.isDelivering = true := by
      refine List.isChain_append.mpr ⟨?_, chain, fun f _ g mem yes => ?_⟩
      · refine (List.pairwise_of_forall_mem_list fun f _ g mem yes => ?_).isChain
        simp [others g mem] at yes
      · simp [plain g mem] at yes
    have next : ∀ f ∈ (rest ++ m.stack).head?, kind f = false := by
      intro f mem
      cases rest with
      | nil => exact plain f mem
      | cons g others' =>
        obtain rfl : g = f := by simpa using mem
        exact others g List.mem_cons_self
    refine ⟨?_, fun f mem yes => ?_⟩
    · rw [stack, List.cons_append]
      exact List.isChain_cons.mpr ⟨fun f mem yes => by simp [next f mem] at yes, below⟩
    · obtain rfl : top = f := by simpa [stack] using mem
      have telling := suits.top top rfl yes
      cases control : m'.control <;> simp_all [Control.isTelling, Control.isCalm]

private theorem deliver_shelters (deliveries : ∀ n rest, kind (.delivering n rest) = false)
    (n : Notice) (audience : List (Audience κ))
    (chain : m.stack.IsChain fun f g => kind g = true → f.isDelivering = true) :
    (m.deliver n audience).Shelters kind := by
  obtain ⟨stack, control⟩ | ⟨rest, stack⟩ := m.deliver_cases n audience
  · exact ⟨stack ▸ chain, fun _ _ _ => by rw [control, Control.isCalm]⟩
  · refine ⟨?_, fun f mem yes => ?_⟩
    · rw [stack]
      exact List.isChain_cons.mpr ⟨fun _ _ _ => rfl, chain⟩
    · rw [stack] at mem
      obtain rfl : .delivering n rest = f := by simpa using mem
      simp [deliveries] at yes

/-- Frames of a kind stay sheltered if the new frames of every step suit, deliveries apart. -/
theorem Shelters.step (shelters : m.Shelters kind) (c : Consumer σ κ)
    (deliveries : ∀ n rest, kind (.delivering n rest) = false)
    (suits : (∃ number n, m.control = .telling number n) ∨ (∃ n rest, .delivering n rest ∈ m.taken) ∨
      ∃ new, (m.step c).stack = new ++ m.below.stack ∧ Suits kind new (m.step c).control) :
    (m.step c).Shelters kind := by
  obtain ⟨chain, top⟩ := shelters
  have below : m.below.stack.IsChain fun f g => kind g = true → f.isDelivering = true := by
    rw [m.stack_eq] at chain
    exact (List.isChain_append.mp chain).2.1
  by_cases delivery : ∃ n rest, .delivering n rest ∈ m.taken
  · obtain ⟨n, rest, mem⟩ := delivery
    rw [step_delivering mem c]
    exact deliver_shelters deliveries n rest below
  by_cases telling : ∃ number n, m.control = .telling number n
  · obtain ⟨number, n, control⟩ := telling
    rw [step_of_telling control c]
    exact deliver_shelters deliveries n _ chain
  -- In all other steps no frame of this kind is on top where the new frames come to lie.
  have plain : ∀ f ∈ m.below.stack.head?, kind f = false := by
    intro f mem
    refine Bool.eq_false_iff.mpr fun yes => ?_
    cases stack : m.stack with
    | nil =>
      have empty : m.below.stack = [] := (List.append_eq_nil_iff.mp (m.stack_eq ▸ stack)).2
      simp [empty] at mem
    | cons g rest =>
      rw [stack] at chain
      rcases taken_cases stack with ⟨taken, left⟩ | ⟨taken, left⟩
      · have delivers := (List.isChain_cons.mp chain).1 f (left ▸ mem) yes
        cases g with
        | delivering n others => exact delivery ⟨n, others, taken ▸ List.mem_singleton.mpr rfl⟩
        | _ => simp [Frame.isDelivering] at delivers
      · have calm := top f (by rw [stack, ← left]; exact mem) yes
        cases control : m.control with
        | telling number n => exact telling ⟨number, n, control⟩
        | returned r => simp [Machine.taken, control, stack] at taken
        | _ => simp [control, Control.isCalm] at calm
  rcases suits with other | other | ⟨new, stack, suits⟩
  · exact absurd other telling
  · exact absurd other delivery
  · exact suits.shelters stack below plain

theorem shelters_of_stack_nil (empty : m.stack = []) : m.Shelters kind where
  chain := empty ▸ .nil
  top := by simp [empty]

/-- When the machine has nothing to do, it is enough that the new frames suit. -/
theorem Suits.shelters_of_isIdle (suits : Suits kind new m'.control) {m₀ : Machine σ κ}
    (stack : m'.stack = new ++ m₀.stack) (empty : m₀.stack = []) : m'.Shelters kind :=
  suits.shelters stack (empty ▸ .nil) (by simp [empty])

/-- Frames of a kind are sheltered after every move if they are after a step and the new frames suit.
-/
private theorem Move.shelters {given : Code σ κ → Prop} (move : Move c given m m')
    (step : (m.step c).Shelters kind)
    (wake : ∀ (m₀ : Machine σ κ) entry, ∃ new, (m₀.wake entry).stack = new ++ m₀.stack ∧
      Suits kind new (m₀.wake entry).control)
    (abandon : ∀ (m₀ : Machine σ κ) entry, ∃ new, (m₀.abandon entry).stack = new ++ m₀.stack ∧
      Suits kind new (m₀.abandon entry).control) : m'.Shelters kind := by
  cases move.happens with
  | step busy => exact step
  | wake idle listed ready =>
    obtain ⟨new, stack, suits⟩ := wake _ _
    exact suits.shelters_of_isIdle stack (stack_of_isIdle (m := m) idle)
  | abandon idle closed listed =>
    obtain ⟨new, stack, suits⟩ := abandon _ _
    exact suits.shelters_of_isIdle stack (stack_of_isIdle (m := m) idle)
  | idles idles => exact shelters_of_stack_nil idles.stack

/-! ### Sessions that have written a status -/

/-- Only a delivery stands on a session that has written a status; on top of the stack nothing
unwinds it and no code runs in it. -/
def Sheltered (m : Machine σ κ) : Prop := m.Shelters Frame.isRecorded

private theorem Extends.suits {tasks : Nat → TaskId → Prop} {given : List SessionName}
    (h : Extends tasks given m m') :
    ∃ new, m'.stack = new ++ m.stack ∧ Suits Frame.isRecorded new m'.control := by
  obtain ⟨new, d, grows⟩ := h
  refine ⟨new, grows.stack, ?_⟩
  by_cases written : ∃ f ∈ new, f.isRecorded = true
  · obtain ⟨f, mem, written⟩ := written
    obtain ⟨rfl, telling, _⟩ := grows.recorded f mem written
    exact ⟨fun _ _ _ => telling, by simp⟩
  · exact suits_of_plain fun f mem => Bool.eq_false_iff.mpr fun yes => written ⟨f, mem, yes⟩

theorem Move.sheltered {given : Code σ κ → Prop} (sheltered : m.Sheltered)
    (move : Move c given m m') : m'.Sheltered := by
  refine move.shelters ?_ (fun m₀ entry => (m₀.wake_extends_anyhow entry).suits)
    fun m₀ entry => (m₀.abandon_extends_anyhow entry).suits
  exact Shelters.step sheltered c (fun _ _ => rfl) (.inr (.inr (m.step_extends_anyhow c).suits))

theorem Reachable.sheltered (reach : Reachable c m) : m.Sheltered :=
  reach.induction (fun _ _ _ _ => shelters_of_stack_nil rfl) fun _ _ sheltered move =>
    move.sheltered sheltered

/-! ### New sessions -/

private theorem Turnover.suits {added : Nat → TaskId → Prop} (turnover : Turnover added m m') :
    ∃ new, m'.stack = new ++ m.stack ∧ Suits Frame.isSpawning new m'.control := by
  have none : ∀ {new : List (Frame σ κ)}, (∀ f ∈ new, f.isNews = false) →
      ∀ f ∈ new, f.isSpawning = false := fun plain f mem =>
    (Bool.or_eq_false_iff.mp (plain f mem)).2
  cases turnover with
  | still new stack plain control does same records =>
    exact ⟨new, stack, suits_of_plain (none plain)⟩
  | @began new s stack plain control does serial =>
    exact ⟨.spawning s :: new, stack, fun _ _ _ => by rw [control]; rfl, none plain⟩
  | ended new stack plain control does lived =>
    exact ⟨_ :: new, stack, suits_of_plain (List.forall_mem_cons.mpr ⟨rfl, none plain⟩)⟩
  | ending new stack plain control does lived =>
    exact ⟨_ :: new, stack, suits_of_plain (List.forall_mem_cons.mpr ⟨rfl, none plain⟩)⟩

private theorem step_suits (m : Machine σ κ) (c : Consumer σ κ) :
    (∃ number n, m.control = .telling number n) ∨ (∃ n rest, .delivering n rest ∈ m.taken) ∨
      ∃ new, (m.step c).stack = new ++ m.below.stack ∧
        Suits Frame.isSpawning new (m.step c).control := by
  rcases m.step_errand_or_turnover c with ⟨number, event, control⟩ | ⟨f, mem, errand⟩ | turnover
  · exact .inl ⟨number, _, control⟩
  · cases f with
    | delivering n rest => exact .inr (.inl ⟨n, rest, mem⟩)
    | announcing number id reason =>
      refine .inr (.inr ?_)
      rcases step_of_mem_taken mem c with ⟨r, goes⟩ | goes
      · rw [goes]
        exact ⟨[.answering (.flag true)], rfl, suits_of_plain (by simp [Frame.isSpawning])⟩
      · rw [goes]
        exact ⟨[], rfl, suits_of_plain (by simp)⟩
    | _ => simp [Frame.isErrand] at errand
  · exact .inr (.inr turnover.suits)

/-- Only a delivery stands on a new session that is about to be handed to the executor. -/
theorem Reachable.shelters_spawning (reach : Reachable c m) : m.Shelters Frame.isSpawning := by
  refine reach.induction (fun _ _ _ _ => shelters_of_stack_nil rfl) fun m m' shelters move => ?_
  have wakes : ∀ m₀ entry, Turnover (fun _ _ => False) m₀ (m₀.wake entry : Machine σ κ) :=
    wake_turnover
  have abandons : ∀ m₀ entry, Turnover (fun _ _ => False) m₀ (m₀.abandon entry : Machine σ κ) :=
    abandon_turnover
  exact move.shelters (shelters.step c (fun _ _ => rfl) (m.step_suits c))
    (fun m₀ entry => (wakes m₀ entry).suits) fun m₀ entry => (abandons m₀ entry).suits

end Machine

end TaskWatch
