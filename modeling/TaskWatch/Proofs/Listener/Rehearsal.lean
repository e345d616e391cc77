import TaskWatch.Listener.Rehearsal
import TaskWatch.Proofs.Listener.Ownership

/-!
# Rehearsals move their handles

A rehearsal keeps its handles under names. Whatever its steps are, and whatever steps its listeners
take, a handle is put under a name, taken from there, merged with others or let go, and is never in
two places.

## Main definitions

* `Rehearsal.Notebook.stake` — how many effects of a kind the kept handles have.

## Main results

* `Rehearsal.moves` — every rehearsal moves the handles of its listeners.
-/

namespace TaskWatch.Rehearsal

open Emitter (Tends Moves)

variable {mine : Release Label → Bool} {n : Notebook} {name : String} {handle : Handle Label}

/-! ### Handles under names -/

/-- How many effects of a kind the handles have that are kept under names. -/
def Notebook.stake (mine : Release Label → Bool) (n : Notebook) : Nat :=
  (n.subscriptions.flatMap fun entry => entry.2.released).countP mine

theorem Notebook.stake_keep (mine : Release Label → Bool) (n : Notebook) (name : String)
    (handle : Handle Label) :
    (n.keep name handle).stake mine = handle.released.countP mine + (n.without name).stake mine :=
  List.countP_append

private theorem countP_filter_le (mine : Release Label → Bool) (keep : String × Handle Label → Bool)
    (subscriptions : List (String × Handle Label)) :
    ((subscriptions.filter keep).flatMap fun entry => entry.2.released).countP mine ≤
      (subscriptions.flatMap fun entry => entry.2.released).countP mine := by
  induction subscriptions with
  | nil => exact Nat.le_refl _
  | cons entry rest ih =>
    rw [List.filter_cons]
    split <;> simp only [List.flatMap_cons, List.countP_append] <;> omega

theorem Notebook.stake_without_le (mine : Release Label → Bool) (n : Notebook) (name : String) :
    (n.without name).stake mine ≤ n.stake mine :=
  countP_filter_le mine _ n.subscriptions

/-- A handle that is taken away is no longer kept. -/
theorem Notebook.stake_without_add (mine : Release Label → Bool)
    (found : n.subscription? name = some handle) :
    (n.without name).stake mine + handle.released.countP mine ≤ n.stake mine := by
  obtain ⟨subscriptions, counters, records, result⟩ := n
  obtain ⟨entry, first, rfl⟩ := Option.map_eq_some_iff.mp found
  clear found
  simp only [stake, without] at first ⊢
  induction subscriptions with
  | nil => simp at first
  | cons other rest ih =>
    rw [List.find?_cons] at first
    rw [List.filter_cons, List.flatMap_cons, List.countP_append]
    by_cases named : other.1 = name
    · simp only [named, decide_true, Option.some.injEq] at first
      subst first
      have others := countP_filter_le mine (fun entry => decide (entry.1 ≠ name)) rest
      simp only [named, ne_eq, not_true_eq_false, decide_false, Bool.false_eq_true, if_false]
        at others ⊢
      omega
    · simp only [named, decide_false] at first
      have others := ih first
      simp only [named, ne_eq, not_false_eq_true, decide_true, if_true, List.flatMap_cons,
        List.countP_append] at others ⊢
      omega

/-- What is taken away to be merged is no longer kept. -/
theorem Notebook.stake_take (mine : Release Label → Bool) (n : Notebook) (names : List String) :
    (Handle.merged (n.take names).1).released.countP mine + (n.take names).2.stake mine ≤
      n.stake mine := by
  induction names generalizing n with
  | nil => exact Nat.le_of_eq (Nat.zero_add _)
  | cons name rest ih =>
    rw [take]
    cases found : n.subscription? name with
    | none => exact ih n
    | some handle =>
      have others := ih (n.without name)
      have taken := stake_without_add mine found
      simp only [Handle.released, Handle.releasedAll, List.countP_append] at others ⊢
      omega

/-! ### Steps move handles -/

/-- Code of a rehearsal, with an empty hand, moves handles whatever the memory is. -/
private def Careful (mine : Release Label → Bool) (p : Code) : Prop :=
  ∀ n, Tends mine (Notebook.stake mine) p n 0

private theorem Careful.tends {p : Code} (careful : Careful mine p) (n : Notebook) (hand : Nat) :
    Tends mine (Notebook.stake mine) p n hand :=
  (careful n).mono (Nat.zero_le hand)

/-- A handle that is stored is kept, and the one before is let go. -/
private theorem tends_store {next : Code} {hand : Nat} (careful : Careful mine next)
    (enough : handle.released.countP mine ≤ hand) :
    Tends mine (Notebook.stake mine) (store name handle next) n hand := by
  intro registry
  have kept := n.stake_keep mine name handle
  cases found : n.subscription? name with
  | none =>
    have rest := n.stake_without_le mine name
    simp only [found]
    refine ⟨?_, careful.tends _ _⟩
    dsimp only
    omega
  | some old =>
    have rest := Notebook.stake_without_add mine found
    simp only [found]
    refine ⟨?_, ?_, fun reply n => ?_⟩
    · dsimp only
      omega
    · simp only [Emitter.Call.stake]
      omega
    · cases reply with
      | none => trivial
      | some reply => exact careful.tends _ _

private theorem careful_withSubscription {request : Handle Label → Emitter.Call Label}
    {next : Result → Code} (takes : ∀ h, (request h).stake mine = h.released.countP mine)
    (careful : ∀ result, Careful mine (next result)) :
    Careful mine (withSubscription name request next) := by
  intro n registry
  cases found : n.subscription? name with
  | none =>
    simp only [found]
    exact careful _ n
  | some handle =>
    have taken := Notebook.stake_without_add mine found
    simp only [found]
    refine ⟨?_, ?_, fun reply n => ?_⟩
    · dsimp only
      omega
    · rw [takes]
      dsimp only
      omega
    · cases reply <;> exact (careful _).tends _ _

private theorem careful_withRegistry {use : Registry Label → Code} {next : Result → Code}
    (careful : ∀ result, Careful mine (next result)) (used : ∀ r, Careful mine (use r)) :
    Careful mine (withRegistry next use) := by
  intro n registry
  cases registry with
  | none => exact careful _ n
  | some r => exact used r n

/-- Every step moves the handles of listeners. -/
private theorem careful_code (step : Step) {next : Result → Code}
    (made : ∀ name, mine (.action (.action name)) = false)
    (careful : ∀ result, Careful mine (next result)) : Careful mine (step.code next) := by
  cases step with
  | subscribe name act panics times =>
    refine careful_withRegistry careful fun r n registry => ?_
    refine ⟨Nat.le_add_right _ _, Nat.zero_le _, fun reply n => ?_⟩
    match reply with
    | none => trivial
    | some .unit => exact (careful _).tends _ _
    | some (.handle handle) => exact tends_store (careful _) (Nat.le_add_left _ _)
  | emit event =>
    refine careful_withRegistry careful fun r n => ⟨Nat.zero_le _, fun reply n => ?_⟩
    cases reply <;> exact (careful _).tends _ _
  | size => exact careful_withRegistry careful fun r => careful _
  | isEmpty => exact careful_withRegistry careful fun r => careful _
  | unsubscribe name => exact careful_withSubscription (fun _ => rfl) careful
  | drop name => exact careful_withSubscription (fun _ => rfl) careful
  | detach name => exact careful_withSubscription (fun _ => rfl) careful
  | inert name => exact fun n => tends_store (careful _) (Nat.le_refl 0)
  | merge name parts =>
    intro n registry
    have taken := n.stake_take mine parts
    refine ⟨?_, tends_store (careful _) ?_⟩ <;> dsimp only <;> omega
  | custom name =>
    refine fun n => tends_store (careful _) ?_
    simp [Handle.released, made]
  | describeSet => exact careful_withRegistry careful fun r => careful _
  | describe name => exact fun n registry => careful _ n
  | close =>
    refine careful_withRegistry careful fun r n => ⟨Nat.zero_le _, fun reply n => ?_⟩
    cases reply with
    | none => trivial
    | some reply => exact (careful _).tends _ _

/-- So do steps one after the other. -/
private theorem careful_actOn (steps : List Step) {last : Code}
    (made : ∀ name, mine (.action (.action name)) = false) (careful : Careful mine last) :
    Careful mine (actOn steps last) := by
  induction steps with
  | nil => exact careful
  | cons step rest ih =>
    exact careful_code step made fun result n => ⟨Nat.le_add_right _ _, ih.tends _ _⟩

private theorem careful_react (made : ∀ name, mine (.action (.action name)) = false) (label : Label)
    (occasion : Emitter.Occasion) : Careful mine (react label occasion) := by
  cases label with
  | listener name act panics times counter =>
    cases occasion with
    | delivered event =>
      intro n
      refine ⟨Nat.le_add_right _ _, fun registry => ?_⟩
      dsimp only
      split
      · have last : Careful mine (if panics then .panic else .done) := by
          cases panics <;> exact fun _ => trivial
        exact ⟨Nat.le_add_right _ _, (careful_actOn act made last).tends _ _⟩
      · trivial
    | released => exact fun _ => trivial
  | action name =>
    cases occasion with
    | delivered event => exact fun _ => trivial
    | released => exact fun _ => ⟨Nat.le_add_right _ _, trivial⟩

/-- Whatever the steps of a rehearsal are, it moves the handles of its listeners. -/
theorem moves (steps : List Step) (made : ∀ name, mine (.action (.action name)) = false) :
    Moves consumer mine 0 (actOn steps .done) default := by
  have last : Careful mine .done := fun _ => trivial
  refine ⟨Notebook.stake mine, 0, Nat.le_refl 0, careful_actOn steps made last default, ?_⟩
  exact fun label occasion n => careful_react made label occasion n

end TaskWatch.Rehearsal
