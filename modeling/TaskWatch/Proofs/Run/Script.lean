import TaskWatch.Proofs.Run.Glimpse

/-!
# Scripts

A script says what is done from outside, one thing after the other: a call is made, or time passes. A
machine goes through a script in runs. What its sessions do while time passes, and in which order, is
up to the executor.

## Main definitions

* `Machine.Lapses` — nobody makes a call for a while.
* `Directive` — something that is done from outside.
* `Machine.Conducts` — a machine goes through a script.
* `Machine.follow?` — where the executor of the library comes to with a script.

## Main results

* `Machine.Conducts.run` — going through a script is a run.
* `Machine.exists_conducts` — the executor of the library goes through a script.
-/

namespace TaskWatch

/-- Something that is done from outside. -/
inductive Directive (κ : Type) where
  /-- A call is made. -/
  | call (request : Call κ)
  /-- So many milliseconds pass. -/
  | pass (millis : Nat)

variable {σ κ : Type}

namespace Machine

/-- Nobody makes a call for a while. The executor is there, gives turns to sessions and moves its clock,
and stops between two turns. -/
structure Lapses (c : Consumer σ κ) (m : Machine σ κ) (states : List (Machine σ κ)) (m' : Machine σ κ) :
    Prop where
  run : Run c (fun _ => False) m states m'
  idle : m'.isIdle = true
  there : m'.world.hasExecutor = true

/-- A machine goes through a script. A call runs to its end, and while time passes nobody makes any;
when it has passed, there is nothing left to do at this time. -/
inductive Conducts (c : Consumer σ κ) :
    Machine σ κ → List (Directive κ) → List (Machine σ κ) → Machine σ κ → Prop
  /-- There is nothing more to do. -/
  | finished (m : Machine σ κ) : Conducts c m [] [] m
  /-- A call is made. -/
  | call {m m₁ m' : Machine σ κ} {request : Call κ} {script : List (Directive κ)}
      {first states : List (Machine σ κ)}
      (path : Path c (m.code (.call request fun _ => .done)) first m₁) (idle : m₁.isIdle = true)
      (rest : Conducts c m₁ script states m') :
      Conducts c m (.call request :: script)
        (m.code (.call request fun _ => .done) :: first ++ states) m'
  /-- Time passes. -/
  | pass {m m₁ m' : Machine σ κ} {millis : Nat} {script : List (Directive κ)}
      {first states : List (Machine σ κ)} (lapses : Lapses c m first m₁) (quiet : m₁.isQuiet = true)
      (clock : m₁.world.clock = m.world.clock + millis) (rest : Conducts c m₁ script states m') :
      Conducts c m (.pass millis :: script) (first ++ states) m'

variable {c : Consumer σ κ} {m m₁ m' : Machine σ κ} {script : List (Directive κ)}
  {first states : List (Machine σ κ)}

theorem isIdle_of_isQuiet (quiet : m.isQuiet = true) : m.isIdle = true :=
  (Bool.and_eq_true_iff.mp quiet).1

theorem Conducts.isIdle (conducts : Conducts c m script states m') (idle : m.isIdle = true) :
    m'.isIdle = true := by
  induction conducts with
  | finished => exact idle
  | call _ idle₁ _ ih => exact ih idle₁
  | pass lapses _ _ _ ih => exact ih lapses.idle

/-- Going through a script is a run. -/
theorem Conducts.run (conducts : Conducts c m script states m') (idle : m.isIdle = true) :
    Run c (fun _ => True) m states m' := by
  induction conducts with
  | finished => exact .start
  | call path idle₁ _ ih => exact (path.run.cons (.code idle trivial)).append (ih idle₁)
  | pass lapses _ _ _ ih =>
    exact (lapses.run.mono fun _ _ => trivial).append (ih lapses.idle)

theorem Conducts.append {further : List (Directive κ)} (conducts : Conducts c m script first m₁)
    (rest : Conducts c m₁ further states m') :
    Conducts c m (script ++ further) (first ++ states) m' := by
  induction conducts with
  | finished => exact rest
  | call path idle _ ih =>
    rw [List.append_assoc]
    exact .call path idle (ih rest)
  | pass lapses quiet clock _ ih =>
    rw [List.append_assoc]
    exact .pass lapses quiet clock (ih rest)

/-- While time passes, nobody makes a call. -/
theorem Conducts.lapses {millis : Nat} (conducts : Conducts c m [.pass millis] states m') :
    Lapses c m states m' := by
  cases conducts with
  | pass lapses quiet clock finished =>
    cases finished
    rwa [List.append_nil]

/-- The two parts of a script are gone through one after the other. -/
theorem Conducts.split {beginning further : List (Directive κ)}
    (conducts : Conducts c m (beginning ++ further) states m') :
    ∃ first m₁ rest, states = first ++ rest ∧ Conducts c m beginning first m₁ ∧
      Conducts c m₁ further rest m' := by
  induction beginning generalizing m states with
  | nil => exact ⟨[], m, states, rfl, .finished m, conducts⟩
  | cons directive beginning ih =>
    cases conducts with
    | call path idle conducts =>
      obtain ⟨first, m₁, rest, rfl, begins, ends⟩ := ih conducts
      exact ⟨_, m₁, rest, (List.append_assoc ..).symm, .call path idle begins, ends⟩
    | pass lapses quiet clock conducts =>
      obtain ⟨first, m₁, rest, rfl, begins, ends⟩ := ih conducts
      exact ⟨_, m₁, rest, (List.append_assoc ..).symm, .pass lapses quiet clock begins, ends⟩

/-! ### The executor of the library -/

variable (c)

/-- Where the executor of the library comes to with a script, if it gets through it: every call comes
to its end, and after so much time there is nothing left to do. -/
def follow? (m : Machine σ κ) : List (Directive κ) → Option (Machine σ κ)
  | [] => some m
  | .call request :: rest =>
    let m := m.call c (.call request fun _ => .done)
    if m.isIdle then follow? m rest else none
  | .pass millis :: rest =>
    let deadline := m.world.clock + millis
    let m := m.advance c millis
    if m.isQuiet && m.world.hasExecutor && m.world.clock == deadline then follow? m rest else none

variable {c}

theorem settle_path (steps : Nat) (m : Machine σ κ) :
    ∃ states, Path c m states (settle c steps m) := by
  induction steps generalizing m with
  | zero => exact ⟨[], .stay m⟩
  | succ steps ih =>
    rw [settle]
    split
    · exact ⟨[], .stay m⟩
    · next busy =>
      obtain ⟨states, path⟩ := ih (m.step c)
      exact ⟨_, .step (Bool.eq_false_iff.mpr busy) path⟩

/-- The executor of the library goes through a script. -/
theorem exists_conducts (idle : m.isIdle = true) (followed : m.follow? c script = some m') :
    ∃ states, Conducts c m script states m' := by
  induction script generalizing m with
  | nil =>
    obtain rfl := Option.some.inj followed
    exact ⟨[], .finished m⟩
  | cons directive rest ih =>
    cases directive with
    | call request =>
      obtain ⟨finished, followed⟩ := Option.ite_none_right_eq_some.mp followed
      obtain ⟨states, conducts⟩ := ih finished followed
      obtain ⟨first, path⟩ := settle_path (c := c) patience (m.code (.call request fun _ => .done))
      rw [Machine.call, if_pos idle] at finished conducts
      exact ⟨_, .call path finished conducts⟩
    | pass millis =>
      obtain ⟨finished, followed⟩ := Option.ite_none_right_eq_some.mp followed
      simp only [Bool.and_eq_true, beq_iff_eq] at finished
      obtain ⟨⟨quiet, there⟩, clock⟩ := finished
      obtain ⟨states, conducts⟩ := ih (isIdle_of_isQuiet quiet) followed
      obtain ⟨first, run⟩ : Leads c (fun _ => False) m (m.advance c millis) := advance_leads m millis
      exact ⟨_, .pass ⟨run, isIdle_of_isQuiet quiet, there⟩ quiet clock conducts⟩

end Machine

end TaskWatch
