import TaskWatch.Proofs.Run.Executor

/-!
# What a busy machine goes through

As long as a machine is busy it moves by itself, so from a busy state there is only one way to the
next state in which there is nothing to do. A run that gets that far goes the same way.

## Main definitions

* `Machine.Path` — steps of a busy machine one after the other.

## Main results

* `Machine.Path.settle_eq` — with enough steps the machine gets to the end of its path.
* `Machine.Run.through` — a run to a state without anything to do goes along every path.
* `Machine.Path.unique` — there is one path to such a state.
-/

namespace TaskWatch.Machine

variable {σ κ : Type}

/-- Steps that a busy machine takes one after the other, and the states that they lead to. -/
inductive Path (c : Consumer σ κ) : Machine σ κ → List (Machine σ κ) → Machine σ κ → Prop
  /-- No step is taken. -/
  | stay (m : Machine σ κ) : Path c m [] m
  /-- A step is taken, and others after it. -/
  | step {m m' : Machine σ κ} {states : List (Machine σ κ)} (busy : m.isIdle = false)
      (rest : Path c (m.step c) states m') : Path c m (m.step c :: states) m'

variable {c : Consumer σ κ} {given : Code σ κ → Prop} {m m₁ m' : Machine σ κ}
  {first states : List (Machine σ κ)}

theorem Path.append (path : Path c m first m₁) (further : Path c m₁ states m') :
    Path c m (first ++ states) m' := by
  induction path with
  | stay m => exact further
  | step busy rest ih => exact .step busy (ih further)

/-- The steps that are taken are a path as long as there is something to do. -/
theorem path_steps {steps : Nat} (busy : ∀ k < steps, (stepTimes c k m).isIdle = false) :
    Path c m (trail c steps m) (stepTimes c steps m) := by
  induction steps with
  | zero => exact .stay m
  | succ steps ih =>
    rw [trail, List.range_succ, List.map_append]
    exact (ih fun k before => busy k (Nat.lt_succ_of_lt before)).append
      (.step (busy steps (Nat.lt_succ_self steps)) (.stay _))

theorem Run.cons (next : Move c given m m₁) (run : Run c given m₁ states m') :
    Run c given m (m₁ :: states) m' :=
  (Run.start.move next).append run

/-- A run makes no move, or it makes a first one. -/
theorem Run.uncons (run : Run c given m states m') :
    states = [] ∧ m' = m ∨
      ∃ m₁ rest, states = m₁ :: rest ∧ Move c given m m₁ ∧ Run c given m₁ rest m' := by
  induction run with
  | start => exact .inl ⟨rfl, rfl⟩
  | @move states m₂ m₃ run next ih =>
    refine .inr ?_
    rcases ih with ⟨rfl, rfl⟩ | ⟨m₁, rest, rfl, begun, further⟩
    · exact ⟨m₃, [], rfl, next, .start⟩
    · exact ⟨m₁, rest ++ [m₃], rfl, begun, further.move next⟩

/-- The steps of a busy machine are a run. -/
theorem Path.run (path : Path c m states m') : Run c given m states m' := by
  induction path with
  | stay m => exact .start
  | step busy rest ih => exact ih.cons (.step busy)

/-- Taking steps is work of the executor. -/
theorem Path.executes (path : Path c m states m') : Executes c m states m' := by
  induction path with
  | stay m => exact .start
  | step busy rest ih => exact (Executes.start.step busy).trans ih

/-- With enough steps the machine gets to the end of its path. -/
theorem Path.settle_eq (path : Path c m states m') (idle : m'.isIdle = true) {steps : Nat}
    (enough : states.length ≤ steps) : settle c steps m = m' := by
  induction path generalizing steps with
  | stay m =>
    cases steps with
    | zero => rfl
    | succ steps => exact if_pos idle
  | step busy path ih =>
    cases steps with
    | zero => exact absurd enough (Nat.not_succ_le_zero _)
    | succ steps =>
      rw [settle, if_neg (Bool.eq_false_iff.mp busy)]
      exact ih idle (Nat.le_of_succ_le_succ enough)

/-- A run to a state without anything to do goes along every path that begins where it begins. -/
theorem Run.through (run : Run c given m states m') (path : Path c m first m₁)
    (idle : m'.isIdle = true) : ∃ rest, states = first ++ rest ∧ Run c given m₁ rest m' := by
  induction path generalizing states with
  | stay m => exact ⟨states, rfl, run⟩
  | step busy path ih =>
    rcases run.uncons with ⟨_, rfl⟩ | ⟨m₂, rest, rfl, next, further⟩
    · simp [idle] at busy
    · obtain rfl := next.eq_step busy
      obtain ⟨others, rfl, run'⟩ := ih further
      exact ⟨others, rfl, run'⟩

/-- The way to a state without anything to do passes through every other path. -/
theorem Path.through (whole : Path c m states m') (path : Path c m first m₁)
    (idle : m'.isIdle = true) : ∃ rest, states = first ++ rest ∧ Path c m₁ rest m' := by
  induction path generalizing states with
  | stay m => exact ⟨states, rfl, whole⟩
  | step busy path ih =>
    cases whole with
    | stay => simp [idle] at busy
    | step _ further =>
      obtain ⟨others, rfl, path'⟩ := ih further
      exact ⟨others, rfl, path'⟩

/-- There is one way to a state without anything to do. -/
theorem Path.unique (path : Path c m first m₁) (idle : m₁.isIdle = true)
    (other : Path c m states m') (idle' : m'.isIdle = true) : states = first ∧ m' = m₁ := by
  obtain ⟨rest, rfl, further⟩ := other.through path idle'
  cases further with
  | stay => exact ⟨List.append_nil _, rfl⟩
  | step busy _ => simp [idle] at busy

end TaskWatch.Machine
