import TaskWatch.Proofs.Session.Lifetime
import TaskWatch.Proofs.Session.Parting

/-!
# Sessions end once

Along a run no session ends twice, although its task may still be under way after its end, and other
sessions may have been started under its identifier. So the callback for stopped sessions is called
for it once at most, its end is announced once at most, and it calls the callback for the end of its
job once at most. Each time the reason is the one for which the session has ended.

## Main definitions

* `Machine.stopCalls` — the sessions for which the callback for stopped sessions is called.
* `Machine.PartsOnce` — what is true of a session along a run.

## Main results

* `Machine.Run.endings_le_one` — no session ends in two moves of a run.
* `Machine.Run.parting_of_announced` — an end that is announced has come about for the reason that
  is given.
* `Machine.parts_once` — all this, for every session and every run.
-/

namespace TaskWatch

variable {σ κ : Type}

namespace Machine

/-- Whether a session ends in a move. -/
def endsIn (S : SessionName) (p : Machine σ κ × Machine σ κ) : Bool :=
  p.1.world.lives S && !p.2.world.lives S

/-- Whether the callback for stopped sessions is being called. -/
def isStopCall (m : Machine σ κ) : Bool :=
  match m.control with
  | .calling _ (.stopped _ _) => true
  | _ => false

/-- The session for which the callback for stopped sessions is called after a move, and the reason.
The callback is handed the task, and the session is the one that was registered for it before the
move. -/
def stopCall? (p : Machine σ κ × Machine σ κ) : Option (SessionName × StopReason) :=
  match p.2.control, p.2.stack with
  | .calling _ (.stopped id reason), .announcing number _ _ :: _ =>
    ((p.1.tracker number).sessions.find? id).map fun serial => (⟨number, id, serial⟩, reason)
  | _, _ => none

/-- The sessions for which the callback for stopped sessions is called in a run, and the reasons. -/
def stopCalls (m₀ : Machine σ κ) (states : List (Machine σ κ)) : List (SessionName × StopReason) :=
  (passages m₀ states).filterMap stopCall?

variable {m m' m₀ m₁ m₂ : Machine σ κ} {c : Consumer σ κ} {given : Code σ κ → Prop}
  {S : SessionName} {reason : StopReason} {states : List (Machine σ κ)}

/-! ### Ends -/

/-- No session ends in two moves of a run. -/
theorem Run.endings_le_one (reach : Reachable c m₀) (run : Run c given m₀ states m)
    (S : SessionName) : (passages m₀ states).countP (endsIn S) ≤ 1 := by
  suffices (passages m₀ states).countP (endsIn S) = 0 ∨
      (passages m₀ states).countP (endsIn S) = 1 ∧ Ended S m by
    rcases this with none | ⟨once, _⟩
    · exact none.trans_le (Nat.zero_le 1)
    · exact once.le
  induction run with
  | start => exact .inl rfl
  | @move states m₁ m₂ run next ih =>
    rw [run.passages_move, List.countP_append, List.countP_singleton]
    rcases ih with none | ⟨once, ended⟩
    · by_cases ends : endsIn S (m₁, m₂) = true
      · obtain ⟨lived, dead⟩ := Bool.and_eq_true_iff.mp ends
        rw [none, if_pos ends]
        exact .inr ⟨rfl, .of_lived (reach.run run) lived next.leads (by simpa using dead)⟩
      · rw [none, if_neg ends]
        exact .inl rfl
    · rw [once, if_neg (by simp [endsIn, ended.dead])]
      exact .inr ⟨rfl, ended.move next⟩

/-! ### The callback for stopped sessions -/

theorem isStopCall_deliver (m : Machine σ κ) (n : Notice) (audience : List (Audience κ)) :
    (m.deliver n audience).isStopCall = false := by
  match audience with
  | [] => rfl
  | .callback label :: rest => rfl
  | .view about label :: rest =>
    rw [deliver]
    split <;> rfl
  | .wait number :: rest => rfl

/-- When the callback is about to be called, a session has been ended. -/
theorem Turnover.ends_of_isStopCall {added : Nat → TaskId → Prop} (turnover : Turnover added m m')
    (calls : m'.isStopCall = true) :
    ∃ S reason label rest, m'.control = .calling label (.stopped S.id reason) ∧
      m'.stack = .announcing S.tracker S.id reason :: rest ∧ m.world.Ends S m'.world := by
  cases turnover with
  | still new stack plain control does same records =>
    rw [isStopCall] at calls
    split at calls
    · next called => simp [called, Control.isNews] at control
    · simp at calls
  | began new stack plain control does serial => simp [isStopCall, control] at calls
  | ended new stack plain control does lived => simp [isStopCall, control] at calls
  | @ending new S reason label stack plain control does lived =>
    exact ⟨S, reason, label, _, control, stack, does.ends lived⟩

theorem Move.ends_of_isStopCall (move : Move c given m m') (calls : m'.isStopCall = true) :
    ∃ S reason label rest, m'.control = .calling label (.stopped S.id reason) ∧
      m'.stack = .announcing S.tracker S.id reason :: rest ∧ m.world.Ends S m'.world := by
  by_cases idle : m.isIdle = true
  · obtain ⟨m₁, turnover, trackers, serial, _⟩ := move.turnover idle
    obtain ⟨S, reason, label, rest, control, stack, ends⟩ := turnover.ends_of_isStopCall calls
    exact ⟨S, reason, label, rest, control, stack, ends.of_trackers trackers serial⟩
  · obtain rfl := move.eq_step (Bool.eq_false_iff.mpr idle)
    rcases m.step_errand_or_turnover c with ⟨number, event, control⟩ | ⟨f, taken, errand⟩ | turnover
    · rw [step_of_telling control, isStopCall_deliver] at calls
      exact absurd calls Bool.false_ne_true
    · cases f with
      | delivering n rest =>
        rw [step_delivering taken, isStopCall_deliver] at calls
        exact absurd calls Bool.false_ne_true
      | announcing number id reason =>
        rcases step_of_mem_taken taken c with ⟨r, goes⟩ | goes
        · rw [goes] at calls
          exact absurd calls Bool.false_ne_true
        · rw [goes] at calls
          exact absurd calls Bool.false_ne_true
      | _ => simp [Frame.isErrand] at errand
    · obtain ⟨S, reason, label, rest, control, stack, ends⟩ := turnover.ends_of_isStopCall calls
      exact ⟨S, reason, label, rest, control, stack, m.world_below ▸ ends⟩

/-- When the callback is called after a move, a session has departed in it. -/
theorem Move.stopCall_of_isStopCall (move : Move c given m m') (calls : m'.isStopCall = true) :
    ∃ S reason, stopCall? (m, m') = some (S, reason) ∧ m.world.lives S = true ∧
      m'.Departs S reason := by
  obtain ⟨S, reason, label, rest, control, stack, ends⟩ := move.ends_of_isStopCall calls
  refine ⟨S, reason, ?_, ends.lived, ?_, ?_⟩
  · have found : (m.tracker S.tracker).sessions.find? S.id = some S.serial :=
      World.lives_iff.mp ends.lived
    simp [stopCall?, control, stack, found]
  · exact Bool.eq_false_iff.mpr fun lives => ((ends.lives S).mp lives).2 rfl
  · simp [farewell?, control, stack]

theorem isStopCall_of_stopCall {p : Machine σ κ × Machine σ κ} (calls : (stopCall? p).isSome) :
    p.2.isStopCall = true := by
  rw [stopCall?] at calls
  split at calls
  · next control _ => simp [isStopCall, control]
  · simp at calls

/-- The session for which the callback is called after a move departs in this move. -/
theorem Move.departs_of_stopCall (move : Move c given m m')
    (calls : stopCall? (m, m') = some (S, reason)) :
    m.world.lives S = true ∧ m'.Departs S reason := by
  obtain ⟨T, reason', calls', lived, departs⟩ :=
    move.stopCall_of_isStopCall (isStopCall_of_stopCall (by rw [calls]; rfl))
  obtain ⟨rfl, rfl⟩ := Prod.mk.inj (Option.some.inj (calls.symm.trans calls'))
  exact ⟨lived, departs⟩

/-- Each call of the callback is for a session that has just ended. -/
theorem Run.length_stopCalls (run : Run c given m₀ states m) :
    (stopCalls m₀ states).length = states.countP isStopCall := by
  induction run with
  | start => rfl
  | @move states m₁ m₂ run next ih =>
    rw [stopCalls, run.passages_move, List.filterMap_append, List.length_append, List.countP_append,
      ← ih, stopCalls, List.countP_singleton]
    congr 1
    by_cases calls : m₂.isStopCall = true
    · obtain ⟨S, reason, called, _⟩ := next.stopCall_of_isStopCall calls
      simp [called, calls]
    · have quiet : stopCall? (m₁, m₂) = none := by
        by_contra some
        exact calls (isStopCall_of_stopCall (Option.isSome_iff_ne_none.mpr some))
      simp [quiet, calls]

/-- For no session the callback is called twice. -/
theorem Run.stopCalls_le_one (reach : Reachable c m₀) (run : Run c given m₀ states m)
    (S : SessionName) : (stopCalls m₀ states).countP (·.1 = S) ≤ 1 := by
  refine Nat.le_trans ?_ (run.endings_le_one reach S)
  rw [stopCalls, List.countP_filterMap]
  refine List.countP_mono_left fun p mem calls => ?_
  obtain ⟨_, _, _, move⟩ := run.passage mem
  cases called : stopCall? p with
  | none => simp [called] at calls
  | some found =>
    obtain ⟨T, reason⟩ := found
    obtain rfl : T = S := by simpa [called] using calls
    obtain ⟨lived, dead, _⟩ := move.departs_of_stopCall called
    simp [endsIn, lived, dead]

/-! ### Announcements -/

/-- What listeners are about to be told of a session that has ended. -/
theorem farewell_of_emits {number : Nat} {id : TaskId}
    (emits : m.emits = [(number, .stopped id reason)]) :
    m.farewell? = some (number, id, reason) := by
  rw [Machine.emits] at emits
  split at emits
  · next control =>
    obtain ⟨rfl, rfl⟩ := Prod.mk.inj (List.singleton_inj.mp emits)
    simp [farewell?, control]
  · simp at emits

/-- When the callback for stopped sessions is about to be called, its reason is the one in the frame
that waits for it. -/
private theorem reason_of_errandFrames (move : Move c given m m') (silent : m'.emits = [])
    {number : Nat} {id : TaskId} (farewell : m'.farewell? = some (number, id, reason))
    {reason' : StopReason} {frames : List (Frame σ κ)}
    (waits : .announcing number id reason' :: frames = m'.errandFrames) : reason = reason' := by
  rw [farewell?] at farewell
  split at farewell
  · next control => simp [emits_of_telling control] at silent
  · next control _ =>
    obtain ⟨T, reason'', _, _, control', stack, _⟩ :=
      move.ends_of_isStopCall (by simp [isStopCall, control])
    obtain ⟨_, called⟩ := Control.calling.inj (control.symm.trans control')
    obtain ⟨_, rfl⟩ := Occasion.stopped.inj called
    obtain ⟨_, _, rfl⟩ := by simpa using farewell
    rw [errandFrames, control, stack, List.filter_cons_of_pos rfl] at waits
    exact (Frame.announcing.inj (List.cons.inj waits).1).2.2.symm
  · simp at farewell

/-- An end that comes to be announced, now or after the callback for stopped sessions, has come
about in this move. -/
private theorem departs_of_entered {l l' : Ledger κ} (follows : l.Follows m l' m')
    (move : Move c given m m') (stages : m.Stages)
    (entered : .ended S reason ∈ l'.announced ∨ .announce S reason ∈ l'.errands) :
    (.ended S reason ∈ l.announced ∨ .announce S reason ∈ l.errands) ∨
      m.world.lives S = true ∧ m'.Departs S reason := by
  have dead : m.world.Ends S m'.world → m'.world.lives S = false := fun ends =>
    Bool.eq_false_iff.mpr fun lives => ((ends.lives S).mp lives).2 rfl
  obtain ⟨fits, advance, notices, _⟩ := follows
  cases advance with
  | still retains => exact .inl entered
  | told first retains goes =>
    exact .inl (entered.imp_right fun owed => first ▸ List.mem_cons_of_mem _ (by simpa using owed))
  | served first retains =>
    exact .inl (entered.imp_right fun owed => first ▸ List.mem_cons_of_mem _ owed)
  | loses first control top retains =>
    exact .inl (entered.imp_right fun owed => first ▸ List.mem_cons_of_mem _ owed)
  | @proceeds _ T reason' errands first retains =>
    left
    rcases entered with announced | owed
    · rcases List.mem_append.mp announced with old | new
      · exact .inl old
      · obtain ⟨rfl, rfl⟩ := Tidings.ended.inj (List.mem_singleton.mp new)
        exact .inr (first ▸ List.mem_cons_self)
    · exact .inr (first ▸ List.mem_cons_of_mem _ (by simpa [Ledger.announce] using owed))
  | began begins =>
    left
    rcases entered with announced | owed
    · exact .inl (by simpa [Ledger.announce] using announced)
    · exact .inr (by simpa [Ledger.announce] using owed)
  | @ended _ T reason' ends =>
    rcases entered with announced | owed
    · rcases List.mem_append.mp announced with old | new
      · exact .inl (.inl old)
      · obtain ⟨rfl, rfl⟩ := Tidings.ended.inj (List.mem_singleton.mp new)
        rw [notices_announce] at notices
        exact .inr ⟨ends.lived, dead ends,
          farewell_of_emits (List.append_cancel_left notices).symm⟩
    · exact .inl (.inr (by simpa [Ledger.announce] using owed))
  | @ending _ T reason' ends =>
    rcases entered with announced | owed
    · exact .inl (.inl announced)
    · rcases List.mem_cons.mp owed with new | old
      · obtain ⟨rfl, rfl⟩ := Errand.announce.inj new
        obtain ⟨reason', departs, _⟩ := move.departs stages ends.lived (dead ends)
        have silent : m'.emits = [] := List.self_eq_append_right.mp notices
        obtain rfl := reason_of_errandFrames move silent departs.2 fits
        exact .inr ⟨ends.lived, departs⟩
      · exact .inl (.inr old)

/-- What has been announced has come about for this reason. -/
theorem Run.parting_of_announced (reach : Reachable c m₀) (calm : m₀.errandFrames = [])
    (run : Run c given m₀ states m) (announced : .ended S reason ∈ (Ledger.after m₀ states).announced) :
    ∃ p ∈ passages m₀ states, p.1.world.lives S = true ∧ Parting c S reason p.1 p.2 := by
  have entered : ∀ {states : List (Machine σ κ)} {m : Machine σ κ}, Run c given m₀ states m →
      (.ended S reason ∈ (Ledger.after m₀ states).announced ∨
        .announce S reason ∈ (Ledger.after m₀ states).errands) →
      ∃ p ∈ passages m₀ states, p.1.world.lives S = true ∧ p.2.Departs S reason := by
    intro states m run
    induction run with
    | start => rintro (new | new) <;> exact absurd new List.not_mem_nil
    | @move states m₁ m₂ run next ih =>
      intro new
      rw [run.after_move] at new
      rw [run.passages_move]
      rcases departs_of_entered (next.follows (run.fits calm)) next (reach.run run).stages new with
        old | ⟨lived, departs⟩
      · obtain ⟨p, mem, departs⟩ := ih old
        exact ⟨p, List.mem_append_left _ mem, departs⟩
      · exact ⟨_, List.mem_append_right _ List.mem_cons_self, lived, departs⟩
  obtain ⟨p, mem, lived, departs⟩ := entered run (.inl announced)
  obtain ⟨_, before, _, move⟩ := run.passage mem
  exact ⟨p, mem, lived, (move.parting_iff (reach.run before).stages lived).mp departs⟩

/-! ### All of it -/

/-- A session ends once at most along a run, for the true reason, and ends no other after that. -/
structure PartsOnce (c : Consumer σ κ) (m₀ : Machine σ κ) (states : List (Machine σ κ))
    (S : SessionName) : Prop where
  /-- It ends once at most. -/
  ends : (passages m₀ states).countP (endsIn S) ≤ 1
  /-- The callback for stopped sessions is called for it once at most. -/
  stopCalls : (stopCalls m₀ states).countP (·.1 = S) ≤ 1
  /-- No call of this callback is for anything but a session that has just ended. -/
  attributed : (Machine.stopCalls m₀ states).length = states.countP isStopCall
  /-- Its end is announced once at most. -/
  announcements : (Ledger.after m₀ states).ended.count S ≤ 1
  /-- What is announced is what listeners are told. -/
  notices : (Ledger.after m₀ states).notices = states.flatMap emits
  /-- It calls the callback for the end of its job once at most. -/
  verdicts : (states.flatMap (verdictCalls · S)).length ≤ 1
  /-- While it lives, a move ends it for a reason exactly if there is this reason for it. -/
  departs : ∀ p ∈ passages m₀ states, p.1.world.lives S = true → ∀ reason,
    p.2.Departs S reason ↔ Parting c S reason p.1 p.2
  /-- It does not end without a reason. -/
  reason : ∀ p ∈ passages m₀ states, endsIn S p = true → ∃ reason, Parting c S reason p.1 p.2
  /-- The callback for stopped sessions is handed the true reason. -/
  called : ∀ reason, (S, reason) ∈ Machine.stopCalls m₀ states →
    ∃ p ∈ passages m₀ states, p.1.world.lives S = true ∧ Parting c S reason p.1 p.2
  /-- The true reason is announced. -/
  announced : ∀ reason, .ended S reason ∈ (Ledger.after m₀ states).announced →
    ∃ p ∈ passages m₀ states, p.1.world.lives S = true ∧ Parting c S reason p.1 p.2
  /-- When it waits for the callback for the end of its job, it has called it with a report of this
  end. -/
  concluded : ∀ p ∈ passages m₀ states, ∀ s reason, s.name = S →
    .session s (.concluded reason) ∈ p.1.stack → ∃ m ∈ states, m.Attests s (.concluded reason)
  /-- After its end its task ends no other session. -/
  others : ∀ p ∈ passages m₀ states, p.1.world.lives S = false → OwnMove c S p.1 p.2 →
    ∀ T, p.1.world.lives T = true → p.2.world.lives T = true

/-- Every session ends once at most along every run, whatever callbacks, listeners and fetchers do.
The reason is that somebody asked for it exactly if a call ended it, it is the end of the job
exactly if the session ended itself after it had dealt with a report of this end, and the session is
aborted exactly if it ended itself in a panic or because the executor had gone away. A task that is
given up before its first turn is not among the reasons: its session lives on. -/
theorem parts_once {memory : σ} {storage : Storage} {wallClock : Nat} {hasExecutor : Bool}
    (run : Run c given (.idle memory (.blank storage wallClock hasExecutor)) states m)
    (S : SessionName) :
    PartsOnce c (.idle memory (.blank storage wallClock hasExecutor)) states S := by
  have blank : Reachable c (.idle memory (.blank storage wallClock hasExecutor)) :=
    ⟨memory, storage, wallClock, hasExecutor, .refl _⟩
  have calm : (idle memory (.blank storage wallClock hasExecutor) : Machine σ κ).errandFrames = [] :=
    rfl
  have before : ∀ p ∈ passages (.idle memory (.blank storage wallClock hasExecutor)) states,
      Reachable c p.1 ∧ Move c given p.1 p.2 := fun p mem => by
    obtain ⟨_, leads, _, move⟩ := run.passage mem
    exact ⟨blank.run leads, move⟩
  refine
    { ends := run.endings_le_one blank S
      stopCalls := run.stopCalls_le_one blank S
      attributed := run.length_stopCalls
      announcements := ?announcements
      notices := run.notices calm
      verdicts := run.verdictCalls_le_one blank S
      departs := fun p mem lived reason => ?departs
      reason := fun p mem ends => ?reason
      called := fun reason mem => ?called
      announced := fun reason announced => run.parting_of_announced blank calm announced
      concluded := fun p mem s reason _ on => ?concluded
      others := fun p mem dead own T lived => ?others }
  case announcements =>
    have once := (run.balances blank calm).once
    rw [Ledger.gone, List.append_assoc, List.nodup_append] at once
    exact List.nodup_iff_count_le_one.mp once.1 S
  case departs =>
    obtain ⟨reach, move⟩ := before p mem
    exact move.parting_iff reach.stages lived
  case reason =>
    obtain ⟨reach, move⟩ := before p mem
    obtain ⟨lived, dead⟩ := Bool.and_eq_true_iff.mp ends
    obtain ⟨reason, _, parting⟩ := move.departs reach.stages lived (by simpa using dead)
    exact ⟨reason, parting⟩
  case called =>
    obtain ⟨p, passes, calls⟩ := List.mem_filterMap.mp mem
    obtain ⟨reach, move⟩ := before p passes
    obtain ⟨lived, departs⟩ := move.departs_of_stopCall calls
    exact ⟨p, passes, lived, (move.parting_iff reach.stages lived).mp departs⟩
  case concluded =>
    obtain ⟨past, leads, inside, _⟩ := run.passage mem
    obtain ⟨m₁, on, attests⟩ := (leads.concluded on).resolve_left List.not_mem_nil
    exact ⟨m₁, inside on, attests⟩
  case others =>
    have quiet := own.goesQuietly dead (before p mem).1.sheltered
    rwa [World.lives, World.tracker, quiet.trackers]

/-! ### A callback that starts its task again -/

/-- A consumer whose fetcher `0` reports completion at once. The callback `1` stops polling for the
task and starts it again with another fetcher. -/
def restarter : Consumer Unit Nat where
  react label _ :=
    match label with
    | 1 => .call (.stop 0 "a") fun _ => .call (.start 0 "a" 2) fun _ => .done
    | _ => .done
  proceed label _ _ _ :=
    match label with
    | 0 => .answer (.ok { status := .completed })
    | _ => .hang
  supply _ _ _ := none

/-- A session is about to be started whose job has been completed. -/
def restarting : Machine Unit Nat :=
  (idle () (.blank .inMemory 0 true)).code <|
    .call (.openTracker "tasks" .default) fun _ =>
    .call (.configure 0 { hooks := { complete := some 1, stopped := some 3 } }) fun _ =>
    .call (.start 0 "a" 0) fun _ => .done

/-- It waits for its first turn. -/
def restartable : Machine Unit Nat := stepTimes restarter 9 restarting

/-- It is given its first turn. -/
def restarted : Machine Unit Nat :=
  (restartable.withWorld { restartable.world with suspended := [] ++ [] }).wake
    ⟨{ tracker := 0, id := "a", serial := 1, fetcher := 0 }, .fresh⟩

/-- What happens until the turn is over. -/
def restart : List (Machine Unit Nat) :=
  [restarting] ++ trail restarter 9 restarting ++ ([restarted] ++ trail restarter 18 restarted)

/-- The session calls the callback for the end of its job, which ends it and starts another one.
When the callback returns, the first session has ended because somebody asked for it, and the second
one lives. -/
theorem parts_once_restarted :
    PartsOnce restarter (.idle () (.blank .inMemory 0 true)) restart ⟨0, "a", 1⟩ ∧
      restart.flatMap (verdictCalls · ⟨0, "a", 1⟩) = [.completed "a" { status := .completed }] ∧
      stopCalls (.idle () (.blank .inMemory 0 true)) restart = [(⟨0, "a", 1⟩, .requested)] ∧
      (stepTimes restarter 18 restarted).world.lives ⟨0, "a", 2⟩ = true := by
  have starts : Run restarter (fun _ => True) (.idle () (.blank .inMemory 0 true))
      ([restarting] ++ trail restarter 9 restarting) restartable :=
    (Run.start.move (.code rfl trivial)).append (run_steps (by decide +kernel))
  have wakes : Move restarter (fun _ => True) restartable restarted :=
    .wake (by decide +kernel) rfl (by decide +kernel)
  have turn : Run restarter (fun _ => True) restartable
      ([restarted] ++ trail restarter 18 restarted) (stepTimes restarter 18 restarted) :=
    (Run.start.move wakes).append (run_steps (by decide +kernel))
  exact ⟨parts_once (starts.append turn) ⟨0, "a", 1⟩, rfl, by decide +kernel, by decide +kernel⟩

/-! ### A session that outlives its task -/

/-- The task of the session has been given up before its first turn. -/
def forsaken : Machine Unit Nat :=
  (deserted.withWorld { deserted.world with suspended := [] ++ [] }).abandon pending

/-- The consumer stops polling for the task of the session. -/
def cancelling : Machine Unit Nat := forsaken.code (.call (.stop 0 "a") fun _ => .done)

/-- The executor gives up the task of a session that lives and has not had a turn. Then the task is
nowhere, but the session has not been aborted: it lives on, until somebody stops it, which is the
reason that is announced. -/
theorem requested_after_given_up :
    ∃ (past later : List (Machine Unit Nat)) (m₁ m₂ m₃ : Machine Unit Nat) (S : SessionName),
      Run saboteur (fun _ => True) (.idle () (.blank .inMemory 0 true)) past m₁ ∧
      m₁.world.lives S = true ∧ OwnMove saboteur S m₁ m₂ ∧
      Move saboteur (fun _ => True) m₁ m₂ ∧ S ∉ m₂.names ∧
      m₂.world.lives S = true ∧ m₂.farewell? = none ∧
      Run saboteur (fun _ => True) m₂ later m₃ ∧ m₃.isIdle = true ∧
      (Ledger.after (.idle () (.blank .inMemory 0 true)) (past ++ ([m₂] ++ later))).announced =
        [.began S, .ended S .requested] := by
  have closes : Move saboteur (fun _ => True) launched deserted :=
    .close (by decide +kernel) (.refl _)
  have gives : Move saboteur (fun _ => True) deserted forsaken :=
    .abandon (by decide +kernel) rfl rfl
  have asks : Run saboteur (fun _ => True) forsaken ([cancelling] ++ trail saboteur 5 cancelling)
      (stepTimes saboteur 5 cancelling) :=
    (Run.start.move (.code rfl trivial)).append (run_steps (by decide +kernel))
  exact ⟨launch ++ [deserted], _, deserted, forsaken, _, ⟨0, "a", 1⟩,
    launch_run.append (Run.start.move closes), by decide +kernel, .abandoned rfl rfl, gives,
    by decide +kernel, by decide +kernel, by decide +kernel, asks, by decide +kernel,
    by decide +kernel⟩

end Machine

end TaskWatch
