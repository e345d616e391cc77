import Mathlib.Data.List.Nodup
import TaskWatch.Proofs.Session.Standing

/-!
# Sessions follow their course

If the consumer leaves a session alone, it does in every run what its course says, act by act, at
the times that the course says, and with the record that the course says. This covers every initial
record, every sequence of answers with any latencies, and any settings. Whatever other sessions and
other tasks of the consumer do, and in whatever order the executor gives turns to sessions that are
ready at one time, makes no difference.

## Main results

* `Course.Stands.move` — every move either passes a session by or takes it to the next place in its
  course.
* `Machine.Run.follows_course` — what is seen of a session in a run is a beginning of its course,
  and nothing that was due is missing.
-/

namespace TaskWatch

variable {σ κ : Type}

namespace Course

open Machine

variable {C : Course κ} {c : Consumer σ κ} {m m' : Machine σ κ} {s : SessionTask κ} {time : Nat}
  {record : Option Task}

/-! ### What others leave alone -/

theorem Holds.does {w w' : World κ} {d : Deed κ} (holds : C.Holds time record w) (keyed : w.Keyed)
    (does : w.Does d w') (within : d.IsWithin C.others) : C.Holds time record w' := by
  have sees := does.sees holds.inside keyed within
  exact ⟨does.clock.trans holds.clock, does.inside holds.inside, sees.settings.trans holds.settings,
    sees.record.trans holds.record⟩

theorem IsRunBy.does {w w' : World κ} {d : Deed κ} (run : C.IsRunBy s time record w)
    (keyed : w.Keyed) (does : w.Does d w') (within : d.IsWithin C.others) :
    C.IsRunBy s time record w' :=
  ⟨run.toHolds.does keyed does within, run.name, run.fetcher, does.lives run.lives within⟩

theorem IsRunBy.near {w w' : World κ} (run : C.IsRunBy s time record w) (keyed : w.Keyed)
    (near : w.Near w') : C.IsRunBy s time record w' :=
  run.does keyed near.does trivial

/-- Another session that lives has another task. -/
theorem IsRunBy.others {w : World κ} (run : C.IsRunBy s time record w) {other : SessionTask κ}
    (lives : w.lives other.name = true) (foreign : other.name ≠ C.session) :
    C.others other.tracker other.id := by
  rintro ⟨tracker, id⟩
  have found := World.lives_iff.mp lives
  have own := World.lives_iff.mp run.lives
  rw [← tracker, ← id] at own
  have serial : other.serial = C.session.serial := Option.some.inj (found.symm.trans own)
  refine foreign ?_
  rw [SessionTask.name, tracker, id, serial]

/-- Nothing is seen of a session that is not on the stack. -/
theorem sighting?_of_away (away : C.session ∉ m.stack.flatMap Frame.names) :
    C.sighting? m = none := by
  rw [sighting?]
  split
  · next S act acts =>
    refine if_neg ?_
    rintro rfl
    exact away (mem_names_of_act? acts)
  · rfl

/-- A session that is suspended is not on the stack. -/
theorem IsRunBy.away {w : World κ} (run : C.IsRunBy s time record w) (sound : m.Sound)
    {pause : Pause} (listed : ⟨s, pause⟩ ∈ m.world.suspended) :
    C.session ∉ m.stack.flatMap Frame.names := by
  intro mem
  have suspended : C.session ∈ m.world.suspended.map fun entry => entry.task.name :=
    List.mem_map.mpr ⟨_, listed, run.name⟩
  exact (List.disjoint_of_nodup_append sound.nodup) mem suspended

/-! ### Moves -/

section Suspended

variable {pause : Pause}

private theorem suspended_stays (run : C.IsRunBy s time record m.world) (sound : m.Sound)
    (listed : ⟨s, pause⟩ ∈ m.world.suspended) (heeds : m.Heeds C.others)
    (due : ∀ wake ∈ pause.wakeTime, time ≤ wake) (knows : pause = .fresh ∨ Knows s.last record) :
    C.GoesOn c m (C.waiting s time record pause) :=
  Stands.goesOn (.suspended run listed heeds due knows) (sighting?_of_away (run.away sound listed))

/-- While others have their turn, a suspended session stays where it is. -/
private theorem step_suspended (observed : C.IsObserved c) (sound : m.Sound)
    (run : C.IsRunBy s time record m.world) (listed : ⟨s, pause⟩ ∈ m.world.suspended)
    (heeds : m.Heeds C.others) (due : ∀ wake ∈ pause.wakeTime, time ≤ wake)
    (knows : pause = .fresh ∨ Knows s.last record) :
    C.GoesOn c (m.step c) (C.waiting s time record pause) := by
  have touch : ∀ other point, .session other point ∈ m.taken → m.world.lives other.name →
      C.others other.tracker other.id := by
    intro other point mem lives
    refine run.others lives fun same => run.away sound listed ?_
    rw [m.stack_eq, List.flatMap_append]
    refine List.mem_append_left _ (List.mem_flatMap.mpr ⟨_, mem, ?_⟩)
    exact List.mem_singleton.mpr same.symm
  obtain ⟨heeds', d, within, does⟩ := heeds.step observed.others touch
  refine suspended_stays (run.does sound.keyed does within) (sound.step c) ?_ heeds' due knows
  rw [does.suspended]
  exact List.mem_append_left _ listed

/-- The executor gives a turn to this session, or to another one. -/
private theorem wake_suspended (observed : C.IsObserved c) (sound : m.Sound)
    (run : C.IsRunBy s time record m.world) (listed : ⟨s, pause⟩ ∈ m.world.suspended)
    (due : ∀ wake ∈ pause.wakeTime, time ≤ wake) (knows : pause = .fresh ∨ Knows s.last record)
    (empty : m.stack = []) {others others' : List (Suspended κ)} {entry : Suspended κ}
    (chosen : m.world.suspended = others ++ entry :: others')
    (ready : m.world.isReady entry = true) (sound' :
      ((m.withWorld { m.world with suspended := others ++ others' }).wake entry).Sound) :
    C.GoesOn c ((m.withWorld { m.world with suspended := others ++ others' }).wake entry)
      (C.waiting s time record pause) := by
  have run₁ : C.IsRunBy s time record
      (m.withWorld { m.world with suspended := others ++ others' }).world :=
    ⟨⟨run.clock, run.inside, run.settings, run.record⟩, run.name, run.fetcher, run.lives⟩
  have left := listed
  rw [chosen, List.mem_append, List.mem_cons] at left
  -- The names of suspended sessions are distinct, so the entry is this one or another session's.
  by_cases own : entry = ⟨s, pause⟩
  · subst own
    exact wake_goesOn observed run₁ empty due knows ready
  · have left : ⟨s, pause⟩ ∈ others ++ others' := by
      rcases left with mem | same | mem
      · exact List.mem_append_left _ mem
      · exact absurd same.symm own
      · exact List.mem_append_right _ mem
    have foreign : entry.task.name ≠ C.session := by
      intro same
      refine sound.not_mem_without chosen (List.mem_append_right _ (List.mem_map.mpr ⟨_, left, ?_⟩))
      exact run.name.trans same.symm
    have woken : Extends C.others [entry.task.name]
        (m.withWorld { m.world with suspended := others ++ others' }) _ :=
      wake_extends fun lives => run₁.others lives foreign
    obtain ⟨heeds', d, within, does⟩ := woken.heeds (by simp [withWorld, empty])
    refine suspended_stays (run₁.does sound.keyed does within) sound' ?_ heeds' due knows
    rw [does.suspended]
    exact List.mem_append_left _ left

/-- No time passes before a session has had its first turn, and none beyond its time. -/
private theorem tick_suspended (sound : m.Sound) (run : C.IsRunBy s time record m.world)
    (listed : ⟨s, pause⟩ ∈ m.world.suspended) (knows : pause = .fresh ∨ Knows s.last record)
    (quiet : m.isQuiet = true) {later : Nat} (due : ∀ wake ∈ pause.wakeTime, later ≤ wake) :
    C.GoesOn c (m.atTime later) (C.waiting s time record pause) := by
  have sound' : (m.atTime later).Sound := ⟨sound.keyed, sound.once, sound.below, sound.given⟩
  have ticking : C.IsRunBy s later record (m.atTime later).world :=
    ⟨⟨rfl, run.inside, run.settings, run.record⟩, run.name, run.fetcher, run.lives⟩
  have idle : (m.atTime later).isIdle = true := (Bool.and_eq_true_iff.mp quiet).1
  have stays := suspended_stays (c := c) ticking sound' listed (heeds_of_isIdle idle) due knows
  -- Only before the first turn do the acts still to come depend on the present time.
  cases pause with
  | fresh =>
    have waits := List.all_eq_true.mp (Bool.and_eq_true_iff.mp quiet).2 _ listed
    simp [World.isReady] at waits
  | sleeping wake => exact stays
  | fetching turn wake => cases wake <;> exact stays

/-- A suspended session stays where it is until it is given its turn. -/
private theorem suspended_move (observed : C.IsObserved c) (sound : m.Sound)
    (run : C.IsRunBy s time record m.world) (listed : ⟨s, pause⟩ ∈ m.world.suspended)
    (heeds : m.Heeds C.others) (due : ∀ wake ∈ pause.wakeTime, time ≤ wake)
    (knows : pause = .fresh ∨ Knows s.last record)
    (move : Move c (Code.IsWithin C.others) m m') (executor : m'.world.hasExecutor = true) :
    C.GoesOn c m' (C.waiting s time record pause) := by
  have sound' := move.sound sound
  cases move with
  | step busy => exact step_suspended observed sound run listed heeds due knows
  | code idle allowed =>
    have empty := stack_of_isIdle idle
    exact suspended_stays (m := m.code _) run sound' listed ⟨allowed, by simp [code, empty]⟩ due knows
  | remember idle memory =>
    exact suspended_stays (m := { m with memory }) run sound' listed ⟨heeds.control, heeds.frames⟩ due
      knows
  | wake idle chosen ready =>
    exact wake_suspended observed sound run listed due knows (stack_of_isIdle idle) chosen ready
      sound'
  | tick quiet later limit =>
    exact tick_suspended sound run listed knows quiet fun wake mem => limit _ listed wake mem
  | await idle begun =>
    have near := World.near_beginWait begun
    exact suspended_stays (m := m.withWorld _) (run.near sound.keyed near) sound'
      (near.suspended ▸ listed) ⟨heeds.control, heeds.frames⟩ due knows
  | endWait idle wait =>
    have near := m.world.near_endWait wait
    exact suspended_stays (m := m.withWorld _) (run.near sound.keyed near) sound'
      (near.suspended ▸ listed) ⟨heeds.control, heeds.frames⟩ due knows
  | close idle same => simp [withWorld] at executor
  | abandon idle closed chosen =>
    obtain ⟨_, _, grows⟩ := abandon_extends_anyhow _ _
    rw [grows.does.hasExecutor] at executor
    exact absurd (closed.symm.trans executor) Bool.false_ne_true

end Suspended

section Turn

/-- A session that is in its turn stays where it is until it is given a reply. -/
private theorem step_turn (observed : C.IsObserved c) (sound : m.Sound)
    (run : C.IsRunBy s time record m.world) {point : Point κ}
    (above : Above c [.session s point] m) (heeds : m.Heeds C.others) (fits : C.Fits s record point)
    (follows : C.IsFollowed c m) : C.GoesOn c (m.step c) (C.after s time record point) := by
  rcases above.returned_or_step with ⟨stack, r, control⟩ | ⟨above', quiet, foreign⟩
  · rw [step_of_returned control stack]
    have asked : ∀ turn, point = .fetching turn →
        c.proceed s.fetcher (m.request s) turn m.memory = (C.responses s.calls).progress turn := by
      rintro turn rfl
      exact follows s turn [] r stack control run.name
    exact continueSession_goesOn (m := { m with stack := [] }) observed run rfl sound.keyed fits asked
  · obtain ⟨heeds', d, within, does⟩ := heeds.step_foreign observed.others foreign
    exact (Stands.turn (run.does sound.keyed does within) above' heeds' fits).goesOn
      (sighting?_eq_none quiet)

/-- A session whose name is on the stack has been created. -/
private theorem ended_of_stack {point : Point κ} (sound : m.Sound)
    (name : s.name = C.session) (on : .session s point ∈ m.stack)
    (dead : m.world.lives C.session = false) : Ended C.session m := by
  refine ⟨sound.below _ (List.mem_append_left _ (List.mem_flatMap.mpr ⟨_, on, ?_⟩)), dead⟩
  exact List.mem_singleton.mpr name.symm

/-- The end of a session is announced after the callback for it. -/
private theorem step_announcing (observed : C.IsObserved c) (sound : m.Sound)
    (name : s.name = C.session) (holds : C.Holds time record m.world) {reason : StopReason}
    (above : Above c [.announcing C.session.tracker C.session.id reason, .session s .ending] m)
    (heeds : m.Heeds C.others) (dead : m.world.lives C.session = false)
    (dead' : (m.step c).world.lives C.session = false) :
    C.GoesOn c (m.step c) fun _ => [C.farewell reason time record] := by
  rcases above.returned_or_step with ⟨stack, r, control⟩ | ⟨above', quiet, foreign⟩
  · rw [step_of_returned control stack]
    exact announce_goesOn (m := { m with stack := [.session s .ending] }) name holds dead rfl reason
  · obtain ⟨heeds', d, within, does⟩ := heeds.step_foreign observed.others foreign
    exact (Stands.announcing name (holds.does sound.keyed does within) above' heeds' dead').goesOn
      (sighting?_eq_none quiet)

/-- After the end of a session has been announced, it does nothing more. -/
private theorem step_announced {r : Reply} (name : s.name = C.session)
    (above : Above c [.answering r, .session s .ending] m)
    (dead' : (m.step c).world.lives C.session = false) : C.GoesOn c (m.step c) fun _ => [] := by
  rcases above.returned_or_step with ⟨stack, other, control⟩ | ⟨above', quiet, _⟩
  · have after := step_of_returned control stack c
    rw [after] at dead' ⊢
    exact (Stands.ending (r := r) name rfl rfl dead').goesOn (sighting?_eq_none rfl)
  · exact (Stands.announced name above' dead').goesOn (sighting?_eq_none quiet)

/-- Then its task ends. -/
private theorem step_ending (sound : m.Sound) {r : Reply} (name : s.name = C.session)
    (stack : m.stack = [.session s .ending]) (control : m.control = .returned r)
    (dead : m.world.lives C.session = false) : C.GoesOn c (m.step c) fun _ => [] := by
  have created := (ended_of_stack sound name (stack ▸ List.mem_singleton.mpr rfl) dead).created
  have after : m.step c = ({ m with stack := [] } : Machine σ κ).reply .unit := by
    rw [step_of_returned control stack]
    exact finish_of_ended (m := { m with stack := [] }) (s := s) (name ▸ dead)
  rw [after]
  refine Stands.goesOn (.done ?_ created) (sighting?_eq_none rfl)
  have once := sound.nodup
  rw [names, stack] at once
  rw [← name]
  exact (List.nodup_cons.mp once).1

end Turn

/-- Every move passes a session by or takes it to the next place in its course. -/
theorem Stands.move (observed : C.IsObserved c) (sound : m.Sound) {acts : Nat → List (Sighting κ)}
    (stands : C.Stands c m acts) (move : Move c (Code.IsWithin C.others) m m')
    (executor : m'.world.hasExecutor = true) (follows : C.IsFollowed c m) : C.GoesOn c m' acts := by
  cases stands with
  | suspended run listed heeds due knows =>
    exact suspended_move observed sound run listed heeds due knows move executor
  | turn run above heeds fits =>
    rw [move.eq_step (isIdle_of_mem_stack (above.mem_stack List.mem_cons_self))]
    exact step_turn observed sound run above heeds fits follows
  | announcing name holds above heeds dead =>
    have on := above.mem_stack (List.mem_cons_of_mem _ List.mem_cons_self)
    have dead' := ((ended_of_stack sound name on dead).move move).dead
    rw [move.eq_step (isIdle_of_mem_stack on)] at dead' ⊢
    exact step_announcing observed sound name holds above heeds dead dead'
  | announced name above dead =>
    have on := above.mem_stack (List.mem_cons_of_mem _ List.mem_cons_self)
    have dead' := ((ended_of_stack sound name on dead).move move).dead
    rw [move.eq_step (isIdle_of_mem_stack on)] at dead' ⊢
    exact step_announced name above dead'
  | ending name stack control dead =>
    rw [move.eq_step (isIdle_of_mem_stack (stack ▸ List.mem_singleton.mpr rfl))]
    exact step_ending sound name stack control dead
  | done away created =>
    have away' : C.session ∉ m'.names := fun mem =>
      (move.mem_names mem).elim away (Nat.ne_of_lt created)
    have created' := Nat.lt_of_lt_of_le created move.succeeds.serials
    exact (Stands.done away' created').goesOn
      (sighting?_of_away fun mem => away' (List.mem_append_left _ mem))

/-! ### Times -/

private theorem clock_lt_of_quiet (quiet : m.isQuiet = true) {entry : Suspended κ}
    (listed : entry ∈ m.world.suspended) :
    entry.pause ≠ .fresh ∧ ∀ wake ∈ entry.pause.wakeTime, m.world.clock < wake := by
  have waits := List.all_eq_true.mp (Bool.and_eq_true_iff.mp quiet).2 entry listed
  simp only [World.isReady, Bool.not_or, Bool.and_eq_true, Bool.not_eq_true', beq_eq_false_iff_ne]
    at waits
  refine ⟨waits.1.2, fun wake due => ?_⟩
  have late := waits.2
  rw [due] at late
  simpa using late

/-- What is still to come is not before the present time. When there is nothing to do at present, it
is after it. -/
theorem Stands.isFrom {acts : Nat → List (Sighting κ)} (stands : C.Stands c m acts) (rounds : Nat) :
    IsFrom m.world.clock (acts rounds) ∧
      (m.isQuiet = true → IsFrom (m.world.clock + 1) (acts rounds)) := by
  have busy {f : Frame σ κ} (on : f ∈ m.stack) (quiet : m.isQuiet = true) : False := by
    simp [isQuiet, isIdle_of_mem_stack on] at quiet
  cases stands with
  | @suspended s time record pause run listed heeds due knows =>
    have later := C.isFrom_waiting s time record pause rounds
    rw [run.clock]
    refine ⟨later.mono ?_, fun quiet => ?_⟩
    · cases wakes : pause.wakeTime with
      | none => exact Nat.le_refl time
      | some wake => exact due wake wakes
    · obtain ⟨begun, late⟩ := clock_lt_of_quiet quiet listed
      cases wakes : pause.wakeTime with
      | some wake =>
        rw [wakes] at later
        exact later.mono (run.clock ▸ late wake wakes)
      | none =>
        cases pause with
        | fresh => exact absurd rfl begun
        | sleeping wake => simp [Pause.wakeTime] at wakes
        | fetching turn wake =>
          obtain rfl : wake = none := wakes
          simp [waiting, IsFrom]
  | @turn s time record point run above heeds fits =>
    rw [run.clock]
    exact ⟨C.isFrom_after s time record point rounds,
      fun quiet => (busy (above.mem_stack List.mem_cons_self) quiet).elim⟩
  | announcing name holds above heeds dead =>
    rw [holds.clock]
    exact ⟨.cons (Nat.le_refl _) (by simp [IsFrom]),
      fun quiet => (busy (above.mem_stack List.mem_cons_self) quiet).elim⟩
  | _ => simp [IsFrom]

theorem time_of_sighting? {x : Sighting κ} (seen : C.sighting? m = some x) :
    x.time = m.world.clock := by
  rw [sighting?] at seen
  split at seen
  · split at seen
    · rw [← Option.some.inj seen]
    · simp at seen
  · simp at seen

end Course

namespace Machine

variable {C : Course κ} {c : Consumer σ κ} {given : Code σ κ → Prop} {m₀ m : Machine σ κ}
  {states : List (Machine σ κ)}

/-- What has been seen in a run is not after the present time. -/
theorem Run.time_le (run : Run c given m₀ states m) :
    ∀ x ∈ C.sightings states, x.time ≤ m.world.clock := by
  induction run with
  | start => simp [Course.sightings]
  | move run next ih =>
    intro x mem
    rw [C.sightings_concat, List.mem_append] at mem
    rcases mem with before | now
    · exact Nat.le_trans (ih x before) next.clock_le
    · exact Nat.le_of_eq (Course.time_of_sighting? (Option.mem_toList.mp now))

/-- Along a run a session goes on in its course. -/
theorem Run.stands {acts : Nat → List (Sighting κ)} (observed : C.IsObserved c) (sound : m₀.Sound)
    (stands : C.Stands c m₀ acts) (run : Run c (Code.IsWithin C.others) m₀ states m)
    (executor : m.world.hasExecutor = true) (first : C.IsFollowed c m₀)
    (follows : ∀ m₁ ∈ states, C.IsFollowed c m₁) :
    ∃ left begun, C.Stands c m left ∧
      ∀ rounds, acts (rounds + begun) = C.sightings states ++ left rounds := by
  suffices all : m.Sound ∧ C.IsFollowed c m ∧ ∃ left begun, C.Stands c m left ∧
      ∀ rounds, acts (rounds + begun) = C.sightings states ++ left rounds from all.2.2
  -- The induction also has to know that the last state is sound and that the fetcher follows the
  -- course there, since both are about the state in which the next move begins.
  induction run with
  | start => exact ⟨sound, first, acts, 0, stands, fun _ => rfl⟩
  | @move states m₁ m₂ run next ih =>
    obtain ⟨sound₁, followed, left, begun, stands₁, seen⟩ :=
      ih (next.hasExecutor executor) fun m mem => follows m (List.mem_append_left _ mem)
    obtain ⟨left', more, stands₂, goes⟩ := stands₁.move observed sound₁ next executor followed
    refine ⟨next.sound sound₁, follows m₂ (List.mem_append_right _ (List.mem_singleton.mpr rfl)),
      left', more + begun, stands₂, fun rounds => ?_⟩
    calc acts (rounds + (more + begun))
        = C.sightings states ++ left (rounds + more) := by rw [← Nat.add_assoc, seen]
      _ = C.sightings states ++ ((C.sighting? m₂).toList ++ left' rounds) := by rw [goes]
      _ = C.sightings (states ++ [m₂]) ++ left' rounds := by
        rw [C.sightings_concat, List.append_assoc]

/-- From its first turn on a session does exactly what its course says, if the consumer leaves it
alone and the executor stays. What has been seen of it is a beginning of the course, no act of which
is after the present time; and what is still to come is not before the present time, and after it
when there is nothing to do at present. -/
theorem Run.follows_course {s : SessionTask κ} {responses : Nat → Response} (reach : Reachable c m₀)
    (heeds : m₀.Heeds (m₀.course s responses).others) (listed : ⟨s, .fresh⟩ ∈ m₀.world.suspended)
    (lives : m₀.world.lives s.name = true) (observed : (m₀.course s responses).IsObserved c)
    (run : Run c (Code.IsWithin (m₀.course s responses).others) m₀ states m)
    (executor : m.world.hasExecutor = true)
    (follows : ∀ m₁ ∈ states, (m₀.course s responses).IsFollowed c m₁) :
    ∃ enough, ∀ rounds ≥ enough, ∃ left,
      (m₀.course s responses).trace rounds (s.calls + 1) m₀.world.clock
          ((m₀.course s responses).record m₀.world) =
        (m₀.course s responses).sightings states ++ left ∧
      (∀ x ∈ (m₀.course s responses).sightings states, x.time ≤ m.world.clock) ∧
      ∀ x ∈ left, m.world.clock ≤ x.time ∧ (m.isQuiet = true → m.world.clock < x.time) := by
  generalize course : m₀.course s responses = C at *
  have session : C.session = s.name := by rw [← course, Machine.course]
  have fetcher : C.fetcher = s.fetcher := by rw [← course, Machine.course]
  have settings : C.settings = (m₀.tracker s.tracker).settings := by rw [← course, Machine.course]
  have inside : s.tracker < m₀.world.trackers.length := World.inside_of_lives lives
  have runBy : C.IsRunBy s m₀.world.clock (C.record m₀.world) m₀.world := by
    refine ⟨⟨rfl, ?_, ?_, rfl⟩, session.symm, fetcher.symm, session ▸ lives⟩
    · rw [session]
      exact inside
    · rw [session, settings]
      rfl
  have stands : C.Stands c m₀ (C.trace · (s.calls + 1) m₀.world.clock (C.record m₀.world)) :=
    .suspended runBy listed heeds nofun (.inl rfl)
  have first : C.IsFollowed c m₀ := by
    intro other turn rest r stack control name
    refine absurd ?_ (runBy.away reach.sound listed)
    rw [stack, List.flatMap_cons]
    exact List.mem_append_left _ (List.mem_singleton.mpr name.symm)
  obtain ⟨left, begun, stands, seen⟩ := run.stands observed reach.sound stands executor first follows
  refine ⟨begun, fun rounds enough => ⟨left (rounds - begun), ?_, run.time_le, fun x mem => ?_⟩⟩
  · rw [← seen, Nat.sub_add_cancel enough]
  · have later := stands.isFrom (rounds - begun)
    exact ⟨later.1 x mem, fun quiet => later.2 quiet x mem⟩

/-- The first request takes a while and brings progress, the second one fails, and the third one
brings completion after others have had their turn. -/
def script : Nat → Response
  | 1 => ⟨[some 3], some (.ok { status := .processing })⟩
  | 2 => ⟨[], some (.error .timeout)⟩
  | _ => ⟨[none], some (.ok { status := .completed })⟩

/-- A consumer whose fetchers follow the script, and whose callback `1` keeps a record of another
task. -/
def bookkeeper : Consumer Unit Nat where
  react label _ :=
    match label with
    | 1 => .call (.add 0 { id := "journal", kind := .analysis }) fun _ => .done
    | _ => .done
  proceed _ request turn _ := (script request.number).progress turn
  supply _ _ _ := none

/-- A session that has not had a turn yet. -/
def unpolled : SessionTask Nat := { tracker := 0, id := "job", serial := 1, fetcher := 0 }

/-- It has just been started. -/
def started : Machine Unit Nat :=
  (idle () (.blank .inMemory 0 true)).call bookkeeper <|
    .call (.openTracker "tasks" ⟨20, 50⟩) fun _ =>
    .call (.configure 0 { hooks := { statusChange := some 1, complete := some 2, error := some 3 } })
      fun _ =>
    .call (.add 0 { id := "job", kind := .analysis }) fun _ =>
    .call (.start 0 "job" 0) fun _ => .done

private theorem bookkeeper_observes : (started.course unpolled script).IsObserved bookkeeper where
  others label occasion := by
    rw [bookkeeper]
    dsimp only
    split
    · exact ⟨by simp [Call.IsWithin, Course.others, course, unpolled, SessionTask.name],
        fun _ => trivial⟩
    · trivial
  fetcher request turn := trivial
  hooks label occasion _ := by
    rw [bookkeeper]
    dsimp only
    split
    · exact fun _ => trivial
    · trivial

/-- This session goes through its course to the end, while its callback keeps the record of another
task. -/
theorem follows_course_completed :
    started.world.lives unpolled.name = true ∧
      (started.advance bookkeeper 100).isQuiet = true ∧
      ∃ states, Run bookkeeper (Code.IsWithin (started.course unpolled script).others) started states
          (started.advance bookkeeper 100) ∧
        ∃ enough, ∀ rounds ≥ enough, ∃ left,
          (started.course unpolled script).trace rounds 1 0
              ((started.course unpolled script).record started.world) =
            (started.course unpolled script).sightings states ++ left ∧
          (∀ x ∈ (started.course unpolled script).sightings states,
            x.time ≤ (started.advance bookkeeper 100).world.clock) ∧
          ∀ x ∈ left, (started.advance bookkeeper 100).world.clock ≤ x.time ∧
            ((started.advance bookkeeper 100).isQuiet = true →
              (started.advance bookkeeper 100).world.clock < x.time) := by
  have reach : Reachable bookkeeper started := ⟨(), .inMemory, 0, true, call_leads trivial⟩
  have lives : started.world.lives unpolled.name = true := by decide +kernel
  have listed : (⟨unpolled, .fresh⟩ : Suspended Nat) ∈ started.world.suspended :=
    List.mem_singleton.mpr rfl
  obtain ⟨states, run⟩ : Leads bookkeeper (Code.IsWithin (started.course unpolled script).others)
    started _ := started.advance_leads 100
  exact ⟨lives, by decide +kernel, states, run,
    run.follows_course reach (heeds_of_isIdle (by decide +kernel)) listed lives bookkeeper_observes
      (by decide +kernel) fun _ _ _ _ _ _ _ _ _ => rfl⟩

end Machine

end TaskWatch
