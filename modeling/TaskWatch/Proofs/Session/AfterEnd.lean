import Mathlib.Data.List.Nodup
import TaskWatch.Proofs.Session.Shelter
import TaskWatch.Proofs.Run.Executor

/-!
# Sessions that have ended

A session may be ended at any moment: while it is suspended, while its fetcher works, and from
inside the listeners and callbacks that it calls itself. Once it has ended it writes nothing, makes
no request and calls no lifecycle callback, with one exception. A session that is ended while
listeners are told of a status which it has just written still calls the callback for this status:
between the write and the callback it does not look whether it lives.

## Main definitions

* `Machine.OwnMove` — the moves in which a session itself goes on.
* `Machine.lifecycleCalls` — the lifecycle callback that a session calls at this moment.
* `Machine.unsaid` — the callbacks for statuses that a session has written and not yet reported.

## Main results

* `Machine.lifecycle_after_end` — the lifecycle callbacks that an ended session calls are exactly
  those for statuses that it had written before.
* `Machine.nothing_written_after_end` — an ended session writes nothing and makes no request.
-/

namespace TaskWatch

variable {σ κ : Type}

/-- Whether a session works at its task: its fetcher is called, or it has written to the store. -/
def Act.isWork : Act κ → Bool
  | calls _ occasion => occasion.isFetching
  | tells _ (.store _) => true
  | tells _ (.session _) => false

/-- The callback that the session with a name still has to call from this frame: it has written a
status, and the callback for it is set. -/
def Frame.unsaid (S : SessionName) : Frame σ κ → List Occasion
  | session s (.recorded report hooks) =>
    if s.name = S ∧ hooks.statusChange.isSome then [.statusChanged s.id report.status] else []
  | _ => []

namespace Machine

variable {m m' : Machine σ κ} {c : Consumer σ κ} {S : SessionName}

/-- The moves in which a session itself goes on: after what ran inside its turn, or with a new turn.
-/
inductive OwnMove (c : Consumer σ κ) (S : SessionName) : Machine σ κ → Machine σ κ → Prop
  /-- What ran inside its turn has ended. -/
  | resumed {m s point rest r} (own : s.name = S) (stack : m.stack = .session s point :: rest)
      (control : m.control = .returned r) : OwnMove c S m (m.step c)
  /-- What ran inside its turn has panicked. -/
  | unwound {m s point rest} (own : s.name = S) (stack : m.stack = .session s point :: rest)
      (control : m.control = .unwinding) : OwnMove c S m (m.step c)
  /-- It is given a turn. -/
  | woken {m before entry after} (own : entry.task.name = S)
      (listed : m.world.suspended = before ++ entry :: after) :
      OwnMove c S m ((m.withWorld { m.world with suspended := before ++ after }).wake entry)
  /-- It is given up. -/
  | abandoned {m before entry after} (own : entry.task.name = S)
      (listed : m.world.suspended = before ++ entry :: after) :
      OwnMove c S m ((m.withWorld { m.world with suspended := before ++ after }).abandon entry)

/-- The lifecycle callback that a session calls at this moment, if it calls one. -/
def lifecycleCalls (m : Machine σ κ) (S : SessionName) : List Occasion :=
  match m.act? with
  | some (T, .calls _ occasion) => if T = S ∧ occasion.isLifecycle = true then [occasion] else []
  | _ => []

/-- The callbacks for statuses that a session has written and not yet reported. -/
def unsaid (m : Machine σ κ) (S : SessionName) : List Occasion := m.stack.flatMap (Frame.unsaid S)

/-! ### Turns of a session that has ended -/

section Ended

variable {s : SessionTask κ}

/-- What an ended session does when it goes on: it comes to rest, and all stores and the storage
stay as they are. -/
structure Rests (m m' : Machine σ κ) : Prop where
  control : ∃ r, m'.control = .returned r
  trackers : m'.world.trackers = m.world.trackers
  storage : m'.world.storage = m.world.storage
  stack : ∃ new, m'.stack = new ++ m.stack ∧ ∀ f ∈ new, f.isRecorded = false

private theorem rests_reply (m : Machine σ κ) (r : Reply) : Rests m (m.reply r) :=
  ⟨⟨r, rfl⟩, rfl, rfl, [], rfl, by simp⟩

private theorem rests_suspend (m : Machine σ κ) (s : SessionTask κ) (pause : Pause) :
    Rests m (m.suspend s pause) :=
  ⟨⟨.unit, rfl⟩, rfl, rfl, [], rfl, by simp⟩

private theorem conclude_of_ended (ended : m.world.lives s.name = false) (reason : StopReason) :
    Rests m (m.conclude s reason) := by
  rw [conclude, stopSession_of_ended (m := m.push (.session s .ending)) ended]
  exact ⟨⟨_, rfl⟩, rfl, rfl, [.session s .ending], rfl, by simp [Frame.isRecorded]⟩

private theorem afterStatus_of_ended (ended : m.world.lives s.name = false) (report : Report)
    (hooks : Hooks κ) : m.afterStatus s report hooks = m.reply .unit :=
  (if_neg (Bool.eq_false_iff.mp ended)).trans (finish_of_ended ended)

private theorem nextRequest_of_ended (ended : m.world.lives s.name = false) :
    m.nextRequest s = m.reply .unit :=
  (if_neg (Bool.eq_false_iff.mp ended)).trans (finish_of_ended ended)

private theorem receive_of_ended (ended : m.world.lives s.name = false)
    (result : Except FetchError Report) : m.receive s result = m.reply .unit :=
  (if_neg (Bool.eq_false_iff.mp ended)).trans (finish_of_ended ended)

/-- An ended session that goes on comes to rest, unless it has written a status and still has the
callback for it to call. -/
theorem continueSession_of_ended (ended : m.world.lives s.name = false) (c : Consumer σ κ)
    (point : Point κ) :
    (∃ report hooks label, point = .recorded report hooks ∧ hooks.statusChange = some label ∧
      m.continueSession c s point =
        (m.push (.session { s with last := some report.status } (.changed report hooks))).invoke
          label (.statusChanged s.id report.status)) ∨
    Rests m (m.continueSession c s point) ∧
      Frame.unsaid s.name (.session s point : Frame σ κ) = [] := by
  cases point with
  | fetching turn =>
    refine .inr ⟨?_, rfl⟩
    rw [continueSession]
    split
    · rw [receive_of_ended ended]
      exact rests_reply m _
    · exact rests_suspend m s _
    · exact rests_suspend m s _
    · exact rests_suspend m s _
  | recorded report hooks =>
    cases hook : hooks.statusChange with
    | some label =>
      refine .inl ⟨report, hooks, label, rfl, hook, ?_⟩
      simp only [continueSession, changeStatus, hook]
    | none =>
      refine .inr ⟨?_, by simp [Frame.unsaid, hook]⟩
      simp only [continueSession, changeStatus, hook]
      rw [afterStatus_of_ended (s := { s with last := some report.status }) ended]
      exact rests_reply m _
  | changed report hooks =>
    refine .inr ⟨?_, rfl⟩
    rw [continueSession, afterStatus_of_ended ended]
    exact rests_reply m _
  | concluded reason => exact .inr ⟨conclude_of_ended ended reason, rfl⟩
  | failed => exact .inr ⟨rests_suspend m s _, rfl⟩
  | ending =>
    refine .inr ⟨?_, rfl⟩
    rw [continueSession, finish_of_ended ended]
    exact rests_reply m _
  | dropping =>
    refine .inr ⟨?_, rfl⟩
    rw [continueSession, finish_of_ended ended]
    exact rests_reply m _
  | aborting => exact .inr ⟨rests_reply m _, rfl⟩

/-- An ended session that is given a turn comes to rest or gives up its request. -/
private theorem wake_of_ended {entry : Suspended κ} (ended : m.world.lives entry.task.name = false) :
    Rests m (m.wake entry) ∨ m.wake entry = m.dropFetch entry.task := by
  rw [wake]
  dsimp only
  split
  · let last := ((m.tracker entry.task.tracker).store.tasks.find? entry.task.id).map Task.status
    rw [nextRequest_of_ended (s := { entry.task with last }) ended]
    exact .inl (rests_reply m _)
  · exact .inr (if_neg (Bool.eq_false_iff.mp ended))
  · rw [nextRequest_of_ended ended]
    exact .inl (rests_reply m _)

private theorem abandon_of_ended {entry : Suspended κ}
    (ended : m.world.lives entry.task.name = false) :
    Rests m (m.abandon entry) ∨ m.abandon entry = m.dropFetch entry.task := by
  rw [abandon]
  split
  · exact .inl (rests_reply m _)
  · exact .inr rfl
  · rw [finish_of_ended ended]
    exact .inl (rests_reply m _)

end Ended

/-! ### Moves of a session that has ended -/

theorem Frame.unsaid_of_not_recorded {f : Frame σ κ} (plain : f.isRecorded = false)
    (S : SessionName) : f.unsaid S = [] := by
  cases f with
  | session s point => cases point <;> first | rfl | simp [Frame.isRecorded] at plain
  | _ => rfl

private theorem unsaid_of_not_recorded {frames : List (Frame σ κ)}
    (plain : ∀ f ∈ frames, f.isRecorded = false) (S : SessionName) :
    frames.flatMap (Frame.unsaid S) = [] :=
  List.flatMap_eq_nil_iff.mpr fun f mem => Frame.unsaid_of_not_recorded (plain f mem) S

private theorem Rests.lifecycle (rests : Rests m m') (S : SessionName) :
    m'.act? = none ∧ m'.unsaid S = m.unsaid S := by
  obtain ⟨⟨r, control⟩, _, _, new, stack, plain⟩ := rests
  refine ⟨act?_of_passive (by rw [control]; rfl), ?_⟩
  rw [unsaid, stack, List.flatMap_append, unsaid_of_not_recorded plain]
  rfl

/-- An ended session that goes on changes no store and not the storage, does not work at its task,
and calls a lifecycle callback only for a status that it had written. -/
structure GoesQuietly (S : SessionName) (m m' : Machine σ κ) : Prop where
  trackers : m'.world.trackers = m.world.trackers
  storage : m'.world.storage = m.world.storage
  work : ∀ a, m'.act? = some (S, a) → a.isWork = false
  lifecycle : m'.lifecycleCalls S ++ m'.unsaid S = m.unsaid S

private theorem lifecycleCalls_of_act?_eq_none (quiet : m.act? = none) (S : SessionName) :
    m.lifecycleCalls S = [] := by
  rw [lifecycleCalls, quiet]

private theorem dropFetch_goesQuietly {m₀ : Machine σ κ} {s : SessionTask κ}
    (trackers : m₀.world.trackers = m.world.trackers) (storage : m₀.world.storage = m.world.storage)
    (stack : m₀.stack = m.stack) : GoesQuietly S m (m₀.dropFetch s) := by
  refine ⟨trackers, storage, ?_, ?_⟩
  · rintro a ⟨⟩
    rfl
  · simp [lifecycleCalls, dropFetch, act?, push, invoke, Occasion.isLifecycle, unsaid, stack,
      Frame.unsaid]

private theorem Rests.goesQuietly {m₀ : Machine σ κ} (rests : Rests m₀ m')
    (trackers : m₀.world.trackers = m.world.trackers) (storage : m₀.world.storage = m.world.storage)
    (unsaid : m₀.unsaid S = m.unsaid S) : GoesQuietly S m m' := by
  obtain ⟨quiet, same⟩ := rests.lifecycle S
  refine ⟨rests.trackers.trans trackers, rests.storage.trans storage, ?_, ?_⟩
  · simp [quiet]
  · rw [lifecycleCalls_of_act?_eq_none quiet, same, unsaid, List.nil_append]

theorem OwnMove.goesQuietly (own : OwnMove c S m m') (ended : m.world.lives S = false)
    (sheltered : m.Sheltered) : GoesQuietly S m m' := by
  cases own with
  | @resumed s point rest r own stack control =>
    subst own
    rw [step_of_returned control stack]
    have on : m.unsaid s.name =
        Frame.unsaid s.name (.session s point : Frame σ κ) ++
          ({ m with stack := rest } : Machine σ κ).unsaid s.name := by
      rw [unsaid, stack, List.flatMap_cons]
      rfl
    obtain ⟨report, hooks, label, rfl, hook, called⟩ | ⟨rests, none⟩ :=
      continueSession_of_ended (m := { m with stack := rest }) ended c point
    · have after : resume c { m with stack := rest } r (.session s (.recorded report hooks)) = _ :=
        called
      rw [after]
      refine ⟨rfl, rfl, ?_, ?_⟩
      · rintro a ⟨⟩
        rfl
      · rw [on]
        simp [lifecycleCalls, act?, push, invoke, Occasion.isLifecycle, unsaid, Frame.unsaid, hook,
          SessionTask.name]
    · exact rests.goesQuietly rfl rfl (by rw [on, none, List.nil_append])
  | @unwound s point rest own stack control =>
    subst own
    -- A panic does not reach a session that has a callback to call.
    have plain : (Frame.session s point : Frame σ κ).isRecorded = false := by
      refine Bool.eq_false_iff.mpr fun written => ?_
      have calm := sheltered.top (.session s point) (by simp [stack]) written
      simp [control, Control.isCalm] at calm
    rw [step_of_unwinding control stack]
    have finished : unwind { m with stack := rest } (.session s point) =
        ({ m with stack := rest } : Machine σ κ).reply .unit := by
      cases point <;> exact finish_of_ended (m := { m with stack := rest }) ended
    rw [finished]
    refine (rests_reply _ _).goesQuietly rfl rfl ?_
    rw [unsaid, unsaid, stack, List.flatMap_cons, Frame.unsaid_of_not_recorded plain,
      List.nil_append]
  | @woken before entry after own listed =>
    subst own
    rcases wake_of_ended (m := m.withWorld { m.world with suspended := before ++ after })
      ended with rests | drops
    · exact rests.goesQuietly rfl rfl rfl
    · rw [drops]
      exact dropFetch_goesQuietly rfl rfl rfl
  | @abandoned before entry after own listed =>
    subst own
    rcases abandon_of_ended (m := m.withWorld { m.world with suspended := before ++ after })
      ended with rests | drops
    · exact rests.goesQuietly rfl rfl rfl
    · rw [drops]
      exact dropFetch_goesQuietly rfl rfl rfl

/-! ### Moves of others -/

/-- In a move a session does not work at its task, and the only lifecycle callbacks that it calls
are those for statuses that it had written. -/
structure PassesBy (S : SessionName) (m m' : Machine σ κ) : Prop where
  work : ∀ a, m'.act? = some (S, a) → a.isWork = false
  lifecycle : m'.lifecycleCalls S ++ m'.unsaid S = m.unsaid S

private theorem passesBy_of_quiet (quiet : m'.act? = none) (same : m'.unsaid S = m.unsaid S) :
    PassesBy S m m' :=
  ⟨by simp [quiet], by rw [lifecycleCalls_of_act?_eq_none quiet, same, List.nil_append]⟩

/-- A session does nothing but stop unless it stands on the new frames. -/
private theorem Grows.act_of_other {tasks : Nat → TaskId → Prop} {given : List SessionName}
    {new : List (Frame σ κ)} {d : Deed κ} (grows : Grows tasks given m m' new d) (other : S ∉ given)
    {a : Act κ} (act : m'.act? = some (S, a)) :
    a.isWork = false ∧ ∀ label occasion, a = .calls label occasion → occasion.isLifecycle = false := by
  have onTop : ∀ s point rest, m'.control.isAct = true → m'.stack = .session s point :: rest →
      s.name ≠ S := by
    rintro s point rest acts stack rfl
    rw [grows.stack] at stack
    cases new with
    | nil => exact grows.top acts rfl
    | cons f others =>
      obtain ⟨rfl, _⟩ := List.cons.inj stack
      exact other (grows.turns s point List.mem_cons_self)
  rw [act?] at act
  split at act
  · next control stack =>
    exact absurd (congrArg Prod.fst (Option.some.inj act))
      (onTop _ _ _ (by rw [control]; rfl) stack)
  · obtain ⟨_, rfl⟩ := Prod.mk.inj (Option.some.inj act)
    refine ⟨rfl, ?_⟩
    rintro _ _ ⟨⟩
    rfl
  · next control stack =>
    exact absurd (congrArg Prod.fst (Option.some.inj act))
      (onTop _ _ _ (by rw [control]; rfl) stack)
  · obtain ⟨_, rfl⟩ := Prod.mk.inj (Option.some.inj act)
    refine ⟨rfl, ?_⟩
    rintro _ _ ⟨⟩
  · simp at act

private theorem Extends.passesBy {tasks : Nat → TaskId → Prop} {given : List SessionName}
    {m₀ : Machine σ κ} (h : Extends tasks given m₀ m') (other : S ∉ given)
    (same : m₀.unsaid S = m.unsaid S) : PassesBy S m m' := by
  obtain ⟨new, d, grows⟩ := h
  refine ⟨fun a act => (grows.act_of_other other act).1, ?_⟩
  have silent : m'.lifecycleCalls S = [] := by
    rw [lifecycleCalls]
    split
    · next T label occasion act =>
      refine if_neg fun ⟨own, lifecycle⟩ => ?_
      subst own
      simp [(grows.act_of_other other act).2 label occasion rfl] at lifecycle
    · rfl
  have written : new.flatMap (Frame.unsaid S) = [] := by
    refine List.flatMap_eq_nil_iff.mpr fun f mem => ?_
    cases f with
    | session s point =>
      have notOwn : s.name ≠ S := fun own => other (own ▸ grows.turns s point mem)
      cases point <;> simp [Frame.unsaid, notOwn]
    | _ => rfl
  rw [silent, unsaid, grows.stack, List.flatMap_append, written]
  exact same

/-- A step in which a session does not go on passes it by. -/
theorem step_passesBy (c : Consumer σ κ)
    (other : ∀ s point, .session s point ∈ m.taken → s.name ≠ S) : PassesBy S m (m.step c) := by
  have split : m.unsaid S = m.taken.flatMap (Frame.unsaid S) ++ m.below.unsaid S := by
    rw [unsaid, m.stack_eq, List.flatMap_append]
    rfl
  have silent : m.taken.flatMap (Frame.unsaid S) = [] := by
    refine List.flatMap_eq_nil_iff.mpr fun f mem => ?_
    cases f with
    | session s point => cases point <;> simp [Frame.unsaid, other s _ mem]
    | _ => rfl
  have same : m.below.unsaid S = m.unsaid S := by rw [split, silent, List.nil_append]
  by_cases own : S ∈ m.taken.flatMap Frame.names
  · -- Then the session is about to be handed to the executor.
    obtain ⟨f, mem, on⟩ := List.mem_flatMap.mp own
    cases f with
    | session s point => exact absurd (List.mem_singleton.mp on).symm (other s point mem)
    | spawning s =>
      obtain ⟨stack, passive⟩ := step_spawning mem c
      refine passesBy_of_quiet (act?_of_passive passive) ?_
      rw [unsaid, stack]
      exact same
    | _ => simp [Frame.names] at on
  · exact (m.step_extends_anyhow c).passesBy own same

variable {given : Code σ κ → Prop}

/-- A session goes on whose frame a step takes off the stack. -/
theorem OwnMove.of_mem_taken {s : SessionTask κ} {point : Point κ}
    (mem : .session s point ∈ m.taken) : OwnMove c s.name m (m.step c) := by
  obtain ⟨memory, world, control, stack⟩ := m
  cases control with
  | returned r =>
    cases stack with
    | nil => simp [taken] at mem
    | cons f rest => exact .resumed rfl (by rw [List.mem_singleton.mp mem]) rfl
  | unwinding =>
    cases stack with
    | nil => simp [taken] at mem
    | cons f rest => exact .unwound rfl (by rw [List.mem_singleton.mp mem]) rfl
  | _ => simp [taken] at mem

/-- In every move a session goes on, or the move passes it by. -/
theorem Move.own_or_passesBy (S : SessionName) (move : Move c given m m') :
    OwnMove c S m m' ∨ PassesBy S m m' := by
  cases move.happens with
  | step busy =>
    by_cases own : ∃ s point, .session s point ∈ m.taken ∧ s.name = S
    · obtain ⟨s, point, mem, rfl⟩ := own
      exact .inl (.of_mem_taken mem)
    · exact .inr (step_passesBy c fun s point mem same => own ⟨s, point, mem, same⟩)
  | @wake before entry after idle listed ready =>
    by_cases own : entry.task.name = S
    · exact .inl (.woken own listed)
    · refine .inr ((wake_extends_anyhow _ _).passesBy ?_ rfl)
      exact fun mem => own (List.mem_singleton.mp mem).symm
  | @abandon before entry after idle closed listed =>
    by_cases own : entry.task.name = S
    · exact .inl (.abandoned own listed)
    · refine .inr ((abandon_extends_anyhow _ _).passesBy ?_ rfl)
      exact fun mem => own (List.mem_singleton.mp mem).symm
  | idles idles =>
    refine .inr (passesBy_of_quiet idles.act? ?_)
    rw [unsaid, unsaid, idles.stack, stack_of_isIdle idles.idle]

/-! ### Runs after the end -/

/-- A session has ended: it has been created and does not live any more. -/
structure Ended (S : SessionName) (m : Machine σ κ) : Prop where
  created : S.serial < m.world.nextSerial
  dead : m.world.lives S = false

/-- A session that has ended never lives again, whatever is started under its identifier. -/
theorem Ended.move (ended : Ended S m) (move : Move c given m m') : Ended S m' where
  created := Nat.lt_of_lt_of_le ended.created move.succeeds.serials
  dead := by
    refine Bool.eq_false_iff.mpr fun living => ?_
    rcases move.succeeds.lives S living with before | ⟨new, _⟩
    · simp [ended.dead] at before
    · exact Nat.not_lt_of_le new ended.created

theorem Ended.of_lived (reach : Reachable c m) (lived : m.world.lives S = true)
    (later : Leads c given m m') (dead : m'.world.lives S = false) : Ended S m' := by
  obtain ⟨_, run⟩ := later
  exact ⟨Nat.lt_of_lt_of_le (reach.sound.given S lived) run.succeeds.serials, dead⟩

theorem Ended.passesBy (ended : Ended S m) (sheltered : m.Sheltered) (move : Move c given m m') :
    PassesBy S m m' := by
  rcases move.own_or_passesBy S with own | other
  · have quiet := own.goesQuietly ended.dead sheltered
    exact ⟨quiet.work, quiet.lifecycle⟩
  · exact other

/-- What an ended session does along a run. -/
private theorem Run.after_end {states : List (Machine σ κ)} (ended : Ended S m)
    (sheltered : m.Sheltered) (run : Run c given m states m') :
    Ended S m' ∧ m'.Sheltered ∧ (∀ m₁ ∈ states, ∀ a, m₁.act? = some (S, a) → a.isWork = false) ∧
      states.flatMap (lifecycleCalls · S) ++ m'.unsaid S = m.unsaid S := by
  induction run with
  | start => exact ⟨ended, sheltered, by simp, rfl⟩
  | @move states m₁ m₂ run next ih =>
    obtain ⟨ended₁, sheltered₁, idle, called⟩ := ih
    have passes := ended₁.passesBy sheltered₁ next
    refine ⟨ended₁.move next, next.sheltered sheltered₁, fun m₀ mem a act => ?_, ?_⟩
    · rcases List.mem_append.mp mem with mem | mem
      · exact idle m₀ mem a act
      · rw [List.mem_singleton.mp mem] at act
        exact passes.work a act
    · rw [List.flatMap_append, List.flatMap_singleton, List.append_assoc, passes.lifecycle, called]

/-- A session has one callback for a status to call at most, because it stands on one frame at
most. -/
theorem length_unsaid_le (sound : m.Sound) (S : SessionName) : (m.unsaid S).length ≤ 1 := by
  have counted : ∀ frames : List (Frame σ κ),
      (frames.flatMap (Frame.unsaid S)).length ≤ (frames.flatMap Frame.names).count S := by
    intro frames
    induction frames with
    | nil => exact Nat.le_refl 0
    | cons f rest ih =>
      rw [List.flatMap_cons, List.flatMap_cons, List.length_append, List.count_append]
      refine Nat.add_le_add ?_ ih
      cases f with
      | session s point =>
        by_cases own : s.name = S
        · cases point <;> simp [Frame.unsaid, Frame.names, own]
          split <;> simp
        · cases point <;> simp [Frame.unsaid, own]
      | _ => exact Nat.zero_le _
  refine (counted m.stack).trans ((List.nodup_iff_count_le_one.mp ?_) S)
  exact (List.nodup_append.mp sound.nodup).1

/-- After a session has ended, by a call from anywhere or by itself, it calls exactly the callbacks
for statuses that it had written before and not yet reported, of which there is one at most; all
other lifecycle callbacks are over. This holds for every run, whatever callbacks, listeners and
fetchers do. -/
theorem lifecycle_after_end {m₁ m₂ m₃ : Machine σ κ} {states : List (Machine σ κ)}
    (reach : Reachable c m₁) (lived : m₁.world.lives S = true) (later : Leads c given m₁ m₂)
    (dead : m₂.world.lives S = false) (further : Run c given m₂ states m₃) :
    states.flatMap (lifecycleCalls · S) ++ m₃.unsaid S = m₂.unsaid S ∧
      (m₂.unsaid S).length ≤ 1 := by
  obtain ⟨_, run⟩ := later
  have reach₂ := reach.run run
  exact ⟨(further.after_end (.of_lived reach lived ⟨_, run⟩ dead) reach₂.sheltered).2.2.2,
    length_unsaid_le reach₂.sound S⟩

/-- A consumer with two fetchers and a listener. The fetcher `0` reports progress at once, and the
fetcher `3` after five milliseconds; the listener `2` stops polling for the task. -/
def interrupter : Consumer Unit Nat where
  react label _ :=
    match label with
    | 2 => .call (.stop 0 "job") fun _ => .done
    | _ => .done
  proceed label _ turn _ :=
    match label, turn with
    | 3, 0 => .wait 5
    | _, _ => .answer (.ok { status := .processing })
  supply _ _ _ := none

/-- A session has been created whose first write to the store the listener will answer by stopping
it. -/
def interruptible : Machine Unit Nat :=
  (idle () (.blank .inMemory 0 true)).call interrupter <|
    .call (.openTracker "tasks" .default) fun _ =>
    .call (.configure 0 { hooks := { statusChange := some 1 } }) fun _ =>
    .call (.add 0 { id := "job", kind := .analysis }) fun _ =>
    .call (.subscribeStore 0 2) fun _ =>
    .call (.start 0 "job" 0) fun _ => .done

/-- The session has had its turn and written the status; the listener has just stopped it. -/
def interrupted : Machine Unit Nat :=
  stepTimes interrupter 8
    ((interruptible.withWorld { interruptible.world with suspended := [] ++ [] }).wake
      ⟨{ tracker := 0, id := "job", serial := 1, fetcher := 0 }, .fresh⟩)

private theorem interruptible_reachable : Reachable interrupter interruptible :=
  ⟨(), .inMemory, 0, true, call_leads trivial⟩

private theorem interruptible_leads : Leads interrupter (fun _ => True) interruptible interrupted :=
  (Move.wake rfl rfl rfl).leads.trans ⟨_, run_steps (by decide +kernel)⟩

/-- A session that a listener stops while it is told of the status that the session has just written
calls the callback for this status after the call that stopped it has returned. -/
theorem statusChanged_after_stop :
    ∃ (m₁ m₂ m₃ : Machine Unit Nat) (states : List (Machine Unit Nat)) (S : SessionName),
      Reachable interrupter m₁ ∧ m₁.world.lives S = true ∧
      Leads interrupter (fun _ => True) m₁ m₂ ∧ m₂.control = .returned (.flag true) ∧
      m₂.world.lives S = false ∧ Run interrupter (fun _ => True) m₂ states m₃ ∧
      states.flatMap (lifecycleCalls · S) = [.statusChanged "job" .processing] :=
  ⟨interruptible, interrupted, _, trail interrupter 7 interrupted, ⟨0, "job", 1⟩,
    interruptible_reachable, by decide +kernel, interruptible_leads, rfl, by decide +kernel,
    run_steps (by decide +kernel), rfl⟩

/-- What this session still had to say when it was stopped, it says. -/
theorem lifecycle_after_end_interrupted :
    interruptible.world.lives ⟨0, "job", 1⟩ = true ∧
      interrupted.world.lives ⟨0, "job", 1⟩ = false ∧
      (trail interrupter 7 interrupted).flatMap (lifecycleCalls · ⟨0, "job", 1⟩) ++
        (stepTimes interrupter 7 interrupted).unsaid ⟨0, "job", 1⟩ =
          interrupted.unsaid ⟨0, "job", 1⟩ ∧
      (interrupted.unsaid ⟨0, "job", 1⟩).length ≤ 1 :=
  ⟨by decide +kernel, by decide +kernel, lifecycle_after_end interruptible_reachable
    (by decide +kernel) interruptible_leads (by decide +kernel) (run_steps (by decide +kernel))⟩

/-- After a session has ended it makes no request and writes nothing: it does not call its fetcher,
it tells of no change, and whenever it goes on all stores and the storage stay as they are. A later
session for the same task does not change this. -/
theorem nothing_written_after_end {m₁ m₂ m₃ : Machine σ κ} {states : List (Machine σ κ)}
    (reach : Reachable c m₁) (lived : m₁.world.lives S = true) (later : Leads c given m₁ m₂)
    (dead : m₂.world.lives S = false) (further : Run c given m₂ states m₃) :
    (∀ m ∈ states, ∀ a, m.act? = some (S, a) → a.isWork = false) ∧
      ∀ m₄, OwnMove c S m₃ m₄ →
        m₄.world.trackers = m₃.world.trackers ∧ m₄.world.storage = m₃.world.storage := by
  obtain ⟨_, run⟩ := later
  obtain ⟨ended, sheltered, idle, _⟩ :=
    further.after_end (.of_lived reach lived ⟨_, run⟩ dead) (reach.run run).sheltered
  refine ⟨idle, fun m₄ own => ?_⟩
  have quiet := own.goesQuietly ended.dead sheltered
  exact ⟨quiet.trackers, quiet.storage⟩

/-- A session that waits for the answer to its first request. -/
def waiting : Machine Unit Nat :=
  ((idle () (.blank .inMemory 0 true)).call interrupter <|
    .call (.openTracker "tasks" .default) fun _ =>
    .call (.add 0 { id := "job", kind := .analysis }) fun _ =>
    .call (.start 0 "job" 3) fun _ => .done).advance interrupter 0

/-- It has been stopped, and another session has been started for its task. -/
def replaced : Machine Unit Nat :=
  waiting.call interrupter <| .call (.stop 0 "job") fun _ => .call (.start 0 "job" 3) fun _ => .done

/-- The late answer is dropped, while the other session goes on. -/
theorem nothing_written_after_end_replaced :
    waiting.world.lives ⟨0, "job", 1⟩ = true ∧ replaced.world.lives ⟨0, "job", 1⟩ = false ∧
      replaced.world.lives ⟨0, "job", 2⟩ = true ∧
      ∃ states, Run interrupter (fun _ => True) replaced states (replaced.advance interrupter 10) ∧
        (∀ m ∈ states, ∀ a, m.act? = some (⟨0, "job", 1⟩, a) → a.isWork = false) ∧
        ∀ m, OwnMove interrupter ⟨0, "job", 1⟩ (replaced.advance interrupter 10) m →
          m.world.trackers = (replaced.advance interrupter 10).world.trackers ∧
          m.world.storage = (replaced.advance interrupter 10).world.storage := by
  have lived : waiting.world.lives ⟨0, "job", 1⟩ = true := by decide +kernel
  have dead : replaced.world.lives ⟨0, "job", 1⟩ = false := by decide +kernel
  have reach : Reachable interrupter waiting :=
    ⟨(), .inMemory, 0, true, (call_leads trivial).trans (advance_leads _ 0)⟩
  obtain ⟨states, run⟩ : Leads interrupter (fun _ => True) replaced _ := replaced.advance_leads 10
  exact ⟨lived, dead, by decide +kernel, states, run,
    nothing_written_after_end reach lived (call_leads trivial) dead run⟩

end Machine

end TaskWatch
