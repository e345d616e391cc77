import TaskWatch.Proofs.Run.Turnover

/-!
# Turns of a session

When a session goes on, it does one of ten things: it is over, it is suspended, it lets its fetcher
work, it gives up a request, it writes a status, it calls one of its callbacks, or it stops itself.
What it may do depends on where it stands: which report it deals with, whether the callback for the
end of its job has returned, and whether something keeps it from going on. Each function of the
session has one lemma that says so.

## Main definitions

* `Grounds` — what a session goes by; `Point.grounds` — and where it stands.
* `Machine.Turn` — what a session does.
* `Machine.Attests` — what holds of a session that has just come to stand on a frame.

## Main results

* `Machine.continueSession_turn`, `Machine.finish_turn` — a session that goes on after what ran
  inside its turn has returned or panicked.
* `Machine.wake_turn`, `Machine.abandon_turn` — a session that the executor gives a turn, or gives
  up.
* `Machine.Turn.frame` — what stands on the frames that a session leaves behind.
-/

namespace TaskWatch

variable {σ κ : Type}

/-- Whether a callback is the one for the end of a job. -/
def Occasion.isVerdict : Occasion → Bool
  | .completed _ _ | .failed _ _ => true
  | _ => false

/-- What a session goes by when it goes on. -/
structure Grounds (κ : Type) where
  /-- The reports that it deals with, and the callbacks that it was to call then. -/
  reports : Report → Hooks κ → Prop := fun _ _ => False
  /-- The callback for the end of its job has returned, and it is to end for this reason. -/
  handled : StopReason → Prop := fun _ => False
  /-- It cannot go on. -/
  breaks : Prop := False

/-- What a session goes by when what ran inside its turn has returned. -/
def Point.grounds (c : Consumer σ κ) (m : Machine σ κ) (s : SessionTask κ) : Point κ → Grounds κ
  | .fetching turn =>
    { reports := fun report hooks =>
        c.proceed s.fetcher (m.request s) turn m.memory = .answer (.ok report) ∧
          hooks = (m.tracker s.tracker).settings.hooks }
  | .recorded report hooks | .changed report hooks =>
    { reports := fun report' hooks' => report' = report ∧ hooks' = hooks }
  | .concluded reason => { handled := (· = reason) }
  | .ending | .dropping => { breaks := True }
  | .failed | .aborting => {}

namespace Machine

/-- What a session does when it goes on. -/
inductive Turn (g : Grounds κ) (S : SessionName) (m : Machine σ κ) : Machine σ κ → Prop
  /-- Its task is over. -/
  | ends : Turn g S m (m.reply .unit)
  /-- It is suspended. -/
  | rests {s} (own : s.name = S) (pause : Pause) : Turn g S m (m.suspend s pause)
  /-- Its fetcher works. -/
  | asks {s} (own : s.name = S) (turn : Nat) : Turn g S m (m.fetch s turn)
  /-- Its request is given up, since it has ended or the executor has gone away. -/
  | drops {s} (own : s.name = S)
      (idle : m.world.lives S = true → m.world.hasExecutor = false) : Turn g S m (m.dropFetch s)
  /-- It writes the status of a report. -/
  | writes {s report hooks event} (own : s.name = S) (reported : g.reports report hooks)
      (counted : ((m.tracker s.tracker).store.tasks.update s.id (.ofStatus report.status)).event =
        some event) :
      Turn g S m
        (((m.withWorld (m.world.after (.patched s.tracker s.id (.ofStatus report.status)))).push
          (.session s (.recorded report hooks))).tell s.tracker (.store event))
  /-- It calls the callback for a new status. -/
  | tells {s report hooks label} (own : s.name = S) (reported : g.reports report hooks) :
      Turn g S m ((m.push (.session s (.changed report hooks))).invoke label
        (.statusChanged s.id report.status))
  /-- It calls the callback for a request that has failed. -/
  | complains {s label e} (own : s.name = S) :
      Turn g S m ((m.push (.session s .failed)).invoke label (.fetchFailed s.id e))
  /-- It calls the callback for the end of its job. -/
  | handles {s report hooks label reason} (own : s.name = S) (reported : g.reports report hooks)
      (verdict : report.status.verdict? = some reason) (hook : hooks.handler? reason = some label) :
      Turn g S m ((m.push (.session s (.concluded reason))).invoke label (report.conclusion s.id))
  /-- It stops itself, because its job has ended. -/
  | concludes {s reason} (own : s.name = S)
      (ends : g.handled reason ∨ ∃ report hooks, g.reports report hooks ∧
        report.status.verdict? = some reason ∧ hooks.handler? reason = none) :
      Turn g S m (m.conclude s reason)
  /-- It stops itself, because it cannot go on. -/
  | aborts {s} (own : s.name = S) (lives : m.world.lives S = true) (breaks : g.breaks) :
      Turn g S m
        ((m.push (.session s .aborting)).stopSession s.tracker s.id (some s.serial) .aborted)

variable {g : Grounds κ} {S : SessionName} {m m' : Machine σ κ} {s : SessionTask κ}

/-! ### Functions of the session -/

theorem finish_turn (own : s.name = S) (breaks : m.world.lives S = true → g.breaks) :
    Turn g S m (m.finish s) := by
  rw [finish]
  split
  · next lives =>
    have lives : m.world.lives S = true := own ▸ lives
    exact .aborts own lives (breaks lives)
  · exact .ends

theorem nextRequest_turn (own : s.name = S) : Turn g S m (m.nextRequest s) := by
  rw [nextRequest]
  split
  · exact .asks (s := { s with calls := s.calls + 1 }) own 0
  · next dead =>
    subst own
    exact finish_turn rfl fun lives => absurd lives dead

theorem Responds.turn {report : Report} {hooks : Hooks κ} {seen : List (Option Status)}
    (responds : Responds m s report hooks seen m') (own : s.name = S)
    (reported : g.reports report hooks) : Turn g S m m' := by
  cases responds with
  | ends ended => exact .ends
  | tells noted hook => exact .tells (s := { s with last := some report.status }) own reported
  | @sleeps last noted undecided => exact .rests (s := { s with last }) own _
  | @handles last label reason noted verdict hook =>
    exact .handles (s := { s with last }) own reported verdict hook
  | @concludes last reason noted verdict unset =>
    exact .concludes (s := { s with last }) own (.inr ⟨report, hooks, reported, verdict, unset⟩)

theorem Receives.turn {result : Except FetchError Report} (receives : Receives m s result m')
    (own : s.name = S) (reported : ∀ report, result = .ok report →
      g.reports report (m.tracker s.tracker).settings.hooks) : Turn g S m m' := by
  cases receives with
  | ends ended => exact .ends
  | writes lives new counted => exact .writes own (reported _ rfl) counted
  | responds lives responds => exact responds.turn own (reported _ rfl)
  | complains lives uncancelled hook => exact .complains own
  | sleeps lives => exact .rests own _

/-- A session that stops itself after a report ends at most once: when it goes on from there, it may
only find that it has ended. -/
theorem continueSession_turn (m : Machine σ κ) (c : Consumer σ κ) (s : SessionTask κ)
    (point : Point κ) : Turn (point.grounds c m s) s.name m (m.continueSession c s point) := by
  cases point with
  | fetching turn =>
    rw [continueSession]
    split
    · next result answers =>
      refine (m.receive_receives s result).turn rfl ?_
      rintro report rfl
      exact ⟨answers, rfl⟩
    · exact .rests rfl _
    · exact .rests rfl _
    · exact .rests rfl _
  | recorded report hooks => exact (m.changeStatus_responds s report hooks).turn rfl ⟨rfl, rfl⟩
  | changed report hooks => exact (m.afterStatus_responds s report hooks).turn rfl ⟨rfl, rfl⟩
  | concluded reason => exact .concludes rfl (.inl rfl)
  | failed => exact .rests rfl _
  | ending => exact finish_turn rfl fun _ => trivial
  | dropping => exact finish_turn rfl fun _ => trivial
  | aborting => exact .ends

/-- A session that gets a turn from the executor makes a request, goes on with one, or is over. -/
theorem wake_turn (m : Machine σ κ) (entry : Suspended κ) :
    Turn {} entry.task.name m (m.wake entry) := by
  rw [wake]
  dsimp only
  split
  · let last := ((m.tracker entry.task.tracker).store.tasks.find? entry.task.id).map Task.status
    exact nextRequest_turn (s := { entry.task with last }) rfl
  · split
    · exact .asks rfl _
    · next dead => exact .drops rfl fun lives => absurd lives dead
  · exact nextRequest_turn rfl

/-- A session that is given up gives up its request or ends, unless it has not had a turn yet. -/
theorem abandon_turn (closed : m.world.hasExecutor = false) (entry : Suspended κ) :
    Turn { breaks := ∃ until_, entry.pause = .sleeping until_ } entry.task.name m
      (m.abandon entry) := by
  rw [abandon]
  split
  · exact .ends
  · exact .drops rfl fun _ => closed
  · next until_ sleeps => exact finish_turn rfl fun _ => ⟨until_, sleeps⟩

/-! ### What a session leaves behind -/

/-- What holds of a session that has just come to stand on a frame. Before a session waits for the
callback for the end of its job, this is called. -/
def Attests (m : Machine σ κ) (s : SessionTask κ) : Point κ → Prop
  | .ending | .aborting => m.world.lives s.name = false
  | .dropping => m.world.lives s.name = true → m.world.hasExecutor = false
  | .concluded reason => ∃ (label : κ) (report : Report) (rest : List (Frame σ κ)),
      m.control = .calling label (report.conclusion s.id) ∧
        m.stack = .session s (.concluded reason) :: rest ∧
        report.status.verdict? = some reason
  | _ => True

/-- Stopping a session gives no session its turn. -/
private theorem mem_stopSession {number : Nat} {id : TaskId} {only : Option Serial}
    {reason : StopReason} {point : Point κ}
    (mem : .session s point ∈ (m.stopSession number id only reason).stack) :
    .session s point ∈ m.stack := by
  obtain ⟨new, d, grows⟩ : Extends (fun _ _ => True) [] m (m.stopSession number id only reason) :=
    stopSession_extends fun _ _ _ => trivial
  rw [grows.stack] at mem
  rcases List.mem_append.mp mem with new | old
  · exact absurd (grows.turns s point new) List.not_mem_nil
  · exact old

private theorem Attests.of_mem_cons {t : SessionTask κ} {point p : Point κ}
    {rest : List (Frame σ κ)} (attests : m'.Attests t p)
    (mem : .session s point ∈ .session t p :: rest) :
    .session s point ∈ rest ∨ m'.Attests s point := by
  rcases List.mem_cons.mp mem with same | old
  · obtain ⟨rfl, rfl⟩ := Frame.session.inj same
    exact .inr attests
  · exact .inl old

/-- A session in its turn stands where it stood before, or it has just come to stand there. -/
theorem Turn.frame (turn : Turn g S m m') {point : Point κ} (mem : .session s point ∈ m'.stack) :
    .session s point ∈ m.stack ∨ m'.Attests s point := by
  cases turn with
  | ends => exact .inl mem
  | rests own pause => exact .inl mem
  | @asks t own turn => exact Attests.of_mem_cons (t := t) (p := .fetching turn) trivial mem
  | @drops t own idle =>
    subst own
    exact Attests.of_mem_cons (t := t) (p := .dropping) idle mem
  | @writes t report hooks event own reported counted =>
    exact Attests.of_mem_cons (t := t) (p := .recorded report hooks) trivial mem
  | @tells t report hooks label own reported =>
    exact Attests.of_mem_cons (t := t) (p := .changed report hooks) trivial mem
  | @complains t label e own => exact Attests.of_mem_cons (t := t) (p := .failed) trivial mem
  | @handles t report hooks label reason own reported verdict hook =>
    exact Attests.of_mem_cons (t := t) (p := .concluded reason)
      ⟨label, report, m.stack, rfl, rfl, verdict⟩ mem
  | @concludes t reason own ends =>
    exact Attests.of_mem_cons (t := t) (p := .ending) (lives_stopSession _ t reason)
      (mem_stopSession mem)
  | @aborts t own lives breaks =>
    exact Attests.of_mem_cons (t := t) (p := .aborting) (lives_stopSession _ t .aborted)
      (mem_stopSession mem)

theorem not_isVerdict_stopSession {number : Nat} {id : TaskId} {only : Option Serial}
    {reason : StopReason} {label : κ} {occasion : Occasion}
    (control : (m.stopSession number id only reason).control = .calling label occasion) :
    occasion.isVerdict = false := by
  obtain still | ⟨serial, _, ended | ⟨other, ended⟩⟩ := m.stopSession_cases number id only reason
  · rw [still] at control
    exact absurd control (by simp [reply])
  · rw [ended] at control
    exact absurd control (by simp [announce, tell])
  · rw [ended] at control
    obtain ⟨_, rfl⟩ := Control.calling.inj control
    rfl

/-- A session that calls the callback for the end of its job waits for it to return. -/
theorem Turn.verdict (turn : Turn g S m m') {label : κ} {occasion : Occasion}
    (control : m'.control = .calling label occasion) (verdict : occasion.isVerdict = true) :
    ∃ s reason, s.name = S ∧ m'.stack = .session s (.concluded reason) :: m.stack := by
  have never : occasion.isVerdict = false →
      ∃ s reason, s.name = S ∧ m'.stack = .session s (.concluded reason) :: m.stack :=
    fun quiet => absurd verdict (Bool.eq_false_iff.mp quiet)
  cases turn with
  | ends => exact absurd control (by simp [reply])
  | rests own pause => exact absurd control (by simp [suspend, reply])
  | asks own turn => exact never ((Control.calling.inj control).2 ▸ rfl)
  | drops own idle => exact never ((Control.calling.inj control).2 ▸ rfl)
  | writes own reported counted => exact absurd control (by simp [tell])
  | tells own reported => exact never ((Control.calling.inj control).2 ▸ rfl)
  | complains own => exact never ((Control.calling.inj control).2 ▸ rfl)
  | @handles s report hooks label reason own reported verdict hook => exact ⟨s, reason, own, rfl⟩
  | concludes own ends => exact never (not_isVerdict_stopSession control)
  | aborts own lives breaks => exact never (not_isVerdict_stopSession control)

/-- In a step a session goes on, or none does. -/
theorem step_turn_or_foreign (m : Machine σ κ) (c : Consumer σ κ) :
    (∃ s point g, .session s point ∈ m.taken ∧ Turn g s.name m.below (m.step c)) ∨
      ∀ f ∈ m.taken, f.isSession = false := by
  by_cases own : ∃ s point, .session s point ∈ m.taken
  · obtain ⟨s, point, mem⟩ := own
    left
    rcases step_of_mem_taken mem c with ⟨r, goes⟩ | goes
    · exact ⟨s, point, point.grounds c m.below s, mem, goes ▸ m.below.continueSession_turn c s point⟩
    · rw [goes, unwind_session]
      exact ⟨s, point, { breaks := True }, mem, finish_turn rfl fun _ => trivial⟩
  · refine .inr fun f mem => ?_
    cases f with
    | session s point => exact absurd ⟨s, point, mem⟩ own
    | _ => rfl

variable {c : Consumer σ κ} {given : Code σ κ → Prop}

/-- A session in its turn has stood there before the move, or it has just come to stand there. -/
theorem Move.frame (move : Move c given m m') {point : Point κ}
    (mem : .session s point ∈ m'.stack) : .session s point ∈ m.stack ∨ m'.Attests s point := by
  cases move.happens with
  | step busy =>
    have below : ∀ {f : Frame σ κ}, f ∈ m.below.stack → f ∈ m.stack := fun on => by
      rw [m.stack_eq]
      exact List.mem_append_right _ on
    rcases m.step_turn_or_foreign c with ⟨t, place, g, _, turn⟩ | nobody
    · exact (turn.frame mem).imp_left below
    · obtain ⟨new, stack, foreign⟩ := step_foreign nobody c
      rw [stack] at mem
      rcases List.mem_append.mp mem with new | old
      · exact absurd (foreign _ new) (by simp [Frame.isSession])
      · exact .inl (below old)
  | wake idle listed ready => exact (wake_turn _ _).frame mem
  | @abandon before entry after idle closed listed =>
    let w := { m.world with suspended := before ++ after }
    exact (abandon_turn (m := m.withWorld w) closed entry).frame mem
  | idles idles =>
    rw [idles.stack] at mem
    exact absurd mem List.not_mem_nil

end Machine

end TaskWatch
