import TaskWatch.Proofs.Run.Deed

/-!
# What a session makes of an answer

Sessions are started and stopped from many places, and a session that has an answer goes through
several functions until it does something. What this comes to is said here once, function by
function, so that later proofs go by cases on it and open none of these functions again.

## Main definitions

* `Status.verdict?`, `Hooks.handler?`, `Report.conclusion` — how a session ends after a report.
* `Machine.Responds` — what a session does with a report.
* `Machine.Receives` — what it does with an answer.

## Main results

* `Machine.startSession_cases`, `Machine.stopSession_cases` — a session is started or stopped, or
  nothing happens.
* `Machine.lives_stopSession` — a session that stops itself has ended.
* `Machine.afterStatus_responds`, `Machine.changeStatus_responds`, `Machine.receive_receives` — the
  functions that deal with an answer.
-/

namespace TaskWatch

variable {σ κ : Type}

/-- The reason for which a session ends after a report of a status. -/
def Status.verdict? : Status → Option StopReason
  | completed => some .completed
  | failed => some .failed
  | queued | processing => none

/-- The callback that is called before a session ends for a reason. -/
def Hooks.handler? (hooks : Hooks κ) : StopReason → Option κ
  | .completed => hooks.complete
  | .failed => hooks.failed
  | .requested | .aborted => Option.none

/-- Why the callback for the end of a job is called. -/
def Report.conclusion (report : Report) (id : TaskId) : Occasion :=
  match report.status with
  | .failed => .failed id report
  | _ => .completed id report

namespace Machine

variable {m m' : Machine σ κ} {s : SessionTask κ}

/-! ### Starting and stopping -/

/-- A session is started if the executor is there and the task has none. -/
theorem startSession_cases (m : Machine σ κ) (number : Nat) (id : TaskId) (fetcher : κ) :
    m.startSession number id fetcher = m.reply (.flag false) ∨
      (m.world.hasExecutor = true ∧ (m.world.tracker number).isPolling id = false) ∧
        m.startSession number id fetcher =
          ((m.withWorld (m.world.after (.began number id))).push (.spawning
            { tracker := number, id, serial := m.world.nextSerial, fetcher })).tell number
              (.session (.started id)) := by
  rw [startSession]
  split
  · exact .inl rfl
  · next free =>
    simp only [Bool.or_eq_true, Bool.not_eq_true', not_or, Bool.not_eq_false, Bool.not_eq_true]
      at free
    exact .inr ⟨free, rfl⟩

/-- A session that is stopped ends, and the callback for it comes before the announcement. -/
theorem stopSession_of_found {number : Nat} {id : TaskId} {only : Option Serial} {serial : Serial}
    (found : (m.tracker number).sessions.find? id = some serial)
    (meant : only.all (· = serial) = true) (reason : StopReason) :
    m.stopSession number id only reason =
      match ((m.world.after (.ended number id)).tracker number).settings.hooks.stopped with
      | none => announce (m.withWorld (m.world.after (.ended number id))) number id reason
      | some label =>
        ((m.withWorld (m.world.after (.ended number id))).push
          (.announcing number id reason)).invoke label (.stopped id reason) := by
  rw [stopSession, found]
  dsimp only
  rw [if_pos meant]
  rfl

/-- A session is stopped if the task has one, and it is the one that is meant. Its end is announced,
or the callback for it is called first. -/
theorem stopSession_cases (m : Machine σ κ) (number : Nat) (id : TaskId) (only : Option Serial)
    (reason : StopReason) :
    m.stopSession number id only reason = m.reply (.flag false) ∨
      ∃ serial, ((m.tracker number).sessions.find? id = some serial ∧
          only.all (· = serial) = true) ∧
        (m.stopSession number id only reason =
            announce (m.withWorld (m.world.after (.ended number id))) number id reason ∨
          ∃ label, m.stopSession number id only reason =
            ((m.withWorld (m.world.after (.ended number id))).push
              (.announcing number id reason)).invoke label (.stopped id reason)) := by
  cases found : (m.tracker number).sessions.find? id with
  | none =>
    left
    rw [stopSession, found]
  | some serial =>
    by_cases meant : only.all (· = serial) = true
    · refine .inr ⟨serial, ⟨rfl, meant⟩, ?_⟩
      rw [stopSession_of_found found meant]
      split
      · exact .inl rfl
      · exact .inr ⟨_, rfl⟩
    · left
      rw [stopSession, found]
      exact if_neg meant

theorem stopSession_of_ended (ended : m.world.lives s.name = false) (reason : StopReason) :
    m.stopSession s.tracker s.id (some s.serial) reason = m.reply (.flag false) := by
  obtain still | ⟨serial, ⟨found, meant⟩, _⟩ :=
    m.stopSession_cases s.tracker s.id (some s.serial) reason
  · exact still
  · obtain rfl : s.serial = serial := by simpa using meant
    have lives : m.world.lives s.name = true := World.lives_iff.mpr found
    exact absurd lives (Bool.eq_false_iff.mp ended)

/-- A session that lives and is stopped under its serial number ends. Then this is announced, or the
callback for it is called first. -/
theorem stopSession_of_lives (lives : m.world.lives s.name = true) (reason : StopReason) :
    m.stopSession s.tracker s.id (some s.serial) reason =
      match ((m.world.after (.ended s.tracker s.id)).tracker s.tracker).settings.hooks.stopped with
      | none => announce (m.withWorld (m.world.after (.ended s.tracker s.id))) s.tracker s.id reason
      | some label =>
        ((m.withWorld (m.world.after (.ended s.tracker s.id))).push
          (.announcing s.tracker s.id reason)).invoke label (.stopped s.id reason) :=
  have found : (m.tracker s.tracker).sessions.find? s.id = some s.serial :=
    World.lives_iff.mp lives
  stopSession_of_found found (by simp) reason

/-- A session that is stopped under its serial number has ended. -/
theorem lives_stopSession (m : Machine σ κ) (s : SessionTask κ) (reason : StopReason) :
    (m.stopSession s.tracker s.id (some s.serial) reason).world.lives s.name = false := by
  by_cases lived : m.world.lives s.name = true
  · have ended := m.world.lives_after_ended s.name
    rw [stopSession_of_lives lived]
    split
    · exact ended
    · exact ended
  · have dead := Bool.eq_false_iff.mpr lived
    rw [stopSession_of_ended dead]
    exact dead

/-! ### Reports -/

/-- What a session does with a report, apart from writing it to the record. When it goes on from
there, the status that it has seen last is one of `seen`. -/
inductive Responds (m : Machine σ κ) (s : SessionTask κ) (report : Report) (hooks : Hooks κ)
    (seen : List (Option Status)) : Machine σ κ → Prop
  /-- It has ended. -/
  | ends (ended : m.world.lives s.name = false) : Responds m s report hooks seen (m.reply .unit)
  /-- It calls the callback for a new status. -/
  | tells {label} (noted : some report.status ∈ seen) (hook : hooks.statusChange = some label) :
      Responds m s report hooks seen
        ((m.push (.session { s with last := some report.status } (.changed report hooks))).invoke
          label (.statusChanged s.id report.status))
  /-- It sleeps, because the job goes on. -/
  | sleeps {last} (noted : last ∈ seen) (undecided : report.status.verdict? = none) :
      Responds m s report hooks seen
        (m.sleep { s with last }
          ((m.tracker s.tracker).settings.cadence.intervalFor report.status))
  /-- It calls the callback for the end of its job. -/
  | handles {last label reason} (noted : last ∈ seen)
      (verdict : report.status.verdict? = some reason) (hook : hooks.handler? reason = some label) :
      Responds m s report hooks seen
        ((m.push (.session { s with last } (.concluded reason))).invoke label
          (report.conclusion s.id))
  /-- It stops itself, because its job has ended. -/
  | concludes {last reason} (noted : last ∈ seen)
      (verdict : report.status.verdict? = some reason) (unset : hooks.handler? reason = none) :
      Responds m s report hooks seen (m.conclude { s with last } reason)

/-- What a session does with an answer. -/
inductive Receives (m : Machine σ κ) (s : SessionTask κ) :
    Except FetchError Report → Machine σ κ → Prop
  /-- It has ended, and the answer comes too late. -/
  | ends {result} (ended : m.world.lives s.name = false) : Receives m s result (m.reply .unit)
  /-- It writes the status of a report, which is new to it. -/
  | writes {report event} (lives : m.world.lives s.name = true)
      (new : s.last ≠ some report.status)
      (counted : ((m.tracker s.tracker).store.tasks.update s.id (.ofStatus report.status)).event =
        some event) :
      Receives m s (.ok report)
        (((m.withWorld (m.world.after (.patched s.tracker s.id (.ofStatus report.status)))).push
          (.session s (.recorded report (m.tracker s.tracker).settings.hooks))).tell s.tracker
            (.store event))
  /-- It goes on without writing. -/
  | responds {report m'} (lives : m.world.lives s.name = true)
      (responds : Responds m s report (m.tracker s.tracker).settings.hooks
        [s.last, some report.status] m') : Receives m s (.ok report) m'
  /-- It calls the callback for a request that has failed. -/
  | complains {e label} (lives : m.world.lives s.name = true) (uncancelled : e.isCancellation = false)
      (hook : (m.tracker s.tracker).settings.hooks.error = some label) :
      Receives m s (.error e) ((m.push (.session s .failed)).invoke label (.fetchFailed s.id e))
  /-- It sleeps after a request that has failed. -/
  | sleeps {e} (lives : m.world.lives s.name = true) :
      Receives m s (.error e) (m.sleep s (m.tracker s.tracker).settings.cadence.queued)

variable {report : Report} {hooks : Hooks κ} {seen more : List (Option Status)}

theorem Responds.mono (responds : Responds m s report hooks seen m')
    (sub : ∀ last ∈ seen, last ∈ more) : Responds m s report hooks more m' := by
  cases responds with
  | ends ended => exact .ends ended
  | tells noted hook => exact .tells (sub _ noted) hook
  | sleeps noted undecided => exact .sleeps (sub _ noted) undecided
  | handles noted verdict hook => exact .handles (sub _ noted) verdict hook
  | concludes noted verdict unset => exact .concludes (sub _ noted) verdict unset

/-- What the session has seen before does not matter. -/
theorem Responds.of_last {last : Option Status}
    (responds : Responds m { s with last } report hooks seen m') :
    Responds m s report hooks seen m' := by
  cases responds with
  | ends ended => exact .ends ended
  | tells noted hook => exact .tells noted hook
  | sleeps noted undecided => exact .sleeps noted undecided
  | handles noted verdict hook => exact .handles noted verdict hook
  | concludes noted verdict unset => exact .concludes noted verdict unset

theorem finish_of_ended (ended : m.world.lives s.name = false) : m.finish s = m.reply .unit :=
  if_neg (Bool.eq_false_iff.mp ended)

/-- A job that has ended is the end of the session, too; otherwise it sleeps. -/
theorem afterStatus_responds (m : Machine σ κ) (s : SessionTask κ) (report : Report)
    (hooks : Hooks κ) :
    Responds m s report hooks [s.last] (m.afterStatus s report hooks) := by
  have noted : s.last ∈ [s.last] := List.mem_cons_self
  by_cases lives : m.world.isLive s = true
  · rw [afterStatus, if_pos lives]
    -- There is a callback for the end of the job, or there is none.
    have decides : ∀ reason, report.status.verdict? = some reason →
        Responds m s report hooks [s.last] (match hooks.handler? reason with
          | none => m.conclude s reason
          | some label => (m.push (.session s (.concluded reason))).invoke label
              (report.conclusion s.id)) := by
      intro reason verdict
      split
      · next unset => exact .concludes noted verdict unset
      · next label hook => exact .handles noted verdict hook
    have continues : report.status.verdict? = none → Responds m s report hooks [s.last]
        (m.sleep s ((m.tracker s.tracker).settings.cadence.intervalFor report.status)) :=
      fun undecided => .sleeps noted undecided
    cases status : report.status with
    | completed =>
      have ends := decides .completed (status ▸ rfl)
      rw [Report.conclusion, status] at ends
      exact ends
    | failed =>
      have ends := decides .failed (status ▸ rfl)
      rw [Report.conclusion, status] at ends
      exact ends
    | queued =>
      have sleeps := continues (status ▸ rfl)
      rw [status] at sleeps
      exact sleeps
    | processing =>
      have sleeps := continues (status ▸ rfl)
      rw [status] at sleeps
      exact sleeps
  · have ended : m.world.lives s.name = false := Bool.eq_false_iff.mpr lives
    rw [afterStatus, if_neg lives, finish_of_ended ended]
    exact .ends ended

/-- The session has seen the status now, and the callback for it comes first. -/
theorem changeStatus_responds (m : Machine σ κ) (s : SessionTask κ) (report : Report)
    (hooks : Hooks κ) :
    Responds m s report hooks [some report.status] (m.changeStatus s report hooks) := by
  rw [changeStatus]
  dsimp only
  split
  · exact (m.afterStatus_responds { s with last := some report.status } report hooks).of_last
  · next label hook => exact .tells List.mem_cons_self hook

/-- A report that is new to the session is written to the record, unless it is refused there. -/
theorem receive_receives (m : Machine σ κ) (s : SessionTask κ)
    (result : Except FetchError Report) : Receives m s result (m.receive s result) := by
  rw [receive]
  split
  · next lives =>
    cases result with
    | error e =>
      dsimp only
      split
      · next uncancelled hook => exact .complains lives uncancelled hook
      · exact .sleeps lives
    | ok report =>
      let hooks := (m.tracker s.tracker).settings.hooks
      have after : Responds m s report hooks [s.last, some report.status] _ :=
        (m.afterStatus_responds s report hooks).mono (by simp)
      have change : Responds m s report hooks [s.last, some report.status] _ :=
        (m.changeStatus_responds s report hooks).mono (by simp)
      dsimp only
      split
      · exact .responds lives after
      · next new =>
        rw [recordStatus]
        dsimp only
        split
        · next counted => exact .writes lives new counted
        · exact .responds lives after
        · exact .responds lives change
  · next dead =>
    have ended : m.world.lives s.name = false := Bool.eq_false_iff.mpr dead
    rw [finish_of_ended ended]
    exact .ends ended

end Machine

end TaskWatch
