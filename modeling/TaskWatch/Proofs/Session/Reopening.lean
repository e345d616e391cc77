import TaskWatch.Proofs.Session.Answers
import TaskWatch.Proofs.Session.Passing

/-!
# A tracker that is opened after another one

A tracker has been shut down, so nobody polls for anything, and another one is opened on the same
storage. The sessions that it starts owe to their tasks what the old ones still owed, as long as the
fetchers go on with the answers that are still to come.

## Main definitions

* `IsSilent` — nothing is called that matters.
* `World.Vacant` — nobody polls for anything.

## Main results

* `Facet.Owes.resumed` — a job that is resumed is owed what it was owed before.
* `World.Vacant.opened`, `Machine.Conducts.uncons_open` — a tracker is opened.
-/

namespace TaskWatch

variable {σ κ : Type}

/-- No callback of the lifecycle is called, and no request is answered. -/
structure IsSilent (b : Backend κ) (calls : List (κ × Occasion)) : Prop where
  lifecycle : lifecycleCalls calls = []
  unanswered : answered b calls = 0

theorem isSilent_nil (b : Backend κ) : IsSilent b [] := ⟨rfl, rfl⟩

theorem IsSilent.append {b : Backend κ} {calls calls' : List (κ × Occasion)} (silent : IsSilent b calls)
    (silent' : IsSilent b calls') : IsSilent b (calls ++ calls') where
  lifecycle := by rw [lifecycleCalls_append, silent.lifecycle, silent'.lifecycle, List.append_nil]
  unanswered := by rw [answered_append, silent.unanswered, silent'.unanswered]

/-! ### One job by itself -/

namespace Facet

variable {F F' : Facet κ} {b : Backend κ} {patience deadline limit : Nat} {id : TaskId} {task : Task}
  {answers : List Answer} {owed : List (κ × Occasion) × Task} {fetcher factory : κ}
  {seen : List (Glimpse κ)}

/-- A session that is started has all the answers to come. -/
theorem Owes.started (record : F.record = some task) (active : task.isTerminal = false)
    (session : F.session = some (⟨fetcher, none, 0⟩, .fresh))
    (ends : answers.any Answer.isFinal = true) (follows : b.Answers patience fetcher id 0 answers) :
    ∃ limit, F.Owes b patience id answers limit (F.settings.hooks.account id task answers) :=
  ⟨_, .polls record active session ends (.fresh follows)⟩

/-- A new job is recorded and polled for, and no callback is called. -/
theorem tracked_eq (F : Facet κ) (id : TaskId) (nobody : F.session = none)
    (active : task.isTerminal = false) (fetcher : κ) :
    (F.tracked id task fetcher).1 =
        { F with record := some task, session := some (⟨fetcher, none, 0⟩, .fresh) } ∧
      Glimpse.callsIn (F.tracked id task fetcher).2 = [] := by
  have untold : Glimpse.callsIn (F.keeps (some task)) = [] := by
    rw [keeps]
    split <;> rfl
  simp only [tracked, active, Bool.false_eq_true, if_false, added, mutated, started, nobody,
    Option.isSome_none, Next.after, Glimpse.callsIn_append, untold, List.nil_append, true_and]
  split <;> rfl

theorem halted_eq (F : Facet κ) (b : Backend κ) (id : TaskId) :
    (F.halted id).1 = { F with session := none } ∧ Reports b (F.halted id).2 [] := by
  rw [halted]
  split
  · exact ⟨rfl, F.reports_stopped b id .requested⟩
  · next nobody =>
    have session : F.session = none := by simpa using nobody
    exact ⟨session ▸ rfl, reports_nothing rfl⟩

/-- Nothing happens to a task without a session. -/
theorem Passes.of_nobody (passes : F.Passes b id deadline seen F') (nobody : F.session = none) :
    seen = [] ∧ F' = F.atTime deadline := by
  cases passes with
  | finished early => exact ⟨rfl, rfl⟩
  | turn soon intime rest =>
    have never : F.due = none := by rw [Facet.due, nobody, Option.bind_none]
    exact absurd (soon.symm.trans never) (Option.some_ne_none _)

/-- What is owed when nobody polls: the job is at its end. -/
theorem Owes.of_nobody (owes : F.Owes b patience id answers limit owed) (nobody : F.session = none) :
    F.record = some owed.2 ∧ owed.1 = [] := by
  cases owes with
  | polls record active session ends awaits => simp [nobody] at session
  | finished record ended nobody => exact ⟨record, rfl⟩

/-- A job that another tracker resumes, with the answers that are still to come, is owed what it was
owed before. -/
theorem Owes.resumed (owes : F.Owes b patience id answers limit owed)
    (record : F'.record = F.record) (nobody : F'.session = none)
    (hooks : F'.settings.hooks = F.settings.hooks)
    (supplies : ∀ task, F.record = some task → task.isTerminal = false → ∃ fetcher,
      b.supply factory task = some fetcher ∧ b.Answers patience fetcher id 0 answers) :
    (∃ limit', (F'.resumed b id factory).1.Owes b patience id answers limit' owed) ∧
      Glimpse.callsIn (F'.resumed b id factory).2 = [] := by
  cases owes with
  | @polls task s pause limit there active session ends awaits =>
    obtain ⟨fetcher, supplied, follows⟩ := supplies task there active
    have goes : F'.resumed b id factory = F'.started id fetcher := by
      rw [Facet.resumed, record, there]
      simp only [active, supplied, Bool.false_eq_true, if_false]
    have started : F'.started id fetcher =
        ({ F' with session := some (⟨fetcher, none, 0⟩, .fresh) },
          F'.tells (.session (.started id))) := by
      rw [Facet.started, nobody]
      rfl
    rw [goes, started, ← hooks]
    exact ⟨Owes.started (record.trans there) active rfl ends follows, rfl⟩
  | @finished task limit there ended _ =>
    have goes : F'.resumed b id factory = F'.still := by
      rw [Facet.resumed, record, there]
      simp only [ended, if_true]
    rw [goes]
    exact ⟨⟨0, .finished (record.trans there) ended nobody⟩, rfl⟩

/-- A task that is at its end, or is not there, is not resumed. -/
theorem resumed_of_free (free : F.record.all Task.isTerminal = true) :
    F.resumed b id factory = F.still := by
  rw [resumed]
  cases there : F.record with
  | none => rfl
  | some task =>
    rw [there] at free
    exact if_pos free

end Facet

/-! ### Another tracker is opened -/

namespace World

variable {w w' : World κ} {number : Nat} {id : TaskId} {F : Facet κ}

/-- A world in which nobody polls for anything. -/
structure Vacant (w : World κ) : Prop where
  keyed : w.Keyed
  executor : w.hasExecutor = true
  below : ∀ entry ∈ w.suspended, entry.task.serial < w.nextSerial
  nobody : ∀ S, w.lives S = false

/-- Sessions and new records leave the settings alone. -/
theorem Undergoes.settings {allowed : Deed κ → Prop} (undergoes : w.Undergoes allowed w')
    (calm : ∀ d, allowed d → d.IsSessional number (fun _ => True) ∨ ∃ k task, d = .kept k task)
    (k : Nat) : (w'.tracker k).settings = (w.tracker k).settings := by
  induction undergoes with
  | refl => rfl
  | tail _ act ih =>
    obtain ⟨d, within, _, w₁, near, rfl, _⟩ := act
    rw [settings_after, ← ih, ← near.settings]
    rcases calm d within with sessional | ⟨n, task, rfl⟩
    · cases d with
      | opened | configured => exact sessional.elim
      | _ => rfl
    · rfl

theorem Elapses.settings (elapses : w.Elapses number w') (k : Nat) :
    (w'.tracker k).settings = (w.tracker k).settings := by
  induction elapses with
  | refl => rfl
  | tail _ act ih =>
    rcases act with goes | ⟨trackers, _⟩
    · exact (Undergoes.settings goes (fun _ within => .inl within) k).trans ih
    · rw [World.tracker, trackers]
      exact ih

theorem Settled.vacant (settled : w.Settled number)
    (nobody : ∀ id F, w.Shows number id F → F.session = none) : w.Vacant where
  keyed := settled.keyed
  executor := settled.executor
  below := settled.below
  nobody S := by
    refine Bool.eq_false_iff.mpr fun lives => ?_
    obtain rfl := settled.sole S lives
    obtain ⟨F, shows⟩ := settled.shown S.id
    exact absurd lives (Bool.eq_false_iff.mp (shows.not_lives (nobody S.id F shows) S.serial))

theorem vacant_blank (storage : Storage) (wallClock : Nat) :
    (blank storage wallClock true : World κ).Vacant where
  keyed _ := Collection.keyed_empty
  executor := rfl
  below _ mem := absurd mem List.not_mem_nil
  nobody _ := rfl

/-- What a tracker that has just been opened shows of a task. -/
theorem Vacant.opened_shows (key : String) (cadence : Cadence) (id : TaskId) (w : World κ) :
    (w.after (.opened key cadence)).Shows w.trackers.length id
      { clock := w.clock
        settings := { cadence }
        record := (Collection.hydrate w.storage key).find? id
        session := none } := by
  have tracker : (w.after (.opened key cadence)).tracker w.trackers.length =
      .ofStorage w.storage key cadence :=
    (w.tracker_opened _ _).trans (if_pos rfl)
  refine ⟨⟨rfl, ?_, ?_⟩, ?_⟩
  · rw [tracker]
    rfl
  · rw [World.record, tracker]
    rfl
  · rw [World.seat, tracker]
    rfl

theorem Vacant.opened (vacant : w.Vacant) (key : String) (cadence : Cadence) :
    (w.after (.opened key cadence)).Settled w.trackers.length := by
  have does : w.Does (.opened key cadence) (w.after (.opened key cadence)) := World.does_after _ rfl
  have nobody : ∀ S, ¬ (w.after (.opened key cadence)).lives S = true := by
    intro S lives
    rw [lives_iff, sessions_after] at lives
    exact Bool.false_ne_true ((vacant.nobody S).symm.trans (lives_iff.mpr lives))
  exact {
    inside := by simp [World.after]
    keyed := does.keyed vacant.keyed
    executor := vacant.executor
    below := vacant.below
    given := fun S lives => absurd lives (nobody S)
    sole := fun S lives => absurd lives (nobody S)
    shown := fun id => ⟨_, Vacant.opened_shows key cadence id w⟩ }

end World

namespace Machine

variable {c : Consumer σ κ} {b : Backend κ} {m m' : Machine σ κ} {number : Nat} {key : String}
  {cadence : Cadence} {script : List (Directive κ)} {states : List (Machine σ κ)}

/-- A script begins with the opening of a tracker. -/
theorem Conducts.uncons_open
    (conducts : Conducts c m (.call (.openTracker key cadence) :: script) states m')
    (idle : m.isIdle = true) (valid : cadence.check = .ok ()) :
    ∃ first m₁ rest, states = first ++ rest ∧ Conducts c m₁ script rest m' ∧ m₁.isIdle = true ∧
      m₁.world = m.world.after (.opened key cadence) ∧ ∀ id, callsFor id first = [] := by
  obtain ⟨memory, w, control, stack⟩ := m
  obtain rfl : stack = [] := stack_of_isIdle idle
  cases conducts with
  | call path finished rest =>
    have opens : step c ⟨memory, w, .code (.call (.openTracker key cadence) fun _ => .done), []⟩ =
        ⟨memory, w.after (.opened key cadence), .returned (.number w.trackers.length),
          [.awaiting fun _ => .done]⟩ := by
      show perform ⟨memory, w, .code (.call (.openTracker key cadence) fun _ => .done),
        [.awaiting fun _ => .done]⟩ (.openTracker key cadence) = _
      rw [perform, valid]
      rfl
    have returns : Path c ⟨memory, w.after (.opened key cadence), .returned (.number w.trackers.length),
          [.awaiting fun _ => .done]⟩
        [⟨memory, w.after (.opened key cadence), .code .done, []⟩,
          ⟨memory, w.after (.opened key cadence), .returned .unit, []⟩]
        ⟨memory, w.after (.opened key cadence), .returned .unit, []⟩ :=
      .step rfl (.step rfl (.stay _))
    rw [← opens] at returns
    have path' := Path.step (busy_of_code _) returns
    rw [opens] at path'
    obtain ⟨rfl, rfl⟩ := path'.unique rfl path finished
    exact ⟨_, _, _, rfl, rest, rfl, rfl, fun _ => rfl⟩

end Machine

/-- Callbacks that are set where there are none are the callbacks. -/
theorem Hooks.overlaid_none (h : Hooks κ) : ({} : Hooks κ).overlaid h = h := by
  cases h
  simp [Hooks.overlaid]

/-- Setting the callbacks of a new tracker. -/
theorem Settings.patched_hooks {cadence : Cadence} (valid : cadence.check = .ok ()) (hooks : Hooks κ) :
    Settings.patched { cadence } { hooks } = .ok ⟨cadence, hooks⟩ := by
  simp only [Settings.patched, Cadence.patched, valid, Hooks.overlaid_none]

end TaskWatch
