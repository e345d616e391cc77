import TaskWatch.Proofs.Session.Facing

/-!
# What comes of a turn

When callbacks and listeners only observe, a turn of a session is an affair of its own task: what
becomes of the task is what becomes of it by itself, and of other tasks nothing is seen. Each function
of the machine that takes part in a turn has one lemma that says so, and the turn as a whole has one.

## Main definitions

* `Affair` — something is done in the course of a session, and is seen of its task alone.
* `Machine.Comes` — what runs above certain frames comes to such an affair.

## Main results

* `Machine.lands_stopSession`, `Machine.lands_startSession` — sessions are stopped and started.
* `Machine.wake_lands` — a session gets its turn.
-/

namespace TaskWatch

variable {σ κ : Type}

/-- Something is done in the course of a session. What becomes of its task and what is seen of it is
given, and nothing is seen of other tasks. -/
structure Affair (number : Nat) (id : TaskId) (w : World κ) (next : Facet.Next κ)
    (seen : TaskId → List (Glimpse κ)) (w' : World κ) : Prop where
  goes : w.Goes number (· = id) w'
  shows : w'.Shows number id next.1
  own : seen id = next.2
  others : ∀ other, other ≠ id → seen other = []

/-- A single thing has just been done in the course of a session, and this is what is seen of it. -/
structure Stirs (number : Nat) (id : TaskId) (w w' : World κ) (seen : List (Glimpse κ)) : Prop where
  goes : w.Goes number (· = id) w'
  own : World.change number id w w' = seen
  others : ∀ other, other ≠ id → World.change number other w w' = []

variable {number : Nat} {id : TaskId} {w w₁ w' : World κ} {next : Facet.Next κ} {F : Facet κ}
  {glimpses : List (Glimpse κ)}

/-- Something else has been done and seen first. -/
theorem Affair.after {first seen : TaskId → List (Glimpse κ)} (affair : Affair number id w₁ next seen w')
    (goes : w.Goes number (· = id) w₁) (own : first id = glimpses)
    (others : ∀ other, other ≠ id → first other = []) :
    Affair number id w (next.after glimpses) (fun other => first other ++ seen other) w' where
  goes := goes.trans affair.goes
  shows := affair.shows
  own := congrArg₂ _ own affair.own
  others other elsewhere := by rw [others other elsewhere, affair.others other elsewhere]; rfl

theorem Stirs.of_same (goes : w.Goes number (· = id) w')
    (same : ∀ other, w'.record number other = w.record number other) : Stirs number id w w' [] where
  goes := goes
  own := World.change_of_eq (same id)
  others other _ := World.change_of_eq (same other)

theorem Stirs.self (w : World κ) : Stirs number id w w [] := .of_same (.refl w) fun _ => rfl

open Machine

variable {c : Consumer σ κ} {b : Backend κ} {m : Machine σ κ} {before : World κ}
  {base : List (Frame σ κ)} {f : Frame σ κ} {replies : Reply → Prop}

/-- What runs above certain frames comes to an affair, with such a reply. -/
abbrev Machine.Comes (number : Nat) (id : TaskId) (before : World κ) (next : Facet.Next κ)
    (replies : Reply → Prop) : Outcome κ :=
  fun seen reply after => replies reply ∧ Affair number id before next seen after

/-- There is a reply at once. -/
theorem Stirs.reply {r : Reply} (stirs : Stirs number id before m.world glimpses)
    (shows : m.world.Shows number id F) (stack : m.stack = base) (replied : replies r) :
    Lands c number before (m.reply r) base (Comes number id before (F, glimpses) replies) :=
  .reply stack ⟨replied, stirs.goes, shows, stirs.own, stirs.others⟩

/-- A callback is called for the task. -/
theorem Stirs.call {label : κ} {occasion : Occasion} {allowed : Bool → Prop}
    (stirs : Stirs number id before m.world glimpses) (clock : m.world.clock = F.clock)
    (subject : occasion.subject? = some id) (ends : Code.Ends allowed (c.react label occasion))
    (stack : m.stack = f :: base)
    (back : allowed false → ∀ memory,
      Lands c number m.world (resume c ⟨memory, m.world, .returned .unit, base⟩ .unit f) base
        (Comes number id m.world next replies))
    (panicked : allowed true → ∀ memory,
      Lands c number m.world (unwind ⟨memory, m.world, .unwinding, base⟩ f) base
        (Comes number id m.world next replies)) :
    Lands c number before (m.invoke label occasion) base
      (Comes number id before (next.after (glimpses ++ F.calls (some label) occasion)) replies) := by
  have own : m.world.calls label occasion id = F.calls (some label) occasion := by
    rw [World.calls, if_pos subject, clock]
    rfl
  have others : ∀ other, other ≠ id → m.world.calls label occasion other = [] := by
    intro other elsewhere
    exact if_neg fun same => elsewhere (Option.some.inj (same.symm.trans subject))
  have joined : ∀ seen reply after, Comes number id m.world next replies seen reply after →
      Comes number id before (next.after (glimpses ++ F.calls (some label) occasion)) replies
        (fun other => World.change number other before m.world ++ m.world.calls label occasion other ++
          seen other) reply after := by
    rintro seen reply after ⟨replied, affair⟩
    refine ⟨replied, affair.after stirs.goes (congrArg₂ _ stirs.own own) fun other elsewhere => ?_⟩
    rw [stirs.others other elsewhere, others other elsewhere]
    rfl
  exact .call ends stack (fun ok memory => (back ok memory).mono (joined · · ·))
    fun ok memory => (panicked ok memory).mono (joined · · ·)

/-- The same if the callback does not panic. -/
theorem Stirs.invoke {label : κ} {occasion : Occasion}
    (stirs : Stirs number id before m.world glimpses) (clock : m.world.clock = F.clock)
    (subject : occasion.subject? = some id) (ends : Code.Ends (· = false) (c.react label occasion))
    (stack : m.stack = f :: base)
    (back : ∀ memory,
      Lands c number m.world (resume c ⟨memory, m.world, .returned .unit, base⟩ .unit f) base
        (Comes number id m.world next replies)) :
    Lands c number before (m.invoke label occasion) base
      (Comes number id before (next.after (glimpses ++ F.calls (some label) occasion)) replies) :=
  stirs.call clock subject ends stack (fun _ => back)
    fun panics => absurd panics.symm Bool.false_ne_true

/-- Listeners are told of the task. -/
theorem Stirs.tell (obeys : c.Obeys b) {n : Notice}
    (stirs : Stirs number id before m.world glimpses) (clock : m.world.clock = F.clock)
    (about : n.of id = [n]) (alone : ∀ other, other ≠ id → n.of other = [])
    (stack : m.stack = f :: base)
    (next' : ∀ after memory, m.world.Near after →
      Lands c number after (resume c ⟨memory, after, .returned .unit, base⟩ .unit f) base
        (Comes number id after next replies)) :
    Lands c number before (m.tell number n) base
      (Comes number id before (next.after (glimpses ++ F.tells n)) replies) := by
  refine .tell obeys stack fun after memory near => (next' after memory near).mono ?_
  rintro seen reply after' ⟨replied, affair⟩
  have own : m.world.tells n id = F.tells n := by
    rw [World.tells, about, clock]
    rfl
  refine ⟨replied, affair.after (stirs.goes.trans near.goes) (congrArg₂ _ stirs.own own) ?_⟩
  intro other elsewhere
  rw [stirs.others other elsewhere, World.tells, alone other elsewhere]
  rfl

namespace Notice

theorem of_session (event : SessionEvent) :
    (session event).of event.taskId = [session event] ∧
      ∀ other, other ≠ event.taskId → (session event).of other = [] :=
  ⟨if_pos rfl, fun _ elsewhere => if_neg elsewhere.symm⟩

theorem of_updated (id : TaskId) :
    (store (.updated id)).of id = [store (.updated id)] ∧
      ∀ other, other ≠ id → (store (.updated id)).of other = [] :=
  ⟨by simp [Notice.of, StoreEvent.affects], fun other elsewhere => by
    simp [Notice.of, StoreEvent.affects, elsewhere.symm]⟩

end Notice

/-! ### Starting and stopping -/

/-- The end of a session is announced. -/
theorem Stirs.announce (obeys : c.Obeys b) (stirs : Stirs number id before m.world glimpses)
    (shows : m.world.Shows number id F) (reason : StopReason) :
    Lands c number before (m.announce number id reason) m.stack
      (Comes number id before (F, glimpses ++ F.tells (.session (.stopped id reason)))
        (· = .flag true)) := by
  obtain ⟨about, alone⟩ := Notice.of_session (.stopped id reason)
  have answered : ∀ after memory, m.world.Near after →
      Lands c number after (Machine.reply ⟨memory, after, .returned .unit, m.stack⟩ (.flag true)) m.stack
        (Comes number id after (F, []) (· = .flag true)) := fun after memory near =>
    (Stirs.self after).reply (m := ⟨memory, after, .returned .unit, m.stack⟩) (near.shows shows) rfl rfl
  have lands := stirs.tell (m := m.push (.answering (.flag true))) obeys shows.clock about alone rfl
    answered
  rw [Facet.Next.after, List.append_nil] at lands
  exact lands

namespace Machine

/-- A session of a task is stopped: it ends, the callback for it is called, and it is announced. -/
theorem lands_stopSession (obeys : c.Obeys b) {only : Option Serial} {serial : Serial}
    {reason : StopReason} (tidy : m.world.Tidy number) (bears : m.world.Bears number id F)
    (found : (m.world.tracker number).sessions.find? id = some serial)
    (meant : only.all (· = serial) = true) :
    Lands c number m.world (m.stopSession number id only reason) m.stack
      (Comes number id m.world (F.stopped id reason) (· = .flag true)) := by
  obtain ⟨w, ended⟩ : ∃ w, w = m.world.after (.ended number id) := ⟨_, rfl⟩
  have does : m.world.Does (.ended number id) w := ended ▸ World.does_after _ rfl
  have shows := bears.ended tidy.inside does
  have stirs : Stirs number id m.world w [] := .of_same (.single does ⟨rfl, rfl⟩ (by simp)) fun other => by
    rw [ended, World.record, World.tasks_after, World.record]
  rw [stopSession_of_found found meant, ← ended, shows.settings, Facet.stopped]
  cases F.settings.hooks.stopped with
  | none => exact stirs.announce (m := m.withWorld w) obeys shows reason
  | some label =>
    have ends := obeys.callback label (.stopped id reason) rfl (by simp)
    have announced : ∀ memory,
        Lands c number w (announce ⟨memory, w, .returned .unit, m.stack⟩ number id reason) m.stack
          (Comes number id w ({ F with session := none }, F.tells (.session (.stopped id reason)))
            (· = .flag true)) := fun memory =>
      (Stirs.self w).announce (m := ⟨memory, w, .returned .unit, m.stack⟩) obeys shows reason
    exact stirs.invoke (m := (m.withWorld w).push (.announcing number id reason)) shows.clock rfl ends
      rfl announced

/-- A session is started for a task unless there is one. -/
theorem lands_startSession (obeys : c.Obeys b) (tidy : m.world.Tidy number)
    (shows : m.world.Shows number id F) (fetcher : κ) :
    Lands c number m.world (m.startSession number id fetcher) m.stack
      (Comes number id m.world (F.started id fetcher) fun _ => True) := by
  rw [startSession, tracker, shows.isPolling, tidy.executor, Facet.started]
  cases session : F.session with
  | some s =>
    rw [if_pos (by rfl), if_pos (by rfl)]
    exact (Stirs.self m.world).reply shows rfl trivial
  | none =>
    rw [if_neg (by simp), if_neg (by simp)]
    obtain ⟨w, began⟩ : ∃ w, w = m.world.after (.began number id) := ⟨_, rfl⟩
    have does : m.world.Does (.began number id) w := ⟨_, .refl _, began, fun k other same => by
      obtain ⟨rfl, rfl⟩ := Deed.began.inj same
      rw [shows.isPolling, session]
      rfl⟩
    have stirs : Stirs number id m.world w [] := .of_same (.single does ⟨rfl, rfl⟩ (by simp)) fun other => by
      rw [began, World.record, World.tasks_after, World.record]
    have runs := shows.began tidy does
    obtain ⟨about, alone⟩ := Notice.of_session (.started id)
    let s : SessionTask κ := { tracker := number, id, serial := m.world.nextSerial, fetcher }
    -- Once this has been told, the session is handed to the executor.
    have spawned : ∀ (after : World κ) (memory : σ), w.Near after →
        Lands c number after (resume c ⟨memory, after, .returned .unit, m.stack⟩ .unit (.spawning s))
          m.stack (Comes number id after (F.paused s.stint .fresh) fun _ => True) := by
      intro after memory near
      have paused : after.Does (.paused ⟨s, .fresh⟩) (after.after (.paused ⟨s, .fresh⟩)) :=
        World.does_after _ rfl
      have goes : after.Goes number (· = id) (after.after (.paused ⟨s, .fresh⟩)) :=
        .single paused ⟨rfl, rfl⟩ fun entry same => by
          obtain rfl := Deed.paused.inj same
          exact (near.runs runs).lives
      have stirs' : Stirs number id after _ [] := .of_same goes fun _ => rfl
      exact stirs'.reply (m := ⟨memory, after.after (.paused ⟨s, .fresh⟩), .returned .unit, m.stack⟩)
        ((near.runs runs).paused (s := s) paused) rfl trivial
    have told := stirs.tell (m := (m.withWorld w).push (.spawning s)) obeys runs.clock about alone rfl
      spawned
    rw [began] at told
    exact told

/-! ### Turns -/

section Turn

variable {s : SessionTask κ}

/-- A turn of a session comes to an affair of its task. -/
abbrev Turns (c : Consumer σ κ) (s : SessionTask κ) (before : World κ) (m : Machine σ κ)
    (next : Facet.Next κ) : Prop :=
  Lands c s.tracker before m [] (Comes s.tracker s.id before next fun _ => True)

/-- A session is suspended at the end of its turn. -/
theorem lands_suspend (runs : m.world.Runs s.name F) (bottom : m.stack = []) (pause : Pause) :
    Turns c s m.world (m.suspend s pause) (F.paused s.stint pause) := by
  have does : m.world.Does (.paused ⟨s, pause⟩) (m.world.after (.paused ⟨s, pause⟩)) :=
    World.does_after _ rfl
  have goes : m.world.Goes s.tracker (· = s.id) (m.world.after (.paused ⟨s, pause⟩)) :=
    .single does ⟨rfl, rfl⟩ fun entry same => by
      obtain rfl := Deed.paused.inj same
      exact runs.lives
  have stirs : Stirs s.tracker s.id m.world _ [] := .of_same goes fun _ => rfl
  exact stirs.reply (m := m.withWorld _) (runs.paused does) bottom trivial

theorem lands_sleep (runs : m.world.Runs s.name F) (bottom : m.stack = []) (millis : Nat) :
    Turns c s m.world (m.sleep s millis) (F.sleeps s.stint millis) := by
  rw [sleep, runs.clock, Facet.sleeps]
  exact lands_suspend runs bottom _

/-- A session is stopped in its own turn, and nothing is left to do afterwards. -/
private theorem lands_stop (obeys : c.Obeys b) (tidy : m.world.Tidy s.tracker)
    (runs : m.world.Runs s.name F) (bottom : m.stack = []) (reason : StopReason) {point : Point κ}
    (finished : ∀ (memory : σ) (w : World κ) (r : Reply), w.lives s.name = false →
      continueSession c ⟨memory, w, .returned r, []⟩ s point = ⟨memory, w, .returned .unit, []⟩) :
    Turns c s m.world ((m.push (.session s point)).stopSession s.tracker s.id (some s.serial) reason)
      (F.stopped s.id reason) := by
  have bears : m.world.Bears s.tracker s.id F := runs.toBears
  have found : (m.world.tracker s.tracker).sessions.find? s.id = some s.serial :=
    World.lives_iff.mp runs.lives
  have stack : (m.push (.session s point)).stack = [.session s point] :=
    congrArg (List.cons (Frame.session s point)) bottom
  have stops : Lands c s.tracker m.world
      ((m.push (.session s point)).stopSession s.tracker s.id (some s.serial) reason)
      [.session s point] (Comes s.tracker s.id m.world (F.stopped s.id reason) (· = .flag true)) :=
    stack ▸ lands_stopSession (m := m.push (.session s point)) obeys tidy bears found (by simp)
  refine stops.bind ?_
  rintro seen reply after memory ⟨rfl, affair⟩
  have ended : after.lives s.name = false := affair.shows.not_lives rfl s.serial
  have same : resume c ⟨memory, after, .returned (.flag true), []⟩ (.flag true) (.session s point) =
      reply ⟨memory, after, .returned (.flag true), []⟩ .unit := finished memory after _ ended
  rw [same]
  refine .reply rfl ⟨trivial, ?_⟩
  simpa only [World.change_self, List.append_nil] using affair

theorem lands_conclude (obeys : c.Obeys b) (tidy : m.world.Tidy s.tracker)
    (runs : m.world.Runs s.name F) (bottom : m.stack = []) (reason : StopReason) :
    Turns c s m.world (m.conclude s reason) (F.stopped s.id reason) := by
  refine lands_stop obeys tidy runs bottom reason fun memory w r ended => ?_
  have dead : w.isLive s = false := ended
  simp only [continueSession, finish, dead]
  rfl

theorem lands_finish (obeys : c.Obeys b) (tidy : m.world.Tidy s.tracker)
    (runs : m.world.Runs s.name F) (bottom : m.stack = []) :
    Turns c s m.world (m.finish s) (F.stopped s.id .aborted) := by
  have live : m.world.isLive s = true := runs.lives
  rw [finish, if_pos live]
  exact lands_stop obeys tidy runs bottom .aborted fun memory w r ended => rfl

/-- The session goes on with a report after it has dealt with the status. -/
theorem lands_afterStatus (obeys : c.Obeys b) (tidy : m.world.Tidy s.tracker)
    (runs : m.world.Runs s.name F) (bottom : m.stack = []) (report : Report) (hooks : Hooks κ) :
    Turns c s m.world (m.afterStatus s report hooks) (F.afterStatus s.id s.stint report hooks) := by
  have live : m.world.isLive s = true := runs.lives
  have concluded : ∀ reason memory, Lands c s.tracker m.world
      (conclude ⟨memory, m.world, .returned .unit, []⟩ s reason) []
      (Comes s.tracker s.id m.world (F.stopped s.id reason) fun _ => True) := fun reason memory =>
    lands_conclude (m := ⟨memory, m.world, .returned .unit, []⟩) obeys tidy runs rfl reason
  -- A callback for the end of the job is called first, if it is set.
  have called : ∀ reason label occasion, occasion.subject? = some s.id →
      Code.Ends (· = false) (c.react label occasion) →
      Turns c s m.world
        ((m.push (.session s (.concluded reason))).invoke label occasion)
        ((F.stopped s.id reason).after (F.calls (some label) occasion)) :=
    fun reason label occasion subject ends =>
      (Stirs.self m.world).invoke (m := m.push (.session s (.concluded reason))) runs.clock subject
        ends (congrArg _ bottom) (concluded reason)
  have bears : m.world.Bears s.tracker s.id F := runs.toBears
  rw [afterStatus, if_pos live, Facet.afterStatus]
  cases status : report.status with
  | queued =>
    dsimp only
    rw [tracker, bears.settings]
    exact lands_sleep runs bottom _
  | processing =>
    dsimp only
    rw [tracker, bears.settings]
    exact lands_sleep runs bottom _
  | completed =>
    dsimp only
    cases hooks.complete with
    | none => exact lands_conclude obeys tidy runs bottom .completed
    | some label => exact called _ label _ rfl (obeys.callback label _ rfl (by simp))
  | failed =>
    dsimp only
    cases hooks.failed with
    | none => exact lands_conclude obeys tidy runs bottom .failed
    | some label => exact called _ label _ rfl (obeys.callback label _ rfl (by simp))

/-- The session takes note of a new status. -/
theorem lands_changeStatus (obeys : c.Obeys b) (tidy : m.world.Tidy s.tracker)
    (runs : m.world.Runs s.name F) (bottom : m.stack = []) (report : Report) (hooks : Hooks κ) :
    Turns c s m.world (m.changeStatus s report hooks) (F.changeStatus s.id s.stint report hooks) := by
  rw [changeStatus, Facet.changeStatus]
  dsimp only
  cases hooks.statusChange with
  | none =>
    exact lands_afterStatus (s := { s with last := some report.status }) obeys tidy runs bottom report
      hooks
  | some label =>
    have ends := obeys.callback label (.statusChanged s.id report.status) rfl (by simp)
    exact (Stirs.self m.world).invoke
      (m := m.push (.session { s with last := some report.status } (.changed report hooks)))
      runs.clock rfl ends (congrArg _ bottom) fun memory =>
        lands_afterStatus (m := ⟨memory, m.world, .returned .unit, []⟩)
          (s := { s with last := some report.status }) obeys tidy runs rfl report hooks

/-- The session writes a new status to the record, if there is one that may be given it. -/
theorem lands_recordStatus (obeys : c.Obeys b) (tidy : m.world.Tidy s.tracker)
    (runs : m.world.Runs s.name F) (bottom : m.stack = []) (report : Report) (hooks : Hooks κ) :
    Turns c s m.world (m.recordStatus s report hooks) (F.recordStatus s.id s.stint report hooks) := by
  have bears : m.world.Bears s.tracker s.id F := runs.toBears
  have record : (m.world.tracker s.tracker).store.tasks.find? s.id = F.record := bears.record
  obtain ⟨patch, patched⟩ : ∃ patch, patch = Patch.ofStatus report.status := ⟨_, rfl⟩
  have allowed := fun current => Collection.refusal_ofStatus current report.status
  rw [recordStatus, Facet.recordStatus, tracker]
  rw [← patched] at allowed ⊢
  obtain ⟨absent, ended⟩ | ⟨task, found, rest⟩ :=
    (m.world.tracker s.tracker).store.tasks.update_cases s.id patch
  · rw [ended, ← record, absent]
    exact lands_changeStatus obeys tidy runs bottom report hooks
  rw [← record, found]
  dsimp only
  obtain ⟨error, refused, ended⟩ | ⟨fine, same, ended⟩ | ⟨fine, differs, ended⟩ := rest
  · rw [ended, if_neg fun may => by simp [(allowed task).mpr may] at refused]
    exact lands_afterStatus obeys tidy runs bottom report hooks
  · rw [ended, if_pos ((allowed task).mp fine), if_pos same]
    exact lands_changeStatus obeys tidy runs bottom report hooks
  · rw [if_pos ((allowed task).mp fine), if_neg (by simp [differs])]
    have keyed : task.id = s.id := tidy.keyed s.tracker found
    obtain ⟨w, mutated⟩ : ∃ w, w = m.world.after (.patched s.tracker s.id patch) := ⟨_, rfl⟩
    have does : m.world.Does (.patched s.tracker s.id patch) w := mutated ▸ World.does_after _ rfl
    have goes : m.world.Goes s.tracker (· = s.id) w := .single does ⟨rfl, rfl, _, patched⟩ (by simp)
    have written : w.record s.tracker s.id = some (task.patched patch) := by
      rw [mutated, World.record, World.tasks_after]
      dsimp only
      rw [if_pos ⟨rfl, tidy.inside⟩, Collection.find?_update (tidy.keyed _), ended, found]
      simp
    have others : ∀ other, other ≠ s.id → w.record s.tracker other = m.world.record s.tracker other :=
      fun other elsewhere =>
        (does.sees tidy.inside tidy.keyed fun here => elsewhere here.2.symm).record
    have stirs : Stirs s.tracker s.id m.world w (F.keeps (some (task.patched patch))) := by
      refine ⟨goes, ?_, fun other elsewhere => World.change_of_eq (others other elsewhere)⟩
      rw [World.change, Facet.keeps, written, bears.record, does.clock, bears.clock]
    have runs' : w.Runs s.name { F with record := some (task.patched patch) } :=
      written ▸ runs.patched does
    rw [World.after, ended] at mutated
    rw [ended]
    dsimp only
    rw [← mutated, keyed]
    obtain ⟨about, alone⟩ := Notice.of_updated s.id
    have told := stirs.tell (m := (m.withWorld w).push (.session s (.recorded report hooks))) obeys
      runs'.clock about alone (congrArg _ bottom) fun after memory near =>
        lands_changeStatus (m := ⟨memory, after, .returned .unit, []⟩) obeys
          (World.Goes.tidy (goes.trans near.goes) tidy) (near.runs runs') rfl report hooks
    simpa [Facet.mutated, Facet.tells] using told

/-- The session deals with an answer. -/
theorem lands_receive (obeys : c.Obeys b) (tidy : m.world.Tidy s.tracker)
    (runs : m.world.Runs s.name F) (bottom : m.stack = []) (result : Except FetchError Report) :
    Turns c s m.world (m.receive s result) (F.receive s.id s.stint result) := by
  have live : m.world.isLive s = true := runs.lives
  have bears : m.world.Bears s.tracker s.id F := runs.toBears
  have settings : (m.world.tracker s.tracker).settings = F.settings := bears.settings
  rw [receive, if_pos live]
  dsimp only
  rw [tracker, settings]
  cases result with
  | ok report =>
    rw [Facet.receive, show s.stint.last = s.last from rfl]
    dsimp only
    split
    · exact lands_afterStatus obeys tidy runs bottom report _
    · exact lands_recordStatus obeys tidy runs bottom report _
  | error e =>
    rw [Facet.receive]
    dsimp only
    cases e.isCancellation with
    | true => exact lands_sleep runs bottom _
    | false =>
      cases F.settings.hooks.error with
      | none => exact lands_sleep runs bottom _
      | some label =>
        have ends := obeys.callback label (.fetchFailed s.id e) rfl (by simp)
        refine (Stirs.self m.world).invoke (m := m.push (.session s .failed)) runs.clock rfl ends
          (congrArg _ bottom) fun memory => ?_
        have slept := lands_sleep (c := c) (m := ⟨memory, m.world, .returned .unit, []⟩) runs rfl
          F.settings.cadence.queued
        rw [← settings] at slept ⊢
        exact slept

/-- The fetcher of a session works on a request, and the session goes on. -/
theorem lands_fetch (obeys : c.Obeys b) (tidy : m.world.Tidy s.tracker)
    (runs : m.world.Runs s.name F) (bottom : m.stack = []) (turn : Nat) :
    Turns c s m.world (m.fetch s turn) (F.fetch b s.id s.stint turn) := by
  have live : m.world.isLive s = true := runs.lives
  have requested : ∀ (memory : σ) (control : Control σ κ) (stack : List (Frame σ κ)),
      request ⟨memory, m.world, control, stack⟩ s = ⟨s.id, s.calls, false⟩ := by
    intro memory control stack
    rw [request, live]
    rfl
  obtain ⟨progress, known⟩ : ∃ progress,
      progress = b.progress s.fetcher ⟨s.id, s.calls, false⟩ turn := ⟨_, rfl⟩
  have ends := obeys.fetching s.fetcher ⟨s.id, s.calls, false⟩ turn
  rw [fetch, Facet.fetch, show m.request s = _ from requested m.memory m.control m.stack]
  show Turns c s m.world _
    ((F.goesOn s.id s.stint turn (b.progress s.fetcher ⟨s.id, s.calls, false⟩ turn)).after _)
  rw [← known] at ends ⊢
  refine (Stirs.self m.world).call (m := m.push (.session s (.fetching turn))) runs.clock rfl ends
    (congrArg _ bottom) (fun returns memory => ?_) fun panics memory => ?_
  · cases progress with
    | none => simp at returns
    | some p =>
      have proceeds : c.proceed s.fetcher
          (request ⟨memory, m.world, .returned .unit, []⟩ s) turn memory = p := by
        rw [requested]
        exact obeys.proceed _ _ _ p known.symm memory
      have clock : m.world.clock = F.clock := runs.clock
      have suspends : ∀ pause, Turns c s m.world
          (suspend ⟨memory, m.world, .returned .unit, []⟩ s pause) (F.paused s.stint pause) :=
        fun pause => lands_suspend (m := ⟨memory, m.world, .returned .unit, []⟩) runs rfl pause
      show Turns c s m.world
        (continueSession c ⟨memory, m.world, .returned .unit, []⟩ s (.fetching turn)) _
      rw [continueSession, proceeds]
      cases p with
      | answer result =>
        exact lands_receive (m := ⟨memory, m.world, .returned .unit, []⟩) obeys tidy runs rfl result
      | yield =>
        rw [Facet.goesOn, ← clock]
        exact suspends _
      | wait millis =>
        rw [Facet.goesOn, ← clock]
        exact suspends _
      | hang => exact suspends _
  · cases progress with
    | none => exact lands_finish (m := ⟨memory, m.world, .unwinding, []⟩) obeys tidy runs rfl
    | some p => simp at panics

/-- The session makes its next request. -/
theorem lands_nextRequest (obeys : c.Obeys b) (tidy : m.world.Tidy s.tracker)
    (runs : m.world.Runs s.name F) (bottom : m.stack = []) :
    Turns c s m.world (m.nextRequest s)
      (F.fetch b s.id { s.stint with calls := s.calls + 1 } 0) := by
  have live : m.world.isLive s = true := runs.lives
  rw [nextRequest, if_pos live]
  exact lands_fetch (s := { s with calls := s.calls + 1 }) obeys tidy runs bottom 0

end Turn

section Wake

variable {entry : Suspended κ} {sooner later : List (Suspended κ)}

/-- A session that lives gets its turn. -/
theorem wake_lands (obeys : c.Obeys b) (tidy : m.world.Tidy entry.task.tracker)
    (shows : m.world.Shows entry.task.tracker entry.task.id F) (bottom : m.stack = [])
    (listed : m.world.suspended = sooner ++ entry :: later)
    (lives : m.world.lives entry.task.name = true) :
    Turns c entry.task { m.world with suspended := sooner ++ later }
      ((m.withWorld { m.world with suspended := sooner ++ later }).wake entry)
      (F.turn b entry.task.id) := by
  obtain ⟨session, runs⟩ := shows.taken listed lives
  have tidy' := tidy.without listed
  obtain ⟨w, same⟩ : ∃ w : World κ, w = { m.world with suspended := sooner ++ later } := ⟨_, rfl⟩
  rw [← same] at runs tidy' ⊢
  have live : w.isLive entry.task = true := runs.lives
  have record : (w.tracker entry.task.tracker).store.tasks.find? entry.task.id = F.record :=
    runs.record
  obtain ⟨s, pause⟩ := entry
  rw [Facet.turn, session, wake]
  cases pause with
  | fresh =>
    dsimp only
    rw [tracker, world_withWorld, record]
    exact lands_nextRequest (m := m.withWorld w) (s := { s with last := F.record.map Task.status })
      obeys tidy' runs bottom
  | fetching turn until_ =>
    dsimp only
    rw [world_withWorld, if_pos live]
    exact lands_fetch (m := m.withWorld w) obeys tidy' runs bottom (turn + 1)
  | sleeping until_ => exact lands_nextRequest (m := m.withWorld w) obeys tidy' runs bottom

/-- A turn of a session that has ended is nothing to anybody. -/
theorem wake_lands_dead (obeys : c.Obeys b) (number : Nat) (bottom : m.stack = [])
    (dead : m.world.lives entry.task.name = false) :
    Lands c number m.world (m.wake entry) [] fun seen _ after =>
      after = m.world ∧ ∀ id, seen id = [] := by
  obtain ⟨s, pause⟩ := entry
  have gone : m.world.isLive s = false := dead
  have replied : ∀ (memory : σ) (control : Control σ κ),
      Lands c number m.world ((⟨memory, m.world, control, []⟩ : Machine σ κ).finish s) []
        fun seen _ after => after = m.world ∧ ∀ id, seen id = [] := by
    intro memory control
    rw [finish, if_neg (by simp [gone])]
    exact .reply rfl ⟨rfl, fun id => World.change_self _ _ _⟩
  have finished : ∀ s' : SessionTask κ, s'.name = s.name →
      Lands c number m.world (m.nextRequest s') [] fun seen _ after =>
        after = m.world ∧ ∀ id, seen id = [] := by
    intro s' same
    have dead' : m.world.isLive s' = false := by
      show m.world.lives s'.name = false
      rw [same]
      exact gone
    rw [nextRequest, if_neg (by simp [dead']), finish, if_neg (by simp [dead'])]
    exact .reply bottom ⟨rfl, fun id => World.change_self _ _ _⟩
  rw [wake]
  cases pause with
  | fresh => exact finished _ rfl
  | fetching turn until_ =>
    dsimp only
    rw [if_neg (by simp [gone]), dropFetch]
    refine .call (f := .session s .dropping) (obeys.dropped s.fetcher (m.request s))
      (congrArg _ bottom) (fun _ memory => ?_) fun _ memory => ?_
    · refine (replied memory _).mono ?_
      rintro seen reply after ⟨rfl, nothing⟩
      exact ⟨rfl, fun id => by simp [nothing, World.change_self, World.calls, Occasion.subject?]⟩
    · refine (replied memory _).mono ?_
      rintro seen reply after ⟨rfl, nothing⟩
      exact ⟨rfl, fun id => by simp [nothing, World.change_self, World.calls, Occasion.subject?]⟩
  | sleeping until_ => exact finished _ rfl

end Wake

end Machine

end TaskWatch
