import TaskWatch.Proofs.Run.Step

/-!
# Sessions come and go

In a step at most one session comes or goes. One that is created is handed to the executor after
listeners have been told of it, and one that has been ended is announced: at once, or after the
callback for stopped sessions has run. Each function of the machine has one lemma that says so. It
also says whose records are added to a collection, for this is done by calls of the consumer alone.

## Main definitions

* `Frame.isErrand`, `Frame.isNews`, `Control.isNews` — what the coming and going of sessions leaves
  to be done.
* `World.Retains`, `World.Begins`, `World.Ends` — no session comes or goes, or one.
* `Call.Adds`, `Machine.Adds` — a record is about to be added for a task.
* `Machine.Turnover` — what comes and goes.

## Main results

* `Machine.step_turnover` — a step that does not deal with earlier news is of this form.
* `Machine.step_near_or_turnover` — the others leave the sessions alone.
* `Machine.wake_turnover`, `Machine.abandon_turnover` — so are the turns that the executor gives.
-/

namespace TaskWatch

variable {σ κ : Type}

/-- Whether something is still to be told of a session: its end is about to be announced, or
listeners are told that it was created or has ended. -/
def Frame.isErrand : Frame σ κ → Bool
  | announcing _ _ _ | delivering (.session _) _ => true
  | _ => false

/-- Whether a new session is about to be handed to the executor. -/
def Frame.isSpawning : Frame σ κ → Bool
  | spawning _ => true
  | _ => false

/-- Whether a frame is there because a session has come or gone. -/
def Frame.isNews (f : Frame σ κ) : Bool := f.isErrand || f.isSpawning

/-- Whether listeners are about to be told of a session, the callback for stopped sessions is about
to be called, or a listener is being told of a session. -/
def Control.isNews : Control σ κ → Bool
  | telling _ (.session _) | calling _ (.stopped _ _) | calling _ (.notice (.session _)) => true
  | _ => false

/-- Whether a session comes or goes. -/
def Deed.isTurnover : Deed κ → Bool
  | began _ _ | ended _ _ => true
  | _ => false

/-- A call adds a record for a task. -/
def Call.Adds : Call κ → Nat → TaskId → Prop
  | .add number draft, k, id | .track number draft _, k, id => number = k ∧ draft.id = id
  | _, _, _ => False

namespace World

variable {w w₁ w₂ : World κ} {d : Deed κ}

/-- No session comes or goes. -/
structure Retains (w w' : World κ) : Prop where
  sessions : ∀ k id, (w'.tracker k).sessions.find? id = (w.tracker k).sessions.find? id
  serials : w'.nextSerial = w.nextSerial

/-- A session comes. On a tracker that was never opened nobody learns of it. -/
structure Begins (S : SessionName) (w w' : World κ) : Prop where
  /-- Its task had none before. -/
  fresh : (w.tracker S.tracker).sessions.find? S.id = none
  sessions : ∀ k id, (w'.tracker k).sessions.find? id =
    if (k = S.tracker ∧ id = S.id) ∧ k < w.trackers.length then some S.serial
    else (w.tracker k).sessions.find? id
  serial : S.serial = w.nextSerial
  serials : w'.nextSerial = w.nextSerial + 1

/-- A session goes. -/
structure Ends (S : SessionName) (w w' : World κ) : Prop where
  lived : w.lives S = true
  sessions : ∀ k id, (w'.tracker k).sessions.find? id =
    if k = S.tracker ∧ id = S.id then none else (w.tracker k).sessions.find? id
  serials : w'.nextSerial = w.nextSerial

theorem Retains.trans (h : w.Retains w₁) (h' : w₁.Retains w₂) : w.Retains w₂ :=
  ⟨fun k id => (h'.sessions k id).trans (h.sessions k id), h'.serials.trans h.serials⟩

theorem Near.retains (near : w.Near w₁) : w.Retains w₁ :=
  ⟨fun k id => by rw [near.sessions], near.nextSerial⟩

theorem Does.retains (does : w.Does d w₁) (same : d.isTurnover = false) : w.Retains w₁ := by
  obtain ⟨w', near, rfl, _⟩ := does
  refine near.retains.trans ⟨fun k id => ?_, ?_⟩
  · rw [sessions_after]
    cases d <;> first | rfl | simp [Deed.isTurnover] at same
  · rw [nextSerial_after]
    cases d <;> first | rfl | simp [Deed.isTurnover] at same

theorem Does.begins {S : SessionName} (does : w.Does (.began S.tracker S.id) w₁)
    (serial : S.serial = w.nextSerial) : w.Begins S w₁ := by
  obtain ⟨w', near, rfl, idle⟩ := does
  refine ⟨?_, fun k id => ?_, serial, ?_⟩
  · have fresh := idle S.tracker S.id rfl
    rw [Tracker.isPolling, Dictionary.contains] at fresh
    exact Option.not_isSome_iff_eq_none.mp (Bool.eq_false_iff.mp fresh)
  · rw [sessions_after, serial, ← near.sessions, ← near.nextSerial, ← near.count]
    dsimp only
    by_cases here : S.tracker = k ∧ k < w'.trackers.length
    · rw [if_pos here, Dictionary.find?_insert]
      by_cases same : id = S.id <;> simp [same, here.1.symm, here.1 ▸ here.2]
    · rw [if_neg here, if_neg fun both => here ⟨both.1.1.symm, both.2⟩]
  · rw [nextSerial_after, near.nextSerial]
    rfl

theorem Does.ends {S : SessionName} (does : w.Does (.ended S.tracker S.id) w₁)
    (lived : w.lives S = true) : w.Ends S w₁ := by
  obtain ⟨w', near, rfl, _⟩ := does
  have inside : S.tracker < w'.trackers.length := near.count ▸ inside_of_lives lived
  refine ⟨lived, fun k id => ?_, ?_⟩
  · rw [sessions_after, ← near.sessions]
    dsimp only
    by_cases here : S.tracker = k
    · subst here
      rw [if_pos ⟨rfl, inside⟩, Dictionary.find?_erase]
      by_cases same : id = S.id <;> simp [same]
    · rw [if_neg fun both => here both.1, if_neg fun both => here both.1.symm]
  · rw [nextSerial_after, near.nextSerial]
    rfl

theorem Retains.lives (retains : w.Retains w₁) (S : SessionName) : w₁.lives S = w.lives S := by
  rw [World.lives, World.lives, Tracker.isLive, Tracker.isLive, retains.sessions]

theorem Retains.isPolling (retains : w.Retains w₁) (k : Nat) (id : TaskId) :
    (w₁.tracker k).isPolling id = (w.tracker k).isPolling id :=
  congrArg Option.isSome (retains.sessions k id)

theorem Begins.isPolling {S : SessionName} (begins : w.Begins S w₁) (k : Nat) (id : TaskId) :
    (w₁.tracker k).isPolling id =
      if (k = S.tracker ∧ id = S.id) ∧ k < w.trackers.length then true
      else (w.tracker k).isPolling id :=
  (congrArg Option.isSome (begins.sessions k id)).trans (apply_ite Option.isSome _ _ _)

theorem Ends.isPolling {S : SessionName} (ends : w.Ends S w₁) (k : Nat) (id : TaskId) :
    (w₁.tracker k).isPolling id =
      if k = S.tracker ∧ id = S.id then false else (w.tracker k).isPolling id :=
  (congrArg Option.isSome (ends.sessions k id)).trans (apply_ite Option.isSome _ _ _)

theorem isPolling_of_lives {S : SessionName} (living : w.lives S = true) :
    (w.tracker S.tracker).isPolling S.id = true := by
  rw [Tracker.isPolling, Dictionary.contains, lives_iff.mp living]
  rfl

/-- The other sessions live on. -/
theorem Ends.lives {S : SessionName} (ends : w.Ends S w₁) (T : SessionName) :
    w₁.lives T = true ↔ w.lives T = true ∧ T ≠ S := by
  have lived := lives_iff.mp ends.lived
  rw [lives_iff, lives_iff, ends.sessions]
  constructor
  · intro living
    split at living
    · simp at living
    · next other => exact ⟨living, fun same => other (same ▸ ⟨rfl, rfl⟩)⟩
  · rintro ⟨living, other⟩
    rw [if_neg]
    · exact living
    · rintro ⟨tracker, id⟩
      rw [tracker, id, lived] at living
      obtain ⟨k, i, serial⟩ := T
      obtain ⟨k', i', serial'⟩ := S
      exact other (by simp_all)

/-- Who lives and what comes next can be seen from the trackers and the counter. -/
theorem Ends.of_trackers {S : SessionName} (ends : w.Ends S w₂)
    (trackers : w.trackers = w₁.trackers) (serial : w.nextSerial = w₁.nextSerial) :
    w₁.Ends S w₂ := by
  have tracker : ∀ k, w.tracker k = w₁.tracker k := fun k => by
    rw [World.tracker, World.tracker, trackers]
  refine ⟨?_, fun k id => ?_, ends.serials.trans serial⟩
  · have lived := ends.lived
    rwa [World.lives, tracker] at lived
  · rw [ends.sessions, tracker]

/-- All sessions live on, and the new one. -/
theorem Begins.lives {S T : SessionName} (begins : w.Begins S w₁) (living : w₁.lives T = true) :
    w.lives T = true ∨ T = S := by
  rw [lives_iff, begins.sessions] at living
  split at living
  · next here =>
    obtain ⟨k, id, serial⟩ := T
    obtain ⟨⟨rfl, rfl⟩, _⟩ := here
    obtain rfl : S.serial = serial := Option.some.inj living
    exact .inr rfl
  · exact .inl (lives_iff.mpr living)

theorem Begins.lives_of_lives {S T : SessionName} (begins : w.Begins S w₁)
    (living : w.lives T = true) : w₁.lives T = true := by
  rw [lives_iff] at living ⊢
  rw [begins.sessions, if_neg]
  · exact living
  · rintro ⟨⟨tracker, id⟩, _⟩
    rw [tracker, id, begins.fresh] at living
    exact Option.some_ne_none _ living.symm

end World

namespace Machine

variable {added : Nat → TaskId → Prop} {m m' : Machine σ κ}

/-- The consumer is about to add a record for a task. -/
def Adds (m : Machine σ κ) (number : Nat) (id : TaskId) : Prop :=
  ∃ request next, m.control = .code (.call request next) ∧ request.Adds number id

/-- Whether the consumer is about to make a call. -/
def isCalling (m : Machine σ κ) : Bool :=
  match m.control with
  | .code (.call _ _) => true
  | _ => false

theorem not_adds (quiet : m.isCalling = false) {number : Nat} {id : TaskId} :
    ¬ m.Adds number id := by
  rintro ⟨request, next, control, _⟩
  simp [isCalling, control] at quiet

/-- Which session comes or goes. Records are added for certain tasks only. -/
inductive Turnover (added : Nat → TaskId → Prop) (m m' : Machine σ κ) : Prop
  /-- None. -/
  | still (new) {d} (stack : m'.stack = new ++ m.stack) (plain : ∀ f ∈ new, f.isNews = false)
      (control : m'.control.isNews = false) (does : m.world.Does d m'.world)
      (same : d.isTurnover = false)
      (records : ∀ number task, d = .kept number task → added number task.id)
  /-- One is created, and listeners are about to be told. -/
  | began (new) {s} (stack : m'.stack = .spawning s :: (new ++ m.stack))
      (plain : ∀ f ∈ new, f.isNews = false)
      (control : m'.control = .telling s.tracker (.session (.started s.id)))
      (does : m.world.Does (.began s.tracker s.id) m'.world)
      (serial : s.serial = m.world.nextSerial)
  /-- One has been ended, and listeners are about to be told. -/
  | ended (new) {S reason} (stack : m'.stack = .answering (.flag true) :: (new ++ m.stack))
      (plain : ∀ f ∈ new, f.isNews = false)
      (control : m'.control = .telling S.tracker (.session (.stopped S.id reason)))
      (does : m.world.Does (.ended S.tracker S.id) m'.world) (lived : m.world.lives S = true)
  /-- One has been ended, and the callback for this is about to be called. -/
  | ending (new) {S reason label}
      (stack : m'.stack = .announcing S.tracker S.id reason :: (new ++ m.stack))
      (plain : ∀ f ∈ new, f.isNews = false)
      (control : m'.control = .calling label (.stopped S.id reason))
      (does : m.world.Does (.ended S.tracker S.id) m'.world) (lived : m.world.lives S = true)

namespace Turnover

/-- Nothing is pushed. -/
theorem stay {memory : σ} {w : World κ} {control : Control σ κ} {d : Deed κ}
    (does : m.world.Does d w) (same : d.isTurnover = false)
    (records : ∀ number task, d = .kept number task → added number task.id)
    (quiet : control.isNews = false) : Turnover added m ⟨memory, w, control, m.stack⟩ :=
  .still [] rfl (by simp) quiet does same records

/-- Nothing happens to the world and nothing is pushed. -/
theorem pass {memory : σ} {control : Control σ κ} (quiet : control.isNews = false) :
    Turnover added m ⟨memory, m.world, control, m.stack⟩ :=
  stay (World.Near.refl _).does rfl (by simp) quiet

/-- One frame is pushed, and something is called. -/
theorem push {memory : σ} {w : World κ} {control : Control σ κ} {f : Frame σ κ} {d : Deed κ}
    (does : m.world.Does d w) (same : d.isTurnover = false)
    (records : ∀ number task, d = .kept number task → added number task.id)
    (plain : f.isNews = false) (quiet : control.isNews = false) :
    Turnover added m ⟨memory, w, control, f :: m.stack⟩ :=
  .still [f] rfl (by simpa using plain) quiet does same records

/-- One frame is pushed, and something is called, but nothing happens to the world. -/
theorem call {control : Control σ κ} {f : Frame σ κ} (plain : f.isNews = false)
    (quiet : control.isNews = false) : Turnover added m ⟨m.memory, m.world, control, f :: m.stack⟩ :=
  push (World.Near.refl _).does rfl (by simp) plain quiet

/-- A frame is pushed first. -/
theorem of_push {f : Frame σ κ} (further : Turnover added (m.push f) m')
    (plain : f.isNews = false) : Turnover added m m' := by
  have joined : ∀ new : List (Frame σ κ), new ++ (m.push f).stack = (new ++ [f]) ++ m.stack := by
    intro new
    rw [Machine.push, List.append_assoc, List.singleton_append]
  have all : ∀ new : List (Frame σ κ), (∀ g ∈ new, g.isNews = false) →
      ∀ g ∈ new ++ [f], g.isNews = false := by
    intro new others g mem
    rcases List.mem_append.mp mem with mem | mem
    · exact others g mem
    · exact List.mem_singleton.mp mem ▸ plain
  cases further with
  | still new stack others control does same records =>
    exact .still _ (stack.trans (joined new)) (all new others) control does same records
  | began new stack others control does serial =>
    exact .began _ (joined new ▸ stack) (all new others) control does serial
  | ended new stack others control does lived =>
    exact .ended _ (joined new ▸ stack) (all new others) control does lived
  | ending new stack others control does lived =>
    exact .ending _ (joined new ▸ stack) (all new others) control does lived

theorem mono {more : Nat → TaskId → Prop} (implies : ∀ number id, added number id → more number id)
    (turnover : Turnover added m m') : Turnover more m m' := by
  cases turnover with
  | still new stack plain control does same records =>
    exact .still new stack plain control does same fun number task kept =>
      implies _ _ (records number task kept)
  | began new stack plain control does serial => exact .began new stack plain control does serial
  | ended new stack plain control does lived => exact .ended new stack plain control does lived
  | ending new stack plain control does lived => exact .ending new stack plain control does lived

/-- Something is done to the world, and records are added for the given tasks only. -/
theorem does (turnover : Turnover added m m') : ∃ d, m.world.Does d m'.world ∧
    ∀ number task, d = .kept number task → added number task.id := by
  cases turnover with
  | still new stack plain control does same records => exact ⟨_, does, records⟩
  | began new stack plain control does serial => exact ⟨_, does, nofun⟩
  | ended new stack plain control does lived => exact ⟨_, does, nofun⟩
  | ending new stack plain control does lived => exact ⟨_, does, nofun⟩

/-- The world has changed before in a way that sessions do not notice. -/
theorem of_near {w : World κ} (near : m.world.Near w)
    (further : Turnover added (m.withWorld w) m') : Turnover added m m' := by
  cases further with
  | still new stack plain control does same records =>
    exact .still new stack plain control (near.and_does does) same records
  | began new stack plain control does serial =>
    exact .began new stack plain control (near.and_does does) (serial.trans near.nextSerial)
  | ended new stack plain control does lived =>
    exact .ended new stack plain control (near.and_does does) (near.lives _ ▸ lived)
  | ending new stack plain control does lived =>
    exact .ending new stack plain control (near.and_does does) (near.lives _ ▸ lived)

end Turnover

/-! ### Functions of the library -/

theorem reply_turnover (m : Machine σ κ) (r : Reply) : Turnover added m (m.reply r) := .pass rfl

theorem deliver_store_turnover (m : Machine σ κ) (event : StoreEvent)
    (audience : List (Audience κ)) : Turnover added m (m.deliver (.store event) audience) := by
  match audience with
  | [] => exact m.reply_turnover .unit
  | .callback label :: rest => exact .call rfl rfl
  | .view about label :: rest =>
    rw [deliver]
    split
    · exact .call rfl rfl
    · exact .call rfl rfl
  | .wait number :: rest =>
    exact .push (d := .nothing) (m.world.near_tellWait number (.store event)).does rfl (by simp) rfl rfl

theorem mutate_turnover {α : Type} {number : Nat} {mutation : Mutation α} {d : Deed κ}
    (does : m.world.Does d (m.world.mutate number mutation)) (same : d.isTurnover = false)
    (records : ∀ number task, d = .kept number task → added number task.id) (r : Reply) :
    Turnover added m (m.mutate number mutation r) := by
  rw [mutate]
  split
  · exact .stay does same records rfl
  · exact .push does same records rfl rfl

theorem stopSession_turnover (m : Machine σ κ) (number : Nat) (id : TaskId) (only : Option Serial)
    (reason : StopReason) : Turnover added m (m.stopSession number id only reason) := by
  obtain still | ⟨serial, ⟨found, _⟩, ended⟩ := m.stopSession_cases number id only reason
  · rw [still]
    exact m.reply_turnover _
  · have lived : m.world.lives ⟨number, id, serial⟩ = true := World.lives_iff.mpr found
    have does : m.world.Does (.ended number id) (m.world.after (.ended number id)) :=
      World.does_after _ rfl
    obtain ended | ⟨label, ended⟩ := ended
    · rw [ended]
      exact .ended [] (S := ⟨number, id, serial⟩) rfl (by simp) rfl does lived
    · rw [ended]
      exact .ending [] (S := ⟨number, id, serial⟩) rfl (by simp) rfl does lived

theorem stopEach_turnover (m : Machine σ κ) (number count : Nat) (ids : List TaskId) :
    Turnover added m (m.stopEach number count ids) := by
  match ids with
  | [] => exact m.reply_turnover _
  | id :: rest =>
    exact .of_push (f := .stopping number rest count) (stopSession_turnover _ _ _ _ _) rfl

theorem startSession_turnover (m : Machine σ κ) (number : Nat) (id : TaskId) (fetcher : κ) :
    Turnover added m (m.startSession number id fetcher) := by
  obtain still | ⟨⟨_, free⟩, begun⟩ := m.startSession_cases number id fetcher
  · rw [still]
    exact m.reply_turnover _
  · rw [begun]
    exact .began [] (s := { tracker := number, id, serial := m.world.nextSerial, fetcher })
      rfl (by simp) rfl (World.does_began free) rfl

theorem resumeEach_turnover (m : Machine σ κ) (number : Nat) (factory : κ) (count : Nat)
    (offered : List Task) : Turnover added m (m.resumeEach number factory count offered) := by
  match offered with
  | [] => exact m.reply_turnover _
  | task :: rest => exact .call rfl rfl

private theorem near_reply_turnover {w : World κ} (near : m.world.Near w) (r : Reply) :
    Turnover added m ((m.withWorld w).reply r) :=
  .stay near.does rfl (by simp) rfl

theorem perform_turnover (m : Machine σ κ) (request : Call κ) :
    Turnover request.Adds m (m.perform request) := by
  cases request with
  | openTracker key cadence =>
    rw [perform]
    split
    · exact m.reply_turnover _
    · exact .stay (d := .opened key cadence) (World.does_after _ rfl) rfl (by simp) rfl
  | add number draft =>
    refine .of_near (m.world.near_stampDraft draft) (mutate_turnover
      (d := .kept number (m.world.stampDraft draft).1) (World.does_after _ rfl) rfl ?_ _)
    rintro k task ⟨⟩
    exact And.intro rfl (m.world.id_stampDraft draft).symm
  | update number id patch =>
    exact mutate_turnover (d := .patched number id patch) (World.does_after _ rfl) rfl (by simp) _
  | remove number id =>
    exact mutate_turnover (d := .dropped number id) (World.does_after _ rfl) rfl (by simp) _
  | clearTerminal number =>
    exact mutate_turnover (d := .cleared number) (World.does_after _ rfl) rfl (by simp) _
  | subscribeStore number label => exact near_reply_turnover (m.world.near_subscribeStore _ _) _
  | subscribeSessions number label =>
    exact near_reply_turnover (m.world.near_subscribeSessions _ _) _
  | release subscription => exact near_reply_turnover (m.world.near_release subscription) _
  | start number id fetcher => exact m.startSession_turnover number id fetcher
  | stop number id => exact m.stopSession_turnover number id none _
  | stopAll number => exact m.stopEach_turnover number 0 _
  | configure number patch =>
    rw [perform]
    split
    · exact m.reply_turnover _
    · next settings _ =>
      exact .stay (d := .configured number settings) (World.does_after _ rfl) rfl (by simp) rfl
  | track number draft fetcher =>
    refine .of_near (m.world.near_stampDraft draft) (.of_push
      (f := .tracking number (m.world.stampDraft draft).1 fetcher) (mutate_turnover
        (d := .kept number (m.world.stampDraft draft).1) (World.does_after _ rfl) rfl ?_ _) rfl)
    rintro k task ⟨⟩
    exact And.intro rfl (m.world.id_stampDraft draft).symm
  | resume number factory => exact m.resumeEach_turnover number factory 0 _
  | forget number id =>
    exact .of_push (f := .forgetting number id) (stopSession_turnover _ _ _ _ _) rfl
  | openView source kind => exact near_reply_turnover (m.world.near_aside _ _ _) _
  | watch view label => exact near_reply_turnover (m.world.near_watch view label) _
  | snapshot view => exact near_reply_turnover (m.world.near_snapshot view) _
  | seed key content =>
    exact .stay (d := .seeded key content) (World.does_after _ rfl) rfl (by simp) rfl

/-! ### Turns of a session -/

section Turn

variable {s : SessionTask κ}

theorem suspend_turnover (m : Machine σ κ) (s : SessionTask κ) (pause : Pause) :
    Turnover added m (m.suspend s pause) :=
  .stay (d := .paused ⟨s, pause⟩) (World.does_after _ rfl) rfl (by simp) rfl

private theorem stop_turnover (m : Machine σ κ) (s : SessionTask κ) (point : Point κ)
    (reason : StopReason) : Turnover added m
      ((m.push (.session s point)).stopSession s.tracker s.id (some s.serial) reason) :=
  .of_push (stopSession_turnover _ _ _ _ _) rfl

theorem finish_turnover (m : Machine σ κ) (s : SessionTask κ) : Turnover added m (m.finish s) := by
  rw [finish]
  split
  · exact m.stop_turnover s .aborting _
  · exact m.reply_turnover _

theorem nextRequest_turnover (m : Machine σ κ) (s : SessionTask κ) :
    Turnover added m (m.nextRequest s) := by
  rw [nextRequest]
  split
  · exact .call rfl rfl
  · exact m.finish_turnover s

theorem Responds.turnover {report : Report} {hooks : Hooks κ} {seen : List (Option Status)}
    (responds : Responds m s report hooks seen m') : Turnover added m m' := by
  cases responds with
  | ends ended => exact m.reply_turnover _
  | tells noted hook => exact .call rfl rfl
  | sleeps noted undecided => exact m.suspend_turnover _ _
  | @handles last label reason noted verdict hook =>
    refine .call rfl ?_
    rw [Report.conclusion]
    split <;> rfl
  | concludes noted verdict unset => exact m.stop_turnover _ .ending _

theorem Receives.turnover {result : Except FetchError Report} (receives : Receives m s result m') :
    Turnover added m m' := by
  cases receives with
  | ends ended => exact m.reply_turnover _
  | writes lives new counted =>
    exact .push (d := .patched s.tracker s.id _) (World.does_after _ rfl) rfl (by simp) rfl rfl
  | responds lives responds => exact responds.turnover
  | complains lives uncancelled hook => exact .call rfl rfl
  | sleeps lives => exact m.suspend_turnover s _

theorem continueSession_turnover (m : Machine σ κ) (c : Consumer σ κ) (s : SessionTask κ)
    (point : Point κ) : Turnover added m (m.continueSession c s point) := by
  cases point with
  | fetching turn =>
    rw [continueSession]
    split
    · exact (m.receive_receives s _).turnover
    · exact m.suspend_turnover s _
    · exact m.suspend_turnover s _
    · exact m.suspend_turnover s _
  | recorded report hooks => exact (m.changeStatus_responds s report hooks).turnover
  | changed report hooks => exact (m.afterStatus_responds s report hooks).turnover
  | concluded reason => exact m.stop_turnover s .ending reason
  | failed => exact m.suspend_turnover s _
  | ending => exact m.finish_turnover s
  | dropping => exact m.finish_turnover s
  | aborting => exact m.reply_turnover _

theorem wake_turnover (m : Machine σ κ) (entry : Suspended κ) : Turnover added m (m.wake entry) := by
  rw [wake]
  dsimp only
  split
  · exact m.nextRequest_turnover _
  · split
    · exact .call rfl rfl
    · exact .call rfl rfl
  · exact m.nextRequest_turnover _

theorem abandon_turnover (m : Machine σ κ) (entry : Suspended κ) :
    Turnover added m (m.abandon entry) := by
  rw [abandon]
  split
  · exact m.reply_turnover _
  · exact .call rfl rfl
  · exact m.finish_turnover _

end Turn

/-! ### Steps -/

theorem resume_turnover {f : Frame σ κ} (plain : f.isErrand = false) (c : Consumer σ κ)
    (r : Reply) : Turnover added m (m.resume c r f) := by
  cases f with
  | awaiting next => exact .pass rfl
  | delivering n rest =>
    cases n with
    | store event => exact m.deliver_store_turnover event rest
    | session event => simp [Frame.isErrand] at plain
  | answering reply => exact m.reply_turnover reply
  | announcing number id reason => simp [Frame.isErrand] at plain
  | stopping number rest count => exact m.stopEach_turnover number _ rest
  | spawning s =>
    exact .stay (d := .paused ⟨s, .fresh⟩) (World.does_after _ rfl) rfl (by simp) rfl
  | tracking number task fetcher =>
    rw [resume]
    split
    · exact m.reply_turnover _
    · exact .of_push (f := .answering (.task task)) (startSession_turnover _ _ _ _) rfl
  | offering number factory task rest count =>
    rw [resume]
    split
    · exact m.resumeEach_turnover number factory count rest
    · exact .of_push (f := .resuming number factory rest count) (startSession_turnover _ _ _ _) rfl
  | resuming number factory rest count => exact m.resumeEach_turnover number factory _ rest
  | forgetting number id =>
    exact mutate_turnover (d := .dropped number id) (World.does_after _ rfl) rfl (by simp) _
  | session s point => exact m.continueSession_turnover c s point

theorem unwind_turnover {f : Frame σ κ} (plain : f.isErrand = false) :
    Turnover added m (m.unwind f) := by
  cases f with
  | awaiting next => exact .pass rfl
  | delivering n rest =>
    cases n with
    | store event => exact m.deliver_store_turnover event rest
    | session event => simp [Frame.isErrand] at plain
  | session s point =>
    rw [unwind_session]
    exact m.finish_turnover s
  | announcing number id reason => simp [Frame.isErrand] at plain
  | _ => exact .pass rfl

theorem stepCode_turnover {p : Code σ κ} (runs : m.control = .code p) :
    Turnover m.Adds m (m.stepCode p) := by
  cases p with
  | done => exact m.reply_turnover _
  | panic => exact .pass rfl
  | look next => exact .pass rfl
  | note change next => exact .pass rfl
  | call request next =>
    refine .mono (fun number id adds => ⟨request, next, runs, adds⟩) ?_
    exact .of_push (f := .awaiting next) ((m.push (.awaiting next)).perform_turnover request) rfl

/-- A step that does not deal with earlier news takes its frame off the stack, and one session at
most comes or goes. -/
theorem step_turnover (control : ∀ number event, m.control ≠ .telling number (.session event))
    (frames : ∀ f ∈ m.taken, f.isErrand = false) (c : Consumer σ κ) :
    Turnover m.Adds m.below (m.step c) := by
  obtain ⟨memory, world, control', stack⟩ := m
  cases control' with
  | code p => exact stepCode_turnover rfl
  | calling label occasion => exact .pass rfl
  | telling number n =>
    cases n with
    | store event => exact deliver_store_turnover _ event _
    | session event => exact absurd rfl (control number event)
  | returned r =>
    cases stack with
    | nil => exact .pass rfl
    | cons f rest => exact resume_turnover (frames f (List.mem_singleton.mpr rfl)) c r
  | unwinding =>
    cases stack with
    | nil => exact .pass rfl
    | cons f rest => exact unwind_turnover (frames f (List.mem_singleton.mpr rfl))

theorem near_deliver (m : Machine σ κ) (n : Notice) (audience : List (Audience κ)) :
    m.world.Near (m.deliver n audience).world := by
  match audience with
  | [] => exact .refl _
  | .callback label :: rest => exact .refl _
  | .view about label :: rest =>
    rw [deliver]
    split
    · exact .refl _
    · exact .refl _
  | .wait number :: rest => exact m.world.near_tellWait number n

/-- A step that goes on with an errand leaves the sessions alone. -/
private theorem step_errand {f : Frame σ κ} (mem : f ∈ m.taken) (errand : f.isErrand = true)
    (c : Consumer σ κ) : m.world.Near (m.step c).world := by
  rw [← m.world_below]
  cases f with
  | delivering n rest =>
    rw [step_delivering mem c]
    exact m.below.near_deliver n rest
  | announcing number id reason =>
    rcases step_of_mem_taken mem c with ⟨r, goes⟩ | goes
    · rw [goes]
      exact .refl _
    · rw [goes]
      exact .refl _
  | _ => simp [Frame.isErrand] at errand

/-- A step begins to tell listeners of a session, goes on with an errand, or one session at most
comes or goes. -/
theorem step_errand_or_turnover (m : Machine σ κ) (c : Consumer σ κ) :
    (∃ number event, m.control = .telling number (.session event)) ∨
      (∃ f ∈ m.taken, f.isErrand = true) ∨ Turnover m.Adds m.below (m.step c) := by
  by_cases telling : ∃ number event, m.control = .telling number (.session event)
  · exact .inl telling
  by_cases errand : ∃ f ∈ m.taken, f.isErrand = true
  · exact .inr (.inl errand)
  refine .inr (.inr (step_turnover (fun number event control => ?_) (fun f mem => ?_) c))
  · exact telling ⟨number, event, control⟩
  · exact Bool.eq_false_iff.mpr fun yes => errand ⟨f, mem, yes⟩

/-- A step deals with earlier news and leaves the sessions alone, or one session at most comes or
goes. -/
theorem step_near_or_turnover (m : Machine σ κ) (c : Consumer σ κ) :
    m.world.Near (m.step c).world ∨ Turnover m.Adds m.below (m.step c) := by
  rcases m.step_errand_or_turnover c with ⟨number, event, control⟩ | ⟨f, mem, errand⟩ | turnover
  · rw [step_of_telling control c]
    exact .inl (m.near_deliver _ _)
  · exact .inl (step_errand mem errand c)
  · exact .inr turnover

end Machine

end TaskWatch
