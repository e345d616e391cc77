import Mathlib.Data.List.Perm.Subperm
import TaskWatch.Proofs.Run.Response

/-!
# What a step can do

A step takes at most the top frame off the stack, and what it then does is always of one form: it
pushes some frames, does one deed, and goes on with something. Each function of the machine has one
lemma that says so. It also says which tasks are touched, given the tasks that the calls of the
consumer touch, and which sessions stand on the new frames.

## Main definitions

* `Call.IsWithin`, `Code.IsWithin`, `Frame.IsWithin`, `Consumer.IsWithin` — calls, code, frames and
  callbacks that touch certain tasks only.
* `Frame.names` — the session that stands on a frame.
* `Machine.Grows`, `Machine.Extends` — the form of what a step does.

## Main results

* `Machine.perform_extends` and its likes — one lemma for each function of the machine.
-/

namespace TaskWatch

variable {σ κ : Type}

/-! ### What is touched -/

section Within

variable (tasks : Nat → TaskId → Prop)

/-- A call touches certain tasks only. Starting a session for a task does not touch it, nor does
resuming sessions. -/
def Call.IsWithin : Call κ → Prop
  | .add number draft | .track number draft _ => tasks number draft.id
  | .update number id _ | .remove number id | .stop number id | .forget number id => tasks number id
  | .clearTerminal number | .stopAll number | .configure number _ => ∀ id, tasks number id
  | _ => True

/-- Code makes only calls that touch certain tasks only. -/
def Code.IsWithin : Code σ κ → Prop
  | .done | .panic => True
  | .look next => ∀ scene memory, IsWithin (next scene memory)
  | .note _ next => IsWithin next
  | .call request next => request.IsWithin tasks ∧ ∀ reply, IsWithin (next reply)

/-- Callbacks, fetchers and factories touch certain tasks only. -/
def Consumer.IsWithin (c : Consumer σ κ) : Prop :=
  ∀ label occasion, Code.IsWithin tasks (c.react label occasion)

/-- What is going on touches certain tasks only. -/
def Control.IsWithin : Control σ κ → Prop
  | .code p => Code.IsWithin tasks p
  | _ => True

/-- What goes on with a frame touches certain tasks only, a session's own turn apart. -/
def Frame.IsWithin : Frame σ κ → Prop
  | .awaiting next => ∀ reply, Code.IsWithin tasks (next reply)
  | .forgetting number id => tasks number id
  | .stopping number rest _ => ∀ id ∈ rest, tasks number id
  | _ => True

variable {tasks}

theorem Call.isWithin_of_forall (all : ∀ number id, tasks number id) (request : Call κ) :
    request.IsWithin tasks := by
  cases request <;> first | trivial | exact all _ _ | exact all _

theorem Code.isWithin_of_forall (all : ∀ number id, tasks number id) (p : Code σ κ) :
    Code.IsWithin tasks p := by
  induction p with
  | done => trivial
  | panic => trivial
  | look next ih => exact fun scene memory => ih scene memory
  | note change next ih => exact ih
  | call request next ih => exact ⟨request.isWithin_of_forall all, ih⟩

theorem Frame.isWithin_of_forall (all : ∀ number id, tasks number id) (f : Frame σ κ) :
    f.IsWithin tasks := by
  cases f with
  | awaiting next => exact fun reply => Code.isWithin_of_forall all (next reply)
  | forgetting number id => exact all number id
  | stopping number rest count => exact fun id _ => all number id
  | _ => trivial

end Within

/-! ### Sessions on frames -/

/-- The session that stands on a frame, in its turn or about to be handed to the executor. -/
def Frame.names : Frame σ κ → List SessionName
  | session s _ | spawning s => [s.name]
  | _ => []

/-- The session that a deed creates. -/
def Deed.news (w : World κ) : Deed κ → List SessionName
  | began number id => [⟨number, id, w.nextSerial⟩]
  | _ => []

/-- Whether a callback is about to be called, or listeners are about to be told of something. -/
def Control.isAct : Control σ κ → Bool
  | calling _ _ | telling _ _ => true
  | _ => false

/-- Whether listeners are about to be told of something. -/
def Control.isTelling : Control σ κ → Bool
  | telling _ _ => true
  | _ => false

/-- Whether a session in its turn stands on a frame. -/
def Frame.isSession : Frame σ κ → Bool
  | session _ _ => true
  | _ => false

/-- Whether a session on a frame has written a status and not gone on from there. -/
def Frame.isRecorded : Frame σ κ → Bool
  | session _ (.recorded _ _) => true
  | _ => false

theorem World.id_stampDraft (w : World κ) (draft : Draft) : (w.stampDraft draft).1.id = draft.id := by
  rw [stampDraft]
  split <;> rfl

namespace Machine

variable {tasks : Nat → TaskId → Prop} {given : List SessionName} {m m' : Machine σ κ}

/-- What a step does after it has taken its frame off the stack: it pushes frames and does one deed.
The sessions on the new frames and the one it suspends stood on the old frame, or are new. -/
structure Grows (tasks : Nat → TaskId → Prop) (given : List SessionName) (m m' : Machine σ κ)
    (new : List (Frame σ κ)) (d : Deed κ) : Prop where
  /-- The new frames lie on the old ones. -/
  stack : m'.stack = new ++ m.stack
  /-- What goes on touches these tasks only. -/
  control : m'.control.IsWithin tasks
  /-- So do the new frames. -/
  frames : ∀ f ∈ new, f.IsWithin tasks
  /-- A session in its turn has been in its turn before. -/
  turns : ∀ s point, .session s point ∈ new → s.name ∈ given
  /-- What is called has a frame to return to. -/
  top : m'.control.isAct = true → new ≠ []
  /-- A session that has written a status tells the listeners first; and only sessions that live
  write. -/
  recorded : ∀ f ∈ new, f.isRecorded = true →
    new = [f] ∧ m'.control.isTelling = true ∧ ∀ S ∈ f.names, m.world.lives S = true
  /-- One deed is done. -/
  does : m.world.Does d m'.world
  /-- It touches these tasks only. -/
  within : d.IsWithin tasks
  /-- No session multiplies. -/
  names : (new.flatMap Frame.names ++ d.suspends.map fun entry => entry.task.name).Subperm
    (given ++ d.news m.world)

/-- A step does something of this form. -/
def Extends (tasks : Nat → TaskId → Prop) (given : List SessionName) (m m' : Machine σ κ) : Prop :=
  ∃ new d, Grows tasks given m m' new d

/-- Nothing is pushed. -/
theorem Extends.stay {memory : σ} {w : World κ} {control : Control σ κ} {d : Deed κ}
    (does : m.world.Does d w) (within : d.IsWithin tasks) (passive : control.isAct = false)
    (code : control.IsWithin tasks)
    (names : (d.suspends.map fun entry => entry.task.name).Subperm (given ++ d.news m.world)) :
    Extends tasks given m ⟨memory, w, control, m.stack⟩ :=
  ⟨[], d, rfl, code, by simp, by simp, by simp [passive], by simp, does, within,
    by simpa using names⟩

/-- One frame is pushed. -/
theorem Extends.push {memory : σ} {w : World κ} {control : Control σ κ} {f : Frame σ κ} {d : Deed κ}
    (does : m.world.Does d w) (within : d.IsWithin tasks) (frame : f.IsWithin tasks)
    (code : control.IsWithin tasks) (turns : ∀ s point, .session s point = f → s.name ∈ given)
    (recorded : f.isRecorded = true →
      control.isTelling = true ∧ ∀ S ∈ f.names, m.world.lives S = true)
    (names : (f.names ++ d.suspends.map fun entry => entry.task.name).Subperm
      (given ++ d.news m.world)) :
    Extends tasks given m ⟨memory, w, control, f :: m.stack⟩ :=
  ⟨[f], d, rfl, code, by simpa using frame, by simpa using turns, by simp, by simpa using recorded,
    does, within, by simpa using names⟩

/-- One frame of the library is pushed. -/
theorem Extends.pushOwn {memory : σ} {w : World κ} {control : Control σ κ} {f : Frame σ κ}
    {d : Deed κ} (does : m.world.Does d w) (within : d.IsWithin tasks) (frame : f.IsWithin tasks)
    (code : control.IsWithin tasks) (own : f.isSession = false)
    (names : (f.names ++ d.suspends.map fun entry => entry.task.name).Subperm
      (given ++ d.news m.world)) :
    Extends tasks given m ⟨memory, w, control, f :: m.stack⟩ := by
  refine .push does within frame code ?_ ?_ names
  · rintro s point rfl
    simp [Frame.isSession] at own
  · intro written
    cases f <;> simp [Frame.isSession, Frame.isRecorded] at own written

/-- A frame is pushed first. -/
theorem Extends.of_push {f : Frame σ κ} (further : Extends tasks [] (m.push f) m')
    (frame : f.IsWithin tasks) (plain : f.isRecorded = false) : Extends tasks f.names m m' := by
  obtain ⟨new, d, grows⟩ := further
  refine ⟨new ++ [f], d, ?_, grows.control, ?_, ?_, by simp, ?_, grows.does, grows.within, ?_⟩
  · rw [grows.stack, Machine.push, List.append_assoc, List.singleton_append]
  · intro g mem
    rcases List.mem_append.mp mem with mem | mem
    · exact grows.frames g mem
    · exact List.mem_singleton.mp mem ▸ frame
  · intro s point mem
    rcases List.mem_append.mp mem with mem | mem
    · exact absurd (grows.turns s point mem) List.not_mem_nil
    · rw [← List.mem_singleton.mp mem]
      exact List.mem_singleton.mpr rfl
  · intro g mem written
    rcases List.mem_append.mp mem with mem | mem
    · cases g with
      | session s point => exact absurd (grows.turns s point mem) List.not_mem_nil
      | _ => simp [Frame.isRecorded] at written
    · rw [List.mem_singleton.mp mem, plain] at written
      exact absurd written Bool.false_ne_true
  · have names := (List.subperm_append_right f.names).mpr grows.names
    rw [List.nil_append] at names
    refine (List.Perm.subperm ?_).trans (names.trans List.perm_append_comm.subperm)
    rw [List.flatMap_append, List.flatMap_singleton, List.append_assoc, List.append_assoc]
    exact List.perm_append_comm.append_left _

/-- The world has changed before in a way that sessions do not notice. -/
theorem Extends.of_near {w : World κ} (near : m.world.Near w)
    (further : Extends tasks given (m.withWorld w) m') : Extends tasks given m m' := by
  obtain ⟨new, d, grows⟩ := further
  have news : d.news w = d.news m.world := by
    cases d <;> first | rfl | rw [Deed.news, Deed.news, near.nextSerial]
  refine ⟨new, d, grows.stack, grows.control, grows.frames, grows.turns, grows.top, ?_,
    near.and_does grows.does, grows.within, news ▸ grows.names⟩
  intro f mem written
  obtain ⟨alone, telling, live⟩ := grows.recorded f mem written
  exact ⟨alone, telling, fun S on => near.lives S ▸ live S on⟩

/-- Nothing happens to the world and nothing is pushed. -/
theorem Extends.pass {memory : σ} {control : Control σ κ} (passive : control.isAct = false)
    (code : control.IsWithin tasks) : Extends tasks given m ⟨memory, m.world, control, m.stack⟩ :=
  .stay (World.Near.refl _).does trivial passive code (List.nil_subperm)

theorem reply_extends (m : Machine σ κ) (r : Reply) : Extends tasks given m (m.reply r) :=
  .pass rfl trivial

/-- A frame of the library is pushed, and something is called. -/
theorem Extends.call {w : World κ} {f : Frame σ κ} {control : Control σ κ} (near : m.world.Near w)
    (frame : f.IsWithin tasks) (code : control.IsWithin tasks) (old : f.names = []) :
    Extends tasks given m ⟨m.memory, w, control, f :: m.stack⟩ := by
  refine .push near.does trivial frame code ?_ ?_ (by simp [old, Deed.suspends, List.nil_subperm])
  · rintro s point rfl
    simp [Frame.names] at old
  · intro written
    cases f <;> simp_all [Frame.names, Frame.isRecorded]

/-! ### Functions of the library -/

theorem deliver_extends (m : Machine σ κ) (n : Notice) (audience : List (Audience κ)) :
    Extends tasks given m (m.deliver n audience) := by
  match audience with
  | [] => exact m.reply_extends .unit
  | .callback label :: rest => exact .call (.refl _) trivial trivial rfl
  | .view about label :: rest =>
    rw [deliver]
    split
    · exact .call (.refl _) trivial trivial rfl
    · exact .call (.refl _) trivial trivial rfl
  | .wait number :: rest => exact .call (m.world.near_tellWait number n) trivial trivial rfl

theorem mutate_extends {α : Type} {number : Nat} {mutation : Mutation α} {d : Deed κ}
    (does : m.world.Does d (m.world.mutate number mutation)) (within : d.IsWithin tasks)
    (quiet : d.suspends = []) (r : Reply) : Extends tasks given m (m.mutate number mutation r) := by
  rw [mutate]
  split
  · exact .stay does within rfl trivial (by simp [quiet, List.nil_subperm])
  · exact .pushOwn does within trivial trivial rfl
      (by simp [quiet, Frame.names, List.nil_subperm])

theorem announce_extends (m : Machine σ κ) (number : Nat) (id : TaskId) (reason : StopReason) :
    Extends tasks given m (m.announce number id reason) :=
  .call (.refl _) trivial trivial rfl

/-- Only the session that is meant is touched. -/
theorem stopSession_extends {number : Nat} {id : TaskId} {only : Option Serial} {reason : StopReason}
    (within : ∀ serial, (m.tracker number).sessions.find? id = some serial →
      only.all (· = serial) → tasks number id) :
    Extends tasks given m (m.stopSession number id only reason) := by
  obtain still | ⟨serial, ⟨found, meant⟩, ended⟩ := m.stopSession_cases number id only reason
  · rw [still]
    exact m.reply_extends _
  · have does : m.world.Does (.ended number id) (m.world.after (.ended number id)) :=
      World.does_after _ rfl
    have touched := within serial found meant
    obtain ended | ⟨label, ended⟩ := ended
    · rw [ended]
      exact .pushOwn does touched trivial trivial rfl
        (by simp [Frame.names, Deed.suspends, List.nil_subperm])
    · rw [ended]
      exact .pushOwn does touched trivial trivial rfl
        (by simp [Frame.names, Deed.suspends, List.nil_subperm])

theorem stopEach_extends {number : Nat} {ids : List TaskId} (within : ∀ id ∈ ids, tasks number id)
    (count : Nat) : Extends tasks [] m (m.stopEach number count ids) := by
  match ids with
  | [] => exact m.reply_extends _
  | id :: rest =>
    have first : tasks number id := within id List.mem_cons_self
    exact .of_push (f := .stopping number rest count) (stopSession_extends fun _ _ _ => first)
      (fun other mem => within other (List.mem_cons_of_mem _ mem)) rfl

theorem startSession_extends (m : Machine σ κ) (number : Nat) (id : TaskId) (fetcher : κ) :
    Extends tasks given m (m.startSession number id fetcher) := by
  obtain still | ⟨⟨_, free⟩, begun⟩ := m.startSession_cases number id fetcher
  · rw [still]
    exact m.reply_extends _
  · rw [begun]
    exact .pushOwn (World.does_began free) trivial trivial trivial rfl
      (List.sublist_append_right _ _).subperm

theorem resumeEach_extends (m : Machine σ κ) (number : Nat) (factory : κ) (count : Nat)
    (offered : List Task) : Extends tasks given m (m.resumeEach number factory count offered) := by
  match offered with
  | [] => exact m.reply_extends _
  | task :: rest => exact .call (.refl _) trivial trivial rfl

/-- A change of the world that sessions do not notice, and a reply. -/
private theorem near_reply_extends {w : World κ} (near : m.world.Near w) (r : Reply) :
    Extends tasks given m ((m.withWorld w).reply r) :=
  .stay near.does trivial rfl trivial List.nil_subperm

private theorem does_reply_extends {d : Deed κ} (within : d.IsWithin tasks)
    (old : ∀ number id, d ≠ .began number id) (quiet : d.suspends = []) (r : Reply) :
    Extends tasks given m ((m.withWorld (m.world.after d)).reply r) :=
  .stay ⟨_, .refl _, rfl, fun number id began => absurd began (old number id)⟩ within rfl trivial
    (by simp [quiet, List.nil_subperm])

theorem perform_extends {request : Call κ} (within : request.IsWithin tasks) :
    Extends tasks [] m (m.perform request) := by
  cases request with
  | openTracker key cadence =>
    rw [perform]
    split
    · exact m.reply_extends _
    · exact does_reply_extends (d := .opened key cadence) trivial nofun rfl _
  | add number draft =>
    exact .of_near (m.world.near_stampDraft draft) (mutate_extends
      (d := .kept number (m.world.stampDraft draft).1) (World.does_after _ rfl)
      (m.world.id_stampDraft draft ▸ within : tasks number (m.world.stampDraft draft).1.id) rfl _)
  | update number id patch =>
    exact mutate_extends (d := .patched number id patch) (World.does_after _ rfl) within rfl _
  | remove number id =>
    exact mutate_extends (d := .dropped number id) (World.does_after _ rfl) within rfl _
  | clearTerminal number =>
    exact mutate_extends (d := .cleared number) (World.does_after _ rfl) within rfl _
  | subscribeStore number label => exact near_reply_extends (m.world.near_subscribeStore _ _) _
  | subscribeSessions number label =>
    exact near_reply_extends (m.world.near_subscribeSessions _ _) _
  | release subscription => exact near_reply_extends (m.world.near_release subscription) _
  | start number id fetcher => exact m.startSession_extends number id fetcher
  | stop number id => exact stopSession_extends fun _ _ _ => within
  | stopAll number => exact stopEach_extends (fun id _ => within id) 0
  | configure number patch =>
    rw [perform]
    split
    · exact m.reply_extends _
    · next settings _ =>
      exact does_reply_extends (d := .configured number settings) within nofun rfl _
  | track number draft fetcher =>
    refine .of_near (m.world.near_stampDraft draft) (.of_push
      (f := .tracking number (m.world.stampDraft draft).1 fetcher) ?_ trivial rfl)
    exact mutate_extends (d := .kept number (m.world.stampDraft draft).1) (World.does_after _ rfl)
      (m.world.id_stampDraft draft ▸ within : tasks number (m.world.stampDraft draft).1.id) rfl _
  | resume number factory => exact m.resumeEach_extends number factory 0 _
  | forget number id =>
    exact .of_push (f := .forgetting number id) (stopSession_extends fun _ _ _ => within) within rfl
  | openView source kind => exact near_reply_extends (m.world.near_aside _ _ _) _
  | watch view label => exact near_reply_extends (m.world.near_watch view label) _
  | snapshot view => exact near_reply_extends (m.world.near_snapshot view) _
  | seed key content => exact does_reply_extends (d := .seeded key content) trivial nofun rfl _

/-! ### Turns of a session -/

section Turn

variable {s : SessionTask κ}

/-- A session goes to sleep, or waits for its fetcher. -/
theorem suspend_extends (m : Machine σ κ) (s : SessionTask κ) (pause : Pause) :
    Extends tasks [s.name] m (m.suspend s pause) :=
  .stay (d := .paused ⟨s, pause⟩) (World.does_after _ rfl) trivial rfl trivial (.refl _)

/-- Something is called from the turn of a session. -/
private theorem Extends.callFrom {point : Point κ} {control : Control σ κ}
    (code : control.IsWithin tasks) (plain : (Frame.session s point : Frame σ κ).isRecorded = false) :
    Extends tasks [s.name] m ⟨m.memory, m.world, control, .session s point :: m.stack⟩ := by
  refine .push (World.Near.refl _).does trivial trivial code ?_ (by simp [plain])
    (List.Perm.refl _).subperm
  rintro _ _ ⟨⟩
  exact List.mem_singleton.mpr rfl

private theorem stop_extends {point : Point κ} {reason : StopReason}
    (touch : m.world.lives s.name → tasks s.tracker s.id)
    (plain : (Frame.session s point : Frame σ κ).isRecorded = false) :
    Extends tasks [s.name] m
      ((m.push (.session s point)).stopSession s.tracker s.id (some s.serial) reason) := by
  refine .of_push (f := .session s point) (stopSession_extends fun serial found meant => ?_) trivial
    plain
  refine touch (World.lives_iff.mpr (found.trans ?_))
  simpa [SessionTask.name, eq_comm] using meant

theorem finish_extends (touch : m.world.lives s.name → tasks s.tracker s.id) :
    Extends tasks [s.name] m (m.finish s) := by
  rw [finish]
  split
  · exact stop_extends touch rfl
  · exact m.reply_extends _

theorem nextRequest_extends (touch : m.world.lives s.name → tasks s.tracker s.id) :
    Extends tasks [s.name] m (m.nextRequest s) := by
  rw [nextRequest]
  split
  · exact Extends.callFrom (s := { s with calls := s.calls + 1 }) trivial rfl
  · exact finish_extends touch

/-- What a session does with a report. -/
theorem Responds.extended {report : Report} {hooks : Hooks κ} {seen : List (Option Status)}
    (responds : Responds m s report hooks seen m')
    (touch : m.world.lives s.name → tasks s.tracker s.id) : Extends tasks [s.name] m m' := by
  cases responds with
  | ends ended => exact m.reply_extends _
  | tells noted hook => exact .callFrom (s := { s with last := some report.status }) trivial rfl
  | @sleeps last noted undecided => exact m.suspend_extends { s with last } _
  | @handles last label reason noted verdict hook =>
    exact .callFrom (s := { s with last }) trivial rfl
  | @concludes last reason noted verdict unset =>
    exact stop_extends (s := { s with last }) touch rfl

/-- What a session does with an answer. Only a session that lives writes. -/
theorem Receives.extended {result : Except FetchError Report} (receives : Receives m s result m')
    (touch : m.world.lives s.name → tasks s.tracker s.id) : Extends tasks [s.name] m m' := by
  cases receives with
  | ends ended => exact m.reply_extends _
  | writes lives new counted =>
    refine .push (d := .patched s.tracker s.id _) (World.does_after _ rfl) (touch lives) trivial
      trivial ?_ (fun _ => ⟨rfl, fun S on => ?_⟩) (List.Perm.refl _).subperm
    · rintro _ _ ⟨⟩
      exact List.mem_singleton.mpr rfl
    · rw [List.mem_singleton.mp on]
      exact lives
  | responds lives responds => exact responds.extended touch
  | complains lives uncancelled hook => exact .callFrom trivial rfl
  | sleeps lives => exact m.suspend_extends s _

theorem continueSession_extends (c : Consumer σ κ)
    (touch : m.world.lives s.name → tasks s.tracker s.id) (point : Point κ) :
    Extends tasks [s.name] m (m.continueSession c s point) := by
  cases point with
  | fetching turn =>
    rw [continueSession]
    split
    · exact (m.receive_receives s _).extended touch
    · exact m.suspend_extends s _
    · exact m.suspend_extends s _
    · exact m.suspend_extends s _
  | recorded report hooks => exact (m.changeStatus_responds s report hooks).extended touch
  | changed report hooks => exact (m.afterStatus_responds s report hooks).extended touch
  | concluded reason => exact stop_extends touch rfl
  | failed => exact m.suspend_extends s _
  | ending => exact finish_extends touch
  | dropping => exact finish_extends touch
  | aborting => exact m.reply_extends _

theorem wake_extends {entry : Suspended κ}
    (touch : m.world.lives entry.task.name → tasks entry.task.tracker entry.task.id) :
    Extends tasks [entry.task.name] m (m.wake entry) := by
  rw [wake]
  dsimp only
  split
  · let last := ((m.tracker entry.task.tracker).store.tasks.find? entry.task.id).map Task.status
    exact nextRequest_extends (s := { entry.task with last }) touch
  · split
    · exact .callFrom trivial rfl
    · exact .callFrom trivial rfl
  · exact nextRequest_extends touch

theorem abandon_extends {entry : Suspended κ}
    (touch : m.world.lives entry.task.name → tasks entry.task.tracker entry.task.id) :
    Extends tasks [entry.task.name] m (m.abandon entry) := by
  rw [abandon]
  split
  · exact m.reply_extends _
  · exact .callFrom trivial rfl
  · exact finish_extends touch

end Turn

end Machine

end TaskWatch
