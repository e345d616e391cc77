import TaskWatch.Machine.World

/-!
# Trackers at work

Consumer code, listeners, callbacks and sessions run one at a time and to the end of their turn,
but each of them may call the library and thereby cause others to run inside it. The machine makes
this explicit: it takes one small step at a time, and what waits for the current step to end stands
on a stack of frames. A panic goes up the stack; deliveries swallow it, and a session that it
reaches ends.

It is assumed that a panic goes up the stack at all, and does not end the whole program: neither is
the program built in such a way, nor does it end when the code that runs while a panic goes up the
stack panics in turn. Such a second panic goes up the stack in place of the first.

## Main definitions

* `Control` — the current step; `Frame` — what waits for it.
* `Machine` — memory of the consumer, world, control and stack.
* `Machine.step` — one step.
* `Machine.settle` — steps until there is nothing left to do.
-/

namespace TaskWatch

/-- What is being done. -/
inductive Control (σ κ : Type) where
  /-- Code of the consumer runs. -/
  | code (p : Code σ κ)
  | calling (label : κ) (occasion : Occasion)
  /-- The listeners of a tracker are told of something. -/
  | telling (tracker : Nat) (n : Notice)
  | returned (reply : Reply)
  /-- A panic goes up the stack. -/
  | unwinding

/-- Where a session is while something runs inside its turn. -/
inductive Point (κ : Type) where
  | fetching (turn : Nat)
  /-- Listeners are told of the status it has written. -/
  | recorded (report : Report) (hooks : Hooks κ)
  | changed (report : Report) (hooks : Hooks κ)
  | concluded (reason : StopReason)
  | failed
  /-- It stops itself after a terminal report. -/
  | ending
  /-- Its unanswered request is given up. -/
  | dropping
  /-- It is stopped because it cannot go on. -/
  | aborting

/-- What waits for the current step to end. -/
inductive Frame (σ κ : Type) where
  /-- Consumer code that goes on with the reply. -/
  | awaiting (next : Option Reply → Code σ κ)
  /-- The delivery of a notice to further listeners. -/
  | delivering (n : Notice) (rest : List (Audience κ))
  /-- A call that has its reply already. -/
  | answering (reply : Reply)
  /-- A stopped session about to be announced. -/
  | announcing (tracker : Nat) (id : TaskId) (reason : StopReason)
  /-- Further tasks to stop polling for, and how many sessions have been stopped. -/
  | stopping (tracker : Nat) (rest : List TaskId) (count : Nat)
  /-- A new session about to be handed to the executor. -/
  | spawning (session : SessionTask κ)
  /-- A new record about to be polled for. -/
  | tracking (tracker : Nat) (task : Task) (fetcher : κ)
  /-- A task that a factory has been offered, and further ones. -/
  | offering (tracker : Nat) (factory : κ) (task : Task) (rest : List Task) (count : Nat)
  /-- Further tasks to resume, and how many sessions have been started. -/
  | resuming (tracker : Nat) (factory : κ) (rest : List Task) (count : Nat)
  /-- A task whose record is about to be deleted. -/
  | forgetting (tracker : Nat) (id : TaskId)
  | session (s : SessionTask κ) (point : Point κ)

/-- Trackers at work for a consumer. -/
structure Machine (σ κ : Type) where
  memory : σ
  world : World κ
  control : Control σ κ
  /-- What waits for it, the innermost frame first. -/
  stack : List (Frame σ κ)

namespace Machine

variable {σ κ : Type}

/-- A machine that has nothing to do. -/
def idle (memory : σ) (world : World κ) : Machine σ κ := ⟨memory, world, .returned .unit, []⟩

/-- Whether the machine has nothing to do. -/
def isIdle (m : Machine σ κ) : Bool :=
  match m.stack, m.control with
  | [], .returned _ | [], .unwinding => true
  | _, _ => false

/-- End the current step with a reply. -/
def reply (m : Machine σ κ) (r : Reply) : Machine σ κ := { m with control := .returned r }

/-- Run code of the consumer. -/
def code (m : Machine σ κ) (p : Code σ κ) : Machine σ κ := { m with control := .code p }

/-- Call a callback, fetcher or factory. -/
def invoke (m : Machine σ κ) (label : κ) (occasion : Occasion) : Machine σ κ :=
  { m with control := .calling label occasion }

/-- Tell the listeners of a tracker of something. -/
def tell (m : Machine σ κ) (number : Nat) (n : Notice) : Machine σ κ :=
  { m with control := .telling number n }

/-- Let something wait for what is done next. -/
def push (m : Machine σ κ) (f : Frame σ κ) : Machine σ κ := { m with stack := f :: m.stack }

/-- Change the world. -/
def withWorld (m : Machine σ κ) (w : World κ) : Machine σ κ := { m with world := w }

/-- The tracker with a number. -/
def tracker (m : Machine σ κ) (number : Nat) : Tracker κ := m.world.tracker number

/-- The task in whose session's turn something runs: a session stands at the bottom of the
stack. -/
def turnOf (m : Machine σ κ) : Option TaskId :=
  match m.stack.getLast? with
  | some (.session s _) => some s.id
  | _ => none

/-! ### Telling listeners -/

/-- Tell listeners of something, beginning with the first. -/
def deliver (m : Machine σ κ) (n : Notice) : List (Audience κ) → Machine σ κ
  | [] => m.reply .unit
  | .callback label :: rest => (m.push (.delivering n rest)).invoke label (.notice n)
  | .view about label :: rest =>
    let m := m.push (.delivering n rest)
    if about.all n.affects then m.invoke label .viewChanged else m.reply .unit
  | .wait number :: rest =>
    ((m.push (.delivering n rest)).withWorld (m.world.tellWait number n)).reply .unit

/-- Carry out a change of a collection, tell the listeners if there is something to report, and
reply. -/
def mutate {α : Type} (m : Machine σ κ) (number : Nat) (mutation : Mutation α) (r : Reply) :
    Machine σ κ :=
  let m := m.withWorld (m.world.mutate number mutation)
  match mutation.event with
  | none => m.reply r
  | some event => (m.push (.answering r)).tell number (.store event)

/-! ### Starting and stopping sessions -/

/-- Announce that a session has ended. -/
def announce (m : Machine σ κ) (number : Nat) (id : TaskId) (reason : StopReason) :
    Machine σ κ :=
  (m.push (.answering (.flag true))).tell number (.session (.stopped id reason))

/-- Stop the session of a task, or only the one with a serial number: it ends at once, then the
callback for stopped sessions runs, and then the end is announced. -/
def stopSession (m : Machine σ κ) (number : Nat) (id : TaskId) (only : Option Serial)
    (reason : StopReason) : Machine σ κ :=
  match (m.tracker number).sessions.find? id with
  | none => m.reply (.flag false)
  | some serial =>
    if only.all (· = serial) then
      let m := m.withWorld <|
        m.world.modifyTracker number fun t => { t with sessions := t.sessions.erase id }
      match (m.tracker number).settings.hooks.stopped with
      | none => announce m number id reason
      | some label => (m.push (.announcing number id reason)).invoke label (.stopped id reason)
    else m.reply (.flag false)

/-- Stop sessions one after the other, counting them. -/
def stopEach (m : Machine σ κ) (number : Nat) (count : Nat) : List TaskId → Machine σ κ
  | [] => m.reply (.count count)
  | id :: rest => stopSession (m.push (.stopping number rest count)) number id none .requested

/-- Start a session for a task unless there is one, or no executor to run it. -/
def startSession (m : Machine σ κ) (number : Nat) (id : TaskId) (fetcher : κ) : Machine σ κ :=
  if !m.world.hasExecutor || (m.tracker number).isPolling id then m.reply (.flag false)
  else
    let serial := m.world.nextSerial
    let w := m.world.modifyTracker number fun t =>
      { t with sessions := t.sessions.insert id serial }
    let m := m.withWorld { w with nextSerial := serial + 1 }
    (m.push (.spawning { tracker := number, id, serial, fetcher })).tell number
      (.session (.started id))

/-- Offer tasks to a factory one after the other, counting the sessions started. -/
def resumeEach (m : Machine σ κ) (number : Nat) (factory : κ) (count : Nat) :
    List Task → Machine σ κ
  | [] => m.reply (.count count)
  | task :: rest =>
    (m.push (.offering number factory task rest count)).invoke factory (.offered task)

/-! ### Calls -/

/-- Begin a call of consumer code. -/
def perform (m : Machine σ κ) : Call κ → Machine σ κ
  | .openTracker key cadence =>
    match cadence.check with
    | .error e => m.reply (.refused e)
    | .ok () =>
      let w := m.world
      (m.withWorld { w with trackers := w.trackers ++ [.ofStorage w.storage key cadence] }).reply
        (.number w.trackers.length)
  | .add number draft =>
    let (task, w) := m.world.stampDraft draft
    mutate (m.withWorld w) number ((w.tracker number).store.tasks.add task) (.task task)
  | .update number id patch =>
    let mutation := (m.tracker number).store.tasks.update id patch
    mutate m number mutation (.outcome mutation.answer)
  | .remove number id =>
    let mutation := (m.tracker number).store.tasks.remove id
    mutate m number mutation (.removed mutation.answer)
  | .clearTerminal number =>
    let mutation := (m.tracker number).store.tasks.clearTerminal
    mutate m number mutation (.cleared mutation.answer)
  | .subscribeStore number label =>
    let (subscription, w) := m.world.subscribeStore number (.callback label)
    (m.withWorld w).reply (.subscription subscription)
  | .subscribeSessions number label =>
    let (subscription, w) := m.world.subscribeSessions number (.callback label)
    (m.withWorld w).reply (.subscription subscription)
  | .release subscription => (m.withWorld (m.world.release subscription)).reply .unit
  | .start number id fetcher => startSession m number id fetcher
  | .stop number id => stopSession m number id none .requested
  | .stopAll number => stopEach m number 0 (m.tracker number).activeIds
  | .configure number patch =>
    match (m.tracker number).settings.patched patch with
    | .error e => m.reply (.refused e)
    | .ok settings =>
      (m.withWorld (m.world.modifyTracker number fun t => { t with settings })).reply .unit
  | .track number draft fetcher =>
    let (task, w) := m.world.stampDraft draft
    mutate ((m.withWorld w).push (.tracking number task fetcher)) number
      ((w.tracker number).store.tasks.add task) .unit
  | .resume number factory =>
    resumeEach m number factory 0 (m.tracker number).store.tasks.active
  | .forget number id =>
    stopSession (m.push (.forgetting number id)) number id none .requested
  | .openView source kind =>
    let w := m.world
    (m.withWorld { w with views := w.views ++ [.make source kind] }).reply (.number w.views.length)
  | .watch view label =>
    let (subscription, w) := m.world.watch view label
    (m.withWorld w).reply (.subscription subscription)
  | .snapshot view =>
    let (v, w) := m.world.snapshot view
    (m.withWorld w).reply (.snapshot v.value v.edition)
  | .seed key content =>
    let w := m.world
    (m.withWorld { w with storage := w.storage.seed key content }).reply .unit

/-! ### The turns of a session -/

/-- Suspend a session until its next turn. -/
def suspend (m : Machine σ κ) (s : SessionTask κ) (pause : Pause) : Machine σ κ :=
  let w := m.world
  (m.withWorld { w with suspended := w.suspended ++ [⟨s, pause⟩] }).reply .unit

/-- The request that a session is making. -/
def request (m : Machine σ κ) (s : SessionTask κ) : Request :=
  ⟨s.id, s.calls, !m.world.isLive s⟩

/-- End the task of a session. A session that still lives is stopped as aborted. -/
def finish (m : Machine σ κ) (s : SessionTask κ) : Machine σ κ :=
  if m.world.isLive s then
    stopSession (m.push (.session s .aborting)) s.tracker s.id (some s.serial) .aborted
  else m.reply .unit

/-- Let the fetcher of a session work. -/
def fetch (m : Machine σ κ) (s : SessionTask κ) (turn : Nat) : Machine σ κ :=
  (m.push (.session s (.fetching turn))).invoke s.fetcher (.fetching (m.request s) turn)

/-- Make the next request of a session, unless the session has ended. -/
def nextRequest (m : Machine σ κ) (s : SessionTask κ) : Machine σ κ :=
  if m.world.isLive s then fetch m { s with calls := s.calls + 1 } 0 else finish m s

/-- Let a session sleep for a number of milliseconds. -/
def sleep (m : Machine σ κ) (s : SessionTask κ) (millis : Nat) : Machine σ κ :=
  m.suspend s (.sleeping (m.world.clock + millis))

/-- Stop a session that has seen a terminal report. -/
def conclude (m : Machine σ κ) (s : SessionTask κ) (reason : StopReason) : Machine σ κ :=
  stopSession (m.push (.session s .ending)) s.tracker s.id (some s.serial) reason

/-- Go on with a report after the status has been dealt with: end the session on a terminal status,
and let it sleep otherwise. -/
def afterStatus (m : Machine σ κ) (s : SessionTask κ) (report : Report) (hooks : Hooks κ) :
    Machine σ κ :=
  if m.world.isLive s then
    match report.status with
    | .completed =>
      match hooks.complete with
      | none => conclude m s .completed
      | some label =>
        (m.push (.session s (.concluded .completed))).invoke label (.completed s.id report)
    | .failed =>
      match hooks.failed with
      | none => conclude m s .failed
      | some label =>
        (m.push (.session s (.concluded .failed))).invoke label (.failed s.id report)
    | status => m.sleep s ((m.tracker s.tracker).settings.cadence.intervalFor status)
  else finish m s

/-- Take note of a new status and run the callback for it. -/
def changeStatus (m : Machine σ κ) (s : SessionTask κ) (report : Report) (hooks : Hooks κ) :
    Machine σ κ :=
  let s := { s with last := some report.status }
  match hooks.statusChange with
  | none => afterStatus m s report hooks
  | some label =>
    (m.push (.session s (.changed report hooks))).invoke label
      (.statusChanged s.id report.status)

/-- Write a new status into the store. A status that the lifecycle forbids is passed over. -/
def recordStatus (m : Machine σ κ) (s : SessionTask κ) (report : Report) (hooks : Hooks κ) :
    Machine σ κ :=
  let mutation := (m.tracker s.tracker).store.tasks.update s.id (.ofStatus report.status)
  match mutation.event, mutation.answer with
  | some event, _ =>
    let m := m.withWorld (m.world.mutate s.tracker mutation)
    (m.push (.session s (.recorded report hooks))).tell s.tracker (.store event)
  | none, .rejected _ => afterStatus m s report hooks
  | none, _ => changeStatus m s report hooks

/-- Go on with the answer to a request. An answer that comes after the session has ended is
dropped. -/
def receive (m : Machine σ κ) (s : SessionTask κ) (result : Except FetchError Report) :
    Machine σ κ :=
  if m.world.isLive s then
    let settings := (m.tracker s.tracker).settings
    match result with
    | .ok report =>
      if s.last = some report.status then afterStatus m s report settings.hooks
      else recordStatus m s report settings.hooks
    | .error e =>
      match e.isCancellation, settings.hooks.error with
      | false, some label => (m.push (.session s .failed)).invoke label (.fetchFailed s.id e)
      | _, _ => m.sleep s settings.cadence.queued
  else finish m s

variable (c : Consumer σ κ)

/-- Go on with a session after what ran inside its turn has ended. -/
def continueSession (m : Machine σ κ) (s : SessionTask κ) : Point κ → Machine σ κ
  | .fetching turn =>
    match c.proceed s.fetcher (m.request s) turn m.memory with
    | .answer result => receive m s result
    | .yield => m.suspend s (.fetching turn (some m.world.clock))
    | .wait millis => m.suspend s (.fetching turn (some (m.world.clock + millis)))
    | .hang => m.suspend s (.fetching turn none)
  | .recorded report hooks => changeStatus m s report hooks
  | .changed report hooks => afterStatus m s report hooks
  | .concluded reason => conclude m s reason
  | .failed => m.sleep s (m.tracker s.tracker).settings.cadence.queued
  | .ending | .dropping => finish m s
  | .aborting => m.reply .unit

/-- Give up the unanswered request of a session, and then the session. -/
def dropFetch (m : Machine σ κ) (s : SessionTask κ) : Machine σ κ :=
  (m.push (.session s .dropping)).invoke s.fetcher (.fetchDropped (m.request s))

/-- Give a suspended session its turn. -/
def wake (m : Machine σ κ) (entry : Suspended κ) : Machine σ κ :=
  let s := entry.task
  match entry.pause with
  | .fresh =>
    let last := ((m.tracker s.tracker).store.tasks.find? s.id).map Task.status
    nextRequest m { s with last }
  | .fetching turn _ => if m.world.isLive s then fetch m s (turn + 1) else dropFetch m s
  | .sleeping _ => nextRequest m s

/-- End a suspended session because its executor goes away. One that has not had a turn yet just
vanishes. -/
def abandon (m : Machine σ κ) (entry : Suspended κ) : Machine σ κ :=
  match entry.pause with
  | .fresh => m.reply .unit
  | .fetching _ _ => dropFetch m entry.task
  | .sleeping _ => finish m entry.task

/-! ### Steps -/

/-- Go on with a frame after a reply. -/
def resume (m : Machine σ κ) (r : Reply) : Frame σ κ → Machine σ κ
  | .awaiting next => m.code (next (some r))
  | .delivering n rest => deliver m n rest
  | .answering r => m.reply r
  | .announcing number id reason => announce m number id reason
  | .stopping number rest count =>
    stopEach m number (match r with
      | .flag true => count + 1
      | _ => count) rest
  | .spawning s => (m.suspend s .fresh).reply (.flag true)
  | .tracking number task fetcher =>
    if task.isTerminal then m.reply (.task task)
    else startSession (m.push (.answering (.task task))) number task.id fetcher
  | .offering number factory task rest count =>
    match c.supply factory task m.memory with
    | none => resumeEach m number factory count rest
    | some fetcher =>
      startSession (m.push (.resuming number factory rest count)) number task.id fetcher
  | .resuming number factory rest count =>
    resumeEach m number factory (match r with
      | .flag true => count + 1
      | _ => count) rest
  | .forgetting number id =>
    let mutation := (m.tracker number).store.tasks.remove id
    mutate m number mutation (.removed mutation.answer)
  | .session s point => continueSession c m s point

/-- Go on with a frame that a panic has reached. Consumer code learns that there is no reply,
deliveries go on with the next listener, and a session ends; everything else is left undone. A
panic that reaches a session while it ends is no exception. -/
def unwind (m : Machine σ κ) : Frame σ κ → Machine σ κ
  | .awaiting next => m.code (next none)
  | .delivering n rest => deliver m n rest
  | .session s .aborting => finish m s
  | .session s _ => finish m s
  | _ => { m with control := .unwinding }

/-- One step of consumer code. -/
def stepCode (m : Machine σ κ) : Code σ κ → Machine σ κ
  | .done => m.reply .unit
  | .panic => { m with control := .unwinding }
  | .look next => m.code (next ⟨m.world, m.turnOf⟩ m.memory)
  | .note change next => { m with memory := change m.memory, control := .code next }
  | .call request next => perform (m.push (.awaiting next)) request

/-- One step; a machine that has nothing to do stays as it is. -/
def step (m : Machine σ κ) : Machine σ κ :=
  match m.control, m.stack with
  | .code p, _ => stepCode m p
  | .calling label occasion, _ => m.code (c.react label occasion)
  | .telling number n, _ => deliver m n (m.world.audience number n)
  | .returned _, [] => m
  | .unwinding, [] => m
  | .returned r, frame :: rest => resume c { m with stack := rest } r frame
  | .unwinding, frame :: rest => unwind { m with stack := rest } frame

/-- Take steps until there is nothing left to do, at most so many. -/
def settle : (steps : Nat) → Machine σ κ → Machine σ κ
  | 0, m => m
  | steps + 1, m => if m.isIdle then m else settle steps (step c m)

end Machine

end TaskWatch
