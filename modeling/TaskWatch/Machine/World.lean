import TaskWatch.View
import TaskWatch.Program
import TaskWatch.Polling.Report

/-!
# The world of trackers

Everything that consumer code and sessions act on: one storage, the trackers opened on it, the
tasks of sessions that are suspended at the moment, views, those who wait, and the two clocks. The
executor's clock counts milliseconds and is moved by the executor alone; the wall clock gives every
record made without a time a later stamp than the one before.

Clocks and serial numbers are natural numbers and never come to an end: nobody starts so many
sessions that a number of 64 bits would have to start over.

## Main definitions

* `SessionTask` — what a session carries with it; `Suspended` — a session between two turns.
* `World` — the world.
* `Call`, `Reply` — what consumer code can ask for, and what it is told.
* `Occasion`, `Consumer` — why callbacks are called, and what they do.
-/

namespace TaskWatch

/-- What the task of a session carries from turn to turn. -/
structure SessionTask (κ : Type) where
  tracker : Nat
  id : TaskId
  serial : Serial
  fetcher : κ
  /-- The status it has seen or read last. -/
  last : Option Status := none
  /-- How many requests it has made. -/
  calls : Nat := 0

/-- Where a session is suspended. -/
inductive Pause where
  /-- It has not had a turn yet. -/
  | fresh
  /-- In a request that has waited before, until a time or forever. -/
  | fetching (turn : Nat) (until_ : Option Nat)
  /-- Between two requests, until a time. -/
  | sleeping (until_ : Nat)
deriving DecidableEq, Repr

/-- A session between two turns. -/
structure Suspended (κ : Type) where
  task : SessionTask κ
  pause : Pause

/-- Someone who waits for the session of a task to end. -/
structure Wait where
  tracker : Nat
  id : TaskId
  /-- The number under which the tracker tells him. -/
  listener : Nat
  /-- Why the session ended, once it has. -/
  outcome : Option StopReason := none

/-- What someone who waited learns. -/
inductive WaitResult where
  | notPolled
  | stopped (reason : StopReason)
  | timedOut
deriving DecidableEq, Repr

/-- Everything that consumer code and sessions act on. -/
structure World (κ : Type) where
  storage : Storage
  /-- The trackers, in the order in which they were opened. -/
  trackers : List (Tracker κ) := []
  /-- The sessions that are suspended, in the order in which they were suspended. -/
  suspended : List (Suspended κ) := []
  views : List View := []
  waits : List Wait := []
  /-- Milliseconds on the executor's clock. -/
  clock : Nat := 0
  /-- Nanoseconds since 1970 on the wall clock. -/
  wallClock : Nat := 0
  /-- The serial number of the next session. -/
  nextSerial : Serial := 1
  /-- Whether there is an executor on which sessions can run. -/
  hasExecutor : Bool := true

/-- The handle of a subscription. -/
inductive Subscription where
  /-- It stands for nothing. -/
  | inert
  | store (tracker number : Nat)
  | sessions (tracker number : Nat)
deriving DecidableEq, Repr

/-- A call of consumer code. Trackers and views are given by their numbers. -/
inductive Call (κ : Type) where
  /-- Open a tracker on what is stored under a key. -/
  | openTracker (key : String) (cadence : Cadence)
  | add (tracker : Nat) (draft : Draft)
  | update (tracker : Nat) (id : TaskId) (patch : Patch)
  | remove (tracker : Nat) (id : TaskId)
  | clearTerminal (tracker : Nat)
  /-- Be told of changes of the collection. -/
  | subscribeStore (tracker : Nat) (label : κ)
  | subscribeSessions (tracker : Nat) (label : κ)
  | release (subscription : Subscription)
  | start (tracker : Nat) (id : TaskId) (fetcher : κ)
  | stop (tracker : Nat) (id : TaskId)
  | stopAll (tracker : Nat)
  | configure (tracker : Nat) (patch : SettingsPatch κ)
  /-- Keep a record and poll for it unless it is terminal. -/
  | track (tracker : Nat) (draft : Draft) (fetcher : κ)
  /-- Poll for every record that is not terminal and for which a factory has a fetcher. -/
  | resume (tracker : Nat) (factory : κ)
  /-- Stop polling for a task and delete its record. -/
  | forget (tracker : Nat) (id : TaskId)
  | openView (source : Option Nat) (kind : ViewKind)
  /-- Be told when a view may have changed. -/
  | watch (view : Nat) (label : κ)
  | snapshot (view : Nat)
  /-- Put bytes into the storage behind everyone's back. -/
  | seed (key : String) (content : ByteArray)

/-- What a call replies. -/
inductive Reply where
  | unit
  | flag (b : Bool)
  | count (n : Nat)
  /-- The number of a new tracker or view. -/
  | number (n : Nat)
  | task (t : Task)
  /-- The record that was deleted, if there was one. -/
  | removed (t : Option Task)
  /-- The tasks whose records were deleted. -/
  | cleared (ids : List TaskId)
  | outcome (o : UpdateOutcome)
  | subscription (s : Subscription)
  | refused (e : CadenceError)
  /-- What a view shows, and the number of the edition. -/
  | snapshot (value : ViewValue) (edition : Nat)

/-- A request of a session. -/
structure Request where
  id : TaskId
  /-- The number of the request within its session, from one. -/
  number : Nat
  /-- Whether it has been cancelled already. -/
  cancelled : Bool
deriving DecidableEq, Repr

/-- Why a callback is called. -/
inductive Occasion where
  | notice (n : Notice)
  | viewChanged
  | statusChanged (id : TaskId) (status : Status)
  | completed (id : TaskId) (report : Report)
  | failed (id : TaskId) (report : Report)
  | fetchFailed (id : TaskId) (error : FetchError)
  | stopped (id : TaskId) (reason : StopReason)
  /-- A fetcher works on a request: at first, and again after each of its waits. -/
  | fetching (request : Request) (turn : Nat)
  /-- A request that has not been answered is given up. -/
  | fetchDropped (request : Request)
  | offered (task : Task)

/-- How a fetcher goes on after a turn. -/
inductive Progress where
  | answer (result : Except FetchError Report)
  | yield
  | wait (millis : Nat)
  /-- It waits for something that never comes. -/
  | hang

/-- What consumer code sees when it looks around. -/
structure Scene (κ : Type) where
  world : World κ
  /-- The task in whose session's turn the code runs, if it runs in one. -/
  turnOf : Option TaskId

/-- Code of the consumer. -/
abbrev Code (σ κ : Type) : Type := Program (Scene κ) σ (Call κ) Reply

/-- What the labels of callbacks, fetchers and factories stand for. -/
structure Consumer (σ κ : Type) where
  react : κ → Occasion → Code σ κ
  /-- How a fetcher goes on after the code of a turn has run. -/
  proceed : κ → Request → (turn : Nat) → σ → Progress
  /-- The fetcher that a factory has for a task, after its code has run. -/
  supply : κ → Task → σ → Option κ

namespace World

variable {κ : Type}

/-- The tracker with a number. -/
def tracker (w : World κ) (number : Nat) : Tracker κ := w.trackers.getD number default

/-- Change the tracker with a number. -/
def modifyTracker (w : World κ) (number : Nat) (f : Tracker κ → Tracker κ) : World κ :=
  { w with trackers := w.trackers.modify number f }

/-- Whether the session of a task lives: it is known to its tracker, its requests are not cancelled,
and it may write. -/
def isLive (w : World κ) (s : SessionTask κ) : Bool :=
  (w.tracker s.tracker).isLive s.id s.serial

/-- Nanoseconds between two stamps of the wall clock. -/
def stampStep : Nat := 1000000

/-- The time on the wall clock; the next one will be later. -/
def stamp (w : World κ) : Instant × World κ :=
  (.ofNanos w.wallClock, { w with wallClock := w.wallClock + stampStep })

/-- The record of a draft, stamped with the time if the draft does not have one. -/
def stampDraft (w : World κ) (draft : Draft) : Task × World κ :=
  match draft.createdAt with
  | some _ => (draft.stamped .epoch, w)
  | none =>
    let (now, w) := w.stamp
    (draft.stamped now, w)

/-- Carry out a change of a collection. -/
def mutate {α : Type} (w : World κ) (number : Nat) (m : Mutation α) : World κ :=
  let (store, storage) := (w.tracker number).store.apply w.storage m
  { w.modifyTracker number (fun t => { t with store }) with storage }

/-- Who is told of changes of a collection. -/
def storeListeners (w : World κ) (number : Nat) : List (Audience κ) :=
  (w.tracker number).store.listeners.listeners

/-- Who is told of sessions. -/
def sessionListeners (w : World κ) (number : Nat) : List (Audience κ) :=
  (w.tracker number).watchers.listeners

/-- Who is told of something by a tracker. -/
def audience (w : World κ) (number : Nat) : Notice → List (Audience κ)
  | .store _ => w.storeListeners number
  | .session _ => w.sessionListeners number

/-- Register a listener of the store of a tracker. -/
def subscribeStore (w : World κ) (number : Nat) (a : Audience κ) : Subscription × World κ :=
  let (listener, listeners) := (w.tracker number).store.listeners.subscribe a
  (.store number listener,
    w.modifyTracker number fun t => { t with store := { t.store with listeners } })

/-- Register a listener of the sessions of a tracker. -/
def subscribeSessions (w : World κ) (number : Nat) (a : Audience κ) : Subscription × World κ :=
  let (listener, watchers) := (w.tracker number).watchers.subscribe a
  (.sessions number listener, w.modifyTracker number fun t => { t with watchers })

/-- Release a subscription. -/
def release (w : World κ) : Subscription → World κ
  | .inert => w
  | .store number listener =>
    w.modifyTracker number fun t =>
      { t with store := { t.store with listeners := t.store.listeners.unsubscribe listener } }
  | .sessions number listener =>
    w.modifyTracker number fun t => { t with watchers := t.watchers.unsubscribe listener }

/-- Register the callback of a view. -/
def watch (w : World κ) (view : Nat) (label : κ) : Subscription × World κ :=
  let v := w.views.getD view default
  match v.source with
  | none => (.inert, w)
  | some number =>
    let a := Audience.view v.kind.about label
    if v.kind.followsStore then w.subscribeStore number a else w.subscribeSessions number a

/-- Read a view: it is brought up to date first. -/
def snapshot (w : World κ) (view : Nat) : View × World κ :=
  let v := (w.views.getD view default)
  let v := v.refresh (v.source.map w.tracker)
  (v, { w with views := w.views.set view v })

/-- Tell someone who waits of an event. -/
def tellWait (w : World κ) (number : Nat) (n : Notice) : World κ :=
  { w with
    waits := w.waits.modify number fun wait =>
      match n, wait.outcome with
      | .session (.stopped id reason), none =>
        if id = wait.id then { wait with outcome := some reason } else wait
      | _, _ => wait }

/-- Begin to wait for the session of a task to end: the number of the wait. There is nothing to
wait for without a session. -/
def beginWait (w : World κ) (number : Nat) (id : TaskId) : Option (Nat × World κ) :=
  if (w.tracker number).isPolling id then
    let wait := w.waits.length
    let (listener, watchers) := (w.tracker number).watchers.subscribe (.wait wait)
    let w := w.modifyTracker number fun t => { t with watchers }
    some (wait, { w with waits := w.waits ++ [{ tracker := number, id, listener }] })
  else none

/-- Begin to wait for the sessions of tasks to end, as far as there are any: the numbers of the
waits. -/
def beginWaits (w : World κ) (number : Nat) : List TaskId → List Nat × World κ
  | [] => ([], w)
  | id :: rest =>
    match w.beginWait number id with
    | none => w.beginWaits number rest
    | some (wait, w) =>
      let (waits, w) := w.beginWaits number rest
      (wait :: waits, w)

/-- End a wait. -/
def endWait (w : World κ) (wait : Nat) : World κ :=
  match w.waits[wait]? with
  | none => w
  | some entry => w.release (.sessions entry.tracker entry.listener)

/-- Why the session that someone waits for has ended, if it has. -/
def waitOutcome (w : World κ) (wait : Nat) : Option StopReason :=
  (w.waits[wait]?).bind Wait.outcome

/-! ### Trackers after a change -/

theorem tracker_modifyTracker (w : World κ) (number other : Nat) (f : Tracker κ → Tracker κ) :
    (w.modifyTracker number f).tracker other =
      if number = other ∧ other < w.trackers.length then f (w.tracker other)
      else w.tracker other := by
  simp only [tracker, modifyTracker, List.getD_eq_getElem?_getD, List.getElem?_modify]
  by_cases same : number = other <;> by_cases inside : other < w.trackers.length <;>
    simp [same, inside]

/-- What a change of a tracker leaves alone is the same in all trackers. -/
theorem proj_tracker_modifyTracker {β : Type} (proj : Tracker κ → β) {f : Tracker κ → Tracker κ}
    (same : ∀ t, proj (f t) = proj t) (w : World κ) (number other : Nat) :
    proj ((w.modifyTracker number f).tracker other) = proj (w.tracker other) := by
  rw [tracker_modifyTracker]
  split
  · exact same _
  · rfl

theorem tracker_mutate {α : Type} (w : World κ) (number other : Nat) (m : Mutation α) :
    (w.mutate number m).tracker other =
      if number = other ∧ other < w.trackers.length then
        { w.tracker other with store := ((w.tracker number).store.apply w.storage m).1 }
      else w.tracker other :=
  tracker_modifyTracker w number other _

end World

end TaskWatch
