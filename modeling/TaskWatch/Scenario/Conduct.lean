import TaskWatch.Scenario.Notebook

/-!
# How a scenario is acted out

What each step does to the trackers, and what the callbacks and fetchers that the steps hand over do
when they are called. A step taken by a callback is recorded with its result; if it panics, this is
its result, and the callback goes on.

A subscription stored under a name in use releases the old one, after the new one has come into
being.

## Main definitions

* `Label` — what callbacks, fetchers and factories are called.
* `Step.code` — what a step does.
* `consumer` — what the labels stand for.
-/

namespace TaskWatch

namespace Scenario

/-- What callbacks, fetchers and factories are called. -/
inductive Label where
  /-- A listener of a store, with the number of its call counter. -/
  | storeListener (name : String) (trigger : Trigger Step) (counter : Nat)
  | sessionListener (name : String) (trigger : Trigger Step) (counter : Nat)
  | watcher (view name : String) (trigger : Trigger Step) (counter : Nat)
  | hook (trigger : Trigger Step) (tag : Option String) (counter : Nat)
  /-- A fetcher, with the number of its count. -/
  | fetcher (plan : FetchPlan Step) (count : Nat)
  | factory (plans : List (TaskId × FetchPlan Step))

/-- Code of a scenario. -/
abbrev Script : Type := Code Notebook Label

/-! ### What steps do -/

/-- The result of a call that replies. -/
def resultOf : Reply → Result
  | .unit | .number _ | .subscription _ | .snapshot _ _ => .ok
  | .flag b => .truth b
  | .count n => .count n
  | .task t => .task t
  | .removed t => .maybeTask t
  | .cleared ids => .ids ids
  | .outcome o => .outcome o
  | .refused e => .refused e

/-- Make a call and go on with its result. -/
def ask (request : Call Label) (next : Result → Script) : Script :=
  .call request fun
    | some reply => next (resultOf reply)
    | none => next .panicked

/-- Go on with something that is read off the notebook and the world. -/
def peek {α : Type} (read : Notebook → World Label → α) (next : α → Script) : Script :=
  .look fun scene n => next (read n scene.world)

/-- Go on with the number of the current tracker. -/
def withTracker (next : Nat → Script) : Script := peek (fun n _ => n.tracker) next

/-- Go on with something that is read off the current tracker. -/
def observe (read : Tracker Label → Result) (next : Result → Script) : Script :=
  peek (fun n world => read (world.tracker n.tracker)) next

/-- Make a call on the current tracker and go on with its result. -/
def onTracker (request : Nat → Call Label) (next : Result → Script) : Script :=
  withTracker fun tracker => ask (request tracker) next

/-- Go on with a new call counter. -/
def withCounter (next : Nat → Script) : Script :=
  peek (fun n _ => n.counters.length) fun counter => .note (·.withCounters 1) (next counter)

/-- Go on with a new fetcher. -/
def withFetcher (plan : FetchPlan Step) (next : Label → Script) : Script :=
  peek (fun n _ => n.counts.length) fun count =>
    .note (·.enlist plan) (next (.fetcher plan count))

/-- Keep a subscription under a name and then release the one that was there. -/
def store (name : String) (s : Subscription) (next : Script) : Script :=
  peek (fun n _ => n.subscription? name) fun old =>
    .note (·.keep name s) <|
      match old with
      | none => next
      | some old => .require (.release old) fun _ => next

/-- Make a call that brings a subscription and keep it under a name. -/
def storeCall (name : String) (request : Call Label) (next : Result → Script) : Script :=
  .call request fun
    | some (.subscription s) => store name s (next .ok)
    | some _ => next .ok
    | none => next .panicked

/-- Take the subscription under a name and release it, or not. -/
def letGo (name : String) (releases : Bool) (next : Result → Script) : Script :=
  peek (fun n _ => n.subscription? name) fun
    | none => next .noSubscription
    | some s =>
      .note (·.without name) <| if releases then ask (.release s) next else next .ok

/-- The callback of a hook, with the number of its counter. -/
def hookLabel (hook : Option (Trigger Step × Option String)) (counter : Nat) : Option Label :=
  hook.map fun (trigger, tag) => .hook trigger tag counter

/-- The lifecycle callbacks, with counters from a number on. -/
def hookLabels (h : HookTriggers Step) (counter : Nat) : Hooks Label where
  statusChange := hookLabel h.statusChange counter
  complete := hookLabel h.complete (counter + 1)
  failed := hookLabel h.failed (counter + 2)
  error := hookLabel h.error (counter + 3)
  stopped := hookLabel h.stopped (counter + 4)

/-- Open a tracker on what is stored under a key and make it the current one. -/
def openTracker (key : String) (next : Result → Script) : Script :=
  peek (fun n _ => n.cadence) fun cadence =>
    .call (.openTracker key cadence) fun
      | some (.number number) =>
        .note (fun n => { n with tracker := number }) <|
          observe (fun t => .count t.store.tasks.size) next
      | some reply => next (resultOf reply)
      | none => next .panicked

/-- Read a view. -/
def readView (name : String) (next : Result → Script) : Script :=
  peek (fun n _ => n.views.lookup name) fun
    | none => next .panicked
    | some view =>
      .call (.snapshot view.number) fun
        | some (.snapshot value edition) =>
          .note (·.keepView name { view with seen := some edition }) <|
            next (.snapshot view.kind value (view.seen.map (· == edition)))
        | some reply => next (resultOf reply)
        | none => next .panicked

/-- What a step does, and what is done with its result. -/
def Step.code (step : Step) (next : Result → Script) : Script :=
  match step with
  | .add draft => onTracker (.add · draft) next
  | .update id patch => onTracker (.update · id patch) next
  | .remove id => onTracker (.remove · id) next
  | .get id => observe (fun t => .maybeTask (t.store.tasks.find? id)) next
  | .contains id => observe (fun t => .truth (t.store.tasks.contains id)) next
  | .list => observe (fun t => .tasks t.store.tasks.list) next
  | .active => observe (fun t => .tasks t.store.tasks.active) next
  | .byKind kind => observe (fun t => .tasks (t.store.tasks.byKind kind)) next
  | .find key value => observe (fun t => .tasks (t.store.tasks.findByMetadata key value)) next
  | .ids => observe (fun t => .ids (t.store.tasks.list.map Task.id)) next
  | .size => observe (fun t => .size t.store.tasks.size) next
  | .version => observe (fun t => .count t.store.version) next
  | .storageKey => observe (fun t => .text (some t.store.key)) next
  | .clearTerminal | .clearFinished => onTracker .clearTerminal next
  | .subscribe name trigger =>
    withCounter fun counter => withTracker fun tracker =>
      storeCall name (.subscribeStore tracker (.storeListener name trigger counter)) next
  | .raw key =>
    peek (fun n world =>
      world.storage.text? (key.getD (world.tracker n.tracker).store.key)) fun t => next (.text t)
  | .setRaw key content =>
    peek (fun n world => key.getD (world.tracker n.tracker).store.key) fun key =>
      ask (.seed key content) next
  | .files => peek (fun _ world => world.storage.fileNames?) fun names => next (.names names)
  | .writeAttempts => peek (fun _ world => world.storage.attempts?) fun n => next (.maybeCount n)
  | .reopen key => openTracker (key.getD defaultStorageKey) next
  | .unsubscribe name | .drop name => letGo name true next
  | .detach name => letGo name false next
  | .start id plan =>
    withFetcher plan fun fetcher => onTracker (.start · id fetcher) next
  | .stop id => onTracker (.stop · id) next
  | .stopAll | .shutdown => onTracker .stopAll next
  | .isPolling id => observe (fun t => .truth (t.isPolling id)) next
  | .activeIds => observe (fun t => .polling t.activeIds) next
  | .cadence => observe (fun t => .cadence t.settings.cadence) next
  | .configure processing queued hooks =>
    peek (fun n _ => n.counters.length) fun counter =>
      .note (·.withCounters 5) <|
        onTracker (.configure · {
          processing := processing.map Duration.ofMillis
          queued := queued.map Duration.ofMillis
          hooks := hookLabels hooks counter }) next
  | .subscribeSessions name trigger =>
    withCounter fun counter => withTracker fun tracker =>
      storeCall name (.subscribeSessions tracker (.sessionListener name trigger counter)) next
  | .track draft plan =>
    withFetcher plan fun fetcher => onTracker (.track · draft fetcher) next
  | .resume plans => onTracker (.resume · (.factory plans)) next
  | .forget id => onTracker (.forget · id) next
  | .fetchCount name => peek (fun n _ => n.fetchCount name) fun count => next (.fetchCount count)
  | .isDetached => peek (fun n _ => n.detached) fun b => next (.truth b)
  | .view name kind =>
    peek (fun n _ => if n.detached then none else some n.tracker) fun source =>
      .call (.openView source kind) fun
        | some (.number number) => .note (·.keepView name { number, kind }) (next .ok)
        | some reply => next (resultOf reply)
        | none => next .panicked
  | .snapshot name => readView name next
  | .watch viewName name trigger =>
    withCounter fun counter =>
      peek (fun n _ => n.views.lookup viewName) fun
        | none => next .panicked
        | some entry =>
          storeCall name (.watch entry.number (.watcher viewName name trigger counter)) next
  | .describe .store => observe (fun t => .text (some t.store.description)) next
  | .describe .polling => observe (fun t => .text (some t.pollingDescription)) next
  | .describe .tracker => observe (fun t => .text (some t.description)) next

/-! ### What callbacks do -/

/-- Record something that happens now. -/
def record (h : Happening) (next : Script) : Script :=
  .look fun scene _ => .note (·.record ⟨scene.world.clock, scene.turnOf, h⟩) next

/-- Take steps one after the other and record each of them. -/
def actOn (steps : List Step) (last : Script) : Script :=
  match steps with
  | [] => last
  | step :: rest => step.code fun result => record (.acted step result) (actOn rest last)

/-- What a callback does after it has recorded its event, if the event is one that it acts on. -/
def pull (trigger : Trigger Step) (counter : Nat) (applies : Bool) : Script :=
  .look fun _ n =>
    if applies && !n.quiet && decide (n.acted counter < trigger.times) then
      .note (·.countAct counter) <| actOn trigger.act (if trigger.panics then .panic else .done)
    else .done

/-- What a listener does with an event that touches certain tasks and is of a kind. -/
def pullFor (trigger : Trigger Step) (counter : Nat) (touches : TaskId → Bool) (kind : String) :
    Script :=
  pull trigger counter (trigger.only.all touches && trigger.kind.all (· == kind))

/-- What a lifecycle callback does with an event of a task. -/
def pullHook (trigger : Trigger Step) (counter : Nat) (id : TaskId) : Script :=
  pull trigger counter (trigger.only.all (· == id))

/-- The answer that a fetcher has for a request. -/
def nth {α : Type} (answers : List α) (fallback : α) (request : Request) : α :=
  answers.getD (request.number - 1) fallback

/-- What a fetcher does before it gives an answer. -/
def Answer.conclude (a : Answer Step) : Script :=
  actOn a.later (if a.panics then .panic else .done)

/-- Whether an answer is given at once. -/
def Answer.isImmediate (a : Answer Step) : Bool := !a.hangs && a.delay == 0

/-- What a fetcher does in a turn of a request. -/
def fetching (plan : FetchPlan Step) (count : Nat) (request : Request) (turn : Nat) : Script :=
  match plan with
  | .told answers fallback =>
    let a := nth answers fallback request
    if turn = 0 then
      record (.fetched request) <| actOn a.act (if a.isImmediate then a.conclude else .done)
    else a.conclude
  | .counted _ _ _ =>
    if turn = 0 then
      .look fun scene _ => .note (·.modifyCount count fun
        | .requests times => .requests (scene.world.clock :: times)
        | other => other) .done
    else .done
  | .slow _ delay _ =>
    if turn = 0 && delay != 0 then .done
    else .note (·.modifyCount count fun
      | .answered n => .answered (n + 1)
      | other => other) .done
  | .hanging _ =>
    .note (·.modifyCount count fun
      | .begun n => .begun (n + 1)
      | other => other) .done

/-- What callbacks, fetchers and factories do when they are called. -/
def react : Label → Occasion → Script
  | .storeListener name trigger counter, .notice (.store event) =>
    record (.store name event) (pullFor trigger counter event.affects event.kind)
  | .sessionListener name trigger counter, .notice (.session event) =>
    record (.session name event) (pullFor trigger counter (event.taskId == ·) event.kind)
  | .watcher view name trigger counter, .viewChanged =>
    record (.viewChanged view name) (pull trigger counter true)
  | .hook trigger tag counter, .statusChanged id status =>
    record (.statusChanged id status tag) (pullHook trigger counter id)
  | .hook trigger tag counter, .completed id report =>
    record (.completed id report tag) (pullHook trigger counter id)
  | .hook trigger tag counter, .failed id report =>
    record (.failed id report tag) (pullHook trigger counter id)
  | .hook trigger tag counter, .fetchFailed id error =>
    record (.fetchFailed id error tag) (pullHook trigger counter id)
  | .hook trigger tag counter, .stopped id reason =>
    record (.stopped id reason tag) (pullHook trigger counter id)
  | .fetcher plan count, .fetching request turn => fetching plan count request turn
  | .fetcher (.told _ _) _, .fetchDropped request => record (.fetchDropped request) .done
  | .factory plans, .offered task =>
    record (.offered task.id) <|
      match plans.lookup task.id with
      | none => .done
      | some plan => .note (·.enlist plan) .done
  | _, _ => .done

/-- How a fetcher goes on after a turn. -/
def proceed (label : Label) (request : Request) (turn : Nat) (_ : Notebook) : Progress :=
  match label with
  | .fetcher (.told answers fallback) _ =>
    let a := nth answers fallback request
    if a.hangs then .hang
    else if turn = 0 && a.delay != 0 then .wait a.delay
    else .answer a.result
  | .fetcher (.counted _ answers fallback) _ =>
    if turn = 0 then .yield else .answer (nth answers fallback request)
  | .fetcher (.slow _ delay report) _ =>
    if turn = 0 && delay != 0 then .wait delay else .answer (.ok report)
  | _ => .hang

/-- The fetcher that a factory has for a task: the one it has taken note of last. -/
def supply (label : Label) (task : Task) (n : Notebook) : Option Label :=
  match label with
  | .factory plans => (plans.lookup task.id).map fun plan => .fetcher plan (n.counts.length - 1)
  | _ => none

/-- The consumer that acts a scenario out. -/
def consumer : Consumer Notebook Label := ⟨react, proceed, supply⟩

end Scenario

end TaskWatch
