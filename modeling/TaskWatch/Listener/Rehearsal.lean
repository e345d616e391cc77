import TaskWatch.Listener.Emitter

/-!
# Rehearsing an emitter

A rehearsal is a list of steps on one emitter whose listeners are told beforehand what to do. It
yields the result of each step and a record of everything that happened meanwhile.

Subscriptions are kept under names. A subscription stored under a name in use releases the old
one, after the new one has come into being.

## Main definitions

* `Rehearsal.Step` — the steps.
* `Rehearsal.Step.code` — what a step does.
* `Rehearsal.run` — results and records of all steps.
-/

namespace TaskWatch

namespace Rehearsal

/-- A step of a rehearsal. -/
inductive Step where
  /-- Register a listener. On its first `times` calls it takes the steps `act` and then panics if
  told so. -/
  | subscribe (name : String) (act : List Step) (panics : Bool) (times : Nat)
  | emit (event : String)
  | size
  | isEmpty
  /-- Release a subscription by hand. -/
  | unsubscribe (name : String)
  /-- Let a subscription go. -/
  | drop (name : String)
  | detach (name : String)
  /-- Store a subscription that stands for nothing. -/
  | inert (name : String)
  /-- Merge the subscriptions that exist under some names. -/
  | merge (name : String) (parts : List String)
  /-- Store a subscription made from an action. -/
  | custom (name : String)
  | describeSet
  | describe (name : String)
  | close

instance : Inhabited Step := ⟨.size⟩

/-- The result of a step. -/
inductive Result where
  | ok
  | count (n : Nat)
  | truth (b : Bool)
  | description (text : Option String)
  | noSubscription
  | noSet
  | panicked

/-- Something that happened. -/
inductive Record where
  | heard (name event : String)
  | cancelled (name : String)
  | acted (step : Step) (result : Result)

/-- What listeners and actions are called. -/
inductive Label where
  /-- A listener, with the number of its call counter. -/
  | listener (name : String) (act : List Step) (panics : Bool) (times counter : Nat)
  | action (name : String)

/-- The memory of a rehearsal. -/
structure Notebook where
  subscriptions : List (String × Handle Label) := []
  /-- How often each listener has acted. -/
  counters : List Nat := []
  /-- What happened, latest first. -/
  records : List Record := []
  /-- The result of the latest step of the rehearsal itself. -/
  result : Result := .ok

instance : Inhabited Notebook := ⟨{}⟩

/-- The code of a rehearsal. -/
abbrev Code : Type := Emitter.Code Notebook Label

namespace Notebook

/-- The subscription under a name. -/
def subscription? (n : Notebook) (name : String) : Option (Handle Label) :=
  (n.subscriptions.find? fun entry => entry.1 = name).map Prod.snd

/-- Take the subscription under a name away. -/
def without (n : Notebook) (name : String) : Notebook :=
  { n with subscriptions := n.subscriptions.filter fun entry => entry.1 ≠ name }

/-- Keep a subscription under a name. -/
def keep (n : Notebook) (name : String) (handle : Handle Label) : Notebook :=
  { n with subscriptions := (name, handle) :: (n.without name).subscriptions }

/-- Take the subscriptions under some names away, in order: those that exist, and the rest. -/
def take (n : Notebook) : List String → List (Handle Label) × Notebook
  | [] => ([], n)
  | name :: rest =>
    match n.subscription? name with
    | none => n.take rest
    | some handle =>
      let (handles, n) := (n.without name).take rest
      (handle :: handles, n)

/-- Note something that happened. -/
def record (n : Notebook) (r : Record) : Notebook := { n with records := r :: n.records }

/-- How often a listener has acted. -/
def acted (n : Notebook) (counter : Nat) : Nat := n.counters.getD counter 0

/-- Count one more call on which a listener acts. -/
def countAct (n : Notebook) (counter : Nat) : Notebook :=
  { n with counters := n.counters.set counter (n.acted counter + 1) }

end Notebook

/-- Store a subscription under a name, and release the one that was there. -/
def store (name : String) (handle : Handle Label) (next : Code) : Code :=
  .look fun _ n =>
    let old := n.subscription? name
    .note (·.keep name handle) <|
      match old with
      | none => next
      | some old => .require (.release old) fun _ => next

/-- Take the subscription under a name and do something with it. -/
def withSubscription (name : String) (request : Handle Label → Emitter.Call Label)
    (next : Result → Code) : Code :=
  .look fun _ n =>
    match n.subscription? name with
    | none => next .noSubscription
    | some handle =>
      .note (·.without name) <|
        .call (request handle) fun
          | some _ => next .ok
          | none => next .panicked

/-- Do something with the registry unless it has been released. -/
def withRegistry (next : Result → Code) (use : Registry Label → Code) : Code :=
  .look fun registry _ =>
    match registry with
    | none => next .noSet
    | some registry => use registry

/-- What a step does, and what is done with its result. -/
def Step.code (step : Step) (next : Result → Code) : Code :=
  match step with
  | .subscribe name act panics times =>
    withRegistry next fun _ => .look fun _ n =>
      let label := Label.listener name act panics times n.counters.length
      .note (fun n => { n with counters := n.counters ++ [0] }) <|
        .require (.subscribe label) fun
          | .handle handle => store name handle (next .ok)
          | .unit => next .ok
  | .emit event =>
    withRegistry next fun _ => .call (.emit event) fun
      | some _ => next .ok
      | none => next .panicked
  | .size => withRegistry next fun registry => next (.count registry.size)
  | .isEmpty => withRegistry next fun registry => next (.truth (registry.size == 0))
  | .unsubscribe name | .drop name => withSubscription name .release next
  | .detach name => withSubscription name .detach next
  | .inert name => store name .inert (next .ok)
  | .merge name parts =>
    .look fun _ n =>
      let (handles, rest) := n.take parts
      .note (fun _ => rest) <| store name (.merged handles) (next (.count handles.length))
  | .custom name => store name (.action (.action name)) (next .ok)
  | .describeSet =>
    withRegistry next fun registry =>
      next (.description (some
        ("ListenerSet \x7b listeners: " ++ toString registry.size ++ " \x7d")))
  | .describe name =>
    .look fun _ n => next <| .description <| (n.subscription? name).map fun handle =>
      "Subscription \x7b active: " ++ toString handle.isActive ++ " \x7d"
  | .close => withRegistry next fun _ => .require .close fun _ => next .ok

/-- Take steps one after the other and record each of them. -/
def actOn (steps : List Step) (last : Code) : Code :=
  match steps with
  | [] => last
  | step :: rest =>
    step.code fun result => .note (·.record (.acted step result)) (actOn rest last)

/-- What listeners and actions do. -/
def react : Label → Emitter.Occasion → Code
  | .listener name act panics times counter, .delivered event =>
    .note (·.record (.heard name event)) <| .look fun _ n =>
      if n.acted counter < times then
        .note (·.countAct counter) <| actOn act (if panics then .panic else .done)
      else .done
  | .action name, .released => .note (·.record (.cancelled name)) .done
  | _, _ => .done

/-- The consumer of a rehearsal. -/
def consumer : Emitter.Consumer Notebook Label := ⟨react⟩

/-- The result of one step, what happened meanwhile in order, and the emitter after it. -/
def perform (e : Emitter Notebook Label) (step : Step) :
    (Result × List Record) × Emitter Notebook Label :=
  let fresh := { e with memory := { e.memory with records := [], result := .panicked } }
  let e := Emitter.run consumer fresh <| step.code fun result =>
    .note (fun n => { n with result }) .done
  ((e.memory.result, e.memory.records.reverse), e)

/-- Take steps on an emitter, one after the other. -/
def performAll (e : Emitter Notebook Label) : List Step → List (Result × List Record)
  | [] => []
  | step :: rest =>
    let (outcome, e) := perform e step
    outcome :: performAll e rest

/-- The result of each step and what happened meanwhile. -/
def run (steps : List Step) : List (Result × List Record) := performAll (Emitter.idle default) steps

end Rehearsal

end TaskWatch
