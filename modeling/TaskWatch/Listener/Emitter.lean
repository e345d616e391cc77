import TaskWatch.Listener.Registry
import TaskWatch.Listener.Handle
import TaskWatch.Program

/-!
# Emitting events to listeners that act

An emitter delivers each event to the listeners that were registered when it was emitted, one
after the other and in registration order. Listeners are programs: they may register others,
release handles, emit further events and release the registry itself, and they may panic. What a
listener causes is finished before the next listener runs, and a panic of a listener stays with
that listener.

The emitter is a machine that makes one small step at a time. What waits for the current step to
end stands on a stack of frames.

## Main definitions

* `Emitter.Consumer` — what listeners and release actions do.
* `Emitter` — memory, registry, the current step and the stack.
* `Emitter.step` — one step.
* `Emitter.run` — a program of the consumer from its beginning to its end.
-/

namespace TaskWatch

namespace Emitter

/-- A call of the consumer. -/
inductive Call (κ : Type) where
  | subscribe (label : κ)
  /-- Deliver an event to the registered listeners. -/
  | emit (event : String)
  | release (handle : Handle κ)
  | detach (handle : Handle κ)
  | close

/-- What a call replies. -/
inductive Reply (κ : Type) where
  | unit
  | handle (h : Handle κ)

/-- Why code of the consumer runs. -/
inductive Occasion where
  | delivered (event : String)
  | released

/-- A program that uses an emitter. It sees the registry while there is one. -/
abbrev Code (σ κ : Type) : Type := Program (Option (Registry κ)) σ (Call κ) (Reply κ)

/-- What the labels of listeners and actions stand for. -/
structure Consumer (σ κ : Type) where
  react : κ → Occasion → Code σ κ

/-- What is being done. -/
inductive Control (σ κ : Type) where
  /-- Code of the consumer runs. -/
  | code (p : Code σ κ)
  /-- A call has ended. -/
  | returned (reply : Reply κ)
  /-- A panic goes up the stack. -/
  | unwinding

/-- What waits for the current step to end. -/
inductive Frame (σ κ : Type) where
  /-- Code that goes on with the reply. -/
  | awaiting (next : Option (Reply κ) → Code σ κ)
  /-- The delivery of an event to further listeners. -/
  | delivering (event : String) (rest : List κ)
  /-- Further effects of letting a handle go, and whether one of them has panicked. -/
  | releasing (rest : List (Release κ)) (panicked : Bool)

end Emitter

/-- An emitter at work. -/
structure Emitter (σ κ : Type) where
  memory : σ
  /-- The registry until it is released. -/
  registry : Option (Registry κ)
  control : Emitter.Control σ κ
  /-- What waits for it, the innermost frame first. -/
  stack : List (Emitter.Frame σ κ)

namespace Emitter

variable {σ κ : Type}

/-- An emitter without listeners that has nothing to do. -/
def idle (memory : σ) : Emitter σ κ := ⟨memory, some .empty, .returned .unit, []⟩

/-- Whether the emitter has nothing to do. -/
def isIdle (e : Emitter σ κ) : Bool :=
  match e.stack, e.control with
  | [], .code _ => false
  | [], _ => true
  | _ :: _, _ => false

/-- Deliver an event to listeners, beginning with the first. -/
def deliver (c : Consumer σ κ) (e : Emitter σ κ) (event : String) : List κ → Emitter σ κ
  | [] => { e with control := .returned .unit }
  | label :: rest =>
    { e with
      control := .code (c.react label (.delivered event))
      stack := .delivering event rest :: e.stack }

/-- Let handles go, beginning with the first effect. -/
def release (c : Consumer σ κ) (e : Emitter σ κ) (panicked : Bool) :
    List (Release κ) → Emitter σ κ
  | [] => { e with control := if panicked then .unwinding else .returned .unit }
  | .listener number :: rest =>
    { e with
      registry := e.registry.map (·.unsubscribe number)
      control := .returned .unit
      stack := .releasing rest panicked :: e.stack }
  | .action label :: rest =>
    { e with
      control := .code (c.react label .released)
      stack := .releasing rest panicked :: e.stack }

/-- Begin a call. Without a registry there is nobody to register with or to deliver to. -/
def perform (c : Consumer σ κ) (e : Emitter σ κ) : Call κ → Emitter σ κ
  | .subscribe label =>
    match e.registry with
    | none => { e with control := .returned (.handle .inert) }
    | some registry =>
      let (number, registry) := registry.subscribe label
      { e with registry := some registry, control := .returned (.handle (.listener number)) }
  | .emit event => deliver c e event ((e.registry.map Registry.listeners).getD [])
  | .release handle => release c e false handle.released
  | .detach handle => release c e false handle.detached
  | .close => { e with registry := none, control := .returned .unit }

/-- One step of consumer code. -/
def stepCode (c : Consumer σ κ) (e : Emitter σ κ) : Code σ κ → Emitter σ κ
  | .done => { e with control := .returned .unit }
  | .panic => { e with control := .unwinding }
  | .look next => { e with control := .code (next e.registry e.memory) }
  | .note change next => { e with memory := change e.memory, control := .code next }
  | .call request next => perform c { e with stack := .awaiting next :: e.stack } request

/-- Go on with the innermost frame after a reply, or after a panic if there is none. -/
def resume (c : Consumer σ κ) (e : Emitter σ κ) (reply : Option (Reply κ)) :
    Frame σ κ → Emitter σ κ
  | .awaiting next => { e with control := .code (next reply) }
  | .delivering event rest => deliver c e event rest
  | .releasing rest panicked => release c e (panicked || reply.isNone) rest

/-- One step; an idle emitter stays as it is. -/
def step (c : Consumer σ κ) (e : Emitter σ κ) : Emitter σ κ :=
  match e.control, e.stack with
  | .code p, _ => stepCode c e p
  | .returned _, [] => e
  | .unwinding, [] => e
  | .returned reply, frame :: rest => resume c { e with stack := rest } (some reply) frame
  | .unwinding, frame :: rest => resume c { e with stack := rest } none frame

/-- Make steps until the emitter is idle, at most so many. -/
def settle (c : Consumer σ κ) : (steps : Nat) → Emitter σ κ → Emitter σ κ
  | 0, e => e
  | steps + 1, e => if e.isIdle then e else settle c steps (step c e)

/-- How many steps a program is given. -/
def patience : Nat := 1099511627776

/-- Run a program of the consumer to its end. -/
def run (c : Consumer σ κ) (e : Emitter σ κ) (p : Code σ κ) : Emitter σ κ :=
  settle c patience { e with control := .code p }

end Emitter

end TaskWatch
