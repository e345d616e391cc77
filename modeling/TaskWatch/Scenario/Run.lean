import TaskWatch.Machine.Executor
import TaskWatch.Scenario.Conduct

/-!
# Running a scenario

Each stage yields its result and a record of everything that happened meanwhile. While time passes,
what happens in the turns of different sessions at one time has no order of its own and is listed
session by session.

## Main definitions

* `Setup` — how a scenario begins.
* `begin?` — the beginning, unless an interval is zero.
* `performAll` — stages one after the other.
* `dropExecutor` — what happens when the executor goes away.
-/

namespace TaskWatch

namespace Scenario

/-- How a scenario begins. -/
structure Setup where
  storage : Storage := .inMemory
  key : String := defaultStorageKey
  cadence : Cadence := .default
  /-- Whether views have no tracker behind them. -/
  detached : Bool := false
  hasExecutor : Bool := true
  /-- Nanoseconds since 1970 on the wall clock. -/
  wallClock : Nat := 0

/-- A scenario under way. -/
abbrev Stage.Machine : Type := TaskWatch.Machine Notebook Label

/-- The result of a stage and what happened meanwhile. -/
abbrev Outcome : Type := Result × List Record

/-- The beginning: a tracker is opened. An interval of zero is refused. -/
def begin? (s : Setup) : Except CadenceError Stage.Machine :=
  match s.cadence.check with
  | .error e => .error e
  | .ok () =>
    let notebook : Notebook := { cadence := s.cadence, detached := s.detached }
    let world : World Label :=
      { storage := s.storage, wallClock := s.wallClock, hasExecutor := s.hasExecutor }
    .ok <| Machine.call consumer (.idle notebook world) (openTracker s.key fun _ => .done)

/-- Whether a record may stand before another one made while time passed. -/
def Record.mayPrecede (a b : Record) : Bool :=
  decide (a.time < b.time) ||
    a.time == b.time && !decide (b.turnOf.getD "" < a.turnOf.getD "")

/-- Records made while time passed, by time and then by session. -/
def bySession (records : List Record) : List Record := records.mergeSort Record.mayPrecede

/-- Records made while the executor went away, by the task they are about. -/
def bySubject (records : List Record) : List Record :=
  records.mergeSort fun a b => !decide (b.happening.subject < a.happening.subject)

/-- A notebook without records. -/
def Notebook.blank (n : Notebook) : Notebook := { n with records := [], result := .panicked }

/-- What happened, earliest first. -/
def Notebook.history (n : Notebook) : List Record := n.records.reverse

/-- One stage. -/
def perform (m : Stage.Machine) (stage : Stage) : Outcome × Stage.Machine :=
  let m := { m with memory := m.memory.blank }
  match stage with
  | .step s =>
    let m := Machine.call consumer m <|
      s.code fun result => .note (fun n => { n with result }) .done
    ((m.memory.result, m.memory.history), m)
  | .advance millis =>
    let m := Machine.advance consumer m millis
    ((.count m.world.clock, bySession m.memory.history), m)
  | .wait id millis =>
    let (waited, m) := Machine.await consumer m m.memory.tracker id millis
    ((.waited waited, bySession m.memory.history), m)

/-- Stages one after the other. -/
def performAll (m : Stage.Machine) : List Stage → List Outcome × Stage.Machine
  | [] => ([], m)
  | stage :: rest =>
    let (outcome, m) := perform m stage
    let (outcomes, m) := performAll m rest
    (outcome :: outcomes, m)

/-- What happens when the executor goes away. Callbacks take no steps then. -/
def dropExecutor (m : Stage.Machine) : List Record :=
  let quiet := { m with memory := { m.memory.blank with quiet := true } }
  bySubject (Machine.abandonAll consumer quiet).memory.history

end Scenario

end TaskWatch
