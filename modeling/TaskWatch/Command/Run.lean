import TaskWatch.Command.Arguments
import TaskWatch.Configuration
import TaskWatch.Listing
import TaskWatch.Simulation.Run

/-!
# Running commands

A command reads its configuration, opens the storage in the directory of the persisted tasks, does
its work and prints. Anything that goes wrong on the way ends it with an error.

## Main definitions

* `CommandError` — what goes wrong.
* `Command.simulation?`, `Command.report` — a simulation before and after its run.
* `Command.tasks`, `Command.cleared` — the other two commands on a storage.
* `Site.run` — a whole command line in a working directory.
-/

namespace TaskWatch

/-- Why a command ended with an error. -/
inductive CommandError where
  /-- The configuration file cannot be read. -/
  | unreadable (path : String)
  /-- The configuration file is no configuration. -/
  | malformed (path : String)
  /-- The directory of the persisted tasks cannot be made. -/
  | noDirectory (path : String)
  /-- An interval is zero. -/
  | cadence (error : CadenceError)
deriving DecidableEq, Repr

/-- The text that reports the error. -/
def CommandError.message : CommandError → String
  | unreadable path => "failed to read config " ++ path
  | malformed path => "in " ++ path
  | noDirectory path => "failed to create state dir " ++ path
  | cadence error => error.message

namespace Command

/-- The name and the version of the program. -/
def versionText : String := "jobtrack 0.1.0\n"

/-- The configuration file that is read if it exists and no other one is given. -/
def defaultConfigurationFile : String := "jobtrack.toml"

/-- The configuration in the content of a file; without content the file could not be read. -/
def configuration? (path : String) (content : Option ByteArray) :
    Except CommandError Configuration :=
  match content.bind String.fromUTF8? with
  | none => .error (.unreadable path)
  | some text =>
    match Configuration.ofToml text with
    | .error _ => .error (.malformed path)
    | .ok configuration => .ok configuration

/-! ### Simulations -/

/-- A simulation with its jobs submitted. -/
def simulation? (storage : Storage) (configuration : Configuration) (wallClock : Nat)
    (processing queued : Option Nat) (plans : List JobPlan) :
    Except CommandError Simulation.Running :=
  let cadence := configuration.cadence.patched (processing.map Duration.ofMillis)
    (queued.map Duration.ofMillis)
  match Simulation.begin? storage configuration.key cadence wallClock plans with
  | .error e => .error (.cadence e)
  | .ok running => .ok running

/-- Texts, each with the end of its line. -/
def asLines (texts : List String) : String := String.join (texts.map (· ++ "\n"))

/-- What is printed before a simulation. -/
def preamble (jobs seed : Nat) : String :=
  "Simulating " ++ toString jobs ++ " jobs (seed " ++ toString seed ++ ")"

/-- What is printed after a simulation. -/
def report (s : Simulation.Summary) : List String :=
  ["",
    "Submitted:        " ++ toString s.submitted,
    "Completed:        " ++ toString s.completed,
    "Failed:           " ++ toString s.failed,
    "Transient errors: " ++ toString s.transientErrors,
    "Status changes:   " ++ toString s.statusChanges]

/-- Milliseconds that no simulation needs. -/
def longest : Nat := 4611686018427387904

/-- What a simulation prints, and the simulation at its end. -/
def simulated (running : Simulation.Running) (jobs seed : Nat) (plans : List JobPlan) :
    String × Simulation.Running :=
  let (_, running) := Simulation.finish running plans longest
  let console := running.memory
  (asLines (preamble jobs seed :: console.history ++ report console.summary), running)

/-! ### Persisted tasks -/

/-- The list of the tasks persisted under a key. -/
def tasks (storage : Storage) (key : String) (asJson onlyActive : Bool) : String :=
  let tasks := Collection.hydrate storage key
  Listing.render (if onlyActive then tasks.active else tasks.list) asJson

/-- Delete the terminal tasks persisted under a key: what is printed, and the storage afterwards. -/
def cleared (storage : Storage) (key : String) : String × Storage :=
  let store : Store Unit := .ofStorage storage key
  let mutation := store.tasks.clearTerminal
  ("Removed " ++ toString mutation.answer.length ++ " finished task(s)\n",
    (store.apply storage mutation).2)

end Command

/-! ### Command lines in a working directory -/

/-- A file system, with the directory in which commands are run, at some time. -/
structure Site where
  /-- All files, and the directory in which commands are run. -/
  tree : FileTree := .empty
  /-- Nanoseconds since 1970 on the wall clock. -/
  wallClock : Nat := 0

/-- How a command line ended. -/
structure CommandOutcome where
  /-- What has been printed. -/
  output : String := ""
  /-- Why it ended with an error, if it did. -/
  error : Option CommandError := none
  /-- The exit code. -/
  code : Nat

namespace CommandOutcome

/-- A command that has done its work. -/
def success (output : String) : CommandOutcome := { output, code := 0 }

/-- A command that ended with an error. -/
def failure (error : CommandError) : CommandOutcome := { error := some error, code := 1 }

/-- A command line that could not be understood. -/
def misuse : CommandOutcome := { code := 2 }

end CommandOutcome

namespace Site

/-- The content of a file. -/
def content? (s : Site) (path : String) : Option ByteArray :=
  match s.tree.readFile (FilePath.parse path) with
  | .ok content => some content
  | .error _ => none

/-- The configuration of an invocation. -/
def configuration? (s : Site) (i : Invocation) : Except CommandError Configuration := do
  let configuration ← match i.configuration with
    | some path => Command.configuration? path (s.content? path)
    | none =>
      let path := Command.defaultConfigurationFile
      if s.tree.exists? (FilePath.parse path) then Command.configuration? path (s.content? path)
      else pure {}
  pure { configuration with
    stateDirectory := i.stateDirectory.getD configuration.stateDirectory }

/-- Make the directory of the persisted tasks and open the storage in it. -/
def storage? (s : Site) (configuration : Configuration) : Site × Except CommandError Storage :=
  let directory := FilePath.parse configuration.stateDirectory
  match s.tree.makeDirectories directory with
  | (tree, .error _) => ({ s with tree }, .error (.noDirectory configuration.stateDirectory))
  | (tree, .ok ()) => ({ s with tree }, .ok (.files tree directory))

/-- Do something with the storage in the directory of the persisted tasks. -/
def withStorage (s : Site) (configuration : Configuration)
    (use : Site → Storage → CommandOutcome × Site) : CommandOutcome × Site :=
  match s.storage? configuration with
  | (s, .error e) => (.failure e, s)
  | (s, .ok storage) => use s storage

/-- Run simulated jobs on a storage. -/
def simulate (s : Site) (configuration : Configuration) (jobs seed : Nat)
    (processing queued : Option Nat) (storage : Storage) : CommandOutcome × Site :=
  let plans := JobPlan.generate jobs (UInt64.ofNat seed)
  match Command.simulation? storage configuration s.wallClock processing queued plans with
  | .error e => (.failure e, s)
  | .ok running =>
    let (output, running) := Command.simulated running jobs seed plans
    let tree := match running.world.storage with
      | .files tree _ => tree
      | _ => s.tree
    (.success output, { tree, wallClock := running.world.wallClock })

/-- Run a command. -/
def execute (s : Site) (configuration : Configuration) : Command → CommandOutcome × Site
  | .simulate jobs seed processing queued isEphemeral =>
    if isEphemeral then s.simulate configuration jobs seed processing queued .inMemory
    else s.withStorage configuration fun s storage =>
      s.simulate configuration jobs seed processing queued storage
  | .list asJson onlyActive =>
    s.withStorage configuration fun s storage =>
      (.success (Command.tasks storage configuration.key asJson onlyActive), s)
  | .clear =>
    s.withStorage configuration fun s storage =>
      let (output, storage) := Command.cleared storage configuration.key
      (.success output, { s with tree := storage.tree })

/-- Run a command line. -/
def run (s : Site) (args : List String) : CommandOutcome × Site :=
  match Invocation.ofArguments args with
  | .error .version => (.success Command.versionText, s)
  | .error .misuse => (.misuse, s)
  | .ok i =>
    match s.configuration? i with
    | .error e => (.failure e, s)
    | .ok configuration => s.execute configuration i.command

end Site

end TaskWatch
