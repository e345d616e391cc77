import TaskWatch.Command.Run
import Std.Time.DateTime.Timestamp

/-!
# The program

The outer layer of the command line: it reads files, prints, sleeps until sessions are due, and
writes the persisted tasks back when they have changed.

## Main definitions

* `main` — the program.
-/

namespace TaskWatch

namespace Console

/-- The content of a file, if it can be read. -/
def content? (path : String) : IO (Option ByteArray) := do
  try pure (some (← IO.FS.readBinFile path)) catch _ => pure none

/-- The configuration of an invocation. A default file that does not exist is passed over. -/
def configuration (i : Invocation) : IO (Except CommandError Configuration) := do
  let path := i.configuration.getD Command.defaultConfigurationFile
  let missing ← try
      discard <| IO.FS.readBinFile path
      pure false
    catch
      | .noFileOrDirectory _ _ _ => pure true
      | _ => pure false
  let read ← if missing && i.configuration.isNone then pure (.ok {})
    else pure (Command.configuration? path (← content? path))
  pure <| read.map fun c => { c with stateDirectory := i.stateDirectory.getD c.stateDirectory }

/-- The path of a name in the directory of the persisted tasks. -/
def pathOf (c : Configuration) (name : String) : String :=
  if c.stateDirectory.isEmpty then name else c.stateDirectory ++ "/" ++ name

/-- Make the directory of the persisted tasks and load what is stored in it. -/
def storage (c : Configuration) : IO (Except CommandError Storage) := do
  try
    unless c.stateDirectory.isEmpty do IO.FS.createDirAll c.stateDirectory
    match ← content? (pathOf c (Storage.fileName c.key)) with
    | some content => pure (.ok (Storage.inMemory.seed c.key content))
    | none => pure (.ok .inMemory)
  catch _ => pure (.error (.noDirectory c.stateDirectory))

/-- Write what is stored back if it has changed. A failure is passed over. -/
def persist (c : Configuration) (before after : Storage) : IO Unit := do
  match after.text? c.key with
  | none => pure ()
  | some text =>
    if before.text? c.key != some text then
      let draft := pathOf c (Storage.draftName c.key)
      try
        IO.FS.writeFile draft text
        IO.FS.rename draft (pathOf c (Storage.fileName c.key))
      catch _ => pure ()

/-- Milliseconds on a clock that only goes forward. -/
def clock : IO Nat := IO.monoMsNow

/-- Run a simulation in real time, printing as it goes. -/
partial def watch (save : Storage → Storage → IO Unit) (start printed : Nat)
    (m : Simulation.Running) : IO Simulation.Running := do
  let next := Simulation.turns m
  for text in next.memory.history.drop printed do IO.println text
  save m.world.storage next.world.storage
  match Simulation.isOver next, next.world.nextWake with
  | false, some time =>
    let now ← clock
    IO.sleep (UInt32.ofNat (time - (now - start)))
    watch save start next.memory.printed.length (next.atTime time)
  | _, _ => pure next

/-- Run simulated jobs. -/
def simulate (c : Configuration) (jobs seed : Nat) (processing queued : Option Nat)
    (store : Storage) (save : Storage → Storage → IO Unit) : IO (Option CommandError) := do
  let now ← Std.Time.Timestamp.now
  let wallClock := now.toNanosecondsSinceUnixEpoch.val.toNat
  let plans := JobPlan.generate jobs (UInt64.ofNat seed)
  match Command.simulation? store c wallClock processing queued plans with
  | .error e => pure (some e)
  | .ok running =>
    IO.println (Command.preamble jobs seed)
    save store running.world.storage
    let last ← watch save (← clock) 0 running
    for text in Command.report last.memory.summary do IO.println text
    pure none

/-- Run a command on the storage of a configuration. -/
def execute (c : Configuration) (command : Command) : IO (Option CommandError) := do
  match command with
  | .simulate jobs seed processing queued true =>
    simulate c jobs seed processing queued .inMemory fun _ _ => pure ()
  | command =>
    match ← storage c with
    | .error e => pure (some e)
    | .ok store =>
      match command with
      | .simulate jobs seed processing queued _ =>
        simulate c jobs seed processing queued store (persist c)
      | .list asJson onlyActive =>
        IO.print (Command.tasks store c.key asJson onlyActive)
        pure none
      | .clear =>
        let (output, after) := Command.cleared store c.key
        persist c store after
        IO.print output
        pure none

/-- Run an invocation: the exit code. -/
def run (i : Invocation) : IO UInt32 := do
  let failure ← match ← configuration i with
    | .error e => pure (some e)
    | .ok c => execute c i.command
  match failure with
  | none => pure 0
  | some e =>
    IO.eprintln ("Error: " ++ e.message)
    pure 1

end Console

end TaskWatch

/-- The program. -/
def main (args : List String) : IO UInt32 := do
  match TaskWatch.Invocation.ofArguments args with
  | .error .version =>
    IO.print TaskWatch.Command.versionText
    pure 0
  | .error .misuse =>
    IO.eprintln "error: the command line cannot be understood"
    pure 2
  | .ok i => TaskWatch.Console.run i
