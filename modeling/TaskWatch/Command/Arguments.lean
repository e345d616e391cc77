/-!
# Command lines

A command line consists of a command with options and flags of its own. Options that are common to
all commands may stand before the command or after it; what stands after it counts. An option takes a
value, behind an equals sign or as the next argument; a flag takes none. Each may be given once
before and once after the command.

Arguments are judged from left to right, and the first one that is out of place makes the whole
command line unusable, unless the version has been asked for before it.

## Main definitions

* `Command` — what to do; `Invocation` — with the common options.
* `Level` — what may stand before or after the command; `Level.read` — reading it.
* `Invocation.ofArguments` — the invocation of a command line.
-/

namespace TaskWatch

/-- What to do. -/
inductive Command where
  /-- Run simulated jobs. -/
  | simulate (jobs seed : Nat) (processing queued : Option Nat) (isEphemeral : Bool)
  /-- Print the persisted tasks. -/
  | list (asJson onlyActive : Bool)
  /-- Delete the terminal ones among them. -/
  | clear
deriving DecidableEq, Repr

/-- A command with the options common to all commands. -/
structure Invocation where
  /-- The configuration file. -/
  configuration : Option String
  /-- The directory of the persisted tasks. -/
  stateDirectory : Option String
  /-- What to do. -/
  command : Command
deriving DecidableEq, Repr

/-- Why a command line is no invocation. -/
inductive Halt where
  /-- It asks for the version. -/
  | version
  /-- It cannot be understood. -/
  | misuse
deriving DecidableEq, Repr

namespace Command

/-- The number of a value: digits, perhaps behind a plus sign, for a number of 64 bits. -/
def number? (value : String) : Option Nat :=
  let digits := match value.toList with
    | '+' :: rest => rest
    | text => text
  let n := digits.foldl (fun n c => n * 10 + (c.toNat - '0'.toNat)) 0
  if digits.isEmpty || !digits.all Char.isDigit || 18446744073709551616 ≤ n then none else some n

/-- What options and flags have been read. -/
structure Seen where
  /-- Options with their values. -/
  options : List (String × String) := []
  /-- Flags. -/
  flags : List String := []

/-- What may stand before the command, or after it. -/
structure Level where
  /-- Options whose value is a path. -/
  paths : List String
  /-- Options whose value is a number. -/
  numbers : List String := []
  /-- Flags. -/
  flags : List String
  /-- Commands. -/
  commands : List String := []

namespace Level

/-- Take note of an option with its value: the option has to be known and new, a path is not empty,
and a number can be read. -/
def takeOption (l : Level) (seen : Seen) (name value : String) : Except Halt Seen :=
  let fits := l.paths.contains name && value != "" ||
    l.numbers.contains name && (number? value).isSome
  if fits && (seen.options.lookup name).isNone then
    .ok { seen with options := (name, value) :: seen.options }
  else .error .misuse

/-- Take note of a flag, which has to be known and new. -/
def takeFlag (l : Level) (seen : Seen) (name : String) : Except Halt Seen :=
  if l.flags.contains name && !seen.flags.contains name then
    .ok { seen with flags := name :: seen.flags }
  else .error .misuse

/-- Whether an argument cannot be the value of an option because it looks like one itself. -/
def isDashed (arg : String) : Bool :=
  match arg.toList with
  | '-' :: _ :: _ => true
  | _ => false

/-- An argument in parts. -/
inductive Part where
  /-- The name of a command, or something out of place. -/
  | plain (text : String)
  /-- Two dashes alone: only plain arguments follow. -/
  | divider
  /-- An option or a flag. -/
  | long (name : String)
  /-- An option with its value. -/
  | assigned (name value : String)
  /-- Letters behind one dash. -/
  | short (letters : List Char)

/-- The parts of an argument. -/
def Part.ofArgument (arg : String) : Part :=
  match arg.toList with
  | ['-', '-'] => .divider
  | '-' :: '-' :: rest =>
    let name := rest.takeWhile (· != '=')
    match rest.drop name.length with
    | _ :: value => .assigned (String.ofList name) (String.ofList value)
    | [] => .long (String.ofList name)
  | '-' :: c :: rest => .short (c :: rest)
  | _ => .plain arg

/-- Whether the version may be asked for: only where a command is still to come. -/
def knowsVersion (l : Level) : Bool := !l.commands.isEmpty

/-- Read arguments up to a command, or to the end: what has been read, and the command with the
arguments after it. `pending` is an option whose value is the next argument. -/
def read (l : Level) (seen : Seen) (pending : Option String) :
    List String → Except Halt (Seen × Option (String × List String))
  | [] => if pending.isSome then .error .misuse else .ok (seen, none)
  | arg :: rest =>
    match pending with
    | some name =>
      if isDashed arg then .error .misuse
      else match l.takeOption seen name arg with
        | .error e => .error e
        | .ok seen => l.read seen none rest
    | none =>
      match Part.ofArgument arg with
      | .plain text =>
        if l.commands.contains text then .ok (seen, some (text, rest)) else .error .misuse
      | .divider => if rest.isEmpty then .ok (seen, none) else .error .misuse
      | .long name =>
        if l.knowsVersion && name == "version" then .error .version
        else if l.paths.contains name || l.numbers.contains name then l.read seen (some name) rest
        else match l.takeFlag seen name with
          | .error e => .error e
          | .ok seen => l.read seen none rest
      | .assigned name value =>
        match l.takeOption seen name value with
        | .error e => .error e
        | .ok seen => l.read seen none rest
      | .short letters =>
        if l.knowsVersion && letters.head? == some 'V' then .error .version else .error .misuse

/-- What may stand before the command. -/
def common : Level :=
  { paths := ["config", "state-dir"]
    flags := ["log-json"]
    commands := ["simulate", "list", "clear"] }

/-- What may stand after a command, apart from its own options and flags. -/
def inner : Level := { common with commands := [] }

/-- What may stand after the command that runs simulated jobs. -/
def simulate : Level :=
  { inner with
    numbers := ["jobs", "seed", "processing-ms", "queued-ms"]
    flags := inner.flags ++ ["ephemeral"] }

/-- What may stand after the command that prints tasks. -/
def list : Level := { inner with flags := inner.flags ++ ["json", "active"] }

end Level

/-- The number given for an option. -/
def Seen.number? (s : Seen) (name : String) : Option Nat :=
  (s.options.lookup name).bind Command.number?

/-- Read the arguments after the name of a command. -/
def ofArguments (name : String) (args : List String) : Except Halt (Seen × Command) :=
  let level := if name = "simulate" then Level.simulate
    else if name = "list" then Level.list
    else Level.inner
  match level.read {} none args with
  | .error e => .error e
  | .ok (seen, _) =>
    .ok (seen,
      if name = "simulate" then
        .simulate ((seen.number? "jobs").getD 5) ((seen.number? "seed").getD 42)
          (seen.number? "processing-ms") (seen.number? "queued-ms")
          (seen.flags.contains "ephemeral")
      else if name = "list" then
        .list (seen.flags.contains "json") (seen.flags.contains "active")
      else .clear)

end Command

/-- The invocation of a command line. -/
def Invocation.ofArguments (args : List String) : Except Halt Invocation :=
  match Command.Level.common.read {} none args with
  | .error e => .error e
  | .ok (_, none) => .error .misuse
  | .ok (outer, some (name, rest)) =>
    match Command.ofArguments name rest with
    | .error e => .error e
    | .ok (inner, command) =>
      let option (name : String) := (inner.options.lookup name).or (outer.options.lookup name)
      .ok { configuration := option "config", stateDirectory := option "state-dir", command }

end TaskWatch
