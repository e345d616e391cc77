import TaskWatch.Dictionary
import TaskWatch.Storage.FileTree

/-!
# Durable storage

Texts kept under keys. A storage may hold them in memory, with a limit on the size of a text, or
in files of one directory; it may be missing altogether; and it may be unreliable, refusing reads
or some of the writes.

A key's file is named after the key, with every character that is not safe in a name replaced. A
text is first written to a file beside it, whose name no key has, and then renamed into place, so
that a write that fails leaves the old text alone.

## Main definitions

* `Storage` — the storages.
* `Storage.read`, `Storage.write` — reading and replacing a text.
* `StorageError` — why this failed.
-/

namespace TaskWatch

/-- Why a storage operation failed. -/
inductive StorageError where
  /-- The file system refused. -/
  | io
  /-- There is no storage to use. -/
  | unavailable (detail : String)
  /-- The text is too large for what is left. -/
  | quotaExceeded (key : String)
  /-- What is stored is no text. -/
  | invalidEncoding (key : String)
deriving DecidableEq, Repr

/-- The text that reports the failure. -/
def StorageError.message : StorageError → String
  | io => "storage I/O failed"
  | unavailable detail => "storage unavailable: " ++ detail
  | quotaExceeded key => "storage quota exceeded for key " ++ key
  | invalidEncoding key => "stored value for key " ++ key ++ " is not valid UTF-8"

/-- A storage that refuses some calls. -/
structure Unreliable where
  /-- What has been written. -/
  entries : Dictionary String := .empty
  /-- Whether reads are answered. -/
  answersReads : Bool
  /-- Whether the write with a number, counted from zero, succeeds. -/
  accepts : Nat → Bool
  /-- How many writes have been tried. -/
  attempts : Nat := 0

/-- A place for texts under keys. -/
inductive Storage where
  /-- Kept in memory, each text no longer than the limit in bytes. -/
  | memory (limit : Option Nat) (entries : Dictionary String)
  /-- Kept in the files of a directory. -/
  | files (tree : FileTree) (directory : FilePath)
  /-- Not there. -/
  | absent
  /-- Refusing some calls. -/
  | unreliable (state : Unreliable)

namespace Storage

instance : Inhabited Storage := ⟨.absent⟩

/-- Storage in memory without a limit. -/
def inMemory : Storage := .memory none .empty

/-- Whether a character stands for itself in the name of a file. -/
def isSafe (c : Char) : Bool := c.isAlphanum || c = '-' || c = '_' || c = '.'

/-- The stem of the name of a key's file. -/
def stem (key : String) : String :=
  String.ofList (key.toList.map fun c => if isSafe c then c else '_')

/-- The name of a key's file. -/
def fileName (key : String) : String := stem key ++ ".json"

/-- The name of the file to which a text is written first. -/
def draftName (key : String) : String := "." ++ stem key ++ ".json.tmp"

/-- The text stored in a key's file. -/
def readKeyFile (tree : FileTree) (directory : FilePath) (key : String) :
    Except StorageError (Option String) :=
  match tree.readFile (directory.child (fileName key)) with
  | .ok content =>
    match String.fromUTF8? content with
    | some text => .ok (some text)
    | none => .error (.invalidEncoding key)
  | .error .notFound => .ok none
  | .error .refused => .error .io

/-- The text stored under a key. -/
def read (s : Storage) (key : String) : Except StorageError (Option String) :=
  match s with
  | .memory _ entries => .ok (entries.find? key)
  | .files tree directory => readKeyFile tree directory key
  | .absent => .ok none
  | .unreliable state =>
    if state.answersReads then .ok (state.entries.find? key)
    else .error (.unavailable "storage offline")

/-- Store a text in a key's file: make the directory, write the draft, rename it. -/
def writeKeyFile (tree : FileTree) (directory : FilePath) (key value : String) :
    FileTree × Except StorageError Unit :=
  match tree.makeDirectories directory with
  | (tree, .error _) => (tree, .error .io)
  | (tree, .ok ()) =>
    let draft := directory.child (draftName key)
    match tree.writeFile draft value.toUTF8 with
    | .error _ => (tree, .error .io)
    | .ok tree =>
      match tree.rename draft (directory.child (fileName key)) with
      | .error _ => (tree, .error .io)
      | .ok tree => (tree, .ok ())

/-- Store a text under a key, replacing the old one: the storage afterwards, and whether it
succeeded. -/
def write (s : Storage) (key value : String) : Storage × Except StorageError Unit :=
  match s with
  | .memory limit entries =>
    match limit with
    | some limit =>
      if limit < value.utf8ByteSize then (s, .error (.quotaExceeded key))
      else (.memory (some limit) (entries.insert key value), .ok ())
    | none => (.memory none (entries.insert key value), .ok ())
  | .files tree directory =>
    let (tree, outcome) := writeKeyFile tree directory key value
    (.files tree directory, outcome)
  | .absent => (s, .error (.unavailable ("no durable storage configured (key " ++ key ++ ")")))
  | .unreliable state =>
    let tried := { state with attempts := state.attempts + 1 }
    if state.accepts state.attempts then
      (.unreliable { tried with entries := state.entries.insert key value }, .ok ())
    else (.unreliable tried, .error (.quotaExceeded key))

/-- Put bytes under a key past all limits: in memory if they are a text, in the key's file as they
are. A storage of another kind does not take them. -/
def seed (s : Storage) (key : String) (content : ByteArray) : Storage :=
  match s with
  | .memory limit entries =>
    match String.fromUTF8? content with
    | some text => .memory limit (entries.insert key text)
    | none => s
  | .files tree directory =>
    .files (tree.plant (directory.child (fileName key)) content) directory
  | other => other

/-- The text stored under a key, if it can be read and there is one. -/
def text? (s : Storage) (key : String) : Option String :=
  match s.read key with
  | .ok text => text
  | .error _ => none

/-- The path of a key's file, in a storage that has one. -/
def keyPath? (s : Storage) (key : String) : Option FilePath :=
  match s with
  | .files _ directory => some (directory.child (fileName key))
  | _ => none

/-- The file tree of a storage in files. -/
def tree (s : Storage) : FileTree :=
  match s with
  | .files tree _ => tree
  | _ => .empty

/-- The storage on another file tree, if it is one in files. -/
def onTree (s : Storage) (tree : FileTree) : Storage :=
  match s with
  | .files _ directory => .files tree directory
  | other => other

/-- The names of the files in the directory of a storage that has one. -/
def fileNames? (s : Storage) : Option (List String) :=
  match s with
  | .files tree directory => tree.namesIn directory
  | _ => none

/-- How many writes an unreliable storage has seen. -/
def attempts? (s : Storage) : Option Nat :=
  match s with
  | .unreliable state => some state.attempts
  | _ => none

end Storage

end TaskWatch
