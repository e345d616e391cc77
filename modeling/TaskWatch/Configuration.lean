import TaskWatch.Toml.Document
import TaskWatch.Polling.Cadence
import TaskWatch.Store.Envelope

/-!
# The configuration file

A TOML document with the directory of the persisted tasks, the key under which they are stored, and
the cadence of polling. Everything has a default, and what is not known is passed over. A section may
also be written as an array of its values in order; a date stands for a section without members.

## Main definitions

* `Configuration` — the configuration.
* `Configuration.ofToml` — the configuration of a document.
-/

namespace TaskWatch

/-- The configuration of the command line. -/
structure Configuration where
  /-- The directory of the persisted tasks. -/
  stateDirectory : String := ".jobtrack"
  /-- The key under which they are stored. -/
  key : String := defaultStorageKey
  /-- The polling intervals. -/
  cadence : Cadence := .default
deriving DecidableEq, Repr

/-- Why a document is no configuration. -/
inductive ConfigurationError where
  /-- It is no TOML document, or a value is not of its type. -/
  | malformed
  /-- An interval is zero. -/
  | cadence (error : CadenceError)
deriving DecidableEq, Repr

/-- The text that reports the error. -/
def ConfigurationError.message : ConfigurationError → String
  | malformed => "invalid jobtrack config"
  | cadence error => error.message

namespace Configuration

instance : Inhabited Configuration := ⟨{}⟩

/-- The text of a value. -/
def text? : Toml → Option String
  | .string s => some s
  | _ => none

/-- The number of milliseconds of a value. -/
def millis? : Toml → Option Nat
  | .whole n => if 0 ≤ n then some n.toNat else none
  | _ => none

/-- The values of a section under the names of its fields. -/
def fields? (names : List String) : Toml → Option (List (Option Toml))
  | .table _ members => some (names.map fun name => members.lookup name)
  | .array items => some (names.mapIdx fun i _ => items[i]?)
  | .tables items =>
    some (names.mapIdx fun i _ => (items[i]?).map fun members => .table .opened members)
  | .moment => some (names.map fun _ => none)
  | _ => none

/-- A value that may be missing. -/
def orDefault {α : Type} (read : Toml → Option α) (default : α) : Option Toml → Option α
  | none => some default
  | some value => read value

/-- The storage key of a section. -/
def key? (value : Toml) : Option String :=
  match fields? ["storage_key"] value with
  | some [key] => orDefault text? defaultStorageKey key
  | _ => none

/-- The intervals of a section. -/
def cadence? (value : Toml) : Option Cadence :=
  match fields? Cadence.fieldNames value with
  | some [processing, queued] => do
    pure {
      processing := ← orDefault millis? Cadence.default.processing processing
      queued := ← orDefault millis? Cadence.default.queued queued }
  | _ => none

/-- The configuration of the members of a document. -/
def ofMembers? (members : Toml.Members) : Option Configuration := do
  let default : Configuration := {}
  pure {
    stateDirectory := ← orDefault text? default.stateDirectory (members.lookup "state_dir")
    key := ← orDefault key? default.key (members.lookup "store")
    cadence := ← orDefault cadence? default.cadence (members.lookup "poller") }

/-- The configuration of a document. -/
def ofToml (text : String) : Except ConfigurationError Configuration :=
  match (Toml.read? text).bind ofMembers? with
  | none => .error .malformed
  | some configuration =>
    match configuration.cadence.check with
    | .ok () => .ok configuration
    | .error e => .error (.cadence e)

end Configuration

end TaskWatch
