/-!
# Settings documents

The values of a TOML document and the tables they are gathered in. A table remembers how it came
about, because this decides whether it may be continued: a table can be opened by a header once, can
be extended by dotted keys only where it was made by dotted keys or by a longer header, and is closed
for good when it was written inline.

The value of a number with a fraction and of a date or time is not kept: it is enough to know that
there is one.

## Main definitions

* `Toml` — values; `Toml.Form` — how a table came about.
* `Toml.Members.change` — change the table that a path of keys leads to.
* `Toml.Members.assign`, `Toml.Members.openTable`, `Toml.Members.openItem` — what the lines of a
  document do.
-/

namespace TaskWatch

/-- How a table came about. -/
inductive Toml.Form where
  /-- It was written inline. -/
  | inline
  /-- A header opened it. -/
  | opened
  /-- A longer header mentioned it. -/
  | mentioned
  /-- Dotted keys made it. -/
  | dotted
deriving DecidableEq, Repr

/-- A value. -/
inductive Toml where
  /-- A text. -/
  | string (s : String)
  /-- A whole number. -/
  | whole (n : Int)
  /-- A number with a fraction or an exponent, an infinity, or not a number. -/
  | real
  /-- A truth value. -/
  | truth (b : Bool)
  /-- A date, a time of day, or both. -/
  | moment
  /-- An array written inline. -/
  | array (items : List Toml)
  /-- A table. -/
  | table (form : Toml.Form) (members : List (String × Toml))
  /-- Tables opened one after the other by headers of items. -/
  | tables (items : List (List (String × Toml)))

namespace Toml

/-- Members of a table in the order in which they were written. -/
abbrev Members : Type := List (String × Toml)

/-- A key on the way to a member, and whether it stands in a dotted key rather than in a header. -/
structure Key where
  /-- The name. -/
  name : String
  /-- Whether it stands in a dotted key. -/
  isDotted : Bool
deriving DecidableEq, Repr

/-- The form of a table that comes about because a key leads through it. -/
def Key.form (key : Key) : Form := if key.isDotted then .dotted else .mentioned

/-- Whether a key may lead into a table. -/
def Form.admits (form : Form) (key : Key) : Bool :=
  match form with
  | inline => false
  | opened => !key.isDotted
  | mentioned | dotted => true

namespace Members

/-- Put a value in the place of the first member with a name. -/
def replace (name : String) (value : Toml) : Members → Members
  | [] => []
  | (other, old) :: rest =>
    if other = name then (name, value) :: rest else (other, old) :: replace name value rest

/-- Change the members of the table that a path of keys leads to. Tables that are missing on the way
come about; of several tables under one key the path leads into the last one. -/
def change (act : Form → Members → Option Members) : List Key → Form → Members → Option Members
  | [], form, members => act form members
  | key :: path, _, members =>
    match members.lookup key.name with
    | none =>
      (change act path key.form []).map fun inner =>
        members ++ [(key.name, .table key.form inner)]
    | some (.table form inner) =>
      if form.admits key then
        (change act path form inner).map fun inner =>
          replace key.name (.table form inner) members
      else none
    | some (.tables items) =>
      match items.getLast? with
      | none => none
      | some inner =>
        (change act path .opened inner).map fun inner =>
          replace key.name (.tables (items.dropLast ++ [inner])) members
    | some _ => none

/-- Add a member that is not there yet. -/
def add (name : String) (value : Toml) (members : Members) : Option Members :=
  if (members.lookup name).isSome then none else some (members ++ [(name, value)])

/-- Carry out an assignment in the table that a path leads to. The name may have dotted keys before
it; then the table has to be one made by dotted keys, and otherwise one that is not. -/
def assign (path : List String) (dotted : List String) (name : String) (value : Toml)
    (members : Members) : Option Members :=
  let keys := path.map (⟨·, false⟩) ++ dotted.map (⟨·, true⟩)
  let act (form : Form) (members : Members) : Option Members :=
    if (form == .dotted) == dotted.isEmpty then none else add name value members
  change act keys .opened members

/-- Open the table with a name in the table that a path leads to. Only a table that was no more than
mentioned so far may exist already. -/
def openTable (path : List String) (name : String) (members : Members) : Option Members :=
  let act (_ : Form) (members : Members) : Option Members :=
    match members.lookup name with
    | none => some (members ++ [(name, .table .opened [])])
    | some (.table .mentioned inner) => some (replace name (.table .opened inner) members)
    | some _ => none
  change act (path.map (⟨·, false⟩)) .opened members

/-- Open the next one of several tables with one name in the table that a path leads to. -/
def openItem (path : List String) (name : String) (members : Members) : Option Members :=
  let act (_ : Form) (members : Members) : Option Members :=
    match members.lookup name with
    | none => some (members ++ [(name, .tables [[]])])
    | some (.tables items) => some (replace name (.tables (items ++ [[]])) members)
    | some _ => none
  change act (path.map (⟨·, false⟩)) .opened members

end Members

end Toml

end TaskWatch
