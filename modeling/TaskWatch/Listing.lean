import TaskWatch.Task.Codec

/-!
# Lists of tasks for people

A list of tasks is printed as a table with one line for each task, or as indented JSON.

## Main definitions

* `Listing.table` — the table.
* `Listing.json` — the JSON text.
-/

namespace TaskWatch

namespace Listing

/-- A text with blanks behind it, up to a number of characters; a longer text stays as it is. -/
def padded (width : Nat) (text : List Char) : List Char :=
  text ++ List.replicate (width - text.length) ' '

/-- The widths of all columns but the last. -/
def widths : List Nat := [38, 20, 11, 20]

/-- Cells side by side with a blank between them, padded to the given widths as far as these
reach. -/
def cells : List Nat → List (List Char) → List Char
  | width :: widths, cell :: rest => padded width cell ++ ' ' :: cells widths rest
  | [], cell :: rest => cell ++ cells [] rest
  | _, [] => []

/-- A line of the table. -/
def line (columns : List (List Char)) : List Char := cells widths columns ++ ['\n']

/-- The titles of the columns. -/
def header : List (List Char) := ["ID", "TYPE", "STATUS", "CREATED", "STARTED"].map String.toList

/-- What the table says of a task. -/
def columns (t : Task) : List (List Char) :=
  [t.id.toList, t.kind.name.toList, t.status.name.toList, t.createdAt.plain,
    match t.startedAt with
    | some time => time.plain
    | none => ['-']]

/-- The table of some tasks. -/
def table : List Task → String
  | [] => "no tasks\n"
  | tasks => String.ofList (line header ++ tasks.flatMap fun t => line (columns t))

/-- The JSON text of some tasks. -/
def json (tasks : List Task) : String :=
  String.ofList ((Json.array (tasks.map Task.toJson)).pretty 0)

/-- A list of tasks in one of the two forms. -/
def render (tasks : List Task) (asJson : Bool) : String := if asJson then json tasks else table tasks

end Listing

end TaskWatch
