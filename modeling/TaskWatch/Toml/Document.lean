import TaskWatch.Toml.Value

/-!
# Reading settings documents

A document is a list of lines: blank lines, comments, assignments, and headers that say which table
the assignments after them go to. A byte order mark in front is skipped.

## Main definitions

* `Toml.Document` — the tables read so far.
* `Toml.read?` — the members of the outermost table of a document.
-/

namespace TaskWatch.Toml

/-- The tables read so far. -/
structure Document where
  /-- The members of the outermost table. -/
  root : Members := []
  /-- The way to the table that assignments go to. -/
  current : List String := []

namespace Document

/-- Read a header and open its table. -/
def header? (d : Document) (text : List Char) : Option (Document × List Char) :=
  match text with
  | '[' :: '[' :: rest => do
    let ((path, name), rest) ← key? rest
    match rest with
    | ']' :: ']' :: rest =>
      let rest ← lineEnd? rest
      pure (⟨← d.root.openItem path name, path ++ [name]⟩, rest)
    | _ => none
  | '[' :: rest => do
    let ((path, name), rest) ← key? rest
    match rest with
    | ']' :: rest =>
      let rest ← lineEnd? rest
      pure (⟨← d.root.openTable path name, path ++ [name]⟩, rest)
    | _ => none
  | _ => none

/-- Read an assignment and carry it out in the current table. -/
def assignment? (d : Document) (text : List Char) : Option (Document × List Char) := do
  let ((dotted, name), rest) ← key? text
  match rest with
  | '=' :: rest =>
    let (value, rest) ← value? (skipBlanks rest)
    let rest ← lineEnd? rest
    pure ({ d with root := ← d.root.assign d.current dotted name value }, rest)
  | _ => none

/-- Read a line that is not blank to its end. -/
def line? (d : Document) (text : List Char) : Option (Document × List Char) :=
  match text with
  | '[' :: _ => d.header? text
  | '#' :: _ => (lineEnd? text).map fun rest => (d, rest)
  | _ => d.assignment? text

/-- Read lines to the end of the text; `steps` bounds their number. -/
def lines? (d : Document) : (steps : Nat) → List Char → Option Document
  | 0, _ => none
  | steps + 1, text =>
    match skipLines text with
    | [] => some d
    | text => do
      let (d, rest) ← d.line? text
      lines? d steps rest

end Document

/-- Skip a byte order mark in front of a text. -/
def skipMark : List Char → List Char
  | '\uFEFF' :: rest => rest
  | text => text

/-- The members of the outermost table of a document. -/
def read? (text : String) : Option Members :=
  let cs := skipMark text.toList
  (Document.lines? {} (cs.length + 1) cs).map Document.root

end TaskWatch.Toml
