/-!
# Blanks, comments and ends of lines

Readers take what they are about off the front of a text. A line ends with a line feed, which may
have a carriage return before it. Comments hold any characters but control characters, of which only
the tabulator is allowed.

## Main definitions

* `Toml.skipBlanks`, `Toml.skipFiller` — blanks, and blanks with ends of lines and comments.
* `Toml.lineEnd?` — the end of a line, with blanks and a comment before it.
-/

namespace TaskWatch.Toml

/-- Whether a character is a blank within a line. -/
def isBlank (c : Char) : Bool := c = ' ' || c = '\t'

/-- Whether a character may stand in a comment. -/
def isPlain (c : Char) : Bool := c = '\t' || 0x20 ≤ c.toNat && c.toNat != 0x7F

/-- Skip blanks within a line. -/
def skipBlanks (text : List Char) : List Char := text.dropWhile isBlank

/-- Skip the end of a line. -/
def newLine? : List Char → Option (List Char)
  | '\n' :: rest => some rest
  | '\r' :: '\n' :: rest => some rest
  | _ => none

/-- Skip a comment if there is one. -/
def skipComment : List Char → List Char
  | '#' :: rest => rest.dropWhile isPlain
  | text => text

/-- Skip blanks, a comment, and the end of the line or of the text. -/
def lineEnd? (text : List Char) : Option (List Char) :=
  match skipComment (skipBlanks text) with
  | [] => some []
  | rest => newLine? rest

/-- Skip blanks and ends of lines. -/
def skipLines : List Char → List Char
  | '\r' :: '\n' :: rest => skipLines rest
  | c :: rest => if isBlank c || c = '\n' then skipLines rest else c :: rest
  | [] => []

/-- Skip blanks, ends of lines and comments; `inComment` tells whether a comment has begun. -/
def skipFiller (inComment : Bool) : List Char → List Char
  | '\r' :: '\n' :: rest => skipFiller false rest
  | c :: rest =>
    if inComment && isPlain c then skipFiller true rest
    else if isBlank c || c = '\n' then skipFiller false rest
    else if c = '#' then skipFiller true rest
    else c :: rest
  | [] => []

end TaskWatch.Toml
