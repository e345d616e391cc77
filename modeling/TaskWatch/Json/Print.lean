import TaskWatch.Json.Basic
import TaskWatch.Json.Text
import TaskWatch.Binary64.Shortest

/-!
# Writing JSON

Two layouts of the same values: one without any blanks, and one with an item or a member to a
line, indented by two blanks for each open container.

## Main definitions

* `Json.compact` — the text without blanks.
* `Json.pretty` — the indented text.
-/

namespace TaskWatch.Json

/-- A text in quotes. -/
def quoted (text : String) : List Char := '"' :: escape text.toList ++ ['"']

/-- A whole number. -/
def wholeText (n : Int) : List Char :=
  if n < 0 then '-' :: Nat.toDigits 10 n.natAbs else Nat.toDigits 10 n.natAbs

mutual

/-- The text of a value without blanks. -/
def compact : Json → List Char
  | null => ['n', 'u', 'l', 'l']
  | bool true => ['t', 'r', 'u', 'e']
  | bool false => ['f', 'a', 'l', 's', 'e']
  | whole n => wholeText n
  | real x => x.text
  | text s => quoted s
  | array [] => ['[', ']']
  | array (item :: rest) => '[' :: compact item ++ compactItems rest ++ [']']
  | object [] => ['\x7b', '\x7d']
  | object ((key, value) :: rest) =>
    '\x7b' :: quoted key ++ ':' :: compact value ++ compactMembers rest ++ ['\x7d']

/-- Items after the first, each behind a comma. -/
def compactItems : List Json → List Char
  | [] => []
  | item :: rest => ',' :: compact item ++ compactItems rest

/-- Members after the first, each behind a comma. -/
def compactMembers : List (String × Json) → List Char
  | [] => []
  | (key, value) :: rest => ',' :: quoted key ++ ':' :: compact value ++ compactMembers rest

end

/-- A new line that begins with two blanks for each open container. -/
def newLine (level : Nat) : List Char := '\n' :: List.replicate (2 * level) ' '

mutual

/-- The indented text of a value inside `level` open containers. -/
def pretty (level : Nat) : Json → List Char
  | array (item :: rest) =>
    '[' :: newLine (level + 1) ++ pretty (level + 1) item ++ prettyItems (level + 1) rest
      ++ newLine level ++ [']']
  | object ((key, value) :: rest) =>
    '\x7b' :: newLine (level + 1) ++ quoted key ++ ':' :: ' ' :: pretty (level + 1) value
      ++ prettyMembers (level + 1) rest ++ newLine level ++ ['\x7d']
  | array [] => ['[', ']']
  | object [] => ['\x7b', '\x7d']
  | null => ['n', 'u', 'l', 'l']
  | bool true => ['t', 'r', 'u', 'e']
  | bool false => ['f', 'a', 'l', 's', 'e']
  | whole n => wholeText n
  | real x => x.text
  | text s => quoted s

/-- Items after the first, each on its own line. -/
def prettyItems (level : Nat) : List Json → List Char
  | [] => []
  | item :: rest => ',' :: newLine level ++ pretty level item ++ prettyItems level rest

/-- Members after the first, each on its own line. -/
def prettyMembers (level : Nat) : List (String × Json) → List Char
  | [] => []
  | (key, value) :: rest =>
    ',' :: newLine level ++ quoted key ++ ':' :: ' ' :: pretty level value
      ++ prettyMembers level rest

end

end TaskWatch.Json
