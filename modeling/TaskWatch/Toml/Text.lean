import TaskWatch.Toml.Blank
import TaskWatch.Json.Text

/-!
# Texts in settings documents

A text stands between quotation marks, where a backslash begins an escape, or between apostrophes,
where every character stands for itself. Tripled marks enclose texts of several lines: an end of line
right after the opening marks does not belong to the text, up to two marks right before the closing
ones do, and between quotation marks a backslash at the end of a line takes away all blanks and ends
of lines that follow.

## Main definitions

* `Toml.text?` — a text in any of the four forms.
* `Toml.lineText?` — a text in one of the two forms that stay on one line.
-/

namespace TaskWatch.Toml

/-- Whether a character between quotation marks stands for itself. -/
def isQuotable (c : Char) : Bool := isPlain c && c != '"' && c != '\\'

/-- Whether a character may stand between apostrophes. -/
def isLiteral (c : Char) : Bool := isPlain c && c != '\''

/-- The character of a one-letter escape. -/
def shortEscape? (c : Char) : Option Char :=
  if c = 'b' then some '\x08'
  else if c = 't' then some '\t'
  else if c = 'n' then some '\n'
  else if c = 'f' then some '\x0c'
  else if c = 'r' then some '\r'
  else if c = '"' then some '"'
  else if c = '\\' then some '\\'
  else none

/-- The number that hexadecimal digits stand for. -/
def hexNumber? (digits : List Char) : Option Nat :=
  digits.foldl (fun n c => do pure ((← n) * 16 + (← Json.hexValue? c))) (some 0)

/-- The character with a code point that hexadecimal digits stand for. -/
def codePoint? (digits : List Char) : Option Char := do
  let n ← hexNumber? digits
  if n.isValidChar then some (Char.ofNat n) else none

/-- The character of an escape, behind its backslash. -/
def escape? : List Char → Option (Char × List Char)
  | 'u' :: rest =>
    if rest.length < 4 then none
    else (codePoint? (rest.take 4)).map fun c => (c, rest.drop 4)
  | 'U' :: rest =>
    if rest.length < 8 then none
    else (codePoint? (rest.take 8)).map fun c => (c, rest.drop 8)
  | c :: rest => (shortEscape? c).map fun c => (c, rest)
  | [] => none

/-- The rest of a text between quotation marks on one line; `steps` bounds the characters. -/
def quoted? : (steps : Nat) → List Char → Option (List Char × List Char)
  | 0, _ => none
  | steps + 1, text =>
    match text with
    | '"' :: rest => some ([], rest)
    | '\\' :: rest => do
      let (c, rest) ← escape? rest
      let (cs, rest) ← quoted? steps rest
      pure (c :: cs, rest)
    | c :: rest =>
      if isQuotable c then (quoted? steps rest).map fun (cs, rest) => (c :: cs, rest) else none
    | [] => none

/-- The rest of a text between apostrophes on one line. -/
def literal? : List Char → Option (List Char × List Char)
  | '\'' :: rest => some ([], rest)
  | c :: rest =>
    if isLiteral c then (literal? rest).map fun (cs, rest) => (c :: cs, rest) else none
  | [] => none

/-- Up to two marks that belong to a text although they stand behind three closing ones. -/
def lastMarks (mark : Char) : List Char → List Char × List Char
  | a :: b :: rest =>
    if a = mark then
      if b = mark then ([mark, mark], rest) else ([mark], b :: rest)
    else ([], a :: b :: rest)
  | [a] => if a = mark then ([mark], []) else ([], [a])
  | [] => ([], [])

/-- What a backslash takes away if nothing but blanks follow it on its line. -/
def continued? (text : List Char) : Option (List Char) := (newLine? (skipBlanks text)).map skipLines

/-- The rest of a text of several lines between quotation marks. -/
def quotedLines? : (steps : Nat) → List Char → Option (List Char × List Char)
  | 0, _ => none
  | steps + 1, text =>
    match text with
    | '"' :: '"' :: '"' :: rest => some (lastMarks '"' rest)
    | '\\' :: rest =>
      match continued? rest with
      | some rest => quotedLines? steps rest
      | none => do
        let (c, rest) ← escape? rest
        let (cs, rest) ← quotedLines? steps rest
        pure (c :: cs, rest)
    | c :: rest =>
      if isQuotable c || c = '"' then
        (quotedLines? steps rest).map fun (cs, rest) => (c :: cs, rest)
      else do
        let rest ← newLine? text
        let (cs, rest) ← quotedLines? steps rest
        pure ('\n' :: cs, rest)
    | [] => none

/-- The rest of a text of several lines between apostrophes. -/
def literalLines? : (steps : Nat) → List Char → Option (List Char × List Char)
  | 0, _ => none
  | steps + 1, text =>
    match text with
    | '\'' :: '\'' :: '\'' :: rest => some (lastMarks '\'' rest)
    | c :: rest =>
      if isLiteral c || c = '\'' then
        (literalLines? steps rest).map fun (cs, rest) => (c :: cs, rest)
      else do
        let rest ← newLine? text
        let (cs, rest) ← literalLines? steps rest
        pure ('\n' :: cs, rest)
    | [] => none

/-- A text without an end of line in front. -/
def skipFirstLineEnd (text : List Char) : List Char := (newLine? text).getD text

/-- A text that stays on one line. -/
def lineText? : List Char → Option (String × List Char)
  | '"' :: rest => (quoted? (rest.length + 1) rest).map fun (cs, rest) => (String.ofList cs, rest)
  | '\'' :: rest => (literal? rest).map fun (cs, rest) => (String.ofList cs, rest)
  | _ => none

/-- A text in any form. -/
def text? : List Char → Option (String × List Char)
  | '"' :: '"' :: '"' :: rest =>
    (quotedLines? (rest.length + 1) (skipFirstLineEnd rest)).map fun (cs, rest) =>
      (String.ofList cs, rest)
  | '\'' :: '\'' :: '\'' :: rest =>
    (literalLines? (rest.length + 1) (skipFirstLineEnd rest)).map fun (cs, rest) =>
      (String.ofList cs, rest)
  | text => lineText? text

end TaskWatch.Toml
