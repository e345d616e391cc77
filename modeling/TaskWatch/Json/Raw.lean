import TaskWatch.Json.Text

/-!
# JSON syntax

The tree of a JSON text with its numbers and texts left as they are written. Reading a tree checks
the syntax and nothing else: any depth is accepted, members may repeat, numbers may be of any
size, and surrogate escapes need not pair up. What a part means is decided when it is used, so a
part that nobody uses is only held to the syntax.

The reader takes one character at a time and keeps the containers that are still open in a list.

## Main definitions

* `Json.Raw` — the tree.
* `Json.Reader` — the state between two characters, and `Json.Reader.step`.
* `Json.Raw.read?` — the tree of a whole text.
-/

namespace TaskWatch.Json

/-- A JSON tree with texts and numbers as they are written. -/
inductive Raw where
  | null
  | bool (value : Bool)
  /-- A number as it is written. -/
  | number (written : List Char)
  /-- A text as it is written between its quotes. -/
  | text (written : List Char)
  | array (items : List Raw)
  /-- Members as they are written, in order. -/
  | object (members : List (List Char × Raw))

instance : Inhabited Raw := ⟨.null⟩

/-- A container that is still open, with what it holds so far, latest first. -/
inductive Open where
  /-- An open list. -/
  | array (done : List Raw)
  /-- An open object whose member with the given key is being read. -/
  | object (done : List (List Char × Raw)) (key : List Char)

/-- Where a number stands. -/
inductive NumberPhase where
  | minus
  | zero
  /-- Among the digits before the point. -/
  | whole
  | point
  /-- Among the digits behind the point. -/
  | fraction
  /-- After the exponent mark. -/
  | mark
  | sign
  /-- Among the digits of the exponent. -/
  | exponent
deriving DecidableEq

/-- Where an escape stands. -/
inductive EscapePhase where
  | none
  | backslash
  /-- Before the given number of hexadecimal digits, less one. -/
  | hex (more : Nat)

/-- What the next character is read as. -/
inductive Mode where
  | value
  /-- An array has just been opened: a value or its end follows. -/
  | firstItem
  /-- A key follows; the object may end here if it is still empty. -/
  | key (done : List (List Char × Raw)) (mayEnd : Bool)
  /-- The colon after a key follows. -/
  | colon (done : List (List Char × Raw)) (key : List Char)
  | after (value : Raw)
  /-- Inside a text, which is a key of the given members or a value. -/
  | text (keyOf : Option (List (List Char × Raw))) (reversed : List Char) (escape : EscapePhase)
  | number (reversed : List Char) (phase : NumberPhase)
  /-- Inside a word with the given characters left. -/
  | word (left : List Char) (value : Raw)

/-- The state of reading between two characters. -/
structure Reader where
  /-- The containers that are open, the innermost first. -/
  stack : List Open
  /-- What the next character is read as. -/
  mode : Mode

/-- Blank, tab, line feed and carriage return may stand between tokens. -/
def isBlank (c : Char) : Bool := c = ' ' || c = '\t' || c = '\n' || c = '\r'

namespace NumberPhase

/-- Whether a number may end here. -/
def mayEnd : NumberPhase → Bool
  | zero | whole | fraction | exponent => true
  | _ => false

/-- Where a number stands after one more character, if it can take it. -/
def next? (phase : NumberPhase) (c : Char) : Option NumberPhase :=
  match phase with
  | minus => if c = '0' then some zero else if c.isDigit then some whole else none
  | zero =>
    if c = '.' then some point else if c = 'e' ∨ c = 'E' then some mark else none
  | whole =>
    if c.isDigit then some whole
    else if c = '.' then some point else if c = 'e' ∨ c = 'E' then some mark else none
  | point => if c.isDigit then some fraction else none
  | fraction =>
    if c.isDigit then some fraction else if c = 'e' ∨ c = 'E' then some mark else none
  | mark =>
    if c = '+' ∨ c = '-' then some sign else if c.isDigit then some exponent else none
  | sign => if c.isDigit then some exponent else none
  | exponent => if c.isDigit then some exponent else none

end NumberPhase

namespace Reader

/-- The reader before the first character. -/
def start : Reader := ⟨[], .value⟩

/-- Begin a value with its first character. -/
def beginValue (stack : List Open) (c : Char) : Option Reader :=
  if c = '"' then some ⟨stack, .text none [] .none⟩
  else if c = '-' then some ⟨stack, .number [c] .minus⟩
  else if c = '0' then some ⟨stack, .number [c] .zero⟩
  else if c.isDigit then some ⟨stack, .number [c] .whole⟩
  else if c = '[' then some ⟨.array [] :: stack, .firstItem⟩
  else if c = '\x7b' then some ⟨stack, .key [] true⟩
  else if c = 't' then some ⟨stack, .word ['r', 'u', 'e'] (.bool true)⟩
  else if c = 'f' then some ⟨stack, .word ['a', 'l', 's', 'e'] (.bool false)⟩
  else if c = 'n' then some ⟨stack, .word ['u', 'l', 'l'] .null⟩
  else none

/-- A character after a value: it closes or continues the innermost open container. -/
def afterValue (stack : List Open) (value : Raw) (c : Char) : Option Reader :=
  if isBlank c then some ⟨stack, .after value⟩
  else match stack with
    | [] => none
    | .array done :: rest =>
      if c = ',' then some ⟨.array (value :: done) :: rest, .value⟩
      else if c = ']' then some ⟨rest, .after (.array (value :: done).reverse)⟩
      else none
    | .object done key :: rest =>
      if c = ',' then some ⟨rest, .key ((key, value) :: done) false⟩
      else if c = '\x7d' then some ⟨rest, .after (.object ((key, value) :: done).reverse)⟩
      else none

/-- One more character inside a text. -/
def insideText (stack : List Open) (keyOf : Option (List (List Char × Raw)))
    (reversed : List Char) (escape : EscapePhase) (c : Char) : Option Reader :=
  match escape with
  | .none =>
    if c = '"' then
      match keyOf with
      | none => some ⟨stack, .after (.text reversed.reverse)⟩
      | some done => some ⟨stack, .colon done reversed.reverse⟩
    else if c.toNat < 0x20 then none
    else if c = '\\' then some ⟨stack, .text keyOf (c :: reversed) .backslash⟩
    else some ⟨stack, .text keyOf (c :: reversed) .none⟩
  | .backslash =>
    if c = 'u' then some ⟨stack, .text keyOf (c :: reversed) (.hex 3)⟩
    else if (simpleEscape? c).isSome then some ⟨stack, .text keyOf (c :: reversed) .none⟩
    else none
  | .hex more =>
    if (hexValue? c).isSome then
      match more with
      | 0 => some ⟨stack, .text keyOf (c :: reversed) .none⟩
      | more + 1 => some ⟨stack, .text keyOf (c :: reversed) (.hex more)⟩
    else none

/-- Take one character; nothing if it cannot stand here. -/
def step (r : Reader) (c : Char) : Option Reader :=
  match r.mode with
  | .value => if isBlank c then some r else beginValue r.stack c
  | .firstItem =>
    if isBlank c then some r
    else if c = ']' then some ⟨r.stack.tail, .after (.array [])⟩
    else beginValue r.stack c
  | .key done mayEnd =>
    if isBlank c then some r
    else if c = '"' then some ⟨r.stack, .text (some done) [] .none⟩
    else if c = '\x7d' ∧ mayEnd then some ⟨r.stack, .after (.object [])⟩
    else none
  | .colon done key =>
    if isBlank c then some r
    else if c = ':' then some ⟨.object done key :: r.stack, .value⟩
    else none
  | .after value => afterValue r.stack value c
  | .text keyOf reversed escape => insideText r.stack keyOf reversed escape c
  | .number reversed phase =>
    match phase.next? c with
    | some phase => some ⟨r.stack, .number (c :: reversed) phase⟩
    | none =>
      if phase.mayEnd then afterValue r.stack (.number reversed.reverse) c else none
  | .word left value =>
    match left with
    | [] => none
    | [last] => if c = last then some ⟨r.stack, .after value⟩ else none
    | next :: left => if c = next then some ⟨r.stack, .word left value⟩ else none

/-- Take characters one after the other. -/
def run (r : Reader) : List Char → Option Reader
  | [] => some r
  | c :: rest => (r.step c).bind fun r => run r rest

theorem run_append (r : Reader) (first rest : List Char) :
    r.run (first ++ rest) = (r.run first).bind fun r => r.run rest := by
  induction first generalizing r with
  | nil => rfl
  | cons c first ih =>
    rw [List.cons_append, run, run]
    cases r.step c with
    | none => rfl
    | some r => exact ih r

/-- The tree that has been read, if the text may end here. -/
def finish? (r : Reader) : Option Raw :=
  match r.stack, r.mode with
  | [], .after value => some value
  | [], .number reversed phase => if phase.mayEnd then some (.number reversed.reverse) else none
  | _, _ => none

end Reader

/-- The tree of a text that holds one value and nothing else but blanks. -/
def Raw.read? (text : List Char) : Option Raw := (Reader.start.run text).bind Reader.finish?

end TaskWatch.Json
