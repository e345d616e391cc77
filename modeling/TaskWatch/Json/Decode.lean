import TaskWatch.Json.Number
import TaskWatch.Json.Raw

/-!
# Decoding JSON trees

A decoder turns a tree into a value of the domain, or refuses it. It is told how many containers
may still be open at once, itself included; a tree that nests deeper is refused. At the outside
`Json.nestingLimit` containers are allowed.

## Main definitions

* `Json.Decoder` — the type of decoders.
* `Json.decode?` — decode a whole text.
* `Json.Decoder.free` — the decoder of free-form values.
* `Json.Decoder.fields` — the fields of a record, written as an object or as a list in field order.
-/

namespace TaskWatch.Json

/-- A decoder is given how many containers may still be open at once, and a tree. -/
abbrev Decoder (α : Type) : Type := Nat → Raw → Option α

/-- How many containers may be open at once. -/
def nestingLimit : Nat := 127

/-- Decode a text that holds one value. -/
def decode? {α : Type} (decoder : Decoder α) (text : String) : Option α :=
  (Raw.read? text.toList).bind (decoder nestingLimit)

/-- Decode the written form of a text. -/
def textOf? (written : List Char) : Option String :=
  (unescape? written).map String.ofList

/-! ### Free-form values -/

mutual

/-- The value of a tree, if it nests at most `room` containers. -/
def freeValue? (room : Nat) : Raw → Option Json
  | .null => some .null
  | .bool value => some (.bool value)
  | .number written => (NumberText.ofChars written).value?
  | .text written => (textOf? written).map .text
  | .array items =>
    match room with
    | 0 => none
    | room + 1 => (freeItems? room items).map .array
  | .object members =>
    match room with
    | 0 => none
    | room + 1 => (freeMembers? room members).map ofMembers

/-- The values of items. -/
def freeItems? (room : Nat) : List Raw → Option (List Json)
  | [] => some []
  | item :: rest =>
    match freeValue? room item with
    | none => none
    | some value => (freeItems? room rest).map (value :: ·)

/-- The members of an object in the order they are written. -/
def freeMembers? (room : Nat) : List (List Char × Raw) → Option (List (String × Json))
  | [] => some []
  | (key, value) :: rest =>
    match textOf? key, freeValue? room value with
    | some key, some value => (freeMembers? room rest).map ((key, value) :: ·)
    | _, _ => none

end

namespace Decoder

/-- A free-form value. -/
def free : Decoder Json := freeValue?

/-- A free-form object. -/
def metadata : Decoder Metadata := fun room tree =>
  match room, tree with
  | room + 1, .object members => (freeMembers? room members).map Dictionary.ofList
  | _, _ => none

/-! ### Scalars -/

/-- A text. -/
def text : Decoder String
  | _, .text written => textOf? written
  | _, _ => none

/-- A whole number below a limit. -/
def natural (limit : Nat) : Decoder Nat
  | _, .number written =>
    match (NumberText.ofChars written).value? with
    | some (.whole n) => if 0 ≤ n ∧ n < limit then some n.toNat else none
    | _ => none
  | _, _ => none

/-- Either the absence of a value, written `null`, or a value. -/
def nullable {α : Type} (decoder : Decoder α) : Decoder (Option α)
  | _, .null => some none
  | room, tree => (decoder room tree).map some

/-- The value that belongs to a word, given as the word or as an object whose only member has the
word for its key and `null` for its value. -/
def word {α : Type} (meaning : String → Option α) : Decoder α
  | _, .text written => (textOf? written).bind meaning
  | _ + 1, .object [(key, .null)] => (textOf? key).bind meaning
  | _, _ => none

/-! ### Containers -/

/-- Every tree of a list decoded; nothing if one of them is refused. -/
def all? {α : Type} (decode : Raw → Option α) : List Raw → Option (List α)
  | [] => some []
  | tree :: rest =>
    match decode tree with
    | none => none
    | some value => (all? decode rest).map (value :: ·)

/-- A list of values of one kind. -/
def listOf {α : Type} (decoder : Decoder α) : Decoder (List α) := fun room tree =>
  match room, tree with
  | room + 1, .array items => all? (decoder room) items
  | _, _ => none

/-- The members of a record with their keys decoded. -/
def keyed? : List (List Char × Raw) → Option (List (String × Raw))
  | [] => some []
  | (key, value) :: rest =>
    match textOf? key with
    | none => none
    | some key => (keyed? rest).map ((key, value) :: ·)

/-- The tree given for a field: at most one of the members may carry its name. -/
def field? (members : List (String × Raw)) (name : String) : Option (Option Raw) :=
  match members.filter (·.1 = name) with
  | [] => some none
  | [member] => some (some member.2)
  | _ => none

/-- The fields of a record given as a list of trees in the order of the fields; trailing ones may
be missing. -/
def positional? : List String → List Raw → Option (List (Option Raw))
  | [], [] => some []
  | [], _ :: _ => none
  | _ :: names, [] => (positional? names []).map (none :: ·)
  | _ :: names, tree :: rest => (positional? names rest).map (some tree :: ·)

/-- What is given for each of the named fields of a record, and how many containers may be open
inside it. An object may hold other members, too; they are ignored. -/
def fields (names : List String) : Decoder (Nat × List (Option Raw)) := fun room tree =>
  match room, tree with
  | room + 1, .object members =>
    match keyed? members with
    | none => none
    | some members => (names.mapM (field? members)).map (room, ·)
  | room + 1, .array items => (positional? names items).map (room, ·)
  | _, _ => none

/-- A field that has to be given. -/
def required {α : Type} (decoder : Decoder α) (room : Nat) : Option Raw → Option α
  | none => none
  | some tree => decoder room tree

/-- A field that stands for a default when it is not given. -/
def withDefault {α : Type} (fallback : α) (decoder : Decoder α) (room : Nat) :
    Option Raw → Option α
  | none => some fallback
  | some tree => decoder room tree

end Decoder

end TaskWatch.Json
