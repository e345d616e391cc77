import TaskWatch.Dictionary
import TaskWatch.Binary64.Basic

/-!
# JSON values

Free-form values as they occur in task metadata and in report payloads. Whole numbers and
binary64 numbers are told apart. The members of a free-form object are kept in ascending order of
their keys; a record is written with its fields in their own order.

## Main definitions

* `Json` — a value.
* `Json.beq` — equality of values; a whole number never equals a binary64 number, and the two
  zeros of the binary64 format are equal.
* `Json.depth` — how many containers are open at once at the deepest place of a value.
-/

namespace TaskWatch

/-- A JSON value. -/
inductive Json where
  /-- The value `null`. -/
  | null
  /-- A truth value. -/
  | bool (value : Bool)
  /-- A number written without fraction and exponent that fits 64 bits. -/
  | whole (value : Int)
  /-- Any other number. -/
  | real (value : Binary64)
  /-- A text. -/
  | text (value : String)
  /-- A list of values. -/
  | array (items : List Json)
  /-- Members in the order in which they are written. -/
  | object (members : List (String × Json))

instance : Inhabited Json := ⟨.null⟩

namespace Json

mutual

/-- Equality of values. -/
def beq : Json → Json → Bool
  | null, null => true
  | bool a, bool b => a == b
  | whole a, whole b => a == b
  | real a, real b => a == b
  | text a, text b => a == b
  | array a, array b => beqItems a b
  | object a, object b => beqMembers a b
  | _, _ => false

/-- Equality of item lists. -/
def beqItems : List Json → List Json → Bool
  | [], [] => true
  | a :: as, b :: bs => beq a b && beqItems as bs
  | _, _ => false

/-- Equality of member lists. -/
def beqMembers : List (String × Json) → List (String × Json) → Bool
  | [], [] => true
  | (k, a) :: as, (l, b) :: bs => k == l && beq a b && beqMembers as bs
  | _, _ => false

end

instance : BEq Json := ⟨beq⟩

mutual

/-- How many containers are open at once at the deepest place of a value. -/
def depth : Json → Nat
  | array items => depthItems items + 1
  | object members => depthMembers members + 1
  | _ => 0

/-- The greatest depth among items. -/
def depthItems : List Json → Nat
  | [] => 0
  | item :: rest => max (depth item) (depthItems rest)

/-- The greatest depth among the values of members. -/
def depthMembers : List (String × Json) → Nat
  | [] => 0
  | (_, value) :: rest => max (depth value) (depthMembers rest)

end

/-- Members are no deeper than their values. -/
theorem depthMembers_le_iff (members : List (String × Json)) (limit : Nat) :
    depthMembers members ≤ limit ↔ ∀ member ∈ members, member.2.depth ≤ limit := by
  induction members with
  | nil => simp [depthMembers]
  | cons member rest ih => simp [depthMembers, Nat.max_le, ih]

/-- An object from members in any order, the last of equal keys winning. -/
def ofMembers (members : List (String × Json)) : Json := object (Entries.ofList members)

end Json

/-- The free-form members attached to a task, in ascending order of their keys. -/
abbrev Metadata : Type := Dictionary Json

/-- Metadata are compared member by member. -/
instance : BEq Metadata := ⟨fun a b => Json.beqMembers a.entries b.entries⟩

end TaskWatch
