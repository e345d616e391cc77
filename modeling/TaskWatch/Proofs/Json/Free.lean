import TaskWatch.Proofs.Json.Syntax

/-!
# Free-form values, written and read

A free-form value is read back from its tree as it was, if no more containers are open in it at once
than there is room for, and is refused otherwise. This is about the values that occur: whole numbers
fit 64 bits, and the members of an object are in ascending order. A binary64 number may come back as
another one of the same value.

## Main definitions

* `Json.isProper` — a value can occur.

## Main results

* `Json.freeValue?_raw` — what is read from the tree of a value.
* `Json.Decoder.metadata_raw` — what is read from the tree of free-form members.
-/

namespace TaskWatch.Json

/-! ### Values that can occur -/

mutual

/-- Whether the whole numbers of a value fit 64 bits and the members of its objects are in ascending
order. -/
def isProper : Json → Bool
  | whole n => FitsWord n
  | array items => isProperItems items
  | object members => Entries.Ascending members && isProperMembers members
  | _ => true

/-- Whether all items are proper. -/
def isProperItems : List Json → Bool
  | [] => true
  | item :: rest => isProper item && isProperItems rest

/-- Whether the values of all members are proper. -/
def isProperMembers : List (String × Json) → Bool
  | [] => true
  | (_, value) :: rest => isProper value && isProperMembers rest

end

/-! ### What is read from a tree -/

mutual

/-- A value is read from its tree if it does not nest too deep. -/
theorem freeValue?_raw : ∀ {value : Json} {room : Nat}, value.isExact = true →
    value.isProper = true →
    freeValue? room (raw value) = if depth value ≤ room then some value else none
  | null, _, _, _ => by simp [raw, freeValue?, depth]
  | bool _, _, _, _ => by simp [raw, freeValue?, depth]
  | whole n, _, _, proper => by
    have fits : FitsWord n := of_decide_eq_true proper
    simp [raw, freeValue?, depth, NumberText.value?_wholeText fits]
  | real _, _, exact_, _ => by simp [isExact] at exact_
  | text _, _, _, _ => by simp [raw, freeValue?, depth]
  | array items, 0, _, _ => by simp [raw, freeValue?, depth]
  | array items, room + 1, exact_, proper => by
    rw [raw, freeValue?, freeItems?_raw exact_ proper]
    by_cases fits : depthItems items ≤ room <;> simp [depth, fits]
  | object members, 0, _, _ => by simp [raw, freeValue?, depth]
  | object members, room + 1, exact_, proper => by
    obtain ⟨ascending, others⟩ := Bool.and_eq_true_iff.mp proper
    have ordered : ofMembers members = object members :=
      congrArg object (Entries.ofList_of_ascending (of_decide_eq_true ascending))
    rw [raw, freeValue?, freeMembers?_raw exact_ others]
    by_cases fits : depthMembers members ≤ room <;> simp [depth, fits, ordered]

theorem freeItems?_raw : ∀ {items : List Json} {room : Nat}, isExactItems items = true →
    isProperItems items = true →
    freeItems? room (rawItems items) = if depthItems items ≤ room then some items else none
  | [], _, _, _ => by simp [rawItems, freeItems?, depthItems]
  | item :: rest, room, exact_, proper => by
    obtain ⟨exactItem, exactRest⟩ := Bool.and_eq_true_iff.mp exact_
    obtain ⟨properItem, properRest⟩ := Bool.and_eq_true_iff.mp proper
    rw [rawItems, freeItems?, freeValue?_raw exactItem properItem,
      freeItems?_raw exactRest properRest]
    by_cases first : depth item ≤ room <;> by_cases others : depthItems rest ≤ room <;>
      simp [depthItems, Nat.max_le, first, others]

theorem freeMembers?_raw : ∀ {members : List (String × Json)} {room : Nat},
    isExactMembers members = true → isProperMembers members = true →
    freeMembers? room (rawMembers members) =
      if depthMembers members ≤ room then some members else none
  | [], _, _, _ => by simp [rawMembers, freeMembers?, depthMembers]
  | (key, value) :: rest, room, exact_, proper => by
    obtain ⟨exactValue, exactRest⟩ := Bool.and_eq_true_iff.mp exact_
    obtain ⟨properValue, properRest⟩ := Bool.and_eq_true_iff.mp proper
    rw [rawMembers, freeMembers?, freeValue?_raw exactValue properValue,
      freeMembers?_raw exactRest properRest]
    by_cases first : depth value ≤ room <;> by_cases others : depthMembers rest ≤ room <;>
      simp [depthMembers, Nat.max_le, first, others]

end

/-- Free-form members are read from their tree if none of their values nests too deep. -/
theorem Decoder.metadata_raw {metadata : Metadata} (exact_ : isExactMembers metadata.entries = true)
    (proper : isProperMembers metadata.entries = true) (room : Nat) :
    Decoder.metadata (room + 1) (raw (.object metadata.entries)) =
      if depthMembers metadata.entries ≤ room then some metadata else none := by
  rw [raw, Decoder.metadata, freeMembers?_raw exact_ proper]
  by_cases fits : depthMembers metadata.entries ≤ room <;>
    simp [fits, Dictionary.ofList_entries]

end TaskWatch.Json
