import TaskWatch.Json.Basic

/-!
# Representatives of equal values

Two values can be equal and yet differ, because the two zeros of the binary64 format are equal. If
every zero is written without a minus sign, equal values become the same. So equality of values is
an equivalence, and it is kept by everything that treats representatives alike.

## Main definitions

* `Json.canonical` — the value with every zero written without a minus sign.

## Main results

* `Json.beq_iff`, `Json.beqMembers_iff` — values are equal exactly if their representatives are the
  same.
-/

namespace TaskWatch

/-- The number itself, and zero without a minus sign. -/
def Binary64.canonical (x : Binary64) : Binary64 := if x.isZero then zero false else x

/-- Numbers are equal exactly if their representatives are the same. -/
theorem Binary64.beq_iff {x y : Binary64} : (x == y) = true ↔ x.canonical = y.canonical := by
  have same : (x == y) = (x.isZero && y.isZero ||
    x.negative == y.negative && x.mantissa == y.mantissa && x.exponent == y.exponent) := rfl
  obtain ⟨negative, mantissa, exponent⟩ := x
  obtain ⟨negative', mantissa', exponent'⟩ := y
  rw [same]
  simp only [canonical, isZero, zero, Bool.or_eq_true, Bool.and_eq_true, beq_iff_eq]
  by_cases first : mantissa = 0 <;> by_cases second : mantissa' = 0 <;>
    simp_all [Binary64.mk.injEq, eq_comm, and_assoc]

namespace Json

mutual

/-- The value with every zero written without a minus sign. -/
def canonical : Json → Json
  | real value => real value.canonical
  | array items => array (canonicalItems items)
  | object members => object (canonicalMembers members)
  | other => other

/-- The items with every zero written without a minus sign. -/
def canonicalItems : List Json → List Json
  | [] => []
  | item :: rest => canonical item :: canonicalItems rest

/-- The members with every zero written without a minus sign. -/
def canonicalMembers : List (String × Json) → List (String × Json)
  | [] => []
  | (key, value) :: rest => (key, canonical value) :: canonicalMembers rest

end

mutual

/-- Values are equal exactly if their representatives are the same. -/
theorem beq_iff : ∀ {a b : Json}, beq a b = true ↔ a.canonical = b.canonical
  | null, b => by cases b <;> simp [beq, canonical]
  | bool _, b => by cases b <;> simp [beq, canonical]
  | whole _, b => by cases b <;> simp [beq, canonical]
  | real _, b => by cases b <;> simp [beq, canonical, Binary64.beq_iff]
  | text _, b => by cases b <;> simp [beq, canonical]
  | array items, b => by
    cases b with
    | array items' => rw [beq, canonical, canonical, array.injEq, beqItems_iff]
    | _ => simp [beq, canonical]
  | object members, b => by
    cases b with
    | object members' => rw [beq, canonical, canonical, object.injEq, beqMembers_iff]
    | _ => simp [beq, canonical]

theorem beqItems_iff : ∀ {as bs : List Json},
    beqItems as bs = true ↔ canonicalItems as = canonicalItems bs
  | [], bs => by cases bs <;> simp [beqItems, canonicalItems]
  | a :: as, bs => by
    cases bs with
    | nil => simp [beqItems, canonicalItems]
    | cons b bs =>
      rw [beqItems, Bool.and_eq_true, canonicalItems, canonicalItems, List.cons.injEq, beq_iff,
        beqItems_iff]

theorem beqMembers_iff : ∀ {as bs : List (String × Json)},
    beqMembers as bs = true ↔ canonicalMembers as = canonicalMembers bs
  | [], bs => by cases bs <;> simp [beqMembers, canonicalMembers]
  | (k, a) :: as, bs => by
    cases bs with
    | nil => simp [beqMembers, canonicalMembers]
    | cons b bs =>
      rw [beqMembers, Bool.and_eq_true, Bool.and_eq_true, canonicalMembers, canonicalMembers,
        List.cons.injEq, Prod.mk.injEq, beq_iff_eq, beq_iff, beqMembers_iff]

end

end Json

end TaskWatch
