import TaskWatch.Json.Basic

/-!
# Values without binary64 numbers

Two binary64 numbers may be equal although they are written differently, such as the two zeros.
Values without such numbers are equal only if they are the same.

## Main definitions

* `Json.isExact` — there is no binary64 number in a value.

## Main results

* `Json.eq_of_beq` — equal values without binary64 numbers are the same.
-/

namespace TaskWatch.Json

mutual

/-- Whether there is no binary64 number in a value. -/
def isExact : Json → Bool
  | real _ => false
  | array items => isExactItems items
  | object members => isExactMembers members
  | _ => true

/-- Whether there is none in any item. -/
def isExactItems : List Json → Bool
  | [] => true
  | item :: rest => isExact item && isExactItems rest

/-- Whether there is none in the value of any member. -/
def isExactMembers : List (String × Json) → Bool
  | [] => true
  | (_, value) :: rest => isExact value && isExactMembers rest

end

mutual

/-- Equal values without binary64 numbers are the same. -/
theorem eq_of_beq : ∀ {a b : Json}, a.isExact = true → beq a b = true → a = b
  | null, b, _, same => by cases b <;> simp_all [beq]
  | bool _, b, _, same => by cases b <;> simp_all [beq]
  | whole _, b, _, same => by cases b <;> simp_all [beq]
  | real _, _, exact_, _ => by simp [isExact] at exact_
  | text _, b, _, same => by cases b <;> simp_all [beq]
  | array items, b, exact_, same => by
    cases b with
    | array items' => exact congrArg array (eq_of_beqItems exact_ same)
    | _ => simp [beq] at same
  | object members, b, exact_, same => by
    cases b with
    | object members' => exact congrArg object (eq_of_beqMembers exact_ same)
    | _ => simp [beq] at same

theorem eq_of_beqItems : ∀ {as bs : List Json}, isExactItems as = true →
    beqItems as bs = true → as = bs
  | [], bs, _, same => by cases bs <;> simp_all [beqItems]
  | a :: as, bs, exact_, same => by
    cases bs with
    | nil => simp [beqItems] at same
    | cons b bs =>
      obtain ⟨first, rest⟩ := Bool.and_eq_true_iff.mp exact_
      obtain ⟨head, tail⟩ := Bool.and_eq_true_iff.mp same
      rw [eq_of_beq first head, eq_of_beqItems rest tail]

theorem eq_of_beqMembers : ∀ {as bs : List (String × Json)}, isExactMembers as = true →
    beqMembers as bs = true → as = bs
  | [], bs, _, same => by cases bs <;> simp_all [beqMembers]
  | (k, a) :: as, bs, exact_, same => by
    cases bs with
    | nil => simp [beqMembers] at same
    | cons b bs =>
      obtain ⟨l, b⟩ := b
      obtain ⟨first, rest⟩ := Bool.and_eq_true_iff.mp exact_
      obtain ⟨heads, tail⟩ := Bool.and_eq_true_iff.mp same
      obtain ⟨keys, head⟩ := Bool.and_eq_true_iff.mp heads
      rw [beq_iff_eq.mp keys, eq_of_beq first head, eq_of_beqMembers rest tail]

end

end TaskWatch.Json
