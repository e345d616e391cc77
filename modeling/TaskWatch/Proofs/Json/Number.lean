import TaskWatch.Json.Print
import TaskWatch.Json.Decode

/-!
# Whole numbers, written and read

A whole number is written as its decimal digits behind a minus sign if it is negative. The first
digit is a zero only for the number zero, so that the reader takes all of them for one number, and
the number read from them is the one that was written as long as it fits 64 bits.

## Main results

* `Json.NumberText.value?_wholeText` — the value of a written whole number.
* `Json.Reader.run_wholeText` — the reader takes the digits and stands among them.
-/

namespace TaskWatch.Json

/-! ### Digits -/

theorem isDigit_of_mem_digits {n : Nat} : ∀ c ∈ Nat.toDigits 10 n, c.isDigit = true :=
  fun _ => Nat.isDigit_of_mem_toDigits (by decide) (by decide)

/-- The decimal digits of a number stand for it. -/
theorem digitsValue_toDigits (n : Nat) : digitsValue (Nat.toDigits 10 n) = n := by
  calc digitsValue (Nat.toDigits 10 n)
      = Nat.ofDigitChars 10 (Nat.toDigits 10 n) 0 := by
        simp only [digitsValue, digitValue, Nat.ofDigitChars_eq_foldl, Nat.mul_comm]
    _ = n := Nat.ofDigitChars_ten_toDigits

/-- Only the number zero has a zero for its first digit. -/
theorem toDigits_of_pos (n : Nat) (pos : 0 < n) :
    ∃ c rest, Nat.toDigits 10 n = c :: rest ∧ c ≠ '0' := by
  induction n using Nat.strongRecOn with
  | _ n ih =>
    rw [Nat.toDigits_eq_if (by decide)]
    split
    · exact ⟨_, _, rfl, by simp; omega⟩
    · obtain ⟨c, rest, digits, notZero⟩ := ih (n / 10) (by omega) (by omega)
      exact ⟨c, rest ++ [(n % 10).digitChar], by rw [digits, List.cons_append], notZero⟩

theorem isBlank_of_isDigit {c : Char} (digit : c.isDigit = true) : isBlank c = false := by
  refine Bool.eq_false_iff.mpr fun blank => ?_
  simp only [isBlank, Bool.or_eq_true, decide_eq_true_eq] at blank
  rcases blank with ((rfl | rfl) | rfl) | rfl <;> exact absurd digit (by decide)

theorem takeWhile_digits {digits : List Char} (all : ∀ c ∈ digits, c.isDigit = true) :
    digits.takeWhile Char.isDigit = digits := by
  have taken : (digits ++ []).takeWhile Char.isDigit = digits ++ [].takeWhile Char.isDigit :=
    List.takeWhile_append_of_pos all
  simpa using taken

/-! ### The number that is written -/

theorem NumberText.ofChars_digits {digits : List Char} (all : ∀ c ∈ digits, c.isDigit = true) :
    NumberText.ofChars digits = ⟨false, digits, none, none⟩ := by
  have plain : (digits.head? == some '-') = false := by
    cases digits with
    | nil => rfl
    | cons c rest =>
      have : c ≠ '-' := by
        rintro rfl
        exact absurd (all '-' List.mem_cons_self) (by decide)
      simpa using this
  simp [NumberText.ofChars, plain, takeWhile_digits all]

theorem NumberText.ofChars_minus_digits {digits : List Char}
    (all : ∀ c ∈ digits, c.isDigit = true) :
    NumberText.ofChars ('-' :: digits) = ⟨true, digits, none, none⟩ := by
  simp [NumberText.ofChars, takeWhile_digits all]

/-- A whole number that fits 64 bits, signed or unsigned. -/
def FitsWord (n : Int) : Prop := -9223372036854775808 ≤ n ∧ n < 18446744073709551616

instance (n : Int) : Decidable (FitsWord n) := inferInstanceAs (Decidable (_ ∧ _))

theorem NumberText.value?_digits {n : Nat} (small : n < wordLimit) :
    NumberText.value? ⟨false, Nat.toDigits 10 n, none, none⟩ = some (.whole n) := by
  simp [NumberText.value?, digitsValue_toDigits, small]

theorem NumberText.value?_minus_digits {n : Nat} (range : 0 < n ∧ n ≤ 9223372036854775808) :
    NumberText.value? ⟨true, Nat.toDigits 10 n, none, none⟩ = some (.whole (-n)) := by
  simp [NumberText.value?, digitsValue_toDigits, range]

/-- The value of a written whole number. -/
theorem NumberText.value?_wholeText {n : Int} (fits : FitsWord n) :
    (NumberText.ofChars (wholeText n)).value? = some (.whole n) := by
  obtain ⟨least, greatest⟩ := fits
  rw [wholeText]
  split
  · have sign : -(n.natAbs : Int) = n := by omega
    rw [NumberText.ofChars_minus_digits isDigit_of_mem_digits,
      NumberText.value?_minus_digits (by omega), sign]
  · have sign : (n.natAbs : Int) = n := by omega
    rw [NumberText.ofChars_digits isDigit_of_mem_digits,
      NumberText.value?_digits (by simp only [wordLimit]; omega), sign]

/-! ### Reading the digits -/

namespace Reader

theorem run_digits {stack : List Open} {digits reversed : List Char}
    (all : ∀ c ∈ digits, c.isDigit = true) :
    run ⟨stack, .number reversed .whole⟩ digits =
      some ⟨stack, .number (digits.reverse ++ reversed) .whole⟩ := by
  induction digits generalizing reversed with
  | nil => rfl
  | cons c rest ih =>
    have taken : step ⟨stack, .number reversed .whole⟩ c =
        some ⟨stack, .number (c :: reversed) .whole⟩ := by
      simp [step, NumberPhase.next?, all c List.mem_cons_self]
    rw [run, taken, Option.bind_some, ih fun c mem => all c (List.mem_cons_of_mem _ mem)]
    simp

/-- Where a number stands after its whole digits: behind the digit zero, or among others. -/
def IsWhole (phase : NumberPhase) : Prop := phase = .zero ∨ phase = .whole

/-- The digits of a number are read from a state that takes a zero for the whole number zero and any
other digit for the first of a whole number. -/
theorem run_toDigits {r : Reader} {stack : List Open} {reversed : List Char}
    (zero : r.step '0' = some ⟨stack, .number ('0' :: reversed) .zero⟩)
    (other : ∀ c, c.isDigit = true → c ≠ '0' →
      r.step c = some ⟨stack, .number (c :: reversed) .whole⟩) (n : Nat) :
    ∃ phase, IsWhole phase ∧ r.run (Nat.toDigits 10 n) =
      some ⟨stack, .number ((Nat.toDigits 10 n).reverse ++ reversed) phase⟩ := by
  rcases Nat.eq_zero_or_pos n with rfl | pos
  · exact ⟨.zero, .inl rfl, by rw [Nat.toDigits_zero, run, zero]; rfl⟩
  · obtain ⟨c, rest, digits, notZero⟩ := toDigits_of_pos n pos
    have all : ∀ d ∈ c :: rest, d.isDigit = true := digits ▸ isDigit_of_mem_digits
    refine ⟨.whole, .inr rfl, ?_⟩
    rw [digits, run, other c (all c List.mem_cons_self) notZero, Option.bind_some,
      run_digits fun d mem => all d (List.mem_cons_of_mem _ mem)]
    simp

/-- The reader takes a written whole number and stands at its end. -/
theorem run_wholeText (stack : List Open) (n : Int) :
    ∃ phase, IsWhole phase ∧ run ⟨stack, .value⟩ (wholeText n) =
      some ⟨stack, .number (wholeText n).reverse phase⟩ := by
  rw [wholeText]
  split
  · have zero : step ⟨stack, .number ['-'] .minus⟩ '0' =
        some ⟨stack, .number ['0', '-'] .zero⟩ := rfl
    obtain ⟨phase, isWhole, read⟩ := run_toDigits zero
      (fun c digit notZero => by simp [step, NumberPhase.next?, digit, notZero]) n.natAbs
    refine ⟨phase, isWhole, ?_⟩
    rw [run]
    simpa [step, beginValue, isBlank] using read
  · have zero : step ⟨stack, .value⟩ '0' = some ⟨stack, .number ['0'] .zero⟩ := rfl
    obtain ⟨phase, isWhole, read⟩ := run_toDigits zero
      (fun c digit notZero => by
        have notQuote : c ≠ '"' := by rintro rfl; exact absurd digit (by decide)
        have notMinus : c ≠ '-' := by rintro rfl; exact absurd digit (by decide)
        simp [step, beginValue, isBlank_of_isDigit digit, digit, notZero, notQuote, notMinus])
      n.natAbs
    exact ⟨phase, isWhole, by simpa using read⟩

end Reader

end TaskWatch.Json
