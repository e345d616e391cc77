import TaskWatch.Proofs.Time.Calendar

/-!
# Points in time, written and read

The text of a point in time is read back as the same point in time: a year of any number of digits,
with a sign when it needs one; a leap second; and a fraction of as many digits as it takes.

## Main definitions

* `Instant.IsProper` — a point in time can be represented.

## Main results

* `Instant.read?_timestamp` — the text of a point in time is read back.
-/

namespace TaskWatch.Instant

open TaskWatch.Text

/-- A point in time that can be represented: its day can be, its second is one of the day, and only
before a full minute, where a leap second may be, its fraction may go on for another second. -/
def IsProper (t : Instant) : Prop :=
  leastDay ≤ t.day ∧ t.day ≤ greatestDay ∧ t.second < secondsPerDay ∧
    (t.nano < nanosPerSecond ∨ t.second % 60 = 59 ∧ t.nano < 2 * nanosPerSecond)

instance (t : Instant) : Decidable t.IsProper := inferInstanceAs (Decidable (_ ∧ _))

/-! ### Padded numbers -/

theorem length_padded {width n : Nat} (wide : 0 < width) (small : n < Nat.pow 10 width) :
    (padded width n).length = width := by
  have short : (Nat.toDigits 10 n).length ≤ width :=
    (Nat.length_toDigits_le_iff (by decide) wide).mpr small
  simp only [padded, List.length_append, List.length_replicate]
  omega

theorem padded_ne_nil (width n : Nat) : padded width n ≠ [] := by
  simp [padded]

theorem isDigit_of_mem_padded {width n : Nat} : ∀ c ∈ padded width n, c.isDigit = true := by
  intro c mem
  rcases List.mem_append.mp mem with zero | digit
  · rw [List.eq_of_mem_replicate zero]
    rfl
  · exact Nat.isDigit_of_mem_toDigits (by decide) (by decide) digit

/-- A padded number stands for the number. -/
theorem digitsValue_padded (width n : Nat) : digitsValue (padded width n) = n := by
  calc digitsValue (padded width n)
      = Nat.ofDigitChars 10 (padded width n) 0 := by
        simp only [digitsValue, Nat.ofDigitChars_eq_foldl, Nat.mul_comm]
    _ = n := by
        rw [padded, Nat.ofDigitChars_append, Nat.ofDigitChars_replicate_zero, Nat.mul_zero,
          Nat.ofDigitChars_ten_toDigits]

/-! ### Reading numbers and marks -/

theorem isSpace_of_isDigit {c : Char} (digit : c.isDigit = true) : isSpace c = false := by
  have range : 48 ≤ c.toNat ∧ c.toNat ≤ 57 := by
    simpa [Char.isDigit, UInt32.le_iff_toNat_le] using digit
  simp only [isSpace, spaceRanges, List.any_cons, List.any_nil, Bool.or_eq_false_iff,
    Bool.and_eq_false_iff, decide_eq_false_iff_not, and_true]
  omega

theorem skipSpace_cons {c : Char} (visible : isSpace c = false) (rest : List Char) :
    skipSpace (c :: rest) = c :: rest :=
  List.dropWhile_cons_of_neg (by simp [visible])

/-- A text that does not go on with a digit. -/
def EndsDigits (rest : List Char) : Prop := ∀ c ∈ rest.head?, c.isDigit = false

theorem takeWhile_of_endsDigits {rest : List Char} (ends : EndsDigits rest) :
    rest.takeWhile Char.isDigit = [] := by
  cases rest with
  | nil => rfl
  | cons c rest => exact List.takeWhile_cons_of_neg (by simp [ends c rfl])

section Digits

variable {digits rest : List Char} (all : ∀ c ∈ digits, c.isDigit = true) (nonempty : digits ≠ [])

include all

theorem takeWhile_append_digits (ends : EndsDigits rest) :
    (digits ++ rest).takeWhile Char.isDigit = digits := by
  rw [List.takeWhile_append_of_pos all, takeWhile_of_endsDigits ends, List.append_nil]

include nonempty

theorem skipSpace_digits : skipSpace (digits ++ rest) = digits ++ rest := by
  obtain ⟨c, others, rfl⟩ := List.exists_cons_of_ne_nil nonempty
  exact skipSpace_cons (isSpace_of_isDigit (all c List.mem_cons_self)) _

/-- Digits are read as far as they go or as many as are allowed. -/
theorem readDigits_append {most : Nat} (few : digits.length ≤ most)
    (ends : digits.length = most ∨ EndsDigits rest) :
    readDigits most (digits ++ rest) = some (digitsValue digits, rest) := by
  have stops : EndsDigits (rest.take (most - digits.length)) := by
    rcases ends with full | ends
    · simp [full, EndsDigits]
    · cases left : most - digits.length with
      | zero => simp [EndsDigits]
      | succ left =>
        cases rest with
        | nil => simp [EndsDigits]
        | cons c rest => exact fun d h => ends d h
  have taken : ((digits ++ rest).take most).takeWhile Char.isDigit = digits := by
    rw [List.take_append, List.take_of_length_le few, takeWhile_append_digits all stops]
  simp only [readDigits, taken, List.isEmpty_eq_false_iff.mpr nonempty, List.drop_left]
  rfl

end Digits

theorem readPair_padded {n : Nat} (small : n < 100) (rest : List Char) :
    readPair (padded 2 n ++ rest) = some (n, rest) := by
  have two : (padded 2 n).length = 2 := length_padded (by decide) small
  rw [readPair, skipSpace_digits isDigit_of_mem_padded (padded_ne_nil 2 n),
    readDigits_append isDigit_of_mem_padded (padded_ne_nil 2 n) (Nat.le_of_eq two) (.inl two),
    digitsValue_padded]

theorem readMark_cons {mark : Char} (visible : isSpace mark = false) (rest : List Char) :
    readMark mark (mark :: rest) = some rest := by
  rw [readMark, skipSpace_cons visible]
  exact if_pos rfl

/-! ### Reading dates -/

/-- The digits of a signed year are all read. -/
private theorem readDigits_year (n : Nat) (rest : List Char) :
    readDigits (padded 4 n ++ '-' :: rest).length (padded 4 n ++ '-' :: rest) =
      some (n, '-' :: rest) := by
  rw [readDigits_append isDigit_of_mem_padded (padded_ne_nil 4 n) (by simp)
    (.inr fun c h => by cases h; rfl), digitsValue_padded]

/-- A year is read back up to the mark behind it. -/
theorem readYear_yearText (year : Int) (rest : List Char) :
    readYear (yearText year ++ '-' :: rest) = some (year, '-' :: rest) := by
  rw [yearText]
  split
  · next common =>
    have four : (padded 4 year.natAbs).length = 4 := length_padded (by decide)
      (show year.natAbs < 10000 by omega)
    obtain ⟨c, others, digits⟩ := List.exists_cons_of_ne_nil (padded_ne_nil 4 year.natAbs)
    have digit : c.isDigit = true := isDigit_of_mem_padded c (digits ▸ List.mem_cons_self)
    have plain : ∀ text, readYear (c :: text) =
        (readDigits 4 (c :: text)).map fun read => ((read.1 : Int), read.2) := fun text => by
      rw [readYear, skipSpace_cons (isSpace_of_isDigit digit)]
      split
      · next same => cases same; exact absurd digit (by decide)
      · next same => cases same; exact absurd digit (by decide)
      · rfl
    have read : readDigits 4 (padded 4 year.natAbs ++ '-' :: rest) =
        some (year.natAbs, '-' :: rest) := by
      rw [readDigits_append isDigit_of_mem_padded (padded_ne_nil 4 _) (Nat.le_of_eq four)
        (.inl four), digitsValue_padded]
    rw [digits, List.cons_append] at read ⊢
    rw [plain, read]
    simp [Int.natAbs_of_nonneg common.1]
  · next uncommon =>
    split
    · next negative =>
      rw [List.cons_append, readYear, skipSpace_cons (by decide)]
      simp only [readDigits_year, Option.map_some]
      congr 2
      omega
    · next positive =>
      rw [List.cons_append, readYear, skipSpace_cons (by decide)]
      simp only [readDigits_year, Option.map_some]
      congr 2
      omega

/-- A date that can be represented is read back. -/
theorem readDate_dateText {t : Instant} (least : leastDay ≤ t.day) (greatest : t.day ≤ greatestDay)
    (rest : List Char) : readDate (t.dateText ++ rest) = some (Date.ofDay t.day, rest) := by
  have there : (Date.ofDay t.day).exists? = true := Date.exists?_ofDay least greatest
  obtain ⟨month, day⟩ := Date.le_of_exists? there
  have text : t.dateText ++ rest = yearText (Date.ofDay t.day).year ++ '-' ::
      (padded 2 (Date.ofDay t.day).month ++ '-' :: (padded 2 (Date.ofDay t.day).day ++ rest)) := by
    simp [dateText]
  rw [text, readDate, readYear_yearText]
  simp only [Option.bind_eq_bind, Option.bind_some, readMark_cons (show isSpace '-' = false by decide),
    readPair_padded (show (Date.ofDay t.day).month < 100 by omega),
    readPair_padded (show (Date.ofDay t.day).day < 100 by omega)]
  exact if_pos there

/-! ### Reading times of day -/

/-- A fraction of as many digits as are written stands for its nanoseconds. -/
private theorem readFraction_padded {width n : Nat} (few : 0 < width ∧ width ≤ 9)
    (small : n < Nat.pow 10 width) (rest : List Char) (ends : EndsDigits rest) :
    readFraction ('.' :: padded width n ++ rest) = some (n * Nat.pow 10 (9 - width), rest) := by
  have length : (padded width n).length = width := length_padded few.1 small
  have kept : (padded width n).take 9 = padded width n := List.take_of_length_le (by omega)
  simp only [List.cons_append, readFraction,
    takeWhile_append_digits isDigit_of_mem_padded ends,
    List.isEmpty_eq_false_iff.mpr (padded_ne_nil width n), kept, digitsValue_padded, length,
    List.drop_left' length]
  rfl

/-- A fraction is read back up to the mark of the offset. -/
theorem readFraction_fractionText {nano : Nat} (small : nano < nanosPerSecond) (rest : List Char) :
    readFraction (fractionText nano ++ 'Z' :: rest) = some (nano, 'Z' :: rest) := by
  have ends : EndsDigits ('Z' :: rest) := fun c h => by cases h; rfl
  have bound : nano < 1000000000 := small
  rw [fractionText]
  split
  · next zero => rw [zero]; rfl
  · split
    · next millis =>
      rw [readFraction_padded (by decide) (show nano / 1000000 < 1000 by omega) _ ends]
      have exact_ : nano / 1000000 * 1000000 = nano := by omega
      exact congrArg (fun n => some (n, 'Z' :: rest)) exact_
    · split
      · next micros =>
        rw [readFraction_padded (by decide) (show nano / 1000 < 1000000 by omega) _ ends]
        have exact_ : nano / 1000 * 1000 = nano := by omega
        exact congrArg (fun n => some (n, 'Z' :: rest)) exact_
      · rw [readFraction_padded (by decide) bound _ ends]
        exact congrArg (fun n => some (n, 'Z' :: rest)) (Nat.mul_one nano)

/-- A time of day is read back with its fraction, a leap second included. -/
theorem readClock_clockText {t : Instant} (proper : t.IsProper) (rest : List Char) :
    readClock (t.clockText ++ (fractionText (t.nano % nanosPerSecond) ++ 'Z' :: rest)) =
      some ((t.second, t.nano), 'Z' :: rest) := by
  obtain ⟨-, -, inDay, fraction⟩ := proper
  have small : t.nano % nanosPerSecond < nanosPerSecond := Nat.mod_lt _ (by decide)
  have text : t.clockText ++ (fractionText (t.nano % nanosPerSecond) ++ 'Z' :: rest) =
      padded 2 (t.second / 3600) ++ ':' :: (padded 2 (t.second / 60 % 60) ++ ':' ::
        (padded 2 (t.second % 60 + t.nano / nanosPerSecond) ++
          (fractionText (t.nano % nanosPerSecond) ++ 'Z' :: rest))) := by
    simp [clockText]
  simp only [nanosPerSecond, secondsPerDay] at *
  rw [text, readClock]
  simp only [Option.bind_eq_bind, Option.bind_some,
    readMark_cons (show isSpace ':' = false by decide),
    readPair_padded (show t.second / 3600 < 100 by omega),
    readPair_padded (show t.second / 60 % 60 < 100 by omega),
    readPair_padded (show t.second % 60 + t.nano / 1000000000 < 100 by omega),
    readFraction_fractionText small]
  rw [if_neg (by omega)]
  split
  · simp only [nanosPerSecond]
    congr 3 <;> omega
  · congr 3 <;> omega

/-! ### Reading points in time -/

/-- The date and the time of day of a point in time stand for it. -/
theorem ofLocal_ofDay {t : Instant} (proper : t.IsProper) :
    ofLocal (Date.ofDay t.day) t.second t.nano 0 = some t := by
  obtain ⟨least, greatest, inDay, -⟩ := proper
  simp only [secondsPerDay] at inDay
  have day : (t.second - 0 * 60 : Int) / 86400 = 0 := by omega
  have second : ((t.second - 0 * 60 : Int) % 86400).toNat = t.second := by omega
  have same : t.day + 0 = t.day := Int.add_zero t.day
  simp only [ofLocal, secondsPerDay, Int.cast_ofNat_Int, day, second, Date.toDay_ofDay, same]
  exact if_pos ⟨least, greatest⟩

/-- The text of a point in time is read back. -/
theorem read?_timestamp {t : Instant} (proper : t.IsProper) : read? t.timestamp = some t := by
  have text : t.timestamp =
      t.dateText ++ 'T' :: (t.clockText ++ (fractionText (t.nano % nanosPerSecond) ++ ['Z'])) := by
    simp [timestamp]
  have zone : readOffset (skipSpace ['Z']) = some (0, []) := by decide
  rw [text, read?, readDate_dateText proper.1 proper.2.1]
  simp only [Option.bind_eq_bind, Option.bind_some, readClock_clockText proper, zone]
  rw [if_pos (.inl trivial)]
  exact ofLocal_ofDay proper

end TaskWatch.Instant
