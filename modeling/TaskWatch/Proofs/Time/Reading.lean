import TaskWatch.Proofs.Time.Timestamp

/-!
# Points in time that are read

Whatever text a point in time is read from, with any offset and any number of digits, it is one that
can be represented: the offset moves it by whole minutes, so that a leap second stays before a full
minute, and the day is checked at the end.

## Main results

* `Instant.read?_proper` — a point in time that has been read can be represented.
-/

namespace TaskWatch.Instant

/-- Digits that go on a number make it less than the next number with as many zeros. -/
private theorem foldl_digits_lt {digits : List Char} (all : ∀ c ∈ digits, c.isDigit = true)
    (n : Nat) : digits.foldl (fun n c => n * 10 + (c.toNat - '0'.toNat)) n <
      (n + 1) * Nat.pow 10 digits.length := by
  induction digits generalizing n with
  | nil => exact Nat.lt_of_lt_of_eq (Nat.lt_succ_self n) (Nat.mul_one _).symm
  | cons c digits ih =>
    have digit : c.toNat ≤ 57 := by
      have range := all c List.mem_cons_self
      simp only [Char.isDigit, Bool.and_eq_true, decide_eq_true_eq, UInt32.le_iff_toNat_le] at range
      exact range.2
    have next : n * 10 + (c.toNat - '0'.toNat) + 1 ≤ (n + 1) * 10 := by
      have zero : '0'.toNat = 48 := rfl
      omega
    calc (c :: digits).foldl (fun n c => n * 10 + (c.toNat - '0'.toNat)) n
        < (n * 10 + (c.toNat - '0'.toNat) + 1) * Nat.pow 10 digits.length :=
          ih (fun d mem => all d (List.mem_cons_of_mem _ mem)) _
      _ ≤ (n + 1) * 10 * Nat.pow 10 digits.length := Nat.mul_le_mul_right _ next
      _ = (n + 1) * Nat.pow 10 (c :: digits).length := by
          rw [Nat.mul_assoc, Nat.mul_comm 10]
          rfl

/-- A number of some digits is below the power of ten with as many zeros. -/
theorem digitsValue_lt {digits : List Char} (all : ∀ c ∈ digits, c.isDigit = true) :
    digitsValue digits < Nat.pow 10 digits.length := by
  simpa [digitsValue] using foldl_digits_lt all 0

/-- A fraction is less than a second. -/
theorem readFraction_lt {text rest : List Char} {nano : Nat}
    (read : readFraction text = some (nano, rest)) : nano < nanosPerSecond := by
  unfold readFraction at read
  split at read
  · next digits =>
    dsimp only at read
    split at read
    · simp at read
    · obtain ⟨rfl, -⟩ := Prod.mk.inj (Option.some.inj read)
      have all : ∀ c ∈ (digits.takeWhile Char.isDigit).take 9, c.isDigit = true := fun c mem =>
        List.all_eq_true.mp List.all_takeWhile c (List.mem_of_mem_take mem)
      have short : ((digits.takeWhile Char.isDigit).take 9).length ≤ 9 := List.length_take_le _ _
      generalize (digits.takeWhile Char.isDigit).take 9 = kept at all short ⊢
      have scale : Nat.pow 10 kept.length * Nat.pow 10 (9 - kept.length) = nanosPerSecond := by
        calc Nat.pow 10 kept.length * Nat.pow 10 (9 - kept.length)
            = 10 ^ (kept.length + (9 - kept.length)) := (Nat.pow_add ..).symm
          _ = nanosPerSecond := by rw [Nat.add_sub_cancel' short]; rfl
      exact scale ▸ Nat.mul_lt_mul_of_pos_right (digitsValue_lt all) (Nat.pow_pos (by decide))
  · obtain ⟨rfl, -⟩ := Prod.mk.inj (Option.some.inj read)
    decide

/-- Only before a full minute the fraction of a time of day may go on for another second. -/
theorem readClock_leap {text rest : List Char} {second nano : Nat}
    (read : readClock text = some ((second, nano), rest)) :
    nano < nanosPerSecond ∨ second % 60 = 59 ∧ nano < 2 * nanosPerSecond := by
  simp only [readClock, Option.bind_eq_bind, Option.bind_eq_some_iff] at read
  obtain ⟨⟨hour, _⟩, -, _, -, ⟨minute, _⟩, -, _, -, ⟨sec, _⟩, -, ⟨fraction, _⟩, small, read⟩ := read
  have below := readFraction_lt small
  split at read
  · simp at read
  · next range =>
    split at read
    · simp only [Option.some.injEq, Prod.mk.injEq] at read
      omega
    · simp only [Option.some.injEq, Prod.mk.injEq] at read
      omega

/-- An offset is a number of minutes and leaves the seconds of a minute alone. -/
theorem ofLocal_proper {date : Date} {second nano : Nat} {offset : Int} {t : Instant}
    (fraction : nano < nanosPerSecond ∨ second % 60 = 59 ∧ nano < 2 * nanosPerSecond)
    (made : ofLocal date second nano offset = some t) : t.IsProper := by
  simp only [ofLocal] at made
  split at made
  · next range =>
    obtain rfl := Option.some.inj made
    refine ⟨range.1, range.2, ?_, fraction.imp id fun leap => ⟨?_, leap.2⟩⟩
    · simp only [secondsPerDay] at *
      omega
    · have minute := leap.1
      simp only [secondsPerDay] at *
      omega
  · simp at made

/-- A point in time that has been read can be represented. -/
theorem read?_proper {text : List Char} {t : Instant} (read : read? text = some t) :
    t.IsProper := by
  simp only [read?, Option.bind_eq_bind, Option.bind_eq_some_iff] at read
  obtain ⟨⟨date, text⟩, -, read⟩ := read
  split at read
  · split at read
    · simp only [Option.bind_some, Option.bind_eq_some_iff] at read
      obtain ⟨⟨⟨second, nano⟩, _⟩, clock, ⟨offset, _⟩, -, read⟩ := read
      split at read
      · exact ofLocal_proper (readClock_leap clock) read
      · simp at read
    · simp at read
  · simp at read

end TaskWatch.Instant
