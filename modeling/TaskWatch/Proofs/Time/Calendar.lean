import TaskWatch.Time.Reader

/-!
# Days and dates

The date of a day count has that day count, and it exists. Years that begin in March come in eras of
four hundred, an era being four centuries of `36524` days and one more at its end, a century
twenty-five times four years of `1461` days less one at its end, and four years `365` days each and
one more at their end. The year of a day of an era is found by taking away the additional days
before it.

## Main definitions

* `Date.daysBefore` — the days of an era before a year.
* `Date.yearOfEra` — the year of a day of an era.
* `Date.ofMarch` — the date of a day of a year that begins in March.

## Main results

* `Date.toDay_ofDay` — the day count of the date of a day count.
* `Date.exists?_ofDay` — the date of a day count that can be represented exists.
-/

namespace TaskWatch.Date

/-- The days of an era before a year of it. -/
def daysBefore (year : Int) : Int := 365 * year + year / 4 - year / 100

/-- The year of a day of an era. -/
def yearOfEra (n : Int) : Int := (n - n / 1460 + n / 36524 - n / 146096) / 365

/-- A day of an era lies in a century, in four years of it, in one of these, and on a day of it.
Only the last of four years has a leap day, and not at the end of a century unless it is the last
one. -/
private theorem exists_parts {n : Int} (least : 0 ≤ n) (greatest : n < 146097) :
    ∃ century four year day : Int, n = 36524 * century + 1461 * four + 365 * year + day ∧
      (0 ≤ century ∧ century ≤ 3) ∧ (0 ≤ four ∧ four ≤ 24) ∧ (0 ≤ year ∧ year ≤ 3) ∧ 0 ≤ day ∧
      (day < 365 ∨ day = 365 ∧ year = 3 ∧ (four < 24 ∨ century = 3)) := by
  have century : ∃ q r : Int, n = 36524 * q + r ∧ (0 ≤ q ∧ q ≤ 3) ∧ 0 ≤ r ∧
      (r < 36524 ∨ r = 36524 ∧ q = 3) :=
    ⟨min (n / 36524) 3, n - 36524 * min (n / 36524) 3, by omega, by omega, by omega, by omega⟩
  obtain ⟨q, r, rfl, boundsQ, leastR, greatestR⟩ := century
  have year : ∃ c d : Int, r % 1461 = 365 * c + d ∧ (0 ≤ c ∧ c ≤ 3) ∧ 0 ≤ d ∧
      (d < 365 ∨ d = 365 ∧ c = 3) :=
    ⟨min (r % 1461 / 365) 3, r % 1461 - 365 * min (r % 1461 / 365) 3,
      by omega, by omega, by omega, by omega⟩
  obtain ⟨c, d, split, boundsC, leastD, greatestD⟩ := year
  exact ⟨q, r / 1461, c, d, by omega, boundsQ, by omega, boundsC, leastD, by omega⟩

/-- A day of an era is less than a year behind the beginning of its year, or it is the leap day. -/
theorem yearOfEra_spec {n : Int} (least : 0 ≤ n) (greatest : n < 146097) :
    0 ≤ yearOfEra n ∧ yearOfEra n < 400 ∧ 0 ≤ n - daysBefore (yearOfEra n) ∧
      (n - daysBefore (yearOfEra n) < 365 ∨
        n - daysBefore (yearOfEra n) = 365 ∧ isLeapYear (yearOfEra n + 1) = true) := by
  obtain ⟨century, four, year, day, rfl, boundsCentury, boundsFour, boundsYear, leastDay, last⟩ :=
    exists_parts least greatest
  have found : yearOfEra (36524 * century + 1461 * four + 365 * year + day) =
      100 * century + 4 * four + year := by
    have leapDays : (36524 * century + 1461 * four + 365 * year + day) / 1460 =
        25 * century + four + (24 * century + four + 365 * year + day) / 1460 := by omega
    have centuries : (36524 * century + 1461 * four + 365 * year + day) / 36524 =
        century + (36524 * century + 1461 * four + 365 * year + day) / 146096 := by
      have inside : 1461 * four + 365 * year + day < 36524 ∨
          1461 * four + 365 * year + day = 36524 ∧ century = 3 := by omega
      rcases inside with inside | ⟨inside, rfl⟩
      · have first : (36524 * century + 1461 * four + 365 * year + day) / 36524 = century := by omega
        have second : (36524 * century + 1461 * four + 365 * year + day) / 146096 = 0 := by omega
        rw [first, second, Int.add_zero]
      · omega
    rw [yearOfEra, leapDays, centuries]
    omega
  have before : daysBefore (100 * century + 4 * four + year) =
      36524 * century + 1461 * four + 365 * year := by
    rw [daysBefore]
    omega
  rw [found, before]
  refine ⟨by omega, by omega, by omega, last.imp (by omega) ?_⟩
  rintro ⟨rfl, rfl, regular⟩
  refine ⟨by omega, ?_⟩
  simp only [isLeapYear, Bool.and_eq_true, Bool.or_eq_true, beq_iff_eq, bne_iff_ne]
  omega

/-- The date of a day of a year that begins in March. -/
def ofMarch (year day : Int) : Date :=
  let month := (5 * day + 2) / 153
  let civilMonth := if month < 10 then month + 3 else month - 9
  ⟨if civilMonth ≤ 2 then year + 1 else year, civilMonth.toNat,
    (day - (153 * month + 2) / 5 + 1).toNat⟩

/-- The date of a day count by its era, its year and its day of the year. -/
theorem ofDay_eq_ofMarch (day : Int) :
    ofDay day =
      ofMarch (yearOfEra ((day + epoch) % 146097) + (day + epoch) / 146097 * 400)
        ((day + epoch) % 146097 - daysBefore (yearOfEra ((day + epoch) % 146097))) := rfl

section OfMarch

variable {day : Int} (least : 0 ≤ day) (greatest : day ≤ 365)

include least greatest

/-- The month and the day of the month of a day of a year, and the day that they stand for. -/
theorem ofMarch_spec (year : Int) :
    ∃ month : Nat, month < 12 ∧ (ofMarch year day).month = (month + 2) % 12 + 1 ∧
      (ofMarch year day).year = (if month < 10 then year else year + 1) ∧
      day + 1 = (153 * month + 2) / 5 + (ofMarch year day).day ∧ 1 ≤ (ofMarch year day).day ∧
      (153 * (month : Int) + 2) / 5 + (ofMarch year day).day ≤ (153 * (month + 1) + 2) / 5 := by
  obtain ⟨month, found⟩ : ∃ month : Nat, (5 * day + 2) / 153 = month :=
    ⟨((5 * day + 2) / 153).toNat, by omega⟩
  refine ⟨month, by omega, ?_⟩
  simp only [ofMarch, found]
  split <;> split <;> split <;> omega

theorem toDay_ofMarch (year : Int) :
    (ofMarch year day).toDay = year / 400 * 146097 + daysBefore (year % 400) + day - epoch := by
  obtain ⟨month, bound, months, years, days, -⟩ := ofMarch_spec least greatest year
  have counted : ((ofMarch year day).month + 9) % 12 = month := by omega
  have begun : (if (ofMarch year day).month ≤ 2 then (ofMarch year day).year - 1
      else (ofMarch year day).year) = year := by
    split <;> split at years <;> omega
  simp only [toDay, counted, begun, daysBefore]
  omega

theorem exists?_ofMarch {year : Int} (leap : day = 365 → isLeapYear (year + 1) = true)
    (first : leastYear ≤ (ofMarch year day).year) (last : (ofMarch year day).year ≤ greatestYear) :
    (ofMarch year day).exists? = true := by
  obtain ⟨month, bound, months, years, days, leastDay, greatestDay⟩ :=
    ofMarch_spec least greatest year
  have inMonth : (ofMarch year day).day ≤
      daysInMonth (ofMarch year day).year (ofMarch year day).month := by
    rw [months, daysInMonth]
    split
    · have civil : (ofMarch year day).year = year + 1 := by split at years <;> omega
      rw [civil]
      split
      · omega
      · next common =>
        have notLeap : day ≠ 365 := fun same => common (leap same)
        omega
    · split <;> omega
  simp only [exists?, Bool.and_eq_true, decide_eq_true_eq]
  exact ⟨⟨⟨⟨⟨first, last⟩, by omega⟩, by omega⟩, leastDay⟩, inMonth⟩

end OfMarch

/-- The day count of the date of a day count is the same. -/
theorem toDay_ofDay (day : Int) : (ofDay day).toDay = day := by
  obtain ⟨n, split⟩ : ∃ n, (day + epoch) % 146097 = n := ⟨_, rfl⟩
  obtain ⟨leastYear, greatestYear, leastDay, greatestDay⟩ :=
    yearOfEra_spec (show 0 ≤ n by omega) (show n < 146097 by omega)
  have era : (yearOfEra n + (day + epoch) / 146097 * 400) / 400 = (day + epoch) / 146097 := by omega
  have year : (yearOfEra n + (day + epoch) / 146097 * 400) % 400 = yearOfEra n := by omega
  rw [ofDay_eq_ofMarch, split, toDay_ofMarch leastDay (by omega), era, year]
  omega

/-- The date of a day count that can be represented exists. -/
theorem exists?_ofDay {day : Int} (least : Instant.leastDay ≤ day)
    (greatest : day ≤ Instant.greatestDay) : (ofDay day).exists? = true := by
  -- The representable years begin in year 256 of era -656, and end in year 142 of era 655.
  have first : Instant.leastDay + epoch = 146097 * -656 + 93502 + 306 := by decide
  have last : Instant.greatestDay + epoch = 146097 * 655 + 51864 + 305 := by decide
  obtain ⟨n, rest⟩ : ∃ n, (day + epoch) % 146097 = n := ⟨_, rfl⟩
  obtain ⟨era, eras⟩ : ∃ era, (day + epoch) / 146097 = era := ⟨_, rfl⟩
  obtain ⟨leastYear, greatestYear, leastDay, greatestDay⟩ :=
    yearOfEra_spec (show 0 ≤ n by omega) (show n < 146097 by omega)
  rw [ofDay_eq_ofMarch, rest, eras]
  obtain ⟨month, bound, months, years, days, fromFirst, inMonth⟩ :=
    ofMarch_spec leastDay (by omega) (yearOfEra n + era * 400)
  have leap : n - daysBefore (yearOfEra n) = 365 →
      isLeapYear (yearOfEra n + era * 400 + 1) = true := fun same => by
    rcases greatestDay with less | ⟨-, leap⟩
    · omega
    · simp only [isLeapYear, Bool.and_eq_true, Bool.or_eq_true, beq_iff_eq, bne_iff_ne] at leap ⊢
      omega
  refine exists?_ofMarch leastDay (by omega) leap ?_ ?_
  · rw [years, Date.leastYear]
    have early : yearOfEra n ≤ 255 → daysBefore (yearOfEra n) ≤ 93502 - 365 := by
      rw [daysBefore]
      omega
    have same : yearOfEra n = 256 → daysBefore (yearOfEra n) = 93502 := fun h => by rw [h]; rfl
    split <;> omega
  · rw [years, Date.greatestYear]
    have late : 143 ≤ yearOfEra n → 51864 + 365 ≤ daysBefore (yearOfEra n) := by
      rw [daysBefore]
      omega
    have same : yearOfEra n = 142 → daysBefore (yearOfEra n) = 51864 := fun h => by rw [h]; rfl
    split <;> omega

/-- The month and the day of a date that exists have two digits at most. -/
theorem le_of_exists? {d : Date} (there : d.exists? = true) : d.month ≤ 12 ∧ d.day ≤ 31 := by
  have days : daysInMonth d.year d.month ≤ 31 := by
    rw [daysInMonth]
    split
    · split <;> decide
    · split <;> decide
  simp only [exists?, Bool.and_eq_true, decide_eq_true_eq] at there
  omega

end TaskWatch.Date
