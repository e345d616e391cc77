/-!
# Durations

Spans of time as they are configured. Polling works in whole milliseconds: a duration is rounded
down to them, and one too long for a 64-bit count stands for the longest that fits.

## Main definitions

* `Duration` — seconds and nanoseconds.
* `Duration.millis` — whole milliseconds.
-/

namespace TaskWatch

/-- A span of time. -/
structure Duration where
  /-- Whole seconds. -/
  seconds : Nat
  /-- Nanoseconds beyond them. -/
  nanos : Nat
deriving DecidableEq, Repr

namespace Duration

/-- The largest 64-bit count of milliseconds. -/
def longest : Nat := 18446744073709551616 - 1

/-- Whole milliseconds, rounded down. -/
def millis (d : Duration) : Nat := min longest (d.seconds * 1000 + d.nanos / 1000000)

/-- The duration of a number of milliseconds. -/
def ofMillis (n : Nat) : Duration := ⟨n / 1000, n % 1000 * 1000000⟩

end Duration

end TaskWatch
