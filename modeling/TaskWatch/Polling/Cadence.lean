import TaskWatch.Task.Status
import TaskWatch.Time.Duration
import TaskWatch.Json.Decode

/-!
# The cadence of polling

How long a session pauses between two requests: one interval while the job is being processed and
another one otherwise and after a failed request. An interval of zero would make a session spin
and is refused.

## Main definitions

* `Cadence` — the two intervals in milliseconds.
* `Cadence.check` — refuses an interval of zero, the processing interval first.
* `Cadence.intervalFor` — the pause after a report.
-/

namespace TaskWatch

/-- The two polling intervals in milliseconds. -/
structure Cadence where
  /-- The pause while a job is being processed. -/
  processing : Nat
  /-- The pause while a job is queued, and after a failed request. -/
  queued : Nat
deriving DecidableEq, Repr

/-- An interval of zero. -/
inductive CadenceError where
  /-- The processing interval is zero. -/
  | zeroProcessing
  /-- The queued interval is zero. -/
  | zeroQueued
deriving DecidableEq, Repr

/-- The text that reports an interval of zero. -/
def CadenceError.message : CadenceError → String
  | zeroProcessing => "processing interval must be greater than zero"
  | zeroQueued => "queued interval must be greater than zero"

namespace Cadence

/-- Two seconds while processing and five otherwise. -/
def default : Cadence := ⟨2000, 5000⟩

instance : Inhabited Cadence := ⟨default⟩

/-- The pause after a report with the given status. -/
def intervalFor (c : Cadence) : Status → Nat
  | .processing => c.processing
  | .queued | .completed | .failed => c.queued

/-- Refuse an interval of zero. -/
def check (c : Cadence) : Except CadenceError Unit :=
  if c.processing = 0 then .error .zeroProcessing
  else if c.queued = 0 then .error .zeroQueued
  else .ok ()

/-- The cadence with the processing interval replaced. -/
def withProcessing (c : Cadence) (d : Duration) : Cadence := { c with processing := d.millis }

/-- The cadence with the queued interval replaced. -/
def withQueued (c : Cadence) (d : Duration) : Cadence := { c with queued := d.millis }

/-- The names of the two intervals where a cadence is written. -/
def fieldNames : List String := ["processing_interval_ms", "queued_interval_ms"]

/-- A cadence, as a decoder; a missing interval stands for the default. -/
def decoder : Json.Decoder Cadence := fun room tree =>
  match Json.Decoder.fields fieldNames room tree with
  | some (room, [processing, queued]) => do
    let word := Json.Decoder.natural (18446744073709551616)
    pure {
      processing := ← Json.Decoder.withDefault default.processing word room processing
      queued := ← Json.Decoder.withDefault default.queued word room queued }
  | _ => none

end Cadence

end TaskWatch
