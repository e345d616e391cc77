import TaskWatch.Random.Identifier
import TaskWatch.Polling.Report

/-!
# Plans of simulated jobs

A simulated job is a list of answers: some reports that it is queued and then processing, and a
last one that it has completed or failed, with a transient failure before a report now and then.
Equal seeds give equal plans.

## Main definitions

* `JobPlan` — a simulated job.
* `JobPlan.draft` — the record to be kept of it.
* `JobPlan.generate` — the jobs of a seed.
-/

namespace TaskWatch

/-- A simulated job. -/
structure JobPlan where
  /-- The identifier. -/
  id : TaskId
  /-- The kind of job. -/
  kind : Kind
  /-- The answers in order. -/
  answers : List (Except FetchError Report)

namespace JobPlan

/-- The status of a report; a failure has none. -/
def statusOf : Except FetchError Report → Option Status
  | .ok report => some report.status
  | .error _ => none

/-- The status of the last report. -/
def outcome (p : JobPlan) : Option Status := (p.answers.filterMap statusOf).getLast?

/-- How many answers are failures. -/
def errorCount (p : JobPlan) : Nat := p.answers.countP fun a => (statusOf a).isNone

/-- The metadata key under which a kind of job keeps what it is about. -/
def subjectKey : Kind → String
  | .analysis => "repositoryId"
  | .documentGeneration => "specId"

/-- The record to be kept of a job. -/
def draft (p : JobPlan) : Draft :=
  { id := p.id, kind := p.kind, metadata := Dictionary.ofList [(subjectKey p.kind, .text p.id)] }

/-- The failure of a request beyond the last answer. -/
def exhausted : FetchError := .other "simulated job has no more answers"

/-- The answer to the request with a number, counted from one. -/
def answer (answers : List (Except FetchError Report)) (number : Nat) :
    Except FetchError Report :=
  answers.getD (number - 1) (.error exhausted)

/-! ### Drawing plans -/

/-- The probability one half, out of `2 ^ 64`. -/
def evenChance : Nat := 9223372036854775808

/-- The probability that a job completes, out of `2 ^ 64`: the nearest binary fraction of 53 bits to
four fifths. -/
def completionChance : Nat := 7205759403792794 * 2048

/-- The probability of a transient failure before a report, out of `2 ^ 64`: the nearest binary
fraction of 53 bits to a tenth. -/
def failureChance : Nat := 7205759403792794 * 256

/-- The transient failure. -/
def transient : FetchError := .network "simulated connection reset"

/-- The last report of the job with a number. -/
def lastReport (number : Nat) (completes : Bool) : Report :=
  if completes then
    { status := .completed
      data := some (.object [("job", .whole number), ("result", .text "ok")]) }
  else { status := .failed, error := some ("simulated failure in job " ++ toString number) }

/-- Put transient failures before some of the reports. -/
def disturbed (g : Generator) : List Report → List (Except FetchError Report) × Generator
  | [] => ([], g)
  | report :: rest =>
    let (fails, g) := g.chance failureChance
    let (answers, g) := disturbed g rest
    (if fails then .error transient :: .ok report :: answers else .ok report :: answers, g)

/-- Draw the job with a number. -/
def draw (g : Generator) (number : Nat) : JobPlan × Generator :=
  let (id, g) := g.identifier
  let (isAnalysis, g) := g.chance evenChance
  let (queued, g) := g.between 0 2
  let (processing, g) := g.between 1 4
  let (completes, g) := g.chance completionChance
  let reports :=
    List.replicate queued { status := .queued } ++
      List.replicate processing { status := .processing } ++ [lastReport number completes]
  let (answers, g) := disturbed g reports
  ({ id, kind := if isAnalysis then .analysis else .documentGeneration, answers }, g)

/-- Draw so many jobs, the first one with the given number. -/
def drawFrom (g : Generator) (number : Nat) : (count : Nat) → List JobPlan
  | 0 => []
  | count + 1 =>
    let (plan, g) := draw g number
    plan :: drawFrom g (number + 1) count

/-- The jobs of a seed. -/
def generate (count : Nat) (seed : UInt64) : List JobPlan := drawFrom (.ofSeed seed) 0 count

end JobPlan

end TaskWatch
