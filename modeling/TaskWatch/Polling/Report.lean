import TaskWatch.Task.Codec

/-!
# Answers of the backend

One status request ends in a report or in a fetch error.

## Main definitions

* `Report` — the status of a job, with a payload or an error text.
* `FetchError` — why a request brought no report.
* `FetchError.message` — the text that reports it.
-/

namespace TaskWatch

/-- One answer of the status endpoint. -/
structure Report where
  /-- The current status of the job. -/
  status : Status
  /-- The payload, usually present on completion. -/
  data : Option Json := none
  /-- The description of a failure. -/
  error : Option String := none

namespace Report

/-- The error text of a report, or a general one when the backend sent none. -/
def errorMessage (r : Report) : String := r.error.getD "job failed"

/-- The report as a JSON value; absent parts are left out. -/
def toJson (r : Report) : Json :=
  .object (
    ("status", .text r.status.name) ::
    (match r.data with
      | some data => [("data", data)]
      | none => []) ++
    (match r.error with
      | some error => [("error", .text error)]
      | none => []))

/-- A report, as a decoder. -/
def decoder : Json.Decoder Report := fun room tree =>
  match Json.Decoder.fields ["status", "data", "error"] room tree with
  | some (room, [status, data, error]) => do
    pure {
      status := ← Json.Decoder.required Status.decoder room status
      data := ← Json.Decoder.withDefault none
        (Json.Decoder.nullable Json.Decoder.free) room data
      error := ← Json.Decoder.withDefault none
        (Json.Decoder.nullable Json.Decoder.text) room error }
  | _ => none

/-- The report of a text. -/
def decode? (text : String) : Option Report := Json.decode? decoder text

end Report

/-- Why a status request brought no report. -/
inductive FetchError where
  /-- The request was given up by its caller. -/
  | cancelled
  /-- The transport failed. -/
  | network (cause : String)
  /-- The request exceeded its own deadline. -/
  | timeout
  /-- The endpoint answered with a status code other than success. -/
  | http (code : Nat) (body : String)
  /-- The answer could not be decoded. -/
  | decode (cause : String)
  /-- Anything else. -/
  | other (cause : String)
deriving DecidableEq, Repr

namespace FetchError

/-- The text that reports the error. -/
def message : FetchError → String
  | cancelled => "request cancelled"
  | network cause => "network error: " ++ cause
  | timeout => "request timed out"
  | http code body => "status endpoint returned " ++ toString code ++ ": " ++ body
  | decode cause => "malformed status response: " ++ cause
  | other cause => cause

/-- A cancelled request is no failure: it is dropped without a word. -/
def isCancellation : FetchError → Bool
  | cancelled => true
  | _ => false

/-- Every failure but a cancellation is tried again. -/
def isRetryable (e : FetchError) : Bool := !e.isCancellation

end FetchError

end TaskWatch
