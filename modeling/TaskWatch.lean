import TaskWatch.Binary64.Basic
import TaskWatch.Binary64.Shortest
import TaskWatch.Command.Arguments
import TaskWatch.Command.Run
import TaskWatch.Configuration
import TaskWatch.Dictionary
import TaskWatch.Json.Basic
import TaskWatch.Json.Decode
import TaskWatch.Json.Number
import TaskWatch.Json.Print
import TaskWatch.Json.Raw
import TaskWatch.Json.Text
import TaskWatch.Listener.Emitter
import TaskWatch.Listener.Handle
import TaskWatch.Listener.Registry
import TaskWatch.Listener.Rehearsal
import TaskWatch.Listing
import TaskWatch.Machine.Executor
import TaskWatch.Machine.Step
import TaskWatch.Machine.World
import TaskWatch.Main
import TaskWatch.Polling.Cadence
import TaskWatch.Polling.Report
import TaskWatch.Polling.Session
import TaskWatch.Polling.Settings
import TaskWatch.Program
import TaskWatch.Proofs.Command.Clearing
import TaskWatch.Proofs.Json.Canonical
import TaskWatch.Proofs.Json.Exact
import TaskWatch.Proofs.Json.Free
import TaskWatch.Proofs.Json.Number
import TaskWatch.Proofs.Json.Proper
import TaskWatch.Proofs.Json.Record
import TaskWatch.Proofs.Json.Syntax
import TaskWatch.Proofs.Json.Text
import TaskWatch.Proofs.Listener.Delivery
import TaskWatch.Proofs.Listener.Detachment
import TaskWatch.Proofs.Listener.Handles
import TaskWatch.Proofs.Listener.Ownership
import TaskWatch.Proofs.Listener.Rehearsal
import TaskWatch.Proofs.Listener.Release
import TaskWatch.Proofs.Listener.Round
import TaskWatch.Proofs.Run.Above
import TaskWatch.Proofs.Run.Attendance
import TaskWatch.Proofs.Run.Basic
import TaskWatch.Proofs.Run.Deed
import TaskWatch.Proofs.Run.Docket
import TaskWatch.Proofs.Run.Executor
import TaskWatch.Proofs.Run.Glimpse
import TaskWatch.Proofs.Run.Growth
import TaskWatch.Proofs.Run.Landing
import TaskWatch.Proofs.Run.Noting
import TaskWatch.Proofs.Run.Path
import TaskWatch.Proofs.Run.Response
import TaskWatch.Proofs.Run.Returning
import TaskWatch.Proofs.Run.Script
import TaskWatch.Proofs.Run.Step
import TaskWatch.Proofs.Run.Stir
import TaskWatch.Proofs.Run.Telling
import TaskWatch.Proofs.Run.Tuning
import TaskWatch.Proofs.Run.Turn
import TaskWatch.Proofs.Run.Turnover
import TaskWatch.Proofs.Run.Warrant
import TaskWatch.Proofs.Run.Waiting
import TaskWatch.Proofs.Session.Account
import TaskWatch.Proofs.Session.Affair
import TaskWatch.Proofs.Session.AfterEnd
import TaskWatch.Proofs.Session.Alternation
import TaskWatch.Proofs.Session.Announced
import TaskWatch.Proofs.Session.Answers
import TaskWatch.Proofs.Session.Course
import TaskWatch.Proofs.Session.Facet
import TaskWatch.Proofs.Session.Facing
import TaskWatch.Proofs.Session.Isolation
import TaskWatch.Proofs.Session.Ledger
import TaskWatch.Proofs.Session.Lifetime
import TaskWatch.Proofs.Session.Once
import TaskWatch.Proofs.Session.Pacing
import TaskWatch.Proofs.Session.Parting
import TaskWatch.Proofs.Session.Passing
import TaskWatch.Proofs.Session.Quiescence
import TaskWatch.Proofs.Session.Refusal
import TaskWatch.Proofs.Session.Reopening
import TaskWatch.Proofs.Session.Restart
import TaskWatch.Proofs.Session.Resuming
import TaskWatch.Proofs.Session.Shelter
import TaskWatch.Proofs.Session.Sparing
import TaskWatch.Proofs.Session.Stage
import TaskWatch.Proofs.Session.Standing
import TaskWatch.Proofs.Session.Trace
import TaskWatch.Proofs.Session.Unfolding
import TaskWatch.Proofs.Session.Upkeep
import TaskWatch.Proofs.Simulation.Accounting
import TaskWatch.Proofs.Simulation.Grammar
import TaskWatch.Proofs.Simulation.Launch
import TaskWatch.Proofs.Simulation.Plan
import TaskWatch.Proofs.Simulation.Tally
import TaskWatch.Proofs.Storage.Confined
import TaskWatch.Proofs.Storage.Content
import TaskWatch.Proofs.Storage.Place
import TaskWatch.Proofs.Storage.Rooted
import TaskWatch.Proofs.Storage.Shared
import TaskWatch.Proofs.Store.Change
import TaskWatch.Proofs.Store.Collection
import TaskWatch.Proofs.Store.Durable
import TaskWatch.Proofs.Store.Forward
import TaskWatch.Proofs.Store.Hydration
import TaskWatch.Proofs.Store.Interleaving
import TaskWatch.Proofs.Store.Listed
import TaskWatch.Proofs.Store.Mirror
import TaskWatch.Proofs.Store.NetEffect
import TaskWatch.Proofs.Store.Reckoning
import TaskWatch.Proofs.Store.Reload
import TaskWatch.Proofs.Store.Snapshot
import TaskWatch.Proofs.Store.Veiled
import TaskWatch.Proofs.Time.Calendar
import TaskWatch.Proofs.Time.Reading
import TaskWatch.Proofs.Time.Timestamp
import TaskWatch.Proofs.View.Current
import TaskWatch.Proofs.View.Hearing
import TaskWatch.Proofs.View.Subscribed
import TaskWatch.Random.ChaCha
import TaskWatch.Random.Generator
import TaskWatch.Random.Identifier
import TaskWatch.Scenario.Conduct
import TaskWatch.Scenario.Notebook
import TaskWatch.Scenario.Run
import TaskWatch.Scenario.Step
import TaskWatch.Simulation.Plan
import TaskWatch.Simulation.Run
import TaskWatch.Storage.Basic
import TaskWatch.Storage.FileTree
import TaskWatch.Store.Basic
import TaskWatch.Store.Collection
import TaskWatch.Store.Envelope
import TaskWatch.Store.Event
import TaskWatch.Task.Basic
import TaskWatch.Task.Codec
import TaskWatch.Task.Kind
import TaskWatch.Task.Status
import TaskWatch.Text.Quoted
import TaskWatch.Text.Space
import TaskWatch.Time.Calendar
import TaskWatch.Time.Duration
import TaskWatch.Time.Instant
import TaskWatch.Time.Reader
import TaskWatch.Toml.Basic
import TaskWatch.Toml.Blank
import TaskWatch.Toml.Document
import TaskWatch.Toml.Moment
import TaskWatch.Toml.Number
import TaskWatch.Toml.Text
import TaskWatch.Toml.Value
import TaskWatch.Tracker
import TaskWatch.View
