import EventDelivery.Text.Basic
import EventDelivery.Text.Blank
import EventDelivery.Text.Case
import EventDelivery.Text.Fields
import EventDelivery.Text.Printable
import EventDelivery.Text.Literal
import EventDelivery.Decimal
import EventDelivery.Binary64.Basic
import EventDelivery.Binary64.Shortest
import EventDelivery.Binary64.Notation
import EventDelivery.Calendar
import EventDelivery.Payload.Basic
import EventDelivery.Payload.Literal
import EventDelivery.Payload.Compact
import EventDelivery.Payload.Document
import EventDelivery.Json.Basic
import EventDelivery.Json.Quoted
import EventDelivery.Json.Token
import EventDelivery.Json.Reader
import EventDelivery.Endpoint
import EventDelivery.Validation.Issue
import EventDelivery.Validation.Numeral
import EventDelivery.Validation.Field
import EventDelivery.Rendering
import EventDelivery.Failure
import EventDelivery.Event
import EventDelivery.Record
import EventDelivery.Outcome
import EventDelivery.StreamNaming
import EventDelivery.Window
import EventDelivery.Feed
import EventDelivery.Environment
import EventDelivery.LogLevel
import EventDelivery.Settings
import EventDelivery.Notice
import EventDelivery.Interaction
import EventDelivery.Writer
import EventDelivery.Retry
import EventDelivery.Acknowledgement
import EventDelivery.Sink
import EventDelivery.Service
import EventDelivery.Main
import EventDelivery.Proofs.Path
import EventDelivery.Proofs.Calls
import EventDelivery.Proofs.Session
import EventDelivery.Proofs.Except
import EventDelivery.Proofs.Wording
import EventDelivery.Proofs.Answer
import EventDelivery.Proofs.History
import EventDelivery.Proofs.WindowRecords
import EventDelivery.Proofs.Publication
import EventDelivery.Proofs.Requests
import EventDelivery.Proofs.Delivery
import EventDelivery.Proofs.Boundary
import EventDelivery.Proofs.Confirmation
import EventDelivery.Proofs.Completion
import EventDelivery.Proofs.Agenda
import EventDelivery.Proofs.Fate
import EventDelivery.Proofs.Rounds
import EventDelivery.Proofs.Budget
import EventDelivery.Proofs.Extension
import EventDelivery.Proofs.Collecting
import EventDelivery.Proofs.Exhaustion
import EventDelivery.Proofs.Report
import EventDelivery.Proofs.Feed
import EventDelivery.Proofs.Partition
import EventDelivery.Proofs.Settings
import EventDelivery.Proofs.Trimming
import EventDelivery.Proofs.Service
import EventDelivery.Proofs.Digits
import EventDelivery.Proofs.Numeral
import EventDelivery.Proofs.Restoration
import EventDelivery.Proofs.Endpoint
import EventDelivery.Proofs.Document
import EventDelivery.Proofs.Reading
import EventDelivery.Proofs.Spelling
import EventDelivery.Proofs.Splicing
import EventDelivery.Proofs.Rendered
import EventDelivery.Proofs.Encoding
import EventDelivery.Proofs.Obstruction
import EventDelivery.Proofs.OneLine
import EventDelivery.Proofs.Items
import EventDelivery.Proofs.Conversion
import EventDelivery.Proofs.Reported
import EventDelivery.Proofs.Line
import EventDelivery.Proofs.Accepted
import EventDelivery.Proofs.ExitCode
import EventDelivery.Proofs.Redelivery
import EventDelivery.Proofs.Account
import EventDelivery.Proofs.Composition
import EventDelivery.Proofs.Run
import EventDelivery.Proofs.LogLevel
import EventDelivery.Proofs.Entries
import EventDelivery.Proofs.Confirmed
import EventDelivery.Proofs.Classification
import EventDelivery.Proofs.Grouping
import EventDelivery.Proofs.Healthy
import EventDelivery.Proofs.Readiness
import EventDelivery.Proofs.Release
import EventDelivery.Proofs.LifeCycle
