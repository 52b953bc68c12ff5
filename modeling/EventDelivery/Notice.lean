import EventDelivery.Failure

/-! Notices: what is told to a log, with the fields that go with it. -/

namespace EventDelivery
set_option autoImplicit false

inductive Component where
  | writer
  | retry
  | sink
  | service
deriving DecidableEq

inductive Severity where
  | debug
  | info
  | warning
  | error
deriving DecidableEq

/-- Where a sink has its client from. -/
inductive Origin where
  | custom (label : String)
  | standard (region : Text) (endpoint : Option Text)

inductive Notice where
  | serviceStart (region : Text) (endpoint : Option Text) (batchSize : Int)
  | serviceStop (published : Nat)
  | batchFailed (published size : Nat) (error : Text)
  | clientCreated (origin : Origin)
  | clientCloseFailed (fault : Fault)
  | mixedDestinations (destination : Text) (count : Nat)
  | response (stream : Text) (failedCount : Payload)
  | requestFailed (destination : Text) (pending attempt : Nat) (code : Option Text) (failure : Failure)
  | partialFailure (destination : Text) (failed succeeded attempt : Nat) (codes : List Text)
  | exhausted (destination : Text) (pending attempts : Nat)

namespace Notice

def component : Notice → Component
  | serviceStart .. | serviceStop .. | batchFailed .. => .service
  | clientCreated .. | mixedDestinations .. => .sink
  | clientCloseFailed .. | response .. => .writer
  | requestFailed .. | partialFailure .. | exhausted .. => .retry

def severity : Notice → Severity
  | response .. => .debug
  | serviceStart .. | serviceStop .. | clientCreated .. => .info
  | clientCloseFailed .. | mixedDestinations .. | requestFailed .. | partialFailure .. => .warning
  | batchFailed .. | exhausted .. => .error

def message : Notice → String
  | serviceStart .. => "service_start"
  | serviceStop .. => "service_stop"
  | batchFailed .. => "batch_delivery_failed"
  | clientCreated .. => "kinesis_client_created"
  | clientCloseFailed .. => "kinesis_client_close_failed"
  | mixedDestinations .. => "mixed_destinations_in_batch"
  | response .. => "kinesis_put_records_response"
  | requestFailed .. => "kinesis_put_records_failed"
  | partialFailure .. => "kinesis_partial_failure"
  | exhausted .. => "kinesis_retry_exhausted"

def optionalText (t : Option Text) : Payload := (t.map .text).getD .null

def fields : Notice → List (String × Payload)
  | serviceStart region endpoint batchSize =>
    [("aws_region", .text region), ("kinesis_endpoint", optionalText endpoint),
      ("batch_size", .int batchSize)]
  | serviceStop published => [("published", .int published)]
  | batchFailed published size error =>
    [("published", .int published), ("batch_size", .int size), ("error", .text error)]
  | clientCreated (.custom label) =>
    [("source", .text (Text.ofString "custom")), ("client", .text (Text.ofString label))]
  | clientCreated (.standard region endpoint) =>
    [("source", .text (Text.ofString "default")), ("region", .text region),
      ("endpoint", optionalText endpoint)]
  | clientCloseFailed _ => []
  | mixedDestinations destination count =>
    [("destination", .text destination), ("event_count", .int count)]
  | response stream failedCount =>
    [("stream_name", .text stream), ("failed_record_count", failedCount)]
  | requestFailed destination pending attempt code _ =>
    [("destination", .text destination), ("pending_count", .int pending), ("attempt", .int attempt),
      ("error_code", optionalText code)]
  | partialFailure destination failed succeeded attempt codes =>
    [("destination", .text destination), ("failed", .int failed), ("succeeded", .int succeeded),
      ("attempt", .int attempt), ("error_codes", .sequence .list (codes.map .text))]
  | exhausted destination pending attempts =>
    [("destination", .text destination), ("pending_count", .int pending), ("attempts", .int attempts)]

def failure? : Notice → Option Failure
  | clientCloseFailed fault => some (.outside fault)
  | requestFailed _ _ _ _ failure => some failure
  | _ => none

end Notice

end EventDelivery
