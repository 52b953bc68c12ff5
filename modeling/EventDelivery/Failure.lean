import EventDelivery.Rendering
import EventDelivery.Validation.Issue

/-! Everything that can end an operation early, by cause. -/

namespace EventDelivery
set_option autoImplicit false

inductive Refusal where
  | windowSize
  | attempts
  | interval
  | noRecords
  | emptyNullKey
  | streamNaming (mode : Text)
  | logLevel (value : String)
deriving DecidableEq

def Refusal.message : Refusal → Text
  | windowSize => "max_records must be > 0"
  | attempts => "max_attempts must be > 0"
  | interval => "retry_interval_s must be >= 0"
  | noRecords => "records must not be empty"
  | emptyNullKey => "null_key must not be empty"
  | streamNaming mode => Text.ofString "Unsupported stream name mode: " ++ mode
  | logLevel value => Text.ofString "Unknown level: '" ++ Text.ofString value ++ Text.ofString "'"

inductive Lateness where
  | sinkClosed
  | acknowledgedAfterFinish
  | finishedTwice
deriving DecidableEq

def Lateness.message : Lateness → String
  | sinkClosed => "KinesisChangeSink is closed"
  | acknowledgedAfterFinish => "Cannot acknowledge events after the batch was finished"
  | finishedTwice => "Batch was already marked finished"

/-- A value from outside that does not have the shape that is asked of it. -/
inductive Misfit where
  /-- named fields were asked of a value that has none -/
  | noFields
  /-- items were asked of a value that has none -/
  | noItems
  /-- items were asked of a value that has more than can be counted -/
  | manyItems
  /-- a level was neither a number nor a name -/
  | noLevel
deriving DecidableEq

/-- The records of a window that were not confirmed in the attempts allowed. -/
structure DeliveryReport where
  stream : Text
  attempts : Int
  positions : List Int
deriving DecidableEq

def DeliveryReport.message (report : DeliveryReport) : Text :=
  Text.ofString "Exceeded maximum number of attempts (" ++ Text.ofList (integerDigits report.attempts)
    ++ Text.ofString ") to publish " ++ Text.ofList (decimalDigits report.positions.length)
    ++ Text.ofString " record(s) to " ++ report.stream

inductive Failure where
  | rendering (cause : RenderFailure)
  | delivery (report : DeliveryReport)
  /-- a request failed as a whole, so that nothing is known of its records -/
  | transport (message : Text) (code : Option Text)
  | invalid (issues : List Issue)
  /-- a line, by its number, is no event -/
  | badLine (number : Nat) (issues : List Issue)
  | refused (cause : Refusal)
  | late (cause : Lateness)
  | misfit (cause : Misfit)
  | outside (fault : Fault)
  | cancelled
deriving DecidableEq

namespace Failure

/-- Whether a failure is part of the result of publishing a batch; any other one leaves it. -/
def isReported : Failure → Bool
  | rendering cause => cause.isReported
  | delivery _ | transport .. => true
  | _ => false

/-- The text of a failure. Failed validations are told by their issues and have none here. -/
def message : Failure → Text
  | rendering cause => cause.message
  | delivery report => report.message
  | transport text _ => text
  | invalid _ => []
  | badLine number _ => Text.ofString "Invalid change event on line " ++ Text.ofList (decimalDigits number)
  | refused cause => cause.message
  | late cause => cause.message
  | misfit _ => []
  | outside fault => fault.message
  | cancelled => []

end Failure

end EventDelivery
