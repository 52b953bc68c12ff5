import EventDelivery.Sink
import EventDelivery.Feed
import EventDelivery.LogLevel

/-! The service: events come in lines, are published in groups, and the first failure ends it. -/

namespace EventDelivery.Service
set_option autoImplicit false

/-- How the service ends that was not interrupted: with so many events published, all that came or
all before a group that failed. -/
inductive Ending where
  | complete (published : Nat)
  | failed (published : Nat)
deriving DecidableEq

def Ending.exitCode : Ending → Nat
  | complete _ => 0
  | failed _ => 1

/-- Publishes a group after so many published events: the number after it, and whether it failed. -/
def publishGroup (sink : Sink) (group : List Event) (published : Nat) : Action (Nat × Bool) := do
  let report ← sink.publishBatch group
  let published := published + report.processed.length
  match report.failure with
  | none => return (published, false)
  | some failure => do
    Action.note (.batchFailed published group.length failure.message)
    return (published, true)

/-- Takes lines from the given number on. A group is published as soon as it is full, and the last one
at the end; a bad line ends the service with the group that was not full unpublished. -/
def deliverLines (sink : Sink) (size : Int) (number : Nat) (group : Array Event) (published : Nat) :
    List String → Action Ending
  | [] =>
    if group.isEmpty then return .complete published
    else do
      let (published, failed) ← publishGroup sink group.toList published
      return if failed then .failed published else .complete published
  | line :: lines =>
    match readLine line with
    | .error issues => throw (.badLine number issues)
    | .ok none => deliverLines sink size (number + 1) group published lines
    | .ok (some event) =>
      let group := group.push event
      if size ≤ group.size then do
        let (published, failed) ← publishGroup sink group.toList published
        if failed then return .failed published
        else deliverLines sink size (number + 1) #[] published lines
      else deliverLines sink size (number + 1) group published lines

def deliver (settings : Settings) (source : ClientSource) (lines : List String) : Action Nat := do
  Action.note (.serviceStart settings.region settings.endpoint settings.batchSize)
  let sink ← Sink.ofSettings settings source
  let ending ← sink.closingAfter (deliverLines sink settings.batchSize 1 #[] 0 lines)
  match ending with
  | .complete published => Action.note (.serviceStop published)
  | .failed _ => pure ()
  return ending.exitCode

/-- Runs the service: logging is set up, then the settings are loaded unless they are given. The
result is the exit code. -/
def run (environment : Environment) (given : Option Settings) (source : ClientSource)
    (lines : List String) : Action Nat := do
  let _ ← Action.ofExcept (RootLogger.configure environment .untouched)
  let settings ← match given with
    | some settings => pure settings
    | none => Action.ofExcept ((Settings.load environment []).mapError .invalid)
  deliver settings source lines

end EventDelivery.Service
