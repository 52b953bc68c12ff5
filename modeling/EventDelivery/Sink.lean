import EventDelivery.Writer
import EventDelivery.Retry
import EventDelivery.Acknowledgement
import EventDelivery.StreamNaming
import EventDelivery.Settings
import EventDelivery.Window

/-! The sink: a batch of events is cut into windows, each window is published and then acknowledged,
and the batch is finished after its last window. A failure leaves the windows from there on to be
delivered again. -/

namespace EventDelivery
set_option autoImplicit false

structure Sink where
  client : Client
  nullKey : Text
  nullKey_ne : nullKey ≠ []
  /-- the name of a stream for a destination -/
  naming : Text → Text
  isOpen : Bool

/-- Where a sink has its client from: it is given, or made for the standard service. -/
inductive ClientSource where
  | given (client : Client)
  | standard

/-- What publishing a batch tells: the acknowledged events, whether the batch was finished, and the
failure that kept it from being finished. -/
structure BatchReport where
  processed : List Event
  finished : Bool
  failure : Option Failure

def BatchReport.ok (report : BatchReport) : Bool := report.failure.isNone && report.finished

/-- Closes a client, if there is something to close. A failure of that is only told. -/
def closeClient (client : Client) : Interaction Unit :=
  if client.closable then do
    match ← Interaction.perform .close with
    | .ok () => return
    | .error fault => Interaction.perform (.note (.clientCloseFailed fault))
  else return

/-- An interaction with its committer played by a list: every mark and the finish are accepted. The marked
events and whether the batch was finished come out with the result. -/
def collecting {α : Type} (marked : Array Event) (finished : Bool) :
    Interaction α → Interaction (α × List Event × Bool)
  | .done a => .done (a, marked.toList, finished)
  | .call c next =>
    match c, next with
    | .mark event, next => collecting (marked.push event) finished (next (.ok ()))
    | .finish, next => collecting marked true (next (.ok ()))
    | c, next => .call c fun answer => collecting marked finished (next answer)

namespace Sink

def make (client : Client) (nullKey : Text) (naming : Text → Text) : Except Failure Sink :=
  if h : nullKey = [] then .error (.refused .emptyNullKey) else .ok ⟨client, nullKey, h, naming, true⟩

def obtainClient (settings : Settings) : ClientSource → Action Client
  | .given client => do
    Action.note (.clientCreated (.custom client.label))
    return client
  | .standard => do
    let connection : Connection := ⟨settings.region, settings.endpoint, settings.profile⟩
    let client ← Action.ofCall (.connect connection) fun answer => answer.mapError .outside
    Action.note (.clientCreated (.standard settings.region settings.endpoint))
    return client

def ofSettings (settings : Settings) (source : ClientSource) : Action Sink := do
  let client ← obtainClient settings source
  let naming ← Action.ofExcept (StreamNaming.ofName settings.streamNaming)
  Action.ofExcept (make client settings.nullKey naming.apply)

def submit (sink : Sink) : Submission := Writer.putRecords sink.naming

/-- Delivers the windows of a batch one after another: each is converted, published, and then
acknowledged. -/
def deliverWindows (sink : Sink) (destination : Text) (tracker : Tracker) :
    List (List Event) → Action Tracker
  | [] => return tracker
  | window :: rest => do
    let records ← Action.ofExcept (toRecords sink.nullKey window)
    let _ ← Retry.publish sink.submit RetryPolicy.standard destination records
    let tracker ← ExceptT.mk do
      let (acknowledged, tracker) ← tracker.acknowledge window
      return acknowledged.map fun _ => tracker
    deliverWindows sink destination tracker rest

def finishBatch (tracker : Tracker) : Action Unit :=
  ExceptT.mk do return (← tracker.finish).1

def handleBatch (sink : Sink) (events : List Event) : Action Unit := do
  if !sink.isOpen then throw (.late .sinkClosed)
  match events with
  | [] => finishBatch .fresh
  | first :: _ =>
    if events.any fun event => event.destination ≠ first.destination then
      Action.note (.mixedDestinations first.destination events.length)
    let tracker ← deliverWindows sink first.destination .fresh
      (windows windowSize (by decide) events)
    finishBatch tracker

/-- Delivers a batch that nobody waits for, and tells what was delivered. Failures of payloads and of
delivery are part of what is told. -/
def publishBatch (sink : Sink) (events : List Event) : Action BatchReport :=
  ExceptT.mk do
    let (ending, marked, finished) ← collecting #[] false (sink.handleBatch events).run
    match ending with
    | .ok () => return .ok ⟨marked, finished, none⟩
    | .error failure =>
      if failure.isReported then return .ok ⟨marked, false, some failure⟩ else return .error failure

/-- Closes the sink and its client; a sink that is closed stays as it is. -/
def close (sink : Sink) : Interaction Sink := do
  if sink.isOpen then
    closeClient sink.client
    return { sink with isOpen := false }
  else return sink

def closingAfter {α : Type} (sink : Sink) (action : Action α) : Action α :=
  ExceptT.mk do
    let ending ← action.run
    let _ ← sink.close
    return ending

end Sink

end EventDelivery
