import EventDelivery.Interaction

/-! The writer of one request: the records of a window go out together, and each one is paired with
the outcome that the response tells in its place. -/

namespace EventDelivery
set_option autoImplicit false

namespace Payload

/-- The integers of a range, however many there are. -/
def rangeItems (start stop step : Int) : List Payload :=
  (List.range (rangeLength start stop step)).map fun (i : Nat) => int (start + i * step)

def items? : Payload → Option (List Payload)
  | text t => some (t.map fun p => text [p])
  | bytes _ content => some (content.toList.map fun b => int b.toNat)
  | sequence _ items => some items
  | range start stop step => some (rangeItems start stop step)
  | set _ items => some items
  | mapping _ entries => some (entries.map (·.1))
  | cyclicList items => some (items ++ [cyclicList items])
  | cyclicMapping entries key => some (entries.map (·.1) ++ [key])
  | _ => none

def changeable? : Payload → Option (List (Payload × Payload))
  | mapping true _ => none
  | payload => payload.entries?

def uncounted : Payload → Misfit
  | range .. => .manyItems
  | _ => .noItems

def words (payload : Payload) : Except Failure (Option Text) :=
  match payload with
  | null => .ok none
  | payload =>
    match payload.display with
    | .ok t => .ok (some t)
    | .error fault => .error (.rendering (.raised fault))

end Payload

namespace Writer

def noneText : Text := Text.ofString "None"

/-- The code and the message of a failed request. A service's answer tells them when it is a mapping
that holds a mapping under `Error`, both of the kind that may be changed; otherwise there is no code, and
the failure's own text. -/
def errorOf (response : Payload) (text : Text) : Except Failure (Option Text × Option Text) :=
  match response.changeable?.bind (Payload.lookup · "Error") >>= Payload.changeable? with
  | some fields => do
    let code ← ((Payload.lookup fields "Code").getD .null).words
    let message ← ((Payload.lookup fields "Message").getD .null).words
    return (code, message)
  | none => .ok (none, some text)

def transport (stream : Text) (code message : Option Text) : Failure :=
  .transport (Text.ofString "PutRecords to " ++ stream ++ Text.ofString " failed: "
    ++ message.getD noneText) code

def failureOf (stream : Text) : RequestFailure → Failure
  | .service response text =>
    match errorOf response text with
    | .ok (code, message) => transport stream code message
    | .error failure => failure
  | .connection text => transport stream none (some text)
  | .other fault => .outside fault

def mismatch (returned sent : Nat) : Failure :=
  .transport (Text.ofString "PutRecords returned mismatched result count ("
    ++ Text.ofList (decimalDigits returned) ++ Text.ofString " != "
    ++ Text.ofList (decimalDigits sent) ++ Text.ofString ")") none

def responseField (response : Payload) (name : String) (absent : Payload) : Except Failure Payload :=
  match response.entries? with
  | some entries => .ok ((Payload.lookup entries name).getD absent)
  | none => .error (.misfit .noFields)

/-- The results that a response tells, one for each record that was sent, in their order. -/
def resultsOf (records : List Record) (response : Payload) : Except Failure (List Result) := do
  let returned ← responseField response "Records" (.sequence .list [])
  match returned.length? with
  | none => throw (.misfit returned.uncounted)
  | some n =>
    if n ≠ records.length then throw (mismatch n records.length)
    else
      (records.zip (returned.items?.getD [])).mapM fun (record, item) => do
        return ⟨record, ← Outcome.ofEntry item⟩

def putRecords (naming : Text → Text) (destination : Text) (records : List Record) :
    Action (List Result) := do
  if records.isEmpty then throw (.refused .noRecords)
  let stream := naming destination
  let response ← Action.ofCall (.send ⟨stream, records.map Record.entry⟩) fun answer =>
    answer.mapError (failureOf stream)
  let failedCount ← responseField response "FailedRecordCount" (.int 0)
  Action.note (.response stream failedCount)
  resultsOf records response

end Writer

end EventDelivery
