import EventDelivery.Event

/-! Records: what a request carries for each event, and where the event stands in its window. -/

namespace EventDelivery
set_option autoImplicit false

structure Record where
  partitionKey : String
  partitionKey_ne : partitionKey ≠ ""
  data : ByteArray
  position : Nat

structure Entry where
  partitionKey : String
  data : ByteArray

namespace Record

def entry (record : Record) : Entry := ⟨record.partitionKey, record.data⟩

def ofFields (fields : Field.Given) : Except (List Issue) Record :=
  let key := Field.required fields "partition_key" Field.properText
  let data := Field.required fields "data" Field.bytes
  let position := Field.required fields "position" Field.natural
  match key, data, position with
  | .ok key, .ok data, .ok position => .ok ⟨key.val, key.property, data, position⟩
  | _, _, _ =>
    .error ([Field.issue? "partition_key" key, Field.issue? "data" data,
      Field.issue? "position" position].filterMap id)

end Record

/-- The record of an event: first its key is rendered, then its value, then the position counts. -/
def Event.toRecord (nullKey : Text) (position : Payload) (event : Event) : Except Failure Record := do
  let key ← (event.partitionKey nullKey).mapError .rendering
  let data ← event.data.mapError .rendering
  (Record.ofFields [("partition_key", .text key), ("data", .bytes .fixed data),
    ("position", position)]).mapError .invalid

def toRecords (nullKey : Text) (events : List Event) : Except Failure (List Record) :=
  events.zipIdx.mapM fun (event, i) => event.toRecord nullKey (.int i)

end EventDelivery
