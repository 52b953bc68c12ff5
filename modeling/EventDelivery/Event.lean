import EventDelivery.Failure
import EventDelivery.Validation.Field
import EventDelivery.Json.Reader

/-! Change events. A null key or value is a missing one; the destination is text. -/

namespace EventDelivery
set_option autoImplicit false

structure Event where
  key : Payload
  value : Payload
  destination : Text

namespace Event

/-- An event from named fields; names that an event does not have are passed over. -/
def ofFields (fields : Field.Given) : Except (List Issue) Event :=
  match Field.required fields "destination" Field.text with
  | .ok destination =>
    .ok ⟨(Field.given? fields "key").getD .null, (Field.given? fields "value").getD .null, destination⟩
  | .error cause => .error [⟨some "destination", cause⟩]

def ofJson : Json → Except (List Issue) Event
  | .object members => ofFields (members.map fun (name, value) => (name, value.toPayload))
  | _ => .error [⟨none, .notObject⟩]

def ofLine [Json.Release] (line : String) : Except (List Issue) Event :=
  match Json.read? line.toList with
  | some document => ofJson document
  | none => .error [⟨none, .notJson line⟩]

/-- The rendered key; a missing key and a key that renders to nothing give way to the null key. -/
def partitionKey (nullKey : Text) (event : Event) : Except RenderFailure Text := do
  let key ← if event.key.isNull then pure [] else event.key.renderText
  return if key.isEmpty then nullKey else key

def data (event : Event) : Except RenderFailure ByteArray :=
  if event.value.isNull then .ok .empty else event.value.renderBytes

end Event

end EventDelivery
