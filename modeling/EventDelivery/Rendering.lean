import EventDelivery.Payload.Compact
import EventDelivery.Payload.Document

/-! How a payload is rendered for the stream: text and bytes by their content, numbers by their
numerals, models as documents, containers as compact JSON. Nothing else can be rendered. -/

namespace EventDelivery
set_option autoImplicit false

/-- Why a payload has no rendering. The first three are faults of the payload that are reported as such; the
others leave as they are: what is raised while a payload is written, and the limits of models and of encodings. -/
inductive RenderFailure where
  | notUtf8
  | notJson (kind : String)
  | unexpected (kind : String)
  | raised (fault : Fault)
  | unwritableModel
  | loneSurrogate
deriving DecidableEq

namespace RenderFailure

def message : RenderFailure → Text
  | notUtf8 => "Key/value bytes are not valid UTF-8"
  | notJson kind => Text.ofString ("Unable to render " ++ kind ++ " as JSON")
  | unexpected kind => Text.ofString ("Unexpected data type from upstream engine: " ++ kind)
  | raised fault => fault.message
  | unwritableModel => "Unable to serialize unknown type"
  | loneSurrogate => "surrogates not allowed"

/-- Whether the failure is reported as a fault of the payload. -/
def isReported : RenderFailure → Bool
  | notUtf8 | notJson _ | unexpected _ => true
  | raised _ | unwritableModel | loneSurrogate => false

end RenderFailure

namespace Payload

/-- The payloads that hold others in an order, or under keys. -/
def isContainer : Payload → Bool
  | sequence .. | range .. | mapping .. | cyclicList _ | cyclicMapping .. => true
  | _ => false

/-- A fault that blames what is written is reported as one of the container, any other one is raised. -/
def renderContainer (payload : Payload) : Except RenderFailure Text :=
  match payload.compact with
  | .ok cs => .ok (Text.ofList cs)
  | .error fault => .error (if fault.blamesValue then .notJson payload.typeName else .raised fault)

def renderText (payload : Payload) : Except RenderFailure Text :=
  match payload with
  | text t => .ok t
  | bytes _ content =>
    match decoded? content with
    | some cs => .ok (Text.ofList cs)
    | none => .error .notUtf8
  | model fields =>
    match modelDocument? fields with
    | some cs => .ok (Text.ofList cs)
    | none => .error .unwritableModel
  | bool _ | int _ | float _ => payload.display.mapError .raised
  | payload =>
    if payload.isContainer then payload.renderContainer else .error (.unexpected payload.typeName)

/-- The encoding of a text, which exists when no surrogate half stands alone in it. -/
def encodeText (t : Text) : Except RenderFailure ByteArray :=
  match t.toString? with
  | some s => .ok s.toUTF8
  | none => .error .loneSurrogate

def renderBytes : Payload → Except RenderFailure ByteArray
  | bytes _ content => .ok content
  | payload => payload.renderText.bind encodeText

end Payload

end EventDelivery
