import EventDelivery.Payload.Literal
import EventDelivery.Json.Quoted

/-! Payloads as compact JSON in printable ASCII. A payload that JSON has no form for is written as the
string of its display text. A mapping must not have a key that is neither text, a number, a truth value nor
null, no payload may hold itself, and no integer may have too many digits; the first of these that is met
decides the fault, or the first object that raises something instead of telling its words. -/

namespace EventDelivery
set_option autoImplicit false

/-- Doubles in JSON: the special values are words. -/
def FloatForm.compact : FloatForm :=
  { FloatForm.text with nan := "NaN", infinity := "Infinity", negativeInfinity := "-Infinity" }

namespace Fault

def circular : Fault := ⟨.value, "Circular reference detected"⟩

def noName (kind : String) : Fault :=
  ⟨.type, Text.ofString ("keys must be str, int, float, bool or None, not " ++ kind)⟩

end Fault

namespace Payload

def compactKey : Payload → Except Fault Text
  | text t => .ok t
  | null => .ok "null"
  | bool true => .ok "true"
  | bool false => .ok "false"
  | int n => integerText n
  | float x => .ok (Text.ofList (FloatForm.compact.write x))
  | key => .error (.noName key.typeName)

mutual

def compact : Payload → Except Fault (List Char)
  | null => .ok "null".toList
  | bool true => .ok "true".toList
  | bool false => .ok "false".toList
  | int n => if withinDigitLimit n then .ok (integerDigits n) else .error .tooManyDigits
  | float x => .ok (FloatForm.compact.write x)
  | text t => .ok (Json.quotedAscii t)
  | sequence .list items => (compacts items).map (Json.bracketed '[' · ']')
  | sequence .tuple items => (compacts items).map (Json.bracketed '[' · ']')
  | mapping false entries => (entryCompacts entries).map (Json.bracketed '\x7b' · '\x7d')
  | cyclicList items => do
    let _ ← compacts items
    throw .circular
  | cyclicMapping entries key => do
    let _ ← entryCompacts entries
    let _ ← compactKey key
    throw .circular
  | payload => payload.display.map Json.quotedAscii

def compacts : List Payload → Except Fault (List (List Char))
  | [] => .ok []
  | item :: items => do return (← compact item) :: (← compacts items)

def entryCompacts : List (Payload × Payload) → Except Fault (List (List Char))
  | [] => .ok []
  | (key, value) :: entries => do
    let k ← compactKey key
    let v ← compact value
    return (Json.quotedAscii k ++ ':' :: v) :: (← entryCompacts entries)

end

end Payload

end EventDelivery
