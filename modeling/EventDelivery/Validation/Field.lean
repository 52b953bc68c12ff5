import EventDelivery.Validation.Numeral
import EventDelivery.Payload.Document

/-! Reading the fields of a record from payloads. Text is taken from text and from bytes that encode
text, bytes from bytes and text, integers from numbers without a fraction and from numerals. -/

namespace EventDelivery.Field
set_option autoImplicit false

def text : Payload → Except IssueCause Text
  | .text t => .ok t
  | .bytes .view _ => .error .notText
  | .bytes _ content =>
    match decoded? content with
    | some cs => .ok (Text.ofList cs)
    | none => .error .notUnicode
  | _ => .error .notText

def optionalText : Payload → Except IssueCause (Option Text)
  | .null => .ok none
  | payload => (text payload).map some

/-- At least one character, and no half of a surrogate pair. -/
def properText (payload : Payload) : Except IssueCause { s : String // s ≠ "" } := do
  match (← text payload).toString? with
  | none => throw .notUnicode
  | some s => if h : s = "" then throw .emptyText else return ⟨s, h⟩

def bytes : Payload → Except IssueCause ByteArray
  | .bytes .view _ => .error .notBytes
  | .bytes _ content => .ok content
  | .text t =>
    match t.toString? with
    | some s => .ok s.toUTF8
    | none => .error .notUnicode
  | _ => .error .notBytes

def exceedsWord (n : Int) : Bool := 0x8000000000000000 ≤ n.natAbs

def integerOfDecimal (d : Decimal) : Except IssueCause Int :=
  match d.toInt? with
  | some n => .ok n
  | none => .error .fractional

def integer : Payload → Except IssueCause Int
  | .int n => .ok n
  | .bool b => .ok (if b then 1 else 0)
  | .float x =>
    match x.toDecimal? with
    | none => .error .notFinite
    | some d => do
      let n ← integerOfDecimal d
      if exceedsWord n then throw .integerTooLong else return n
  | .decimal (.finite d) => integerOfDecimal d
  | .decimal _ => .error .notFinite
  | .text t =>
    match t.chars? with
    | some cs => Numeral.read cs
    | none => .error .notUnicode
  | .bytes .fixed content =>
    match decoded? content with
    | some cs => Numeral.read cs
    | none => .error .notIntegerText
  | _ => .error .notInteger

def natural (payload : Payload) : Except IssueCause Nat := do
  let n ← integer payload
  if n < 0 then throw .negative else return n.toNat

abbrev Given := List (String × Payload)

def given? (fields : Given) (name : String) : Option Payload :=
  (fields.find? fun (n, _) => n = name).map (·.2)

def required {α : Type} (fields : Given) (name : String) (read : Payload → Except IssueCause α) :
    Except IssueCause α :=
  match given? fields name with
  | some payload => read payload
  | none => .error .missing

/-- The field `name`, or a default that stands for it. -/
def defaulted {α : Type} (fields : Given) (name : String) (default : α)
    (read : Payload → Except IssueCause α) : Except IssueCause α :=
  match given? fields name with
  | some payload => read payload
  | none => .ok default

def issue? {α : Type} (name : String) : Except IssueCause α → Option Issue
  | .ok _ => none
  | .error cause => some ⟨some name, cause⟩

end EventDelivery.Field
