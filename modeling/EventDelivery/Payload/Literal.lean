import EventDelivery.Payload.Basic
import EventDelivery.Binary64.Notation

/-! Payloads in words. `literal` writes a payload so that its kind shows, `display` for a reader; the two
differ for text and for the payloads with a plain form of their own. A payload is written from its
beginning on, so that the first integer with too many digits, or the first object that raises something
instead of telling its words, decides the fault. -/

namespace EventDelivery
set_option autoImplicit false

/-- The most digits of an integer that is written or read. -/
def digitLimit : Nat := 4300

def withinDigitLimit (n : Int) : Bool := n.natAbs < Nat.pow 10 digitLimit

def Fault.tooManyDigits : Fault where
  kind := .value
  message :=
    "Exceeds the limit (4300 digits) for integer string conversion; "
      ++ "use sys.set_int_max_str_digits() to increase the limit"

def integerText (n : Int) : Except Fault Text :=
  if withinDigitLimit n then .ok (Text.ofList (integerDigits n)) else .error .tooManyDigits

/-- A complex part has no point and zero after an integral value. -/
def FloatForm.part : FloatForm := { FloatForm.text with pointZero := false }

/-- The imaginary part alone where the real part is the positive zero, else both in brackets. -/
def complexText (re im : Binary64) : List Char :=
  let imaginary := FloatForm.part.write im ++ ['j']
  match re with
  | .finite false 0 => imaginary
  | _ =>
    let sign := if imaginary.head? = some '-' then [] else ['+']
    '(' :: FloatForm.part.write re ++ sign ++ imaginary ++ [')']

namespace Moment

/-- The distance from universal time in days, which may be negative, with the seconds and
microseconds left over; what is zero is left out. -/
def zoneLiteral (offset : Int) : List Char :=
  if offset = 0 then "datetime.timezone.utc".toList
  else
    let seconds := offset / perSecond
    let parts : List (String × Int) :=
      [("days=", seconds / 86400), ("seconds=", seconds % 86400), ("microseconds=", offset % perSecond)]
    let written := (parts.filter fun (_, n) => n ≠ 0).map fun (name, n) => name.toList ++ integerDigits n
    "datetime.timezone(datetime.timedelta(".toList ++ List.intercalate [',', ' '] written ++ "))".toList

/-- The numbers of a moment in order; seconds and microseconds only as far as they are not zero. -/
def literal (m : Moment) : List Char :=
  let leading := [m.date.year, m.date.month, m.date.day, m.hour, m.minute]
  let trailing :=
    if m.microsecond ≠ 0 then [m.second, m.microsecond]
    else if m.second ≠ 0 then [m.second] else []
  "datetime.datetime(".toList
    ++ List.intercalate [',', ' '] ((leading ++ trailing).map decimalDigits)
    ++ (m.offset.map fun z => ", tzinfo=".toList ++ zoneLiteral z).getD [] ++ [')']

end Moment

def Date.literal (d : Date) : List Char :=
  "datetime.date(".toList
    ++ List.intercalate [',', ' '] ([d.year, d.month, d.day].map decimalDigits) ++ [')']

namespace Payload

def commaSeparated (parts : List Text) : Text := List.intercalate (Text.ofString ", ") parts

def enclosed (opening : String) (body : Text) (closing : String) : Text :=
  Text.ofString opening ++ body ++ Text.ofString closing

def sequenceLiteral (kind : SequenceKind) (parts : List Text) : Text :=
  let body := commaSeparated parts
  match kind, parts with
  | .list, _ => enclosed "[" body "]"
  | .tuple, [_] => enclosed "(" body ",)"
  | .tuple, _ => enclosed "(" body ")"
  | .deque, _ => enclosed "deque([" body "])"

def setLiteral (frozen : Bool) (parts : List Text) : Text :=
  let body := commaSeparated parts
  match frozen, parts with
  | false, [] => "set()"
  | false, _ => enclosed "\x7b" body "\x7d"
  | true, [] => "frozenset()"
  | true, _ => enclosed "frozenset(\x7b" body "\x7d)"

def entryLiteral (key value : Text) : Text := key ++ Text.ofString ": " ++ value

def mappingLiteral (parts : List Text) : Text := enclosed "\x7b" (commaSeparated parts) "\x7d"

/-- Bytes that may change always have their single quotes escaped. -/
def bytesLiteral : BytesKind → ByteArray → Text
  | .fixed, content => Text.ofList (Literal.bytes false content)
  | .mutable, content => enclosed "bytearray(" (Text.ofList (Literal.bytes true content)) ")"
  | .view, _ => "<memory>"

def rangeLiteral (start stop step : Int) : Except Fault Text := do
  let first ← integerText start
  let last ← integerText stop
  let stride ← integerText step
  return enclosed "range(" (commaSeparated (if step = 1 then [first, last] else [first, last, stride])) ")"

mutual

def literal : Payload → Except Fault Text
  | null => .ok "None"
  | bool true => .ok "True"
  | bool false => .ok "False"
  | int n => integerText n
  | float x => .ok (Text.ofList (FloatForm.text.write x))
  | text t => .ok (Literal.text t)
  | bytes kind content => .ok (bytesLiteral kind content)
  | sequence kind items => (literals items).map (sequenceLiteral kind)
  | range start stop step => rangeLiteral start stop step
  | set frozen items => (literals items).map (setLiteral frozen)
  | mapping false entries => (entryLiterals entries).map mappingLiteral
  | mapping true entries =>
    (entryLiterals entries).map fun parts => enclosed "mappingproxy(" (mappingLiteral parts) ")"
  | decimal d => .ok (enclosed "Decimal('" (Text.ofList d.numeral) "')")
  | moment m => .ok (Text.ofList m.literal)
  | date d => .ok (Text.ofList d.literal)
  | uuid u => .ok (enclosed "UUID('" (Text.ofList u.text) "')")
  | complex re im => .ok (Text.ofList (complexText re im))
  | model fields => (fieldLiterals fields).map fun parts => enclosed "Model(" (commaSeparated parts) ")"
  | cyclicList items => (literals items).map fun parts => sequenceLiteral .list (parts ++ [Text.ofString "[...]"])
  | cyclicMapping entries key => do
    let parts ← entryLiterals entries
    let k ← literal key
    return mappingLiteral (parts ++ [entryLiteral k "\x7b...\x7d"])
  | stranger _ literal _ => literal

def literals : List Payload → Except Fault (List Text)
  | [] => .ok []
  | item :: items => do return (← literal item) :: (← literals items)

def entryLiterals : List (Payload × Payload) → Except Fault (List Text)
  | [] => .ok []
  | (key, value) :: entries => do
    let k ← literal key
    let v ← literal value
    return entryLiteral k v :: (← entryLiterals entries)

def fieldLiterals : List (String × Payload) → Except Fault (List Text)
  | [] => .ok []
  | (name, value) :: fields => do
    let v ← literal value
    return (Text.ofString name ++ Text.ofString "=" ++ v) :: (← fieldLiterals fields)

end

/-- Text for a reader: text itself, numbers, times and identifiers plainly, a read-only mapping as
the mapping behind it, a model as its fields, all else as its literal. -/
def display : Payload → Except Fault Text
  | text t => .ok t
  | decimal d => .ok (Text.ofList d.numeral)
  | moment m => .ok (Text.ofList m.text)
  | date d => .ok (Text.ofList d.text)
  | uuid u => .ok (Text.ofList u.text)
  | mapping true entries => (entryLiterals entries).map mappingLiteral
  | model fields => (fieldLiterals fields).map (List.intercalate (Text.ofString " "))
  | stranger _ _ display => display
  | payload => literal payload

end Payload

end EventDelivery
