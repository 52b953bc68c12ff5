import EventDelivery.Payload.Literal
import EventDelivery.Json.Quoted

/-! Models as JSON documents. Here times have their interchange form, bytes are read as text, a set
is an array, and doubles that are no number are null; text keeps its characters. What has no such
form, or is nested too deep, makes the whole model unwritable. -/

namespace EventDelivery
set_option autoImplicit false

/-- Doubles in documents: positional from 10^-5, shortest exponents, no special values. -/
def FloatForm.document : FloatForm :=
  ⟨.toEven, some (-5), some 16, true, 1, "null", "null", "null"⟩

/-- Parts of a complex number in documents: always positional, and in the middle between two decimals
the greater one. -/
def FloatForm.documentPart : FloatForm := ⟨.upward, none, none, false, 1, "NaN", "inf", "-inf"⟩

/-- The imaginary part alone where the real part is zero, else both parts, with a plus between them
unless the second one is written with a minus. -/
def complexDocument (re im : Binary64) : List Char :=
  let imaginary := FloatForm.documentPart.write im ++ ['j']
  if re.isZero then imaginary
  else
    let sign := if imaginary.head? = some '-' then [] else ['+']
    FloatForm.documentPart.write re ++ sign ++ imaginary

/-- The characters that bytes are the encoding of. -/
def decoded? (content : ByteArray) : Option (List Char) :=
  (String.fromUTF8? content).map String.toList

namespace Payload

mutual

/-- The text of a key of a mapping. A double that is no number has the key of null, and an integer
has a key only within the limit of digits. -/
def documentKey? : Payload → Option (List Char)
  | null => some "None".toList
  | bool true => some "true".toList
  | bool false => some "false".toList
  | int n => if withinDigitLimit n then some (integerDigits n) else none
  | float (.finite negative rank) => some (FloatForm.text.write (.finite negative rank))
  | float _ => some "None".toList
  | text t => t.chars?
  | bytes .view _ => none
  | bytes _ content => decoded? content
  | sequence .tuple items => (documentKeys? items).map (List.intercalate [','])
  | decimal d => some d.numeral
  | moment m => some m.interchange
  | date d => some d.text
  | uuid u => some u.text
  | complex re im => some (complexDocument re im)
  | _ => none

def documentKeys? : List Payload → Option (List (List Char))
  | [] => some []
  | key :: keys => do return (← documentKey? key) :: (← documentKeys? keys)

end

mutual

def document? : Payload → Option (List Char)
  | null => some "null".toList
  | bool true => some "true".toList
  | bool false => some "false".toList
  | int n => some (integerDigits n)
  | float x => some (FloatForm.document.write x)
  | text t => t.chars?.map Json.quotedPlain
  | bytes .view _ => none
  | bytes _ content => (decoded? content).map Json.quotedPlain
  | sequence _ items => (documents? items).map (Json.bracketed '[' · ']')
  | range .. => none
  | set _ items => (documents? items).map (Json.bracketed '[' · ']')
  | mapping true _ => none
  | mapping false entries =>
    (entryDocuments? entries).map (Json.bracketed '\x7b' · '\x7d')
  | decimal d => some (Json.quotedPlain d.numeral)
  | moment m => some (Json.quotedPlain m.interchange)
  | date d => some (Json.quotedPlain d.text)
  | uuid u => some (Json.quotedPlain u.text)
  | complex re im => some (Json.quotedPlain (complexDocument re im))
  | model fields =>
    (fieldDocuments? fields).map (Json.bracketed '\x7b' · '\x7d')
  | cyclicList _ => none
  | cyclicMapping .. => none
  | stranger .. => none

def documents? : List Payload → Option (List (List Char))
  | [] => some []
  | item :: items => do return (← document? item) :: (← documents? items)

def entryDocuments? : List (Payload × Payload) → Option (List (List Char))
  | [] => some []
  | (key, value) :: entries => do
    let k ← documentKey? key
    let v ← document? value
    return (Json.quotedPlain k ++ ':' :: v) :: (← entryDocuments? entries)

def fieldDocuments? : List (String × Payload) → Option (List (List Char))
  | [] => some []
  | (name, value) :: fields => do
    let v ← document? value
    return (Json.quotedPlain name.toList ++ ':' :: v) :: (← fieldDocuments? fields)

end

def documentHeight : Nat := 256

def modelDocument? (fields : List (String × Payload)) : Option (List Char) :=
  if (model fields).height ≤ documentHeight then document? (model fields) else none

end Payload

end EventDelivery
