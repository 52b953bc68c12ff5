import EventDelivery.Binary64.Basic
import EventDelivery.Calendar
import EventDelivery.Fault

/-! Payloads: the values that a host engine may hand over as the key or the value of a change
event. Mappings keep the order in which their keys first came. Objects of types that are not known here count as
true and hold no items; they are asked for their words, and may answer with any text or raise what they like. -/

namespace EventDelivery
set_option autoImplicit false

/-- Whether bytes may be changed by their owner, or belong to another buffer. -/
inductive BytesKind where
  | fixed
  | mutable
  | view
deriving DecidableEq

inductive SequenceKind where
  | list
  | tuple
  | deque
deriving DecidableEq

inductive Payload where
  | null
  | bool (b : Bool)
  | int (n : Int)
  | float (x : Binary64)
  | text (t : Text)
  | bytes (kind : BytesKind) (content : ByteArray)
  | sequence (kind : SequenceKind) (items : List Payload)
  /-- the integers from `start` to before `stop` in steps -/
  | range (start stop step : Int)
  | set (frozen : Bool) (items : List Payload)
  | mapping (readOnly : Bool) (entries : List (Payload × Payload))
  | decimal (d : ExtendedDecimal)
  | moment (m : Moment)
  | date (d : Date)
  | uuid (u : Uuid)
  | complex (re im : Binary64)
  /-- a record of a declared type with named fields -/
  | model (fields : List (String × Payload))
  /-- a list that holds these items, and then itself -/
  | cyclicList (items : List Payload)
  /-- a mapping that holds these entries, and then itself under one more key -/
  | cyclicMapping (entries : List (Payload × Payload)) (key : Payload)
  /-- anything else, with the words that it has for itself inside another payload and for a reader -/
  | stranger (kind : String) (literal display : Except Fault Text)

namespace Payload

instance : Inhabited Payload := ⟨null⟩

/-- An object that has nothing to say of itself. -/
def object : Payload :=
  stranger "object" (.ok (Text.ofString "<object>")) (.ok (Text.ofString "<object>"))

/-- The name by which a report calls the kind of a payload. -/
def typeName : Payload → String
  | null => "NoneType"
  | bool _ => "bool"
  | int _ => "int"
  | float _ => "float"
  | text _ => "str"
  | bytes .fixed _ => "bytes"
  | bytes .mutable _ => "bytearray"
  | bytes .view _ => "memoryview"
  | sequence .list _ | cyclicList _ => "list"
  | sequence .tuple _ => "tuple"
  | sequence .deque _ => "deque"
  | range .. => "range"
  | set false _ => "set"
  | set true _ => "frozenset"
  | mapping false _ | cyclicMapping .. => "dict"
  | mapping true _ => "mappingproxy"
  | decimal _ => "Decimal"
  | moment _ => "datetime"
  | date _ => "date"
  | uuid _ => "UUID"
  | complex .. => "complex"
  | model _ => "Model"
  | stranger kind .. => kind

def isNull : Payload → Bool
  | null => true
  | _ => false

def rangeLength (start stop step : Int) : Nat :=
  let span := if 0 < step then stop - start else start - stop
  ((span + (step.natAbs - 1)) / step.natAbs).toNat

/-- Ranges with the same integers: the first counts only where there is one, the step only where
there are two. -/
def sameRange (start stop step start' stop' step' : Int) : Bool :=
  let n := rangeLength start stop step
  n == rangeLength start' stop' step' && (n == 0 || start == start' && (n == 1 || step == step'))

def doubleNumber? : Binary64 → Option ExtendedDecimal
  | .infinite negative => some (.infinite negative)
  | x => x.toDecimal?.map fun d => .finite d.normal

def zero : ExtendedDecimal := .finite ⟨false, 0, 0⟩

/-- The real and the imaginary part of a number, the same for equal numbers of different kinds. What
is no number equals nothing. -/
def number? : Payload → Option (ExtendedDecimal × ExtendedDecimal)
  | bool b => some (.finite (Decimal.ofInt (if b then 1 else 0)).normal, zero)
  | int n => some (.finite (Decimal.ofInt n).normal, zero)
  | float x => (doubleNumber? x).map (·, zero)
  | decimal (.finite d) => some (.finite d.normal, zero)
  | decimal (.infinite negative) => some (.infinite negative, zero)
  | complex re im => do return (← doubleNumber? re, ← doubleNumber? im)
  | _ => none

mutual

/-- Whether two payloads are the same key: numbers count by their value, whatever their kind, ranges
by their integers, and moments by the point in time. -/
def sameKey : Payload → Payload → Bool
  | null, null => true
  | text s, text t => s == t
  | bytes _ a, bytes _ b => a == b
  | sequence .tuple xs, sequence .tuple ys => sameKeys xs ys
  | range start stop step, range start' stop' step' => sameRange start stop step start' stop' step'
  | set true xs, set true ys => sameKeys xs ys
  | moment a, moment b => a.same b
  | date a, date b => a == b
  | uuid a, uuid b => a == b
  | a, b =>
    match a.number?, b.number? with
    | some x, some y => x == y
    | _, _ => false

def sameKeys : List Payload → List Payload → Bool
  | [], [] => true
  | x :: xs, y :: ys => sameKey x y && sameKeys xs ys
  | _, _ => false

end

/-- Sets the value of a key: a key that is there keeps its place and its spelling. -/
def put : List (Payload × Payload) → Payload → Payload → List (Payload × Payload)
  | [], k, v => [(k, v)]
  | (k', v') :: entries, k, v =>
    if k'.sameKey k then (k', v) :: entries else (k', v') :: put entries k v

/-- The entries of a mapping that is filled from a list in order. -/
def entriesOf (pairs : List (Payload × Payload)) : List (Payload × Payload) :=
  pairs.foldl (fun entries (k, v) => put entries k v) []

def lookup (entries : List (Payload × Payload)) (key : String) : Option Payload :=
  (entries.find? fun (k, _) => k.sameKey (text key)).map (·.2)

/-- The entries of a mapping, of one that holds itself too. -/
def entries? : Payload → Option (List (Payload × Payload))
  | mapping _ entries => some entries
  | cyclicMapping entries key => some (entries ++ [(key, cyclicMapping entries key)])
  | _ => none

def isFalsy : Payload → Bool
  | null => true
  | bool b => !b
  | int n => n == 0
  | float x => x.isZero
  | text t => t.isEmpty
  | bytes _ content => content.isEmpty
  | sequence _ items => items.isEmpty
  | range start stop step => rangeLength start stop step == 0
  | set _ items => items.isEmpty
  | mapping _ entries => entries.isEmpty
  | decimal (.finite d) => d.coefficient == 0
  | complex re im => re.isZero && im.isZero
  | _ => false

/-- The most items that can be counted. -/
def countLimit : Nat := 0x7FFFFFFFFFFFFFFF

/-- The number of items, for payloads that have one within the limit. -/
def length? : Payload → Option Nat
  | text t => some t.length
  | bytes _ content => some content.size
  | sequence _ items => some items.length
  | range start stop step =>
    if rangeLength start stop step ≤ countLimit then some (rangeLength start stop step) else none
  | set _ items => some items.length
  | mapping _ entries => some entries.length
  | cyclicList items => some (items.length + 1)
  | cyclicMapping entries _ => some (entries.length + 1)
  | _ => none

mutual

/-- The levels of a payload: one for itself, and those of what it holds; keys do not count. -/
def height : Payload → Nat
  | sequence _ items => heightOfItems items + 1
  | set _ items => heightOfItems items + 1
  | mapping _ entries => heightOfEntries entries + 1
  | model fields => heightOfFields fields + 1
  | _ => 1

def heightOfItems : List Payload → Nat
  | [] => 0
  | item :: items => max (height item) (heightOfItems items)

def heightOfEntries : List (Payload × Payload) → Nat
  | [] => 0
  | (_, value) :: entries => max (height value) (heightOfEntries entries)

def heightOfFields : List (String × Payload) → Nat
  | [] => 0
  | (_, value) :: fields => max (height value) (heightOfFields fields)

end

end Payload

end EventDelivery
