import EventDelivery.Validation.Issue
import EventDelivery.Text.Blank
import EventDelivery.Payload.Literal

/-! Integers in lenient text: white space around, a sign, zeros in front, single underscores between
digits, and a point with zeros behind. What is left after these are taken away must be the
canonical numeral of an integer that has no more digits than an integer may have. -/

namespace EventDelivery.Numeral
set_option autoImplicit false

/-- The integer of a canonical numeral, or nothing. The digits are counted before what follows them is
looked at. -/
def canonical? (s : List Char) : Except IssueCause (Option Int) :=
  let (negative, body) :=
    match s with
    | '-' :: body => (true, body)
    | body => (false, body)
  let digits := body.takeWhile Char.isDigit
  if digits.isEmpty then .ok none
  else if digits.head? = some '0' then .ok (if body = ['0'] then some 0 else none)
  else if digitLimit < digits.length then .error .integerTooLong
  else if digits.length < body.length then .ok none
  else
    let n : Int := digitsValue digits
    .ok (some (if negative then -n else n))

/-- The digits without the zeros in front, which underscores may divide in any number. One zero
stays before a point or the end; a minus may stand behind the zeros. -/
def withoutLeadingZeros? (s : List Char) : Option (List Char) :=
  match s with
  | '0' :: _ =>
    let zeros := s.takeWhile fun c => c = '0' ∨ c = '_'
    match s.dropWhile fun c => c = '0' ∨ c = '_' with
    | [] => some (zeros.getLast?.toList)
    | '.' :: rest => some (zeros.getLast?.toList ++ '.' :: rest)
    | c :: rest => if c.isDigit || c = '-' then some (c :: rest) else none
  | c :: _ => if c.isDigit then some s else none
  | [] => none

def withoutPlaces? (s : List Char) : Option (List Char) :=
  match s.dropWhile (· ≠ '.') with
  | [] => some s
  | _ :: places =>
    if !places.isEmpty && places.all (· = '0') then some (s.takeWhile (· ≠ '.')) else none

def doubleUnderscore : List Char → Bool
  | '_' :: '_' :: _ => true
  | _ :: rest => doubleUnderscore rest
  | [] => false

def withoutUnderscores (s : List Char) : List Char :=
  if s.head? = some '_' || s.getLast? = some '_' || doubleUnderscore s then s
  else s.filter (· ≠ '_')

/-- A sign and the digits behind it; a plus does not stand before a minus. -/
def signed? (s : List Char) : Option (Bool × List Char) :=
  match s with
  | '+' :: '-' :: _ => none
  | '+' :: rest => some (false, rest)
  | '-' :: rest => some (true, rest)
  | rest => some (false, rest)

def cleaned? (s : List Char) : Option (List Char) := do
  let (negative, body) ← signed? (trimEnds isWhiteSpace s)
  let digits ← withoutPlaces? (← withoutLeadingZeros? body)
  return (if negative then ['-'] else []) ++ withoutUnderscores digits

/-- The integer that a text spells. Only a numeral that stands in the text as it is can be too long;
one that is too long after the cleaning is no numeral. -/
def read (s : List Char) : Except IssueCause Int := do
  match ← canonical? s with
  | some n => return n
  | none =>
    match (cleaned? s).map canonical? with
    | some (.ok (some n)) => return n
    | _ => throw .notIntegerText

end EventDelivery.Numeral
