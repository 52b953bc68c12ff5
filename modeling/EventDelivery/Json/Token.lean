import EventDelivery.Json.Basic
import EventDelivery.Payload.Literal
import EventDelivery.Json.Quoted

/-! Tokens of JSON text. Words are taken whole and then looked up, so that a number is judged by its
complete spelling. Besides the words of JSON there are `NaN`, `Infinity` and `-Infinity`; an
escape for a surrogate half must stand in a pair. -/

namespace EventDelivery.Json
set_option autoImplicit false

inductive Token where
  | openArray
  | closeArray
  | openObject
  | closeObject
  | colon
  | comma
  | string (s : String)
  /-- a number, a truth value or null -/
  | scalar (value : Json)

/-- The decimal numeral `whole.places` with a power of ten. -/
def doubleOf (negative : Bool) (whole places : List Char) (power : Int) : Binary64 :=
  Binary64.ofDecimal ⟨negative, digitsValue (whole ++ places), power - places.length⟩

/-- The power of ten after a numeral: an `e`, a sign or none, and digits to the end. -/
def power? : List Char → Option Int
  | [] => some 0
  | e :: rest =>
    if e = 'e' ∨ e = 'E' then
      let (negative, digits) :=
        match rest with
        | '-' :: digits => (true, digits)
        | '+' :: digits => (false, digits)
        | digits => (false, digits)
      if !digits.isEmpty && digits.all Char.isDigit then
        let n : Int := digitsValue digits
        some (if negative then -n else n)
      else none
    else none

/-- What releases of the reader differ in: whether a minus counts as one of the digits that follow it. -/
class Release where
  signCounts : Bool

/-- The release that lines are read with. -/
instance : Release := ⟨false⟩

/-- The digits that count against the limit, in front of which a minus may stand. -/
def countedDigits [Release] (negative : Bool) (digits : List Char) : Nat :=
  if negative && Release.signCounts then digits.length + 1 else digits.length

/-- A number in full: no zero in front of other digits, at least one digit after a point. Without
point and power it is an integer. The whole part has at most `digitLimit` digits. -/
def number? [Release] (word : List Char) : Option Json :=
  let (negative, body) :=
    match word with
    | '-' :: body => (true, body)
    | body => (false, body)
  let whole := body.takeWhile Char.isDigit
  let rest := body.dropWhile Char.isDigit
  if whole.isEmpty || (whole.head? = some '0' && 1 < whole.length) || digitLimit < countedDigits negative whole then
    none
  else
    match rest with
    | [] =>
      let n : Int := digitsValue whole
      some (int (if negative then -n else n))
    | '.' :: rest =>
      let places := rest.takeWhile Char.isDigit
      if places.isEmpty then none
      else (power? (rest.dropWhile Char.isDigit)).map fun p => float (doubleOf negative whole places p)
    | rest => (power? rest).map fun p => float (doubleOf negative whole [] p)

def Token.ofWord? [Release] (word : List Char) : Option Token :=
  if word = "null".toList then some (.scalar null)
  else if word = "true".toList then some (.scalar (bool true))
  else if word = "false".toList then some (.scalar (bool false))
  else if word = "NaN".toList then some (.scalar (float .nan))
  else if word = "Infinity".toList then some (.scalar (float (.infinite false)))
  else if word = "-Infinity".toList then some (.scalar (float (.infinite true)))
  else (number? word).map .scalar

def isSpace (c : Char) : Bool := c = ' ' || c = '\t' || c = '\n' || c = '\r'

def isWordCharacter (c : Char) : Bool := c.isAlphanum || c = '+' || c = '-' || c = '.'

def Token.ofMark? (c : Char) : Option Token :=
  match c with
  | '[' => some .openArray
  | ']' => some .closeArray
  | '\x7b' => some .openObject
  | '\x7d' => some .closeObject
  | ':' => some .colon
  | ',' => some .comma
  | _ => none

def escaped? (c : Char) : Option Char :=
  match c with
  | '"' => some '"'
  | '\\' => some '\\'
  | '/' => some '/'
  | 'b' => some '\x08'
  | 'f' => some '\x0c'
  | 'n' => some '\n'
  | 'r' => some '\r'
  | 't' => some '\t'
  | _ => none

/-- How far an escape inside a string has come. -/
inductive Escape where
  | outside
  | slash
  /-- `count` digits of a unit have been read, after the first half of a pair if there is one -/
  | digits (high : Option Nat) (count value : Nat)
  /-- the first half of a pair has been read, its second half must follow -/
  | second (high : Nat)
  | secondSlash (high : Nat)

/-- A position in the text: what has been taken of the current token is kept newest first. -/
inductive Scan where
  | between
  | word (taken : List Char)
  | string (taken : List Char) (escape : Escape)

def Scan.unit? (taken : List Char) (high : Option Nat) (unit : Nat) : Option Scan :=
  match high with
  | none =>
    if 0xD800 ≤ unit ∧ unit < 0xDC00 then some (string taken (.second unit))
    else if 0xDC00 ≤ unit ∧ unit < 0xE000 then none
    else some (string (Char.ofNat unit :: taken) .outside)
  | some first =>
    if 0xDC00 ≤ unit ∧ unit < 0xE000 then
      some (string (Char.ofNat (0x10000 + (first - 0xD800) * 0x400 + (unit - 0xDC00)) :: taken) .outside)
    else none

/-- A step from between two tokens. -/
def Scan.start? (c : Char) : Option (Scan × List Token) :=
  if isSpace c then some (between, [])
  else if c = '"' then some (string [] .outside, [])
  else if isWordCharacter c then some (word [c], [])
  else (Token.ofMark? c).map fun t => (between, [t])

/-- One character further: the new position and the tokens that are complete, newest first. -/
def Scan.step? [Release] : Scan → Char → Option (Scan × List Token)
  | between, c => start? c
  | word taken, c =>
    if isWordCharacter c then some (word (c :: taken), [])
    else do
      let token ← Token.ofWord? taken.reverse
      let (scan, tokens) ← start? c
      return (scan, tokens ++ [token])
  | string taken .outside, c =>
    if c = '"' then some (between, [.string (String.ofList taken.reverse)])
    else if c = '\\' then some (string taken .slash, [])
    else if c.toNat < 0x20 then none
    else some (string (c :: taken) .outside, [])
  | string taken .slash, c =>
    if c = 'u' then some (string taken (.digits none 0 0), [])
    else (escaped? c).map fun e => (string (e :: taken) .outside, [])
  | string taken (.digits high count value), c => do
    let v ← hexValue? c
    let unit := value * 16 + v
    if count < 3 then return (string taken (.digits high (count + 1) unit), [])
    else return (← unit? taken high unit, [])
  | string taken (.second high), c =>
    if c = '\\' then some (string taken (.secondSlash high), []) else none
  | string taken (.secondSlash high), c =>
    if c = 'u' then some (string taken (.digits (some high) 0 0), []) else none

/-- The tokens of the text from a position on, after those in `done` (newest first). -/
def tokensFrom? [Release] : Scan → List Token → List Char → Option (List Token)
  | .between, done, [] => some done.reverse
  | .word taken, done, [] => (Token.ofWord? taken.reverse).map fun t => (t :: done).reverse
  | .string .., _, [] => none
  | scan, done, c :: cs =>
    match scan.step? c with
    | none => none
    | some (scan, tokens) => tokensFrom? scan (tokens ++ done) cs

def tokens? [Release] (text : List Char) : Option (List Token) := tokensFrom? .between [] text

end EventDelivery.Json
