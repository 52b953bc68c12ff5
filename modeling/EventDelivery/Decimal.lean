import EventDelivery.Text.Literal

/-! Decimal numbers with a sign, a coefficient and a power of ten. Zero keeps its sign and its
exponent, so 1.0 and 1.00 differ as numerals; `normal` forgets what is only spelling. -/

namespace EventDelivery
set_option autoImplicit false

def decimalDigits (n : Nat) : List Char := Nat.toDigits 10 n

def integerDigits : Int → List Char
  | .ofNat n => decimalDigits n
  | .negSucc n => '-' :: decimalDigits (n + 1)

/-- The value of a list of ASCII digits, other characters having no say. -/
def digitsValue (cs : List Char) : Nat := cs.foldl (fun n c => n * 10 + (c.toNat - 48)) 0

/-- The number (-1)^negative · coefficient · 10^exponent. -/
structure Decimal where
  negative : Bool
  coefficient : Nat
  exponent : Int
deriving DecidableEq

namespace Decimal

def ofInt (n : Int) : Decimal := ⟨n < 0, n.natAbs, 0⟩

/-- Moves factors of ten from the coefficient to the exponent, `steps` times at most. -/
def shed : (steps coefficient : Nat) → Int → Nat × Int
  | 0, c, e => (c, e)
  | steps + 1, c, e => if c % 10 = 0 then shed steps (c / 10) (e + 1) else (c, e)

/-- The one numeral of a value: no zero at the end of the coefficient, and zero without sign. -/
def normal (d : Decimal) : Decimal :=
  if d.coefficient = 0 then ⟨false, 0, 0⟩
  else
    let (c, e) := shed (decimalDigits d.coefficient).length d.coefficient d.exponent
    ⟨d.negative, c, e⟩

def signed (d : Decimal) (n : Nat) : Int := if d.negative then -(n : Int) else n

def toInt? (d : Decimal) : Option Int :=
  let n := d.normal
  if 0 ≤ n.exponent then some (n.signed (n.coefficient * Nat.pow 10 n.exponent.toNat)) else none

def zeros (n : Int) : List Char := List.replicate n.toNat '0'

/-- The numeral: positional while the exponent is not positive and at most six zeros follow the
point, with an exponent of the leading digit otherwise. -/
def numeral (d : Decimal) : List Char :=
  let digits := decimalDigits d.coefficient
  let places := d.exponent + digits.length
  let plain := d.exponent ≤ 0 ∧ -6 < places
  let dot := if plain then places else 1
  let body :=
    if dot ≤ 0 then '0' :: '.' :: zeros (-dot) ++ digits
    else if digits.length ≤ dot then digits ++ zeros (dot - digits.length)
    else digits.take dot.toNat ++ '.' :: digits.drop dot.toNat
  let power := places - dot
  let tail :=
    if power = 0 then [] else 'E' :: (if 0 < power then '+' :: integerDigits power else integerDigits power)
  (if d.negative then ['-'] else []) ++ body ++ tail

end Decimal

inductive ExtendedDecimal where
  | finite (d : Decimal)
  | infinite (negative : Bool)
  | nan (negative signaling : Bool) (diagnostic : Nat)
deriving DecidableEq

def ExtendedDecimal.numeral : ExtendedDecimal → List Char
  | finite d => d.numeral
  | infinite negative => (if negative then "-Infinity" else "Infinity").toList
  | nan negative signaling diagnostic =>
    (if negative then ['-'] else []) ++ (if signaling then ['s'] else []) ++ "NaN".toList
      ++ (if diagnostic = 0 then [] else decimalDigits diagnostic)

end EventDelivery
