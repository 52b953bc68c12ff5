import EventDelivery.Binary64.Shortest

/-! How the digits of a double are laid out. What differs between the forms of output is one
record, `FloatForm`; the three forms in use stand where they are written. -/

namespace EventDelivery
set_option autoImplicit false

/-- The decisions of a written form of doubles. -/
structure FloatForm where
  /-- which of two shortest decimals is written when both are as near -/
  tie : Tie
  /-- powers of the leading digit from here on are written positionally -/
  plainFrom : Option Int
  /-- and from here on with an exponent again -/
  plainBelow : Option Int
  /-- whether an integral value keeps a point and a zero -/
  pointZero : Bool
  /-- the least number of digits of an exponent -/
  exponentWidth : Nat
  nan : String
  infinity : String
  negativeInfinity : String

namespace FloatForm

def isPlain (form : FloatForm) (lead : Int) : Bool :=
  form.plainFrom.all (· ≤ lead) && form.plainBelow.all (lead < ·)

/-- Digits `ds` in units of 10^unit, positionally. -/
def positional (form : FloatForm) (ds : List Char) (unit : Int) : List Char :=
  let whole := unit + ds.length
  if 0 ≤ unit then ds ++ Decimal.zeros unit ++ (if form.pointZero then ['.', '0'] else [])
  else if 0 < whole then ds.take whole.toNat ++ '.' :: ds.drop whole.toNat
  else '0' :: '.' :: Decimal.zeros (-whole) ++ ds

def scientific (form : FloatForm) (ds : List Char) (lead : Int) : List Char :=
  let power := decimalDigits lead.natAbs
  let padding := List.replicate (form.exponentWidth - power.length) '0'
  ds.take 1 ++ (if 1 < ds.length then '.' :: ds.drop 1 else [])
    ++ 'e' :: (if lead < 0 then '-' else '+') :: padding ++ power

def write (form : FloatForm) : Binary64 → List Char
  | .nan => form.nan.toList
  | .infinite negative => (if negative then form.negativeInfinity else form.infinity).toList
  | .finite negative rank =>
    let (d, unit) := if rank.val = 0 then (0, 0) else Binary64.shortest form.tie rank
    let ds := decimalDigits d
    let lead := unit + ds.length - 1
    (if negative then ['-'] else [])
      ++ (if form.isPlain lead then form.positional ds unit else form.scientific ds lead)

/-- The form of doubles in text: positional from 10^-4 up to 10^16. -/
def text : FloatForm := ⟨.toEven, some (-4), some 16, true, 2, "nan", "inf", "-inf"⟩

end FloatForm

end EventDelivery
