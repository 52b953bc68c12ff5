import EventDelivery.Decimal

/-! Floating-point numbers of 64 bits. The finite ones of either sign are numbered in order of
magnitude, which is also how their bits count; reading a decimal takes the nearest one. -/

namespace EventDelivery
set_option autoImplicit false

/-- A double: all payloads of NaN are one value, and zero has a sign. The finite magnitudes are those
of 2047 binades of 2^52 each. -/
inductive Binary64 where
  | nan
  | infinite (negative : Bool)
  | finite (negative : Bool) (rank : Fin 0x7FF0000000000000)
deriving DecidableEq

namespace Binary64

/-- The number of magnitudes between a power of two and the next. -/
def binade : Nat := 0x10000000000000

/-- The significand and the power of two of the finite magnitude with this rank. -/
def scaled (rank : Nat) : Nat × Int :=
  if rank < binade then (rank, -1074)
  else (binade + rank % binade, (rank / binade : Nat) - 1075)

/-- The greatest integer n with 2^n · den ≤ num, for positive arguments. -/
def floorLog2 (num den : Nat) : Int :=
  let guess : Int := (num.log2 : Int) - den.log2
  let fits := if 0 ≤ guess then den * Nat.pow 2 guess.toNat ≤ num else den ≤ num * Nat.pow 2 (-guess).toNat
  if fits then guess else guess - 1

/-- The quotient rounded to the nearest integer, halves to the even one. -/
def roundEven (num den : Nat) : Nat :=
  let q := num / den
  let r := num % den
  if 2 * r < den then q
  else if den < 2 * r then q + 1
  else if q % 2 = 0 then q else q + 1

/-- The rank of the magnitude nearest to num / den, not bounded above. One carry of the
significand is a step to the next binade, since ranks count through. -/
def nearestRank (num den : Nat) : Nat :=
  if num = 0 then 0
  else
    let q := max (-1074) (floorLog2 num den - 52)
    let m :=
      if 0 ≤ q then roundEven num (den * Nat.pow 2 q.toNat)
      else roundEven (num * Nat.pow 2 (-q).toNat) den
    (q + 1074).toNat * binade + m

def ofRank (negative : Bool) (rank : Nat) : Binary64 :=
  if h : rank < 0x7FF0000000000000 then finite negative ⟨rank, h⟩ else infinite negative

/-- The double nearest to a decimal number. Beyond 10^310 every number is infinite and below
10^-330 every number is zero, so that no greater power of ten is ever written out. -/
def ofDecimal (d : Decimal) : Binary64 :=
  let lead := d.exponent + (decimalDigits d.coefficient).length
  if d.coefficient = 0 ∨ lead < -330 then ofRank d.negative 0
  else if 310 < lead then infinite d.negative
  else if 0 ≤ d.exponent then
    ofRank d.negative (nearestRank (d.coefficient * Nat.pow 10 d.exponent.toNat) 1)
  else ofRank d.negative (nearestRank d.coefficient (Nat.pow 10 (-d.exponent).toNat))

def exact (m : Nat) (q : Int) : Nat × Int :=
  if 0 ≤ q then (m * Nat.pow 2 q.toNat, 0) else (m * Nat.pow 5 (-q).toNat, q)

def toDecimal? : Binary64 → Option Decimal
  | finite negative rank =>
    let (m, q) := scaled rank
    let (c, e) := exact m q
    some ⟨negative, c, e⟩
  | _ => none

def isZero : Binary64 → Bool
  | finite _ rank => rank.val == 0
  | _ => false

/-- Less than zero in the order of numbers; the negative zero is not. -/
def isNegative : Binary64 → Bool
  | nan => false
  | infinite negative => negative
  | finite negative rank => negative && rank.val != 0

end Binary64

end EventDelivery
