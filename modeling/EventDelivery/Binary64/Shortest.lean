import EventDelivery.Binary64.Basic

/-! The fewest decimal digits that read back. The numbers that round to a double form an interval;
for one digit, two digits and so on the two neighbours of the value on the decimal grid of that
many digits are tried, and of two that read back the nearer is taken; which one where both are as
near is for the form of output to say. -/

namespace EventDelivery
set_option autoImplicit false

/-- Which of two neighbouring decimals is taken for a value in the middle between them. -/
inductive Tie where
  | toEven
  | upward

def Tie.choose : Tie → Nat → Nat
  | toEven, below => if below % 2 = 0 then below else below + 1
  | upward, below => below + 1

namespace Binary64

/-- A positive magnitude as a quotient, with the gap to the magnitude below halved or not. -/
structure Magnitude where
  significand : Nat
  numerator : Nat
  denominator : Nat
  narrowBelow : Bool

def magnitude (rank : Nat) (unit : Int) : Magnitude :=
  let (m, q) := scaled rank
  let up := Nat.pow 2 q.toNat * Nat.pow 10 (-unit).toNat
  let down := Nat.pow 2 (-q).toNat * Nat.pow 10 unit.toNat
  ⟨m, up, down, rank % binade = 0 && binade < rank⟩

/-- Whether `c` units lie in the interval of numbers that round to the magnitude. Both ends lie
half way to a neighbour and belong to the interval when the significand is even. -/
def Magnitude.readsBack (x : Magnitude) (c : Nat) : Bool :=
  let low := (4 * x.significand - (if x.narrowBelow then 1 else 2)) * x.numerator
  let high := (4 * x.significand + 2) * x.numerator
  let here := 4 * c * x.denominator
  if x.significand % 2 = 0 then low ≤ here && here ≤ high else low < here && here < high

/-- The neighbour of the magnitude in whole units that reads back: the nearer one if both do. -/
def Magnitude.neighbour? (tie : Tie) (x : Magnitude) : Option Nat :=
  let value := x.significand * x.numerator
  let below := value / x.denominator
  match x.readsBack below, x.readsBack (below + 1) with
  | true, true =>
    let twice := 2 * value
    let middle := (2 * below + 1) * x.denominator
    if twice < middle then some below
    else if middle < twice then some (below + 1)
    else some (tie.choose below)
  | true, false => some below
  | false, true => some (below + 1)
  | false, false => none

/-- Digits and power of ten of a positive magnitude. Seventeen digits always suffice; the exact
value stands where they would not. -/
def shortest (tie : Tie) (rank : Nat) : Nat × Int :=
  let (m, q) := scaled rank
  let (c, e) := exact m q
  let places := e + (decimalDigits c).length
  let found := (List.range 17).findSome? fun n =>
    let unit := places - (n + 1 : Nat)
    ((magnitude rank unit).neighbour? tie).map fun d => (d, unit)
  let (d, unit) := found.getD (c, e)
  Decimal.shed 17 d unit

end Binary64

end EventDelivery
