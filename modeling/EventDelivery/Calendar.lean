import EventDelivery.Decimal

/-! Dates and moments, with the texts they are written as. -/

namespace EventDelivery
set_option autoImplicit false

/-- The decimal digits of `n`, filled up with zeros to `width`. -/
def padded (width n : Nat) : List Char :=
  let ds := decimalDigits n
  List.replicate (width - ds.length) '0' ++ ds

structure Date where
  year : Nat
  month : Nat
  day : Nat
deriving DecidableEq

/-- A date with a time of day, and the distance from universal time in microseconds if it is known. -/
structure Moment where
  date : Date
  hour : Nat
  minute : Nat
  second : Nat
  microsecond : Nat
  offset : Option Int
deriving DecidableEq

namespace Date

def text (d : Date) : List Char :=
  padded 4 d.year ++ '-' :: padded 2 d.month ++ '-' :: padded 2 d.day

def isLeapYear (year : Nat) : Bool := year % 4 == 0 && (year % 100 != 0 || year % 400 == 0)

def monthLengths (year : Nat) : List Nat :=
  [31, if isLeapYear year then 29 else 28, 31, 30, 31, 30, 31, 31, 30, 31, 30, 31]

def dayNumber (d : Date) : Nat :=
  let years := d.year - 1
  years * 365 + years / 4 - years / 100 + years / 400
    + ((monthLengths d.year).take (d.month - 1)).foldl (· + ·) 0 + d.day

end Date

namespace Moment

def perSecond : Nat := 1000000

def localTime (m : Moment) : Nat :=
  (((m.date.dayNumber * 24 + m.hour) * 60 + m.minute) * 60 + m.second) * perSecond + m.microsecond

/-- The same moment: by universal time where both distances from it are known, by the local clock
where neither is. -/
def same (a b : Moment) : Bool :=
  match a.offset, b.offset with
  | some x, some y => a.localTime - x == b.localTime - y
  | none, none => a.localTime == b.localTime
  | _, _ => false

def clock (m : Moment) : List Char :=
  padded 2 m.hour ++ ':' :: padded 2 m.minute ++ ':' :: padded 2 m.second
    ++ (if m.microsecond = 0 then [] else '.' :: padded 6 m.microsecond)

def signedMinutes (negative : Bool) (seconds : Nat) : List Char :=
  (if negative then '-' else '+') :: padded 2 (seconds / 3600) ++ ':' :: padded 2 (seconds / 60 % 60)

/-- A distance in full; its seconds and microseconds only as far as they are not zero. -/
def offsetText (offset : Int) : List Char :=
  let seconds := offset.natAbs / perSecond
  let rest := offset.natAbs % perSecond
  signedMinutes (offset < 0) seconds
    ++ (if seconds % 60 = 0 ∧ rest = 0 then [] else ':' :: padded 2 (seconds % 60))
    ++ (if rest = 0 then [] else '.' :: padded 6 rest)

def withMark (mark : Char) (zone : Int → List Char) (m : Moment) : List Char :=
  m.date.text ++ mark :: m.clock ++ (m.offset.map zone).getD []

def text (m : Moment) : List Char := m.withMark ' ' offsetText

/-- The interchange form, where universal time is the letter Z and a distance is rounded to seconds,
halves away from zero, of which the minutes are written. -/
def interchange (m : Moment) : List Char :=
  m.withMark 'T' fun offset =>
    let seconds := (offset.natAbs + perSecond / 2) / perSecond
    if seconds = 0 then ['Z'] else signedMinutes (offset < 0) seconds

end Moment

structure Uuid where
  value : BitVec 128
deriving DecidableEq

def Uuid.text (u : Uuid) : List Char :=
  let ds := hexDigits 32 u.value.toNat
  ds.take 8 ++ '-' :: (ds.drop 8).take 4 ++ '-' :: (ds.drop 12).take 4 ++ '-' :: (ds.drop 16).take 4
    ++ '-' :: ds.drop 20

end EventDelivery
