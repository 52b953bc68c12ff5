import EventDelivery.Text.Basic

/-! Cutting text into pieces. -/

namespace EventDelivery.Text
set_option autoImplicit false

def split (separator : CodePoint) : Text → List Text
  | [] => [[]]
  | p :: t =>
    if p = separator then [] :: split separator t
    else
      match split separator t with
      | [] => [[p]]
      | piece :: pieces => (p :: piece) :: pieces

/-- What stands before the first separator, and what follows it if there is one. -/
def cut (separator : CodePoint) (t : Text) : Text × Option Text :=
  match t.dropWhile (· ≠ separator) with
  | [] => (t, none)
  | _ :: rest => (t.takeWhile (· ≠ separator), some rest)

/-- What follows the last separator; the whole text if there is none. -/
def afterLast (separator : CodePoint) (t : Text) : Text :=
  (t.reverse.takeWhile (· ≠ separator)).reverse

def allChars (p : Char → Bool) (t : Text) : Bool := t.all fun q => q.char?.any p

end EventDelivery.Text
