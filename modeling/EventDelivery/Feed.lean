import EventDelivery.Event
import EventDelivery.Text.Blank

/-! Feeds: events spelled one a line. Blank lines are counted and passed over; the first line that
is no event ends the feed. Lines are text that has an encoding; a stream that puts lone halves of surrogate pairs in
the place of bytes that encode no text is left out. -/

namespace EventDelivery
set_option autoImplicit false

def readLine [Json.Release] (line : String) : Except (List Issue) (Option Event) :=
  if blankLine line then .ok none else (Event.ofLine line).map some

/-- The events before the first bad line, and the failure at that line if there is one. -/
structure Feed where
  events : List Event
  failure : Option Failure

namespace Feed

def empty : Feed := ⟨[], none⟩

def cons (event : Event) (feed : Feed) : Feed := ⟨event :: feed.events, feed.failure⟩

/-- Reads lines of which the first has the given number. -/
def readFrom [Json.Release] (number : Nat) : List String → Feed
  | [] => empty
  | line :: lines =>
    match readLine line with
    | .error issues => ⟨[], some (.badLine number issues)⟩
    | .ok none => readFrom (number + 1) lines
    | .ok (some event) => cons event (readFrom (number + 1) lines)

end Feed

def readEvents [Json.Release] (lines : List String) : Feed := Feed.readFrom 1 lines

/-- The lines of a text, each with the line feed that ends it, in reverse order. -/
def linesFrom (done : List String) (line : List Char) : List Char → List String
  | [] => if line.isEmpty then done else String.ofList line.reverse :: done
  | c :: cs =>
    if c = '\n' then linesFrom (String.ofList (c :: line).reverse :: done) [] cs
    else linesFrom done (c :: line) cs

/-- The lines of a text. Only a line feed ends a line. -/
def linesOf (text : String) : List String := (linesFrom [] [] text.toList).reverse

end EventDelivery
