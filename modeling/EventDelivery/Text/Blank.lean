import EventDelivery.Text.Basic

/-! Two notions of white space. `isWhiteSpace` is the Unicode property White_Space; `isBlank` also
counts the four information separators U+001C to U+001F. -/

namespace EventDelivery
set_option autoImplicit false

/-- The 25 code points with the property White_Space. -/
def isWhiteSpace (c : Char) : Bool :=
  let v := c.toNat
  (0x09 ≤ v && v ≤ 0x0D) || v == 0x20 || v == 0x85 || v == 0xA0 || v == 0x1680
    || (0x2000 ≤ v && v ≤ 0x200A) || v == 0x2028 || v == 0x2029 || v == 0x202F || v == 0x205F
    || v == 0x3000

def isInformationSeparator (c : Char) : Bool := 0x1C ≤ c.toNat && c.toNat ≤ 0x1F

def isBlank (c : Char) : Bool := isWhiteSpace c || isInformationSeparator c

namespace CodePoint

def isBlank : CodePoint → Bool
  | char c => EventDelivery.isBlank c
  | lone _ => false

end CodePoint

namespace Text

def strip (t : Text) : Text := trimEnds CodePoint.isBlank t

end Text

def blankLine (line : String) : Bool := line.toList.all isBlank

end EventDelivery
