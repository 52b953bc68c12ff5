import EventDelivery.Text.Basic

/-! Case mapping where only ASCII results matter. A name made of ASCII letters can be reached by
case mapping from a few characters outside ASCII; those are listed, all others map to themselves
and so can never complete such a name. -/

namespace EventDelivery
set_option autoImplicit false

/-- The lower-case form. KELVIN SIGN is the one character outside ASCII whose form is ASCII. -/
def lowerAscii (c : Char) : Char := if c.toNat = 0x212A then 'k' else c.toLower

/-- The upper-case form, which may be longer than one character: the sharp s, the dotless i, the
long s and the seven Latin ligatures are the characters outside ASCII whose form is ASCII. -/
def upperAscii (c : Char) : List Char :=
  match c.toNat with
  | 0xDF => ['S', 'S']
  | 0x131 => ['I']
  | 0x17F => ['S']
  | 0xFB00 => ['F', 'F']
  | 0xFB01 => ['F', 'I']
  | 0xFB02 => ['F', 'L']
  | 0xFB03 => ['F', 'F', 'I']
  | 0xFB04 => ['F', 'F', 'L']
  | 0xFB05 => ['S', 'T']
  | 0xFB06 => ['S', 'T']
  | _ => [c.toUpper]

def foldedName (name : String) : String := name.map lowerAscii

def upperCased (name : String) : String := String.ofList (name.toList.flatMap upperAscii)

end EventDelivery
