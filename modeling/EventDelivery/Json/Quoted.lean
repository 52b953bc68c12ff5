import EventDelivery.Text.Literal

/-! Quoted strings and brackets of JSON. The ASCII form escapes all that is not printable ASCII, by 16-bit units;
the plain form escapes only what has to be escaped. -/

namespace EventDelivery.Json
set_option autoImplicit false

def escapeLetter? (v : Nat) : Option Char :=
  match v with
  | 0x08 => some 'b'
  | 0x09 => some 't'
  | 0x0A => some 'n'
  | 0x0C => some 'f'
  | 0x0D => some 'r'
  | _ => none

def unitEscape (unit : Nat) : List Char := '\\' :: 'u' :: hexDigits 4 unit

/-- The 16-bit units of a code point, as escapes. -/
def unitEscapes (v : Nat) : List Char :=
  if v < 0x10000 then unitEscape v
  else unitEscape (0xD800 + (v - 0x10000) / 0x400) ++ unitEscape (0xDC00 + (v - 0x10000) % 0x400)

/-- The escapes that both forms share: the quote, the backslash and five control characters. -/
def shortEscape? (v : Nat) : Option (List Char) :=
  if v = 0x22 then some ['\\', '"']
  else if v = 0x5C then some ['\\', '\\']
  else (escapeLetter? v).map fun l => ['\\', l]

def asciiEscaped (p : CodePoint) : List Char :=
  match shortEscape? p.value with
  | some escape => escape
  | none =>
    match p with
    | .char c => if 0x20 ≤ c.toNat ∧ c.toNat ≤ 0x7E then [c] else unitEscapes c.toNat
    | .lone half => unitEscape (0xD800 + half.val)

def quotedAscii (t : Text) : List Char := '"' :: (t.flatMap asciiEscaped ++ ['"'])

def plainEscaped (c : Char) : List Char :=
  match shortEscape? c.toNat with
  | some escape => escape
  | none => if c.toNat < 0x20 then unitEscape c.toNat else [c]

/-- A string with its characters as they are, as far as JSON allows. -/
def quotedPlain (cs : List Char) : List Char := '"' :: (cs.flatMap plainEscaped ++ ['"'])

def bracketed (opening : Char) (parts : List (List Char)) (closing : Char) : List Char :=
  opening :: (List.intercalate [','] parts ++ [closing])

end EventDelivery.Json
