import EventDelivery.Text.Printable

/-! Quoted literals of text and of bytes. A literal stands between single quotes, or between double
quotes where the content holds a single quote and no double one; what is not printable is
escaped by its number. -/

namespace EventDelivery
set_option autoImplicit false

/-- The last `width` digits of `n` in base 16, lower case. -/
def hexDigits (width n : Nat) : List Char :=
  (List.range width).reverse.map fun i => Nat.digitChar (n / Nat.pow 16 i % 16)

@[simp] theorem length_hexDigits (width n : Nat) : (hexDigits width n).length = width := by
  simp [hexDigits]

def hexValue? (c : Char) : Option Nat :=
  if c.isDigit then some (c.toNat - 48)
  else if 'a' ≤ c ∧ c ≤ 'f' then some (c.toNat - 87)
  else if 'A' ≤ c ∧ c ≤ 'F' then some (c.toNat - 55)
  else none

namespace Literal

/-- The quote that a literal stands between, from whether its content holds either quote. -/
def quote (single double : Bool) : Char := if single && !double then '"' else '\''

def letter? (v : Nat) : Option Char :=
  match v with
  | 0x09 => some 't'
  | 0x0A => some 'n'
  | 0x0D => some 'r'
  | _ => none

def numbered (v : Nat) : List Char :=
  if v < 0x100 then '\\' :: 'x' :: hexDigits 2 v
  else if v < 0x10000 then '\\' :: 'u' :: hexDigits 4 v
  else '\\' :: 'U' :: hexDigits 8 v

def codePoint (q : Char) (p : CodePoint) : Text :=
  if p = .char q ∨ p = .char '\\' then [.char '\\', p]
  else
    match letter? p.value with
    | some l => [.char '\\', .char l]
    | none => if p.isPrintable then [p] else Text.ofList (numbered p.value)

def text (t : Text) : Text :=
  let q := quote (t.contains (.char '\'')) (t.contains (.char '"'))
  .char q :: (t.flatMap (codePoint q) ++ [.char q])

def byte (q : Char) (b : UInt8) : List Char :=
  let v := b.toNat
  if v = q.toNat ∨ v = 0x5C then ['\\', Char.ofNat v]
  else
    match letter? v with
    | some l => ['\\', l]
    | none => if 0x20 ≤ v ∧ v < 0x7F then [Char.ofNat v] else '\\' :: 'x' :: hexDigits 2 v

/-- A literal of bytes. Either only the quote around it is escaped inside, or the single quote is
whatever stands around. -/
def bytes (escapeSingle : Bool) (content : ByteArray) : List Char :=
  let bs := content.toList
  let q := quote (bs.contains 0x27) (bs.contains 0x22)
  'b' :: q :: (bs.flatMap (byte (if escapeSingle then '\'' else q)) ++ [q])

end Literal

end EventDelivery
