import EventDelivery.Text.Fields
import EventDelivery.Decimal

/-! Service endpoints: absolute addresses of the schemes http and https. Before it is taken apart an
address loses leading control characters and spaces, and all tabs and line breaks. A host in
brackets must be an address of the sixth version of the protocol, or of a future one. -/

namespace EventDelivery
set_option autoImplicit false

inductive EndpointFault where
  | notHttp
  | misplacedBracket
  | futureAddress
  | bracketedVersion4
  | notAnAddress (host : Text)
  | ambiguous (authority : Text)
deriving DecidableEq

def EndpointFault.message : EndpointFault → Text
  | notHttp => "KINESIS_ENDPOINT must be an http(s) URL"
  | misplacedBracket => "Invalid IPv6 URL"
  | futureAddress => "IPvFuture address is invalid"
  | bracketedVersion4 => "An IPv4 address cannot be in brackets"
  | notAnAddress host =>
    Literal.text host ++ Text.ofString " does not appear to be an IPv4 or IPv6 address"
  | ambiguous authority =>
    Text.ofString "netloc '" ++ authority
      ++ Text.ofString "' contains invalid characters under NFKC normalization"

namespace Endpoint

def isHexDigit (c : Char) : Bool := (hexValue? c).isSome

/-- One to three digits without a leading zero, at most 255. -/
def isOctet (t : Text) : Bool :=
  match t.chars? with
  | none => false
  | some cs =>
    !cs.isEmpty && cs.all Char.isDigit && cs.length ≤ 3 && !(cs.head? = some '0' && 1 < cs.length)
      && digitsValue cs ≤ 255

def isVersion4 (t : Text) : Bool :=
  let octets := t.split (.char '.')
  octets.length = 4 && octets.all isOctet

def isHextet (t : Text) : Bool := !t.isEmpty && t.length ≤ 4 && t.allChars isHexDigit

/-- The number of hextets on one side of a gap, where the side may be empty. -/
def side? (pieces : List Text) : Option Nat :=
  if pieces = [[]] then some 0
  else if pieces.all isHextet then some pieces.length else none

/-- An address of the fourth version in the last place counts as two hextets. -/
def embedded? (pieces : List Text) : Option (List Text) :=
  match pieces.getLast? with
  | none => some pieces
  | some last =>
    if last.contains (.char '.') then
      if isVersion4 last then some (pieces.dropLast ++ [Text.ofString "0", Text.ofString "0"]) else none
    else some pieces

def isHextets (pieces : List Text) : Bool :=
  match pieces with
  | [] => false
  | first :: rest =>
    match rest.dropWhile (!·.isEmpty) with
    | [] => pieces.length = 8 && pieces.all isHextet
    | _ :: [] => false
    | _ :: low =>
      match side? (first :: rest.takeWhile (!·.isEmpty)), side? low with
      | some m, some n => m + n ≤ 7
      | _, _ => false

/-- A zone after a percent sign is not empty and holds no other percent sign. -/
def isVersion6 (t : Text) : Bool :=
  let (address, zone) := t.cut (.char '%')
  zone.all (fun z => !z.isEmpty && !z.contains (.char '%'))
    && (embedded? (address.split (.char ':'))).any isHextets

/-- The letter v, hexadecimal digits, a point and something more. -/
def isFutureAddress (t : Text) : Bool :=
  match t with
  | .char 'v' :: rest =>
    let (version, more) := Text.cut (.char '.') rest
    !version.isEmpty && version.allChars isHexDigit && more.any (!·.isEmpty)
  | _ => false

def hostFault? (host : Text) : Option EndpointFault :=
  if host.head? = some (.char 'v') then
    if isFutureAddress host then none else some .futureAddress
  else if host.contains (.char '/') then some (.notAnAddress host)
  else if isVersion4 host then some .bracketedVersion4
  else if isVersion6 host then none
  else some (.notAnAddress host)

/-- In an authority with both brackets they enclose the host, after the last at sign. -/
def bracketFault? (authority : Text) : Option EndpointFault :=
  let place := authority.afterLast (.char '@')
  match place.cut (.char '[') with
  | (_, none) => hostFault? (place.cut (.char ':')).1
  | (before, some bracketed) =>
    if !before.isEmpty then some .misplacedBracket
    else
      match bracketed.cut (.char ']') with
      | (host, some (p :: _)) => if p = .char ':' then hostFault? host else some .misplacedBracket
      | (host, _) => hostFault? host

/-- The characters whose compatibility form holds a mark that ends an authority or divides it. -/
def isAmbiguous (c : Char) : Bool :=
  c.toNat ∈ [0x2047, 0x2048, 0x2049, 0x2100, 0x2101, 0x2105, 0x2106, 0x2A74, 0xFE13, 0xFE16, 0xFE55,
    0xFE56, 0xFE5F, 0xFE6B, 0xFF03, 0xFF0F, 0xFF1A, 0xFF1F, 0xFF20]

def authorityFault? (authority : Text) : Option EndpointFault :=
  let opens := authority.contains (.char '[')
  let closes := authority.contains (.char ']')
  let brackets :=
    if opens != closes then some .misplacedBracket
    else if opens then bracketFault? authority
    else none
  brackets.or
    (if authority.any (·.char?.any isAmbiguous) then some (.ambiguous authority) else none)

def isControlOrSpace (p : CodePoint) : Bool := p.value ≤ 0x20

def isLineSpace (p : CodePoint) : Bool := p = .char '\t' || p = .char '\r' || p = .char '\n'

def cleaned (t : Text) : Text := (t.dropWhile isControlOrSpace).filter (!isLineSpace ·)

def isSchemeCharacter (c : Char) : Bool := c.isAlphanum || c = '+' || c = '-' || c = '.'

/-- The scheme in lower case and what follows its colon; no scheme unless it begins with a letter. -/
def scheme (t : Text) : List Char × Text :=
  match t.cut (.char ':') with
  | (name, some rest) =>
    match name.chars? with
    | some cs =>
      if cs.head?.any Char.isAlpha && cs.all isSchemeCharacter then (cs.map Char.toLower, rest) else ([], t)
    | none => ([], t)
  | _ => ([], t)

/-- The authority after two slashes, up to a slash, a question mark or a number sign. -/
def authority? (t : Text) : Option Text :=
  match t with
  | .char '/' :: .char '/' :: rest =>
    some (rest.takeWhile fun p => p ≠ .char '/' ∧ p ≠ .char '?' ∧ p ≠ .char '#')
  | _ => none

def fault? (t : Text) : Option EndpointFault :=
  let (name, rest) := scheme (cleaned t)
  let authority := authority? rest
  (authority.bind authorityFault?).or
    (if (name = "http".toList ∨ name = "https".toList) ∧ authority.any (!·.isEmpty) then none
      else some .notHttp)

end Endpoint

end EventDelivery
