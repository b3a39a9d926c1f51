import Himadri.Core.IpAddr
import Himadri.Core.Utf8
import Mathlib.Algebra.Order.Ring.Nat
import Mathlib.Data.List.DropRight

/-!
# The host of a URL

The URL parser of the WHATWG standard on an absolute `http` or `https` URL, as far as its host: what
is stripped, where the authority ends, the userinfo and the port, and the host parser with its
numbers in IPv4 and its pieces in IPv6. The standard's processing of internationalized names is a
parameter with the law the standard states for plain ASCII. At a namespace of its own: nothing here
belongs to the gateway.
-/

namespace Himadri.Url

open Digits

/-! ### IPv4 -/

/-- The radix of a number and its digits: hexadecimal after `0x`, octal after `0`. -/
def radixOf : List Char → ℕ × List Char
  | '0' :: 'x' :: rest => (16, rest)
  | '0' :: 'X' :: rest => (16, rest)
  | '0' :: c :: rest => (8, c :: rest)
  | s => (10, s)

/-- The IPv4 number parser. -/
def ipv4Number (s : List Char) : Option ℕ :=
  if s.isEmpty then none
  else if (radixOf s).2.all (isDigit (radixOf s).1) then some (value (radixOf s).1 (radixOf s).2)
  else none

/-- The labels, without an empty one at the end. -/
def labels (domain : List Char) : List (List Char) :=
  let parts := domain.splitOn '.'
  if parts.getLast? = some [] ∧ 1 < parts.length then parts.dropLast else parts

/-- The ends-in-a-number checker. -/
def endsInNumber (domain : List Char) : Bool :=
  match (labels domain).getLast? with
  | none => false
  | some last => (!last.isEmpty && last.all (isDigit 10)) || (ipv4Number last).isSome

/-- The address of a 32-bit number. -/
def ipv4Of (n : ℕ) : Ipv4Addr :=
  ⟨octet (n / 256 / 256 / 256), octet (n / 256 / 256), octet (n / 256), octet n⟩

/-- The IPv4 parser: the last number fills what the others leave. -/
def parseIpv4 (domain : List Char) : Option Ipv4Addr := do
  let parts := labels domain
  if 4 < parts.length then none
  let numbers ← parts.mapM ipv4Number
  let last ← numbers.getLast?
  let others := numbers.dropLast
  if others.any (255 < ·) || 256 ^ (4 - others.length) ≤ last then none
  else
    let high := others.foldl (fun n m ↦ n * 256 + m) 0
    some (ipv4Of (high * 256 ^ (4 - others.length) + last))

/-! ### IPv6 -/

/-- A piece of an IPv6 address, or the `::` between pieces. -/
inductive Piece
  | value (n : Fin 65536)
  | gap
  deriving DecidableEq

/-- A number of the IPv4 address at the end, digit by digit: without zeros in front, and below 256
at every digit. -/
def ipv4Piece : Option ℕ → List Char → Option (ℕ × List Char)
  | piece, [] => piece.map (·, [])
  | piece, c :: s =>
    match toDigit 10 c with
    | none => piece.map (·, c :: s)
    | some digit =>
      match piece with
      | none => ipv4Piece (some digit) s
      | some n =>
        if n = 0 || 255 < n * 10 + digit then none else ipv4Piece (some (n * 10 + digit)) s

/-- The IPv4 address at the end, of `count` more numbers. -/
def ipv4Pieces : ℕ → Bool → List Char → Option (List ℕ)
  | 0, _, s => if s.isEmpty then some [] else none
  | count + 1, first, s =>
    let start := if first then some s else if s.head? = some '.' then some s.tail else none
    match start.bind (ipv4Piece none) with
    | some (n, rest) => (ipv4Pieces count false rest).map (n :: ·)
    | none => none

/-- Two octets. -/
def pairs : List ℕ → List Piece
  | [a, b, c, d] => [.value (segment (a * 256 + b)), .value (segment (c * 256 + d))]
  | _ => []

/-- The digits of a piece, four at most. -/
def pieceDigits (s : List Char) : List Char := (s.takeWhile (isDigit 16)).take 4

/-- The piece that the digits write. -/
def pieceOf (s : List Char) : Piece := .value (segment (value 16 (pieceDigits s)))

/-- The loop of the IPv6 parser, with room for `room` more pieces and with or without a gap
behind it. -/
def pieces : ℕ → Bool → List Char → Option (List Piece)
  | _, _, [] => some []
  | 0, _, _ :: _ => none
  | room + 1, compressed, c :: s =>
    if c = ':' then
      if compressed then none else (pieces room true s).map (.gap :: ·)
    else
      match (c :: s).drop (pieceDigits (c :: s)).length with
      | [] => some [pieceOf (c :: s)]
      | '.' :: _ =>
        if (pieceDigits (c :: s)).isEmpty || room = 0 then none
        else (ipv4Pieces 4 true (c :: s)).map pairs
      | ':' :: rest =>
        if rest.isEmpty then none else (pieces room compressed rest).map (pieceOf (c :: s) :: ·)
      | _ => none

/-- The pieces before the gap, and those after it where there is one. -/
def spread : List Piece → List (Fin 65536) × Option (List (Fin 65536))
  | [] => ([], none)
  | .value n :: ps => ((n :: (spread ps).1), (spread ps).2)
  | .gap :: ps => ([], some ((spread ps).1))

/-- The pieces of a literal; a colon in front is that of a gap. -/
def literalPieces : List Char → Option (List Piece)
  | ':' :: ':' :: rest => (pieces 7 true rest).map (.gap :: ·)
  | ':' :: _ => none
  | s => pieces 8 false s

/-- The address of the pieces, with zeros in the gap. -/
def ofPieces (ps : List Piece) : Option Ipv6Addr :=
  match spread ps with
  | (head, some tail) =>
    some (.ofSegments (head ++ List.replicate (8 - tail.length - head.length) (segment 0) ++ tail))
  | (head, none) => if head.length = 8 then some (.ofSegments head) else none

/-- The IPv6 parser. -/
def parseIpv6 (s : List Char) : Option Ipv6Addr := (literalPieces s).bind ofPieces

/-! ### Hosts -/

/-- A byte of `%` and two digits. -/
def percentByte (hi lo : UInt8) : Option UInt8 := do
  let hi ← toDigit 16 (.ofNat hi.toNat)
  let lo ← toDigit 16 (.ofNat lo.toNat)
  return .ofNat (hi * 16 + lo)

/-- Percent-decoding. -/
def percentDecode : List UInt8 → List UInt8
  | 37 :: hi :: lo :: rest =>
    match percentByte hi lo with
    | some b => b :: percentDecode rest
    | none => 37 :: percentDecode (hi :: lo :: rest)
  | b :: rest => b :: percentDecode rest
  | [] => []

/-- A forbidden host code point. -/
def forbiddenHost (c : Char) : Bool :=
  [0x00, 0x09, 0x0A, 0x0D, 0x20, 0x23, 0x2F, 0x3A, 0x3C, 0x3E, 0x3F, 0x40, 0x5B, 0x5C, 0x5D, 0x5E,
    0x7C].contains c.toNat

/-- A forbidden domain code point. -/
def forbiddenDomain (c : Char) : Bool :=
  forbiddenHost c || c.toNat ≤ 0x1F || c = '%' || c.toNat = 0x7F

/-- Some label is in Punycode. -/
def hasPunycode (domain : List Char) : Bool :=
  ((domain.map Char.toLower).splitOn '.').any ("xn--".toList.isPrefixOf ·)

/-- The standard's "domain to ASCII", and what it is on plain ASCII. -/
structure Idna where
  toAscii : List Char → Option (List Char)
  toAscii_ascii : ∀ domain, domain ≠ [] → (∀ c ∈ domain, c.toNat < 128) →
    hasPunycode domain = false → toAscii domain = some (domain.map Char.toLower)

/-- A host. -/
inductive Host
  | domain (name : List Char)
  | ipv4 (ip : Ipv4Addr)
  | ipv6 (ip : Ipv6Addr)
  deriving DecidableEq

variable (idna : Idna)

/-- The host parser. -/
def parseHost (input : List Char) : Option Host :=
  match input with
  | '[' :: rest =>
    if rest.getLast? = some ']' then (parseIpv6 rest.dropLast).map .ipv6 else none
  | _ => do
    let ascii ← idna.toAscii (Utf8.lossy (percentDecode (Utf8.encode input))).toList
    if ascii.isEmpty || ascii.any forbiddenDomain then none
    else if endsInNumber ascii then (parseIpv4 ascii).map .ipv4
    else some (.domain ascii)

/-! ### URLs -/

/-- A C0 control or space. -/
def isControlOrSpace (c : Char) : Bool := c.toNat ≤ 0x20

/-- A tab or newline. -/
def isTabOrNewline (c : Char) : Bool := c = '\t' || c = '\n' || c = '\r'

/-- What is read of a URL. -/
def stripped (url : List Char) : List Char :=
  ((url.dropWhile isControlOrSpace).rdropWhile isControlOrSpace).filter (!isTabOrNewline ·)

/-- What follows the scheme, which is `http` or `https`. -/
def afterScheme (url : List Char) : Option (List Char) :=
  let scheme := (url.takeWhile (· ≠ ':')).map Char.toLower
  if scheme = "http".toList ∨ scheme = "https".toList then
    match url.dropWhile (· ≠ ':') with
    | _ :: rest => some rest
    | [] => none
  else none

/-- A slash, either way. -/
def isSlash (c : Char) : Bool := c = '/' || c = '\\'

/-- The end of an authority. -/
def isEnd (c : Char) : Bool := isSlash c || c = '?' || c = '#'

/-- The host and the port of an authority without userinfo: up to a colon outside brackets. -/
def splitPort : Bool → List Char → List Char × List Char
  | _, [] => ([], [])
  | inside, c :: s =>
    if c = ':' ∧ inside = false then ([], s)
    else
      let inside := if c = '[' then true else if c = ']' then false else inside
      (c :: (splitPort inside s).1, (splitPort inside s).2)

/-- A port, or none. -/
def isPort (port : List Char) : Bool := port.all (isDigit 10) && value 10 port ≤ 65535

/-- The host of an authority, behind the userinfo. -/
def authorityHost (authority : List Char) : Option Host :=
  let hostPort := splitPort false (authority.rtakeWhile fun c ↦ !decide (c = '@'))
  if hostPort.1.isEmpty || !isPort hostPort.2 then none else parseHost idna hostPort.1

/-- The host of an `http` or `https` URL. -/
def host (url : List Char) : Option Host := do
  let rest ← afterScheme (stripped url)
  authorityHost idna ((rest.dropWhile isSlash).takeWhile (!isEnd ·))

end Himadri.Url
