import Mathlib.Data.List.DropRight
import Neuroswarm.Armcascade.Types
import Neuroswarm.Lib.Delimited

/-!
# IP addresses

What `runtime/router/mcp_ssrf.py` uses of the standard module `ipaddress`: the parser of
`ip_address`, with scope ids, and the classes of addresses; and `_is_blocked_ip` over them.
-/

namespace Neuroswarm.Mcp

open Armcascade (Text isSpace)

/-- `ipaddress.IPv4Address` and `ipaddress.IPv6Address`, the latter with its scope id. -/
inductive IpAddress where
  | v4 (ip : Nat)
  | v6 (ip : Nat) (scopeId : Option Text)
  deriving Repr, DecidableEq

-- ------ The parser

/-- The value of a letter between `first` and `last`, the first of which counts `base`. -/
def digitFrom (first last base : Nat) (c : Char) : Option Nat :=
  if first ≤ c.toNat ∧ c.toNat ≤ last then some (base + (c.toNat - first)) else none

def digit (c : Char) : Option Nat := digitFrom 48 57 0 c

def hexDigit (c : Char) : Option Nat :=
  (digit c).or ((digitFrom 65 70 10 c).or (digitFrom 97 102 10 c))

/-- The number whose digits, in the given base, are these. -/
def ofDigits (base : Nat) (digits : List Nat) : Nat := digits.foldl (base * · + ·) 0

def parseOctet (octet : Text) : Option Nat := do
  let digits ← octet.mapM digit
  let value := ofDigits 10 digits
  if octet = [] ∨ 3 < octet.length ∨ (octet ≠ ['0'] ∧ octet.head? = some '0') ∨ 255 < value then
    none
  else some value

/-- `IPv4Address._ip_int_from_string`. -/
def ipv4FromString (s : Text) : Option Nat :=
  let octets := s.splitOn '.'
  if octets.length ≠ 4 then none else (octets.mapM parseOctet).map (ofDigits 256)

def parseHextet (hextet : Text) : Option Nat := do
  let digits ← hextet.mapM hexDigit
  if hextet = [] ∨ 4 < hextet.length then none else some (ofDigits 16 digits)

/-- A part of an IPv6 address: whether it is the empty text, and its value. -/
structure Piece where
  isEmpty : Bool
  value : Option Nat
  deriving Repr, DecidableEq

def Piece.ofText (s : Text) : Piece := ⟨s.isEmpty, parseHextet s⟩

/-- A part that was written as a number. -/
def Piece.ofNat (n : Nat) : Piece := ⟨false, some n⟩

/-- The parts between the colons. An IPv4-style suffix stands for two. -/
def parts (s : Text) : Option (List Piece) :=
  let texts := s.splitOn ':'
  let last := texts.getLastD []
  if texts.length < 3 then none
  else if '.' ∈ last then
    (ipv4FromString last).map fun n =>
      texts.dropLast.map Piece.ofText ++ [Piece.ofNat (n / 65536), Piece.ofNat (n % 65536)]
  else some (texts.map Piece.ofText)

/-- The places, the ends aside, where nothing stands between two colons. -/
def skips (parts : List Piece) : List Nat :=
  (List.range' 1 (parts.length - 2)).filter fun i => (parts[i]?).any (·.isEmpty)

/-- The number that these parts write. -/
def hextets (parts : List Piece) : Option Nat := (parts.mapM Piece.value).map (ofDigits 65536)

/-- `not parts[0]`. -/
def startsEmpty (parts : List Piece) : Bool := (parts.head?).any (·.isEmpty)

/-- `not parts[-1]`. -/
def endsEmpty (parts : List Piece) : Bool := (parts.getLast?).any (·.isEmpty)

/-- `parts_hi`, the number of parts to read before the skipped one. -/
def partsHi (parts : List Piece) (skipIndex : Nat) : Nat :=
  if startsEmpty parts then skipIndex - 1 else skipIndex

/-- `parts_lo`, the number of parts to read after it. -/
def partsLo (parts : List Piece) (skipIndex : Nat) : Nat :=
  if endsEmpty parts then parts.length - skipIndex - 2 else parts.length - skipIndex - 1

/-- The address with a skipped part, which stands for as many zeros as are missing. -/
def ipv6WithSkip (parts : List Piece) (skipIndex : Nat) : Option Nat :=
  let hi := partsHi parts skipIndex
  let lo := partsLo parts skipIndex
  if (startsEmpty parts ∧ hi ≠ 0) ∨ (endsEmpty parts ∧ lo ≠ 0) ∨ 8 < hi + lo + 1 then none
  else do
    let high ← hextets (parts.take hi)
    let low ← hextets (parts.drop (parts.length - lo))
    some (high * 65536 ^ (8 - hi) + low)

/-- The rest of `IPv6Address._ip_int_from_string`. -/
def ipv6FromParts (parts : List Piece) : Option Nat :=
  if 9 < parts.length then none
  else match skips parts with
    | [] =>
      if parts.length ≠ 8 ∨ startsEmpty parts ∨ endsEmpty parts then none else hextets parts
    | [skipIndex] => ipv6WithSkip parts skipIndex
    | _ => none

def ipv6FromString (s : Text) : Option Nat := (parts s).bind ipv6FromParts

def splitPercent (s : Text) : Text × Option Text :=
  (s.takeWhile (· ≠ '%'), ((s.dropWhile (· ≠ '%')).tail?))

/-- `IPv6Address(s)`. -/
def ipv6Address (s : Text) : Option IpAddress :=
  let (addr, scopeId) := splitPercent s
  if '/' ∈ s ∨ scopeId.any (fun scope => scope = [] ∨ '%' ∈ scope) then none
  else (ipv6FromString addr).map (.v6 · scopeId)

def ipAddress (s : Text) : Option IpAddress :=
  ((ipv4FromString s).map .v4).or (ipv6Address s)

-- ------ The classes

structure Network where
  networkAddress : Nat
  prefixlen : Nat
  deriving Repr, DecidableEq

/-- `ip in network`, for addresses of `width` bits. -/
def Network.contains (width : Nat) (network : Network) (ip : Nat) : Bool :=
  ip >>> (width - network.prefixlen) == network.networkAddress >>> (width - network.prefixlen)

/-- `IPv4Network("a.b.c.d/len")`. -/
def v4Network (octets : List Nat) (prefixlen : Nat) : Network := ⟨ofDigits 256 octets, prefixlen⟩

/-- `IPv6Network`, whose hextets that are not written are zero. -/
def v6Network (written : List Nat) (prefixlen : Nat) : Network :=
  ⟨ofDigits 65536 written * 65536 ^ (8 - written.length), prefixlen⟩

def v4PrivateNetworks : List Network :=
  [v4Network [0, 0, 0, 0] 8, v4Network [10, 0, 0, 0] 8, v4Network [127, 0, 0, 0] 8,
    v4Network [169, 254, 0, 0] 16, v4Network [172, 16, 0, 0] 12, v4Network [192, 0, 0, 0] 24,
    v4Network [192, 0, 0, 170] 31, v4Network [192, 0, 2, 0] 24, v4Network [192, 168, 0, 0] 16,
    v4Network [198, 18, 0, 0] 15, v4Network [198, 51, 100, 0] 24, v4Network [203, 0, 113, 0] 24,
    v4Network [240, 0, 0, 0] 4, v4Network [255, 255, 255, 255] 32]

def v4PrivateExceptions : List Network :=
  [v4Network [192, 0, 0, 9] 32, v4Network [192, 0, 0, 10] 32]

def v6PrivateNetworks : List Network :=
  [v6Network [0, 0, 0, 0, 0, 0, 0, 1] 128, v6Network [] 128, v6Network [0, 0, 0, 0, 0, 0xffff] 96,
    v6Network [0x64, 0xff9b, 1] 48, v6Network [0x100] 64, v6Network [0x2001] 23,
    v6Network [0x2001, 0xdb8] 32, v6Network [0x2002] 16, v6Network [0xfc00] 7,
    v6Network [0xfe80] 10]

def v6PrivateExceptions : List Network :=
  [v6Network [0x2001, 1, 0, 0, 0, 0, 0, 1] 128, v6Network [0x2001, 1, 0, 0, 0, 0, 0, 2] 128,
    v6Network [0x2001, 3] 32, v6Network [0x2001, 4, 0x112] 48, v6Network [0x2001, 0x20] 28,
    v6Network [0x2001, 0x30] 28]

def v6ReservedNetworks : List Network :=
  [v6Network [0] 8, v6Network [0x100] 8, v6Network [0x200] 7, v6Network [0x400] 6,
    v6Network [0x800] 5, v6Network [0x1000] 4, v6Network [0x4000] 3, v6Network [0x6000] 3,
    v6Network [0x8000] 3, v6Network [0xa000] 3, v6Network [0xc000] 3, v6Network [0xe000] 4,
    v6Network [0xf000] 5, v6Network [0xf800] 6, v6Network [0xfe00] 9]

namespace IpAddress

/-- `ip.ipv4_mapped` of an IPv6 address. -/
def ipv4Mapped (ip : Nat) : Option Nat := if ip >>> 32 = 0xffff then some (ip % 2 ^ 32) else none

def v4IsPrivate (ip : Nat) : Bool :=
  v4PrivateNetworks.any (·.contains 32 ip) && v4PrivateExceptions.all (!·.contains 32 ip)

def isPrivate : IpAddress → Bool
  | v4 ip => v4IsPrivate ip
  | v6 ip _ =>
    match ipv4Mapped ip with
    | some mapped => v4IsPrivate mapped
    | none =>
      v6PrivateNetworks.any (·.contains 128 ip) && v6PrivateExceptions.all (!·.contains 128 ip)

def isLoopback : IpAddress → Bool
  | v4 ip => (v4Network [127, 0, 0, 0] 8).contains 32 ip
  | v6 ip _ => ip == 1

def isLinkLocal : IpAddress → Bool
  | v4 ip => (v4Network [169, 254, 0, 0] 16).contains 32 ip
  | v6 ip _ => (v6Network [0xfe80] 10).contains 128 ip

def isReserved : IpAddress → Bool
  | v4 ip => (v4Network [240, 0, 0, 0] 4).contains 32 ip
  | v6 ip _ => v6ReservedNetworks.any (·.contains 128 ip)

def isMulticast : IpAddress → Bool
  | v4 ip => (v4Network [224, 0, 0, 0] 4).contains 32 ip
  | v6 ip _ => (v6Network [0xff00] 8).contains 128 ip

def isUnspecified : IpAddress → Bool
  | v4 ip => ip == 0
  | v6 ip _ => ip == 0

/-- The tests of `_is_blocked_ip` that do not depend on the version. -/
def inBlockedClass (ip : IpAddress) : Bool :=
  ip.isLoopback || ip.isLinkLocal || ip.isPrivate || ip.isReserved || ip.isMulticast ||
    ip.isUnspecified

/-- `_is_blocked_ip` of an IPv4 address. -/
def v4IsBlocked (ip : Nat) : Bool :=
  (v4 ip).inBlockedClass || (v4Network [100, 64, 0, 0] 10).contains 32 ip ||
    ip == ofDigits 256 [169, 254, 169, 254]

/-- `_is_blocked_ip`. -/
def isBlocked : IpAddress → Bool
  | v4 ip => v4IsBlocked ip
  | v6 ip scopeId => (v6 ip scopeId).inBlockedClass || (ipv4Mapped ip).any v4IsBlocked

theorem isBlocked_scope (ip : Nat) (scopeId scopeId' : Option Text) :
    (v6 ip scopeId).isBlocked = (v6 ip scopeId').isBlocked := rfl

end IpAddress

example : ipAddress "127.0.0.1".toList = some (.v4 2130706433) := by decide +kernel

example : ipAddress "::ffff:1.2.3.4%eth0".toList =
    some (.v6 (65535 * 2 ^ 32 + 16909060) (some "eth0".toList)) := by decide +kernel

end Neuroswarm.Mcp
