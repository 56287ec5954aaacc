import Cachecannon.Worker.Address
import Mathlib.Data.List.Basic

/-!
# IP addresses as text (the standard library's `FromStr` and `Display`)
-/

namespace Worker

/-- Four octets or eight segments. -/
inductive IpAddr
  | v4 (octets : List Nat)
  | v6 (segments : List Nat)
  deriving Repr, DecidableEq

def IpAddr.Valid : IpAddr → Prop
  | .v4 octets => octets.length = 4 ∧ ∀ octet ∈ octets, octet < 256
  | .v6 segments => segments.length = 8 ∧ ∀ segment ∈ segments, segment < 2 ^ 16

/-- `SocketAddr::new` -/
def SocketAddr.new (ip : IpAddr) (port : Nat) : SocketAddr :=
  match ip with
  | .v4 octets => .v4 octets port
  | .v6 segments => .v6 segments port 0 0

def readIpAddr (s : List Char) : Option (IpAddr × List Char) :=
  ((readIpv4Addr s).map fun r => (.v4 r.1, r.2)).or
    ((readIpv6Addr s).map fun r => (.v6 r.1, r.2))

/-- `IpAddr::from_str`: the whole text is one address. -/
def parseIpAddr (s : List Char) : Option IpAddr :=
  match readIpAddr s with
  | some (ip, []) => some ip
  | _ => none

/-! ## Display -/

def displayIpv4 (octets : List Nat) : List Char :=
  List.intercalate ['.'] (octets.map (Nat.toDigits 10))

/-- `fmt_subslice`: the segments in hex, with colons between them. -/
def fmtSubslice (chunk : List Nat) : List Char :=
  List.intercalate [':'] (chunk.map (Nat.toDigits 16))

structure Span where
  start : Nat
  len : Nat
  deriving Repr, DecidableEq

/-- The first of the longest runs of zeros, from segment `i` on. -/
def zeroSpan (i : Nat) (longest current : Span) : List Nat → Span
  | [] => longest
  | segment :: segments =>
    if segment = 0 then
      let current : Span := ⟨if current.len = 0 then i else current.start, current.len + 1⟩
      zeroSpan (i + 1) (if longest.len < current.len then current else longest) current segments
    else zeroSpan (i + 1) longest ⟨0, 0⟩ segments

def displayIpv6 (segments : List Nat) : List Char :=
  match segments with
  | [0, 0, 0, 0, 0, 0xffff, x, y] =>
    "::ffff:".toList ++ displayIpv4 [x / 256, x % 256, y / 256, y % 256]
  | _ =>
    let zeroes := zeroSpan 0 ⟨0, 0⟩ ⟨0, 0⟩ segments
    if 1 < zeroes.len then
      fmtSubslice (segments.take zeroes.start) ++ "::".toList ++
        fmtSubslice (segments.drop (zeroes.start + zeroes.len))
    else fmtSubslice segments

def IpAddr.display : IpAddr → List Char
  | .v4 octets => displayIpv4 octets
  | .v6 segments => displayIpv6 segments

end Worker
