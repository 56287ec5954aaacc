import Mathlib.Algebra.Order.Ring.Nat

/-!
# Numbers and addresses out of text (the standard library's `FromStr`)

What `str::parse::<u16>` and `str::parse::<SocketAddr>` accept. A reader takes the text and
returns what it read with the rest, or nothing, in which case it consumed nothing
(`read_atomically`). Text is its list of characters.
-/

namespace Worker

def toDigit (radix : Nat) (c : Char) : Option Nat :=
  let digit :=
    if '0' ≤ c ∧ c ≤ '9' then some (c.toNat - '0'.toNat)
    else if 'a' ≤ c ∧ c ≤ 'z' then some (c.toNat - 'a'.toNat + 10)
    else if 'A' ≤ c ∧ c ≤ 'Z' then some (c.toNat - 'A'.toNat + 10)
    else none
  digit.filter (· < radix)

def ofDigits (radix : Nat) (digits : List Nat) : Nat :=
  digits.foldl (fun n digit => n * radix + digit) 0

/-- `from_str` of an unsigned type of `bits` bits: an optional sign `+`, then decimal digits only,
within the bits. `usize` has sixty-four here. -/
def parseUnsigned (bits : Nat) (s : List Char) : Option Nat :=
  let digits := match s with
    | '+' :: rest => rest
    | _ => s
  if digits.isEmpty then none
  else do
    let ds ← digits.mapM (toDigit 10)
    if ofDigits 10 ds < 2 ^ bits then some (ofDigits 10 ds) else none

/-- `u16::from_str` -/
def parseU16 (s : List Char) : Option UInt16 := (parseUnsigned 16 s).map UInt16.ofNat

/-! ## Addresses -/

inductive SocketAddr
  | v4 (octets : List Nat) (port : Nat)
  | v6 (segments : List Nat) (port flowinfo scopeId : Nat)
  deriving Repr, DecidableEq

def readGivenChar (c : Char) (s : List Char) : Option (List Char) :=
  match s with
  | d :: rest => if d = c then some rest else none
  | [] => none

/-- `Parser::read_number`: a number below `bound`, of at most `maxDigits` digits. -/
def readNumber (radix : Nat) (maxDigits : Option Nat) (allowZeroPrefix : Bool) (bound : Nat)
    (s : List Char) : Option (Nat × List Char) :=
  let digits := s.takeWhile fun c => (toDigit radix c).isSome
  let rest := s.dropWhile fun c => (toDigit radix c).isSome
  let value := ofDigits radix (digits.filterMap (toDigit radix))
  if digits.isEmpty || maxDigits.any (· < digits.length) ||
      (!allowZeroPrefix && digits.head? == some '0' && decide (1 < digits.length)) ||
      decide (bound ≤ value) then none
  else some (value, rest)

/-- `Parser::read_separator`: every element but the first has `sep` before it. -/
def readSeparator {α : Type} (sep : Char) (index : Nat)
    (inner : List Char → Option (α × List Char)) (s : List Char) : Option (α × List Char) :=
  if 0 < index then (readGivenChar sep s).bind inner else inner s

def readOctet (index : Nat) : List Char → Option (Nat × List Char) :=
  readSeparator '.' index (readNumber 10 (some 3) false 256)

def readIpv4Addr (s : List Char) : Option (List Nat × List Char) := do
  let (a, s) ← readOctet 0 s
  let (b, s) ← readOctet 1 s
  let (c, s) ← readOctet 2 s
  let (d, s) ← readOctet 3 s
  return ([a, b, c, d], s)

/-- `read_groups`: up to `limit` groups, the first of them with index `i`; whether the last two
were written as an IPv4 address. -/
def readGroups : (limit i : Nat) → List Char → List Nat × Bool × List Char
  | 0, _, s => ([], false, s)
  | limit + 1, i, s =>
    match (if 0 < limit then readSeparator ':' i readIpv4Addr s else none) with
    | some (octets, s) =>
      ([octets.getD 0 0 * 256 + octets.getD 1 0, octets.getD 2 0 * 256 + octets.getD 3 0], true, s)
    | none =>
      match readSeparator ':' i (readNumber 16 (some 4) true (2 ^ 16)) s with
      | none => ([], false, s)
      | some (group, s) =>
        let (groups, ipv4, s) := readGroups limit (i + 1) s
        (group :: groups, ipv4, s)

def readIpv6Addr (s : List Char) : Option (List Nat × List Char) :=
  let (head, ipv4, s) := readGroups 8 0 s
  if head.length = 8 then some (head, s)
  -- an IPv4 part is not allowed before `::`
  else if ipv4 then none
  else do
    let s ← readGivenChar ':' s
    let s ← readGivenChar ':' s
    let (tail, _, s) := readGroups (8 - (head.length + 1)) 0 s
    return (head ++ List.replicate (8 - head.length - tail.length) 0 ++ tail, s)

def readPort (s : List Char) : Option (Nat × List Char) := do
  let s ← readGivenChar ':' s
  readNumber 10 none true (2 ^ 16) s

def readScopeId (s : List Char) : Option (Nat × List Char) := do
  let s ← readGivenChar '%' s
  readNumber 10 none true (2 ^ 32) s

def readSocketAddrV4 (s : List Char) : Option (SocketAddr × List Char) := do
  let (octets, s) ← readIpv4Addr s
  let (port, s) ← readPort s
  return (.v4 octets port, s)

def readSocketAddrV6 (s : List Char) : Option (SocketAddr × List Char) := do
  let s ← readGivenChar '[' s
  let (segments, s) ← readIpv6Addr s
  let (scopeId, s) := (readScopeId s).getD (0, s)
  let s ← readGivenChar ']' s
  let (port, s) ← readPort s
  return (.v6 segments port 0 scopeId, s)

/-- `SocketAddr::from_str`: the whole text is one address. -/
def parseSocketAddr (s : List Char) : Option SocketAddr :=
  match (readSocketAddrV4 s).or (readSocketAddrV6 s) with
  | some (addr, []) => some addr
  | _ => none

end Worker
