import Cachecannon.Lib.Text
import Cachecannon.Worker.Address

/-!
# A client's registered buffer (`src/dma/advertisement.rs`)

An advertisement goes to the server as three arguments of a command: the address of the endpoint in
hex, and the key and the address of the region in decimal. An argument is a text; a field that
comes back is its bytes.
-/

namespace Dma

structure Advertisement where
  address : List UInt8
  remoteKey : UInt64
  remoteAddress : UInt64
  deriving Repr, DecidableEq

/-- `AdvertisementError`. -/
inductive AdvertisementError
  | arity
  | hex
  | integer
  deriving Repr, DecidableEq

/-- `DIGITS`. -/
def digits : List Char :=
  ['0', '1', '2', '3', '4', '5', '6', '7', '8', '9', 'a', 'b', 'c', 'd', 'e', 'f']

/-- `DIGITS[i] as char`, for an index in range. -/
def digitAt (i : UInt8) : Char := digits.getD i.toNat '0'

def encodeHex (bytes : List UInt8) : List Char :=
  bytes.flatMap fun (byte : UInt8) => [digitAt (byte >>> 4), digitAt (byte &&& 0x0f)]

/-- `as_chunks::<2>().0`: the whole pairs. -/
def pairs : List UInt8 → List (UInt8 × UInt8)
  | high :: low :: rest => (high, low) :: pairs rest
  | _ => []

/-- `(byte as char).to_digit(16)`. -/
def hexValue (byte : UInt8) : Except AdvertisementError UInt32 :=
  match Worker.toDigit 16 (Char.ofNat byte.toNat) with
  | some digit => .ok (UInt32.ofNat digit)
  | none => .error .hex

def decodePair : UInt8 × UInt8 → Except AdvertisementError UInt8
  | (high, low) => do
    let high ← hexValue high
    let low ← hexValue low
    return (high <<< 4 ||| low).toUInt8

def decodeHex (text : List UInt8) : Except AdvertisementError (List UInt8) :=
  if text.length % 2 ≠ 0 then .error .hex
  else (pairs text).mapM decodePair

/-- `parse_ascii::<u64>`. -/
def parseAscii (raw : List UInt8) : Except AdvertisementError UInt64 :=
  match (Text.decode raw).bind (Worker.parseUnsigned 64) with
  | some n => .ok (UInt64.ofNat n)
  | none => .error .integer

def Advertisement.toRegionArgs (a : Advertisement) : List (List Char) :=
  [Nat.toDigits 10 a.remoteKey.toNat, Nat.toDigits 10 a.remoteAddress.toNat]

def Advertisement.toArgs (a : Advertisement) : List (List Char) :=
  encodeHex a.address :: a.toRegionArgs

def Advertisement.fromFields (fields : List (List UInt8)) :
    Except AdvertisementError Advertisement :=
  match fields with
  | [address, remoteKey, remoteAddress] => do
    let address ← decodeHex address
    let remoteKey ← parseAscii remoteKey
    let remoteAddress ← parseAscii remoteAddress
    return { address, remoteKey, remoteAddress }
  | _ => .error .arity

end Dma
