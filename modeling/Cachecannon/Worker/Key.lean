import Cachecannon.Config.Model

/-!
# Keys (`src/worker.rs`, `write_key`)

A key id is written into a buffer of `keyspace.length` bytes as hex digits, the last digit last. A
buffer of 36 bytes in the `uuid` format has dashes at the places a UUID has them.
-/

namespace Worker

/-- `HEX`: the bytes of `0123456789abcdef`. -/
def hexDigits : List UInt8 :=
  [0x30, 0x31, 0x32, 0x33, 0x34, 0x35, 0x36, 0x37, 0x38, 0x39, 0x61, 0x62, 0x63, 0x64, 0x65, 0x66]

def hexDigit (digit : Nat) : UInt8 := hexDigits.getD digit 0x30

/-- The loop over the buffer, from its last byte to its first: `n` is what is left of the id, and
the places that `dash` names get a dash. -/
def writeDigits (dash : Nat → Bool) : Nat → Nat → List UInt8
  | 0, _ => []
  | i + 1, n =>
    if dash i then writeDigits dash i n ++ [0x2d]
    else writeDigits dash i (n / 16) ++ [hexDigit (n % 16)]

def uuidDash (i : Nat) : Bool := i = 8 || i = 13 || i = 18 || i = 23

def writeKey (format : Config.KeyFormat) (length id : Nat) : List UInt8 :=
  if format = .uuid ∧ length = 36 then writeDigits uuidDash length id
  else writeDigits (fun _ => false) length id

end Worker
