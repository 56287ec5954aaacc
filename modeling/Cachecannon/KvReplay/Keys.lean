import Cachecannon.Lib.Text
import Mathlib.Algebra.BigOperators.Group.List.Basic

/-!
# The key table of a request (`src/kvreplay.rs`, `push_key`, `Scratch` and `run_request`)

The keys of a request's objects stand back to back in one buffer, with a table of where each ends.
A connection reuses both for every request. The `EXISTS` commands of the lookup are not fired
through the client, so their bytes are counted by hand.
-/

namespace KvReplay

inductive KvKeyFormat
  | hex
  | decimal
  deriving Repr, DecidableEq

/-- What the keys are made of. -/
structure KeyConfig where
  keyPrefix : List UInt8
  keyFormat : KvKeyFormat
  deriving Repr, DecidableEq

def KeyConfig.maxKeyLen (kv : KeyConfig) : Nat :=
  let digits := match kv.keyFormat with
    | .hex => 16
    | .decimal => 20
  kv.keyPrefix.length + digits

/-- `{id:016x}` or `{id}`. -/
def formatId (format : KvKeyFormat) (id : UInt64) : List Char :=
  match format with
  | .hex => (Nat.toDigits 16 id.toNat).leftpad 16 '0'
  | .decimal => Nat.toDigits 10 id.toNat

def KeyConfig.pushKey (kv : KeyConfig) (buf : List UInt8) (id : UInt64) : List UInt8 :=
  buf ++ kv.keyPrefix ++ Text.encode (formatId kv.keyFormat id)

/-- The buffers that the key table uses. -/
structure Scratch where
  /-- The ids of `objects`. -/
  objects : List UInt64
  keys : List UInt8
  keyEnds : List Nat
  deriving Repr, DecidableEq

/-- An index or a range out of bounds panics. -/
def Scratch.key (s : Scratch) (i : Nat) : Option (List UInt8) :=
  let start := if i = 0 then some 0 else s.keyEnds[i - 1]?
  start.bind fun start => s.keyEnds[i]?.bind fun stop => Text.slice s.keys start stop

/-- One turn of the loop over the objects. -/
def Scratch.pushObject (kv : KeyConfig) (s : Scratch) (id : UInt64) : Scratch :=
  let keys := kv.pushKey s.keys id
  { s with keys, keyEnds := s.keyEnds ++ [keys.length] }

/-- The start of `run_request`: the objects of the request and their keys. -/
def Scratch.fill (kv : KeyConfig) (s : Scratch) (objects : List UInt64) : Scratch :=
  objects.foldl (Scratch.pushObject kv) { s with objects, keys := [], keyEnds := [] }

/-- The loop of `decimal_len`. -/
def decimalLenFrom (v digits : Nat) : Nat :=
  if 10 ≤ v then decimalLenFrom (v / 10) (digits + 1) else digits

def decimalLen (v : Nat) : Nat := decimalLenFrom v 1

/-- The bytes counted for one `EXISTS`. -/
def existsLen (key : List UInt8) : Nat :=
  16 + (1 + decimalLen key.length + 2 + key.length + 2)

/-- `tx_bytes`, over the keys of all objects. -/
def Scratch.txBytes (s : Scratch) : Option Nat :=
  (List.range s.objects.length).foldlM (fun txBytes i => do
    let key ← s.key i
    return txBytes + existsLen key) 0

/-! ## The commands -/

/-- `resp_proto`'s encoding of a command: an array of bulk strings. -/
def bulkString (arg : List UInt8) : List UInt8 :=
  Text.encode ('$' :: Nat.toDigits 10 arg.length ++ ['\r', '\n']) ++ arg ++
    Text.encode ['\r', '\n']

def encodeCommand (args : List (List UInt8)) : List UInt8 :=
  Text.encode ('*' :: Nat.toDigits 10 args.length ++ ['\r', '\n']) ++ args.flatMap bulkString

def existsCommand (key : List UInt8) : List UInt8 :=
  encodeCommand [Text.encode "EXISTS".toList, key]

end KvReplay
