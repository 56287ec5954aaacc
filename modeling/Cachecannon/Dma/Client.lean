import Cachecannon.Dma.Command
import Cachecannon.Worker.Reply

/-!
# Transfers (`src/dma/client.rs`, `src/dma/fabric/buffer.rs`, `src/dma/fabric/handle.rs`)

A buffer is memory that is registered on a fabric: a connection's own, that a read lands in, or the
pool of values, that writes are served from in place. A client advertises a buffer or a window of
it and interprets the reply. A range out of bounds panics, which is `none` here; `crc` is the
CRC-32c of `crc_fast`.
-/

namespace Dma

/-! ## Buffers -/

/-- `DmaFabric`: the address of its endpoint, and whether a region has its virtual address. -/
structure DmaFabric where
  address : List UInt8
  usesVirtualAddressing : Bool
  deriving Repr, DecidableEq

/-- `Backing`, with the bytes. -/
inductive Backing
  | owned (memory : List UInt8)
  | shared (memory : List UInt8)
  | device
  deriving Repr, DecidableEq

structure DmaBuffer where
  advertisement : Advertisement
  length : UInt64
  backing : Backing
  deriving Repr, DecidableEq

structure RegionWindow where
  advertisement : Advertisement
  length : UInt64
  deriving Repr, DecidableEq

def DmaFabric.advertisement (fabric : DmaFabric) (pointer remoteKey : UInt64) : Advertisement where
  address := fabric.address
  remoteKey
  remoteAddress := if fabric.usesVirtualAddressing then pointer else 0

/-- `register`, of memory at `pointer` that the provider gave the key `remoteKey`. -/
def DmaFabric.register (fabric : DmaFabric) (pointer remoteKey : UInt64) (memory : List UInt8) :
    Except DmaError DmaBuffer :=
  if memory.length = 0 then .error (.configuration "cannot register 0 bytes")
  else .ok ⟨fabric.advertisement pointer remoteKey, UInt64.ofNat memory.length, .owned memory⟩

/-- `register_shared`: a source that nothing writes to. -/
def DmaFabric.registerShared (fabric : DmaFabric) (pointer remoteKey : UInt64)
    (memory : List UInt8) : Except DmaError DmaBuffer :=
  if memory.length = 0 then .error (.configuration "cannot register 0 bytes")
  else .ok ⟨fabric.advertisement pointer remoteKey, UInt64.ofNat memory.length, .shared memory⟩

def checkedAdd (a b : UInt64) : Option UInt64 :=
  if a.toNat + b.toNat < 2 ^ 64 then some (a + b) else none

def DmaBuffer.slice (buffer : DmaBuffer) (start length : UInt64) : Option RegionWindow := do
  if buffer.length < (← checkedAdd start length) then none
  else
    let remoteAddress ← checkedAdd buffer.advertisement.remoteAddress start
    some ⟨{ buffer.advertisement with remoteAddress }, length⟩

def DmaBuffer.asHost (buffer : DmaBuffer) : Option (List UInt8) :=
  match buffer.backing with
  | .owned memory => some memory
  | .shared _ | .device => none

/-! ## Replies -/

/-- `resp_proto::Value`, as far as a reply is told apart. -/
inductive Value
  | null
  | integer (n : Int64)
  | simpleString (s : List UInt8)
  | error (s : List UInt8)
  | bulkString (s : List UInt8)
  | array (items : List Value)

/-- `client::Error` -/
inductive Error
  | resp (error : Worker.RedisError)
  | dma (error : DmaError)
  deriving Repr, DecidableEq

def parse (reply : Value) : Except DmaError TransferReply :=
  match reply with
  | .null => .ok .missing
  | .integer count => .ok (.bytes count)
  | .simpleString status =>
    if status = Text.encode "OK".toList then .ok .acknowledged
    else .error (.protocol "unexpected reply")
  | .array [.integer count, .integer checksum] => .ok (.bytesAndChecksum count checksum)
  | .array items =>
    .error (.protocol s!"expected [bytes, checksum], got {items.length} elements")
  | .error _ | .bulkString _ => .error (.protocol "unexpected reply")

/-- `AdvertisementError` as it is printed. -/
def AdvertisementError.text : AdvertisementError → String
  | .arity => "expected: address rkey remote-address"
  | .hex => "invalid hex in address"
  | .integer => "invalid integer in advertisement"

def helloAddress : Value → Except DmaError (List UInt8)
  | .bulkString encoded | .simpleString encoded =>
    (decodeHex encoded).mapError fun error => .protocol error.text
  | _ => .error (.protocol "hello: expected an address")

/-- The addresses in the reply to a hello. -/
def helloReply : Value → Except DmaError (List (List UInt8))
  | .array items =>
    if items.isEmpty then .error (.protocol "hello returned no addresses")
    else items.mapM helloAddress
  | _ => .error (.protocol "hello: expected an array")

/-! ## The client -/

structure DmaClient where
  fabric : DmaFabric
  buffer : DmaBuffer
  dialect : Dialect
  checksum : Bool
  deriving Repr, DecidableEq

section

variable (crc : List UInt8 → UInt32)

/-- `{:#010x}` -/
def hex32 (n : UInt32) : String :=
  "0x" ++ String.ofList ((Nat.toDigits 16 n.toNat).leftpad 8 '0')

/-- `verify`, on what is in the buffer. -/
def DmaClient.verify (client : DmaClient) (receipt : TransferReceipt) :
    Option (Except DmaError Unit) :=
  match client.checksum, receipt.checksum with
  | true, some expected =>
    match client.buffer.asHost with
    | none => some (.ok ())
    | some landed => do
      let found := crc (← Text.slice landed 0 receipt.bytesWritten.toNat)
      if found ≠ expected then
        let (found, expected) := (hex32 found, hex32 expected)
        some (.error (.integrity s!"checksum {found} does not match the server's {expected}"))
      else some (.ok ())
  | _, _ => some (.ok ())

def DmaClient.getCommand (client : DmaClient) (key : List UInt8) : Except DmaError DmaCommand :=
  get client.dialect client.buffer.advertisement key client.buffer.length ⟨client.checksum⟩

/-- The end of `get`, after the reply. -/
def DmaClient.getReply (client : DmaClient) (reply : Except Worker.RedisError Value) :
    Option (Except Error (Option TransferReceipt)) :=
  match reply with
  | .error error => some (.error (.resp error))
  | .ok reply =>
    match (parse reply).bind TransferReply.receipt with
    | .error error => some (.error (.dma error))
    | .ok none => some (.ok none)
    | .ok (some receipt) =>
      let capacity := client.buffer.length
      if capacity < receipt.bytesWritten then
        let count := receipt.bytesWritten
        some (.error (.dma (.integrity
          s!"server reports {count} bytes into a {capacity}-byte buffer")))
      else
        (client.verify crc receipt).map fun
          | .error error => .error (.dma error)
          | .ok () => .ok (some receipt)

/-- `set_command`, of `set_registered`. -/
def DmaClient.setCommand (client : DmaClient) (key : List UInt8) (window : RegionWindow)
    (checksum : Option UInt32) : Except DmaError DmaCommand :=
  set client.dialect window.advertisement key window.length ⟨checksum⟩

/-- The end of `set_registered`, after the reply (`commit`). -/
def setReply (length : UInt64) (reply : Except Worker.RedisError Value) :
    Except Error TransferReceipt :=
  match reply with
  | .error error => .error (.resp error)
  | .ok reply => ((parse reply).bind (·.writeReceipt length)).mapError .dma

/-- `write_checksum`: the module of the run is the dialect of its clients. -/
def DmaClient.writeChecksum (client : DmaClient) (value : List UInt8) : Option UInt32 :=
  if client.checksum ∧ client.dialect = .vdma then some (crc value) else none

end

end Dma
