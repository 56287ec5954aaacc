import Cachecannon.Dma.Advertisement

/-!
# The commands of the two modules (`src/dma/command.rs`)

A transfer names the region of the client that the server reads from or writes to. vdma's commands
carry the address of the client's endpoint; valkey-large-object's do not, the address is sent once.
A reply is range-checked into a receipt.
-/

namespace Dma

/-- `DmaError`. A text says what was found. -/
inductive DmaError
  | protocol (text : String)
  | integrity (text : String)
  | payloadTooLarge
  | fabric (text : String)
  | configuration (text : String)
  deriving Repr, DecidableEq

inductive Dialect
  | vdma
  | largeObj
  deriving Repr, DecidableEq

/-- The hello, get and set command names. -/
structure CommandNames where
  hello : String
  get : String
  set : String
  deriving Repr, DecidableEq

def Dialect.names : Dialect → CommandNames
  | .vdma => ⟨"DMA.HELLO", "DMA.GET", "DMA.SET"⟩
  | .largeObj => ⟨"BLOB.RDMA_HELLO", "BLOB.RDMA_GET", "BLOB.RDMA_SET"⟩

/-! ## Commands -/

structure DmaSetOptions where
  checksum : Option UInt32
  deriving Repr, DecidableEq

structure DmaGetOptions where
  checksum : Bool
  deriving Repr, DecidableEq

structure DmaCommand where
  name : String
  arguments : List (List UInt8)
  deriving Repr, DecidableEq

def number (value : UInt64) : List UInt8 := Text.encode (Nat.toDigits 10 value.toNat)

def hello (dialect : Dialect) (localAddress : List UInt8) : DmaCommand :=
  match dialect with
  | .vdma => ⟨dialect.names.hello, []⟩
  | .largeObj => ⟨dialect.names.hello, [Text.encode (encodeHex localAddress)]⟩

def info : DmaCommand := ⟨"DMA.INFO", []⟩

def transfer (name : String) (advertisement : Advertisement) (key : List UInt8)
    (length : UInt64) : DmaCommand :=
  ⟨name, advertisement.toArgs.map Text.encode ++ [number length, key]⟩

def addressTriple (advertisement : Advertisement) (length : UInt64) : List (List UInt8) :=
  advertisement.toRegionArgs.map Text.encode ++ [number length]

def set (dialect : Dialect) (advertisement : Advertisement) (key : List UInt8) (length : UInt64)
    (options : DmaSetOptions) : Except DmaError DmaCommand :=
  match dialect with
  | .vdma =>
    let command := transfer dialect.names.set advertisement key length
    match options.checksum with
    | some checksum =>
      .ok { command with arguments := command.arguments ++ [number checksum.toUInt64] }
    | none => .ok command
  | .largeObj =>
    if options.checksum.isSome then .error (.configuration "largeobj takes no checksum on a write")
    else .ok ⟨dialect.names.set, key :: number length :: addressTriple advertisement length⟩

def get (dialect : Dialect) (advertisement : Advertisement) (key : List UInt8) (capacity : UInt64)
    (options : DmaGetOptions) : Except DmaError DmaCommand :=
  match dialect with
  | .vdma =>
    let command := transfer dialect.names.get advertisement key capacity
    if options.checksum then .ok { command with arguments := command.arguments ++ [number 0] }
    else .ok command
  | .largeObj => .ok ⟨dialect.names.get, key :: addressTriple advertisement capacity⟩

/-- `request`: the name is the first argument. -/
def DmaCommand.request (command : DmaCommand) : List (List UInt8) :=
  Text.encode command.name.toList :: command.arguments

/-! ## Replies -/

structure TransferReceipt where
  bytesWritten : UInt64
  checksum : Option UInt32
  deriving Repr, DecidableEq

/-- `TransferReply`. The numbers are signed words. -/
inductive TransferReply
  | missing
  | bytes (count : Int64)
  | bytesAndChecksum (count checksum : Int64)
  | acknowledged
  deriving Repr, DecidableEq

/-- `usize::try_from` -/
def byteCount (count : Int64) : Except DmaError UInt64 :=
  if 0 ≤ count.toInt then .ok (UInt64.ofNat count.toInt.toNat)
  else .error (.protocol s!"negative byte count {count}")

/-- `u32::try_from` -/
def checksumOf (checksum : Int64) : Except DmaError UInt32 :=
  if 0 ≤ checksum.toInt ∧ checksum.toInt < 2 ^ 32 then .ok (UInt32.ofNat checksum.toInt.toNat)
  else .error (.protocol s!"checksum out of range {checksum}")

def TransferReply.receipt : TransferReply → Except DmaError (Option TransferReceipt)
  | .missing => .ok none
  | .bytes count => do
    return some ⟨← byteCount count, none⟩
  | .bytesAndChecksum count checksum => do
    let checksum ← checksumOf checksum
    return some ⟨← byteCount count, some checksum⟩
  | .acknowledged => .error (.protocol "OK where a byte count was expected")

def TransferReply.writeReceipt (reply : TransferReply) (length : UInt64) :
    Except DmaError TransferReceipt :=
  match reply with
  | .acknowledged => .ok ⟨length, none⟩
  | reply => do
    match ← reply.receipt with
    | none => .error (.protocol "a write reported no transfer")
    | some receipt =>
      if receipt.bytesWritten ≠ length then
        .error (.integrity s!"server took {receipt.bytesWritten} of {length} bytes")
      else .ok receipt

end Dma
