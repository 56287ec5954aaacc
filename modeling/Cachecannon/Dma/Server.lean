import Cachecannon.Dma.Client
import Mathlib.Logic.Function.Basic

/-!
# A connection and its server

The server module and the provider's card that accesses the client's memory for it are not under
`src/`: a `Server` is whatever answers commands, and `Server.Documented` is what the client relies
on, in the words of `src/dma/command.rs` and `src/dma/client.rs`. A `SessionConfig` is what one
connection of a run has, and `session` a run of it: the client's operations one after the other,
each answered before the next. `specStep` is what they are for: a store of values by key.
-/

namespace Dma

/-! ## The commands, as they are documented -/

/-- What a command asks for. -/
inductive ServerOp
  | hello (address : Option (List UInt8))
  | set (key : List UInt8) (region : Advertisement) (length : UInt64) (checksum : Option UInt32)
  | get (key : List UInt8) (region : Advertisement) (capacity : UInt64) (checksum : Bool)
  | delete (key : List UInt8)
  deriving Repr, DecidableEq

/-- The layouts that the doc comments of `hello`, `set` and `get` give, on a connection that a hello
bound to the address. The numbers are decimal and an address is hex; a region of valkey-large-object
has the address of the connection, and it sends a checksum with every read. -/
inductive Asks : Dialect → Option (List UInt8) → List (List UInt8) → ServerOp → Prop
  | vdmaHello {bound : Option (List UInt8)} :
      Asks .vdma bound [Text.encode "DMA.HELLO".toList] (.hello none)
  | vdmaSet {bound : Option (List UInt8)} {address rkey start length key : List UInt8}
      {region : Advertisement} {n : UInt64}
      (hregion : Advertisement.fromFields [address, rkey, start] = .ok region)
      (hlength : parseAscii length = .ok n) :
      Asks .vdma bound [Text.encode "DMA.SET".toList, address, rkey, start, length, key]
        (.set key region n none)
  | vdmaSetChecked {bound : Option (List UInt8)} {address rkey start length key crc : List UInt8}
      {region : Advertisement} {n : UInt64} {checksum : UInt32}
      (hregion : Advertisement.fromFields [address, rkey, start] = .ok region)
      (hlength : parseAscii length = .ok n) (hcrc : parseAscii crc = .ok checksum.toUInt64) :
      Asks .vdma bound [Text.encode "DMA.SET".toList, address, rkey, start, length, key, crc]
        (.set key region n (some checksum))
  | vdmaGet {bound : Option (List UInt8)} {address rkey start capacity key : List UInt8}
      {region : Advertisement} {n : UInt64}
      (hregion : Advertisement.fromFields [address, rkey, start] = .ok region)
      (hcapacity : parseAscii capacity = .ok n) :
      Asks .vdma bound [Text.encode "DMA.GET".toList, address, rkey, start, capacity, key]
        (.get key region n false)
  | vdmaGetChecked {bound : Option (List UInt8)}
      {address rkey start capacity key crcFlag : List UInt8} {region : Advertisement} {n : UInt64}
      (hregion : Advertisement.fromFields [address, rkey, start] = .ok region)
      (hcapacity : parseAscii capacity = .ok n) :
      Asks .vdma bound
        [Text.encode "DMA.GET".toList, address, rkey, start, capacity, key, crcFlag]
        (.get key region n true)
  | largeHello {bound : Option (List UInt8)} {hex address : List UInt8}
      (haddress : decodeHex hex = .ok address) :
      Asks .largeObj bound [Text.encode "BLOB.RDMA_HELLO".toList, hex] (.hello (some address))
  | largeSet {address rkey start length key : List UInt8} {k a n : UInt64}
      (hrkey : parseAscii rkey = .ok k) (hstart : parseAscii start = .ok a)
      (hlength : parseAscii length = .ok n) :
      Asks .largeObj (some address)
        [Text.encode "BLOB.RDMA_SET".toList, key, length, rkey, start, length]
        (.set key ⟨address, k, a⟩ n none)
  | largeGet {address rkey start capacity key : List UInt8} {k a n : UInt64}
      (hrkey : parseAscii rkey = .ok k) (hstart : parseAscii start = .ok a)
      (hcapacity : parseAscii capacity = .ok n) :
      Asks .largeObj (some address)
        [Text.encode "BLOB.RDMA_GET".toList, key, rkey, start, capacity]
        (.get key ⟨address, k, a⟩ n true)
  | delete {dialect : Dialect} {bound : Option (List UInt8)} {key : List UInt8} :
      Asks dialect bound [Text.encode "DEL".toList, key] (.delete key)

/-- The region is of the buffer's registration, `start` bytes in. -/
def DmaBuffer.Locates (buffer : DmaBuffer) (region : Advertisement) (start : Nat) : Prop :=
  region.address = buffer.advertisement.address ∧
    region.remoteKey = buffer.advertisement.remoteKey ∧
    region.remoteAddress.toNat = buffer.advertisement.remoteAddress.toNat + start

/-! ## The server -/

abbrev Store := List UInt8 → Option (List UInt8)

/-- The other party, with states `σ`: the server of a connection together with the card that reads
and writes the memory of the client for it. -/
structure Server (σ : Type) where
  /-- The answer to a hello. -/
  greet : σ → List (List UInt8) → σ × Except Worker.RedisError Value
  /-- The answer to a command of a client with this value pool and this buffer, and what the buffer
  is after it. -/
  answer : σ → DmaBuffer → DmaBuffer → List (List UInt8) →
    σ × DmaBuffer × Except Worker.RedisError Value
  /-- What it holds under each key. -/
  store : σ → Store
  /-- The address that a hello bound to the connection. -/
  bound : σ → Option (List UInt8)

/-- The reply to a write of `length` bytes: vdma's is a byte count, largeobj says `OK`. -/
def writeReply (dialect : Dialect) (length : UInt64) : Value :=
  match dialect with
  | .vdma => .integer length.toInt64
  | .largeObj => .simpleString (Text.encode "OK".toList)

/-- The reply to a hello: the addresses that the server may initiate from, in hex. -/
def addressesReply (addresses : List (List UInt8)) : Value :=
  .array (addresses.map fun address => .bulkString (Text.encode (encodeHex address)))

section

variable (crc : List UInt8 → UInt32)

/-- The reply to a read of `value`: a byte count, or `[bytes, crc32c]`. -/
def readReply (value : List UInt8) (checksum : Bool) : Value :=
  let count : Value := .integer (Int64.ofNat value.length)
  if checksum then .array [count, .integer (Int64.ofNat (crc value).toNat)] else count

variable {σ : Type}

/-- What the client relies on. Each field is what the comments under `src/dma` say of a command:
an accepted hello binds the connection to the client's address; a write takes the bytes of the
region, unless a checksum that came with it is another one's; a read writes the value at the start
of the region, whatever else it does to the buffer, and answers with a nil for an absent key; a
`DEL` counts the keys that existed. -/
structure Server.Documented (dialect : Dialect) (server : Server σ) : Prop where
  hello : ∀ {s : σ} {command : List (List UInt8)} {address : Option (List UInt8)},
    Asks dialect (server.bound s) command (.hello address) → server.bound s = none →
    ∃ s' addresses, server.greet s command = (s', .ok (addressesReply addresses)) ∧
      addresses ≠ [] ∧ server.bound s' = address ∧ server.store s' = server.store s
  set : ∀ (source buffer : DmaBuffer) {s : σ} {command : List (List UInt8)} {key : List UInt8}
    {region : Advertisement} {length : UInt64} {checksum : Option UInt32} {memory : List UInt8}
    {start : Nat},
    Asks dialect (server.bound s) command (.set key region length checksum) →
    source.backing = .shared memory → source.Locates region start →
    start + length.toNat ≤ memory.length → memory.length < 2 ^ 63 →
    (∀ c, checksum = some c → crc ((memory.drop start).take length.toNat) = c) →
    ∃ s', server.answer s source buffer command = (s', buffer, .ok (writeReply dialect length)) ∧
      server.bound s' = server.bound s ∧ server.store s' =
        Function.update (server.store s) key (some ((memory.drop start).take length.toNat))
  missing : ∀ (source buffer : DmaBuffer) {s : σ} {command : List (List UInt8)} {key : List UInt8}
    {region : Advertisement} {capacity : UInt64} {checksum : Bool},
    Asks dialect (server.bound s) command (.get key region capacity checksum) →
    server.store s key = none →
    ∃ s', server.answer s source buffer command = (s', buffer, .ok .null) ∧
      server.bound s' = server.bound s ∧ server.store s' = server.store s
  get : ∀ (source buffer : DmaBuffer) {s : σ} {command : List (List UInt8)} {key : List UInt8}
    {region : Advertisement} {capacity : UInt64} {checksum : Bool} {value memory : List UInt8}
    {start : Nat},
    Asks dialect (server.bound s) command (.get key region capacity checksum) →
    server.store s key = some value → buffer.backing = .owned memory →
    buffer.Locates region start → start + capacity.toNat ≤ memory.length →
    value.length ≤ capacity.toNat →
    ∃ s' memory', server.answer s source buffer command =
        (s', { buffer with backing := .owned memory' }, .ok (readReply crc value checksum)) ∧
      memory'.length = memory.length ∧ (memory'.drop start).take value.length = value ∧
      server.bound s' = server.bound s ∧ server.store s' = server.store s
  delete : ∀ (source buffer : DmaBuffer) {s : σ} {command : List (List UInt8)} {key : List UInt8},
    Asks dialect (server.bound s) command (.delete key) →
    ∃ s', server.answer s source buffer command =
        (s', buffer, .ok (.integer (if (server.store s key).isSome then 1 else 0))) ∧
      server.bound s' = server.bound s ∧
      server.store s' = Function.update (server.store s) key none

/-! ## A connection's operations -/

/-- `SessionOp`, with the key it is about and, for a write, where in the pool its value starts. -/
inductive SessionOp
  | get (key : List UInt8)
  | set (key : List UInt8) (start : UInt64)
  | delete (key : List UInt8)
  deriving Repr, DecidableEq

/-- What an operation came back with. -/
inductive SessionOutcome
  | read (value : Option (List UInt8))
  | written (count : UInt64)
  | deleted (existed : Bool)
  | failed (error : Error)
  | panicked
  deriving Repr, DecidableEq

/-- A connection of a run: the pool and the buffer of `capacity` bytes stand where they were
allocated and have the keys that the provider gave them; a value is `valueLen` bytes of the pool. -/
structure SessionConfig where
  fabric : DmaFabric
  dialect : Dialect
  checksum : Bool
  pool : List UInt8
  poolPointer : UInt64
  poolKey : UInt64
  capacity : UInt64
  bufferPointer : UInt64
  bufferKey : UInt64
  valueLen : UInt64
  /-- An allocation is no larger than `isize::MAX` and does not wrap. -/
  pool_lt : pool.length < 2 ^ 63
  pool_fits : poolPointer.toNat + pool.length ≤ 2 ^ 64
  capacity_lt : capacity.toNat < 2 ^ 63
  /-- What `validate` checks of `values.length` and `buffer_capacity`. -/
  valueLen_pos : 0 < valueLen.toNat
  valueLen_le : valueLen.toNat ≤ capacity.toNat
  valueLen_le_pool : valueLen.toNat ≤ pool.length

structure SessionState (σ : Type) where
  server : σ
  client : DmaClient
  source : DmaBuffer

variable (server : Server σ)

/-- The reply to a request, with what the server did to the buffer. -/
def SessionState.request (s : SessionState σ) (request : List (List UInt8)) :
    SessionState σ × Except Worker.RedisError Value :=
  let (state, buffer, reply) := server.answer s.server s.source s.client.buffer request
  (⟨state, { s.client with buffer }, s.source⟩, reply)

/-- `get`, and the value that the receipt says is in the buffer. -/
def SessionState.runGet (s : SessionState σ) (key : List UInt8) :
    SessionState σ × SessionOutcome :=
  match s.client.getCommand key with
  | .error error => (s, .failed (.dma error))
  | .ok command =>
    let (s, reply) := s.request server command.request
    match s.client.getReply crc reply with
    | none => (s, .panicked)
    | some (.error error) => (s, .failed error)
    | some (.ok none) => (s, .read none)
    | some (.ok (some receipt)) =>
      match s.client.buffer.asHost.bind (Text.slice · 0 receipt.bytesWritten.toNat) with
      | none => (s, .panicked)
      | some value => (s, .read (some value))

/-- `set_registered` from a window of the pool, as `run_transfers` calls it. -/
def SessionConfig.runSet (cfg : SessionConfig) (s : SessionState σ) (key : List UInt8)
    (start : UInt64) : SessionState σ × SessionOutcome :=
  match Text.slice cfg.pool start.toNat (start.toNat + cfg.valueLen.toNat) with
  | none => (s, .panicked)
  | some value =>
    match s.source.slice start cfg.valueLen with
    | none => (s, .failed (.dma (.fabric "the value pool is not registered on this worker")))
    | some window =>
      match s.client.setCommand key window (s.client.writeChecksum crc value) with
      | .error error => (s, .failed (.dma error))
      | .ok command =>
        let (s, reply) := s.request server command.request
        match setReply window.length reply with
        | .error error => (s, .failed error)
        | .ok receipt => (s, .written receipt.bytesWritten)

/-- `delete`: a plain `DEL` on the control connection. -/
def SessionState.runDelete (s : SessionState σ) (key : List UInt8) :
    SessionState σ × SessionOutcome :=
  let (s, reply) := s.request server [Text.encode "DEL".toList, key]
  match reply with
  | .ok (.integer n) => (s, .deleted (n = 1))
  | .ok _ => (s, .failed (.resp .other))
  | .error error => (s, .failed (.resp error))

def SessionConfig.runOp (cfg : SessionConfig) (s : SessionState σ) :
    SessionOp → SessionState σ × SessionOutcome
  | .get key => s.runGet crc server key
  | .set key start => cfg.runSet crc server s key start
  | .delete key => s.runDelete server key

/-- `open_fabric`'s registration of the pool, then `connect`: the hello, and the registration of
the buffer. -/
def SessionConfig.connect (cfg : SessionConfig) (state : σ) :
    Except Error (SessionState σ) := do
  let source ← (cfg.fabric.registerShared cfg.poolPointer cfg.poolKey cfg.pool).mapError .dma
  let (state, reply) := server.greet state (Dma.hello cfg.dialect cfg.fabric.address).request
  let reply ← reply.mapError .resp
  let _addresses ← (helloReply reply).mapError .dma
  let memory := List.replicate cfg.capacity.toNat 0
  let buffer ← (cfg.fabric.register cfg.bufferPointer cfg.bufferKey memory).mapError .dma
  return ⟨state, ⟨cfg.fabric, buffer, cfg.dialect, cfg.checksum⟩, source⟩

def SessionConfig.session (cfg : SessionConfig) :
    SessionState σ → List SessionOp → SessionState σ × List SessionOutcome
  | s, [] => (s, [])
  | s, op :: ops =>
    let (s, outcome) := cfg.runOp crc server s op
    let (s, outcomes) := cfg.session s ops
    (s, outcome :: outcomes)

end

/-! ## What a session is for -/

def SessionConfig.value (cfg : SessionConfig) (start : UInt64) : List UInt8 :=
  (cfg.pool.drop start.toNat).take cfg.valueLen.toNat

def SessionConfig.specStep (cfg : SessionConfig) (store : Store) :
    SessionOp → Store × SessionOutcome
  | .get key => (store, .read (store key))
  | .set key start => (Function.update store key (some (cfg.value start)), .written cfg.valueLen)
  | .delete key => (Function.update store key none, .deleted (store key).isSome)

def SessionConfig.spec (cfg : SessionConfig) : Store → List SessionOp → Store × List SessionOutcome
  | store, [] => (store, [])
  | store, op :: ops =>
    let (store, outcome) := cfg.specStep store op
    let (store, outcomes) := cfg.spec store ops
    (store, outcome :: outcomes)

end Dma
