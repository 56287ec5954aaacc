import Cachecannon.Dma.Proof.Client
import Cachecannon.Dma.Proof.Command

/-!
# A connection's transfers are operations on a store

Against any server that does what is documented, the pool and the buffer of a connection stay where
they were registered (`SessionInv`): a write names the window of the pool that holds the value, a
read fills the front of the buffer. Over a session the outcomes and what the server stores are those
of the store of values by key (`session_refines_store`).
-/

namespace Dma

/-! ## Regions -/

theorem checkedAdd_eq_some {a b c : UInt64} :
    checkedAdd a b = some c ↔ c.toNat = a.toNat + b.toNat := by
  have hlt := c.toNat_lt
  rw [checkedAdd]
  split
  · rename_i hfits
    rw [Option.some.injEq, ← UInt64.toNat_inj, UInt64.toNat_add, Nat.mod_eq_of_lt hfits, eq_comm]
  · simp only [reduceCtorEq, false_iff]
    omega

theorem slice_eq_some {buffer : DmaBuffer} {start length : UInt64} {window : RegionWindow} :
    buffer.slice start length = some window ↔
      start.toNat + length.toNat ≤ buffer.length.toNat ∧ window.length = length ∧
        ∃ remoteAddress : UInt64,
          remoteAddress.toNat = buffer.advertisement.remoteAddress.toNat + start.toNat ∧
          window.advertisement = { buffer.advertisement with remoteAddress } := by
  obtain ⟨advertisement, windowLength⟩ := window
  simp only [DmaBuffer.slice, Option.bind_eq_bind, Option.bind_eq_some_iff, checkedAdd_eq_some]
  constructor
  · rintro ⟨stop, hstop, h⟩
    split at h
    · cases h
    · rename_i hle
      simp only [Option.bind_eq_some_iff, checkedAdd_eq_some, Option.some.injEq,
        RegionWindow.mk.injEq] at h
      obtain ⟨remoteAddress, haddress, rfl, rfl⟩ := h
      have hle := UInt64.le_iff_toNat_le.1 (UInt64.not_lt.1 hle)
      exact ⟨by omega, rfl, remoteAddress, haddress, rfl⟩
  · rintro ⟨hle, rfl, remoteAddress, haddress, rfl⟩
    have hlt := buffer.length.toNat_lt
    have hstop : (UInt64.ofNat (start.toNat + windowLength.toNat)).toNat =
        start.toNat + windowLength.toNat :=
      UInt64.toNat_ofNat_of_lt' (hle.trans_lt hlt)
    refine ⟨UInt64.ofNat (start.toNat + windowLength.toNat), hstop, ?_⟩
    rw [if_neg (UInt64.not_lt.2 (UInt64.le_iff_toNat_le.2 (by omega)))]
    simp only [Option.bind_eq_some_iff, checkedAdd_eq_some]
    exact ⟨remoteAddress, haddress, rfl⟩

/-- A window that a buffer gives out is where it was asked for. -/
theorem locates_of_slice {buffer : DmaBuffer} {start length : UInt64} {window : RegionWindow}
    (h : buffer.slice start length = some window) :
    buffer.Locates window.advertisement start.toNat := by
  obtain ⟨-, -, remoteAddress, haddress, hwindow⟩ := slice_eq_some.1 h
  rw [hwindow]
  exact ⟨rfl, rfl, haddress⟩

theorem locates_self (buffer : DmaBuffer) : buffer.Locates buffer.advertisement 0 :=
  ⟨rfl, rfl, rfl⟩

/-! ## What a connection has registered -/

namespace SessionConfig

variable (cfg : SessionConfig)

def registeredPool : DmaBuffer where
  advertisement := cfg.fabric.advertisement cfg.poolPointer cfg.poolKey
  length := UInt64.ofNat cfg.pool.length
  backing := .shared cfg.pool

def registeredBuffer (memory : List UInt8) : DmaBuffer where
  advertisement := cfg.fabric.advertisement cfg.bufferPointer cfg.bufferKey
  length := cfg.capacity
  backing := .owned memory

def clientAt (memory : List UInt8) : DmaClient where
  fabric := cfg.fabric
  buffer := cfg.registeredBuffer memory
  dialect := cfg.dialect
  checksum := cfg.checksum

@[simp] theorem clientAt_buffer (memory : List UInt8) :
    (cfg.clientAt memory).buffer = cfg.registeredBuffer memory := rfl

@[simp] theorem registeredBuffer_length (memory : List UInt8) :
    (cfg.registeredBuffer memory).length = cfg.capacity := rfl

@[simp] theorem registeredBuffer_asHost (memory : List UInt8) :
    (cfg.registeredBuffer memory).asHost = some memory := rfl

/-- The buffer is what `register` gives for as many bytes. -/
theorem register_buffer {memory : List UInt8} (hmemory : memory.length = cfg.capacity.toNat) :
    cfg.fabric.register cfg.bufferPointer cfg.bufferKey memory =
      .ok (cfg.registeredBuffer memory) := by
  have hpos := cfg.valueLen_pos
  have hle := cfg.valueLen_le
  rw [DmaFabric.register, if_neg (by omega), hmemory, UInt64.ofNat_toNat]
  rfl

theorem mapped_registeredBuffer {memory : List UInt8}
    (hmemory : memory.length = cfg.capacity.toNat) : (cfg.registeredBuffer memory).Mapped :=
  mapped_of_register (hmemory ▸ cfg.capacity.toNat_lt) (cfg.register_buffer hmemory)

/-- A value of the pool. -/
def inPool (op : SessionOp) : Prop :=
  match op with
  | .set _ start => start.toNat + cfg.valueLen.toNat ≤ cfg.pool.length
  | .get _ | .delete _ => True

instance : DecidablePred cfg.inPool
  | .set _ _ => inferInstanceAs (Decidable (_ ≤ _))
  | .get _ | .delete _ => inferInstanceAs (Decidable True)

theorem toNat_poolLength : (UInt64.ofNat cfg.pool.length).toNat = cfg.pool.length :=
  UInt64.toNat_ofNat_of_lt' (cfg.pool_lt.trans (by decide))

theorem slice_value {start : UInt64} (h : start.toNat + cfg.valueLen.toNat ≤ cfg.pool.length) :
    Text.slice cfg.pool start.toNat (start.toNat + cfg.valueLen.toNat) =
      some (cfg.value start) := by
  rw [Text.slice, if_pos ⟨by omega, h⟩, value, List.drop_take, Nat.add_sub_cancel_left]

theorem length_value {start : UInt64} (h : start.toNat + cfg.valueLen.toNat ≤ cfg.pool.length) :
    (cfg.value start).length = cfg.valueLen.toNat := by
  rw [value, List.length_take, List.length_drop]
  omega

/-- The window of a value exists, and is where the value is in the pool. -/
theorem exists_window {start : UInt64} (h : start.toNat + cfg.valueLen.toNat ≤ cfg.pool.length) :
    ∃ window, cfg.registeredPool.slice start cfg.valueLen = some window ∧
      window.length = cfg.valueLen ∧ window.advertisement.address = cfg.fabric.address ∧
      cfg.registeredPool.Locates window.advertisement start.toNat := by
  have hpos := cfg.valueLen_pos
  have hpool := cfg.pool_fits
  have hbase : cfg.registeredPool.advertisement.remoteAddress.toNat ≤ cfg.poolPointer.toNat := by
    simp only [registeredPool, DmaFabric.advertisement]
    split
    · exact le_rfl
    · exact Nat.zero_le _
  let remoteAddress := cfg.registeredPool.advertisement.remoteAddress + start
  have haddress : remoteAddress.toNat =
      cfg.registeredPool.advertisement.remoteAddress.toNat + start.toNat := by
    rw [UInt64.toNat_add, Nat.mod_eq_of_lt (by omega)]
  have hslice : cfg.registeredPool.slice start cfg.valueLen =
      some ⟨{ cfg.registeredPool.advertisement with remoteAddress }, cfg.valueLen⟩ := by
    rw [slice_eq_some]
    refine ⟨?_, rfl, remoteAddress, haddress, rfl⟩
    simp only [registeredPool, cfg.toNat_poolLength]
    exact h
  exact ⟨_, hslice, rfl, rfl, locates_of_slice hslice⟩

end SessionConfig

/-! ## Steps -/

variable {σ : Type}

/-- Between operations: the registrations are where they were, the connection is bound to the
client's address where the dialect needs it, and the values fit the buffer. -/
structure SessionInv (cfg : SessionConfig) (server : Server σ) (store : Store)
    (s : SessionState σ) : Prop where
  source : s.source = cfg.registeredPool
  client : ∃ memory, memory.length = cfg.capacity.toNat ∧ s.client = cfg.clientAt memory
  bound : cfg.dialect = .largeObj → server.bound s.server = some cfg.fabric.address
  stored : server.store s.server = store
  fits : ∀ key value, store key = some value → value.length ≤ cfg.capacity.toNat

section Step

variable {crc : List UInt8 → UInt32} {cfg : SessionConfig} {server : Server σ} {store : Store}
  {s : SessionState σ}

theorem SessionInv.completes (h : SessionInv cfg server store s) {region : Advertisement}
    (haddress : region.address = cfg.fabric.address) :
    Completes (server.bound s.server) cfg.dialect region := by
  intro hdialect
  rw [haddress]
  exact h.bound hdialect

/-- An operation changes the memory of the buffer and what the server stores. -/
theorem SessionInv.next (h : SessionInv cfg server store s) {store' : Store} {state : σ}
    {memory : List UInt8} (hmemory : memory.length = cfg.capacity.toNat)
    (hbound : server.bound state = server.bound s.server) (hstored : server.store state = store')
    (hfits : ∀ key value, store' key = some value → value.length ≤ cfg.capacity.toNat) :
    SessionInv cfg server store' ⟨state, cfg.clientAt memory, s.source⟩ where
  source := h.source
  client := ⟨memory, hmemory, rfl⟩
  bound hdialect := hbound.trans (h.bound hdialect)
  stored := hstored
  fits := hfits

/-- A stored value that fits leaves all of them fitting. -/
theorem SessionInv.fits_update (h : SessionInv cfg server store s) (key : List UInt8)
    {value? : Option (List UInt8)}
    (hvalue : ∀ value, value? = some value → value.length ≤ cfg.capacity.toNat) :
    ∀ key' value, Function.update store key value? key' = some value →
      value.length ≤ cfg.capacity.toNat := by
  intro key' value hstored
  by_cases hkey : key' = key
  · rw [hkey, Function.update_self] at hstored
    exact hvalue value hstored
  · rw [Function.update_of_ne hkey] at hstored
    exact h.fits key' value hstored

theorem runDelete_step (hserver : server.Documented crc cfg.dialect)
    (h : SessionInv cfg server store s) (key : List UInt8) :
    ∃ s', s.runDelete server key = (s', .deleted (store key).isSome) ∧
      SessionInv cfg server (Function.update store key none) s' := by
  obtain ⟨memory, hmemory, hclient⟩ := h.client
  have hasks : Asks cfg.dialect (server.bound s.server) [Text.encode "DEL".toList, key]
      (.delete key) := .delete
  obtain ⟨state, hanswer, hbound, hstored⟩ := hserver.delete s.source s.client.buffer hasks
  rw [h.stored] at hstored
  refine ⟨_, ?_, h.next hmemory hbound hstored (h.fits_update key nofun)⟩
  rw [SessionState.runDelete, SessionState.request, hanswer]
  simp only [h.stored, hclient]
  cases store key <;> rfl

/-! ### Writes -/

/-- A command without a checksum can be made, and in vdma one with a checksum. -/
theorem exists_set {dialect : Dialect} (region : Advertisement) (key : List UInt8)
    (length : UInt64) {checksum : Option UInt32} (h : checksum.isSome → dialect = .vdma) :
    ∃ command, set dialect region key length ⟨checksum⟩ = .ok command := by
  cases checksum with
  | none => cases dialect <;> exact ⟨_, rfl⟩
  | some checksum =>
    rw [h rfl]
    exact ⟨_, rfl⟩

theorem writeChecksum_isSome {client : DmaClient} {value : List UInt8}
    (h : (client.writeChecksum crc value).isSome) : client.dialect = .vdma := by
  rw [DmaClient.writeChecksum] at h
  split at h
  · rename_i hboth
    exact hboth.2
  · cases h

/-- A checksum that is sent is the value's. -/
theorem writeChecksum_eq {client : DmaClient} {value : List UInt8} {c : UInt32}
    (h : client.writeChecksum crc value = some c) : crc value = c := by
  rw [DmaClient.writeChecksum] at h
  split at h
  · exact Option.some.inj h
  · cases h

theorem toInt_toInt64 {n : UInt64} (h : n.toNat < 2 ^ 63) : n.toInt64.toInt = n.toNat := by
  calc n.toInt64.toInt
      = (Int64.ofNat n.toNat).toInt := by rw [← UInt64.toInt64_ofNat', UInt64.ofNat_toNat]
    _ = n.toNat := Int64.toInt_ofNat_of_lt h

theorem setReply_writeReply (dialect : Dialect) {length : UInt64} (h : length.toNat < 2 ^ 63) :
    setReply length (.ok (writeReply dialect length)) = .ok ⟨length, none⟩ := by
  rw [setReply_ok_iff]
  refine ⟨_, rfl, rfl, ?_⟩
  cases dialect with
  | largeObj => exact .inl ⟨rfl, rfl⟩
  | vdma =>
    exact .inr (.count (toInt_toInt64 h) rfl)

theorem runSet_step (hserver : server.Documented crc cfg.dialect)
    (h : SessionInv cfg server store s) (key : List UInt8) {start : UInt64}
    (hstart : start.toNat + cfg.valueLen.toNat ≤ cfg.pool.length) :
    ∃ s', cfg.runSet crc server s key start = (s', .written cfg.valueLen) ∧
      SessionInv cfg server (Function.update store key (some (cfg.value start))) s' := by
  obtain ⟨memory, hmemory, hclient⟩ := h.client
  obtain ⟨window, hslice, hlength, haddress, hlocates⟩ := cfg.exists_window hstart
  have hlt : cfg.valueLen.toNat < 2 ^ 63 := cfg.valueLen_le.trans_lt cfg.capacity_lt
  have hdialect : s.client.dialect = cfg.dialect := by
    rw [hclient]
    rfl
  obtain ⟨command, hcommand⟩ := exists_set window.advertisement key window.length
    writeChecksum_isSome
  have hset : s.client.setCommand key window (s.client.writeChecksum crc (cfg.value start)) =
      .ok command := hcommand
  rw [hdialect, hlength] at hcommand
  -- what the server is asked to read is the window of the value
  have hasks := asks_set (h.completes haddress) hcommand
  have hbacking : s.source.backing = .shared cfg.pool := by
    rw [h.source]
    rfl
  rw [← h.source] at hlocates
  obtain ⟨state, hanswer, hbound, hstored⟩ := hserver.set _ s.client.buffer hasks
    hbacking hlocates hstart cfg.pool_lt fun c hc => writeChecksum_eq hc
  rw [h.stored] at hstored
  have hvalue : ∀ value, some (cfg.value start) = some value →
      value.length ≤ cfg.capacity.toNat := by
    rintro _ ⟨⟩
    rw [cfg.length_value hstart]
    exact cfg.valueLen_le
  refine ⟨_, ?_, h.next hmemory hbound hstored (h.fits_update key hvalue)⟩
  simp only [SessionConfig.runSet, cfg.slice_value hstart, h.source, hslice, hset]
  rw [SessionState.request, hanswer]
  simp only [hlength, setReply_writeReply _ hlt, hclient, h.source]

/-! ### Reads -/

theorem exists_get (dialect : Dialect) (region : Advertisement) (key : List UInt8)
    (length : UInt64) (options : DmaGetOptions) :
    ∃ command, get dialect region key length options = .ok command := by
  cases dialect with
  | vdma =>
    rw [get]
    split <;> exact ⟨_, rfl⟩
  | largeObj => exact ⟨_, rfl⟩

/-- The receipt of a value of which `checksum` tells whether the server sends a checksum. -/
def receiptOf (crc : List UInt8 → UInt32) (value : List UInt8) (checksum : Bool) :
    TransferReceipt where
  bytesWritten := UInt64.ofNat value.length
  checksum := if checksum then some (crc value) else none

theorem reports_readReply {value : List UInt8} (h : value.length < 2 ^ 63) (checksum : Bool) :
    Reports (readReply crc value checksum) (receiptOf crc value checksum) := by
  have hcount : (Int64.ofNat value.length).toInt = (UInt64.ofNat value.length).toNat := by
    rw [Int64.toInt_ofNat_of_lt h, UInt64.toNat_ofNat_of_lt' (h.trans (by decide))]
  cases checksum with
  | false => exact .count hcount rfl
  | true =>
    have hcrc := (crc value).toNat_lt
    exact .checked hcount rfl (Int64.toInt_ofNat_of_lt (hcrc.trans (by decide)))

/-- A value at the front of the buffer is what the client reads. -/
theorem getReply_landed {memory value : List UInt8} (hmemory : memory.length = cfg.capacity.toNat)
    (hshort : value.length ≤ cfg.capacity.toNat) (hlanded : memory.take value.length = value)
    (checksum : Bool) :
    (cfg.clientAt memory).getReply crc (.ok (readReply crc value checksum)) =
      some (.ok (some (receiptOf crc value checksum))) := by
  have hlt := cfg.capacity_lt
  have hlen : (receiptOf crc value checksum).bytesWritten.toNat = value.length :=
    UInt64.toNat_ofNat_of_lt' (hshort.trans_lt (hlt.trans (by decide)))
  rw [getReply_some_iff crc (cfg.mapped_registeredBuffer hmemory)]
  refine ⟨_, rfl, reports_readReply (hshort.trans_lt hlt) checksum, ?_, ?_⟩
  · rw [UInt64.le_iff_toNat_le, hlen]
    exact hshort
  · rintro found _ - hfound ⟨⟩
    rw [hlen, hlanded]
    cases checksum with
    | false => cases hfound
    | true => exact Option.some.inj hfound

theorem runGet_step (hserver : server.Documented crc cfg.dialect)
    (h : SessionInv cfg server store s) (key : List UInt8) :
    ∃ s', s.runGet crc server key = (s', .read (store key)) ∧ SessionInv cfg server store s' := by
  obtain ⟨memory, hmemory, hclient⟩ := h.client
  obtain ⟨command, hcommand⟩ := exists_get cfg.dialect (cfg.registeredBuffer memory).advertisement
    key cfg.capacity ⟨cfg.checksum⟩
  have hget : s.client.getCommand key = .ok command := by
    rw [hclient]
    exact hcommand
  have hasks := asks_get (h.completes rfl) hcommand
  generalize (DmaGetOptions.checksum ⟨cfg.checksum⟩ ||
    decide (cfg.dialect = .largeObj)) = flag at hasks
  cases hstored : store key with
  | none =>
    obtain ⟨state, hanswer, hbound, hsame⟩ := hserver.missing s.source s.client.buffer
      hasks (by rw [h.stored, hstored])
    refine ⟨_, ?_, h.next hmemory hbound (hsame.trans h.stored) h.fits⟩
    simp only [SessionState.runGet, hget]
    rw [SessionState.request, hanswer, hclient]
    rfl
  | some value =>
    have hfits := h.fits key value hstored
    obtain ⟨state, memory', hanswer, hmemory', hlanded, hbound, hsame⟩ :=
      hserver.get s.source _ hasks (by rw [h.stored, hstored])
        (rfl : (cfg.registeredBuffer memory).backing = .owned memory) (locates_self _)
        (by omega) hfits
    rw [List.drop_zero] at hlanded
    rw [hmemory] at hmemory'
    have hanswer : server.answer s.server s.source (cfg.registeredBuffer memory) command.request =
        (state, cfg.registeredBuffer memory', .ok (readReply crc value flag)) := hanswer
    have hlen : (receiptOf crc value flag).bytesWritten.toNat = value.length :=
      UInt64.toNat_ofNat_of_lt' (hfits.trans_lt (cfg.capacity_lt.trans (by decide)))
    have hfront : Text.slice memory' 0 (receiptOf crc value flag).bytesWritten.toNat =
        some value := by
      rw [hlen, Text.slice, if_pos ⟨Nat.zero_le _, hmemory' ▸ hfits⟩, hlanded, List.drop_zero]
    refine ⟨_, ?_, h.next hmemory' hbound (hsame.trans h.stored) h.fits⟩
    simp only [SessionState.runGet, hget]
    rw [SessionState.request, hclient, cfg.clientAt_buffer, hanswer]
    have hafter : { cfg.clientAt memory with buffer := cfg.registeredBuffer memory' } =
        cfg.clientAt memory' := rfl
    simp only [hafter, getReply_landed hmemory' hfits hlanded flag,
      SessionConfig.registeredBuffer_asHost, Option.bind_some, hfront]

/-- One operation: its outcome and the store after it are those of the store by key. -/
theorem runOp_step (hserver : server.Documented crc cfg.dialect)
    (h : SessionInv cfg server store s) {op : SessionOp} (hop : cfg.inPool op) :
    ∃ s', cfg.runOp crc server s op = (s', (cfg.specStep store op).2) ∧
      SessionInv cfg server (cfg.specStep store op).1 s' := by
  cases op with
  | get key => exact runGet_step hserver h key
  | set key start => exact runSet_step hserver h key hop
  | delete key => exact runDelete_step hserver h key

/-- A session, by induction on its operations. -/
theorem session_run (hserver : server.Documented crc cfg.dialect)
    (h : SessionInv cfg server store s) {ops : List SessionOp}
    (hops : ∀ op ∈ ops, cfg.inPool op) :
    ∃ s', cfg.session crc server s ops = (s', (cfg.spec store ops).2) ∧
      SessionInv cfg server (cfg.spec store ops).1 s' := by
  induction ops generalizing store s with
  | nil => exact ⟨s, rfl, h⟩
  | cons op ops ih =>
    obtain ⟨s₁, hrun, h₁⟩ := runOp_step hserver h (hops op List.mem_cons_self)
    obtain ⟨s₂, hsession, h₂⟩ := ih h₁ fun op hop => hops op (List.mem_cons_of_mem _ hop)
    refine ⟨s₂, ?_, h₂⟩
    simp only [SessionConfig.session, hrun, hsession]
    rfl

end Step

/-! ## The hello -/

theorem helloReply_addresses {addresses : List (List UInt8)} (h : addresses ≠ []) :
    helloReply (addressesReply addresses) = .ok addresses := by
  have hmap : ∀ addresses : List (List UInt8),
      (addresses.map fun a => Value.bulkString (Text.encode (encodeHex a))).mapM helloAddress =
        Except.ok addresses := by
    intro addresses
    induction addresses with
    | nil => rfl
    | cons a addresses ih =>
      simp [helloAddress, decodeHex_encodeHex, Except.mapError, ih, bind, Except.bind, pure,
        Except.pure]
  rw [addressesReply, helloReply, if_neg (by simpa using h)]
  exact hmap addresses

theorem connect_run {crc : List UInt8 → UInt32} {cfg : SessionConfig} {server : Server σ}
    (hserver : server.Documented crc cfg.dialect) {state : σ} (hunbound : server.bound state = none)
    (hfits : ∀ key value, server.store state key = some value →
      value.length ≤ cfg.capacity.toNat) :
    ∃ s, cfg.connect server state = .ok s ∧ SessionInv cfg server (server.store state) s := by
  have hpos := cfg.valueLen_pos
  have hpool := cfg.valueLen_le_pool
  have hsource : cfg.fabric.registerShared cfg.poolPointer cfg.poolKey cfg.pool =
      .ok cfg.registeredPool := by
    rw [DmaFabric.registerShared, if_neg (by omega)]
    rfl
  obtain ⟨state', addresses, hgreet, hsome, hbound, hstored⟩ :=
    hserver.hello (asks_hello _ cfg.dialect cfg.fabric.address) hunbound
  have hmemory : (List.replicate cfg.capacity.toNat (0 : UInt8)).length = cfg.capacity.toNat :=
    List.length_replicate
  refine ⟨⟨state', cfg.clientAt (List.replicate cfg.capacity.toNat 0), cfg.registeredPool⟩, ?_,
    rfl, ⟨_, hmemory, rfl⟩, fun hdialect => ?_, hstored, hfits⟩
  · simp only [SessionConfig.connect, hsource, hgreet, Except.mapError, bind, Except.bind,
      helloReply_addresses hsome, cfg.register_buffer hmemory]
    rfl
  · rw [hbound, hdialect]
    rfl

/-- What a command with a documented layout asks for. -/
def ServerOp.read (bound : Option (List UInt8)) :
    Dialect → List (List UInt8) → Option ServerOp
  | .vdma, [name] => if name = Text.encode "DMA.HELLO".toList then some (.hello none) else none
  | .vdma, [name, key] => if name = Text.encode "DEL".toList then some (.delete key) else none
  | .vdma, name :: address :: rkey :: start :: length :: key :: options => do
    let region ← (Advertisement.fromFields [address, rkey, start]).toOption
    let n ← (parseAscii length).toOption
    if name = Text.encode "DMA.GET".toList then some (.get key region n !options.isEmpty)
    else
      match options with
      | [] => some (.set key region n none)
      | crc :: _ => some (.set key region n (← (parseAscii crc).toOption).toUInt32)
  | .largeObj, [name, argument] =>
    if name = Text.encode "DEL".toList then some (.delete argument)
    else (decodeHex argument).toOption.map fun address => .hello (some address)
  | .largeObj, [_, key, rkey, start, capacity] => do
    let region : Advertisement :=
      ⟨← bound, ← (parseAscii rkey).toOption, ← (parseAscii start).toOption⟩
    return .get key region (← (parseAscii capacity).toOption) true
  | .largeObj, [_, key, length, rkey, start, _] => do
    let region : Advertisement :=
      ⟨← bound, ← (parseAscii rkey).toOption, ← (parseAscii start).toOption⟩
    return .set key region (← (parseAscii length).toOption) none
  | _, _ => none

/-- The names of commands differ on the wire. -/
theorem encode_name_ne {s t : String} (h : s ≠ t) :
    Text.encode s.toList ≠ Text.encode t.toList := by
  intro heq
  exact h (String.toList_inj.1 (Text.encode_injective heq))

theorem read_of_asks {dialect : Dialect} {bound : Option (List UInt8)}
    {command : List (List UInt8)} {op : ServerOp} (h : Asks dialect bound command op) :
    ServerOp.read bound dialect command = some op := by
  have hset : Text.encode "DMA.SET".toList ≠ Text.encode "DMA.GET".toList :=
    encode_name_ne (by decide)
  have hhello : Text.encode "BLOB.RDMA_HELLO".toList ≠ Text.encode "DEL".toList :=
    encode_name_ne (by decide)
  cases h with
  | vdmaHello => simp [ServerOp.read]
  | vdmaSet hregion hlength =>
    simp only [ServerOp.read, hregion, hlength, Except.toOption, Option.bind_eq_bind,
      Option.bind_some, if_neg hset]
  | vdmaSetChecked hregion hlength hcrc =>
    simp only [ServerOp.read, hregion, hlength, hcrc, Except.toOption, Option.bind_eq_bind,
      Option.bind_some, if_neg hset, UInt32.toUInt32_toUInt64]
  | vdmaGet hregion hcapacity => simp [ServerOp.read, hregion, hcapacity, Except.toOption]
  | vdmaGetChecked hregion hcapacity => simp [ServerOp.read, hregion, hcapacity, Except.toOption]
  | largeHello haddress =>
    simp only [ServerOp.read, haddress, Except.toOption, if_neg hhello, Option.map_some]
  | largeSet hrkey hstart hlength => simp [ServerOp.read, hrkey, hstart, hlength, Except.toOption]
  | largeGet hrkey hstart hcapacity =>
    simp [ServerOp.read, hrkey, hstart, hcapacity, Except.toOption]
  | delete => cases dialect <;> simp [ServerOp.read]

/-- Where in the buffer's registration a region starts. -/
def DmaBuffer.start (buffer : DmaBuffer) (region : Advertisement) : Nat :=
  region.remoteAddress.toNat - buffer.advertisement.remoteAddress.toNat

theorem DmaBuffer.Locates.start_eq {buffer : DmaBuffer} {region : Advertisement} {start : Nat}
    (h : buffer.Locates region start) : buffer.start region = start := by
  rw [DmaBuffer.start, h.2.2, Nat.add_sub_cancel_left]

section

variable (crc : List UInt8 → UInt32)

def refusal : Except Worker.RedisError Value := .error (.redis "ERR".toList)

/-- A server with the address `aa` that moves the bytes of the commands it can read. Its state is
the bound address and the store. -/
def plainServer (dialect : Dialect) : Server (Option (List UInt8) × Store) where
  greet s command :=
    match ServerOp.read s.1 dialect command, s.1 with
    | some (.hello address), none => ((address, s.2), .ok (addressesReply [[0xaa]]))
    | _, _ => (s, refusal)
  answer s source buffer command :=
    match ServerOp.read s.1 dialect command with
    | some (.set key region length checksum) =>
      match source.backing with
      | .shared memory =>
        let value := (memory.drop (source.start region)).take length.toNat
        if checksum.all (crc value = ·) then
          ((s.1, Function.update s.2 key (some value)), buffer, .ok (writeReply dialect length))
        else (s, buffer, refusal)
      | _ => (s, buffer, refusal)
    | some (.get key region capacity checksum) =>
      match s.2 key, buffer.backing with
      | none, _ => (s, buffer, .ok .null)
      | some value, .owned memory =>
        if value.length ≤ capacity.toNat then
          let start := buffer.start region
          let memory := memory.take start ++ (value ++ memory.drop (start + value.length))
          (s, { buffer with backing := .owned memory }, .ok (readReply crc value checksum))
        else (s, buffer, refusal)
      | _, _ => (s, buffer, refusal)
    | some (.delete key) =>
      ((s.1, Function.update s.2 key none), buffer,
        .ok (.integer (if (s.2 key).isSome then 1 else 0)))
    | _ => (s, buffer, refusal)
  store := Prod.snd
  bound := Prod.fst

theorem plainServer_documented (dialect : Dialect) :
    (plainServer crc dialect).Documented crc dialect where
  hello {s command address} hasks hunbound := by
    refine ⟨(address, s.2), [[0xaa]], ?_, List.cons_ne_nil _ _, rfl, rfl⟩
    have hread := read_of_asks hasks
    simp only [plainServer] at hread hunbound ⊢
    rw [hread, hunbound]
  set source buffer {s command key region length checksum memory start}
      hasks hbacking hlocates hfits _ hchecksum := by
    refine ⟨(s.1, Function.update s.2 key (some ((memory.drop start).take length.toNat))), ?_,
      rfl, rfl⟩
    have hread := read_of_asks hasks
    have hsame : checksum.all (crc ((memory.drop start).take length.toNat) = ·) = true := by
      cases checksum with
      | none => rfl
      | some c => simpa using hchecksum c rfl
    simp only [plainServer] at hread ⊢
    rw [hread]
    simp only [hbacking, hlocates.start_eq, hsame, if_true]
  missing source buffer {s command key region capacity checksum} hasks hmissing := by
    refine ⟨s, ?_, rfl, rfl⟩
    have hread := read_of_asks hasks
    simp only [plainServer] at hread hmissing ⊢
    rw [hread]
    simp only [hmissing]
  get source buffer {s command key region capacity checksum value memory start}
      hasks hstored hbacking hlocates hroom hfits := by
    refine ⟨s, memory.take start ++ (value ++ memory.drop (start + value.length)), ?_, ?_, ?_,
      rfl, rfl⟩
    · have hread := read_of_asks hasks
      simp only [plainServer] at hread hstored ⊢
      rw [hread]
      simp only [hstored, hbacking, hlocates.start_eq, if_pos hfits]
    · simp only [List.length_append, List.length_take, List.length_drop]
      omega
    · have hlength : (memory.take start).length = start := by
        rw [List.length_take]
        omega
      rw [List.drop_left' hlength, List.take_left' rfl]
  delete source buffer {s command key} hasks := by
    refine ⟨(s.1, Function.update s.2 key none), ?_, rfl, rfl⟩
    have hread := read_of_asks hasks
    simp only [plainServer] at hread ⊢
    rw [hread]

end

/-- A pool of four bytes and values of two. -/
def twoByteValues : SessionConfig where
  fabric := ⟨[0xfe, 0x01], true⟩
  dialect := .largeObj
  checksum := true
  pool := [1, 2, 3, 4]
  poolPointer := 4096
  poolKey := 7
  capacity := 2
  bufferPointer := 8192
  bufferKey := 8
  valueLen := 2
  pool_lt := by decide
  pool_fits := by decide
  capacity_lt := by decide
  valueLen_pos := by decide
  valueLen_le := by decide
  valueLen_le_pool := by decide

end Dma
