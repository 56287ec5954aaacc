import Cachecannon.Dma.Client

/-!
# Which replies a transfer accepts

Whatever the server answers, a receipt is the one that the reply states (`Reports`), it fits the
buffer, and with verification on the bytes that it covers have the checksum of the reply. A write is
done only when all of it was taken.
-/

namespace Dma

/-- What a reply states: a count of bytes, or one with the checksum of the bytes. -/
inductive Reports : Value → TransferReceipt → Prop
  | count {n : Int64} {receipt : TransferReceipt} (hcount : n.toInt = receipt.bytesWritten.toNat)
      (hchecksum : receipt.checksum = none) : Reports (.integer n) receipt
  | checked {n c : Int64} {checksum : UInt32} {receipt : TransferReceipt}
      (hcount : n.toInt = receipt.bytesWritten.toNat) (hchecksum : receipt.checksum = some checksum)
      (hsame : c.toInt = checksum.toNat) : Reports (.array [.integer n, .integer c]) receipt

/-! ## Range checks -/

theorem byteCount_ok_iff {count : Int64} {n : UInt64} :
    byteCount count = .ok n ↔ count.toInt = n.toNat := by
  have hlt := Int64.toInt_lt count
  rw [byteCount]
  split
  · rename_i hpos
    have hfits : count.toInt.toNat < 2 ^ 64 := by omega
    rw [Except.ok.injEq, ← UInt64.toNat_inj, UInt64.toNat_ofNat_of_lt' hfits]
    omega
  · simp only [reduceCtorEq, false_iff]
    omega

theorem checksumOf_ok_iff {count : Int64} {c : UInt32} :
    checksumOf count = .ok c ↔ count.toInt = c.toNat := by
  have hlt := c.toNat_lt
  rw [checksumOf]
  split
  · rename_i hrange
    have hfits : count.toInt.toNat < 2 ^ 32 := by omega
    rw [Except.ok.injEq, ← UInt32.toNat_inj, UInt32.toNat_ofNat_of_lt' hfits]
    omega
  · simp only [reduceCtorEq, false_iff]
    omega

/-! ## Receipts -/

def okStatus : Value := .simpleString (Text.encode "OK".toList)

/-- The reply that a transfer reply was destructured from. -/
def TransferReply.origin : TransferReply → Value
  | .missing => .null
  | .bytes count => .integer count
  | .bytesAndChecksum count checksum => .array [.integer count, .integer checksum]
  | .acknowledged => okStatus

theorem parse_ok_iff {reply : Value} {transfer : TransferReply} :
    parse reply = .ok transfer ↔ reply = transfer.origin := by
  constructor
  · intro h
    unfold parse at h
    split at h
    · cases h; rfl
    · cases h; rfl
    · split at h
      · rename_i hstatus
        cases h
        rw [hstatus]
        rfl
      · cases h
    · cases h; rfl
    · cases h
    · cases h
    · cases h
  · rintro rfl
    cases transfer <;> simp [TransferReply.origin, okStatus, parse]

theorem bind_parse_ok_iff {α : Type} {reply : Value} {f : TransferReply → Except DmaError α}
    {a : α} :
    (parse reply).bind f = .ok a ↔ ∃ transfer, reply = transfer.origin ∧ f transfer = .ok a := by
  constructor
  · intro h
    cases hparse : parse reply with
    | error error => rw [hparse] at h; cases h
    | ok transfer =>
      rw [hparse] at h
      exact ⟨transfer, parse_ok_iff.1 hparse, h⟩
  · rintro ⟨transfer, horigin, h⟩
    rw [parse_ok_iff.2 horigin]
    exact h

theorem receipt_some_iff {transfer : TransferReply} {receipt : TransferReceipt} :
    transfer.receipt = .ok (some receipt) ↔ Reports transfer.origin receipt := by
  obtain ⟨n, c⟩ := receipt
  constructor
  · intro h
    cases transfer with
    | missing => cases h
    | acknowledged => cases h
    | bytes count =>
      cases hn : byteCount count with
      | error error => simp [TransferReply.receipt, hn, bind, Except.bind] at h
      | ok n =>
        simp [TransferReply.receipt, hn, bind, Except.bind, pure, Except.pure] at h
        obtain ⟨rfl, rfl⟩ := h
        exact .count (byteCount_ok_iff.1 hn) rfl
    | bytesAndChecksum count checksum =>
      cases hc : checksumOf checksum with
      | error error => simp [TransferReply.receipt, hc, bind, Except.bind] at h
      | ok c =>
        cases hn : byteCount count with
        | error error => simp [TransferReply.receipt, hc, hn, bind, Except.bind] at h
        | ok n =>
          simp [TransferReply.receipt, hc, hn, bind, Except.bind, pure, Except.pure] at h
          obtain ⟨rfl, rfl⟩ := h
          exact .checked (byteCount_ok_iff.1 hn) rfl (checksumOf_ok_iff.1 hc)
  · intro h
    cases transfer with
    | missing => cases h
    | acknowledged => cases h
    | bytes count =>
      obtain ⟨hcount, rfl⟩ := h
      simp [TransferReply.receipt, byteCount_ok_iff.2 hcount, bind, Except.bind, pure, Except.pure]
    | bytesAndChecksum count checksum =>
      cases h with
      | checked hcount hchecksum hsame =>
        cases hchecksum
        simp [TransferReply.receipt, byteCount_ok_iff.2 hcount, checksumOf_ok_iff.2 hsame, bind,
          Except.bind, pure, Except.pure]

theorem receipt_none_iff {transfer : TransferReply} :
    transfer.receipt = .ok none ↔ transfer.origin = .null := by
  cases transfer with
  | missing => simp [TransferReply.receipt, TransferReply.origin]
  | acknowledged => simp [TransferReply.receipt, TransferReply.origin, okStatus]
  | bytes count =>
    cases hn : byteCount count <;>
    simp [TransferReply.receipt, TransferReply.origin, hn, bind, Except.bind, pure, Except.pure]
  | bytesAndChecksum count checksum =>
    cases hc : checksumOf checksum <;> cases hn : byteCount count <;>
    simp [TransferReply.receipt, TransferReply.origin, hc, hn, bind, Except.bind, pure, Except.pure]

theorem Reports.origin {reply : Value} {receipt : TransferReceipt} (h : Reports reply receipt) :
    ∃ transfer : TransferReply, reply = transfer.origin := by
  cases h with
  | count hcount hchecksum => exact ⟨.bytes _, rfl⟩
  | checked hcount hchecksum hsame => exact ⟨.bytesAndChecksum _ _, rfl⟩

theorem readReceipt_some_iff {reply : Value} {receipt : TransferReceipt} :
    (parse reply).bind TransferReply.receipt = .ok (some receipt) ↔ Reports reply receipt := by
  rw [bind_parse_ok_iff]
  constructor
  · rintro ⟨transfer, rfl, h⟩
    exact receipt_some_iff.1 h
  · intro h
    obtain ⟨transfer, rfl⟩ := h.origin
    exact ⟨transfer, rfl, receipt_some_iff.2 h⟩

theorem Reports.unique {reply : Value} {a b : TransferReceipt} (ha : Reports reply a)
    (hb : Reports reply b) : a = b := by
  have hboth := readReceipt_some_iff.2 ha
  rw [readReceipt_some_iff.2 hb] at hboth
  exact (Option.some.inj (Except.ok.inj hboth)).symm

theorem readReceipt_none_iff {reply : Value} :
    (parse reply).bind TransferReply.receipt = .ok none ↔ reply = .null := by
  rw [bind_parse_ok_iff]
  constructor
  · rintro ⟨transfer, rfl, h⟩
    exact receipt_none_iff.1 h
  · rintro rfl
    exact ⟨.missing, rfl, rfl⟩

/-- Any other reply to a write has to state the whole length. -/
theorem writeReceipt_of_ne {transfer : TransferReply} (h : transfer ≠ .acknowledged)
    (length : UInt64) (receipt : TransferReceipt) :
    transfer.writeReceipt length = .ok receipt ↔
      transfer.receipt = .ok (some receipt) ∧ receipt.bytesWritten = length := by
  rw [TransferReply.writeReceipt]
  · cases transfer.receipt with
    | error error => simp [bind, Except.bind]
    | ok found =>
      cases found with
      | none => simp [bind, Except.bind]
      | some found =>
        simp only [bind, Except.bind, Except.ok.injEq, Option.some.injEq]
        split
        · rename_i hne
          simp only [reduceCtorEq, false_iff]
          rintro ⟨rfl, hlen⟩
          exact hne hlen
        · rename_i heq
          rw [Except.ok.injEq]
          exact ⟨fun h => ⟨h, h ▸ not_not.1 heq⟩, fun h => h.1⟩
  · exact h

theorem writeReceipt_ok_iff {transfer : TransferReply} {length : UInt64}
    {receipt : TransferReceipt} :
    transfer.writeReceipt length = .ok receipt ↔
      receipt.bytesWritten = length ∧
        (transfer.origin = okStatus ∧ receipt.checksum = none ∨
          Reports transfer.origin receipt) := by
  by_cases hack : transfer = .acknowledged
  · subst hack
    have hno : ¬ Reports okStatus receipt := by rintro ⟨⟩
    obtain ⟨n, c⟩ := receipt
    simp only [TransferReply.writeReceipt, TransferReply.origin, Except.ok.injEq, hno, or_false,
      true_and, TransferReceipt.mk.injEq]
    exact and_congr eq_comm eq_comm
  · have hno : transfer.origin ≠ okStatus := by
      cases transfer <;> simp_all [TransferReply.origin, okStatus]
    rw [writeReceipt_of_ne hack, receipt_some_iff, and_comm]
    simp [hno]

/-! ## What a client accepts -/

section Client

variable (crc : List UInt8 → UInt32) (client : DmaClient)

/-- The buffer's memory, when it is the host's, is all of it. -/
def DmaBuffer.Mapped (buffer : DmaBuffer) : Prop :=
  ∀ memory, buffer.asHost = some memory → memory.length = buffer.length.toNat

/-- What `register` gives has all of its bytes mapped. -/
theorem mapped_of_register {fabric : DmaFabric} {pointer key : UInt64} {memory : List UInt8}
    {buffer : DmaBuffer} (hlen : memory.length < 2 ^ 64)
    (h : fabric.register pointer key memory = .ok buffer) : buffer.Mapped := by
  rw [DmaFabric.register] at h
  split at h
  · cases h
  · cases h
    intro found hfound
    cases hfound
    exact (UInt64.toNat_ofNat_of_lt' hlen).symm

/-- The bytes that a receipt covers have its checksum, where the client looks. -/
def DmaClient.Verified (receipt : TransferReceipt) : Prop :=
  ∀ checksum memory, client.checksum = true → receipt.checksum = some checksum →
    client.buffer.asHost = some memory → crc (memory.take receipt.bytesWritten.toNat) = checksum

/-- A receipt that fits the buffer is verified without a panic. -/
theorem verify_cases {client : DmaClient} (hmapped : client.buffer.Mapped)
    {receipt : TransferReceipt} (hfits : receipt.bytesWritten ≤ client.buffer.length) :
    (client.verify crc receipt = some (.ok ()) ∧ client.Verified crc receipt) ∨
      ((∃ error, client.verify crc receipt = some (.error error)) ∧
        ¬ client.Verified crc receipt) := by
  unfold DmaClient.verify DmaClient.Verified
  split
  · rename_i expected hon hexpected
    cases hhost : client.buffer.asHost with
    | none => simp
    | some landed =>
      have hslice : Text.slice landed 0 receipt.bytesWritten.toNat =
          some (landed.take receipt.bytesWritten.toNat) := by
        have hle := UInt64.le_iff_toNat_le.1 hfits
        rw [← hmapped landed hhost] at hle
        simp [Text.slice, hle]
      by_cases hsame : crc (landed.take receipt.bytesWritten.toNat) = expected
      · left
        simp [hslice, hsame, hexpected]
      · right
        simp [hslice, hsame, hexpected, hon]
  · rename_i hoff
    left
    refine ⟨rfl, fun checksum memory hon hchecksum _ => ?_⟩
    exact absurd hchecksum (hoff checksum hon)

/-- How a read ends. -/
inductive ReadEnd (client : DmaClient) (reply : Except Worker.RedisError Value) :
    Option (Except Error (Option TransferReceipt)) → Prop
  | unanswered {error : Worker.RedisError} (hreply : reply = .error error) :
      ReadEnd client reply (some (.error (.resp error)))
  | missing (hreply : reply = .ok .null) : ReadEnd client reply (some (.ok none))
  | accepted {value : Value} {receipt : TransferReceipt} (hreply : reply = .ok value)
      (hreports : Reports value receipt) (hfits : receipt.bytesWritten ≤ client.buffer.length)
      (hverified : client.Verified crc receipt) :
      ReadEnd client reply (some (.ok (some receipt)))
  | refused {value : Value} {error : DmaError} (hreply : reply = .ok value) (hnull : value ≠ .null)
      (hbad : ∀ receipt, Reports value receipt →
        receipt.bytesWritten ≤ client.buffer.length → ¬ client.Verified crc receipt) :
      ReadEnd client reply (some (.error (.dma error)))

theorem getReply_end {client : DmaClient} (hmapped : client.buffer.Mapped)
    (reply : Except Worker.RedisError Value) :
    ReadEnd crc client reply (client.getReply crc reply) := by
  cases hreply : reply with
  | error error => exact .unanswered rfl
  | ok value =>
    cases hreceipt : (parse value).bind TransferReply.receipt with
    | error error =>
      have hnone : ∀ r, (parse value).bind TransferReply.receipt ≠ .ok r := by simp [hreceipt]
      simp only [DmaClient.getReply, hreceipt]
      refine .refused rfl (fun hnull => ?_) fun receipt hreports => ?_
      · exact absurd (readReceipt_none_iff.2 hnull) (hnone _)
      · exact absurd (readReceipt_some_iff.2 hreports) (hnone _)
    | ok found =>
      cases found with
      | none =>
        simp only [DmaClient.getReply, hreceipt]
        rw [readReceipt_none_iff.1 hreceipt]
        exact .missing rfl
      | some receipt =>
        have hreports := readReceipt_some_iff.1 hreceipt
        have hnull : value ≠ .null := by
          rintro rfl
          cases hreports
        simp only [DmaClient.getReply, hreceipt]
        split
        · rename_i hlt
          refine .refused rfl hnull fun receipt' hreports' hfits => ?_
          rw [hreports'.unique hreports] at hfits
          exact absurd hlt (UInt64.not_lt.2 hfits)
        · rename_i hle
          have hfits := UInt64.not_lt.1 hle
          rcases verify_cases crc hmapped hfits with ⟨hok, hverified⟩ | ⟨⟨error, herror⟩, hnot⟩
          · rw [hok]
            exact .accepted rfl hreports hfits hverified
          · rw [herror]
            refine .refused rfl hnull fun receipt' hreports' _ => ?_
            rw [hreports'.unique hreports]
            exact hnot

theorem getReply_some_iff {client : DmaClient} (hmapped : client.buffer.Mapped)
    (reply : Except Worker.RedisError Value) (receipt : TransferReceipt) :
    client.getReply crc reply = some (.ok (some receipt)) ↔
      ∃ value, reply = .ok value ∧ Reports value receipt ∧
        receipt.bytesWritten ≤ client.buffer.length ∧ client.Verified crc receipt := by
  have hend := getReply_end crc hmapped reply
  constructor
  · intro h
    rw [h] at hend
    cases hend with
    | accepted hreply hreports hfits hverified => exact ⟨_, hreply, hreports, hfits, hverified⟩
  · rintro ⟨value, rfl, hreports, hfits, hverified⟩
    generalize client.getReply crc (.ok value) = result at hend ⊢
    cases hend with
    | unanswered hreply => cases hreply
    | missing hreply =>
      cases hreply
      cases hreports
    | accepted hreply hreports' =>
      cases hreply
      rw [hreports'.unique hreports]
    | refused hreply _ hbad =>
      cases hreply
      exact absurd hverified (hbad receipt hreports hfits)

theorem getReply_none_iff {client : DmaClient} (hmapped : client.buffer.Mapped)
    (reply : Except Worker.RedisError Value) :
    client.getReply crc reply = some (.ok none) ↔ reply = .ok .null := by
  have hend := getReply_end crc hmapped reply
  constructor
  · intro h
    rw [h] at hend
    cases hend with
    | missing hreply => exact hreply
  · rintro rfl
    rfl

end Client

theorem setReply_ok_iff {reply : Except Worker.RedisError Value} {length : UInt64}
    {receipt : TransferReceipt} :
    setReply length reply = .ok receipt ↔
      ∃ value, reply = .ok value ∧ receipt.bytesWritten = length ∧
        ((value = okStatus ∧ receipt.checksum = none) ∨ Reports value receipt) := by
  cases reply with
  | error error => simp [setReply]
  | ok value =>
    have hmap : setReply length (.ok value) = .ok receipt ↔
        (parse value).bind (·.writeReceipt length) = .ok receipt := by
      rw [setReply]
      cases (parse value).bind (·.writeReceipt length) <;> simp [Except.mapError]
    rw [hmap, bind_parse_ok_iff]
    constructor
    · rintro ⟨transfer, rfl, h⟩
      exact ⟨_, rfl, writeReceipt_ok_iff.1 h⟩
    · rintro ⟨value', hvalue, hlen, hreported⟩
      cases hvalue
      have horigin : ∃ transfer : TransferReply, value = transfer.origin := by
        rcases hreported with ⟨rfl, -⟩ | hreports
        · exact ⟨.acknowledged, rfl⟩
        · exact hreports.origin
      obtain ⟨transfer, rfl⟩ := horigin
      exact ⟨transfer, rfl, writeReceipt_ok_iff.2 ⟨hlen, hreported⟩⟩

/-- Whatever the server answers to a transfer, a read never indexes past the buffer; it returns a
receipt exactly when the reply states one that fits the buffer and whose checksum the bytes in the
buffer have, if it is to be verified, and a miss exactly for a null; a write returns one exactly
when the reply states that all of the window was taken. -/
theorem transfer_accepted (crc : List UInt8 → UInt32) (client : DmaClient)
    (hmapped : client.buffer.Mapped) (reply : Except Worker.RedisError Value) :
    client.getReply crc reply ≠ none ∧
    (client.getReply crc reply = some (.ok none) ↔ reply = .ok .null) ∧
    (∀ receipt, client.getReply crc reply = some (.ok (some receipt)) ↔
      ∃ value, reply = .ok value ∧ Reports value receipt ∧
        receipt.bytesWritten ≤ client.buffer.length ∧ client.Verified crc receipt) ∧
    (∀ length receipt, setReply length reply = .ok receipt ↔
      ∃ value, reply = .ok value ∧ receipt.bytesWritten = length ∧
        ((value = okStatus ∧ receipt.checksum = none) ∨ Reports value receipt)) := by
  refine ⟨fun hnone => ?_, getReply_none_iff crc hmapped reply,
    getReply_some_iff crc hmapped reply, fun length receipt => setReply_ok_iff⟩
  have hend := getReply_end crc hmapped reply
  rw [hnone] at hend
  cases hend

/-- A client with a buffer of two bytes. -/
def twoByteClient : DmaClient where
  fabric := ⟨[0xfe], false⟩
  buffer := ⟨⟨[0xfe], 1, 0⟩, 2, .owned [1, 2]⟩
  dialect := .vdma
  checksum := true

theorem transfer_accepted_twoByteClient :
    ¬ ∃ receipt, twoByteClient.getReply (fun _ => 5) (.ok (.integer 3)) =
      some (.ok (some receipt)) := by
  rintro ⟨receipt, h⟩
  have hregister : twoByteClient.fabric.register 0 1 [1, 2] = .ok twoByteClient.buffer := rfl
  have hmapped := mapped_of_register (by decide) hregister
  obtain ⟨-, -, hread, -⟩ :=
    transfer_accepted (fun _ => 5) twoByteClient hmapped (.ok (.integer 3))
  obtain ⟨value, hvalue, hreports, hfits, -⟩ := (hread receipt).1 h
  cases hvalue
  cases hreports with
  | count hcount =>
    have hthree : (3 : Int64).toInt = 3 := rfl
    have htwo : receipt.bytesWritten.toNat ≤ 2 := UInt64.le_iff_toNat_le.1 hfits
    omega

end Dma
