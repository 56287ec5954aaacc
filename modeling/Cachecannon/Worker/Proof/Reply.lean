import Cachecannon.Worker.Reply
import Mathlib.Data.Nat.Bitwise

/-!
# The two reply mappings agree

`map_resp_op` and `map_respmeta` classify a reply with different types and the same outcome
(`mapRespOp_eq`). A key id below `2 ^ 61` leaves the marker bits of its `user_data` alone, so the
markers read back as they were set, and so does the id under the mask (`userData_decodes`).
-/

namespace Worker

/-! ## One reply, two descriptions -/

@[simp] def CompletedOp.kind : CompletedOp → OpKind
  | .get .. => .get
  | .set .. => .set
  | .del .. => .del

@[simp] def CompletedOp.userData : CompletedOp → UInt64
  | .get _ userData _ | .set _ userData _ | .del _ userData _ => userData

@[simp] def CompletedOp.latencyNs : CompletedOp → UInt64
  | .get _ _ latencyNs | .set _ _ latencyNs | .del _ _ latencyNs => latencyNs

/-- The op succeeded. -/
@[simp] def CompletedOp.isOk : CompletedOp → Bool
  | .get (.ok _) .. | .set (.ok _) .. | .del (.ok _) .. => true
  | .get (.error _) .. | .set (.error _) .. | .del (.error _) .. => false

/-- A `GET` that returned a value. -/
@[simp] def CompletedOp.hasValue : CompletedOp → Bool
  | .get (.ok (some _)) .. => true
  | _ => false

/-- The text of an error that the server sent. -/
@[simp] def CompletedOp.errorText : CompletedOp → Option (List Char)
  | .get (.error (.redis msg)) .. | .set (.error (.redis msg)) .. | .del (.error (.redis msg)) .. =>
    some msg
  | _ => none

/-- The two describe the same reply. -/
structure Corresponds (op : CompletedOp) (reply : RespMeta) : Prop where
  kind : reply.kind = op.kind
  userData : reply.userData = op.userData
  latencyNs : reply.latencyNs = op.latencyNs
  success : reply.success = op.isOk
  valueLen : reply.valueLen.isSome = op.hasValue
  error : reply.error = op.errorText

variable (crc32c : List UInt8 → BitVec 32) {op : CompletedOp} {reply : RespMeta}

theorem mapRespOp_eq (reader : ValueReader) (h : Corresponds op reply) :
    (mapRespOp crc32c op reader).1 = mapRespmeta reply := by
  obtain ⟨kind, success, valueLen, error, userData, latencyNs⟩ := reply
  obtain ⟨hkind, huser, hlatency, hsuccess, hvalue, herror⟩ := h
  simp only at hkind huser hlatency hsuccess hvalue herror
  subst hkind huser hlatency hsuccess herror
  cases op with
  | get result userData latencyNs =>
    rcases result with (msg | _) | _ | value <;> simp_all [mapRespOp, mapRespmeta]
  | set result userData latencyNs =>
    rcases result with (msg | _) | _ <;> simp_all [mapRespOp, mapRespmeta]
  | del result userData latencyNs =>
    rcases result with (msg | _) | _ <;> simp_all [mapRespOp, mapRespmeta]

/-! ## What a request carries -/

theorem and_marker_of_lt {keyId k : Nat} (h : keyId < 2 ^ 61) (hk : 61 ≤ k) :
    keyId &&& 2 ^ k = 0 := by
  have hbit : keyId.testBit k = false :=
    Nat.testBit_lt_two_pow (h.trans_le (Nat.pow_le_pow_right (by decide) hk))
  rw [Nat.and_two_pow, hbit]
  simp

theorem toNat_or_and (x marker y : UInt64) :
    ((x ||| marker) &&& y).toNat = (x.toNat &&& y.toNat) ||| (marker.toNat &&& y.toNat) := by
  rw [UInt64.toNat_and, UInt64.toNat_or, Nat.and_or_distrib_right]

theorem toNat_ofNat_of_lt {keyId : Nat} (h : keyId < 2 ^ 61) : (UInt64.ofNat keyId).toNat = keyId :=
  UInt64.toNat_ofNat_of_lt' (h.trans (by decide))

section KeyId

variable {keyId : Nat} (h : keyId < 2 ^ 61) (marker : UInt64)
include h

/-- Under the mask the key id is left, whatever the markers. -/
theorem masked_eq (hmarker : marker.toNat &&& userDataIdMask.toNat = 0) :
    ((UInt64.ofNat keyId ||| marker) &&& userDataIdMask).toNat = keyId := by
  rw [toNat_or_and, hmarker, toNat_ofNat_of_lt h]
  exact (Nat.or_zero _).trans (Nat.and_two_pow_sub_one_of_lt_two_pow h)

/-- A marker bit is set exactly if it is among those put in. -/
theorem marked_eq {bit : UInt64} {k : Nat} (hbit : bit.toNat = 2 ^ k) (hk : 61 ≤ k) :
    ((UInt64.ofNat keyId ||| marker) &&& bit != 0) = (marker &&& bit != 0) := by
  have hand : ((UInt64.ofNat keyId ||| marker) &&& bit).toNat = (marker &&& bit).toNat := by
    rw [toNat_or_and, toNat_ofNat_of_lt h, hbit, and_marker_of_lt h hk, UInt64.toNat_and, hbit]
    exact Nat.zero_or _
  rw [UInt64.toNat_inj.1 hand]

end KeyId

/-- The markers a request carries. -/
def FiredOp.marker : FiredOp → UInt64
  | .get | .set | .del => 0
  | .backfill => backfillMarker
  | .prefill => prefillMarker
  | .append => appendMarker

/-- The request carries its key id. -/
def FiredOp.hasKey (fire : FiredOp) : Bool := fire ≠ .set && fire ≠ .del

theorem FiredOp.userData_eq {fire : FiredOp} (hkey : fire.hasKey) (keyId : Nat) :
    fire.userData keyId = UInt64.ofNat keyId ||| fire.marker := by
  cases fire with
  | get => simp [FiredOp.userData, FiredOp.marker]
  | set | del => cases hkey
  | backfill | prefill | append => rfl

theorem FiredOp.masked (fire : FiredOp) (hkey : fire.hasKey) {keyId : Nat} (h : keyId < 2 ^ 61) :
    (fire.userData keyId &&& userDataIdMask).toNat = keyId := by
  rw [fire.userData_eq hkey]
  exact masked_eq h fire.marker (by cases fire <;> rfl)

/-- Each marker bit of a request reads back as it was set. -/
theorem FiredOp.marked {fire : FiredOp} {keyId k : Nat} {bit : UInt64} (h : keyId < 2 ^ 61)
    (hbit : bit.toNat = 2 ^ k) (hk : 61 ≤ k) :
    (fire.userData keyId &&& bit != 0) = (fire.marker &&& bit != 0) := by
  by_cases hkey : fire.hasKey
  · rw [fire.userData_eq hkey]
    exact marked_eq h fire.marker hbit hk
  · cases fire <;> first | rfl | exact absurd rfl hkey

/-- What the result of a request says it was for. -/
theorem mapRespmeta_fire {fire : FiredOp} {keyId : Nat} (h : keyId < 2 ^ 61)
    (hkind : reply.kind = fire.kind) (huser : reply.userData = fire.userData keyId) :
    (mapRespmeta reply).backfill = (fire == .backfill) ∧
      (mapRespmeta reply).prefill = (fire == .prefill) ∧
      (mapRespmeta reply).append = (fire == .append) ∧
      (mapRespmeta reply).keyId =
        if fire = .get ∨ fire = .prefill ∨ fire = .append then some keyId else none := by
  have hbackfill := fire.marked h (k := 63) (show backfillMarker.toNat = _ from rfl) (by decide)
  have hprefill := fire.marked h (k := 62) (show prefillMarker.toNat = _ from rfl) (by decide)
  have happend := fire.marked h (k := 61) (show appendMarker.toNat = _ from rfl) (by decide)
  simp only [mapRespmeta, hkind, huser]
  cases fire with
  | get => simp [FiredOp.kind, FiredOp.masked .get rfl h]
  | del => simp [FiredOp.kind]
  | set | backfill =>
    simp only [FiredOp.kind, hbackfill, hprefill, happend]
    exact ⟨rfl, rfl, rfl, rfl⟩
  | prefill =>
    simp only [FiredOp.kind, hbackfill, hprefill, happend, FiredOp.masked .prefill rfl h]
    exact ⟨rfl, rfl, rfl, rfl⟩
  | append =>
    simp only [FiredOp.kind, hbackfill, hprefill, happend, FiredOp.masked .append rfl h]
    exact ⟨rfl, rfl, rfl, rfl⟩

/-- **The two mappings.** Of a reply described either way they return the same result. The markers
of a request read back as set, and the key id of a `GET`, a prefill and an append `SET`; a backfill
`SET` keeps its key id under the mask only. -/
theorem reply_mappings_agree :
    (∀ op reply reader, Corresponds op reply →
      (mapRespOp crc32c op reader).1 = mapRespmeta reply) ∧
    ∀ (fire : FiredOp) (keyId : Nat) (reply : RespMeta), fire.hasKey → keyId < 2 ^ 61 →
      reply.kind = fire.kind → reply.userData = fire.userData keyId →
        (mapRespmeta reply).backfill = (fire == .backfill) ∧
        (mapRespmeta reply).prefill = (fire == .prefill) ∧
        (mapRespmeta reply).append = (fire == .append) ∧
        (mapRespmeta reply).keyId =
          (if fire = .get ∨ fire = .prefill ∨ fire = .append then some keyId else none) ∧
        (reply.userData &&& userDataIdMask).toNat = keyId := by
  refine ⟨fun op reply reader h => mapRespOp_eq crc32c reader h,
    fun fire keyId reply hkey h hkind huser => ?_⟩
  obtain ⟨hbackfill, hprefill, happend, hkeyId⟩ := mapRespmeta_fire h hkind huser
  exact ⟨hbackfill, hprefill, happend, hkeyId, huser ▸ fire.masked hkey h⟩

/-- A `MOVED` answer to a `GET`, either way. -/
theorem reply_mappings_agree_moved :
    (mapRespOp (fun _ => 0) (.get (.error (.redis "MOVED 7 a:1".toList)) 5 9) ⟨0⟩).1 =
      mapRespmeta ⟨.get, false, none, some "MOVED 7 a:1".toList, 5, 9⟩ :=
  (reply_mappings_agree fun _ => 0).1 _ _ _ ⟨rfl, rfl, rfl, rfl, rfl, rfl⟩

/-- The answer to the backfill of key 5 does not say which key it was. -/
theorem backfill_keyId_lost :
    (mapRespmeta ⟨.set, true, none, none, FiredOp.backfill.userData 5, 9⟩).keyId ≠ some 5 := by
  decide

end Worker
