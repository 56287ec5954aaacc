import Cachecannon.Dma.Advertisement
import Cachecannon.Worker.Proof.Address

/-!
# An advertisement comes back as it was sent

The hex of a byte string decodes to it, and what decodes at all is hex digits of either case, two
for each byte (`decodeHex_ok_iff`), which encode to themselves in lower case. With the decimal
numbers (`Worker.parseUnsigned_toDigits`) the three arguments of an advertisement read back as the
advertisement, so no two have the same arguments.
-/

namespace Dma

/-- A hex digit of either case. -/
def IsHexDigit (byte : UInt8) : Prop :=
  (0x30 ≤ byte ∧ byte ≤ 0x39) ∨ (0x61 ≤ byte ∧ byte ≤ 0x66) ∨ (0x41 ≤ byte ∧ byte ≤ 0x46)

instance (byte : UInt8) : Decidable (IsHexDigit byte) := inferInstanceAs (Decidable (_ ∨ _ ∨ _))

/-- `u8::to_ascii_lowercase`. -/
def toAsciiLowercase (byte : UInt8) : UInt8 :=
  if 0x41 ≤ byte ∧ byte ≤ 0x5a then byte + 32 else byte

/-! ## One byte -/

/-- What holds of every number below 256 holds of every byte. -/
theorem forall_byte {P : UInt8 → Prop} (h : ∀ i : Fin 256, P (UInt8.ofNat i)) (byte : UInt8) :
    P byte := by
  have := h ⟨byte.toNat, byte.toNat_lt⟩
  simpa using this

/-- The byte of the digit that is written for `i`. -/
def digitByte (i : UInt8) : UInt8 := UInt8.ofNat (digitAt i).toNat

theorem digitAt_ascii (i : UInt8) : (digitAt i).toNat < 128 := by
  revert i
  exact forall_byte (by decide +kernel)

/-- A hex digit has a value below 16, whose digit is the byte in lower case. -/
theorem toDigit_of_isHexDigit (byte : UInt8) (h : IsHexDigit byte) :
    ∃ v : Fin 16, Worker.toDigit 16 (Char.ofNat byte.toNat) = some v.val ∧
      digitByte (UInt8.ofNat v) = toAsciiLowercase byte := by
  revert byte
  exact forall_byte (by decide +kernel)

theorem toDigit_of_not_isHexDigit (byte : UInt8) (h : ¬ IsHexDigit byte) :
    Worker.toDigit 16 (Char.ofNat byte.toNat) = none := by
  revert byte
  exact forall_byte (by decide +kernel)

theorem hexValue_of_isHexDigit {byte : UInt8} (h : IsHexDigit byte) :
    ∃ v : Fin 16, hexValue byte = .ok (UInt32.ofNat v) ∧
      digitByte (UInt8.ofNat v) = toAsciiLowercase byte := by
  obtain ⟨v, hv, hlow⟩ := toDigit_of_isHexDigit byte h
  exact ⟨v, by simp [hexValue, hv], hlow⟩

theorem hexValue_of_not_isHexDigit {byte : UInt8} (h : ¬ IsHexDigit byte) :
    hexValue byte = .error .hex := by
  simp [hexValue, toDigit_of_not_isHexDigit byte h]

/-! ## Two digits -/

/-- The two digits of `byte`, high half first. -/
def digitPair (byte : UInt8) : UInt8 × UInt8 := (digitByte (byte >>> 4), digitByte (byte &&& 0x0f))

theorem toDigit_digitByte (v : Fin 16) :
    Worker.toDigit 16 (Char.ofNat (digitByte (UInt8.ofNat v)).toNat) = some v.val := by
  revert v
  decide +kernel

/-- A byte is made up of its halves. -/
theorem halves (byte : UInt8) :
    (UInt32.ofNat (byte >>> 4).toNat <<< 4 ||| UInt32.ofNat (byte &&& 0x0f).toNat).toUInt8 =
      byte := by
  revert byte
  exact forall_byte (by decide +kernel)

theorem halves_lt (byte : UInt8) : (byte >>> 4).toNat < 16 ∧ (byte &&& 0x0f).toNat < 16 := by
  revert byte
  exact forall_byte (by decide +kernel)

theorem decodePair_digitPair (byte : UInt8) : decodePair (digitPair byte) = .ok byte := by
  obtain ⟨hhigh, hlow⟩ := halves_lt byte
  have high := toDigit_digitByte ⟨_, hhigh⟩
  have low := toDigit_digitByte ⟨_, hlow⟩
  simp only [UInt8.ofNat_toNat] at high low
  simp only [decodePair, digitPair, hexValue, high, low]
  exact congrArg Except.ok (halves byte)

/-- Two values below 16 are the halves of the byte they make up. -/
theorem digitPair_halves (high low : Fin 16) :
    digitPair (UInt32.ofNat high <<< 4 ||| UInt32.ofNat low).toUInt8 =
      (digitByte (UInt8.ofNat high), digitByte (UInt8.ofNat low)) := by
  revert high low
  decide +kernel

theorem digitPair_injective : Function.Injective digitPair := by
  intro a b h
  have hdecode : decodePair (digitPair a) = decodePair (digitPair b) := by rw [h]
  rw [decodePair_digitPair, decodePair_digitPair] at hdecode
  exact Except.ok.inj hdecode

/-- Two hex digits decode to the byte whose digits they are in lower case. -/
theorem decodePair_of_isHexDigit {high low : UInt8} (hhigh : IsHexDigit high)
    (hlow : IsHexDigit low) :
    ∃ byte, decodePair (high, low) = .ok byte ∧
      digitPair byte = (toAsciiLowercase high, toAsciiLowercase low) := by
  obtain ⟨v, hv, hvlow⟩ := hexValue_of_isHexDigit hhigh
  obtain ⟨w, hw, hwlow⟩ := hexValue_of_isHexDigit hlow
  refine ⟨(UInt32.ofNat v <<< 4 ||| UInt32.ofNat w).toUInt8, ?_, ?_⟩
  · simp only [decodePair, hv, hw]
    rfl
  · rw [digitPair_halves, hvlow, hwlow]

theorem isHexDigit_of_decodePair {pair : UInt8 × UInt8} {byte : UInt8}
    (h : decodePair pair = .ok byte) : IsHexDigit pair.1 ∧ IsHexDigit pair.2 := by
  obtain ⟨high, low⟩ := pair
  by_cases hhigh : IsHexDigit high
  · by_cases hlow : IsHexDigit low
    · exact ⟨hhigh, hlow⟩
    · obtain ⟨v, hv, -⟩ := hexValue_of_isHexDigit hhigh
      simp only [decodePair, hv, hexValue_of_not_isHexDigit hlow] at h
      cases h
  · simp only [decodePair, hexValue_of_not_isHexDigit hhigh] at h
    cases h

theorem decodePair_ok_iff (pair : UInt8 × UInt8) (byte : UInt8) :
    decodePair pair = .ok byte ↔ (IsHexDigit pair.1 ∧ IsHexDigit pair.2) ∧
      digitPair byte = (toAsciiLowercase pair.1, toAsciiLowercase pair.2) := by
  constructor
  · intro h
    have hhex := isHexDigit_of_decodePair h
    obtain ⟨b, hb, hpair⟩ := decodePair_of_isHexDigit hhex.1 hhex.2
    obtain rfl := Except.ok.inj (h.symm.trans hb)
    exact ⟨hhex, hpair⟩
  · rintro ⟨hhex, hpair⟩
    obtain ⟨b, hb, hb'⟩ := decodePair_of_isHexDigit hhex.1 hhex.2
    rw [digitPair_injective (hpair.trans hb'.symm)]
    exact hb

/-! ## The whole string -/

/-- The bytes of a list of pairs. -/
def flatten (ps : List (UInt8 × UInt8)) : List UInt8 := ps.flatMap fun p => [p.1, p.2]

@[simp] theorem flatten_nil : flatten [] = [] := rfl

@[simp] theorem flatten_cons (p : UInt8 × UInt8) (ps : List (UInt8 × UInt8)) :
    flatten (p :: ps) = p.1 :: p.2 :: flatten ps := by
  simp [flatten]

@[simp] theorem pairs_flatten (ps : List (UInt8 × UInt8)) : pairs (flatten ps) = ps := by
  induction ps with
  | nil => rfl
  | cons p ps ih => simp [pairs, ih]

@[simp] theorem length_flatten (ps : List (UInt8 × UInt8)) :
    (flatten ps).length = 2 * ps.length := by
  induction ps with
  | nil => rfl
  | cons p ps ih => simp [ih]; omega

theorem flatten_pairs {text : List UInt8} (h : text.length % 2 = 0) :
    flatten (pairs text) = text := by
  induction text using pairs.induct with
  | case1 high low rest ih =>
    simp only [List.length_cons] at h
    simp [pairs, ih (by omega)]
  | case2 text hshort =>
    match text with
    | [] => rfl
    | [_] => simp at h
    | high :: low :: rest => exact (hshort high low rest rfl).elim

theorem encodeHex_ascii {bytes : List UInt8} {c : Char} (h : c ∈ encodeHex bytes) :
    c.toNat < 128 := by
  simp only [encodeHex, List.mem_flatMap, List.mem_cons, List.not_mem_nil, or_false] at h
  rcases h with ⟨byte, -, rfl | rfl⟩ <;> exact digitAt_ascii _

theorem encode_encodeHex (bytes : List UInt8) :
    Text.encode (encodeHex bytes) = flatten (bytes.map digitPair) := by
  rw [Text.encode_ascii fun c => encodeHex_ascii]
  induction bytes with
  | nil => rfl
  | cons byte bytes ih =>
    simp only [encodeHex, List.flatMap_cons, List.map_append, List.map_cons, List.map_nil,
      flatten_cons] at ih ⊢
    rw [ih]
    rfl

/-- The pairs decode one by one: exactly hex digits do, and to the bytes whose digits they are in
lower case. -/
theorem mapM_decodePair_ok_iff (ps : List (UInt8 × UInt8)) (bytes : List UInt8) :
    ps.mapM decodePair = .ok bytes ↔ (∀ byte ∈ flatten ps, IsHexDigit byte) ∧
      flatten (bytes.map digitPair) = (flatten ps).map toAsciiLowercase := by
  induction ps generalizing bytes with
  | nil => cases bytes <;> simp [pure, Except.pure]
  | cons p ps ih =>
    cases bytes with
    | nil =>
      rw [List.mapM_cons]
      cases decodePair p <;> cases ps.mapM decodePair <;>
        simp [bind, Except.bind, pure, Except.pure]
    | cons byte bytes =>
      have hcons : (p :: ps).mapM decodePair = .ok (byte :: bytes) ↔
          decodePair p = .ok byte ∧ ps.mapM decodePair = .ok bytes := by
        rw [List.mapM_cons]
        cases decodePair p <;> cases ps.mapM decodePair <;>
          simp [bind, Except.bind, pure, Except.pure]
      rw [hcons, decodePair_ok_iff, ih bytes]
      simp only [flatten_cons, List.map_cons, List.forall_mem_cons, List.cons.injEq, Prod.ext_iff]
      tauto

theorem decodeHex_of_length {text : List UInt8} (h : text.length % 2 = 0) :
    decodeHex text = (pairs text).mapM decodePair := by
  simp [decodeHex, h]

theorem decodeHex_ok_iff (text bytes : List UInt8) :
    decodeHex text = .ok bytes ↔ text.length % 2 = 0 ∧ (∀ byte ∈ text, IsHexDigit byte) ∧
      Text.encode (encodeHex bytes) = text.map toAsciiLowercase := by
  by_cases h : text.length % 2 = 0
  · rw [decodeHex_of_length h, mapM_decodePair_ok_iff, flatten_pairs h, encode_encodeHex]
    simp [h]
  · simp [decodeHex, h]

theorem decodeHex_encodeHex (bytes : List UInt8) :
    decodeHex (Text.encode (encodeHex bytes)) = .ok bytes := by
  rw [encode_encodeHex, decodeHex_of_length (by simp), pairs_flatten, List.mapM_map]
  induction bytes with
  | nil => rfl
  | cons byte bytes ih =>
    rw [List.mapM_cons, ih]
    simp [decodePair_digitPair, bind, Except.bind, pure, Except.pure]

theorem exists_mapM_decodePair {ps : List (UInt8 × UInt8)}
    (h : ∀ byte ∈ flatten ps, IsHexDigit byte) : ∃ bytes, ps.mapM decodePair = .ok bytes := by
  induction ps with
  | nil => exact ⟨[], rfl⟩
  | cons p ps ih =>
    simp only [flatten_cons, List.forall_mem_cons] at h
    obtain ⟨byte, hbyte, -⟩ := decodePair_of_isHexDigit h.1 h.2.1
    obtain ⟨bytes, hbytes⟩ := ih h.2.2
    exact ⟨byte :: bytes, by
      simp [List.mapM_cons, hbyte, hbytes, bind, Except.bind, pure, Except.pure]⟩

/-- `decode_hex` accepts the strings of an even number of hex digits. -/
theorem decodeHex_accepts_iff (text : List UInt8) :
    (∃ bytes, decodeHex text = .ok bytes) ↔
      text.length % 2 = 0 ∧ ∀ byte ∈ text, IsHexDigit byte := by
  constructor
  · rintro ⟨bytes, h⟩
    rw [decodeHex_ok_iff] at h
    exact ⟨h.1, h.2.1⟩
  · rintro ⟨hlen, hhex⟩
    rw [decodeHex_of_length hlen]
    exact exists_mapM_decodePair (by rwa [flatten_pairs hlen])

/-! ## The three arguments -/

theorem parseAscii_toDigits (n : UInt64) :
    parseAscii (Text.encode (Nat.toDigits 10 n.toNat)) = .ok n := by
  simp [parseAscii, Worker.parseUnsigned_toDigits n.toNat_lt]

theorem fromFields_toArgs (a : Advertisement) :
    Advertisement.fromFields (a.toArgs.map Text.encode) = .ok a := by
  simp [Advertisement.fromFields, Advertisement.toArgs, Advertisement.toRegionArgs,
    decodeHex_encodeHex, parseAscii_toDigits, bind, Except.bind, pure, Except.pure]

theorem toArgs_injective : Function.Injective Advertisement.toArgs := by
  intro a b h
  have hback := fromFields_toArgs a
  rw [h, fromFields_toArgs b] at hback
  exact (Except.ok.inj hback).symm

/-- Hex and advertisements read back as what was written, and `decode_hex` accepts hex digits of
either case only, two for each byte. -/
theorem advertisement_round_trip :
    (∀ bytes, decodeHex (Text.encode (encodeHex bytes)) = .ok bytes) ∧
    (∀ text, (∃ bytes, decodeHex text = .ok bytes) ↔
      text.length % 2 = 0 ∧ ∀ byte ∈ text, IsHexDigit byte) ∧
    (∀ text bytes, decodeHex text = .ok bytes ↔
      text.length % 2 = 0 ∧ (∀ byte ∈ text, IsHexDigit byte) ∧
        Text.encode (encodeHex bytes) = text.map toAsciiLowercase) ∧
    (∀ a : Advertisement, Advertisement.fromFields (a.toArgs.map Text.encode) = .ok a) ∧
    Function.Injective Advertisement.toArgs :=
  ⟨decodeHex_encodeHex, decodeHex_accepts_iff, decodeHex_ok_iff, fromFields_toArgs,
    toArgs_injective⟩

end Dma
