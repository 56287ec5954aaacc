import Cachecannon.Dma.Server
import Cachecannon.Dma.Proof.Advertisement

/-!
# A command asks for what it was made from

In either dialect, the arguments of a transfer have the documented layout, with its key, region,
length and options (`asks_set`, `asks_get`), and those of a hello have its address (`asks_hello`).
For valkey-large-object the connection has to be bound to the address that the region has.
-/

namespace Dma

/-! ## Arguments -/

@[simp] theorem parseAscii_number (n : UInt64) : parseAscii (number n) = .ok n :=
  parseAscii_toDigits n

theorem fromFields_number (a : Advertisement) :
    Advertisement.fromFields
      [Text.encode (encodeHex a.address), number a.remoteKey, number a.remoteAddress] = .ok a :=
  fromFields_toArgs a

theorem toArgs_eq (a : Advertisement) :
    a.toArgs.map Text.encode =
      [Text.encode (encodeHex a.address), number a.remoteKey, number a.remoteAddress] := rfl

theorem toRegionArgs_eq (a : Advertisement) :
    a.toRegionArgs.map Text.encode = [number a.remoteKey, number a.remoteAddress] := rfl

/-! ## Commands -/

/-- The address that a hello binds the connection to. -/
def helloBound (dialect : Dialect) (address : List UInt8) : Option (List UInt8) :=
  match dialect with
  | .vdma => none
  | .largeObj => some address

theorem asks_hello (bound : Option (List UInt8)) (dialect : Dialect) (address : List UInt8) :
    Asks dialect bound (hello dialect address).request (.hello (helloBound dialect address)) := by
  cases dialect with
  | vdma => exact .vdmaHello
  | largeObj => exact .largeHello (decodeHex_encodeHex address)

/-- The address that completes a region of valkey-large-object. -/
def Completes (bound : Option (List UInt8)) (dialect : Dialect) (region : Advertisement) : Prop :=
  dialect = .largeObj → bound = some region.address

variable {bound : Option (List UInt8)} {dialect : Dialect} {region : Advertisement}
  {key : List UInt8} {length : UInt64} {command : DmaCommand}

theorem asks_set {options : DmaSetOptions} (hbound : Completes bound dialect region)
    (h : set dialect region key length options = .ok command) :
    Asks dialect bound command.request (.set key region length options.checksum) := by
  cases dialect with
  | vdma =>
    cases hchecksum : options.checksum with
    | none =>
      simp only [set, hchecksum, transfer, toArgs_eq, Except.ok.injEq] at h
      subst h
      exact .vdmaSet (fromFields_number region) (parseAscii_number length)
    | some checksum =>
      simp only [set, hchecksum, transfer, toArgs_eq, Except.ok.injEq] at h
      subst h
      exact .vdmaSetChecked (fromFields_number region) (parseAscii_number length)
        (parseAscii_number checksum.toUInt64)
  | largeObj =>
    cases hchecksum : options.checksum with
    | some checksum => simp [set, hchecksum] at h
    | none =>
      simp only [set, hchecksum, addressTriple, toRegionArgs_eq, Option.isSome_none,
        Bool.false_eq_true, if_false, Except.ok.injEq] at h
      subst h
      rw [hbound rfl]
      exact .largeSet (parseAscii_number _) (parseAscii_number _) (parseAscii_number length)

theorem asks_get {options : DmaGetOptions} (hbound : Completes bound dialect region)
    (h : get dialect region key length options = .ok command) :
    Asks dialect bound command.request
      (.get key region length (options.checksum || dialect = .largeObj)) := by
  cases dialect with
  | vdma =>
    cases hchecksum : options.checksum with
    | false =>
      simp only [get, hchecksum, transfer, toArgs_eq, Bool.false_eq_true, if_false,
        Except.ok.injEq] at h
      subst h
      exact .vdmaGet (fromFields_number region) (parseAscii_number length)
    | true =>
      simp only [get, hchecksum, transfer, toArgs_eq, if_true, Except.ok.injEq] at h
      subst h
      exact .vdmaGetChecked (fromFields_number region) (parseAscii_number length)
  | largeObj =>
    simp only [get, addressTriple, toRegionArgs_eq, Except.ok.injEq] at h
    subst h
    rw [hbound rfl, decide_eq_true rfl, Bool.or_true]
    exact .largeGet (parseAscii_number _) (parseAscii_number _) (parseAscii_number length)

end Dma
