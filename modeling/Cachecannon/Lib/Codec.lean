import Cachecannon.Lib.Text
import Mathlib.Algebra.Order.Ring.Nat

/-!
# Formats that say themselves where they end

A `Codec` is an encoding with a reader that gives back the value and leaves what follows it,
whatever bytes either holds. From the codec of an item follows that of an array that starts with
its length; `command` is an array of byte strings in the Redis protocol. A stream is one value
after the other (`decodeMany`, `decodeAll`).
-/

structure Codec (α : Type) where
  encode : α → List UInt8
  decode : List UInt8 → Option (α × List UInt8)
  decode_encode : ∀ a rest, decode (encode a ++ rest) = some (a, rest)

namespace Codec

variable {α : Type}

/-! ## A number on a line -/

def isDigit (byte : UInt8) : Bool := 48 ≤ byte && byte ≤ 57

def crlf : List UInt8 := [13, 10]

def decimal (n : Nat) : List UInt8 := Text.encode (Nat.toDigits 10 n)

def readDecimal (bytes : List UInt8) : Option (Nat × List UInt8) :=
  match bytes.takeWhile isDigit with
  | [] => none
  | ds => some (Nat.ofDigitChars 10 (ds.map fun byte => Char.ofNat byte.toNat) 0,
      bytes.dropWhile isDigit)

/-- What follows `expected`. -/
def skip {τ : Type} [DecidableEq τ] : List τ → List τ → Option (List τ)
  | [], tokens => some tokens
  | _ :: _, [] => none
  | token :: expected, token' :: tokens =>
    if token = token' then skip expected tokens else none

@[simp] theorem skip_append {τ : Type} [DecidableEq τ] (expected rest : List τ) :
    skip expected (expected ++ rest) = some rest := by
  induction expected with
  | nil => rfl
  | cons token expected ih => simp [skip, ih]

theorem toNat_of_mem_toDigits {n : Nat} {c : Char} (h : c ∈ Nat.toDigits 10 n) :
    48 ≤ c.toNat ∧ c.toNat ≤ 57 :=
  Char.isDigit_iff_toNat.1 (Nat.isDigit_of_mem_toDigits (by decide) (by decide) h)

theorem toNat_ofNat_digit {n : Nat} {c : Char} (h : c ∈ Nat.toDigits 10 n) :
    (UInt8.ofNat c.toNat).toNat = c.toNat :=
  Nat.mod_eq_of_lt (Nat.lt_of_le_of_lt (toNat_of_mem_toDigits h).2 (by decide))

theorem decimal_eq (n : Nat) :
    decimal n = (Nat.toDigits 10 n).map fun c => UInt8.ofNat c.toNat :=
  Text.encode_ascii fun _ hc => Nat.lt_of_le_of_lt (toNat_of_mem_toDigits hc).2 (by decide)

theorem isDigit_of_mem_decimal {n : Nat} {byte : UInt8} (h : byte ∈ decimal n) :
    isDigit byte = true := by
  rw [decimal_eq, List.mem_map] at h
  obtain ⟨c, hc, rfl⟩ := h
  obtain ⟨hlow, hhigh⟩ := toNat_of_mem_toDigits hc
  have hbyte := toNat_ofNat_digit hc
  simp only [isDigit, Bool.and_eq_true, decide_eq_true_eq, UInt8.le_iff_toNat_le, hbyte]
  exact ⟨hlow, hhigh⟩

theorem chars_decimal (n : Nat) :
    ((decimal n).map fun byte => Char.ofNat byte.toNat) = Nat.toDigits 10 n := by
  rw [decimal_eq, List.map_map]
  refine (List.map_congr_left fun c hc => ?_).trans (List.map_id _)
  rw [Function.comp_apply, toNat_ofNat_digit hc, Char.ofNat_toNat, id]

/-- A number ends where no digit follows. -/
theorem readDecimal_append (n : Nat) {rest : List UInt8}
    (h : ∀ byte, rest.head? = some byte → isDigit byte = false) :
    readDecimal (decimal n ++ rest) = some (n, rest) := by
  have hall : ∀ byte ∈ decimal n, isDigit byte = true := fun _ => isDigit_of_mem_decimal
  have hstop : rest.takeWhile isDigit = [] ∧ rest.dropWhile isDigit = rest := by
    cases rest with
    | nil => exact ⟨rfl, rfl⟩
    | cons byte rest => simp [h byte rfl]
  have htake : (decimal n ++ rest).takeWhile isDigit = decimal n := by
    rw [List.takeWhile_append_of_pos hall, hstop.1, List.append_nil]
  have hdrop : (decimal n ++ rest).dropWhile isDigit = rest := by
    rw [List.dropWhile_append_of_pos hall, hstop.2]
  have hne : decimal n ≠ [] := by
    rw [decimal_eq, Ne, List.map_eq_nil_iff]
    exact Nat.toDigits_ne_nil
  rw [readDecimal, htake, hdrop]
  split
  · contradiction
  · rw [chars_decimal, Nat.ofDigitChars_ten_toDigits]

/-- A marker and a number, up to the end of the line. -/
def line (marker : UInt8) : Codec Nat where
  encode n := marker :: (decimal n ++ crlf)
  decode bytes := do
    let bytes ← skip [marker] bytes
    let (n, bytes) ← readDecimal bytes
    let bytes ← skip crlf bytes
    return (n, bytes)
  decode_encode n rest := by
    have hstop : ∀ byte, (crlf ++ rest).head? = some byte → isDigit byte = false := by
      intro byte hbyte
      obtain rfl : 13 = byte := Option.some.inj hbyte
      rfl
    have hmarker : skip [marker] (marker :: (decimal n ++ (crlf ++ rest))) =
        some (decimal n ++ (crlf ++ rest)) := skip_append [marker] _
    simp [hmarker, readDecimal_append n hstop]

/-! ## Byte strings and arrays -/

/-- A byte string after its length. -/
def bulkString : Codec (List UInt8) where
  encode arg := (line 36).encode arg.length ++ (arg ++ crlf)
  decode bytes := do
    let (n, bytes) ← (line 36).decode bytes
    let rest ← skip crlf (bytes.drop n)
    if n ≤ bytes.length then some (bytes.take n, rest) else none
  decode_encode arg rest := by
    simp only [List.append_assoc, (line 36).decode_encode, Option.bind_eq_bind,
      Option.bind_some, List.drop_left, List.take_left, skip_append]
    simp

/-- The next `n` values. -/
def decodeMany (c : Codec α) : Nat → List UInt8 → Option (List α × List UInt8)
  | 0, bytes => some ([], bytes)
  | n + 1, bytes => do
    let (a, bytes) ← c.decode bytes
    let (as, bytes) ← decodeMany c n bytes
    return (a :: as, bytes)

theorem decodeMany_stream (c : Codec α) (as : List α) (rest : List UInt8) :
    c.decodeMany as.length (as.flatMap c.encode ++ rest) = some (as, rest) := by
  induction as with
  | nil => rfl
  | cons a as ih => simp [decodeMany, c.decode_encode, ih]

/-- The items after their number. -/
def array (c : Codec α) : Codec (List α) where
  encode as := (line 42).encode as.length ++ as.flatMap c.encode
  decode bytes := do
    let (n, bytes) ← (line 42).decode bytes
    c.decodeMany n bytes
  decode_encode as rest := by
    rw [List.append_assoc, (line 42).decode_encode]
    exact c.decodeMany_stream as rest

/-- A command with its arguments. -/
def command : Codec (List (List UInt8)) := bulkString.array

theorem length_digits_le {n k : Nat} (hk : 0 < k) (h : n < 10 ^ k) :
    (Nat.toDigits 10 n).length ≤ k :=
  (Nat.length_toDigits_le_iff (by decide) hk).2 h

theorem length_decimal (n : Nat) : (decimal n).length = (Nat.toDigits 10 n).length := by
  rw [decimal_eq, List.length_map]

theorem length_line (marker : UInt8) (n : Nat) :
    ((line marker).encode n).length = (Nat.toDigits 10 n).length + 3 := by
  simp only [line, crlf, List.length_cons, List.length_append, length_decimal, List.length_nil]

theorem length_bulkString (arg : List UInt8) :
    (bulkString.encode arg).length = (Nat.toDigits 10 arg.length).length + arg.length + 5 := by
  simp only [bulkString, List.length_append, length_line, crlf, List.length_cons, List.length_nil]
  omega

/-- The bytes of a command are those of its arguments and of the lines before them. -/
theorem length_command (args : List (List UInt8)) :
    (command.encode args).length = (Nat.toDigits 10 args.length).length + 3 +
      (args.map fun arg => (Nat.toDigits 10 arg.length).length + arg.length + 5).sum := by
  simp only [command, array, List.length_append, length_line, List.length_flatMap,
    length_bulkString]

/-! ## Streams -/

/-- Values up to the end of the bytes, at most `n` of them. -/
def decodeAll (c : Codec α) : Nat → List UInt8 → Option (List α)
  | _, [] => some []
  | 0, _ :: _ => none
  | n + 1, byte :: bytes => do
    let (a, rest) ← c.decode (byte :: bytes)
    return a :: (← decodeAll c n rest)

theorem decodeAll_stream (c : Codec α) (hne : ∀ a, c.encode a ≠ []) {n : Nat} {as : List α}
    (h : as.length ≤ n) : c.decodeAll n (as.flatMap c.encode) = some as := by
  induction as generalizing n with
  | nil => cases n <;> rfl
  | cons a as ih =>
    cases n with
    | zero => cases h
    | succ n =>
      rw [List.flatMap_cons]
      cases hencode : c.encode a with
      | nil => exact absurd hencode (hne a)
      | cons byte bytes =>
        have hdecode := c.decode_encode a (as.flatMap c.encode)
        rw [hencode, List.cons_append] at hdecode
        rw [List.cons_append, decodeAll, hdecode]
        simp [ih (Nat.le_of_succ_le_succ h)]

theorem length_le_stream (c : Codec α) (hne : ∀ a, c.encode a ≠ []) (as : List α) :
    as.length ≤ (as.flatMap c.encode).length := by
  induction as with
  | nil => exact Nat.zero_le 0
  | cons a as ih =>
    have := List.length_pos_of_ne_nil (hne a)
    rw [List.length_cons, List.flatMap_cons, List.length_append]
    omega

theorem command_encode_ne_nil (command : List (List UInt8)) :
    Codec.command.encode command ≠ [] := List.cons_ne_nil _ _

/-! ## Words -/

/-- A word of 32 bits, its lowest byte first. -/
def word32 : Codec UInt32 where
  encode w := [w.toUInt8, (w >>> 8).toUInt8, (w >>> 16).toUInt8, (w >>> 24).toUInt8]
  decode
    | b₀ :: b₁ :: b₂ :: b₃ :: rest =>
      some (UInt32.ofNat
        (b₀.toNat + 2 ^ 8 * b₁.toNat + 2 ^ 16 * b₂.toNat + 2 ^ 24 * b₃.toNat), rest)
    | _ => none
  decode_encode w rest := by
    have hlt := w.toNat_lt
    have hword : UInt32.ofNat (w.toUInt8.toNat + 2 ^ 8 * (w >>> 8).toUInt8.toNat +
        2 ^ 16 * (w >>> 16).toUInt8.toNat + 2 ^ 24 * (w >>> 24).toUInt8.toNat) = w := by
      apply UInt32.toNat_inj.1
      simp only [UInt32.toNat_ofNat', UInt32.toNat_toUInt8, UInt32.toNat_shiftRight,
        UInt32.reduceToNat, Nat.shiftRight_eq_div_pow, Nat.reduceMod, Nat.reducePow]
      omega
    simp only [List.cons_append, List.nil_append, hword]

theorem length_word32_stream (words : List UInt32) :
    (words.flatMap word32.encode).length = 4 * words.length := by
  induction words with
  | nil => rfl
  | cons w words ih =>
    rw [List.flatMap_cons, List.length_append, ih, List.length_cons]
    simp only [word32, List.length_cons, List.length_nil]
    omega

end Codec
