import Mathlib.Data.List.Basic

/-!
# Texts and their bytes

A text is its list of characters. `Text.encode` is its UTF-8 encoding and `Text.decode` reads one
back: the two are inverse to each other (`decode_encode`, `encode_of_decode`). `Text.slice` is a
range of a list, if it has it.
-/

namespace Text

def encode (s : List Char) : List UInt8 := s.flatMap String.utf8EncodeChar

/-- The text that `bytes` encode, if they are UTF-8. -/
def decode (bytes : List UInt8) : Option (List Char) :=
  (ByteArray.utf8Decode? ⟨bytes.toArray⟩).map (·.toList)

@[simp] theorem encode_nil : encode [] = [] := rfl

@[simp] theorem encode_cons (c : Char) (s : List Char) :
    encode (c :: s) = String.utf8EncodeChar c ++ encode s := by
  simp [encode]

@[simp] theorem encode_append (s t : List Char) : encode (s ++ t) = encode s ++ encode t := by
  simp [encode]

@[simp] theorem decode_encode (s : List Char) : decode (encode s) = some s := by
  have h : (⟨(encode s).toArray⟩ : ByteArray) = s.utf8Encode := by
    ext1
    simp [encode, List.utf8Encode, List.data_toByteArray]
  rw [decode, h]
  simp

theorem encode_of_decode {bytes : List UInt8} {s : List Char} (h : decode bytes = some s) :
    encode s = bytes := by
  simp only [decode, Option.map_eq_some_iff] at h
  obtain ⟨chars, hchars, rfl⟩ := h
  have hsome : (ByteArray.utf8Decode? ⟨bytes.toArray⟩).isSome := by simp [hchars]
  have hback := ByteArray.utf8Encode_get_utf8Decode? (h := hsome)
  simp only [hchars, Option.get_some] at hback
  have := congrArg (·.data.toList) hback
  simpa [encode, List.utf8Encode] using this

theorem encode_injective : Function.Injective encode := by
  intro s t h
  have : decode (encode s) = decode (encode t) := by rw [h]
  simpa using this

theorem encode_char_cancel {c d : Char} {bytes bytes' : List UInt8}
    (h : String.utf8EncodeChar c ++ bytes = String.utf8EncodeChar d ++ bytes') : c = d := by
  have hread : ∀ (c : Char) (bytes : List UInt8),
      ByteArray.utf8DecodeChar? ⟨(String.utf8EncodeChar c ++ bytes).toArray⟩ 0 = some c := by
    intro c bytes
    have := ByteArray.utf8DecodeChar?_utf8EncodeChar_append (b := ⟨bytes.toArray⟩) (c := c)
    rw [← this]
    congr 1
    ext1
    simp [List.data_toByteArray]
  have := hread c bytes
  rw [h, hread d bytes'] at this
  exact (Option.some.inj this).symm

/-- A part of an encoded text that is the encoding of a text is of a part of it. -/
theorem prefix_of_encode {s t : List Char} {bytes : List UInt8}
    (h : encode s ++ bytes = encode t) : ∃ u, t = s ++ u := by
  induction s generalizing t with
  | nil => exact ⟨t, rfl⟩
  | cons c s ih =>
    cases t with
    | nil => simp [String.utf8EncodeChar_ne_nil] at h
    | cons d t =>
      rw [encode_cons, encode_cons, List.append_assoc] at h
      obtain rfl := encode_char_cancel h
      obtain ⟨u, rfl⟩ := ih (List.append_cancel_left h)
      exact ⟨u, rfl⟩

/-- `&bytes[start..stop]`, which panics out of range. -/
def slice {α : Type*} (bytes : List α) (start stop : Nat) : Option (List α) :=
  if start ≤ stop ∧ stop ≤ bytes.length then some ((bytes.take stop).drop start) else none

/-- `char::is_whitespace` -/
def isWhitespace (c : Char) : Bool :=
  let n := c.toNat
  (0x9 ≤ n && n ≤ 0xd) || n = 0x20 || n = 0x85 || n = 0xa0 || n = 0x1680 ||
    (0x2000 ≤ n && n ≤ 0x200a) || n = 0x2028 || n = 0x2029 || n = 0x202f || n = 0x205f || n = 0x3000

/-- `str::trim` -/
def trim (s : List Char) : List Char :=
  ((s.dropWhile isWhitespace).reverse.dropWhile isWhitespace).reverse

/-- `char::is_ascii_whitespace` -/
def isAsciiWhitespace (c : Char) : Bool :=
  let n := c.toNat
  n = 0x20 || n = 0x9 || n = 0xa || n = 0xc || n = 0xd

/-- `str::split_ascii_whitespace` -/
def splitAsciiWhitespace (s : List Char) : List (List Char) :=
  (s.splitOnP isAsciiWhitespace).filter (· ≠ [])

/-- `str::lines`: the last line may lack its line feed, and a carriage return before a line feed
is dropped. -/
def lines (s : List Char) : List (List Char) :=
  let parts := s.splitOn '\n'
  let last := parts.getLastD []
  parts.dropLast.map (fun line => if line.getLast? = some '\r' then line.dropLast else line) ++
    if last = [] then [] else [last]

/-- `&s[..stop]`, which panics inside a character. -/
def sliceTo (s : List Char) (stop : Nat) : Option (List Char) := decode ((encode s).take stop)

theorem slice_middle {α : Type*} (pre mid post : List α) :
    slice (pre ++ mid ++ post) pre.length (pre ++ mid).length = some mid := by
  simp [slice, List.take_append]

theorem sliceTo_append (s t : List Char) : sliceTo (s ++ t) (encode s).length = some s := by
  simp [sliceTo]

theorem sliceTo_prefix {s t : List Char} {stop : Nat} (h : sliceTo s stop = some t) :
    ∃ u, s = t ++ u := by
  have hparts : encode t ++ (encode s).drop stop = encode s := by
    rw [encode_of_decode h, List.take_append_drop]
  exact prefix_of_encode hparts

/-- A text without whitespace at its ends. -/
theorem trim_eq {s : List Char} (hhead : ∀ c, s.head? = some c → isWhitespace c = false)
    (hlast : ∀ c, s.getLast? = some c → isWhitespace c = false) : trim s = s := by
  have hfront : s.dropWhile isWhitespace = s := by
    cases s with
    | nil => rfl
    | cons c s => simp [hhead c rfl]
  have hback : s.reverse.dropWhile isWhitespace = s.reverse := by
    rw [← List.head?_reverse] at hlast
    cases hrev : s.reverse with
    | nil => rfl
    | cons c t => simp [hlast c (by rw [hrev]; rfl)]
  rw [trim, hfront, hback, List.reverse_reverse]

theorem isWhitespace_of_ascii {c : Char} (h : isWhitespace c = false) :
    isAsciiWhitespace c = false := by
  simp only [isWhitespace, isAsciiWhitespace, Bool.or_eq_false_iff, Bool.and_eq_false_iff,
    decide_eq_false_iff_not] at h ⊢
  omega

theorem splitAsciiWhitespace_words {words : List (List Char)}
    (h : ∀ word ∈ words, word ≠ [] ∧ ∀ c ∈ word, isAsciiWhitespace c = false) :
    splitAsciiWhitespace (List.intercalate [' '] words) = words := by
  induction words with
  | nil => simp [splitAsciiWhitespace, List.intercalate]
  | cons word words ih =>
    obtain ⟨hne, hword⟩ := h word List.mem_cons_self
    have hrest := ih fun word hword => h word (List.mem_cons_of_mem _ hword)
    cases words with
    | nil =>
      simp [splitAsciiWhitespace, List.intercalate, List.splitOnP_eq_singleton hword, hne]
    | cons word' words =>
      have hcons : List.intercalate [' '] (word :: word' :: words) =
          word ++ ' ' :: List.intercalate [' '] (word' :: words) := by simp [List.intercalate]
      have hsplit := List.splitOnP_append_cons_of_forall_mem hword ' ' rfl
        (List.intercalate [' '] (word' :: words))
      rw [splitAsciiWhitespace] at hrest
      rw [hcons, splitAsciiWhitespace, hsplit, List.filter_cons_of_pos (by simpa using hne), hrest]

/-- Two lines, each with its line feed. -/
theorem lines_two {s t : List Char} (hs : ∀ c ∈ s, c ≠ '\n') (ht : ∀ c ∈ t, c ≠ '\n')
    (hs' : s.getLast? ≠ some '\r') (ht' : t.getLast? ≠ some '\r') :
    lines (s ++ '\n' :: (t ++ ['\n'])) = [s, t] := by
  have hsplit : (s ++ '\n' :: (t ++ ['\n'])).splitOn '\n' = [s, t, []] := by
    rw [List.splitOn_append_cons_self_of_not_mem fun h => hs _ h rfl,
      List.splitOn_append_cons_self_of_not_mem fun h => ht _ h rfl, List.splitOn_nil]
  simp [lines, hsplit, hs', ht']

/-! ## ASCII -/

theorem encode_char {c : Char} (h : c.toNat < 128) :
    String.utf8EncodeChar c = [UInt8.ofNat c.toNat] := by
  rw [String.utf8EncodeChar_eq_singleton]
  · rfl
  · rw [Char.utf8Size_eq_one_iff]
    exact Nat.le_of_lt_succ h

theorem encode_ascii {s : List Char} (h : ∀ c ∈ s, c.toNat < 128) :
    encode s = s.map fun c => UInt8.ofNat c.toNat := by
  induction s with
  | nil => rfl
  | cons c s ih =>
    rw [encode_cons, encode_char (h c (by simp)), ih fun d hd => h d (by simp [hd])]
    rfl

theorem encode_char_of_mem {c : Char} {b : UInt8} (hb : b ∈ String.utf8EncodeChar c)
    (hascii : b.toNat < 128) : c.toNat = b.toNat := by
  have hval : c.val.toNat = c.toNat := rfl
  unfold String.utf8EncodeChar at hb
  simp only [hval] at hb
  split at hb
  · rw [List.mem_singleton] at hb
    rw [hb, UInt8.toNat_ofNat']
    omega
  · exfalso
    split at hb
    · simp only [List.mem_cons, List.not_mem_nil, or_false] at hb
      rcases hb with rfl | rfl <;> rw [UInt8.toNat_ofNat'] at hascii <;> omega
    · split at hb
      · simp only [List.mem_cons, List.not_mem_nil, or_false] at hb
        rcases hb with rfl | rfl | rfl <;> rw [UInt8.toNat_ofNat'] at hascii <;> omega
      · simp only [List.mem_cons, List.not_mem_nil, or_false] at hb
        rcases hb with rfl | rfl | rfl | rfl <;> rw [UInt8.toNat_ofNat'] at hascii <;> omega

/-- The ASCII bytes of an encoded text are its ASCII characters. -/
theorem exists_mem_of_mem_encode {s : List Char} {b : UInt8} (hb : b ∈ encode s)
    (hascii : b.toNat < 128) : ∃ c ∈ s, c.toNat = b.toNat := by
  obtain ⟨c, hc, hb⟩ := List.mem_flatMap.1 hb
  exact ⟨c, hc, encode_char_of_mem hb hascii⟩

end Text
