import Cachecannon.Discovery.Render
import Cachecannon.Worker.Proof.IpAddr

/-!
# What is read of a reply

`parseResponse_eq` is `parse_response` without slices: none is out of range. What it returns does
not change when bytes are appended (`parsed_append`), so a proper prefix of a rendered reply is
incomplete (`parsed_truncated`).
-/

namespace Discovery

open Worker (IpAddr SocketAddr parseIpAddr parseUnsigned)

variable {buf : List UInt8} {eol len : Nat}

/-! ## The header line -/

theorem findCrlf_spec (h : findCrlf buf = some eol) : eol + 2 ≤ buf.length := by
  fun_induction findCrlf buf generalizing eol with
  | case1 a b rest hcrlf =>
    obtain rfl := Option.some.inj h
    simp
  | case2 a b rest hcrlf ih =>
    obtain ⟨k, hk, rfl⟩ := Option.map_eq_some_iff.1 h
    have := ih hk
    simp only [List.length_cons] at this ⊢
    omega
  | case3 => cases h

theorem findCrlf_append (h : findCrlf buf = some eol) (more : List UInt8) :
    findCrlf (buf ++ more) = some eol := by
  fun_induction findCrlf buf generalizing eol with
  | case1 a b rest hcrlf =>
    obtain rfl := Option.some.inj h
    simp [findCrlf, hcrlf]
  | case2 a b rest hcrlf ih =>
    obtain ⟨k, hk, rfl⟩ := Option.map_eq_some_iff.1 h
    simpa [findCrlf, hcrlf] using ih hk
  | case3 => cases h

/-- A line without a carriage return ends at the first line end. -/
theorem findCrlf_line {line : List UInt8} (hline : 13 ∉ line) (rest : List UInt8) :
    findCrlf (line ++ crlf ++ rest) = some line.length := by
  have hcrlf : crlf = [13, 10] := by decide
  rw [hcrlf]
  induction line with
  | nil => rfl
  | cons a line ih =>
    have ha : a ≠ 13 := fun h => hline (h ▸ List.mem_cons_self)
    have hrest := ih fun h => hline (List.mem_cons_of_mem _ h)
    cases line with
    | nil => simp [findCrlf, ha]
    | cons b line =>
      simp only [List.cons_append] at hrest ⊢
      rw [findCrlf, if_neg fun h => ha h.1, hrest]
      rfl

/-! ## `parse_response` -/

/-- What `parse_response` makes of what follows a header line with a block length. -/
def parseBlock (len : Nat) (rest : List UInt8) : Except DiscoveryError (Option Response) :=
  if rest.length < len + trailer.length then .ok none
  else if (rest.drop len).take trailer.length ≠ trailer then .error (.notEnd len)
  else .ok (some (.config (rest.take len)))

/-- `parse_response` without slices. -/
def parsed (buf : List UInt8) : Except DiscoveryError (Option Response) :=
  match findCrlf buf with
  | none => .ok none
  | some eol =>
    match parseHeader (buf.take eol) with
    | .error e => .error e
    | .ok (.line response) => .ok (some response)
    | .ok (.block len) => parseBlock len (buf.drop (eol + 2))

/-- No slice is out of range. -/
theorem parseResponse_eq (buf : List UInt8) : parseResponse buf = some (parsed buf) := by
  unfold parseResponse parsed
  cases hcrlf : findCrlf buf with
  | none => rfl
  | some eol =>
    have hfits := findCrlf_spec hcrlf
    have hline : Text.slice buf 0 eol = some (buf.take eol) := by
      simp [Text.slice, show eol ≤ buf.length by omega]
    have hrest : Text.slice buf (eol + 2) buf.length = some (buf.drop (eol + 2)) := by
      simp [Text.slice, hfits]
    simp only [hline, hrest, Option.bind_eq_bind, Option.bind_some]
    cases parseHeader (buf.take eol) with
    | error e => rfl
    | ok header =>
      cases header with
      | line response => rfl
      | block len =>
        simp only [parseBlock]
        generalize buf.drop (eol + 2) = rest
        split
        · rfl
        · rename_i hlong
          have hafter : Text.slice rest len (len + trailer.length) =
              some ((rest.drop len).take trailer.length) := by
            rw [Text.slice, if_pos ⟨by omega, by omega⟩, List.drop_take]
            simp
          have hbody : Text.slice rest 0 len = some (rest.take len) := by
            rw [Text.slice, if_pos ⟨by omega, by omega⟩, List.drop_zero]
          simp only [hafter, hbody, Option.bind_some, Option.map_some]
          split <;> rfl

theorem parseBlock_append {rest : List UInt8} (h : parseBlock len rest ≠ .ok none)
    (more : List UInt8) : parseBlock len (rest ++ more) = parseBlock len rest := by
  unfold parseBlock at h ⊢
  split at h
  · exact absurd rfl h
  · rename_i hlong
    rw [if_neg hlong, if_neg (by rw [List.length_append]; omega),
      List.drop_append_of_le_length (by omega), List.take_append_of_le_length (by simp; omega),
      List.take_append_of_le_length (by omega)]

/-- What is read of complete bytes stays when more follow. -/
theorem parsed_append (h : parsed buf ≠ .ok none) (more : List UInt8) :
    parsed (buf ++ more) = parsed buf := by
  unfold parsed at h ⊢
  cases hcrlf : findCrlf buf with
  | none => simp [hcrlf] at h
  | some eol =>
    have hfits := findCrlf_spec hcrlf
    rw [findCrlf_append hcrlf more]
    simp only [hcrlf] at h ⊢
    rw [List.take_append_of_le_length (by omega), List.drop_append_of_le_length hfits]
    cases hheader : parseHeader (buf.take eol) with
    | error e => rfl
    | ok header =>
      cases header with
      | line response => rfl
      | block len =>
        simp only [hheader] at h ⊢
        exact parseBlock_append h more

/-! ## How long a reply is -/

/-- The bytes of the reply that starts with this header line. -/
def replyLength (buf : List UInt8) : Option Nat :=
  (findCrlf buf).bind fun eol =>
    match parseHeader (buf.take eol) with
    | .error _ => none
    | .ok (.line _) => some (eol + 2)
    | .ok (.block len) => some (eol + 2 + (len + trailer.length))

theorem findCrlf_take {k : Nat} (h : findCrlf buf = some eol) (hk : eol + 2 ≤ k) :
    findCrlf (buf.take k) = some eol := by
  fun_induction findCrlf buf generalizing eol k with
  | case1 a b rest hcrlf =>
    obtain rfl := Option.some.inj h
    obtain ⟨k, rfl⟩ := Nat.exists_eq_add_of_le' hk
    simp [findCrlf, hcrlf]
  | case2 a b rest hcrlf ih =>
    obtain ⟨eol, hrest, rfl⟩ := Option.map_eq_some_iff.1 h
    obtain ⟨k, rfl⟩ := Nat.exists_eq_add_of_le' (show 2 ≤ k by omega)
    have htake := @ih eol (k + 1) hrest (by omega)
    rw [List.take_succ_cons] at htake
    rw [List.take_succ_cons, List.take_succ_cons, findCrlf, if_neg hcrlf, htake]
    rfl
  | case3 => cases h

theorem replyLength_append {n : Nat} (h : replyLength buf = some n) (more : List UInt8) :
    replyLength (buf ++ more) = some n := by
  obtain ⟨eol, hcrlf, hheader⟩ := Option.bind_eq_some_iff.1 h
  have hfits := findCrlf_spec hcrlf
  rw [replyLength, findCrlf_append hcrlf more, Option.bind_some,
    List.take_append_of_le_length (by omega)]
  exact hheader

/-- A reply that is read is there. -/
theorem replyLength_le {response : Response} (h : parsed buf = .ok (some response)) :
    ∃ n, replyLength buf = some n ∧ n ≤ buf.length := by
  unfold parsed at h
  unfold replyLength
  cases hcrlf : findCrlf buf with
  | none => simp [hcrlf] at h
  | some eol =>
    have hfits := findCrlf_spec hcrlf
    simp only [hcrlf, Option.bind_some] at h ⊢
    cases hheader : parseHeader (buf.take eol) with
    | error e => simp [hheader] at h
    | ok header =>
      cases header with
      | line _ => exact ⟨eol + 2, rfl, hfits⟩
      | block len =>
        refine ⟨_, rfl, ?_⟩
        simp only [hheader, parseBlock, List.length_drop] at h
        split at h
        · cases h
        · omega

theorem replyLength_take {n k : Nat} (h : replyLength buf = some n) (hk : n ≤ k) :
    replyLength (buf.take k) = some n := by
  obtain ⟨eol, hcrlf, hheader⟩ := Option.bind_eq_some_iff.1 h
  have heol : eol + 2 ≤ n := by
    split at hheader
    · cases hheader
    · exact (Option.some.inj hheader).le
    · have := Option.some.inj hheader
      omega
  rw [replyLength, findCrlf_take hcrlf (heol.trans hk), Option.bind_some, List.take_take,
    Nat.min_eq_left (by omega)]
  exact hheader

/-- Bytes that hold their reply are read. -/
theorem parsed_ne_none {n : Nat} (h : replyLength buf = some n) (hlen : n ≤ buf.length) :
    parsed buf ≠ .ok none := by
  obtain ⟨eol, hcrlf, hheader⟩ := Option.bind_eq_some_iff.1 h
  unfold parsed
  simp only [hcrlf]
  split at hheader
  · cases hheader
  · simp
  · rename_i len hblock
    have hn := Option.some.inj hheader
    simp only [parseBlock, List.length_drop]
    rw [if_neg (by omega)]
    split <;> simp

/-- A reply is read from its own bytes on. -/
theorem parsed_take {response : Response} {n k : Nat} (h : parsed buf = .ok (some response))
    (hn : replyLength buf = some n) (hk : n ≤ k) : parsed (buf.take k) = .ok (some response) := by
  obtain ⟨m, hm, hle⟩ := replyLength_le h
  obtain rfl := Option.some.inj (hn.symm.trans hm)
  have hread := parsed_ne_none (replyLength_take hn hk) (by rw [List.length_take]; omega)
  rw [← parsed_append hread (buf.drop k), List.take_append_drop, h]

/-- Before its end a reply is incomplete. -/
theorem parsed_take_lt {response : Response} {n k : Nat} (h : parsed buf = .ok (some response))
    (hn : replyLength buf = some n) (hk : k < n) : parsed (buf.take k) = .ok none := by
  by_contra hread
  have hsame := parsed_append hread (buf.drop k)
  rw [List.take_append_drop, h] at hsame
  obtain ⟨m, hm, hle⟩ := replyLength_le hsame.symm
  have hboth := replyLength_append hm (buf.drop k)
  rw [List.take_append_drop, hn] at hboth
  have := Option.some.inj hboth
  have := List.length_take_le k buf
  omega

/-! ## A rendered reply -/

theorem Field.whitespace_free (field : Field) :
    field.text ≠ [] ∧ ∀ c ∈ field.text, Text.isAsciiWhitespace c = false :=
  ⟨field.text_ne, field.text_plain⟩

theorem digits_plain (n : Nat) : ∀ c ∈ Nat.toDigits 10 n, Text.isWhitespace c = false ∧
    Text.isAsciiWhitespace c = false ∧ c ≠ '|' := by
  have hall : ∀ d < 10, Text.isWhitespace d.digitChar = false ∧
      Text.isAsciiWhitespace d.digitChar = false ∧ d.digitChar ≠ '|' := by decide
  intro c hc
  obtain ⟨d, hd, rfl⟩ := Worker.mem_toDigits (by decide) hc
  exact hall d hd

theorem fields_plain (header : BlockHeader) (len : Nat) :
    ∀ field ∈ header.fields ++ [Nat.toDigits 10 len],
      field ≠ [] ∧ ∀ c ∈ field, Text.isAsciiWhitespace c = false := by
  have hconfig : ("CONFIG".toList.all fun c => !Text.isAsciiWhitespace c) = true := by decide
  have hcluster : ("cluster".toList.all fun c => !Text.isAsciiWhitespace c) = true := by decide
  have hvalue : ("VALUE".toList.all fun c => !Text.isAsciiWhitespace c) = true := by decide
  have hdigits : Nat.toDigits 10 len ≠ [] ∧
      ∀ c ∈ Nat.toDigits 10 len, Text.isAsciiWhitespace c = false :=
    ⟨Nat.toDigits_ne_nil, fun c hc => (digits_plain len c hc).2.1⟩
  cases header with
  | config flags =>
    simp only [BlockHeader.fields, List.cons_append, List.nil_append, List.forall_mem_cons]
    exact ⟨⟨by simp, by simpa using hconfig⟩, ⟨by simp, by simpa using hcluster⟩,
      flags.whitespace_free, hdigits, by simp⟩
  | value key flags =>
    simp only [BlockHeader.fields, List.cons_append, List.nil_append, List.forall_mem_cons]
    exact ⟨⟨by simp, by simpa using hvalue⟩, key.whitespace_free, flags.whitespace_free, hdigits,
      by simp⟩

theorem line_no_return (header : BlockHeader) (len : Nat) : ∀ c ∈ header.line len, c ≠ '\r' := by
  rintro c hc rfl
  rcases Worker.mem_intercalate hc with hspace | ⟨field, hfield, hc⟩
  · cases hspace
  · exact absurd ((fields_plain header len field hfield).2 _ hc) (by decide)

theorem line_no_return_byte (header : BlockHeader) (len : Nat) :
    13 ∉ Text.encode (header.line len) := by
  intro h
  obtain ⟨c, hc, hbyte⟩ := Text.exists_mem_of_mem_encode h (by decide)
  exact line_no_return header len c hc (Char.toNat_inj.1 hbyte)

theorem line_kind (header : BlockHeader) (len : Nat) : ∃ rest,
    header.line len = "CONFIG".toList ++ rest ∨ header.line len = "VALUE".toList ++ rest := by
  cases header with
  | config flags =>
    refine ⟨' ' :: List.intercalate [' '] ["cluster".toList, flags.text, Nat.toDigits 10 len],
      .inl ?_⟩
    simp [BlockHeader.line, BlockHeader.fields, List.intercalate]
  | value key flags =>
    refine ⟨' ' :: List.intercalate [' '] [key.text, flags.text, Nat.toDigits 10 len], .inr ?_⟩
    simp [BlockHeader.line, BlockHeader.fields, List.intercalate]

theorem parseHeader_line (header : BlockHeader) {len : Nat} (h : len < 2 ^ 64) :
    parseHeader (Text.encode (header.line len)) =
      if maxResponse < len then .error (.tooLong len) else .ok (.block len) := by
  have hfields : Text.splitAsciiWhitespace (header.line len) = _ :=
    Text.splitAsciiWhitespace_words (fields_plain header len)
  have hlen : parseUnsigned 64 (Nat.toDigits 10 len) = some len := Worker.parseUnsigned_toDigits h
  obtain ⟨rest, hrest⟩ := line_kind header len
  have hend : header.line len ≠ "END".toList := by
    rcases hrest with hrest | hrest <;> simp [hrest]
  have herror : ¬ (header.line len = "ERROR".toList ||
      "CLIENT_ERROR".toList.isPrefixOf (header.line len) ||
        "SERVER_ERROR".toList.isPrefixOf (header.line len)) = true := by
    rcases hrest with hrest | hrest <;> simp [hrest]
  unfold parseHeader
  rw [Text.decode_encode]
  dsimp only
  rw [if_neg hend, if_neg herror, hfields]
  cases header <;> simp [BlockHeader.fields, hlen]

/-- Where the header line of a reply ends, and what follows it. -/
theorem reply_parts (header : BlockHeader) (block : List UInt8) :
    findCrlf (reply header block) = some (Text.encode (header.line block.length)).length ∧
      (reply header block).take (Text.encode (header.line block.length)).length =
        Text.encode (header.line block.length) ∧
      (reply header block).drop ((Text.encode (header.line block.length)).length + 2) =
        block ++ trailer := by
  have hcrlf := findCrlf_line (line_no_return_byte header block.length) (block ++ trailer)
  have hlen : crlf.length = 2 := by decide
  refine ⟨?_, by simp [reply], ?_⟩
  · rwa [← List.append_assoc] at hcrlf
  · rw [reply, List.append_assoc _ block, ← hlen, ← List.length_append, List.drop_left]

theorem parsed_reply (header : BlockHeader) {block : List UInt8} (h : block.length < 2 ^ 64) :
    parsed (reply header block) = if maxResponse < block.length then
      .error (.tooLong block.length) else .ok (some (.config block)) := by
  obtain ⟨hcrlf, htake, hdrop⟩ := reply_parts header block
  unfold parsed
  simp only [hcrlf, htake, hdrop, parseHeader_line header h]
  by_cases hlong : maxResponse < block.length
  · simp only [if_pos hlong]
  · simp [if_neg hlong, parseBlock]

theorem replyLength_reply (header : BlockHeader) {block : List UInt8}
    (h : block.length ≤ maxResponse) :
    replyLength (reply header block) = some (reply header block).length := by
  obtain ⟨hcrlf, htake, -⟩ := reply_parts header block
  have hlen : crlf.length = 2 := by decide
  rw [replyLength, hcrlf, Option.bind_some, htake,
    parseHeader_line header (h.trans_lt (by decide)), if_neg (by omega)]
  simp only [reply, List.length_append, hlen]
  rw [Nat.add_assoc _ block.length]

/-- A proper prefix of a reply that is read is incomplete. -/
theorem parsed_truncated {block pre : List UInt8} (header : BlockHeader)
    (h : block.length ≤ maxResponse) (hpre : pre <+: reply header block)
    (hproper : pre ≠ reply header block) : parsed pre = .ok none := by
  have hread := parsed_reply header (h.trans_lt (by decide))
  rw [if_neg (by omega)] at hread
  obtain ⟨rest, hrest⟩ := hpre
  have hlt : pre.length < (reply header block).length := by
    refine lt_of_le_of_ne (hrest ▸ by simp) fun heq => hproper ?_
    have hnil : rest = [] := by
      rw [← hrest, List.length_append] at heq
      exact List.eq_nil_of_length_eq_zero (by omega)
    rw [← hrest, hnil, List.append_nil]
  have hlost := parsed_take_lt hread (replyLength_reply header h) hlt
  rwa [← hrest, List.take_left] at hlost

end Discovery
