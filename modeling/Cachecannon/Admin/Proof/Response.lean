import Cachecannon.Admin.Proof.Exposition

/-!
# A response is read as its body

The head of a response is lines without a carriage return (`readHead_lines`), so the body begins
where the head ends whatever bytes it holds, and its length is the one the head gives.
`request_served` follows a request from its line to what the client reads.
-/

namespace Admin

/-! ## The head -/

def crlf : List UInt8 := [13, 10]

/-- A line that may stand in a head. -/
def HeadLine (line : Chars) : Prop := line ≠ [] ∧ '\r' ∉ line

theorem not_mem_encode {line : Chars} {c : Char} {byte : UInt8} (h : c ∉ line)
    (hbyte : c.toNat = byte.toNat) (hascii : byte.toNat < 128) : byte ∉ Text.encode line := by
  intro hmem
  obtain ⟨d, hd, hval⟩ := Text.exists_mem_of_mem_encode hmem hascii
  have hchar : d = c := by
    apply Char.ext
    apply UInt32.toNat_inj.1
    exact hval.trans hbyte.symm
  exact h (hchar ▸ hd)

theorem encode_ne_nil {line : Chars} (h : line ≠ []) : Text.encode line ≠ [] := by
  intro hempty
  exact h (Text.encode_injective (hempty.trans Text.encode_nil.symm))

theorem readHeadLine_append {line : List UInt8} (rest : List UInt8) (h : 13 ∉ line) :
    readHeadLine (line ++ 13 :: 10 :: rest) = some (line, rest) := by
  induction line with
  | nil => rfl
  | cons byte line ih =>
    obtain ⟨hne, hline⟩ := not_or.1 (mt List.mem_cons.2 h)
    have hread : readHeadLine (byte :: (line ++ 13 :: 10 :: rest)) =
        (readHeadLine (line ++ 13 :: 10 :: rest)).map fun read => (byte :: read.1, read.2) := by
      rw [readHeadLine]
      rintro tail rfl
      exact absurd rfl hne
    rw [List.cons_append, hread, ih hline]
    rfl

/-- The lines of a head are read up to the empty one. -/
theorem readHead_lines {fuel : Nat} {lines : List Chars} (rest : List UInt8)
    (hfuel : lines.length < fuel) (h : ∀ line ∈ lines, HeadLine line) :
    readHead fuel ((lines.flatMap fun line => Text.encode line ++ crlf) ++ (crlf ++ rest)) =
      some (lines, rest) := by
  induction lines generalizing fuel with
  | nil =>
    cases fuel with
    | zero => cases hfuel
    | succ fuel => rfl
  | cons line lines ih =>
    obtain ⟨⟨hne, hcr⟩, hlines⟩ := List.forall_mem_cons.1 h
    cases fuel with
    | zero => cases hfuel
    | succ fuel =>
      have hread := readHeadLine_append
        ((lines.flatMap fun line => Text.encode line ++ crlf) ++ (crlf ++ rest))
        (not_mem_encode hcr rfl (by decide : (13 : UInt8).toNat < 128))
      have hbytes : ((line :: lines).flatMap fun line => Text.encode line ++ crlf) ++
          (crlf ++ rest) = Text.encode line ++ 13 :: 10 ::
            ((lines.flatMap fun line => Text.encode line ++ crlf) ++ (crlf ++ rest)) := by
        simp [crlf]
      rw [hbytes, readHead, hread]
      simp only [Option.bind_eq_bind, Option.bind_some, if_neg (encode_ne_nil hne),
        Text.decode_encode, ih (Nat.lt_of_succ_lt_succ hfuel) hlines]
      rfl

def AdminBody.head (body : AdminBody) : List Chars :=
  ["HTTP/1.1 ".toList ++ body.status.toList, "Content-Type: ".toList ++ body.contentType.toList,
    "Content-Length: ".toList ++ formatNat body.bytes.length, "Connection: close".toList]

theorem httpResponse_eq (body : AdminBody) :
    httpResponse body =
      (body.head.flatMap fun line => Text.encode line ++ crlf) ++ (crlf ++ body.bytes) := by
  have hcrlf : Text.encode ['\r', '\n'] = crlf := by decide
  have htype : "\r\nContent-Type: ".toList = ['\r', '\n'] ++ "Content-Type: ".toList := rfl
  have hlength : "\r\nContent-Length: ".toList = ['\r', '\n'] ++ "Content-Length: ".toList := rfl
  have hend : "\r\nConnection: close\r\n\r\n".toList =
      ['\r', '\n'] ++ ("Connection: close".toList ++ (['\r', '\n'] ++ ['\r', '\n'])) := rfl
  rw [httpResponse, htype, hlength, hend]
  simp only [AdminBody.head, Text.encode_append, hcrlf, List.flatMap_cons, List.flatMap_nil,
    List.append_nil, List.append_assoc]

theorem head_lines (body : AdminBody) : ∀ line ∈ body.head, HeadLine line := by
  have hdigits : ∀ n, '\r' ∉ formatNat n := fun n hmem => by
    have := Nat.isDigit_of_mem_toDigits (by decide) (by decide) hmem
    revert this
    decide
  have hstatus : '\r' ∉ body.status.toList := by
    have hall : ∀ s ∈ ["200 OK", "404 Not Found", "500 Internal Server Error"],
        '\r' ∉ s.toList := by
      decide
    cases body <;> exact hall _ (by simp [AdminBody.status])
  have htype : '\r' ∉ body.contentType.toList := by
    have hall : ∀ s ∈ ["text/plain; version=0.0.4", "application/msgpack", "text/plain"],
        '\r' ∉ s.toList := by
      decide
    cases body <;> exact hall _ (by simp [AdminBody.contentType])
  have h1 : '\r' ∉ "HTTP/1.1 ".toList := by decide
  have h2 : '\r' ∉ "Content-Type: ".toList := by decide
  have h3 : '\r' ∉ "Content-Length: ".toList := by decide
  have h4 : '\r' ∉ "Connection: close".toList := by decide
  intro line hline
  simp only [AdminBody.head, List.mem_cons, List.not_mem_nil, or_false] at hline
  rcases hline with rfl | rfl | rfl | rfl
  · exact ⟨by simp, by simp only [List.mem_append, not_or]; exact ⟨h1, hstatus⟩⟩
  · exact ⟨by simp, by simp only [List.mem_append, not_or]; exact ⟨h2, htype⟩⟩
  · exact ⟨by simp, by simp only [List.mem_append, not_or]; exact ⟨h3, hdigits _⟩⟩
  · exact ⟨by simp, h4⟩

theorem length_head (body : AdminBody) : 4 < (httpResponse body).length := by
  rw [httpResponse_eq]
  simp only [AdminBody.head, crlf, List.flatMap_cons, List.flatMap_nil, List.length_append,
    List.length_cons, List.length_nil]
  omega

/-- **A response is read as its body**, whatever bytes it holds. -/
theorem readResponse_http (body : AdminBody) :
    readResponse (httpResponse body) =
      some ⟨body.status.toList, body.contentType.toList, body.bytes⟩ := by
  have hhead : readHead (httpResponse body).length (httpResponse body) =
      some (body.head, body.bytes) := by
    have hfuel := length_head body
    rw [httpResponse_eq] at hfuel ⊢
    exact readHead_lines body.bytes hfuel (head_lines body)
  have hstatus : Codec.skip "HTTP/1.1 ".toList ("HTTP/1.1 ".toList ++ body.status.toList) =
      some body.status.toList := Codec.skip_append _ _
  have htype : headField "Content-Type" body.head = some body.contentType.toList := by
    have hname : ("Content-Type" ++ ": ").toList = "Content-Type: ".toList := rfl
    have hother : ∀ s : Chars,
        Codec.skip "Content-Type: ".toList ("HTTP/1.1 ".toList ++ s) = none := fun _ => rfl
    simp only [headField, hname, AdminBody.head, List.findSome?_cons, hother, Codec.skip_append]
  have hlength : headField "Content-Length" body.head = some (formatNat body.bytes.length) := by
    have hname : ("Content-Length" ++ ": ").toList = "Content-Length: ".toList := rfl
    have hother : ∀ s : Chars,
        Codec.skip "Content-Length: ".toList ("HTTP/1.1 ".toList ++ s) = none := fun _ => rfl
    have hother' : ∀ s : Chars,
        Codec.skip "Content-Length: ".toList ("Content-Type: ".toList ++ s) = none := fun _ => rfl
    simp only [headField, hname, AdminBody.head, List.findSome?_cons, hother, hother',
      Codec.skip_append]
  unfold readResponse
  rw [hhead]
  simp only [Option.bind_eq_bind, Option.bind_some, htype, hlength, readNat_format, if_true]
  rw [AdminBody.head, List.head?_cons, Option.bind_some, hstatus, Option.bind_some]

/-! ## A request -/

/-- A word of a request line. -/
def Word (s : Chars) : Prop := s ≠ [] ∧ ∀ c ∈ s, Text.isWhitespace c = false

/-- The second word of the line is the target, whatever follows on it and after it. -/
theorem requestTarget_line {method target rest : Chars} (tail : List UInt8) (hmethod : Word method)
    (htarget : Word target) (hrest : '\n' ∉ rest) :
    requestTarget (Text.encode (method ++ ' ' :: (target ++ ' ' :: rest)) ++ 10 :: tail) =
      let (path, query) := (splitOnce '?' target).getD (target, [])
      if path.head? = some '/' then some (path, query) else none := by
  have hword : ∀ word : Chars, Word word → '\n' ∉ word := fun word hword hmem => by
    have := hword.2 _ hmem
    revert this
    decide
  have hline : '\n' ∉ method ++ ' ' :: (target ++ ' ' :: rest) := by
    simp only [List.mem_append, List.mem_cons, not_or]
    exact ⟨hword _ hmethod, by decide, hword _ htarget, by decide, hrest⟩
  have hbytes : (10 : UInt8) ∉ Text.encode (method ++ ' ' :: (target ++ ' ' :: rest)) :=
    not_mem_encode hline rfl (by decide)
  have htake : (Text.encode (method ++ ' ' :: (target ++ ' ' :: rest)) ++ 10 :: tail).takeWhile
      (· ≠ 10) = Text.encode (method ++ ' ' :: (target ++ ' ' :: rest)) := by
    have hall : ∀ byte ∈ Text.encode (method ++ ' ' :: (target ++ ' ' :: rest)),
        decide (byte ≠ 10) = true := fun byte hbyte =>
      decide_eq_true fun heq => hbytes (heq ▸ hbyte)
    rw [List.takeWhile_append_of_pos hall]
    simp
  have hblank : Text.isWhitespace ' ' = true := rfl
  have hwords : (splitWhitespace (method ++ ' ' :: (target ++ ' ' :: rest)))[1]? = some target := by
    rw [splitWhitespace, List.splitOnP_append_cons_of_forall_mem hmethod.2 ' ' hblank,
      List.splitOnP_append_cons_of_forall_mem htarget.2 ' ' hblank,
      List.filter_cons_of_pos (by simpa using hmethod.1),
      List.filter_cons_of_pos (by simpa using htarget.1)]
    rfl
  unfold requestTarget
  rw [htake, Text.decode_encode]
  simp only [Option.bind_eq_bind, Option.bind_some, hwords]

/-- **A request is answered with what it asks for.** For every request line, whatever its method
and query, what follows it in the read and what the body holds: the client reads the response as the
status, the type and exactly the bytes that the path is served, to the last one. -/
theorem request_served (metrics : List Metric) (snapshot : Option (List UInt8))
    (method path query rest : Chars) (tail : List UInt8) (hmethod : Word method)
    (hpath : Word path) (hquery : ∀ c ∈ query, Text.isWhitespace c = false)
    (hslash : path.head? = some '/') (hplain : '?' ∉ path)
    (hstream : path ≠ "/metrics/stream".toList) (hrest : '\n' ∉ rest) :
    ∀ target ∈ [path, path ++ '?' :: query], ∃ response,
      serve metrics snapshot
          (Text.encode (method ++ ' ' :: (target ++ ' ' :: rest)) ++ 10 :: tail) = some response ∧
        readResponse response =
          some ⟨(respond metrics snapshot path).status.toList,
            (respond metrics snapshot path).contentType.toList,
            (respond metrics snapshot path).bytes⟩ := by
  intro target htarget
  have hword : Word target ∧ ((splitOnce '?' target).getD (target, [])).1 = path := by
    rcases List.mem_pair.1 htarget with rfl | rfl
    · exact ⟨hpath, by simp [splitOnce, hplain]⟩
    · refine ⟨⟨by simp [hpath.1], fun c hc => ?_⟩, ?_⟩
      · rcases List.mem_append.1 hc with hc | hc
        · exact hpath.2 c hc
        · rcases List.mem_cons.1 hc with rfl | hc
          · rfl
          · exact hquery c hc
      · have hall : ∀ c ∈ path, decide (c ≠ '?') = true := fun c hc =>
          decide_eq_true fun heq : c = '?' => hplain (heq ▸ hc)
        have htake : (path ++ '?' :: query).takeWhile (· ≠ '?') = path := by
          rw [List.takeWhile_append_of_pos hall]
          simp
        have hmem : '?' ∈ path ++ '?' :: query := by simp
        rw [splitOnce, if_pos hmem, Option.getD_some]
        exact htake
  refine ⟨_, ?_, readResponse_http (respond metrics snapshot path)⟩
  unfold serve
  rw [requestTarget_line tail hmethod hword.1 hrest]
  dsimp only
  rw [hword.2, if_pos hslash]
  simp only [if_neg hstream]

def gaugeMetric : Metric := ⟨"target_rate".toList, none, some (.gauge 40)⟩

/-- Two requests: the registry as text, and a snapshot that holds a blank line and no UTF-8. -/
theorem request_served_get :
    (∃ response,
      serve [gaugeMetric] none (Text.encode ("GET".toList ++ ' ' :: ("/metrics?x".toList ++
        ' ' :: "HTTP/1.1\r".toList)) ++ [10]) = some response ∧
      readResponse response = some ⟨"200 OK".toList, "text/plain; version=0.0.4".toList,
        Text.encode "# TYPE target_rate gauge\ntarget_rate 40\n".toList⟩) ∧
    ∃ response,
      serve [gaugeMetric] (some [0x93, 13, 10, 13, 10, 0xff]) (Text.encode ("GET".toList ++
        ' ' :: ("/metrics/binary".toList ++ ' ' :: "HTTP/1.1\r".toList)) ++ [10]) =
          some response ∧
      readResponse response = some ⟨"200 OK".toList, "application/msgpack".toList,
        [0x93, 13, 10, 13, 10, 0xff]⟩ := by
  have hget : Word "GET".toList := ⟨by decide, List.all_iff_forall_prop.1 (by decide)⟩
  have hquery : ∀ c ∈ "x".toList, Text.isWhitespace c = false :=
    List.all_iff_forall_prop.1 (by decide)
  constructor
  · exact request_served [gaugeMetric] none "GET".toList "/metrics".toList "x".toList
      "HTTP/1.1\r".toList [] hget ⟨by decide, List.all_iff_forall_prop.1 (by decide)⟩ hquery rfl
      (by decide) (by decide) (by decide) "/metrics?x".toList
      (List.mem_cons_of_mem _ List.mem_cons_self)
  · exact request_served [gaugeMetric] (some [0x93, 13, 10, 13, 10, 0xff]) "GET".toList
      "/metrics/binary".toList "x".toList "HTTP/1.1\r".toList [] hget
      ⟨by decide, List.all_iff_forall_prop.1 (by decide)⟩ hquery rfl
      (by decide) (by decide) (by decide) "/metrics/binary".toList List.mem_cons_self

end Admin
