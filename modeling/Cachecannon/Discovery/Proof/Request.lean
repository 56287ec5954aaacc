import Cachecannon.Discovery.Proof.Reply
import Cachecannon.Discovery.Request

/-!
# How the reads of a reply are split

`receive_ok` says when the loop returns a response: the bytes are an accepted reply, and no read
ends past `MAX_RESPONSE` and before the end of the reply. Every split passes when the reply has at
most `MAX_RESPONSE + 1` bytes; else the split into single bytes does not (`split_free_iff`).
-/

namespace Discovery

variable {buf : List UInt8} {reads : List (List UInt8)} {ending : Option IoError}
  {response : Response} {n : Nat}

/-! ## The loop -/

theorem receive_parsed (h : parsed buf = .ok (some response)) :
    receive ending buf reads = some (.ok response) := by
  unfold receive
  simp [parseResponse_eq, h]

theorem receive_error {e : DiscoveryError} (h : parsed buf = .error e) :
    receive ending buf reads = some (.error (.reply e)) := by
  unfold receive
  simp [parseResponse_eq, h]

theorem receive_exceeded (h : parsed buf = .ok none) (hlen : maxResponse < buf.length) :
    receive ending buf reads = some (.error .exceeded) := by
  unfold receive
  simp [parseResponse_eq, h, hlen]

theorem receive_nil (h : parsed buf = .ok none) :
    ∃ e, receive ending buf [] = some (.error e) := by
  unfold receive
  simp only [parseResponse_eq, h]
  split
  · exact ⟨_, rfl⟩
  · cases ending with
    | none => exact ⟨_, rfl⟩
    | some e =>
      dsimp only
      split <;> exact ⟨_, rfl⟩

theorem receive_cons (h : parsed buf = .ok none) (hlen : buf.length ≤ maxResponse)
    (read : List UInt8) :
    receive ending buf (read :: reads) = receive ending (buf ++ read) reads := by
  rw [receive]
  simp [parseResponse_eq, h, Nat.not_lt.2 hlen]

theorem receive_isSome_of_read (h : parsed buf ≠ .ok none) : (receive ending buf reads).isSome := by
  cases hread : parsed buf with
  | error e => rw [receive_error hread, Option.isSome_some]
  | ok reply =>
    cases reply with
    | some response => rw [receive_parsed hread, Option.isSome_some]
    | none => exact absurd hread h

/-- The loop ends, without a panic. -/
theorem receive_isSome : (receive ending buf reads).isSome := by
  induction reads generalizing buf with
  | nil =>
    by_cases hread : parsed buf = .ok none
    · obtain ⟨e, he⟩ := @receive_nil _ ending hread
      rw [he, Option.isSome_some]
    · exact receive_isSome_of_read hread
  | cons read reads ih =>
    by_cases hread : parsed buf = .ok none
    · by_cases hlen : buf.length ≤ maxResponse
      · rw [receive_cons hread hlen]
        exact ih
      · rw [receive_exceeded hread (Nat.lt_of_not_le hlen), Option.isSome_some]
    · exact receive_isSome_of_read hread

/-- A response is read of the buffer, and whatever follows. -/
theorem parsed_of_read (hread : parsed buf ≠ .ok none)
    (h : receive ending buf reads = some (.ok response)) (more : List UInt8) :
    parsed (buf ++ more) = .ok (some response) := by
  rw [parsed_append hread]
  cases hbuf : parsed buf with
  | error e => simp [receive_error hbuf] at h
  | ok reply =>
    cases reply with
    | some response' =>
      rw [receive_parsed hbuf] at h
      cases h
      rfl
    | none => exact absurd hbuf hread

/-- What the loop returns is read of all the bytes. -/
theorem parsed_of_receive (h : receive ending buf reads = some (.ok response)) :
    parsed (buf ++ reads.flatten) = .ok (some response) := by
  induction reads generalizing buf with
  | nil =>
    by_cases hread : parsed buf = .ok none
    · obtain ⟨e, he⟩ := @receive_nil _ ending hread
      simp [he] at h
    · exact parsed_of_read hread h _
  | cons read reads ih =>
    by_cases hread : parsed buf = .ok none
    · by_cases hlen : buf.length ≤ maxResponse
      · rw [receive_cons hread hlen] at h
        rw [List.flatten_cons, ← List.append_assoc]
        exact ih h
      · simp [receive_exceeded hread (Nat.lt_of_not_le hlen)] at h
    · exact parsed_of_read hread h _

/-! ## The limit -/

/-- No read ends past `MAX_RESPONSE` and before the `n`-th byte. -/
def Clears (n : Nat) (buf : List UInt8) (reads : List (List UInt8)) : Prop :=
  ∀ k ≤ reads.length, (buf ++ (reads.take k).flatten).length ≤ maxResponse ∨
    n ≤ (buf ++ (reads.take k).flatten).length

theorem Clears.here (h : Clears n buf reads) : buf.length ≤ maxResponse ∨ n ≤ buf.length := by
  simpa using h 0 (Nat.zero_le _)

theorem clears_cons {read : List UInt8} : Clears n buf (read :: reads) ↔
    (buf.length ≤ maxResponse ∨ n ≤ buf.length) ∧ Clears n (buf ++ read) reads := by
  constructor
  · intro h
    refine ⟨h.here, fun k hk => ?_⟩
    simpa using h (k + 1) (by simpa using hk)
  · rintro ⟨hhere, hrest⟩ k hk
    cases k with
    | zero => simpa using hhere
    | succ k => simpa using hrest k (by simpa using hk)

theorem Clears.of_le (h : n ≤ buf.length) : Clears n buf reads := fun k _ =>
  .inr (by rw [List.length_append]; omega)

/-- An accepted reply is returned exactly if the reads clear the limit. -/
theorem receive_ok (h : parsed (buf ++ reads.flatten) = .ok (some response))
    (hn : replyLength (buf ++ reads.flatten) = some n) :
    receive ending buf reads = some (.ok response) ↔ Clears n buf reads := by
  induction reads generalizing buf with
  | nil =>
    obtain ⟨m, hm, hle⟩ := replyLength_le h
    obtain rfl := Option.some.inj (hn.symm.trans hm)
    rw [List.flatten_nil, List.append_nil] at h hle
    exact iff_of_true (receive_parsed h) (.of_le hle)
  | cons read reads ih =>
    have hbuf : (buf ++ (read :: reads).flatten).take buf.length = buf := List.take_left
    by_cases hdone : n ≤ buf.length
    · have hread := parsed_take h hn hdone
      rw [hbuf] at hread
      exact iff_of_true (receive_parsed hread) (.of_le hdone)
    · have hread := parsed_take_lt h hn (Nat.lt_of_not_le hdone)
      rw [hbuf] at hread
      by_cases hlen : buf.length ≤ maxResponse
      · rw [List.flatten_cons, ← List.append_assoc] at h hn
        rw [receive_cons hread hlen, ih h hn, clears_cons]
        exact (and_iff_right (.inl hlen)).symm
      · refine iff_of_false ?_ fun hclears => ?_
        · simp [receive_exceeded hread (Nat.lt_of_not_le hlen)]
        · rcases hclears.here with hle | hle
          · exact hlen hle
          · exact hdone hle

/-- The response of a stream that starts with an accepted reply. -/
def accepted (stream : List UInt8) : Option Response :=
  match parsed stream with
  | .ok reply => reply
  | .error _ => none

theorem request_written {exchange : Exchange} (h : exchange.written = none) :
    request exchange = receive exchange.ending [] exchange.reads := by
  rw [request, h]

/-- However its reads end, a request returns the accepted reply of a stream if that fits. -/
theorem request_accepted {exchange : Exchange} (hwritten : exchange.written = none)
    (hfits : ∀ response n, parsed exchange.bytes = .ok (some response) →
      replyLength exchange.bytes = some n → n ≤ maxResponse + 1) :
    (request exchange).map Except.toOption = some (accepted exchange.bytes) := by
  obtain ⟨result, hresult⟩ := Option.isSome_iff_exists.1
    (@receive_isSome [] exchange.reads exchange.ending)
  rw [request_written hwritten, hresult, Option.map_some, accepted]
  cases result with
  | ok response =>
    have hread : parsed exchange.bytes = .ok (some response) := parsed_of_receive hresult
    rw [hread]
    rfl
  | error e =>
    cases hread : parsed exchange.bytes with
    | error _ => rfl
    | ok reply =>
      cases reply with
      | none => rfl
      | some response =>
        obtain ⟨n, hn, -⟩ := replyLength_le hread
        have hle := hfits response n hread hn
        have hclears : Clears n [] exchange.reads := fun k _ => by omega
        rw [(receive_ok hread hn).2 hclears] at hresult
        cases hresult

/-! ## Splits -/

/-- `count` reads of `size` bytes. -/
def blocks (bytes : List UInt8) (size count : Nat) : List (List UInt8) :=
  (List.range count).map fun i => (bytes.drop (size * i)).take size

theorem blocks_flatten (bytes : List UInt8) (size count : Nat) :
    (blocks bytes size count).flatten = bytes.take (size * count) := by
  induction count with
  | zero => simp [blocks]
  | succ count ih =>
    rw [blocks] at ih ⊢
    rw [List.range_succ, List.map_append, List.flatten_append, ih, Nat.mul_succ, List.take_add]
    simp

theorem blocks_take {bytes : List UInt8} {size count k : Nat} (h : k ≤ count) :
    (blocks bytes size count).take k = blocks bytes size k := by
  rw [blocks, ← List.map_take, List.take_range, Nat.min_eq_left h, blocks]

/-- Each read but the last has `size` bytes. -/
def inBlocks (bytes : List UInt8) (size : Nat) (hpos : 0 < size) (hsize : size ≤ readSize) :
    Exchange where
  written := none
  reads := blocks bytes size ((bytes.length + size - 1) / size)
  ending := none
  reads_fit := by
    intro read hread
    obtain ⟨i, hi, rfl⟩ := List.mem_map.1 hread
    have hstart : (i + 1) * size ≤ bytes.length + size - 1 :=
      (Nat.le_div_iff_mul_le hpos).1 (List.mem_range.1 hi)
    rw [Nat.add_mul, Nat.one_mul, Nat.mul_comm] at hstart
    constructor
    · rw [← List.length_pos_iff, List.length_take, List.length_drop]
      omega
    · rw [List.length_take]
      omega

theorem inBlocks_bytes (bytes : List UInt8) {size : Nat} (hpos : 0 < size)
    (hsize : size ≤ readSize) : (inBlocks bytes size hpos hsize).bytes = bytes := by
  have hcount := Nat.lt_mul_div_succ (bytes.length + size - 1) hpos
  rw [Nat.mul_add, Nat.mul_one] at hcount
  rw [Exchange.bytes, inBlocks, blocks_flatten, List.take_of_length_le (by omega)]

/-- Where the reads of a stream in blocks end. -/
theorem request_inBlocks {stream : List UInt8} {size : Nat} (hpos : 0 < size)
    (hsize : size ≤ readSize) (h : parsed stream = .ok (some response))
    (hn : replyLength stream = some n) :
    request (inBlocks stream size hpos hsize) = some (.ok response) ↔
      ∀ k ≤ (stream.length + size - 1) / size,
        min (size * k) stream.length ≤ maxResponse ∨ n ≤ min (size * k) stream.length := by
  have hbytes : [] ++ (inBlocks stream size hpos hsize).reads.flatten = stream :=
    inBlocks_bytes stream hpos hsize
  have hcount : (inBlocks stream size hpos hsize).reads.length =
      (stream.length + size - 1) / size := by simp [inBlocks, blocks]
  rw [request_written rfl, receive_ok (by rw [hbytes, h]) (by rw [hbytes, hn]), Clears, hcount]
  refine forall₂_congr fun k hk => ?_
  rw [List.nil_append, inBlocks, blocks_take hk, blocks_flatten, List.length_take]

/-- A reply past the limit is not returned when its bytes are read one at a time. -/
theorem request_singles {stream : List UInt8} (h : parsed stream = .ok (some response))
    (hn : replyLength stream = some n) (hlong : maxResponse + 1 < n) :
    request (inBlocks stream 1 (by decide) (by decide)) ≠ some (.ok response) := by
  intro hrequest
  obtain ⟨m, hm, hle⟩ := replyLength_le h
  obtain rfl := Option.some.inj (hn.symm.trans hm)
  -- the read that ends one byte past the limit
  have hlimit := (request_inBlocks _ _ h hn).1 hrequest (maxResponse + 1) (by omega)
  omega

/-- The outcome for the bytes of `stream` does not depend on their split into reads, and an accepted
reply at their start is returned. -/
def SplitFree (stream : List UInt8) : Prop :=
  (∀ a b : Exchange, a.bytes = stream → b.bytes = stream → a.written = b.written →
    (request a).isSome ∧ (request a).map Except.toOption = (request b).map Except.toOption) ∧
  ∀ response, parseResponse stream = some (.ok (some response)) →
    ∀ a : Exchange, a.bytes = stream → a.written = none → request a = some (.ok response)

/-- **The split of a reply.** It does not matter exactly when the stream starts with no accepted
reply of more than `MAX_RESPONSE + 1` bytes. -/
theorem split_free_iff (stream : List UInt8) :
    SplitFree stream ↔ ∀ response n, parseResponse stream = some (.ok (some response)) →
      replyLength stream = some n → n ≤ maxResponse + 1 := by
  constructor
  · rintro ⟨-, hreturned⟩ response n hresponse hn
    by_contra hlong
    have hread := hresponse
    rw [parseResponse_eq] at hread
    exact request_singles (Option.some.inj hread) hn (by omega)
      (hreturned response hresponse _ (inBlocks_bytes stream _ _) rfl)
  · intro hfits
    have hone : ∀ a : Exchange, a.bytes = stream → a.written = none →
        (request a).map Except.toOption = some (accepted stream) := by
      rintro a rfl hwritten
      refine request_accepted hwritten fun response n hread => hfits response n ?_
      rw [parseResponse_eq, hread]
    refine ⟨fun a b ha hb hwritten => ?_, fun response hresponse a ha hwritten => ?_⟩
    · cases hw : a.written with
      | some e => simp [request, hw, hwritten ▸ hw]
      | none =>
        refine ⟨?_, (hone a ha hw).trans (hone b hb (hwritten ▸ hw)).symm⟩
        rw [request_written hw]
        exact receive_isSome
    · obtain ⟨result, hresult, hoption⟩ := Option.map_eq_some_iff.1 (hone a ha hwritten)
      rw [parseResponse_eq] at hresponse
      rw [accepted, Option.some.inj hresponse] at hoption
      rw [hresult]
      cases result with
      | error e => cases hoption
      | ok response' =>
        cases hoption
        rfl

/-- A reply with the largest block that `parse_response` takes. -/
def longReply : List UInt8 := reply noFlags (List.replicate maxResponse 97)

/-- Read in full buffers it is returned, and byte by byte it is not. -/
theorem longReply_split :
    parseResponse longReply = some (.ok (some (.config (List.replicate maxResponse 97)))) ∧
      request (inBlocks longReply readSize (by decide) le_rfl) =
        some (.ok (.config (List.replicate maxResponse 97))) ∧
      request (inBlocks longReply 1 (by decide) (by decide)) ≠
        some (.ok (.config (List.replicate maxResponse 97))) ∧
      ¬ SplitFree longReply := by
  have hblock : (List.replicate maxResponse (97 : UInt8)).length = maxResponse :=
    List.length_replicate
  have hread : parsed longReply = .ok (some (.config (List.replicate maxResponse 97))) := by
    rw [longReply, parsed_reply noFlags (hblock.trans_lt (by decide)), if_neg (by omega)]
  have hlen : longReply.length = maxResponse + 33 := by
    have hline : (Text.encode (noFlags.line maxResponse)).length = 24 := by decide
    have hends : crlf.length = 2 ∧ trailer.length = 7 := by decide
    rw [longReply, reply, List.length_append, List.length_append, List.length_append, hblock, hline,
      hends.1, hends.2]
    omega
  have hn : replyLength longReply = some (maxResponse + 33) := by
    rw [← hlen]
    exact replyLength_reply noFlags hblock.le
  have hparse : parseResponse longReply =
      some (.ok (some (.config (List.replicate maxResponse 97)))) := by
    rw [parseResponse_eq, hread]
  have hlong := request_singles hread hn (by omega)
  refine ⟨hparse, (request_inBlocks _ _ hread hn).2 fun k hk => ?_, hlong, fun hfree => ?_⟩
  · -- the 256th read ends at the limit, and the one after it at the end
    rw [hlen] at hk ⊢
    simp only [maxResponse, readSize] at hk ⊢
    omega
  · exact hlong (hfree.2 _ hparse _ (inBlocks_bytes longReply _ _) rfl)

end Discovery
