import Cachecannon.Discovery.Proof.Reply

/-!
# A rendered configuration is read back

`parseNode_text` reads one entry, `parseNodes_texts` the line of them, `parseConfig_block` the
data block.
-/

namespace Discovery

open Worker (SocketAddr parseIpAddr parseUnsigned)

variable {resolve : List Char → Nat → Option (List SocketAddr)}

/-! ## Nodes -/

theorem display_plain (node : Node) :
    ∀ c ∈ node.ip.display, Text.isWhitespace c = false ∧ c ≠ '|' :=
  Worker.display_forall (by decide) (by decide) (by decide) node.ip

theorem Node.text_plain (node : Node) : ∀ c ∈ node.text, Text.isWhitespace c = false := by
  intro c hc
  simp only [Node.text, List.mem_append, List.mem_cons] at hc
  rcases hc with hc | rfl | hc | rfl | hc
  · exact (node.host_plain c hc).1
  · rfl
  · exact (display_plain node c hc).1
  · rfl
  · exact (digits_plain node.port c hc).1

theorem Node.text_ne_nil (node : Node) : node.text ≠ [] := by simp [Node.text]

theorem parseNode_text (node : Node) : parseNode resolve node.text = .ok node.addr := by
  have hhost : '|' ∉ node.host := fun h => (node.host_plain _ h).2 rfl
  have hip : '|' ∉ node.ip.display := fun h => (display_plain node _ h).2 rfl
  have hport : '|' ∉ Nat.toDigits 10 node.port := fun h => (digits_plain node.port _ h).2.2 rfl
  have hsplit : node.text.splitOn '|' =
      [node.host, node.ip.display, Nat.toDigits 10 node.port] := by
    rw [Node.text, List.splitOn_append_cons_self_of_not_mem hhost,
      List.splitOn_append_cons_self_of_not_mem hip, List.splitOn_eq_singleton hport]
  have hread : parseUnsigned 16 (Nat.toDigits 10 node.port) = some node.port :=
    Worker.parseUnsigned_toDigits node.port_lt
  simp [parseNode, hsplit, hread, Worker.display_ne_nil node.ip_valid,
    Worker.parseIpAddr_display node.ip_valid, Node.addr]

/-- Each node is kept where it comes first. -/
theorem parseNodes_texts (nodes : List Node) (found : List SocketAddr) :
    parseNodes resolve found (nodes.map Node.text) =
      .ok (found ++ ((nodes.map Node.addr).filter fun addr => !found.contains addr).eraseDups) := by
  induction nodes generalizing found with
  | nil => simp [parseNodes]
  | cons node nodes ih =>
    rw [List.map_cons, parseNodes, parseNode_text]
    dsimp only
    rw [ih]
    by_cases hfound : found.contains node.addr
    · rw [if_pos hfound, List.map_cons, List.filter_cons_of_neg (by simpa using hfound)]
    · have hrest : ((nodes.map Node.addr).filter fun addr => !found.contains addr).filter
          (fun addr => !addr == node.addr) =
          (nodes.map Node.addr).filter fun addr => !(found ++ [node.addr]).contains addr := by
        rw [List.filter_filter]
        refine List.filter_congr fun addr _ => ?_
        simp [Bool.and_comm, beq_eq_decide]
      rw [if_neg hfound, List.map_cons, List.filter_cons_of_pos (by simpa using hfound),
        List.eraseDups_cons, hrest, List.append_assoc, List.singleton_append]

/-! ## The data block -/

@[simp] theorem nodesText_one (node : Node) : nodesText [node] = node.text := by
  simp [nodesText]

theorem nodesText_cons (node node' : Node) (nodes : List Node) :
    nodesText (node :: node' :: nodes) = node.text ++ ' ' :: nodesText (node' :: nodes) := by
  simp [nodesText, List.intercalate_cons_cons]

theorem nodesText_ne_nil (node : Node) (nodes : List Node) : nodesText (node :: nodes) ≠ [] := by
  cases nodes with
  | nil => simpa using node.text_ne_nil
  | cons node' nodes => simp [nodesText_cons]

theorem nodesText_head (node : Node) (nodes : List Node) {c : Char}
    (h : (nodesText (node :: nodes)).head? = some c) : Text.isWhitespace c = false := by
  refine node.text_plain c (List.mem_of_mem_head? ?_)
  cases nodes with
  | nil => simpa using h
  | cons node' nodes =>
    rwa [nodesText_cons, List.head?_append_of_ne_nil _ node.text_ne_nil] at h

theorem nodesText_getLast (node : Node) (nodes : List Node) {c : Char}
    (h : (nodesText (node :: nodes)).getLast? = some c) : Text.isWhitespace c = false := by
  induction nodes generalizing node with
  | nil => exact node.text_plain c (List.mem_of_getLast? (by simpa using h))
  | cons node' nodes ih =>
    refine ih node' ?_
    rwa [nodesText_cons, List.append_cons,
      List.getLast?_append_of_ne_nil _ (nodesText_ne_nil node' nodes)] at h

theorem nodesText_no_feed (nodes : List Node) : ∀ c ∈ nodesText nodes, c ≠ '\n' := by
  rintro c hc rfl
  rcases Worker.mem_intercalate hc with hspace | ⟨text, htext, hc⟩
  · cases hspace
  · obtain ⟨node, -, rfl⟩ := List.mem_map.1 htext
    exact absurd (node.text_plain _ hc) (by decide)

/-- Both lines of a data block, as `parse_config` has them. -/
theorem block_lines (version : UInt64) {nodes : List Node} (hne : nodes ≠ []) :
    ((Text.lines (blockText version nodes)).map Text.trim).filter (· ≠ []) =
      [Nat.toDigits 10 version.toNat, nodesText nodes] := by
  obtain ⟨node, nodes, rfl⟩ := List.exists_cons_of_ne_nil hne
  have hversion : ∀ c ∈ Nat.toDigits 10 version.toNat, Text.isWhitespace c = false :=
    fun c hc => (digits_plain _ c hc).1
  have hlines : Text.lines (blockText version (node :: nodes)) =
      [Nat.toDigits 10 version.toNat, nodesText (node :: nodes)] := by
    refine Text.lines_two ?_ (nodesText_no_feed _) ?_ ?_
    · rintro c hc rfl
      exact absurd (hversion _ hc) (by decide)
    · intro hlast
      exact absurd (hversion _ (List.mem_of_getLast? hlast)) (by decide)
    · intro hlast
      exact absurd (nodesText_getLast node nodes hlast) (by decide)
  have hversionTrim : Text.trim (Nat.toDigits 10 version.toNat) = Nat.toDigits 10 version.toNat :=
    Text.trim_eq (fun c hc => hversion c (List.mem_of_mem_head? hc))
      (fun c hc => hversion c (List.mem_of_getLast? hc))
  have hnodesTrim : Text.trim (nodesText (node :: nodes)) = nodesText (node :: nodes) :=
    Text.trim_eq (fun c hc => nodesText_head node nodes hc)
      (fun c hc => nodesText_getLast node nodes hc)
  simp [hlines, hversionTrim, hnodesTrim, nodesText_ne_nil]

/-- A rendered data block is read back, each node once. -/
theorem parseConfig_block (version : UInt64) {nodes : List Node} (hne : nodes ≠ []) :
    parseConfig resolve (Text.encode (blockText version nodes)) =
      .ok ⟨version.toNat, (nodes.map Node.addr).eraseDups⟩ := by
  have hversion : parseUnsigned 64 (Nat.toDigits 10 version.toNat) = some version.toNat :=
    Worker.parseUnsigned_toDigits version.toNat_lt
  have hwords : Text.splitAsciiWhitespace (nodesText nodes) = nodes.map Node.text := by
    refine Text.splitAsciiWhitespace_words fun text htext => ?_
    obtain ⟨node, -, rfl⟩ := List.mem_map.1 htext
    exact ⟨node.text_ne_nil, fun c hc => Text.isWhitespace_of_ascii (node.text_plain c hc)⟩
  have hread : parseNodes resolve [] (nodes.map Node.text) =
      .ok (nodes.map Node.addr).eraseDups := by
    simpa using @parseNodes_texts resolve nodes []
  have hkept : (nodes.map Node.addr).eraseDups ≠ [] := by
    obtain ⟨node, nodes, rfl⟩ := List.exists_cons_of_ne_nil hne
    simp [List.eraseDups_cons]
  unfold parseConfig
  simp only [Text.decode_encode, block_lines version hne, hversion, hwords, hread]
  simp [hkept]

/-! ## Rendered replies -/

/-- **Rendered replies.** A configuration is read back from its data block, and the block from its
reply if it is no longer than `MAX_RESPONSE`; what is read of any bytes stays when more follow. -/
theorem rendered_read (resolve : List Char → Nat → Option (List SocketAddr)) :
    (∀ (version : UInt64) (nodes : List Node) (header : BlockHeader) (block : List UInt8),
      nodes ≠ [] → block = Text.encode (blockText version nodes) →
      parseConfig resolve block = .ok ⟨version.toNat, (nodes.map Node.addr).eraseDups⟩ ∧
      (block.length ≤ maxResponse →
        parseResponse (reply header block) = some (.ok (some (.config block))) ∧
        ∀ bytes, bytes <+: reply header block → bytes ≠ reply header block →
          parseResponse bytes = some (.ok none))) ∧
    (∀ buf more result, parseResponse buf = some result → result ≠ .ok none →
      parseResponse (buf ++ more) = some result) ∧
    ∀ buf, (parseResponse buf).isSome := by
  refine ⟨fun version nodes header block hne hblock => ⟨?_, fun hlen => ⟨?_, ?_⟩⟩, ?_, ?_⟩
  · rw [hblock, parseConfig_block version hne]
  · rw [parseResponse_eq, parsed_reply header (hlen.trans_lt (by decide)), if_neg (by omega)]
  · intro bytes hbytes hproper
    rw [parseResponse_eq, parsed_truncated header hlen hbytes hproper]
  · intro buf more result hread hresult
    rw [parseResponse_eq] at hread ⊢
    obtain rfl := Option.some.inj hread
    rw [parsed_append hresult more]
  · intro buf
    rw [parseResponse_eq, Option.isSome_some]

/-- A node of the local machine whose hostname has `n` characters. -/
def localNode (n : Nat) : Node where
  host := List.replicate n 'a'
  ip := .v4 [127, 0, 0, 1]
  port := 11211
  host_plain := by
    intro c hc
    obtain ⟨-, rfl⟩ := List.mem_replicate.1 hc
    decide
  ip_valid := by simp [Worker.IpAddr.Valid]
  port_lt := by decide

def peerNode : Node where
  host := ['b']
  ip := .v4 [10, 0, 0, 2]
  port := 11212
  host_plain := by
    intro c hc
    obtain rfl := List.mem_singleton.1 hc
    decide
  ip_valid := by simp [Worker.IpAddr.Valid]
  port_lt := by decide

/-- Two nodes, one of them under two names. -/
def twoNodes : List Node := [localNode 1, peerNode, localNode 2]

theorem rendered_read_twoNodes :
    parseConfig (fun _ _ => none) (Text.encode (blockText 12 twoNodes)) =
        .ok ⟨12, [(localNode 1).addr, peerNode.addr]⟩ ∧
      parseResponse (reply noFlags (Text.encode (blockText 12 twoNodes))) =
        some (.ok (some (.config (Text.encode (blockText 12 twoNodes))))) := by
  have hlen : (Text.encode (blockText 12 twoNodes)).length ≤ maxResponse := by decide
  have hkept : (twoNodes.map Node.addr).eraseDups = [(localNode 1).addr, peerNode.addr] := by decide
  obtain ⟨hconfig, hreply⟩ := (rendered_read fun _ _ => none).1 12 twoNodes noFlags _
    (List.cons_ne_nil _ _) rfl
  rw [hkept] at hconfig
  exact ⟨hconfig, (hreply hlen).1⟩

theorem localBlock_length (n : Nat) :
    (Text.encode (blockText 12 [localNode n])).length = n + 20 := by
  have hhost : (Text.encode (List.replicate n 'a')).length = n := by
    rw [Text.encode_ascii]
    · simp
    · intro c hc
      obtain ⟨-, rfl⟩ := List.mem_replicate.1 hc
      decide
  have hparts : blockText 12 [localNode n] = "12\n".toList ++
      (List.replicate n 'a' ++ "|127.0.0.1|11211\n".toList) := by
    have hip : (localNode n).ip.display = "127.0.0.1".toList := by
      show (localNode 0).ip.display = _
      decide
    have hport : Nat.toDigits 10 11211 = "11211".toList := by decide
    have hversion : Nat.toDigits 10 (12 : UInt64).toNat = "12".toList := by decide
    rw [blockText, nodesText_one, Node.text, hip, hversion]
    simp [localNode, hport]
  have hends : (Text.encode "12\n".toList).length = 3 ∧
      (Text.encode "|127.0.0.1|11211\n".toList).length = 17 := by decide
  rw [hparts, Text.encode_append, Text.encode_append, List.length_append, List.length_append,
    hhost, hends.1, hends.2]
  omega

/-- The reply with a block past `MAX_RESPONSE` is refused by its length. -/
theorem rendered_refused :
    parseResponse (reply noFlags (Text.encode (blockText 12 [localNode (2 ^ 20)]))) =
        some (.error (.tooLong (2 ^ 20 + 20))) ∧
      parseResponse (reply noFlags (Text.encode (blockText 12 [localNode (2 ^ 20)]))) ≠
        some (.ok (some (.config (Text.encode (blockText 12 [localNode (2 ^ 20)]))))) := by
  have hlen := localBlock_length (2 ^ 20)
  have hread := parsed_reply noFlags (hlen.trans_lt (by decide))
  rw [hlen, if_pos (by decide)] at hread
  rw [parseResponse_eq, hread]
  exact ⟨rfl, by simp⟩

end Discovery
