import Cachecannon.Worker.Route

/-!
# Redirects keep the slot table routable

A slot table has 16384 entries, all of them endpoint indices (`Routable`). The slot of a `MOVED`
is any `u16`, so the one message that breaks the table's user is a `MOVED` to a known endpoint
with a slot past the table (`OutOfRange`): `redirect_safe_iff` says that a sequence of error
messages is handled as meant exactly when none of them is of that kind.
-/

namespace Worker

def slotCount : Nat := 16384

/-- A slot table that routes: one entry for each slot, each the index of an endpoint. -/
structure Routable (endpoints : List SocketAddr) (table : List UInt16) : Prop where
  length : table.length = slotCount
  entry : ∀ e ∈ table, e.toNat < endpoints.length

/-- The message moves a slot to one of the endpoints: the only kind that is acted on. -/
def Moves (endpoints : List SocketAddr) (msg : List Char) (slot : Nat) : Prop :=
  ∃ r addr, parseRespRedirect msg = some r ∧ r.kind = .moved ∧
    parseSocketAddr r.address = some addr ∧ addr ∈ endpoints ∧ r.slot.toNat = slot

/-- The message moves a slot the table does not have. -/
def OutOfRange (endpoints : List SocketAddr) (msg : List Char) : Prop :=
  ∃ slot, Moves endpoints msg slot ∧ slotCount ≤ slot

/-! ## One message -/

theorem setSlot_routable {endpoints : List SocketAddr} {table : List UInt16}
    (h : Routable endpoints table) {slot idx : Nat} (hslot : slot < slotCount)
    (hidx : idx < endpoints.length) : ∃ table', setSlot table slot idx = some table' ∧
      Routable endpoints table' ∧ ∀ i, i ≠ slot → table'[i]? = table[i]? := by
  refine ⟨table.set slot (UInt16.ofNat idx), by simp [setSlot, h.length, hslot],
    ⟨by simp [h.length], fun e he => ?_⟩, fun i hi => List.getElem?_set_ne (Ne.symm hi)⟩
  rcases List.mem_or_eq_of_mem_set he with he | rfl
  · exact h.entry e he
  · -- the cast to `u16` can only make the index smaller
    rw [UInt16.toNat_ofNat']
    exact Nat.lt_of_le_of_lt (Nat.mod_le _ _) hidx

/-- A message that moves no slot changes nothing. -/
theorem handleError_ignored {s : TaskSharedState} {msg : List Char}
    (h : ∀ slot, ¬ Moves s.endpoints msg slot) : handleError s msg = some s := by
  unfold handleError
  split
  · rename_i r hr
    unfold checkRespRedirectParsed
    split
    · rfl
    · rename_i hkind
      split
      · rename_i addr table haddr _
        split
        · rename_i idx hidx
          obtain ⟨hlt, hat, -⟩ := List.findIdx?_eq_some_iff_getElem.1 hidx
          have hmem : addr ∈ s.endpoints := of_decide_eq_true hat ▸ List.getElem_mem hlt
          exact absurd ⟨r, addr, hr, by simpa using hkind, haddr, hmem, rfl⟩ (h r.slot.toNat)
        · rfl
      · rfl
  · rfl

/-- A `MOVED` to an endpoint writes its index at the slot the message names. -/
theorem handleError_moved {s : TaskSharedState} {table : List UInt16} {msg : List Char}
    {r : Redirect} {addr : SocketAddr} {idx : Nat} (hr : parseRespRedirect msg = some r)
    (hkind : r.kind = .moved) (haddr : parseSocketAddr r.address = some addr)
    (hs : s.slotTable = some table) (hidx : s.endpoints.findIdx? (· = addr) = some idx) :
    handleError s msg =
      (setSlot table r.slot.toNat idx).map fun t => { s with slotTable := some t } := by
  simp [handleError, hr, checkRespRedirectParsed, hkind, haddr, hs, hidx]

/-- A message that moves a slot writes the index of an endpoint at that slot. -/
theorem handleError_moves {s : TaskSharedState} {table : List UInt16}
    (hs : s.slotTable = some table) {msg : List Char} {slot : Nat}
    (h : Moves s.endpoints msg slot) : ∃ idx < s.endpoints.length,
      handleError s msg = (setSlot table slot idx).map fun t => { s with slotTable := some t } := by
  obtain ⟨r, addr, hr, hkind, haddr, hmem, rfl⟩ := h
  obtain ⟨idx, hidx⟩ : ∃ idx, s.endpoints.findIdx? (· = addr) = some idx := by
    rw [← Option.isSome_iff_exists, List.findIdx?_isSome]
    simpa using hmem
  obtain ⟨hlt, -⟩ := List.findIdx?_eq_some_iff_getElem.1 hidx
  exact ⟨idx, hlt, handleError_moved hr hkind haddr hs hidx⟩

theorem handleError_outOfRange {s : TaskSharedState} {table : List UInt16}
    (hs : s.slotTable = some table) (ht : Routable s.endpoints table) {msg : List Char}
    (h : OutOfRange s.endpoints msg) : handleError s msg = none := by
  obtain ⟨slot, hmoves, hslot⟩ := h
  obtain ⟨idx, -, heq⟩ := handleError_moves hs hmoves
  rw [heq, setSlot, if_neg (by rw [ht.length]; omega)]
  rfl

section

variable (hashSlot ring : List UInt8 → Nat)

/-- Handling `msg` in the state `s` does not panic, changes at most the slot that the message
moves, and leaves a table that routes every key to an endpoint. -/
def StepSafe (s : TaskSharedState) (msg : List Char) : Prop :=
  ∃ s' table table', handleError s msg = some s' ∧ s'.endpoints = s.endpoints ∧
    s.slotTable = some table ∧ s'.slotTable = some table' ∧
    (∀ i, table'[i]? ≠ table[i]? → Moves s.endpoints msg i) ∧ Routable s.endpoints table' ∧
    ∀ key, ∃ ep < s.endpoints.length, routeKey hashSlot ring s' key = some ep

/-- Every message of the sequence is reached and handled as meant. -/
def RedirectSafe (s : TaskSharedState) (msgs : List (List Char)) : Prop :=
  ∀ pre msg post, msgs = pre ++ msg :: post →
    ∃ s', handleErrors s pre = some s' ∧ StepSafe hashSlot ring s' msg

variable {hashSlot ring}

theorem routeKey_routable (hhash : ∀ key, hashSlot key < slotCount) {s : TaskSharedState}
    {table : List UInt16} (hs : s.slotTable = some table) (ht : Routable s.endpoints table)
    (key : List UInt8) : ∃ ep < s.endpoints.length, routeKey hashSlot ring s key = some ep := by
  have hlt : hashSlot key < table.length := by
    rw [ht.length]
    exact hhash key
  refine ⟨table[hashSlot key].toNat, ht.entry _ (List.getElem_mem hlt), ?_⟩
  simp [routeKey, routePartition, hs, hlt]

theorem stepSafe_of {s : TaskSharedState} {table : List UInt16}
    (hhash : ∀ key, hashSlot key < slotCount) (hs : s.slotTable = some table)
    (ht : Routable s.endpoints table) {msg : List Char} (h : ¬ OutOfRange s.endpoints msg) :
    StepSafe hashSlot ring s msg := by
  by_cases hmoves : ∃ slot, Moves s.endpoints msg slot
  · obtain ⟨slot, hslot⟩ := hmoves
    have hlt : slot < slotCount := Nat.lt_of_not_le fun hle => h ⟨slot, hslot, hle⟩
    obtain ⟨idx, hidx, heq⟩ := handleError_moves hs hslot
    obtain ⟨table', hset, ht', hframe⟩ := setSlot_routable ht hlt hidx
    refine ⟨{ s with slotTable := some table' }, table, table', by rw [heq, hset]; rfl, rfl, hs,
      rfl, fun i hi => ?_, ht',
      routeKey_routable (s := { s with slotTable := some table' }) hhash rfl ht'⟩
    by_cases his : i = slot
    · rwa [his]
    · exact absurd (hframe i his) hi
  · have hignored := handleError_ignored fun slot hslot => hmoves ⟨slot, hslot⟩
    exact ⟨s, table, table, hignored, rfl, hs, hs, fun i hi => absurd rfl hi, ht,
      routeKey_routable hhash hs ht⟩

theorem handleErrors_routable {s : TaskSharedState} {table : List UInt16}
    (hs : s.slotTable = some table) (ht : Routable s.endpoints table) {msgs : List (List Char)}
    (h : ∀ msg ∈ msgs, ¬ OutOfRange s.endpoints msg) : ∃ s' table', handleErrors s msgs = some s' ∧
      s'.endpoints = s.endpoints ∧ s'.slotTable = some table' ∧ Routable s.endpoints table' := by
  induction msgs generalizing s table with
  | nil => exact ⟨s, table, rfl, rfl, hs, ht⟩
  | cons msg msgs ih =>
    -- the routing functions play no part here
    obtain ⟨s₁, _, table₁, hmsg, hends, -, hs₁, -, ht₁, -⟩ :=
      (stepSafe_of (fun _ => by decide) hs ht (h msg (by simp)) :
        StepSafe (fun _ => 0) (fun _ => 0) s msg)
    rw [← hends] at ht₁ h
    obtain ⟨s₂, table₂, hrun, hends₂, hs₂, ht₂⟩ :=
      ih hs₁ ht₁ fun m hm => h m (List.mem_cons_of_mem _ hm)
    refine ⟨s₂, table₂, ?_, hends₂.trans hends, hs₂, hends ▸ ht₂⟩
    simpa [handleErrors, hmsg] using hrun

/-- The first message out of range would panic, so none is. -/
theorem inRange_of_redirectSafe {s : TaskSharedState} {table : List UInt16}
    (hs : s.slotTable = some table) (ht : Routable s.endpoints table) {msgs : List (List Char)}
    (h : RedirectSafe hashSlot ring s msgs) : ∀ msg ∈ msgs, ¬ OutOfRange s.endpoints msg := by
  induction msgs generalizing s table with
  | nil => simp
  | cons msg msgs ih =>
    obtain ⟨_, hnil, s₁, _, table₁, hmsg, hends, -, hs₁, -, ht₁, -⟩ := h [] msg msgs rfl
    cases hnil
    have hrest : RedirectSafe hashSlot ring s₁ msgs := by
      rintro pre m post rfl
      obtain ⟨s', hrun, hsafe⟩ := h (msg :: pre) m post rfl
      refine ⟨s', ?_, hsafe⟩
      simpa [handleErrors, hmsg] using hrun
    intro m hm
    rcases List.mem_cons.1 hm with rfl | hm
    · intro hout
      rw [handleError_outOfRange hs ht hout] at hmsg
      cases hmsg
    · exact hends ▸ ih hs₁ (hends ▸ ht₁) hrest m hm

/-- **MOVED redirects.** From a routable table, a sequence of error messages is handled as meant
(no index out of bounds, at most the named slot changed, every key routed to an endpoint)
exactly when no message moves a slot past the table to a known endpoint. -/
theorem redirect_safe_iff (hhash : ∀ key, hashSlot key < slotCount) (s : TaskSharedState)
    (table : List UInt16) (hs : s.slotTable = some table) (ht : Routable s.endpoints table)
    (msgs : List (List Char)) :
    RedirectSafe hashSlot ring s msgs ↔ ∀ msg ∈ msgs, ¬ OutOfRange s.endpoints msg := by
  constructor
  · exact inRange_of_redirectSafe hs ht
  · rintro h pre msg post rfl
    obtain ⟨s', table', hrun, hends, hs', ht'⟩ :=
      handleErrors_routable hs ht fun m (hm : m ∈ pre) => h m (by simp [hm])
    rw [← hends] at ht' h
    exact ⟨s', hrun, stepSafe_of hhash hs' ht' (h msg (by simp))⟩

end

/-! ## A cluster of one node -/

def crc16 (key : List UInt8) : Nat :=
  key.foldl (fun crc byte => (List.range 8).foldl (fun crc _ =>
    if crc / 2 ^ 15 % 2 = 1 then (crc * 2 % 2 ^ 16) ^^^ 0x1021 else crc * 2 % 2 ^ 16)
      (crc ^^^ byte.toNat * 2 ^ 8)) 0

/-- The part of a key that is hashed: what stands between the first `\x7b` and the next `\x7d`,
when that is not empty, else the whole key. -/
def hashTag (key : List UInt8) : List UInt8 :=
  let afterOpen := (key.dropWhile (· ≠ 0x7b)).drop 1
  let tag := afterOpen.takeWhile (· ≠ 0x7d)
  if tag.isEmpty || tag.length = afterOpen.length then key else tag

def clusterHashSlot (key : List UInt8) : Nat := crc16 (hashTag key) % slotCount

theorem clusterHashSlot_lt (key : List UInt8) : clusterHashSlot key < slotCount :=
  Nat.mod_lt _ (by decide)

def oneNode : TaskSharedState where
  endpoints := [.v4 [127, 0, 0, 1] 7000]
  slotTable := some (List.replicate slotCount 0)

theorem oneNode_routable : Routable oneNode.endpoints (List.replicate slotCount 0) := by
  refine ⟨List.length_replicate, fun e he => ?_⟩
  rw [List.eq_of_mem_replicate he]
  decide

theorem redirect_safe_oneNode : RedirectSafe clusterHashSlot (fun _ => 0) oneNode
    ["MOVED 16383 127.0.0.1:7000".toList, "ERR unknown".toList] := by
  apply (redirect_safe_iff clusterHashSlot_lt oneNode _ rfl oneNode_routable _).2
  have hmoved : parseRespRedirect "MOVED 16383 127.0.0.1:7000".toList =
      some ⟨.moved, 16383, "127.0.0.1:7000".toList⟩ := by decide +kernel
  have herr : parseRespRedirect "ERR unknown".toList = none := by decide +kernel
  rintro msg hmsg ⟨slot, ⟨r, addr, hr, -, -, -, rfl⟩, hslot⟩
  simp only [List.mem_cons, List.not_mem_nil, or_false] at hmsg
  rcases hmsg with rfl | rfl
  · rw [hmoved] at hr
    cases hr
    exact absurd hslot (by decide)
  · rw [herr] at hr
    cases hr

/-- A slot that is a `u16` but no slot of the table. -/
theorem redirect_panics : Routable oneNode.endpoints (List.replicate slotCount 0) ∧
    ¬ RedirectSafe clusterHashSlot (fun _ => 0) oneNode ["MOVED 20000 127.0.0.1:7000".toList] := by
  refine ⟨oneNode_routable, fun h => ?_⟩
  have hmoved : parseRespRedirect "MOVED 20000 127.0.0.1:7000".toList =
      some ⟨.moved, 20000, "127.0.0.1:7000".toList⟩ := by decide +kernel
  have haddr : parseSocketAddr "127.0.0.1:7000".toList = some (.v4 [127, 0, 0, 1] 7000) := by
    decide +kernel
  refine inRange_of_redirectSafe rfl oneNode_routable h _ (by simp) ⟨20000, ⟨_, _, hmoved, rfl,
    haddr, by decide, rfl⟩, by decide⟩

end Worker
