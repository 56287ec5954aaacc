import Cachecannon.KvReplay.Proof.Send
import Mathlib.Order.ConditionallyCompleteLattice.Basic
import Mathlib.Order.Lattice.Nat

/-!
# KV request accounting

`Accounts`: what a request reports and the operations it tries, by the objects that exist, the
chunks they are of, and the GETs answered with a nil or an error. `runRequest_accounts`: every
outcome is so accounted for, whatever the pipeline depth, there is one unless the connection
fails, and a second run against a store that kept the SETs finds every chunk.
-/

namespace KvReplay

/-- `kvtrace` gives the objects chunk by chunk, `ranks` of each. -/
structure ChunkByChunk (mapper : ObjectMapper) : Prop where
  ranks : 1 ≤ mapper.ranks
  length : ∀ chunks, (mapper.objects chunks).length = chunks.length * mapper.ranks
  chunkIndex : ∀ chunks, ∀ i < (mapper.objects chunks).length,
    chunkOf (mapper.objects chunks) i = i / mapper.ranks

/-- The lookup found object `i`. -/
def LookupReply.found : LookupReply → Nat → Bool
  | .values replies, i => (replies i).exist == some true
  | _, _ => false

/-- The reply to operation `k` of a loop is a nil or an error. -/
def BadReply (its : Nat → Iteration) (k : Nat) : Prop :=
  ∃ reply, (its k).recv = some reply ∧ reply.bad = true

/-- The store rules, by the objects of a request. -/
def Stores (objects : List Object) (found : Nat → Bool) (lookupHit : Nat) :
    WriteRule → List Nat
  | .setFromMiss => (List.range objects.length).filter fun i => lookupHit ≤ chunkOf objects i
  | .insertIfAbsent => (List.range objects.length).filter fun i => !found i

/-- What the outcome of a request says, of a run that tried `ops`. -/
structure Accounts (cfg : RunConfig) (req : Prompt) (ex : Exchange) (o : Outcome)
    (ops : List Op) : Prop where
  lookupHit : IsGreatest {c | c ≤ req.chunks.length ∧
    ∀ i < (cfg.mapper.objects req.chunks).length,
      chunkOf (cfg.mapper.objects req.chunks) i < c → ex.lookup.found i = true} o.lookupHit
  gets : o.gets = o.lookupHit * cfg.mapper.ranks
  hit : IsLeast (insert o.lookupHit {c | ∃ k < o.gets, BadReply ex.loads k ∧
    chunkOf (cfg.mapper.objects req.chunks) k = c}) o.hit
  tokens : o.cachedTokens + o.newTokens = req.inputTokens
  lastToken : 0 < req.inputTokens → o.cachedTokens < req.inputTokens
  tried : ops = (List.range o.gets).map .get ++
    (Stores (cfg.mapper.objects req.chunks) ex.lookup.found o.lookupHit cfg.writeRule).map .set
  sets : o.sets =
    (Stores (cfg.mapper.objects req.chunks) ex.lookup.found o.lookupHit cfg.writeRule).length
  loadedKept : ∀ i, .set i ∈ ops → o.hit ≤ chunkOf (cfg.mapper.objects req.chunks) i

/-! ## The lookup -/

theorem mapM_found {f : Nat → Option Bool} :
    ∀ {l : List Nat} {exist : List Bool}, l.mapM f = some exist →
      exist = l.map fun i => f i == some true
  | [], exist, h => by
    rw [List.mapM_nil] at h
    cases h
    rfl
  | i :: l, exist, h => by
    rw [List.mapM_cons] at h
    cases hi : f i with
    | none => simp [hi] at h
    | some b =>
      cases hl : l.mapM f with
      | none => simp [hi, hl] at h
      | some rest =>
        simp only [hi, hl, Option.pure_def, Option.bind_eq_bind, Option.bind_some,
          Option.some.injEq] at h
        rw [← h, List.map_cons, hi, mapM_found hl]
        cases b <;> rfl

theorem exist_found {reply : LookupReply} {n : Nat} {exist : List Bool}
    (h : reply.exist n = some exist) : exist = (List.range n).map reply.found := by
  cases reply with
  | values replies => exact mapM_found h
  | _ => cases h

theorem mem_take_range_map {n c : Nat} {found : Nat → Bool} :
    (∀ a ∈ ((List.range n).map found).take c, id a = true) ↔
      ∀ i < n, i < c → found i = true := by
  rw [← List.map_take, List.take_range]
  simp only [List.mem_map, List.mem_range, forall_exists_index, and_imp, forall_apply_eq_imp_iff₂,
    id_eq]
  exact ⟨fun h i hn hc => h i (Nat.lt_min.mpr ⟨hc, hn⟩),
    fun h i hi => h i (Nat.lt_min.mp hi).2 (Nat.lt_min.mp hi).1⟩

/-- `lookup_prefix` of the replies: the most chunks of which every object exists. -/
theorem lookupPrefix_isGreatest {mapper : ObjectMapper} (h : ChunkByChunk mapper)
    (chunks : List Nat) (found : Nat → Bool) :
    IsGreatest {c | c ≤ chunks.length ∧ ∀ i < (mapper.objects chunks).length,
        chunkOf (mapper.objects chunks) i < c → found i = true}
      (lookupPrefix ((List.range (mapper.objects chunks).length).map found) mapper.ranks) := by
  have hranks := h.ranks
  have hgreatest := Prefix.chunkPrefix_isGreatest (max mapper.ranks 1) id
    ((List.range (mapper.objects chunks).length).map found)
  rw [Nat.max_eq_left hranks, List.length_map, List.length_range] at hgreatest
  have hchunks : ((mapper.objects chunks).length + mapper.ranks - 1) / mapper.ranks =
      chunks.length := by
    rw [h.length, Nat.add_sub_assoc hranks, Nat.mul_comm, Nat.mul_add_div hranks,
      Nat.div_eq_of_lt (by omega), Nat.add_zero]
  have hsets : {c | c ≤ ((mapper.objects chunks).length + mapper.ranks - 1) / mapper.ranks ∧
        ∀ a ∈ ((List.range (mapper.objects chunks).length).map found).take (c * mapper.ranks),
          id a = true} =
      {c | c ≤ chunks.length ∧ ∀ i < (mapper.objects chunks).length,
        chunkOf (mapper.objects chunks) i < c → found i = true} := by
    ext c
    show c ≤ _ ∧ _ ↔ c ≤ _ ∧ _
    rw [hchunks, mem_take_range_map]
    refine and_congr_right fun _ => forall₂_congr fun i hi => ?_
    rw [h.chunkIndex chunks i hi, Nat.div_lt_iff_lt_mul hranks]
  rw [← hsets]
  unfold lookupPrefix
  rw [Nat.max_eq_left hranks]
  exact hgreatest

/-! ## The load -/

theorem onGet_hit (objects : List Object) (op : Op) (reply : OpReply) (o : Outcome) :
    (onGet objects op reply o).hit =
      if reply.bad then min o.hit (chunkOf objects op.userData) else o.hit := by
  unfold onGet
  split <;> rfl

/-- A bound of `hit` bounds what it was and the chunk of every bad reply. -/
theorem le_foldReplies_hit (objects : List Object) (x : Nat) :
    ∀ (ops : List Op) (its : Nat → Iteration) (o : Outcome),
      x ≤ (foldReplies (onGet objects) ops its o).hit ↔
        x ≤ o.hit ∧ ∀ k op, ops[k]? = some op → BadReply its k → x ≤ chunkOf objects op.userData
  | [], its, o => by simp [foldReplies]
  | op :: ops, its, o => by
    have hcons : (∀ k op', (op :: ops)[k]? = some op' → BadReply its k →
          x ≤ chunkOf objects op'.userData) ↔
        (BadReply its 0 → x ≤ chunkOf objects op.userData) ∧
          ∀ k op', ops[k]? = some op' → BadReply (fun t => its (t + 1)) k →
            x ≤ chunkOf objects op'.userData := by
      constructor
      · intro h
        exact ⟨fun hbad => h 0 op rfl hbad, fun k op' hget hbad => h (k + 1) op' hget hbad⟩
      · rintro ⟨hzero, hsucc⟩ k op' hget hbad
        cases k with
        | zero =>
          cases hget
          exact hzero hbad
        | succ k => exact hsucc k op' hget hbad
    rw [foldReplies, le_foldReplies_hit objects x ops, hcons, ← and_assoc]
    refine and_congr_left fun _ => ?_
    cases hrecv : (its 0).recv with
    | none =>
      have hgood : ¬ BadReply its 0 := by rintro ⟨reply, hreply, -⟩; simp [hrecv] at hreply
      simp [hgood]
    | some reply =>
      have hbad : BadReply its 0 ↔ reply.bad = true := by simp [BadReply, hrecv]
      rw [hbad, Option.elim_some, onGet_hit]
      split
      · rename_i h
        simp [h]
      · rename_i h
        simp [h]

theorem isLeast_of_le_iff {s : Set Nat} {a : Nat} (hs : s.Nonempty)
    (h : ∀ x, x ≤ a ↔ ∀ c ∈ s, x ≤ c) : IsLeast s a := by
  have hmem := Nat.sInf_mem hs
  have hle : sInf s ≤ a := (h _).mpr fun c hc => Nat.sInf_le hc
  have hge : a ≤ sInf s := (h a).mp (Nat.le_refl a) _ hmem
  rw [Nat.le_antisymm hge hle]
  exact isLeast_csInf hs

theorem foldReplies_hit (objects : List Object) (gets : Nat) (its : Nat → Iteration)
    (o : Outcome) :
    IsLeast (insert o.hit {c | ∃ k < gets, BadReply its k ∧ chunkOf objects k = c})
      (foldReplies (onGet objects) ((List.range gets).map .get) its o).hit := by
  refine isLeast_of_le_iff ⟨o.hit, Set.mem_insert _ _⟩ fun x => ?_
  rw [le_foldReplies_hit]
  constructor
  · rintro ⟨hx, hbad⟩ c (rfl | ⟨k, hk, hreply, rfl⟩)
    · exact hx
    · exact hbad k (.get k) (by simp [hk]) hreply
  · refine fun hall => ⟨hall _ (Set.mem_insert _ _), fun k op hget hreply => ?_⟩
    have hk : k < gets := by
      have hlt := (List.getElem?_eq_some_iff.mp hget).1
      simpa using hlt
    have hop : op = .get k := by simpa [hk] using hget.symm
    rw [hop]
    exact hall _ (.inr ⟨k, hk, hreply, rfl⟩)

/-! ## The tokens -/

theorem cachedTokens_le (hitChunks chunkTokens inputTokens : Nat) :
    cachedTokens hitChunks chunkTokens inputTokens ≤ inputTokens ∧
      (0 < inputTokens → cachedTokens hitChunks chunkTokens inputTokens < inputTokens) := by
  unfold cachedTokens
  simp only
  split <;> omega

/-! ## The store -/

theorem range'_eq_filter {from_ n : Nat} (h : from_ ≤ n) :
    List.range' from_ (n - from_) = (List.range n).filter fun i => from_ ≤ i := by
  have hsplit : List.range n = List.range' 0 from_ ++ List.range' from_ (n - from_) := by
    rw [List.range_eq_range', ← Nat.add_sub_cancel' h, ← List.range'_append_1]
    simp
  rw [hsplit, List.filter_append, List.filter_eq_nil_iff.mpr, List.nil_append,
    List.filter_eq_self.mpr]
  · intro i hi
    simpa using (List.mem_range'_1.mp hi).1
  · intro i hi
    have hlt := (List.mem_range'_1.mp hi).2
    simp only [decide_eq_true_eq]
    omega

theorem zipIdx_range_map (n : Nat) (found : Nat → Bool) :
    ((List.range n).map found).zipIdx = (List.range n).map fun i => (found i, i) :=
  List.ext_getElem (by simp) (by simp)

/-- The write rule stores what `Stores` says, of replies `found`. -/
theorem sets_eq {mapper : ObjectMapper} (h : ChunkByChunk mapper) (chunks : List Nat)
    (found : Nat → Bool) {hit : Nat} (hhit : hit ≤ chunks.length) (rule : WriteRule) :
    rule.sets (hit * mapper.ranks) (mapper.objects chunks).length
        ((List.range (mapper.objects chunks).length).map found) =
      Stores (mapper.objects chunks) found hit rule := by
  cases rule with
  | setFromMiss =>
    have hle : hit * mapper.ranks ≤ (mapper.objects chunks).length := by
      rw [h.length]
      exact Nat.mul_le_mul_right _ hhit
    rw [WriteRule.sets, range'_eq_filter hle, Stores]
    refine List.filter_congr fun i hi => ?_
    rw [h.chunkIndex chunks i (List.mem_range.mp hi)]
    exact decide_eq_decide.mpr (Nat.le_div_iff_mul_le h.ranks).symm
  | insertIfAbsent =>
    rw [WriteRule.sets, zipIdx_range_map, List.filter_map, List.map_map, Stores]
    exact List.map_id' _

/-- Nothing of the first `lookupHit` chunks is stored. -/
theorem mem_stores {objects : List Object} {found : Nat → Bool} {lookupHit : Nat}
    {rule : WriteRule} {i : Nat}
    (hfound : ∀ i < objects.length, chunkOf objects i < lookupHit → found i = true)
    (hi : i ∈ Stores objects found lookupHit rule) : lookupHit ≤ chunkOf objects i := by
  cases rule with
  | setFromMiss => simpa using (List.mem_filter.mp hi).2
  | insertIfAbsent =>
    obtain ⟨hrange, habsent⟩ := List.mem_filter.mp hi
    by_contra hlt
    simp [hfound i (List.mem_range.mp hrange) (Nat.lt_of_not_le hlt)] at habsent

/-! ## The request -/

/-- The connection works, and every EXISTS is answered with an integer. -/
structure Delivers (n : Nat) (ex : Exchange) : Prop where
  lookup : ∃ replies, ex.lookup = .values replies ∧ ∀ i < n, (replies i).exist.isSome
  loads : ∀ t m, Goes (ex.loads t) m
  stores : ∀ t m, Goes (ex.stores t) m

theorem answered_of_goes (pipelineDepth : Nat) :
    ∀ (left pending todo : Nat) (its : Nat → Iteration), (∀ t m, Goes (its t) m) →
      Answered pipelineDepth left pending todo its
  | 0, _, _, _, _ => trivial
  | left + 1, _, _, _, h =>
    ⟨h 0 _, answered_of_goes pipelineDepth left _ _ _ fun t => h (t + 1)⟩

theorem mapM_isSome {f : Nat → Option Bool} :
    ∀ {l : List Nat}, (∀ i ∈ l, (f i).isSome) → ∃ exist, l.mapM f = some exist
  | [], _ => ⟨[], by simp⟩
  | i :: l, h => by
    obtain ⟨b, hb⟩ := Option.isSome_iff_exists.mp (h i List.mem_cons_self)
    obtain ⟨rest, hrest⟩ := mapM_isSome fun j hj => h j (List.mem_cons_of_mem _ hj)
    exact ⟨b :: rest, by simp [List.mapM_cons, hb, hrest]⟩

/-- A request is done on an idle connection that works. -/
theorem runRequest_done {cfg : RunConfig} (hdepth : 1 ≤ cfg.pipelineDepth) {req : Prompt}
    {ex : Exchange} {s : Sending} (h : Idle s)
    (hdelivers : Delivers (cfg.mapper.objects req.chunks).length ex) :
    ∃ o s', runRequest cfg req ex s = some (.ok o, s') := by
  have hends := runRequest_ends hdepth req ex h
  generalize runRequest cfg req ex s = ran at hends ⊢
  cases hends with
  | empty => exact ⟨_, _, rfl⟩
  | done => exact ⟨_, _, rfl⟩
  | lookupFails e hchunks hexist =>
    obtain ⟨replies, hlookup, hreplies⟩ := hdelivers.lookup
    obtain ⟨exist, hsome⟩ := mapM_isSome fun i hi => hreplies i (List.mem_range.mp hi)
    rw [hlookup, LookupReply.exist, hsome] at hexist
    cases hexist
  | sendFails exist s' hchunks hlooked hstops =>
    exact absurd ⟨answered_of_goes _ _ _ _ _ hdelivers.loads,
      answered_of_goes _ _ _ _ _ hdelivers.stores⟩ hstops

theorem loaded_lookupHit (cfg : RunConfig) (req : Prompt) (exist : List Bool)
    (its : Nat → Iteration) :
    (loaded cfg req exist its).lookupHit = lookupPrefix exist cfg.mapper.ranks :=
  (foldReplies_keeps _ _ _ _).1

theorem accounts_of_ok {cfg : RunConfig} (hdepth : 1 ≤ cfg.pipelineDepth)
    (hmapper : ChunkByChunk cfg.mapper) {req : Prompt} {ex : Exchange} {s s' : Sending}
    (h : Idle s) {o : Outcome} (hrun : runRequest cfg req ex s = some (.ok o, s')) :
    ∃ ops, s'.tried = s.tried ++ ops ∧ Accounts cfg req ex o ops := by
  have hends := runRequest_ends hdepth req ex h
  rw [hrun] at hends
  cases hends with
  | empty hchunks =>
    have hobjects : (cfg.mapper.objects req.chunks).length = 0 := by
      simp [hmapper.length, hchunks]
    have hnone : Stores (cfg.mapper.objects req.chunks) ex.lookup.found 0 cfg.writeRule = [] := by
      cases cfg.writeRule <;> simp [Stores, hobjects]
    refine ⟨[], (List.append_nil _).symm, ?_⟩
    constructor
    · refine ⟨⟨Nat.zero_le _, fun i _ hi => absurd hi (Nat.not_lt_zero _)⟩, fun c hc => ?_⟩
      exact hc.1.trans (by simp [hchunks])
    · simp [Outcome.default]
    · simp [Outcome.default]
    · simp [Outcome.default]
    · exact fun hinput => hinput
    · simp [Outcome.default, hnone]
    · simp [Outcome.default, hnone]
    · simp
  | done exist s' hchunks hlooked _ _ _ _ _ htried =>
    have hexist := exist_found hlooked
    have hgreatest := lookupPrefix_isGreatest hmapper req.chunks ex.lookup.found
    rw [← hexist] at hgreatest
    have hsets : setOps cfg (cfg.mapper.objects req.chunks).length exist =
        (Stores (cfg.mapper.objects req.chunks) ex.lookup.found
          (lookupPrefix exist cfg.mapper.ranks) cfg.writeRule).map .set := by
      rw [setOps]
      nth_rewrite 2 [hexist]
      rw [sets_eq hmapper req.chunks ex.lookup.found hgreatest.1.1]
    have hhit := foldReplies_hit (cfg.mapper.objects req.chunks)
      (lookupPrefix exist cfg.mapper.ranks * cfg.mapper.ranks) ex.loads
      (lookedUp req.inputTokens (lookupPrefix exist cfg.mapper.ranks))
    have hle := hhit.2 (Set.mem_insert _ _)
    have htokens := cachedTokens_le
      (foldReplies (onGet (cfg.mapper.objects req.chunks)) (getOps cfg exist) ex.loads
        (lookedUp req.inputTokens (lookupPrefix exist cfg.mapper.ranks))).hit
      cfg.chunkTokens req.inputTokens
    have hgets : (getOps cfg exist).length =
      lookupPrefix exist cfg.mapper.ranks * cfg.mapper.ranks := by simp [getOps]
    have hlookup := loaded_lookupHit cfg req exist ex.loads
    refine ⟨_, by rw [htried, List.append_assoc], ?_⟩
    constructor
    · show IsGreatest _ (loaded cfg req exist ex.loads).lookupHit
      rw [hlookup]
      exact hgreatest
    · show (getOps cfg exist).length = (loaded cfg req exist ex.loads).lookupHit * _
      rw [hlookup, hgets]
    · show IsLeast (insert (loaded cfg req exist ex.loads).lookupHit
        {c | ∃ k < (getOps cfg exist).length, _}) _
      rw [hlookup, hgets]
      exact hhit
    · show cachedTokens _ _ _ + (req.inputTokens - cachedTokens _ _ _) = _
      exact Nat.add_sub_cancel' htokens.1
    · exact htokens.2
    · show _ = (List.range (getOps cfg exist).length).map Op.get ++
        (Stores _ _ (loaded cfg req exist ex.loads).lookupHit _).map Op.set
      rw [hlookup, hgets, hsets, getOps]
    · show (setOps cfg _ exist).length =
        (Stores _ _ (loaded cfg req exist ex.loads).lookupHit _).length
      rw [hlookup, hsets, List.length_map]
    · intro i hi
      rw [hsets] at hi
      have hmem : i ∈ Stores (cfg.mapper.objects req.chunks) ex.lookup.found
          (lookupPrefix exist cfg.mapper.ranks) cfg.writeRule := by
        simpa [getOps] using hi
      exact hle.trans (mem_stores hgreatest.1.2 hmem)

/-- The key of an object. -/
def keyOf (objects : List Object) (i : Nat) : Nat := (objects.map Object.objId).getD i 0

/-- The store that answers `later` kept what the store that answered `earlier` had, and the SETs
of the run between them. -/
def Keeps (objects : List Object) (earlier : LookupReply) (ops : List Op) (later : LookupReply) :
    Prop :=
  ∀ i < objects.length,
    (earlier.found i = true ∨ ∃ j, .set j ∈ ops ∧ keyOf objects j = keyOf objects i) →
      later.found i = true

/-- With every object found, every chunk is hit and there is nothing to store. -/
theorem accounts_full {cfg : RunConfig} (hmapper : ChunkByChunk cfg.mapper) {req : Prompt}
    {ex : Exchange} {o : Outcome} {ops : List Op} (h : Accounts cfg req ex o ops)
    (hfound : ∀ i < (cfg.mapper.objects req.chunks).length, ex.lookup.found i = true) :
    o.lookupHit = req.chunks.length ∧ o.sets = 0 ∧ ∀ i, .set i ∉ ops := by
  have hhit : o.lookupHit = req.chunks.length :=
    Nat.le_antisymm h.lookupHit.1.1 (h.lookupHit.2 ⟨Nat.le_refl _, fun i hi _ => hfound i hi⟩)
  have hnone : Stores (cfg.mapper.objects req.chunks) ex.lookup.found o.lookupHit
      cfg.writeRule = [] := by
    cases cfg.writeRule with
    | setFromMiss =>
      refine List.filter_eq_nil_iff.mpr fun i hi => ?_
      have hlt := List.mem_range.mp hi
      rw [hhit, hmapper.chunkIndex req.chunks i hlt]
      rw [hmapper.length] at hlt
      simpa using (Nat.div_lt_iff_lt_mul hmapper.ranks).mpr hlt
    | insertIfAbsent =>
      refine List.filter_eq_nil_iff.mpr fun i hi => ?_
      simp [hfound i (List.mem_range.mp hi)]
  refine ⟨hhit, by rw [h.sets, hnone, List.length_nil], fun i hi => ?_⟩
  rw [h.tried, hnone] at hi
  simp at hi

/-- What is not found is stored. -/
theorem found_or_stored {cfg : RunConfig} {req : Prompt} {ex : Exchange} {o : Outcome}
    {ops : List Op} (h : Accounts cfg req ex o ops) {i : Nat}
    (hi : i < (cfg.mapper.objects req.chunks).length) :
    ex.lookup.found i = true ∨ .set i ∈ ops := by
  by_cases hfound : ex.lookup.found i = true
  · exact .inl hfound
  · right
    have hstored : i ∈ Stores (cfg.mapper.objects req.chunks) ex.lookup.found o.lookupHit
        cfg.writeRule := by
      cases cfg.writeRule with
      | setFromMiss =>
        refine List.mem_filter.mpr ⟨List.mem_range.mpr hi, ?_⟩
        rw [decide_eq_true_eq]
        by_contra hlt
        exact hfound (h.lookupHit.1.2 i hi (Nat.lt_of_not_le hlt))
      | insertIfAbsent =>
        exact List.mem_filter.mpr ⟨List.mem_range.mpr hi, by simpa using hfound⟩
    rw [h.tried]
    exact List.mem_append_right _ (List.mem_map_of_mem hstored)

/-- **KV request accounting.** An outcome accounts for the objects found and the bad GETs; a
request replayed against a store that kept its SETs hits every chunk and stores nothing; and
unless the connection fails, or an EXISTS is answered with something else than an integer, there
is an outcome. -/
theorem runRequest_accounts (cfg : RunConfig) (hdepth : 1 ≤ cfg.pipelineDepth)
    (hmapper : ChunkByChunk cfg.mapper) (req : Prompt) (ex : Exchange) (s : Sending)
    (h : Idle s) :
    (∀ o s', runRequest cfg req ex s = some (.ok o, s') →
      ∃ ops, s'.tried = s.tried ++ ops ∧ Accounts cfg req ex o ops ∧
        ∀ ex₂ s₂ o₂ s₂', Idle s₂ → runRequest cfg req ex₂ s₂ = some (.ok o₂, s₂') →
          Keeps (cfg.mapper.objects req.chunks) ex.lookup ops ex₂.lookup →
            o₂.lookupHit = req.chunks.length ∧ o₂.sets = 0 ∧
              ∃ ops₂, s₂'.tried = s₂.tried ++ ops₂ ∧ ∀ i, .set i ∉ ops₂) ∧
      (Delivers (cfg.mapper.objects req.chunks).length ex →
        ∃ o s', runRequest cfg req ex s = some (.ok o, s')) := by
  refine ⟨fun o s' hrun => ?_, runRequest_done hdepth h⟩
  obtain ⟨ops, htried, haccounts⟩ := accounts_of_ok hdepth hmapper h hrun
  refine ⟨ops, htried, haccounts, fun ex₂ s₂ o₂ s₂' h₂ hrun₂ hkeeps => ?_⟩
  obtain ⟨ops₂, htried₂, haccounts₂⟩ := accounts_of_ok hdepth hmapper h₂ hrun₂
  have hfound : ∀ i < (cfg.mapper.objects req.chunks).length, ex₂.lookup.found i = true := by
    intro i hi
    apply hkeeps i hi
    rcases found_or_stored haccounts hi with hfound | hstored
    · exact .inl hfound
    · exact .inr ⟨i, hstored, rfl⟩
  obtain ⟨hhit, hsets, hnone⟩ := accounts_full hmapper haccounts₂ hfound
  exact ⟨hhit, hsets, ops₂, htried₂, hnone⟩

/-- Two objects to a chunk. -/
def twoRanks : RunConfig where
  mapper := ⟨fun chunks => (List.range (chunks.length * 2)).map fun i =>
    ⟨2 * chunks.getD (i / 2) 0 + i % 2, i / 2⟩, 2⟩
  chunkTokens := 16
  writeRule := .insertIfAbsent
  pipelineDepth := 3

theorem twoRanks_chunkByChunk : ChunkByChunk twoRanks.mapper where
  ranks := by decide
  length chunks := by simp [twoRanks]
  chunkIndex chunks i hi := by
    have hlt : i < chunks.length * 2 := by simpa [twoRanks] using hi
    simp [twoRanks, chunkOf, hlt]

/-- Of three chunks the second lacks an object, and the second GET finds nothing. -/
def partHit : Exchange where
  firedAt := 0
  lookup := .values fun i => .integer (if i = 3 then 0 else 1)
  loads t := { answering with recv := some ⟨true, some (decide (t ≠ 1))⟩ }
  stores _ := answering

theorem runRequest_accounts_partHit :
    ∃ s', runRequest twoRanks ⟨50, [7, 8, 9]⟩ partHit .new =
        some (.ok ⟨1, 0, 0, 50, false, 2, 1, 1⟩, s') ∧
      ∃ ops, s'.tried = [] ++ ops ∧
        Accounts twoRanks ⟨50, [7, 8, 9]⟩ partHit ⟨1, 0, 0, 50, false, 2, 1, 1⟩ ops := by
  have haccounts := runRequest_accounts twoRanks (by decide) twoRanks_chunkByChunk
    ⟨50, [7, 8, 9]⟩ partHit .new idle_new
  refine ⟨_, rfl, ?_⟩
  obtain ⟨ops, htried, hops, -⟩ := haccounts.1 _ _ rfl
  exact ⟨ops, htried, hops⟩

end KvReplay
