import Cachecannon.KvReplay.Proof.Loop
import Mathlib.Data.List.Iterate

/-!
# KV replay send accounting

What a request on an idle connection comes to (`runRequest_ends`), and when the GETs and SETs it
tried are each counted once. The flush subtracts the discarded requests from those it counts as
sent (`filled_flush_fails`); a fire that fails does not, and the requests buffered before it are
counted as sent and as failed (`filled_failOne`).
-/

namespace KvReplay

open Pipeline

/-- Nothing is in flight. -/
structure Idle (s : Sending) : Prop where
  inflight : s.inflight.fired = []
  wire : s.client.wire = []
  buffered : s.client.buffered = []

theorem idle_new : Idle .new := ⟨rfl, rfl, rfl⟩

theorem idle_steady {s : Sending} (h : Idle s) : Steady s :=
  ⟨by simp [InFlightAligned, Client.pendingCount, h.inflight, h.wire, h.buffered], h.buffered⟩

theorem steady_idle {s : Sending} (h : Steady s) (hwire : s.client.wire = []) : Idle s := by
  have hinflight := h.inflight
  simp only [InFlightAligned, Client.pendingCount, hwire, h.buffered, List.length_nil,
    Nat.add_zero, List.length_eq_zero_iff] at hinflight
  exact ⟨hinflight, hwire, h.buffered⟩

/-! ## The lookup -/

theorem push_iterate (firedAt : Nat) :
    ∀ (n : Nat) (v : Worker.InFlight),
      ((fun v : Worker.InFlight => v.push firedAt)^[n] v).fired.length = v.fired.length + n
  | 0, _ => rfl
  | n + 1, v => by
    rw [Function.iterate_succ_apply, push_iterate firedAt n]
    simp only [Worker.InFlight.push, Worker.InFlight.pushQueued, List.length_append,
      List.length_singleton]
    omega

theorem idle_forgetNewest {s : Sending} (h : Idle s) (n firedAt sent failed : Nat) :
    Idle ⟨s.client, ((fun v => v.push firedAt)^[n] s.inflight).forgetNewest n, sent, failed,
      s.tried⟩ := by
  refine ⟨?_, h.wire, h.buffered⟩
  rw [← List.length_eq_zero_iff, forgetNewest_length, push_iterate, h.inflight]
  simp

/-- An EXISTS is not one of the operations tried. -/
theorem lookup_tried (n firedAt : Nat) (reply : LookupReply) (s : Sending) :
    (lookup n firedAt reply s).2.tried = s.tried := by
  cases reply with
  | values replies =>
    simp only [lookup]
    split <;> rfl
  | _ => rfl

/-- What the lookup of `n` objects leaves of an idle connection: the EXISTS in flight if they
were cut off, and else an idle connection again. -/
theorem lookup_idle {s : Sending} (h : Idle s) (n firedAt : Nat) (reply : LookupReply) :
    match reply with
    | .cutOff => (lookup n firedAt reply s).2.inflight.fired.length = n ∧
        (lookup n firedAt reply s).2.client = s.client
    | _ => Idle (lookup n firedAt reply s).2 := by
  cases reply with
  | cutOff =>
    refine ⟨?_, rfl⟩
    simp [lookup, push_iterate, h.inflight]
  | values replies =>
    simp only [lookup]
    split
    · exact idle_forgetNewest h n firedAt _ _
    · exact idle_forgetNewest h n firedAt _ _
  | _ => exact idle_forgetNewest h n firedAt _ _

theorem lookup_exist (n firedAt : Nat) (reply : LookupReply) (s : Sending) :
    (∃ exist, reply.exist n = some exist ∧ (lookup n firedAt reply s).1 = .ok exist) ∨
      reply.exist n = none ∧ ∃ e, (lookup n firedAt reply s).1 = .error e := by
  cases reply with
  | values replies =>
    simp only [lookup]
    split
    · rename_i exist hexist
      exact .inl ⟨exist, hexist, rfl⟩
    · rename_i hexist
      exact .inr ⟨hexist, _, rfl⟩
  | _ => exact .inr ⟨rfl, _, rfl⟩

/-! ## The phases -/

/-- What the load or the store does with an idle connection: it tries `ops` and all are answered,
or the connection fails. -/
inductive Phase (pipelineDepth : Nat) (its : Nat → Iteration) (ops : List Op) (s₀ : Sending)
    (result : Outcome) : Ran Outcome → Prop
  | done (s : Sending) (answered : Answered pipelineDepth ops.length 0 ops.length its)
      (idle : Idle s) (settles : Settles s₀ s)
      (flushed : FailsFlushed (its 0).fires (min ops.length pipelineDepth))
      (tried : s.tried = s₀.tried ++ ops) :
      Phase pipelineDepth its ops s₀ result (some (.ok result, s))
  | failed (s : Sending) (stops : ¬ Answered pipelineDepth ops.length 0 ops.length its)
      (inflight : InFlightAligned s)
      (settles : Settles s₀ s ↔ FailsFlushed (its 0).fires (min ops.length pipelineDepth)) :
      Phase pipelineDepth its ops s₀ result (some (.error .disconnect, s))

theorem phase_nil {s : Sending} (h : Idle s) (pipelineDepth : Nat) (its : Nat → Iteration)
    (result : Outcome) : Phase pipelineDepth its [] s result (some (.ok result, s)) :=
  .done s trivial h rfl (failsFlushed_of_le_one (by simp)) (List.append_nil _).symm

theorem phase_opLoop {pipelineDepth : Nat} (hdepth : 1 ≤ pipelineDepth)
    (onReply : Op → OpReply → Outcome → Outcome) (its : Nat → Iteration) (ops : List Op)
    {s : Sending} (h : Idle s) (o : Outcome) (wrap : Outcome → Outcome) :
    Phase pipelineDepth its ops s (wrap (foldReplies onReply ops its o))
      (Ran.andThen (opLoop pipelineDepth onReply ops.length its ops s o)
        fun o s => some (.ok (wrap o), s)) := by
  have hloops := opLoop_start hdepth onReply its ops (idle_steady h) h.wire o
  have hpending : s.client.pendingCount = 0 := by
    simp [Client.pendingCount, h.wire, h.buffered]
  generalize opLoop pipelineDepth onReply ops.length its ops s o = ran at hloops
  cases hloops with
  | done s' hanswered hsteady hwire hsettles hflushed htried =>
    rw [hpending] at hanswered hflushed
    rw [h.wire, List.nil_append]
    exact .done s' hanswered (steady_idle hsteady hwire) hsettles
      ((loopFlushed_start _ _).mp hflushed) htried
  | failed s' hstops hinflight hsettles =>
    rw [hpending] at hstops hsettles
    exact .failed s' hstops hinflight (hsettles.trans (loopFlushed_start _ _))

/-- A phase is left out when it has nothing to do. -/
theorem phase_guarded {pipelineDepth : Nat} (hdepth : 1 ≤ pipelineDepth)
    (onReply : Op → OpReply → Outcome → Outcome) (its : Nat → Iteration) (ops : List Op)
    {s : Sending} (h : Idle s) (o : Outcome) (wrap : Outcome → Outcome)
    (hnone : ops = [] → wrap o = o) :
    Phase pipelineDepth its ops s (wrap (foldReplies onReply ops its o))
      (if 0 < ops.length then
        Ran.andThen (opLoop pipelineDepth onReply ops.length its ops s o)
          fun o s => some (.ok (wrap o), s)
      else some (.ok o, s)) := by
  split
  · exact phase_opLoop hdepth onReply its ops h o wrap
  · rename_i hempty
    have hnil : ops = [] := List.length_eq_zero_iff.mp (Nat.eq_zero_of_not_pos hempty)
    rw [hnil, foldReplies, hnone hnil]
    exact phase_nil h pipelineDepth its o

/-- The GETs of a request. -/
def getOps (cfg : RunConfig) (exist : List Bool) : List Op :=
  (List.range (lookupPrefix exist cfg.mapper.ranks * cfg.mapper.ranks)).map .get

/-- The SETs of a request. -/
def setOps (cfg : RunConfig) (n : Nat) (exist : List Bool) : List Op :=
  (cfg.writeRule.sets (lookupPrefix exist cfg.mapper.ranks * cfg.mapper.ranks) n exist).map .set

/-- The outcome as the load leaves it. -/
def loaded (cfg : RunConfig) (req : Prompt) (exist : List Bool) (its : Nat → Iteration) : Outcome :=
  { foldReplies (onGet (cfg.mapper.objects req.chunks)) (getOps cfg exist) its
      (lookedUp req.inputTokens (lookupPrefix exist cfg.mapper.ranks)) with
    gets := (getOps cfg exist).length }

theorem load_phase {cfg : RunConfig} (hdepth : 1 ≤ cfg.pipelineDepth) (objects : List Object)
    (exist : List Bool) (its : Nat → Iteration) {o : Outcome}
    (ho : o.lookupHit = lookupPrefix exist cfg.mapper.ranks) (hgets : o.gets = 0) {s : Sending}
    (h : Idle s) :
    Phase cfg.pipelineDepth its (getOps cfg exist) s
      { foldReplies (onGet objects) (getOps cfg exist) its o with
        gets := (getOps cfg exist).length } (load cfg objects its o s) := by
  have hlen : (getOps cfg exist).length = o.lookupHit * cfg.mapper.ranks := by simp [getOps, ho]
  have hphase := phase_guarded hdepth (onGet objects) its (getOps cfg exist) h o
    (fun o => { o with gets := (getOps cfg exist).length }) fun hnil => by
      rw [hnil, List.length_nil, ← hgets]
  rw [hlen] at hphase ⊢
  rw [getOps, ← ho] at hphase ⊢
  exact hphase

/-- The store makes nothing of its replies. -/
theorem foldReplies_ignore :
    ∀ (ops : List Op) (its : Nat → Iteration) (o : Outcome),
      foldReplies (fun _ _ o => o) ops its o = o
  | [], _, _ => rfl
  | op :: ops, its, o => by
    rw [foldReplies, foldReplies_ignore ops]
    cases (its 0).recv <;> rfl

/-- The store is after a load, which leaves `lookupHit` as it is. -/
theorem store_phase {cfg : RunConfig} (hdepth : 1 ≤ cfg.pipelineDepth) (n : Nat)
    (exist : List Bool) (its : Nat → Iteration) {o : Outcome}
    (ho : o.lookupHit = lookupPrefix exist cfg.mapper.ranks) (hsets : o.sets = 0) {s : Sending}
    (h : Idle s) :
    Phase cfg.pipelineDepth its (setOps cfg n exist) s
      { o with sets := (setOps cfg n exist).length } (store cfg n exist its o s) := by
  have hlen : (setOps cfg n exist).length =
      (cfg.writeRule.sets (o.lookupHit * cfg.mapper.ranks) n exist).length := by
    simp [setOps, ho]
  have hphase := phase_guarded hdepth (fun _ _ o => o) its (setOps cfg n exist) h o
    (fun o => { o with sets := (setOps cfg n exist).length }) fun hnil => by
      rw [hnil, List.length_nil, ← hsets]
  rw [foldReplies_ignore, hlen] at hphase
  rw [hlen]
  rw [setOps, ← ho] at hphase ⊢
  exact hphase

theorem onGet_keeps (objects : List Object) (op : Op) (reply : OpReply) (o : Outcome) :
    (onGet objects op reply o).lookupHit = o.lookupHit ∧
      (onGet objects op reply o).sets = o.sets := by
  unfold onGet
  split <;> exact ⟨rfl, rfl⟩

theorem foldReplies_keeps (objects : List Object) :
    ∀ (ops : List Op) (its : Nat → Iteration) (o : Outcome),
      (foldReplies (onGet objects) ops its o).lookupHit = o.lookupHit ∧
        (foldReplies (onGet objects) ops its o).sets = o.sets
  | [], _, _ => ⟨rfl, rfl⟩
  | op :: ops, its, o => by
    rw [foldReplies]
    cases (its 0).recv with
    | none => exact foldReplies_keeps objects ops _ o
    | some reply =>
      obtain ⟨hlookup, hsets⟩ := onGet_keeps objects op reply o
      obtain ⟨hlookup', hsets'⟩ :=
        foldReplies_keeps objects ops (fun t => its (t + 1)) (onGet objects op reply o)
      exact ⟨hlookup'.trans hlookup, hsets'.trans hsets⟩

/-! ## The request -/

/-- The connection as the lookup leaves it. -/
def afterLookup (cfg : RunConfig) (req : Prompt) (ex : Exchange) (s : Sending) : Sending :=
  if req.chunks = [] then s
  else (lookup (cfg.mapper.objects req.chunks).length ex.firedAt ex.lookup s).2

/-- Of the EXISTS replies `exist`: no fire of the first iteration of the GET loop, nor, where the
loads are answered, of that of the SET loop, fails with a request buffered. -/
def FiresFlushed (cfg : RunConfig) (n : Nat) (exist : List Bool) (ex : Exchange) : Prop :=
  FailsFlushed (ex.loads 0).fires (min (getOps cfg exist).length cfg.pipelineDepth) ∧
    (Answered cfg.pipelineDepth (getOps cfg exist).length 0 (getOps cfg exist).length ex.loads →
      FailsFlushed (ex.stores 0).fires (min (setOps cfg n exist).length cfg.pipelineDepth))

/-- How `run_request` ends on an idle connection. -/
inductive Ends (cfg : RunConfig) (req : Prompt) (ex : Exchange) (s₀ : Sending) :
    Ran Outcome → Prop
  | empty (chunks : req.chunks = []) :
      Ends cfg req ex s₀ (some (.ok { Outcome.default with newTokens := req.inputTokens }, s₀))
  | lookupFails (e : Failure) (chunks : req.chunks ≠ [])
      (exist : ex.lookup.exist (cfg.mapper.objects req.chunks).length = none)
      (error : (lookup (cfg.mapper.objects req.chunks).length ex.firedAt ex.lookup s₀).1 =
        .error e) :
      Ends cfg req ex s₀ (some (.error e, afterLookup cfg req ex s₀))
  | done (exist : List Bool) (s : Sending) (chunks : req.chunks ≠ [])
      (looked : ex.lookup.exist (cfg.mapper.objects req.chunks).length = some exist)
      (loads : Answered cfg.pipelineDepth (getOps cfg exist).length 0 (getOps cfg exist).length
        ex.loads)
      (stores : Answered cfg.pipelineDepth
        (setOps cfg (cfg.mapper.objects req.chunks).length exist).length 0
        (setOps cfg (cfg.mapper.objects req.chunks).length exist).length ex.stores)
      (idle : Idle s) (settles : Settles (afterLookup cfg req ex s₀) s)
      (flushed : FiresFlushed cfg (cfg.mapper.objects req.chunks).length exist ex)
      (tried : s.tried = s₀.tried ++ getOps cfg exist ++
        setOps cfg (cfg.mapper.objects req.chunks).length exist) :
      Ends cfg req ex s₀ (some (.ok (finish cfg req.inputTokens
        { loaded cfg req exist ex.loads with
          sets := (setOps cfg (cfg.mapper.objects req.chunks).length exist).length }), s))
  | sendFails (exist : List Bool) (s : Sending) (chunks : req.chunks ≠ [])
      (looked : ex.lookup.exist (cfg.mapper.objects req.chunks).length = some exist)
      (stops : ¬ (Answered cfg.pipelineDepth (getOps cfg exist).length 0
          (getOps cfg exist).length ex.loads ∧
        Answered cfg.pipelineDepth
          (setOps cfg (cfg.mapper.objects req.chunks).length exist).length 0
          (setOps cfg (cfg.mapper.objects req.chunks).length exist).length ex.stores))
      (inflight : InFlightAligned s)
      (settles : Settles (afterLookup cfg req ex s₀) s ↔
        FiresFlushed cfg (cfg.mapper.objects req.chunks).length exist ex) :
      Ends cfg req ex s₀ (some (.error .disconnect, s))

theorem runRequest_ends {cfg : RunConfig} (hdepth : 1 ≤ cfg.pipelineDepth) (req : Prompt)
    (ex : Exchange) {s : Sending} (h : Idle s) :
    Ends cfg req ex s (runRequest cfg req ex s) := by
  unfold runRequest
  split
  · rename_i hchunks
    exact .empty hchunks
  · rename_i hchunks
    have hafter : afterLookup cfg req ex s =
        (lookup (cfg.mapper.objects req.chunks).length ex.firedAt ex.lookup s).2 := by
      simp [afterLookup, hchunks]
    have hidle := lookup_idle h (cfg.mapper.objects req.chunks).length ex.firedAt ex.lookup
    have htried := lookup_tried (cfg.mapper.objects req.chunks).length ex.firedAt ex.lookup s
    obtain ⟨exist, hexist, hok⟩ | ⟨hexist, e, herror⟩ :=
      lookup_exist (cfg.mapper.objects req.chunks).length ex.firedAt ex.lookup s
    · have hidle' : Idle (afterLookup cfg req ex s) := by
        rw [hafter]
        cases hlookup : ex.lookup with
        | values replies => simpa [hlookup] using hidle
        | _ => simp [hlookup, LookupReply.exist] at hexist
      have heq : lookup (cfg.mapper.objects req.chunks).length ex.firedAt ex.lookup s =
          (.ok exist, afterLookup cfg req ex s) := Prod.ext hok hafter.symm
      rw [← hafter] at htried
      simp only [heq, Ran.andThen]
      have hload : Phase cfg.pipelineDepth ex.loads (getOps cfg exist) (afterLookup cfg req ex s)
          (loaded cfg req exist ex.loads) (load cfg (cfg.mapper.objects req.chunks) ex.loads
            (lookedUp req.inputTokens (lookupPrefix exist cfg.mapper.ranks))
            (afterLookup cfg req ex s)) :=
        load_phase hdepth _ exist ex.loads rfl rfl hidle'
      generalize load cfg _ ex.loads _ _ = ran at hload
      cases hload with
      | failed s₁ hstops hinflight hsettles =>
        refine .sendFails exist s₁ hchunks hexist (fun hall => hstops hall.1) hinflight ?_
        rw [hsettles]
        exact ⟨fun hflushed => ⟨hflushed, fun hanswered => absurd hanswered hstops⟩,
          fun hall => hall.1⟩
      | done s₁ hanswered hidle₁ hsettles hflushed htried₁ =>
        have hkeeps := foldReplies_keeps (cfg.mapper.objects req.chunks) (getOps cfg exist)
          ex.loads (lookedUp req.inputTokens (lookupPrefix exist cfg.mapper.ranks))
        have hstore := store_phase hdepth (cfg.mapper.objects req.chunks).length exist ex.stores
          (o := loaded cfg req exist ex.loads) hkeeps.1 hkeeps.2 hidle₁
        simp only
        generalize store cfg _ exist ex.stores _ _ = ran at hstore
        cases hstore with
        | failed s₂ hstops hinflight hsettles₂ =>
          refine .sendFails exist s₂ hchunks hexist (fun hall => hstops hall.2) hinflight ?_
          rw [settles_trans hsettles, hsettles₂]
          exact ⟨fun hstores => ⟨hflushed, fun _ => hstores⟩, fun hall => hall.2 hanswered⟩
        | done s₂ hanswered₂ hidle₂ hsettles₂ hflushed₂ htried₂ =>
          refine .done exist s₂ hchunks hexist hanswered hanswered₂ hidle₂
            ((settles_trans hsettles).mpr hsettles₂) ⟨hflushed, fun _ => hflushed₂⟩ ?_
          rw [htried₂, htried₁, htried]
    · have heq : lookup (cfg.mapper.objects req.chunks).length ex.firedAt ex.lookup s =
          (.error e, afterLookup cfg req ex s) := Prod.ext herror hafter.symm
      simp only [heq, Ran.andThen]
      exact .lookupFails e hchunks hexist herror

/-- A request that leaves its connection up leaves it idle. -/
theorem runRequest_idle {cfg : RunConfig} (hdepth : 1 ≤ cfg.pipelineDepth) {req : Prompt}
    {ex : Exchange} {s s' : Sending} (h : Idle s) {result : Except Failure Outcome}
    (hrun : runRequest cfg req ex s = some (result, s'))
    (hup : result ≠ .error .disconnect ∧ result ≠ .error .closed) : Idle s' := by
  have hends := runRequest_ends hdepth req ex h
  rw [hrun] at hends
  cases hends with
  | empty hchunks => exact h
  | done exist s' hchunks hlooked hloads hstores hidle => exact hidle
  | sendFails => exact absurd rfl hup.1
  | lookupFails e hchunks hexist herror =>
    have hidle := lookup_idle h (cfg.mapper.objects req.chunks).length ex.firedAt ex.lookup
    rw [afterLookup, if_neg hchunks]
    cases hlookup : ex.lookup with
    | cutOff =>
      rw [hlookup] at herror
      cases herror
      exact absurd rfl hup.1
    | _ => simpa only [hlookup] using hidle

/-- A lookup that says `exist` was not cut off, and says nothing else. -/
theorem flushed_of_looked {n : Nat} {objects : List Object} {cfg : RunConfig} {ex : Exchange}
    {exist : List Bool} (hlooked : ex.lookup.exist n = some exist) :
    ((ex.lookup = .cutOff → objects = []) ∧
      ∀ exist, ex.lookup.exist n = some exist → FiresFlushed cfg n exist ex) ↔
      FiresFlushed cfg n exist ex := by
  refine ⟨fun hall => hall.2 exist hlooked, fun hflushed => ⟨fun hcut => ?_, fun exist' h => ?_⟩⟩
  · simp [hcut, LookupReply.exist] at hlooked
  · rw [hlooked] at h
    cases h
    exact hflushed

/-- Three objects, one to a chunk, in a pipeline of four. -/
def threeObjects : RunConfig where
  mapper := ⟨fun chunks => chunks.zipIdx.map fun c => ⟨c.1, c.2⟩, 1⟩
  chunkTokens := 16
  writeRule := .setFromMiss
  pipelineDepth := 4

def allExist : LookupReply := .values fun _ => .integer 1

/-- Every fire succeeds, and every reply is a hit. -/
def answering : Iteration := ⟨0, fun _ => .sent false, true, some ⟨true, some true⟩⟩

end KvReplay
