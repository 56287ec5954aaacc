import Cachecannon.Lib.Ledger
import Cachecannon.Search.Query
import Mathlib.Algebra.BigOperators.Fin
import Mathlib.Data.Finset.Card

/-!
# Concurrent queries equal sequential ones

The hits of a reply are the ids it shares with the first `k` true neighbors, as sets (`hits_eq`).
The shared counter deals the indices in order, each to one client (`DealInv`); a client that has
answered an index has added its recall, so together the clients have the recalls of the indices
dealt, those in flight aside (`RecallInv`).
-/

namespace Search

/-! ## Hits -/

theorem mem_destutter' {a b : Int} {l : List Int} (h : a ∈ b :: l) :
    a ∈ l.destutter' (· ≠ ·) b := by
  induction l generalizing b with
  | nil => simpa using h
  | cons c l ih =>
    rw [List.destutter'_cons]
    by_cases hbc : b = c
    · subst hbc
      rw [if_neg (by simp)]
      exact ih (by simpa using h)
    · rw [if_pos hbc]
      rcases List.mem_cons.1 h with rfl | h
      · exact List.mem_cons_self
      · exact List.mem_cons_of_mem _ (ih h)

theorem mem_destutter {a : Int} {l : List Int} : a ∈ l.destutter (· ≠ ·) ↔ a ∈ l := by
  constructor
  · exact fun h => (List.destutter_sublist _ l).subset h
  · intro h
    cases l with
    | nil => simp at h
    | cons b l => exact mem_destutter' h

/-- Where equal ids stand together, dropping repeats of the one before drops every repeat. -/
theorem nodup_destutter {l : List Int} (h : l.Pairwise (· ≤ ·)) :
    (l.destutter (· ≠ ·)).Nodup := by
  have hle : (l.destutter (· ≠ ·)).Pairwise (· ≤ ·) := h.sublist (List.destutter_sublist _ l)
  have hne := List.isChain_destutter (· ≠ ·) l
  have hlt : (l.destutter (· ≠ ·)).IsChain (· < ·) := by
    rw [List.isChain_iff_getElem] at hne ⊢
    intro i hi
    exact lt_of_le_of_ne (List.pairwise_iff_getElem.1 hle i (i + 1) _ hi (by omega)) (hne i hi)
  exact (List.isChain_iff_pairwise.1 hlt).imp fun h => h.ne

theorem hits_eq (k : Nat) (truth ids : List Int) :
    hits k truth ids = (ids.toFinset ∩ (truth.take k).toFinset).card := by
  have hsorted := List.pairwise_insertionSort (· ≤ ·) ids
  have hnodup := (nodup_destutter hsorted).filter fun id => (truth.take k).any fun t => t = id
  rw [hits, ← List.toFinset_card_of_nodup hnodup]
  congr 1
  ext id
  simp [mem_destutter]

theorem hits_le (k : Nat) (truth ids : List Int) : hits k truth ids ≤ k := by
  rw [hits_eq]
  calc (ids.toFinset ∩ (truth.take k).toFinset).card
      ≤ (truth.take k).toFinset.card := Finset.card_le_card Finset.inter_subset_right
    _ ≤ (truth.take k).length := List.toFinset_card_le _
    _ ≤ k := by simp

/-- Neither the order of the ids nor how often each is in the reply matters. -/
theorem hits_congr (k : Nat) (truth : List Int) {ids ids' : List Int}
    (h : ∀ id, id ∈ ids ↔ id ∈ ids') : hits k truth ids = hits k truth ids' := by
  have hset : ids.toFinset = ids'.toFinset := by
    ext id
    simpa using h id
  rw [hits_eq, hits_eq, hset]

/-! ## What a step does -/

variable {job : Job} {s s' : QueryPhase job} {e : QueryStep job}

inductive Moves (s : QueryPhase job) : QueryStep job → QueryPhase job → Prop
  | connect {c} : (s.client c).pc = .connecting →
      Moves s (.connect c (.ok ())) (s.setClient c { s.client c with pc := .dealing })
  | refused {c message} : (s.client c).pc = .connecting →
      Moves s (.connect c (.error message))
        (s.setClient c { s.client c with pc := .failed (.client message) })
  | finish {c} : (s.client c).pc = .dealing → job.total ≤ s.dealer →
      Moves s (.deal c)
        { s.setClient c { s.client c with pc := .finished } with dealer := s.dealer + 1 }
  | deal {c} : (s.client c).pc = .dealing → s.dealer < job.total →
      Moves s (.deal c)
        { s.setClient c { s.client c with pc := .waiting s.dealer } with
          dealer := s.dealer + 1
          calls := s.calls ++ [s.dealer] }
  | failed {c idx answer error} : (s.client c).pc = .waiting idx →
      runOneQuery job (idx % job.rows) answer = .error error →
      Moves s (.reply c answer) (s.setClient c { s.client c with pc := .failed error })
  | answered {c idx answer latency share} : (s.client c).pc = .waiting idx →
      runOneQuery job (idx % job.rows) answer = .ok (latency, share) →
      Moves s (.reply c answer) (s.setClient c
        { pc := .dealing
          latencies := (s.client c).latencies ++ [latency]
          recallSum := (s.client c).recallSum + share })

theorem queryStep_moves (h : queryStep job s e = some s') : Moves s e s' := by
  cases e with
  | connect c result =>
    simp only [queryStep] at h
    split at h
    · rename_i hpc
      split at h
      · obtain rfl := Option.some.inj h
        exact .connect hpc
      · obtain rfl := Option.some.inj h
        exact .refused hpc
    · cases h
  | deal c =>
    simp only [queryStep] at h
    split at h
    · rename_i hpc
      split at h
      · obtain rfl := Option.some.inj h
        exact .finish hpc ‹_›
      · obtain rfl := Option.some.inj h
        exact .deal hpc (by omega)
    · cases h
  | reply c answer =>
    simp only [queryStep] at h
    split at h
    · rename_i idx hpc
      split at h
      · obtain rfl := Option.some.inj h
        exact .failed hpc ‹_›
      · obtain rfl := Option.some.inj h
        exact .answered hpc ‹_›
    · cases h

/-! ## The indices dealt -/

structure DealInv (s : QueryPhase job) : Prop where
  calls : s.calls = List.range (min s.dealer job.total)
  finished : ∀ c, (s.client c).pc = .finished → job.total ≤ s.dealer

theorem dealInv_init : DealInv (.init job) where
  calls := by simp [QueryPhase.init]
  finished c h := by cases h

/-- A client that goes somewhere else than to its end leaves the others as they were. -/
theorem finished_update {client : Fin job.clients → QueryClient} {c d : Fin job.clients}
    {new : QueryClient} (hnew : new.pc ≠ .finished)
    (hd : (Function.update client c new d).pc = .finished) : (client d).pc = .finished := by
  by_cases hdc : d = c
  · subst hdc
    rw [Function.update_self] at hd
    exact absurd hd hnew
  · rwa [Function.update_of_ne hdc] at hd

theorem dealInv_step (h : DealInv s) (hstep : queryStep job s e = some s') : DealInv s' := by
  cases queryStep_moves hstep with
  | connect | refused | failed | answered =>
    exact ⟨h.calls, fun d hd => h.finished d (finished_update (by simp) hd)⟩
  | finish hpc hle =>
    refine ⟨?_, fun _ _ => Nat.le_succ_of_le hle⟩
    show s.calls = List.range (min (s.dealer + 1) job.total)
    rw [h.calls, min_eq_right hle, min_eq_right (by omega)]
  | deal hpc hlt =>
    refine ⟨?_, fun d hd => Nat.le_succ_of_le (h.finished d (finished_update (by simp) hd))⟩
    show s.calls ++ [s.dealer] = List.range (min (s.dealer + 1) job.total)
    rw [h.calls, min_eq_left hlt.le, min_eq_left (by omega), List.range_succ]

/-! ## The recalls -/

/-- The server's reply depends on the query alone. -/
def Serves (serve : Nat → Reply) (s : QueryPhase job) : QueryStep job → Prop
  | .reply c answer => ∀ idx, (s.client c).pc = .waiting idx →
      answer.2 = .ok (serve (idx % job.rows))
  | _ => True

/-- The recall of index `idx`, 0 if its reply is not one. -/
def recallAt (job : Job) (serve : Nat → Reply) (idx : Nat) : ℚ :=
  match queryRecall job (idx % job.rows) (serve (idx % job.rows)) with
  | .ok r => r
  | .error _ => 0

/-- What a client has added up, with the recall of the index in flight. -/
def QueryClient.credit (job : Job) (serve : Nat → Reply) (c : QueryClient) : ℚ :=
  c.recallSum + match c.pc with
    | .waiting idx => recallAt job serve idx
    | _ => 0

def QueryPhase.NoFailure (s : QueryPhase job) : Prop := ∀ c error, (s.client c).pc ≠ .failed error

variable {serve : Nat → Reply}

/-- While no client has failed. -/
structure RecallInv (serve : Nat → Reply) (s : QueryPhase job) : Prop where
  credit : ∑ c, (s.client c).credit job serve =
    ∑ idx ∈ Finset.range (min s.dealer job.total), recallAt job serve idx
  /-- An index dealt was answered, or is in flight. -/
  answered : ∀ idx < min s.dealer job.total, (∃ c, (s.client c).pc = .waiting idx) ∨
    queryRecall job (idx % job.rows) (serve (idx % job.rows)) = .ok (recallAt job serve idx)

theorem recallInv_init : RecallInv serve (.init job) where
  credit := by simp [QueryPhase.init, QueryClient.credit]
  answered idx hidx := by simp [QueryPhase.init] at hidx

/-- A failed client stays so. -/
theorem noFailure_of_step (h : s'.NoFailure) (hstep : queryStep job s e = some s') :
    s.NoFailure := by
  intro c error hc
  have hkeeps : ∀ {d : Fin job.clients} {new : QueryClient}, (s.client d).pc ≠ .failed error →
      (Function.update s.client d new c).pc = .failed error := by
    intro d new hd
    by_cases hcd : c = d
    · subst hcd
      exact absurd hc hd
    · rwa [Function.update_of_ne hcd]
  cases queryStep_moves hstep with
  | connect hpc | refused hpc | finish hpc | deal hpc | failed hpc | answered hpc =>
    exact h c error (hkeeps (by rw [hpc]; simp))

theorem waiting_update {client : Fin job.clients → QueryClient} {c : Fin job.clients} {idx : Nat}
    {new : QueryClient} (h : ∃ d, (client d).pc = .waiting idx)
    (hc : (client c).pc ≠ .waiting idx) :
    ∃ d, (Function.update client c new d).pc = .waiting idx := by
  obtain ⟨d, hd⟩ := h
  have hdc : d ≠ c := by
    rintro rfl
    exact hc hd
  exact ⟨d, by rwa [Function.update_of_ne hdc]⟩

/-- A client whose recalls stay the same leaves the total as it is. -/
theorem credit_update {client : Fin job.clients → QueryClient} {c : Fin job.clients}
    {new : QueryClient} {r : ℚ} (h : new.credit job serve = (client c).credit job serve + r) :
    ∑ d, (Function.update client c new d).credit job serve =
      (∑ d, (client d).credit job serve) + r := by
  have := Ledger.sum_map_update_add (QueryClient.credit job serve) client c new
  rw [h, add_comm (QueryClient.credit job serve (client c)) r, ← add_assoc] at this
  exact add_right_cancel this

theorem runOneQuery_ok {qi latency : Nat} {r : ℚ} {answer : Answer} {reply : Reply}
    (h : runOneQuery job qi answer = .ok (latency, r)) (hreply : answer.2 = .ok reply) :
    queryRecall job qi reply = .ok r := by
  rw [runOneQuery, hreply] at h
  cases hr : queryRecall job qi reply with
  | error e => simp [hr, bind, Except.bind] at h
  | ok r' =>
    simp only [hr, bind, Except.bind, pure, Except.pure, Except.ok.injEq, Prod.mk.injEq] at h
    rw [h.2]

theorem recallInv_step (h : s.NoFailure → RecallInv serve s) (he : Serves serve s e)
    (hstep : queryStep job s e = some s') : s'.NoFailure → RecallInv serve s' := by
  intro hok
  have hinv := h (noFailure_of_step hok hstep)
  cases queryStep_moves hstep with
  | connect hpc =>
    refine ⟨?_, fun idx hidx => ?_⟩
    · refine (credit_update (r := 0) ?_).trans ((add_zero _).trans hinv.credit)
      simp [QueryClient.credit, hpc]
    · exact (hinv.answered idx hidx).imp_left fun hw => waiting_update hw (by simp [hpc])
  | @refused c message hpc =>
    exact absurd (by simp [QueryPhase.setClient]) (hok c (.client message))
  | @failed c idx answer error hpc hanswer =>
    exact absurd (by simp [QueryPhase.setClient]) (hok c error)
  | finish hpc hle =>
    have hmin : min (s.dealer + 1) job.total = min s.dealer job.total := by omega
    refine ⟨?_, fun idx hidx => ?_⟩
    · show _ = ∑ idx ∈ Finset.range (min (s.dealer + 1) job.total), _
      rw [hmin, ← hinv.credit, ← add_zero (∑ c, (s.client c).credit job serve)]
      exact credit_update (by simp [QueryClient.credit, hpc])
    · replace hidx : idx < min (s.dealer + 1) job.total := hidx
      rw [hmin] at hidx
      exact (hinv.answered idx hidx).imp_left fun hw => waiting_update hw (by simp [hpc])
  | @deal c hpc hlt =>
    have hmin : min (s.dealer + 1) job.total = min s.dealer job.total + 1 := by omega
    have hdealer : min s.dealer job.total = s.dealer := by omega
    refine ⟨?_, fun idx hidx => ?_⟩
    · show _ = ∑ idx ∈ Finset.range (min (s.dealer + 1) job.total), _
      rw [hmin, Finset.sum_range_succ, ← hinv.credit, hdealer]
      exact credit_update (by simp [QueryClient.credit, hpc])
    · replace hidx : idx < min (s.dealer + 1) job.total := hidx
      by_cases hnew : idx = s.dealer
      · subst hnew
        exact .inl ⟨c, by simp [QueryPhase.setClient]⟩
      · exact (hinv.answered idx (by omega)).imp_left fun hw => waiting_update hw (by simp [hpc])
  | @answered c idx answer latency r hpc hanswer =>
    have hrecall := runOneQuery_ok hanswer (he idx hpc)
    have hat : recallAt job serve idx = r := by simp [recallAt, hrecall]
    refine ⟨?_, fun idx' hidx => ?_⟩
    · refine (credit_update (r := 0) ?_).trans ((add_zero _).trans hinv.credit)
      simp [QueryClient.credit, hpc, hat]
    · by_cases hsame : idx' = idx
      · subst hsame
        exact .inr (hat ▸ hrecall)
      · refine (hinv.answered idx' hidx).imp_left fun hw => waiting_update hw ?_
        simp [hpc, Ne.symm hsame]

/-! ## The pooled result -/

/-- The pool of clients that have all ended without an error has the recalls of all of them. -/
theorem awaitHandles_finished (acc : List Nat × ℚ) {clients : List QueryClient}
    (h : ∀ c ∈ clients, c.pc = .finished) : ∃ pooled, awaitHandles acc clients = some (.ok pooled) ∧
      pooled.2 = acc.2 + (clients.map QueryClient.recallSum).sum := by
  induction clients generalizing acc with
  | nil => exact ⟨acc, rfl, by simp⟩
  | cons c rest ih =>
    obtain ⟨pooled, hrest, hsum⟩ := ih (acc.1 ++ c.latencies, acc.2 + c.recallSum)
      fun c' hc' => h c' (List.mem_cons_of_mem _ hc')
    refine ⟨pooled, ?_, by rw [hsum, List.map_cons, List.sum_cons, add_assoc]⟩
    simp only [awaitHandles, QueryClient.outcome, h c List.mem_cons_self]
    exact hrest

theorem pooled_finished (h : ∀ c, (s.client c).pc = .finished) :
    ∃ pooled, s.pooled = some (.ok pooled) ∧ pooled.2 = ∑ c, (s.client c).recallSum := by
  have hall : ∀ c ∈ (List.finRange job.clients).map s.client, c.pc = .finished := by
    intro c hc
    obtain ⟨d, -, rfl⟩ := List.mem_map.1 hc
    exact h d
  obtain ⟨pooled, hpooled, hsum⟩ := awaitHandles_finished ([], 0) hall
  refine ⟨pooled, hpooled, ?_⟩
  rw [hsum, zero_add, List.map_map, Fin.sum_univ_def]
  rfl

/-- The loop over indices that are all answered returns their recalls. -/
theorem queryLoop_ok {answer : Nat → Answer}
    (hserve : ∀ idx, (answer idx).2 = .ok (serve (idx % job.rows))) {indices : List Nat}
    (hok : ∀ idx ∈ indices,
      queryRecall job (idx % job.rows) (serve (idx % job.rows)) = .ok (recallAt job serve idx)) :
    queryLoop job answer indices =
      .ok (indices.map fun idx => (answer idx).1, (indices.map (recallAt job serve)).sum) := by
  induction indices using List.reverseRecOn with
  | nil => rfl
  | append_singleton indices idx ih =>
    have hrun : runOneQuery job (idx % job.rows) (answer idx) =
        .ok ((answer idx).1, recallAt job serve idx) := by
      rw [runOneQuery, hserve idx]
      simp only [hok idx (by simp)]
      rfl
    have hinit := ih fun i hi => hok i (List.mem_append_left _ hi)
    rw [queryLoop] at hinit ⊢
    rw [List.foldlM_append, hinit]
    simp [hrun, bind, Except.bind, pure, Except.pure]

/-- When every client has come to its end, every index was dealt and answered. -/
theorem all_answered (hdeal : DealInv s) (hfinished : ∀ c, (s.client c).pc = .finished) :
    job.total ≤ s.dealer := by
  have hpos : 0 < job.clients := by
    rw [Job.clients]
    omega
  exact hdeal.finished ⟨0, hpos⟩ (hfinished _)

/-- **Concurrent queries.** Every run in which all clients end without an error asks for each index
once, and if the server's reply depends on the query alone, the result has the recall sum of one
client. The hits of a reply are those of its set of ids. -/
theorem query_phase_agrees (job : Job) :
    (∀ es s, Exec.run (queryStep job) (.init job) es = some s →
      (∀ c, (s.client c).pc = .finished) →
        s.calls = List.range job.total ∧
        ∃ pooled, s.pooled = some (.ok pooled) ∧
          s.result = some (.ok (job.stats pooled.1 pooled.2)) ∧
          ∀ serve answer, Exec.Meets (queryStep job) (Serves serve) (.init job) es →
            (∀ idx, (answer idx).2 = .ok (serve (idx % job.rows))) →
              ∃ latencies, queryLoop job answer (List.range job.total) =
                  .ok (latencies, pooled.2) ∧
                singleClient job answer = .ok (job.stats latencies pooled.2)) ∧
    ∀ k truth ids, hits k truth ids = (ids.toFinset ∩ (truth.take k).toFinset).card ∧
      hits k truth ids ≤ k ∧
      ∀ ids', (∀ id, id ∈ ids ↔ id ∈ ids') → hits k truth ids = hits k truth ids' := by
  refine ⟨fun es s hrun hfinished => ?_, fun k truth ids =>
    ⟨hits_eq k truth ids, hits_le k truth ids, fun ids' h => hits_congr k truth h⟩⟩
  obtain ⟨pooled, hpooled, hsum⟩ := pooled_finished hfinished
  have hdeal : DealInv s := Exec.run_inv dealInv_step dealInv_init hrun
  have hmin : min s.dealer job.total = job.total := min_eq_right (all_answered hdeal hfinished)
  refine ⟨by rw [hdeal.calls, hmin], pooled, hpooled, by rw [QueryPhase.result, hpooled]; rfl,
    fun serve answer hmeets hserve => ?_⟩
  have hrecall : RecallInv serve s :=
    Exec.run_inv_of (I := fun s : QueryPhase job => s.NoFailure → RecallInv serve s)
      recallInv_step (fun _ => recallInv_init) hmeets hrun fun c error => by simp [hfinished c]
  have hanswered : ∀ idx ∈ List.range job.total,
      queryRecall job (idx % job.rows) (serve (idx % job.rows)) = .ok (recallAt job serve idx) := by
    intro idx hidx
    rw [List.mem_range, ← hmin] at hidx
    refine (hrecall.answered idx hidx).resolve_left ?_
    rintro ⟨c, hc⟩
    rw [hfinished c] at hc
    cases hc
  have hcredit := hrecall.credit
  simp only [QueryClient.credit, hfinished, add_zero, hmin] at hcredit
  have hlist : ((List.range job.total).map (recallAt job serve)).sum = pooled.2 := by
    rw [hsum, hcredit, ← List.sum_toFinset _ List.nodup_range, List.toFinset_range]
  have hloop := queryLoop_ok hserve hanswered
  rw [hlist] at hloop
  exact ⟨_, hloop, by rw [singleClient, hloop]; rfl⟩

/-- Two clients, one query, run twice. -/
def twoClients : Job where
  k := 2
  rows := 1
  neighbors := fun _ => [3, 5]
  queryLoops := 2
  queryClients := 2

/-- The reply `[2, "doc:5", "doc:5"]`. -/
def repeatedReply : Reply :=
  .array [.other, .bulkString [0x64, 0x6f, 0x63, 0x3a, 0x35],
    .bulkString [0x64, 0x6f, 0x63, 0x3a, 0x35]]

def crossedRun : List (QueryStep twoClients) :=
  let first : Fin twoClients.clients := ⟨0, by decide⟩
  let second : Fin twoClients.clients := ⟨1, by decide⟩
  [.connect first (.ok ()), .connect second (.ok ()), .deal second, .deal first,
    .reply first (7, .ok repeatedReply), .deal first, .reply second (9, .ok repeatedReply),
    .deal second]

theorem crossedRun_serves : Exec.Meets (queryStep twoClients) (Serves fun _ => repeatedReply)
    (.init twoClients) crossedRun := by
  refine (Exec.meets_cons rfl).2 ⟨trivial, (Exec.meets_cons rfl).2 ⟨trivial, ?_⟩⟩
  refine (Exec.meets_cons rfl).2 ⟨trivial, (Exec.meets_cons rfl).2 ⟨trivial, ?_⟩⟩
  refine (Exec.meets_cons rfl).2 ⟨fun _ _ => rfl, (Exec.meets_cons rfl).2 ⟨trivial, ?_⟩⟩
  exact (Exec.meets_cons rfl).2 ⟨fun _ _ => rfl, (Exec.meets_cons rfl).2 ⟨trivial, trivial⟩⟩

/-- Both clients are given the same reply, which names one of the two neighbors. -/
theorem query_phase_agrees_crossed : ∃ s pooled latencies,
    Exec.run (queryStep twoClients) (.init twoClients) crossedRun = some s ∧
      s.calls = [0, 1] ∧ s.pooled = some (.ok pooled) ∧ pooled = ([7, 9], 1) ∧
      s.result = some (.ok ⟨2, [7, 9], 1 / 2⟩) ∧
      singleClient twoClients (fun _ => (8, .ok repeatedReply)) =
        .ok (twoClients.stats latencies pooled.2) := by
  obtain ⟨s, hs⟩ : ∃ s, Exec.run (queryStep twoClients) (.init twoClients) crossedRun = some s :=
    ⟨_, rfl⟩
  have hfinished : ∀ c, (s.client c).pc = .finished := by
    obtain rfl := Option.some.inj hs
    decide
  obtain ⟨hcalls, pooled, hpooled, hresult, hagree⟩ :=
    (query_phase_agrees twoClients).1 crossedRun s hs hfinished
  obtain ⟨latencies, -, hsingle⟩ := hagree (fun _ => repeatedReply)
    (fun _ => (8, .ok repeatedReply)) crossedRun_serves fun _ => rfl
  have heq : pooled = ([7, 9], 1) := by
    obtain rfl := Option.some.inj hs
    exact (Except.ok.inj (Option.some.inj ((by decide +kernel :
      QueryPhase.pooled _ = some (.ok ([7, 9], 1))).symm.trans hpooled))).symm
  subst heq
  refine ⟨s, _, latencies, hs, hcalls, hpooled, rfl, ?_, hsingle⟩
  rw [hresult]
  decide +kernel

end Search
