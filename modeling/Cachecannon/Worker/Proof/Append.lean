import Cachecannon.Worker.Append
import Cachecannon.Worker.Proof.Writers

/-!
# The append stream's head is safe

Whatever the append writers do, the published head covers only whole batches whose ids were all
acknowledged (`append_head_safe`). The ids queued so far are a range that starts at `keyCount`,
each of them occurs once in all (`AppendInv.total_eq`), so no id is acknowledged twice, and as
many confirmations as ids assigned means that each was (`AppendInv.all_acked`).
-/

namespace Worker

open Ledger

/-! ## Draws -/

theorem randomRange_lt {lo hi offset : Nat} (h : lo < hi) : randomRange lo hi offset < hi := by
  have := Nat.mod_lt offset (Nat.sub_pos_of_lt h)
  unfold randomRange
  omega

theorem Recency.sample_lt (r : Recency) {head : Nat} (h : 0 < head) (draw : RecencyDraw) :
    r.sample head draw < head := by
  unfold Recency.sample
  rw [if_neg (by omega)]
  simp only
  split
  · split
    · rename_i hlt
      exact Nat.lt_of_lt_of_le (randomRange_lt hlt) (Nat.sub_le _ _)
    · exact randomRange_lt h
  · split
    · exact randomRange_lt h
    · rename_i hbody
      exact Nat.lt_of_lt_of_le (randomRange_lt (Nat.pos_of_ne_zero hbody)) (Nat.sub_le _ _)

/-! ## The invariant -/

variable {E C W : Type}

def AppendState.enqueued (s : AppendState E C W) : List Nat := (s.enqueuing.map (·.2)).getD []

/-- Every id queued so far, of all batches. -/
def AppendState.appended (cfg : AppendConfig E C W) (s : AppendState E C W) : List Nat :=
  List.range' cfg.keyCount (cfg.batch * s.batches.length + s.enqueued.length)

structure AppendInv [Fintype E] [Fintype C] (cfg : AppendConfig E C W) (s : AppendState E C W) :
    Prop where
  conns : ∀ c, WriterOk (s.conn c)
  counted : s.confirmed = s.acked.length
  total_eq : ∀ k, Worker.total s.toWriteState k = (s.appended cfg).count k
  assigned : s.total = cfg.batch * s.batches.length
  nextId : s.nextId = cfg.keyCount + cfg.batch * s.batches.length
  opened : s.batches.length = s.batchesCommitted + s.batchOpen.toNat
  head : s.head = cfg.keyCount + cfg.batch * s.batchesCommitted
  landed : ∀ k, cfg.keyCount ≤ k → k < s.head → s.acked.count k = 1
  nextAt : s.nextAt.getD (cfg.warmupStart + cfg.every) =
    cfg.warmupStart + cfg.every * (s.batches.length + 1)
  batch : ∀ i b, s.batches[i]? = some b →
    b.2 = List.range' (cfg.keyCount + cfg.batch * i) cfg.batch ∧
      cfg.warmupStart + cfg.every * (i + 1) ≤ b.1
  opening : ∀ now ids, s.enqueuing = some (now, ids) → s.batchOpen = false ∧ s.nextAt ≠ none ∧
    ids = List.range' s.nextId ids.length ∧ ids.length ≤ cfg.batch ∧
      cfg.warmupStart + cfg.every * (s.batches.length + 1) ≤ now

theorem count_appended_le (cfg : AppendConfig E C W) (s : AppendState E C W) (k : Nat) :
    (s.appended cfg).count k ≤ 1 := List.nodup_iff_count_le_one.1 (List.nodup_range' 1) k

section

variable [Fintype E] [Fintype C]

theorem AppendInv.acked_le {cfg : AppendConfig E C W} {s : AppendState E C W}
    (h : AppendInv cfg s) (k : Nat) : s.acked.count k ≤ (s.appended cfg).count k := by
  rw [← h.total_eq k]
  exact Nat.le_add_left _ _

/-- As many confirmations as ids assigned: every id queued was acknowledged. -/
theorem AppendInv.all_acked {cfg : AppendConfig E C W} {s : AppendState E C W}
    (h : AppendInv cfg s) (hidle : s.enqueuing = none) (hdone : s.total ≤ s.confirmed) {k : Nat}
    (hk : cfg.keyCount ≤ k) (hlt : k < cfg.keyCount + cfg.batch * s.batches.length) :
    s.acked.count k = 1 := by
  have hids : s.appended cfg = List.range' cfg.keyCount (cfg.batch * s.batches.length) := by
    simp [AppendState.appended, AppendState.enqueued, hidle]
  refine count_eq_one_of_covered h.acked_le (List.nodup_range' 1) ?_ ?_
  · have := h.assigned
    have := h.counted
    rw [hids, List.length_range']
    omega
  · rw [hids]
    exact List.mem_range'_1.2 ⟨hk, hlt⟩

end

/-! ## The steps -/

variable [Fintype E] [Fintype C] [DecidableEq E] [DecidableEq C] [DecidableEq W]

omit [DecidableEq C] [DecidableEq E] [DecidableEq W] in
theorem init_appendInv (cfg : AppendConfig E C W) : AppendInv cfg (AppendState.init cfg) where
  conns _ := rfl
  counted := rfl
  total_eq k := by
    simp [Worker.total, AppendState.init, Writer.occurs, Writer.hand, Writer.new,
      AppendState.appended, AppendState.enqueued]
  assigned := rfl
  nextId := rfl
  opened := rfl
  head := rfl
  landed k hk hlt := absurd hlt (Nat.not_lt.2 hk)
  nextAt := by simp [AppendState.init]
  batch := nofun
  opening := nofun

/-- A writer moves ids, and acknowledges none that was acknowledged. -/
theorem writer_appendInv {cfg : AppendConfig E C W} {s : AppendState E C W} {c : C}
    {e : WriterStep E} {t : WriteState E C W} (h : AppendInv cfg s)
    (hstep : writerStep cfg.toWriterConfig s.toWriteState c e = some t) :
    AppendInv cfg { s with toWriteState := t } := by
  obtain ⟨_, _, _, heff⟩ := writerStep_effect (h.conns c) hstep
  have htotal : ∀ k, Worker.total t k = (s.appended cfg).count k := fun k =>
    (heff.total_eq k).trans (h.total_eq k)
  refine ⟨heff.conn_ok h.conns, ?_, htotal, h.assigned, h.nextId, h.opened, h.head,
    fun k hk hlt => ?_, h.nextAt, h.batch, h.opening⟩
  · have := heff.counted
    have := h.counted
    simp only
    omega
  · have hgrows := heff.acked.sublist.count_le k
    have hle : t.acked.count k ≤ (s.appended cfg).count k := by
      rw [← htotal k]
      exact Nat.le_add_left _ _
    have hone := count_appended_le cfg s k
    have := h.landed k hk hlt
    simp only
    omega

omit [DecidableEq C] [DecidableEq E] [DecidableEq W] in
theorem schedule_appendInv {cfg : AppendConfig E C W} {s : AppendState E C W} (now : Nat)
    (h : AppendInv cfg s) (hidle : s.enqueuing = none) : AppendInv cfg (schedule cfg s now) := by
  unfold schedule
  simp only
  split
  · rename_i hopen
    split
    · -- the open batch has landed
      rename_i hdone
      have hopened : s.batches.length = s.batchesCommitted + 1 := by
        rw [h.opened, hopen]
        rfl
      refine ⟨h.conns, h.counted, h.total_eq, h.assigned, h.nextId, hopened, ?_, fun k hk hlt => ?_,
        h.nextAt, h.batch, fun now ids hids => ?_⟩
      · rw [h.nextId, hopened]
      · exact h.all_acked hidle hdone hk (h.nextId ▸ hlt)
      · rw [hidle] at hids
        cases hids
    · exact ⟨h.conns, h.counted, h.total_eq, h.assigned, h.nextId, h.opened, h.head, h.landed,
        h.nextAt, h.batch, fun now ids hids => by rw [hidle] at hids; cases hids⟩
  · rename_i hopen
    split
    · rename_i hdue
      refine ⟨h.conns, h.counted, fun k => ?_, h.assigned, h.nextId, h.opened, h.head, h.landed,
        h.nextAt, h.batch, ?_⟩
      · rw [h.total_eq k]
        simp [AppendState.appended, AppendState.enqueued, hidle]
      · rintro _ _ ⟨⟩
        exact ⟨by simpa using hopen, by simp, rfl, Nat.zero_le _, h.nextAt ▸ hdue⟩
    · exact ⟨h.conns, h.counted, h.total_eq, h.assigned, h.nextId, h.opened, h.head, h.landed,
        h.nextAt, h.batch, fun now ids hids => by rw [hidle] at hids; cases hids⟩

omit [DecidableEq C] [DecidableEq W] in
theorem enqueue_appendInv {cfg : AppendConfig E C W} {s : AppendState E C W} {now : Nat}
    {ids : List Nat} (h : AppendInv cfg s) (hids : s.enqueuing = some (now, ids))
    (hlt : ids.length < cfg.batch) (e : E) :
    AppendInv cfg { s with toWriteState := s.toWriteState.pushBack e (s.nextId + ids.length)
                           enqueuing := some (now, ids ++ [s.nextId + ids.length]) } := by
  obtain ⟨hopen, hnext, hrange, hle, htime⟩ := h.opening now ids hids
  refine ⟨h.conns, h.counted, fun k => ?_, h.assigned, h.nextId, h.opened, h.head, h.landed,
    h.nextAt, h.batch, ?_⟩
  · have hpush := sum_map_update_add (List.count k) s.queue e
      (s.queue e ++ [s.nextId + ids.length])
    have htotal := h.total_eq k
    have hgrows : AppendState.appended cfg { s with
        toWriteState := s.toWriteState.pushBack e (s.nextId + ids.length)
        enqueuing := some (now, ids ++ [s.nextId + ids.length]) } =
          s.appended cfg ++ [s.nextId + ids.length] := by
      simp [AppendState.appended, AppendState.enqueued, hids, h.nextId, ← Nat.add_assoc,
        List.range'_concat]
    rw [hgrows]
    simp only [Worker.total, WriteState.pushBack, WriteState.setQueue, List.count_append]
      at hpush htotal ⊢
    omega
  · rintro _ _ ⟨⟩
    refine ⟨hopen, hnext, ?_, by simpa using Nat.succ_le_of_lt hlt, htime⟩
    rw [List.length_append, List.length_singleton, List.range'_concat, ← hrange]
    simp

omit [DecidableEq C] [DecidableEq E] [DecidableEq W] in
theorem opened_appendInv {cfg : AppendConfig E C W} {s : AppendState E C W} {now : Nat}
    {ids : List Nat} (h : AppendInv cfg s) (hids : s.enqueuing = some (now, ids))
    (hlen : ids.length = cfg.batch) :
    AppendInv cfg { s with total := s.total + cfg.batch, nextId := s.nextId + cfg.batch
                           batchOpen := true, nextAt := s.nextAt.map (· + cfg.every)
                           enqueuing := none, batches := s.batches ++ [(now, ids)] } := by
  obtain ⟨hopen, hnext, hrange, -, htime⟩ := h.opening now ids hids
  have hopened := h.opened
  rw [hopen, Bool.toNat_false, Nat.add_zero] at hopened
  refine ⟨h.conns, h.counted, fun k => ?_, ?_, ?_, ?_, h.head, h.landed, ?_, fun i b hb => ?_,
    nofun⟩
  · rw [h.total_eq k]
    simp [AppendState.appended, AppendState.enqueued, hids, hlen, Nat.mul_add]
  · simp [h.assigned, Nat.mul_add]
  · simp [h.nextId, Nat.mul_add, Nat.add_assoc]
  · simp [hopened]
  · obtain ⟨t, ht⟩ := Option.ne_none_iff_exists'.1 hnext
    have hat := h.nextAt
    rw [ht, Option.getD_some] at hat
    simp only [ht, Option.map_some, Option.getD_some, List.length_append, List.length_singleton,
      hat, Nat.mul_add]
    omega
  · rcases Nat.lt_trichotomy i s.batches.length with hi | rfl | hi
    · rw [List.getElem?_append_left hi] at hb
      exact h.batch i b hb
    · rw [List.getElem?_concat_length] at hb
      cases hb
      refine ⟨?_, htime⟩
      rw [hrange, hlen, h.nextId]
    · rw [List.getElem?_eq_none (by simp; omega)] at hb
      cases hb

theorem appendStep_inv {cfg : AppendConfig E C W} {s t : AppendState E C W} {e : AppendStep E C}
    (h : AppendInv cfg s) (hstep : appendStep cfg s e = some t) : AppendInv cfg t := by
  cases e with
  | writer c e =>
    simp only [appendStep] at hstep
    split at hstep
    · rw [Option.map_eq_some_iff] at hstep
      obtain ⟨u, hu, rfl⟩ := hstep
      exact writer_appendInv h hu
    · cases hstep
  | schedule now =>
    simp only [appendStep] at hstep
    split at hstep <;> cases hstep
    rename_i hidle
    exact schedule_appendInv now h hidle
  | enqueue =>
    simp only [appendStep] at hstep
    split at hstep
    · rename_i now ids hids
      split at hstep <;> cases hstep
      rename_i hlt
      exact enqueue_appendInv h hids hlt _
    · cases hstep
  | opened =>
    simp only [appendStep] at hstep
    split at hstep
    · rename_i now ids hids
      split at hstep <;> cases hstep
      rename_i hlen
      exact opened_appendInv h hids hlen
    · cases hstep

/-- **The append head is safe.** In every run: the head is `keyCount` plus the ids of the batches
committed; of the batches opened at most one is not committed; batch `i` has exactly its own range
of ids and was not opened early; no id is confirmed twice; every id below the head was confirmed;
so no draw from the head is an appended id that was not. -/
theorem append_head_safe (cfg : AppendConfig E C W) (es : List (AppendStep E C))
    (s : AppendState E C W) (hrun : Exec.run (appendStep cfg) (.init cfg) es = some s) :
    s.head = cfg.keyCount + cfg.batch * s.batchesCommitted ∧
      s.batches.length + s.enqueuing.toList.length ≤ s.batchesCommitted + 1 ∧
      (∀ i b, (s.batches ++ s.enqueuing.toList)[i]? = some b →
        (i < s.batches.length → b.2 = List.range' (cfg.keyCount + cfg.batch * i) cfg.batch) ∧
        b.2 <+: List.range' (cfg.keyCount + cfg.batch * i) cfg.batch ∧
        cfg.warmupStart + cfg.every * (i + 1) ≤ b.1) ∧
      s.confirmed = s.acked.length ∧ (∀ k, s.acked.count k ≤ 1) ∧
      (∀ k, cfg.keyCount ≤ k → k < s.head → k ∈ s.acked) ∧
      ∀ (r : Recency) (draw : RecencyDraw), cfg.keyCount ≤ r.sample s.head draw →
        r.sample s.head draw ∈ s.acked := by
  have h : AppendInv cfg s := Exec.run_inv appendStep_inv (init_appendInv cfg) hrun
  have hacked : ∀ k, cfg.keyCount ≤ k → k < s.head → k ∈ s.acked := fun k hk hlt =>
    List.count_pos_iff.1 (by rw [h.landed k hk hlt]; exact Nat.one_pos)
  refine ⟨h.head, ?_, fun i b hb => ?_, h.counted,
    fun k => (h.acked_le k).trans (count_appended_le cfg s k), hacked, fun r draw hk => ?_⟩
  · have hopened := h.opened
    cases henq : s.enqueuing with
    | none => cases hopen : s.batchOpen <;> simp [hopen] at hopened ⊢ <;> omega
    | some b =>
      obtain ⟨hopen, -⟩ := h.opening b.1 b.2 henq
      simp [hopen] at hopened ⊢
      omega
  · by_cases hi : i < s.batches.length
    · rw [List.getElem?_append_left hi] at hb
      obtain ⟨hids, htime⟩ := h.batch i b hb
      exact ⟨fun _ => hids, hids ▸ List.prefix_refl _, htime⟩
    · rw [List.getElem?_append_right (by omega)] at hb
      cases henq : s.enqueuing with
      | none => simp [henq] at hb
      | some b' =>
        have hlen : i = s.batches.length := by
          have := (List.getElem?_eq_some_iff.1 hb).1
          simp [henq] at this
          omega
        subst hlen
        simp only [henq, Option.toList_some, Nat.sub_self, List.getElem?_cons_zero,
          Option.some.injEq] at hb
        subst hb
        obtain ⟨-, -, hrange, hle, htime⟩ := h.opening b'.1 b'.2 henq
        refine ⟨fun hlt => absurd hlt (by omega), ?_, htime⟩
        obtain ⟨left, hleft⟩ := Nat.exists_eq_add_of_le hle
        have hids := List.range'_append_1 (s := s.nextId) (m := b'.2.length) (n := left)
        rw [← hrange, ← hleft, h.nextId] at hids
        exact ⟨_, hids⟩
  · refine hacked _ hk (r.sample_lt ?_ draw)
    have := cfg.keyCount_pos
    have := h.head
    omega

/-! ## Two batches -/

def twoIdAppend : AppendConfig Unit Unit Unit where
  pipelineDepth := 2
  endpoint := id
  worker := id
  slotOf := id
  keyCount := 5
  keyCount_pos := by decide
  batch := 2
  batch_pos := by decide
  every := 10
  every_pos := by decide
  warmupStart := 100
  startup _ := ()

/-- The writer's first flush fails and its second is answered. -/
def resendRun : List (WriterStep Unit) :=
  [.connect, .begin true, .pop, .fire false, .pop, .fire false, .failFlush, .requeueNewest,
    .requeueNewest, .requeueNewest, .sleep, .begin true, .pop, .fire false, .pop, .fire false,
    .flush, .reply true none]

/-- A batch is committed once both ids are confirmed, and then the next one is opened. -/
def twoBatchRun : List (AppendStep Unit Unit) :=
  [.schedule 110, .enqueue, .enqueue, .opened] ++ resendRun.map (.writer ()) ++ [.schedule 121] ++
    [WriterStep.begin true, .flush, .reply true none].map (.writer ()) ++
    [.schedule 122, .schedule 123, .enqueue, .enqueue, .opened]

theorem append_head_safe_twoBatches : ∃ s,
    Exec.run (appendStep twoIdAppend) (.init twoIdAppend) twoBatchRun = some s ∧
      s.head = 7 ∧ s.batches = [(110, [5, 6]), (123, [7, 8])] ∧
      (∀ k, 5 ≤ k → k < 7 → k ∈ s.acked) ∧
      ∀ (r : Recency) (draw : RecencyDraw), 5 ≤ r.sample s.head draw →
        r.sample s.head draw ∈ s.acked := by
  have hrun : (Exec.run (appendStep twoIdAppend) (.init twoIdAppend) twoBatchRun).map
      (fun s => (s.head, s.batches)) = some (7, [(110, [5, 6]), (123, [7, 8])]) := by
    decide +kernel
  obtain ⟨s, hs, hends⟩ := Option.map_eq_some_iff.1 hrun
  obtain ⟨hhead, hbatches⟩ := Prod.mk.inj hends
  obtain ⟨-, -, -, -, -, hacked, hdraws⟩ := append_head_safe twoIdAppend twoBatchRun s hs
  rw [hhead] at hacked
  exact ⟨s, hs, hhead, hbatches, hacked, hdraws⟩

end Worker
