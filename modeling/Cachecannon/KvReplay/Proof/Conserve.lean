import Cachecannon.KvReplay.Proof.Slots

/-!
# Request conservation

Every request the reader sent is at all times in the channel, held by one dispatcher, handed back
to one dispatcher, in one completed slot, running on one connection, or finished
(`requests_conserved`). `KvInv` is the invariant of the replay and `kvStep_inv` its step lemma;
`WorkerMoves` is what every step of a dispatcher or a connection keeps.
-/

namespace KvReplay

open Ledger

variable {W C : Type}

/-! ## The invariant -/

/-- **The invariant of the replay.** -/
structure KvInv [Fintype W] [Fintype C] (cfg : KvConfig W C) (s : KvState W C) : Prop where
  slots : SlotsOk cfg s
  sending : ∀ req, s.sending = some req → req.index + 1 = s.sent
  stopped : s.stopped = true → s.sending = none
  counted : s.finished = s.marked.length
  total_eq : ∀ k, total s k = (List.range s.delivered).count k

theorem init_inv [Fintype W] [Fintype C] (cfg : KvConfig W C) : KvInv cfg (.init cfg) where
  slots := ⟨fun _ => List.nodup_nil, fun _ _ h => by cases h⟩
  sending _ h := by cases h
  stopped _ := rfl
  counted := rfl
  total_eq k := by
    simp [total, KvState.init, startDispatcher, KvDispatcher.occurs, KvState.delivered]

/-- What a step of a dispatcher or a connection does: the reader's part stays, `finished` counts
the calls of `mark_finished`, and requests only move. -/
structure WorkerMoves [Fintype W] [Fintype C] (cfg : KvConfig W C) (s t : KvState W C) :
    Prop where
  slots : SlotsOk cfg t
  sent : t.sent = s.sent
  sending : t.sending = s.sending
  stopped : t.stopped = s.stopped
  counted : t.finished + s.marked.length = s.finished + t.marked.length
  total_eq : ∀ k, total t k = total s k

theorem WorkerMoves.trans [Fintype W] [Fintype C] {cfg : KvConfig W C} {s t u : KvState W C}
    (h : WorkerMoves cfg s t) (h' : WorkerMoves cfg t u) : WorkerMoves cfg s u where
  slots := h'.slots
  sent := h'.sent.trans h.sent
  sending := h'.sending.trans h.sending
  stopped := h'.stopped.trans h.stopped
  counted := by
    have := h.counted
    have := h'.counted
    omega
  total_eq k := (h'.total_eq k).trans (h.total_eq k)

theorem KvInv.moves [Fintype W] [Fintype C] {cfg : KvConfig W C} {s t : KvState W C}
    (h : KvInv cfg s) (hm : WorkerMoves cfg s t) : KvInv cfg t where
  slots := hm.slots
  sending := by
    rw [hm.sending, hm.sent]
    exact h.sending
  stopped := by
    rw [hm.sending, hm.stopped]
    exact h.stopped
  counted := by
    have := hm.counted
    have := h.counted
    omega
  total_eq k := by
    rw [hm.total_eq, h.total_eq, KvState.delivered, KvState.delivered, hm.sending, hm.sent]

variable [DecidableEq W] [DecidableEq C] [Fintype W] [Fintype C] {cfg : KvConfig W C}
  {s t : KvState W C}

omit [Fintype W] [Fintype C] in
theorem completeSlot_eq {w : W} {c : C} {job : KvJob} {channel : List Request}
    {d : KvDispatcher C} {failed : List KvJob} (h : SlotsOk cfg s)
    (hc : c ∈ (s.dispatch w).waiting) :
    completeSlot (((s.setChannel channel).setDispatch w d).markFinished failed) (c, job) =
      (((s.setChannel channel).setDispatch w d).markFinished failed).setPc c
        (.waiting ⟨some job, true⟩) := by
  have hpc : ((((s.setChannel channel).setDispatch w d).markFinished failed).conn c).pc =
      .waiting .new := (h.waits w c hc).2
  unfold completeSlot
  rw [hpc]
  rfl

theorem dispatched_moves {w : W} {out : Dispatched C} (h : SlotsOk cfg s)
    (hout : Dispatches s.channel (s.dispatch w) [] out) :
    WorkerMoves cfg s (s.dispatched w out) := by
  obtain ⟨channel, d, handed, failed⟩ := out
  have hchannel : SlotsOk cfg (s.setChannel channel) := ⟨h.nodup, h.waits⟩
  have hcounted : s.finished + failed.length + s.marked.length =
      s.finished + (s.marked ++ failed.map KvJob.index).length := by
    rw [List.length_append, List.length_map]
    omega
  have htotal : ∀ k, total (((s.setChannel channel).setDispatch w d).markFinished failed) k +
      countBy KvJob.index k (handed.map (·.2)).toList = total s k := fun k => by
    have hmoved := hout.moved k
    have hchannel := total_setChannel k s channel
    have hset : _ + (s.dispatch w).occurs k = _ := total_setDispatch k (s.setChannel channel) w d
    rw [total_markFinished]
    simp only [countBy_nil] at hmoved
    omega
  cases handed with
  | none =>
    have hslots := hchannel.setDispatch (w := w) (d := d) hout.waiting.symm
    exact ⟨⟨hslots.nodup, hslots.waits⟩, rfl, rfl, rfl, hcounted, htotal⟩
  | some handed =>
    obtain ⟨c, job⟩ := handed
    have hc : c ∈ (s.dispatch w).waiting := by simp [hout.waiting]
    have hslots : SlotsOk cfg (((s.setChannel channel).setDispatch w d).setPc c
        (.waiting ⟨some job, true⟩)) := hchannel.complete hout.waiting
    simp only [KvState.dispatched, completeSlot_eq h hc]
    refine ⟨⟨hslots.nodup, hslots.waits⟩, rfl, rfl, rfl, hcounted, fun k => ?_⟩
    have hpc : _ + (s.conn c).pc.occurs k = _ := total_setPc k
      (((s.setChannel channel).setDispatch w d).markFinished failed) c (.waiting ⟨some job, true⟩)
    have := htotal k
    rw [(h.waits w c hc).2] at hpc
    simp only [KvSlot.new, occurs_waiting, Option.toList_none, countBy_nil] at hpc
    simp only [Option.map_some] at this
    omega

omit [DecidableEq C] in
theorem setDispatch_moves {w : W} {d : KvDispatcher C} (h : SlotsOk cfg s)
    (hwaiting : d.waiting = (s.dispatch w).waiting)
    (hocc : ∀ k, d.occurs k = (s.dispatch w).occurs k) :
    WorkerMoves cfg s (s.setDispatch w d) := by
  refine ⟨h.setDispatch hwaiting, rfl, rfl, rfl, rfl, fun k => ?_⟩
  have := total_setDispatch k s w d
  have := hocc k
  omega

omit [DecidableEq W] in
theorem setConn_moves {c : C} {conn : KvConn} (h : SlotsOk cfg s)
    (hc : (s.conn c).pc ≠ .waiting .new)
    (hocc : ∀ k, conn.pc.occurs k = (s.conn c).pc.occurs k) :
    WorkerMoves cfg s (s.setConn c conn) := by
  refine ⟨h.setConn hc, rfl, rfl, rfl, rfl, fun k => ?_⟩
  have := total_setConn k s c conn
  have := hocc k
  omega

/-- A connection that asks for a job waits, and holds none. -/
theorem ask_moves {c : C} (h : SlotsOk cfg s) (hc : (s.conn c).pc = .top) :
    WorkerMoves cfg s ((s.setDispatch (cfg.worker c) { s.dispatch (cfg.worker c) with
      waiting := (s.dispatch (cfg.worker c)).waiting ++ [c] }).setPc c (.waiting .new)) := by
  refine ⟨h.ask hc, rfl, rfl, rfl, rfl, fun k => ?_⟩
  have hset := total_setDispatch k s (cfg.worker c) { s.dispatch (cfg.worker c) with
    waiting := (s.dispatch (cfg.worker c)).waiting ++ [c] }
  have hconn : _ + (s.conn c).pc.occurs k = _ := total_setPc k
    (s.setDispatch (cfg.worker c) { s.dispatch (cfg.worker c) with
      waiting := (s.dispatch (cfg.worker c)).waiting ++ [c] }) c (.waiting .new)
  rw [hc] at hconn
  exact hconn.trans (Nat.add_right_cancel hset)

omit [DecidableEq W] in
theorem markFinished_moves {c : C} {job : KvJob} (h : SlotsOk cfg s)
    (hc : (s.conn c).pc = .running job) :
    WorkerMoves cfg s ((s.markFinished [job]).setPc c .top) := by
  have hslots : SlotsOk cfg (s.markFinished [job]) := ⟨h.nodup, h.waits⟩
  refine ⟨hslots.setConn (c := c) ?_, rfl, rfl, rfl, ?_, fun k => ?_⟩
  · show (s.conn c).pc ≠ _
    rw [hc]
    exact ConnPc.noConfusion
  · simp only [KvState.setPc, KvState.markFinished, List.length_append, List.length_map]
    omega
  · have hpc : _ + (s.conn c).pc.occurs k = _ := total_setPc k (s.markFinished [job]) c .top
    rw [hc, occurs_running, total_markFinished] at hpc
    exact Nat.add_right_cancel hpc

theorem leave_moves {c : C} (h : SlotsOk cfg s) (hc : (s.conn c).pc ≠ .waiting .new)
    (hnone : ∀ k, (s.conn c).pc.occurs k = 0) : WorkerMoves cfg s (leave cfg s c) :=
  ⟨h.leave hc, rfl, rfl, rfl, rfl, fun k => by
    have := total_leave k s cfg c
    have := hnone k
    omega⟩

theorem markFinished_leave_moves {c : C} {job : KvJob} (h : SlotsOk cfg s)
    (hc : (s.conn c).pc ≠ .waiting .new)
    (hjob : ∀ k, (s.conn c).pc.occurs k = countBy KvJob.index k [job]) :
    WorkerMoves cfg s (leave cfg (s.markFinished [job]) c) := by
  have hslots : SlotsOk cfg (s.markFinished [job]) := ⟨h.nodup, h.waits⟩
  refine ⟨hslots.leave hc, rfl, rfl, rfl, ?_, fun k => ?_⟩
  · simp only [leave, KvState.setPc, KvState.setDispatch, KvState.markFinished,
      List.length_append, List.length_map]
    omega
  · have hleave : _ + (s.conn c).pc.occurs k = _ := total_leave k (s.markFinished [job]) cfg c
    have := hjob k
    rw [total_markFinished] at hleave
    omega

theorem handBack_moves {c : C} {job : KvJob} (h : SlotsOk cfg s)
    (hc : (s.conn c).pc ≠ .waiting .new)
    (hjob : ∀ k, (s.conn c).pc.occurs k = countBy KvJob.index k [job])
    (why : HandBack) : WorkerMoves cfg s (handBack cfg s c job why) := by
  unfold handBack
  split
  · rename_i d hgive
    obtain ⟨hwaiting, hocc⟩ := KvDispatcher.giveBack_some hgive
    refine ⟨(h.setDispatch hwaiting).leave hc, rfl, rfl, rfl, rfl, fun k => ?_⟩
    have hset := total_setDispatch k s (cfg.worker c) d
    have hleave : _ + (s.conn c).pc.occurs k = _ :=
      total_leave k (s.setDispatch (cfg.worker c) d) cfg c
    have := hocc k
    have := hjob k
    omega
  · exact markFinished_leave_moves h hc hjob

omit [DecidableEq W] [DecidableEq C] [Fintype W] [Fintype C] in
theorem request_index {n : Nat} {req : Request} {rest : List Request}
    (h : cfg.requests.drop n = req :: rest) : req.index = n := by
  have hget : (cfg.requests.map Request.index)[n]? = some req.index := by
    rw [List.getElem?_map, ← List.head?_drop, h]
    rfl
  rw [cfg.requests_index, List.getElem?_eq_some_iff] at hget
  obtain ⟨hn, hget⟩ := hget
  simpa using hget.symm

/-- The request being sent is the next of the trace, and joins the channel. -/
theorem send_inv (h : KvInv cfg s) (hstep : kvStep cfg s .send = some t) : KvInv cfg t := by
  simp only [kvStep] at hstep
  split at hstep
  · rename_i req hsending
    split at hstep <;> cases hstep
    have hindex := h.sending req hsending
    refine ⟨⟨h.slots.nodup, h.slots.waits⟩, ?_, fun _ => rfl, h.counted, fun k => ?_⟩
    · intro _ hreq
      cases hreq
    · have htotal := h.total_eq k
      have hchannel := total_setChannel k s (s.channel ++ [req])
      rw [countBy_append] at hchannel
      have hsent : s.delivered = req.index := by simp [KvState.delivered, hsending, ← hindex]
      have hrange : (List.range s.sent).count k =
          (List.range req.index).count k + countBy Request.index k [req] := by
        rw [← hindex, List.range_succ, List.count_append]
        rfl
      rw [hsent] at htotal
      show total (s.setChannel (s.channel ++ [req])) k = (List.range s.sent).count k
      omega
  · cases hstep

/-- **The step lemma.** -/
theorem kvStep_inv {e : KvStep W C} (h : KvInv cfg s) (hstep : kvStep cfg s e = some t) :
    KvInv cfg t := by
  cases e with
  | read =>
    simp only [kvStep] at hstep
    split at hstep
    · rename_i req rest hsending hreq
      split at hstep <;> cases hstep
      rename_i hrunning
      have hindex : req.index = s.sent := request_index hreq
      refine ⟨⟨h.slots.nodup, h.slots.waits⟩, fun req' hreq' => ?_, fun hs => absurd hs hrunning,
        h.counted, fun k => ?_⟩
      · cases hreq'
        rw [hindex]
      · have := h.total_eq k
        simpa [KvState.delivered, hsending, total] using this
    · cases hstep
  | send => exact send_inv h hstep
  | stopReader =>
    simp only [kvStep] at hstep
    split at hstep <;> cases hstep
    rename_i hsending
    exact ⟨⟨h.slots.nodup, h.slots.waits⟩, h.sending, fun _ => hsending, h.counted, h.total_eq⟩
  | dropSender =>
    simp only [kvStep] at hstep
    split at hstep <;> cases hstep
    exact ⟨⟨h.slots.nodup, h.slots.waits⟩, h.sending, h.stopped, h.counted, h.total_eq⟩
  | startAt instant =>
    cases hstep
    exact ⟨⟨h.slots.nodup, h.slots.waits⟩, h.sending, h.stopped, h.counted, h.total_eq⟩
  | dispatch w nowHeld now =>
    simp only [kvStep] at hstep
    split at hstep <;> cases hstep
    · exact h.moves (dispatched_moves h.slots (runDispatcher_dispatches _ _ _ _ nowHeld now))
    · exact h
  | connectFailed c =>
    simp only [kvStep] at hstep
    split at hstep <;> cases hstep
    exact h.moves (setDispatch_moves h.slots rfl fun k => rfl)
  | connect c =>
    simp only [kvStep] at hstep
    split at hstep <;> cases hstep
    rename_i hpc
    have hlive := setDispatch_moves (w := cfg.worker c) h.slots
      (d := { s.dispatch (cfg.worker c) with live := (s.dispatch (cfg.worker c)).live + 1 }) rfl
      fun k => rfl
    refine h.moves (hlive.trans (setConn_moves hlive.slots ?_ fun k => ?_))
    · simp [KvState.setDispatch, hpc]
    · simp [KvState.setDispatch, hpc]
  | eof c =>
    simp only [kvStep] at hstep
    split at hstep <;> cases hstep
    rename_i hpc
    have hfailed := setDispatch_moves (w := cfg.worker c) h.slots
      (d := if (s.conn c).ranAny = true then s.dispatch (cfg.worker c)
        else (s.dispatch (cfg.worker c)).noteConnectFailed) (by split <;> rfl)
      fun k => by split <;> rfl
    refine h.moves (hfailed.trans (leave_moves hfailed.slots ?_ fun k => ?_))
    · simp [KvState.setDispatch, hpc]
    · simp [KvState.setDispatch, hpc]
  | ask c =>
    simp only [kvStep] at hstep
    split at hstep
    · rename_i hpc
      split at hstep <;> cases hstep
      · exact h
      · exact h.moves (ask_moves h.slots hpc)
    · cases hstep
  | take c alive =>
    simp only [kvStep] at hstep
    split at hstep
    · rename_i job hpc
      have hdone : (s.conn c).pc ≠ .waiting .new := by simp [hpc, KvSlot.new]
      cases job with
      | none =>
        cases hstep
        exact h.moves (setConn_moves h.slots hdone fun k => by simp [hpc])
      | some job =>
        simp only at hstep
        split at hstep <;> cases hstep
        · exact h.moves (setConn_moves h.slots hdone fun k => by simp [hpc])
        · exact h.moves (handBack_moves h.slots hdone (fun k => by simp [hpc]) .unsent)
    · cases hstep
  | done c result =>
    simp only [kvStep] at hstep
    split at hstep
    · rename_i job hpc
      have hrunning : (s.conn c).pc ≠ .waiting .new := by simp [hpc]
      have hjob : ∀ k, (s.conn c).pc.occurs k = countBy KvJob.index k [job] := fun k => by
        simp [hpc]
      split at hstep <;> cases hstep
      · exact h.moves (handBack_moves h.slots hrunning hjob .lookupSent)
      · exact h.moves (markFinished_leave_moves h.slots hrunning hjob)
      · exact h.moves (markFinished_moves h.slots hpc)
      · exact h.moves (markFinished_moves h.slots hpc)
    · cases hstep

/-! ## Places -/

inductive Place (W C : Type)
  | channel
  | pending (w : W)
  | returned (w : W)
  | slot (c : C)
  | running (c : C)
  | finished

def Place.equiv : (W ⊕ W) ⊕ (C ⊕ C) ⊕ Unit ⊕ Unit ≃ Place W C where
  toFun
    | .inl (.inl w) => .pending w
    | .inl (.inr w) => .returned w
    | .inr (.inl (.inl c)) => .slot c
    | .inr (.inl (.inr c)) => .running c
    | .inr (.inr (.inl ())) => .channel
    | .inr (.inr (.inr ())) => .finished
  invFun
    | .pending w => .inl (.inl w)
    | .returned w => .inl (.inr w)
    | .slot c => .inr (.inl (.inl c))
    | .running c => .inr (.inl (.inr c))
    | .channel => .inr (.inr (.inl ()))
    | .finished => .inr (.inr (.inr ()))
  left_inv := by rintro ((w | w) | (c | c) | ⟨⟩ | ⟨⟩) <;> rfl
  right_inv := by rintro (_ | w | w | c | c | _) <;> rfl

instance : Fintype (Place W C) := .ofEquiv _ Place.equiv

/-- How often the request `k` is in a place; it is finished as often as `mark_finished` was called
for it. -/
def occurrences (s : KvState W C) (k : Nat) : Place W C → Nat
  | .channel => countBy Request.index k s.channel
  | .pending w => countBy KvJob.index k (s.dispatch w).pending.toList
  | .returned w => countBy KvJob.index k ((s.dispatch w).returned.map (·.1))
  | .slot c => countBy KvJob.index k (s.conn c).pc.slotJobs
  | .running c => countBy KvJob.index k (s.conn c).pc.runningJobs
  | .finished => s.marked.count k

omit [DecidableEq W] [DecidableEq C] in
theorem sum_occurrences (s : KvState W C) (k : Nat) : ∑ p, occurrences s k p = total s k := by
  rw [← Place.equiv.sum_comp]
  simp only [Fintype.sum_sum_type, Finset.univ_unique, Finset.sum_singleton, Place.equiv,
    Equiv.coe_fn_mk, occurrences, total, KvDispatcher.occurs, ConnPc.occurs,
    Finset.sum_add_distrib]
  omega

omit [DecidableEq W] [DecidableEq C] in
theorem KvInv.marked_le (h : KvInv cfg s) (k : Nat) :
    s.marked.count k ≤ (List.range s.delivered).count k := by
  rw [← h.total_eq k]
  exact Nat.le_add_left _ _

/-- **Request conservation.** In every run, each request the reader sent is in exactly one place,
finished when `mark_finished` was called for it, which is never twice. `finished` counts these
calls and is at most `sent`. `is_finished` is true only when the reader has stopped and
`mark_finished` was called exactly once for each request it sent. -/
theorem requests_conserved (cfg : KvConfig W C) (es : List (KvStep W C)) (s : KvState W C)
    (hrun : Exec.run (kvStep cfg) (.init cfg) es = some s) :
    (∀ k < s.delivered, ExactlyOne (occurrences s k)) ∧ (∀ k, s.marked.count k ≤ 1) ∧
      s.finished = s.marked.length ∧ s.finished ≤ s.sent ∧
      (s.isFinished = true → s.stopped = true ∧ ∀ k < s.sent, s.marked.count k = 1) := by
  have h : KvInv cfg s := Exec.run_inv kvStep_inv (init_inv cfg) hrun
  have hlen := length_le_of_covered h.marked_le
  rw [List.length_range, ← h.counted] at hlen
  refine ⟨fun k hk => exactlyOne_of_sum ?_, fun k => ?_, h.counted, ?_, fun hfin => ?_⟩
  · rw [sum_occurrences, h.total_eq]
    exact count_range hk
  · exact (h.marked_le k).trans (List.nodup_iff_count_le_one.1 List.nodup_range k)
  · exact hlen.trans (Nat.sub_le _ _)
  · -- the reader has stopped, so it is not sending: all it counted was sent
    simp only [KvState.isFinished, Bool.and_eq_true, decide_eq_true_eq] at hfin
    have hall : s.delivered = s.sent := by simp [KvState.delivered, h.stopped hfin.1]
    refine ⟨hfin.1, fun k hk => ?_⟩
    refine count_eq_one_of_covered h.marked_le List.nodup_range ?_ (List.mem_range.2 (hall ▸ hk))
    rw [List.length_range, ← h.counted, hall]
    exact hfin.2

/-! ## A run of three requests -/

/-- Two connections on one worker. -/
def threeRequests : KvConfig Unit Bool where
  worker _ := ()
  connections _ := 2
  spawned _ := true
  scheduledAt _ _ := none
  requests := [⟨0, 0⟩, ⟨1, 1⟩, ⟨2, 2⟩]
  requests_index := rfl

def readAllRun : List (KvStep Unit Bool) :=
  [.read, .send, .read, .send, .read, .send, .stopReader, .dropSender, .startAt 0]

/-- The first connection is closed when the first request reaches it and hands it back; the other
one, done with the second request, runs it, and fails in the third. -/
def handedBackRun : List (KvStep Unit Bool) :=
  [.connect false, .ask false, .connect true, .ask true, .dispatch () 0 0, .dispatch () 0 0,
    .dispatch () 0 0, .dispatch () 0 0, .take false false, .take true true, .done true (.ok ()),
    .ask true, .dispatch () 0 0, .take true true, .done true (.ok ()), .ask true,
    .dispatch () 0 0, .dispatch () 0 0, .take true true, .done true (.error .disconnect)]

theorem requests_conserved_threeRequests : ∃ s,
    Exec.run (kvStep threeRequests) (.init threeRequests) (readAllRun ++ handedBackRun) = some s ∧
      s.marked = [1, 0, 2] ∧ s.isFinished = true ∧ ∀ k < s.sent, s.marked.count k = 1 := by
  have hrun : (Exec.run (kvStep threeRequests) (.init threeRequests)
      (readAllRun ++ handedBackRun)).map (fun s => (s.marked, s.isFinished)) =
        some ([1, 0, 2], true) := by
    decide +kernel
  obtain ⟨s, hs, hends⟩ := Option.map_eq_some_iff.1 hrun
  obtain ⟨hmarked, hfin⟩ := Prod.mk.inj hends
  have hconserved := (requests_conserved threeRequests _ s hs).2.2.2.2
  exact ⟨s, hs, hmarked, hfin, (hconserved hfin).2⟩

end KvReplay
