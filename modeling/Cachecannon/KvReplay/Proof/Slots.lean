import Cachecannon.KvReplay.Model
import Cachecannon.Lib.Ledger

/-!
# What the steps of a KV replay move

* `Dispatches`: an iteration of a dispatcher moves requests from the channel and its own queues
  to the slot it completes or to the finished ones (`runDispatcher_dispatches`).
* `total`: how often a request occurs in all places, by the parts a step sets.
* `SlotsOk`: the slots a dispatcher has in `waiting` are of connections of its worker, each
  waiting on an empty slot, so completing one overwrites no request.
-/

namespace KvReplay

open Ledger

variable {W C : Type}

/-! ## Counting -/

theorem countBy_new (k : Nat) (req : Request) (scheduled : Option Nat) :
    countBy KvJob.index k [.new req scheduled] = countBy Request.index k [req] := rfl

def KvDispatcher.occurs (k : Nat) (d : KvDispatcher C) : Nat :=
  countBy KvJob.index k d.pending.toList + countBy KvJob.index k (d.returned.map (·.1))

def ConnPc.slotJobs : ConnPc → List KvJob
  | .waiting slot => slot.job.toList
  | _ => []

def ConnPc.runningJobs : ConnPc → List KvJob
  | .running job => [job]
  | _ => []

def ConnPc.occurs (k : Nat) (pc : ConnPc) : Nat :=
  countBy KvJob.index k pc.slotJobs + countBy KvJob.index k pc.runningJobs

@[simp] theorem occurs_connecting (k : Nat) : ConnPc.connecting.occurs k = 0 := rfl

@[simp] theorem occurs_top (k : Nat) : ConnPc.top.occurs k = 0 := rfl

@[simp] theorem occurs_waiting (k : Nat) (job : Option KvJob) (done : Bool) :
    (ConnPc.waiting ⟨job, done⟩).occurs k = countBy KvJob.index k job.toList := rfl

@[simp] theorem occurs_running (k : Nat) (job : KvJob) :
    (ConnPc.running job).occurs k = countBy KvJob.index k [job] := by
  simp [ConnPc.occurs, ConnPc.slotJobs, ConnPc.runningJobs]

/-! ## The dispatcher -/

namespace KvDispatcher

theorem pushReturned_occurs (k : Nat) (d : KvDispatcher C) (job : KvJob) :
    (d.pushReturned job).occurs k = d.occurs k + countBy KvJob.index k [job] := by
  simp only [occurs, pushReturned, List.map_append, List.map_cons, List.map_nil, countBy_append]
  omega

theorem parkPending_occurs (k : Nat) (d : KvDispatcher C) (now : Nat) :
    (d.parkPending now).occurs k = d.occurs k := by
  unfold parkPending
  split
  · rename_i job hpending
    split
    · rw [pushReturned_occurs]
      simp only [occurs, hpending, Option.toList_none, Option.toList_some, countBy_nil]
      omega
    · rfl
  · rfl

@[simp] theorem parkPending_waiting (d : KvDispatcher C) (now : Nat) :
    (d.parkPending now).waiting = d.waiting := by
  unfold parkPending
  split
  · split <;> rfl
  · rfl

theorem failReturned_occurs (k : Nat) (d : KvDispatcher C) :
    d.failReturned.occurs k + countBy KvJob.index k d.failed = d.occurs k := by
  unfold failReturned failed
  split
  · have hsplit := countBy_append KvJob.index k ((d.returned.takeWhile d.stale).map (·.1))
      ((d.returned.dropWhile d.stale).map (·.1))
    rw [← List.map_append, List.takeWhile_append_dropWhile] at hsplit
    simp only [occurs]
    omega
  · simp

@[simp] theorem failReturned_waiting (d : KvDispatcher C) :
    d.failReturned.waiting = d.waiting := by
  unfold failReturned
  split <;> rfl

theorem giveBack_some {d d' : KvDispatcher C} {job : KvJob} {why : HandBack}
    (h : d.giveBack job why = some d') :
    d'.waiting = d.waiting ∧ ∀ k, d'.occurs k = d.occurs k + countBy KvJob.index k [job] := by
  cases why with
  | unsent =>
    simp only [giveBack] at h
    split at h <;> cases h
    exact ⟨rfl, fun k => pushReturned_occurs k d _⟩
  | lookupSent =>
    simp only [giveBack] at h
    split at h <;> cases h
    exact ⟨rfl, fun k => pushReturned_occurs k d _⟩

end KvDispatcher

/-- What an iteration does: requests move from the channel and the dispatcher to the slot
completed, the first that waits, or are failed. -/
structure Dispatches (channel : List Request) (d : KvDispatcher C) (failed : List KvJob)
    (out : Dispatched C) : Prop where
  waiting : d.waiting = (out.handed.map (·.1)).toList ++ out.dispatch.waiting
  moved : ∀ k, countBy Request.index k out.channel + out.dispatch.occurs k +
      countBy KvJob.index k (out.handed.map (·.2)).toList + countBy KvJob.index k out.failed =
    countBy Request.index k channel + d.occurs k + countBy KvJob.index k failed

theorem handPending_dispatches (channel : List Request) (d : KvDispatcher C) (now : Nat)
    (failed : List KvJob) :
    Dispatches channel d failed (handPending channel d now failed) := by
  unfold handPending
  split
  · rename_i c waiting job hwaiting hpending
    split
    · refine ⟨by simpa using hwaiting, fun k => ?_⟩
      simp only [KvDispatcher.occurs, hpending, Option.map_some, Option.toList_some,
        Option.toList_none, countBy_nil]
      omega
    · exact ⟨rfl, fun k => by simp⟩
  · exact ⟨rfl, fun k => by simp⟩

theorem claimPending_dispatches (scheduledAt : Request → Option Nat) (disconnected : Bool)
    (channel : List Request) (d : KvDispatcher C) (now : Nat) (failed : List KvJob) :
    Dispatches channel d failed
      (claimPending scheduledAt disconnected channel d now failed) := by
  unfold claimPending
  split
  · rename_i hclaim
    split
    · rename_i req channel
      refine ⟨rfl, fun k => ?_⟩
      rw [countBy_cons Request.index k req]
      simp only [KvDispatcher.occurs, hclaim.2.1, Option.map_none, Option.toList_none,
        Option.toList_some, countBy_nil, countBy_new]
      omega
    · split
      · exact ⟨rfl, fun k => by simp [KvDispatcher.occurs]⟩
      · exact handPending_dispatches [] d now failed
  · exact handPending_dispatches channel d now failed

/-- **An iteration of the dispatcher** only moves requests. -/
theorem runDispatcher_dispatches (scheduledAt : Request → Option Nat) (disconnected : Bool)
    (channel : List Request) (d : KvDispatcher C) (nowHeld now : Nat) :
    Dispatches channel d [] (runDispatcher scheduledAt disconnected channel d nowHeld now) := by
  unfold runDispatcher
  split
  · rename_i c waiting job stamp returned hwaiting hreturned
    refine ⟨by simpa using hwaiting, fun k => ?_⟩
    simp only [KvDispatcher.occurs, hreturned, List.map_cons, Option.map_some, Option.toList_some,
      countBy_nil]
    rw [countBy_cons KvJob.index k job (returned.map (·.1))]
    omega
  · have hclaim := claimPending_dispatches scheduledAt disconnected channel
      (d.parkPending nowHeld).failReturned now (d.parkPending nowHeld).failed
    refine ⟨by simpa using hclaim.waiting, fun k => ?_⟩
    have hmoved := hclaim.moved k
    have hfail := (d.parkPending nowHeld).failReturned_occurs k
    rw [d.parkPending_occurs k nowHeld] at hfail
    simp only [countBy_nil]
    omega

/-! ## The total -/

/-- How many requests the channel has taken: those the reader sent. -/
def KvState.delivered (s : KvState W C) : Nat := s.sent - s.sending.toList.length

def total [Fintype W] [Fintype C] (s : KvState W C) (k : Nat) : Nat :=
  countBy Request.index k s.channel + (∑ w, (s.dispatch w).occurs k) +
    (∑ c, (s.conn c).pc.occurs k) + s.marked.count k

section Total

variable [Fintype W] [Fintype C] (k : Nat) (s : KvState W C)

theorem total_setChannel (channel : List Request) :
    total (s.setChannel channel) k + countBy Request.index k s.channel =
      total s k + countBy Request.index k channel := by
  simp only [total, KvState.setChannel]
  omega

theorem total_markFinished (jobs : List KvJob) :
    total (s.markFinished jobs) k = total s k + countBy KvJob.index k jobs := by
  simp only [total, KvState.markFinished, List.count_append, count_map_eq]
  omega

variable [DecidableEq W] [DecidableEq C]

omit [DecidableEq C] in
theorem total_setDispatch (w : W) (d : KvDispatcher C) :
    total (s.setDispatch w d) k + (s.dispatch w).occurs k = total s k + d.occurs k := by
  have := sum_map_update_add (KvDispatcher.occurs k) s.dispatch w d
  simp only [total, KvState.setDispatch]
  omega

omit [DecidableEq W] in
theorem total_setConn (c : C) (conn : KvConn) :
    total (s.setConn c conn) k + (s.conn c).pc.occurs k = total s k + conn.pc.occurs k := by
  have := sum_map_update_add (fun conn : KvConn => conn.pc.occurs k) s.conn c conn
  simp only [total, KvState.setConn]
  omega

omit [DecidableEq W] in
theorem total_setPc (c : C) (pc : ConnPc) :
    total (s.setPc c pc) k + (s.conn c).pc.occurs k = total s k + pc.occurs k :=
  total_setConn k s c _

/-- What a connection that leaves `drive` has is no longer in a place. -/
theorem total_leave (cfg : KvConfig W C) (c : C) :
    total (leave cfg s c) k + (s.conn c).pc.occurs k = total s k := by
  have hlive := total_setDispatch k s (cfg.worker c) { s.dispatch (cfg.worker c) with
    live := (s.dispatch (cfg.worker c)).live - 1 }
  have hpc := total_setPc k (s.setDispatch (cfg.worker c) { s.dispatch (cfg.worker c) with
    live := (s.dispatch (cfg.worker c)).live - 1 }) c .connecting
  rw [occurs_connecting] at hpc
  exact hpc.trans (Nat.add_right_cancel hlive)

end Total

/-! ## Slots -/

/-- A slot in a dispatcher's `waiting` is there once, of a connection of its worker, and empty. -/
structure SlotsOk (cfg : KvConfig W C) (s : KvState W C) : Prop where
  nodup : ∀ w, (s.dispatch w).waiting.Nodup
  waits : ∀ w, ∀ c ∈ (s.dispatch w).waiting, cfg.worker c = w ∧ (s.conn c).pc = .waiting .new

namespace SlotsOk

variable {cfg : KvConfig W C} {s : KvState W C} [DecidableEq W] [DecidableEq C]

omit [DecidableEq C] in
theorem setDispatch {w : W} {d : KvDispatcher C} (h : SlotsOk cfg s)
    (hw : d.waiting = (s.dispatch w).waiting) : SlotsOk cfg (s.setDispatch w d) := by
  have hsame : ∀ v, ((s.setDispatch w d).dispatch v).waiting = (s.dispatch v).waiting :=
    (Function.forall_update_iff s.dispatch fun v d => d.waiting = (s.dispatch v).waiting).2
      ⟨hw, fun _ _ => rfl⟩
  refine ⟨fun v => ?_, fun v c hc => ?_⟩
  · rw [hsame]
    exact h.nodup v
  · rw [hsame] at hc
    exact h.waits v c hc

omit [DecidableEq W] in
theorem setConn {c : C} {conn : KvConn} (h : SlotsOk cfg s)
    (hc : (s.conn c).pc ≠ .waiting .new) : SlotsOk cfg (s.setConn c conn) := by
  refine ⟨h.nodup, fun v e he => ?_⟩
  have hec : e ≠ c := fun hec => hc (hec ▸ (h.waits v e he).2)
  simpa [KvState.setConn, hec] using h.waits v e he

theorem leave {c : C} (h : SlotsOk cfg s) (hc : (s.conn c).pc ≠ .waiting .new) :
    SlotsOk cfg (leave cfg s c) := by
  have hlive := h.setDispatch (w := cfg.worker c) (d := { s.dispatch (cfg.worker c) with
    live := (s.dispatch (cfg.worker c)).live - 1 }) rfl
  exact hlive.setConn hc

theorem ask {c : C} (h : SlotsOk cfg s) (hc : (s.conn c).pc = .top) :
    SlotsOk cfg ((s.setDispatch (cfg.worker c) { s.dispatch (cfg.worker c) with
      waiting := (s.dispatch (cfg.worker c)).waiting ++ [c] }).setPc c (.waiting .new)) := by
  have hfresh : ∀ w, c ∉ (s.dispatch w).waiting := fun w hw => by
    have := (h.waits w c hw).2
    rw [hc] at this
    cases this
  refine ⟨?_, ?_⟩
  · refine (Function.forall_update_iff s.dispatch fun _ d => d.waiting.Nodup).2
      ⟨?_, fun w _ => h.nodup w⟩
    exact List.nodup_append.2 ⟨h.nodup _, List.nodup_singleton c, fun e he e' he' hee =>
      hfresh _ (List.mem_singleton.1 he' ▸ hee ▸ he)⟩
  · intro w e he
    by_cases hec : e = c
    · subst hec
      by_cases hw : w = cfg.worker e
      · exact ⟨hw.symm, by simp [KvState.setPc]⟩
      · exact absurd (by simpa [KvState.setDispatch, KvState.setPc, hw] using he) (hfresh w)
    · have hold : e ∈ (s.dispatch w).waiting := by
        by_cases hw : w = cfg.worker c
        · subst hw
          simpa [KvState.setDispatch, KvState.setPc, hec] using he
        · simpa [KvState.setDispatch, KvState.setPc, hw] using he
      simpa [KvState.setPc, KvState.setDispatch, hec] using h.waits w e hold

theorem complete {w : W} {c : C} {d : KvDispatcher C} {pc : ConnPc} (h : SlotsOk cfg s)
    (hw : (s.dispatch w).waiting = c :: d.waiting) :
    SlotsOk cfg ((s.setDispatch w d).setPc c pc) := by
  have hnodup := h.nodup w
  rw [hw, List.nodup_cons] at hnodup
  obtain ⟨hworker, -⟩ := h.waits w c (by simp [hw])
  refine ⟨?_, fun v e he => ?_⟩
  · exact (Function.forall_update_iff s.dispatch fun _ d => d.waiting.Nodup).2
      ⟨hnodup.2, fun v _ => h.nodup v⟩
  · have hold : e ∈ (s.dispatch v).waiting ∧ e ≠ c := by
      by_cases hv : v = w
      · subst hv
        have he : e ∈ d.waiting := by simpa [KvState.setDispatch, KvState.setPc] using he
        exact ⟨by simp [hw, he], fun hec => hnodup.1 (hec ▸ he)⟩
      · have he : e ∈ (s.dispatch v).waiting := by
          simpa [KvState.setDispatch, KvState.setPc, hv] using he
        exact ⟨he, fun hec => hv ((h.waits v e he).1.symm.trans (hec ▸ hworker))⟩
    simpa [KvState.setDispatch, KvState.setPc, hold.2] using h.waits v e hold.1

end SlotsOk

end KvReplay
