import Cachecannon.Worker.InFlight

/-!
# The bookkeeping follows the client

`TimesAligned track s`: `fired` has the fire time of every request in flight, in order, and
`queued` its queue wait when it is tracked. What is buffered was counted in this iteration, so a
failed fire or flush takes back no more than `fired_count` holds (`failOne_eq`), and every request
tried is sent, counted or failed.
-/

namespace Worker

open Pipeline

structure TimesAligned (track : Bool) (s : Firing) : Prop where
  fired : s.inflight.fired = s.client.outstanding.map Request.firedAt
  queued : s.inflight.queued = if track then s.client.outstanding.map Request.queuedNs else []
  tracked : s.inflight.trackQueued = track
  counted : s.client.buffered.length ≤ s.firedCount
  tried : s.tried = s.requestsSent + s.firedCount + s.sendFailed

/-- Between iterations, and after a flush. -/
structure Flushed (track : Bool) (s : Firing) : Prop where
  fired : s.inflight.fired = s.client.wire.map Request.firedAt
  queued : s.inflight.queued = if track then s.client.wire.map Request.queuedNs else []
  tracked : s.inflight.trackQueued = track
  buffered : s.client.buffered = []
  tried : s.tried = s.requestsSent + s.sendFailed

variable {track : Bool} {s : Firing}

/-! ## A request -/

theorem aligned_sendOne (h : TimesAligned track s) (r : Request) (flushes : Bool) :
    TimesAligned track (s.sendOne r flushes) where
  fired := by
    simp only [Firing.sendOne, InFlight.pushQueued, Client.outstanding_fire, List.map_append]
    rw [h.fired]
    rfl
  queued := by
    simp only [Firing.sendOne, InFlight.pushQueued, Client.outstanding_fire, List.map_append]
    rw [h.tracked, h.queued]
    cases track <;> rfl
  tracked := h.tracked
  counted := by
    have hcounted := h.counted
    cases flushes with
    | false => simpa [Firing.sendOne, Client.fire] using hcounted
    | true => simp [Firing.sendOne, Client.fire]
  tried := by
    have htried := h.tried
    simp only [Firing.sendOne]
    omega

/-! ## A send that fails -/

/-- The requests forgotten are the ones the client discards. -/
theorem forgetNewest_discard (h : TimesAligned track s) :
    (s.inflight.forgetNewest s.client.buffered.length).fired =
        s.client.wire.map Request.firedAt ∧
      (s.inflight.forgetNewest s.client.buffered.length).queued =
        if track then s.client.wire.map Request.queuedNs else [] := by
  simp only [InFlight.forgetNewest, h.fired, h.queued, List.length_map, Client.outstanding,
    List.length_append, Nat.add_sub_cancel, List.map_append]
  refine ⟨List.take_left' (by simp), ?_⟩
  cases track with
  | false => exact List.take_nil
  | true => exact List.take_left' (by simp)

/-- What a failed call leaves: the buffered requests are forgotten, uncounted and failed, with
`extra` requests that were not buffered. -/
def Firing.drop (s : Firing) (extra : Nat) : Firing :=
  { s with
    client := s.client.discard
    inflight := s.inflight.forgetNewest s.client.buffered.length
    firedCount := s.firedCount - s.client.buffered.length
    sendFailed := s.sendFailed + extra + s.client.buffered.length
    tried := s.tried + extra }

theorem failOne_eq (h : TimesAligned track s) : s.failOne = some (s.drop 1) := by
  simp [Firing.failOne, Firing.noteFailedFire, Firing.noteDiscarded, Firing.uncount,
    Client.pendingCount_sub_discard, h.counted, Firing.drop]

theorem aligned_drop (h : TimesAligned track s) (extra : Nat) :
    TimesAligned track (s.drop extra) := by
  obtain ⟨hfired, hqueued⟩ := forgetNewest_discard h
  have hcounted := h.counted
  have htried := h.tried
  refine ⟨?_, ?_, h.tracked, Nat.zero_le _, ?_⟩
  · simpa [Client.outstanding, Firing.drop] using hfired
  · simpa [Client.outstanding, Firing.drop] using hqueued
  · simp only [Firing.drop]
    omega

/-! ## An iteration -/

/-- **A fire loop** keeps the bookkeeping aligned, whatever its turns meet. -/
theorem aligned_fillLoop (depth firedAt : Nat) (turns : List FireTurn) :
    ∀ s : Firing, TimesAligned track s →
      ∃ s', fillLoop depth firedAt turns s = some s' ∧ TimesAligned track s' := by
  induction turns with
  | nil => exact fun s h => ⟨s, rfl, h⟩
  | cons turn turns ih =>
    intro s h
    simp only [fillLoop]
    by_cases hroom : s.client.pendingCount < depth
    · rw [if_pos hroom]
      match turn with
      | .leave => exact ⟨s, rfl, h⟩
      | .skip => exact ih s h
      | .fire queuedNs (.sent flushes) => exact ih _ (aligned_sendOne h ⟨firedAt, queuedNs⟩ flushes)
      | .fire _ .failed => exact ⟨_, failOne_eq h, aligned_drop h 1⟩
    · rw [if_neg hroom]
      exact ⟨s, rfl, h⟩

theorem flushed_flush (h : TimesAligned track s) (succeeds : Bool) :
    ∃ s', s.flush succeeds = some s' ∧ Flushed track s' := by
  cases succeeds with
  | true =>
    refine ⟨_, rfl, h.fired, h.queued, h.tracked, rfl, ?_⟩
    have htried := h.tried
    simp only
    omega
  | false =>
    have hdrop := aligned_drop h 0
    have hflush : s.flush false = some { s.drop 0 with
        requestsSent := (s.drop 0).requestsSent + (s.drop 0).firedCount } := by
      simp [Firing.flush, Firing.noteDiscarded, Firing.uncount, Client.pendingCount_sub_discard,
        h.counted, Firing.drop]
    have houtstanding : (s.drop 0).client.outstanding = (s.drop 0).client.wire :=
      List.append_nil _
    have htried := hdrop.tried
    refine ⟨_, hflush, ?_, ?_, hdrop.tracked, rfl, htried⟩
    · rw [← houtstanding]
      exact hdrop.fired
    · rw [← houtstanding]
      exact hdrop.queued

/-- **An iteration's fire loop and flush.** -/
theorem flushed_fill (cfg : FillConfig) (it : FillIteration) (h : Flushed track s) :
    ∃ s', fill cfg s it = some s' ∧ Flushed track s' := by
  have houtstanding : s.client.outstanding = s.client.wire := by
    rw [Client.outstanding, h.buffered, List.append_nil]
  have hstart : TimesAligned track { s with firedCount := 0 } := by
    refine ⟨?_, ?_, h.tracked, ?_, h.tried⟩
    · rw [houtstanding]
      exact h.fired
    · rw [houtstanding]
      exact h.queued
    · simp [h.buffered]
  unfold fill
  obtain ⟨s₁, hloop, haligned⟩ := aligned_fillLoop cfg.pipelineDepth it.now _ _ hstart
  obtain ⟨s₂, hflush, hflushed⟩ := flushed_flush haligned it.flush
  refine ⟨s₂, ?_, hflushed⟩
  simp only
  rw [hloop]
  exact hflush

theorem flushed_receive (h : Flushed track s) (received : Received) :
    Flushed track (receive s received).toFiring := by
  unfold receive
  split
  · exact h
  · cases received with
    | sendMore => exact h
    | disconnect => exact h
    | reply =>
      refine ⟨?_, ?_, h.tracked, h.buffered, h.tried⟩
      · simp only [InFlight.pop, Client.reply, h.fired, List.map_tail]
      · simp only [InFlight.pop, Client.reply, h.queued]
        cases track with
        | false => rfl
        | true => exact (List.map_tail).symm

/-- **The step lemma.** -/
theorem flushed_iterate (cfg : FillConfig) (it : FillIteration) {s : FiringConn}
    (h : Flushed track s.toFiring) :
    ∃ s', iterate cfg s it = some s' ∧ Flushed track s'.toFiring := by
  unfold iterate
  by_cases hret : s.returned = true
  · rw [if_pos hret]
    exact ⟨s, rfl, h⟩
  · rw [if_neg hret]
    split
    · exact ⟨_, rfl, h⟩
    · obtain ⟨t, hfill, hflushed⟩ := flushed_fill cfg it h
      rw [hfill]
      exact ⟨_, rfl, flushed_receive hflushed it.received⟩

/-- **The run lemma.** -/
theorem flushed_run (cfg : FillConfig) (its : List FillIteration) :
    ∀ s : FiringConn, Flushed track s.toFiring →
      ∃ s', Exec.run (iterate cfg) s its = some s' ∧ Flushed track s'.toFiring := by
  induction its with
  | nil => exact fun s h => ⟨s, rfl, h⟩
  | cons it its ih =>
    intro s h
    obtain ⟨t, hstep, ht⟩ := flushed_iterate cfg it h
    obtain ⟨u, hrun, hu⟩ := ih t ht
    refine ⟨u, ?_, hu⟩
    rw [Exec.run_cons, hstep]
    exact hrun

theorem flushed_init (routed : Bool) : Flushed routed (FiringConn.init routed).toFiring := by
  cases routed <;> exact ⟨rfl, rfl, rfl, rfl, rfl⟩

/-- **The bookkeeping is aligned after every flush**, in every sequence of iterations, and
`fired_count` never underflows. `fired` has an entry for each request in flight, and on a routed
connection `queued` too, each for its own request, so `pop` returns the queue wait of the request
that the next reply answers. The requests tried are those sent and those failed. -/
theorem inflight_aligned (cfg : FillConfig) (its : List FillIteration) :
    ∃ s, Exec.run (iterate cfg) (.init cfg.routed) its = some s ∧
      ∀ it, ∃ t, fill cfg s.toFiring it = some t ∧
        t.client.buffered = [] ∧
        t.inflight.fired.length = t.client.pendingCount ∧
        t.inflight.fired = t.client.wire.map Request.firedAt ∧
        (cfg.routed = true → t.inflight.queued = t.client.wire.map Request.queuedNs) ∧
        (∀ r rest, t.client.wire = r :: rest →
          t.inflight.pop.1 = if cfg.routed then r.queuedNs else 0) ∧
        t.tried = t.requestsSent + t.sendFailed := by
  obtain ⟨s, hrun, hs⟩ := flushed_run cfg its (.init cfg.routed) (flushed_init cfg.routed)
  refine ⟨s, hrun, fun it => ?_⟩
  obtain ⟨t, hfill, ht⟩ := flushed_fill cfg it hs
  refine ⟨t, hfill, ht.buffered, ?_, ht.fired, fun hrouted => ?_, fun r rest hwire => ?_, ht.tried⟩
  · rw [ht.fired, Client.pendingCount, ht.buffered]
    simp
  · rw [ht.queued, if_pos hrouted]
  · rw [InFlight.pop, ht.queued, hwire]
    cases cfg.routed <;> rfl

end Worker
