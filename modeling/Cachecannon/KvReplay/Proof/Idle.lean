import Cachecannon.KvReplay.Proof.Send
import Cachecannon.KvReplay.Replay

/-!
# A request of the replay starts on an idle connection

`connect` gives a connection a new client, and a request that leaves its connection up leaves it
idle (`runRequest_idle`). So a connection that is up has nothing in flight between its requests,
which is what the accounting of one request asks of it, and no request of a run gets stuck
(`replay_runs`). `runRequest_settles_iff`: exactly when the GETs and SETs a request tried are each
counted once.
-/

namespace KvReplay

variable {W C : Type}

/-- The connection is in `drive`. -/
def Up (s : KvState W C) (c : C) : Prop := (s.conn c).pc ≠ .connecting

/-- **The invariant**: what is up is idle, requests apart. -/
def IdleInv (s : Replay W C) : Prop := ∀ c, Up s.kv c → Idle (s.sends c)

/-! ## Which connections are up -/

section Up

variable [DecidableEq W] [DecidableEq C] {cfg : KvConfig W C} {s t : KvState W C} {c d : C}

omit [DecidableEq W] in
theorem up_setConn {conn : KvConn} (hc : Up s c) (h : Up (s.setConn c conn) d) : Up s d := by
  by_cases hd : d = c
  · rw [hd]
    exact hc
  · simpa [Up, KvState.setConn, hd] using h

theorem up_leave (h : Up (leave cfg s c) d) : d ≠ c ∧ Up s d := by
  have hd : d ≠ c := by
    rintro rfl
    simp [Up, leave, KvState.setPc] at h
  exact ⟨hd, by simpa [Up, leave, KvState.setPc, KvState.setDispatch, hd] using h⟩

theorem up_handBack {job : KvJob} {why : HandBack} (h : Up (handBack cfg s c job why) d) :
    d ≠ c ∧ Up s d := by
  unfold handBack at h
  split at h
  · have hleft := up_leave h
    exact hleft
  · have hleft := up_leave h
    exact hleft

omit [DecidableEq W] in
theorem up_completeSlot {handed : C × KvJob} (h : Up (completeSlot s handed) d) : Up s d := by
  unfold completeSlot at h
  split at h
  · rename_i slot hslot
    exact up_setConn (by simp [Up, hslot]) h
  · exact h

theorem up_dispatched {v : W} {out : Dispatched C} (h : Up (s.dispatched v out) d) : Up s d := by
  unfold KvState.dispatched at h
  dsimp only at h
  split at h
  · have hup := up_completeSlot h
    exact hup
  · exact h

/-- A connection comes up by `connect` only. -/
theorem kvStep_up {e : KvStep W C} (hstep : kvStep cfg s e = some t) (h : Up t d) :
    Up s d ∨ e = .connect d := by
  cases e with
  | read | send =>
    simp only [kvStep] at hstep
    split at hstep
    · split at hstep <;> cases hstep
      exact .inl h
    · cases hstep
  | stopReader | dropSender =>
    simp only [kvStep] at hstep
    split at hstep <;> cases hstep
    exact .inl h
  | startAt instant =>
    cases hstep
    exact .inl h
  | dispatch v nowHeld now =>
    simp only [kvStep] at hstep
    split at hstep <;> cases hstep
    · exact .inl (up_dispatched h)
    · exact .inl h
  | connectFailed c =>
    simp only [kvStep] at hstep
    split at hstep <;> cases hstep
    exact .inl h
  | connect c =>
    simp only [kvStep] at hstep
    split at hstep <;> cases hstep
    by_cases hd : d = c
    · exact .inr (by rw [hd])
    · exact .inl (by simpa [Up, KvState.setConn, KvState.setDispatch, hd] using h)
  | eof c =>
    simp only [kvStep] at hstep
    split at hstep <;> cases hstep
    exact .inl (up_leave h).2
  | ask c =>
    simp only [kvStep] at hstep
    split at hstep
    · rename_i hpc
      split at hstep <;> cases hstep
      · exact .inl h
      · exact .inl (up_setConn (by simp [Up, hpc]) h)
    · cases hstep
  | take c alive =>
    simp only [kvStep] at hstep
    split at hstep
    · rename_i job hpc
      have hc : Up s c := by simp [Up, hpc]
      split at hstep
      · cases hstep
        exact .inl (up_setConn hc h)
      · split at hstep <;> cases hstep
        · exact .inl (up_setConn hc h)
        · exact .inl (up_handBack h).2
    · cases hstep
  | done c result =>
    simp only [kvStep] at hstep
    split at hstep
    · rename_i job hpc
      have hc : Up s c := by simp [Up, hpc]
      split at hstep <;> cases hstep
      · exact .inl (up_handBack h).2
      · exact .inl (up_leave h).2
      · exact .inl (up_setConn hc h)
      · exact .inl (up_setConn hc h)
    · cases hstep

/-- A request that leaves its connection up did not end with it. -/
theorem done_up {result : Except Failure Unit} (hstep : kvStep cfg s (.done c result) = some t)
    (h : Up t c) : result ≠ .error .disconnect ∧ result ≠ .error .closed := by
  simp only [kvStep] at hstep
  split at hstep
  · split at hstep <;> cases hstep
    · exact absurd rfl (up_handBack h).1
    · exact absurd rfl (up_leave h).1
    · simp
    · simp
  · cases hstep

theorem done_isSome (cfg : KvConfig W C) {job : KvJob} (hpc : (s.conn c).pc = .running job)
    (result : Except Failure Unit) : ∃ t, kvStep cfg s (.done c result) = some t := by
  simp only [kvStep, hpc]
  split <;> exact ⟨_, rfl⟩

theorem up_close {w : W} (h : Up (s.close w) d) : Up s d := by
  intro hpc
  apply h
  simp only [KvState.close]
  split
  · simp [hpc, ConnPc.complete]
  · exact hpc

end Up

/-! ## The run -/

section Run

variable [DecidableEq W] [DecidableEq C]

omit [DecidableEq W] in
theorem opens_idle {sends : C → Sending} {e : KvStep W C} {c : C}
    (h : Idle (sends c) ∨ e = .connect c) : Idle (e.opens sends c) := by
  cases e with
  | connect d =>
    by_cases hc : c = d
    · rw [hc]
      simpa [KvStep.opens] using idle_new
    · rw [KvStep.opens, Function.update_of_ne hc]
      exact h.resolve_right fun heq => hc (KvStep.connect.inj heq).symm
  | _ => exact h.resolve_right (by simp)

/-- On an idle connection a request comes to an end. -/
theorem runRequest_isSome {cfg : RunConfig} (hdepth : 1 ≤ cfg.pipelineDepth) (req : Prompt)
    (ex : Exchange) {s : Sending} (h : Idle s) :
    ∃ result s', runRequest cfg req ex s = some (result, s') := by
  have hends := runRequest_ends hdepth req ex h
  generalize runRequest cfg req ex s = ran at hends ⊢
  cases hends with
  | empty | lookupFails | done | sendFails => exact ⟨_, _, rfl⟩

omit [DecidableEq W] [DecidableEq C] in
theorem idleInv_init (cfg : ReplayConfig W C) : IdleInv (.init cfg) := fun _ _ => idle_new

/-- **The step lemma.** -/
theorem idleInv_step {cfg : ReplayConfig W C} (hdepth : 1 ≤ cfg.run.pipelineDepth)
    {s t : Replay W C} {e : ReplayStep W C} (h : IdleInv s) (hstep : replayStep cfg s e = some t) :
    IdleInv t := by
  cases e with
  | work e =>
    simp only [replayStep] at hstep
    split at hstep
    · obtain ⟨kv, hkv, rfl⟩ := Option.map_eq_some_iff.mp hstep
      exact fun c hc => opens_idle ((kvStep_up hkv hc).imp_left (h c))
    · cases hstep
  | run c ex =>
    simp only [replayStep] at hstep
    split at hstep
    · rename_i job hpc
      have hidle : Idle (s.sends c) := h c (by simp [Up, hpc])
      split at hstep
      · rename_i result after hrun
        obtain ⟨kv, hkv, rfl⟩ := Option.map_eq_some_iff.mp hstep
        intro d hd
        by_cases hdc : d = c
        · subst hdc
          obtain ⟨hdisconnect, hclosed⟩ := done_up hkv hd
          have hafter : Idle after :=
            runRequest_idle hdepth hidle hrun
              ⟨fun heq => hdisconnect (by rw [heq]; rfl), fun heq => hclosed (by rw [heq]; rfl)⟩
          simpa using hafter
        · rcases kvStep_up hkv hd with hup | heq
          · simpa [hdc] using h d hup
          · cases heq
      · cases hstep
    · cases hstep
  | stop =>
    cases hstep
    exact h
  | close w =>
    simp only [replayStep] at hstep
    split at hstep <;> cases hstep
    exact fun c hc => h c (up_close hc)
  | quit c =>
    simp only [replayStep] at hstep
    split at hstep
    · split at hstep <;> cases hstep
      exact fun d hd => h d (up_leave hd).2
    · cases hstep

/-- **No request gets stuck.** In every run a request that a connection runs has the connection to
itself, whatever became of the requests before it, and comes to an end: nothing underflows. -/
theorem replay_runs (cfg : ReplayConfig W C) (hdepth : 1 ≤ cfg.run.pipelineDepth)
    (es : List (ReplayStep W C)) (s : Replay W C)
    (hrun : Exec.run (replayStep cfg) (.init cfg) es = some s) {c : C} {job : KvJob}
    (hpc : (s.kv.conn c).pc = .running job) :
    Idle (s.sends c) ∧ ∀ ex, (replayStep cfg s (.run c ex)).isSome := by
  have h : IdleInv s := Exec.run_inv (idleInv_step hdepth) (idleInv_init cfg) hrun
  have hidle : Idle (s.sends c) := h c (by simp [Up, hpc])
  refine ⟨hidle, fun ex => ?_⟩
  obtain ⟨result, after, hresult⟩ :=
    runRequest_isSome hdepth (cfg.prompt job.index) ex hidle
  obtain ⟨kv, hkv⟩ := done_isSome cfg.toKvConfig hpc (result.map fun _ => ())
  simp only [replayStep, hpc, hresult, hkv]
  rfl

end Run

/-! ## The accounting -/

open Pipeline

/-- **Send accounting.** On an idle connection a request of any kind, whatever fails of it, never
underflows; what its GET and SET loops tried is what they added to `REQUESTS_SENT` and to
`REQUESTS_SEND_FAILED`, with `InFlight` as long as the client has requests pending, if and only if
the deadline does not cut its EXISTS off and no fire of the loops fails with requests buffered.
Every request of a run of the replay starts on an idle connection. -/
theorem runRequest_settles_iff (cfg : RunConfig) (hdepth : 1 ≤ cfg.pipelineDepth) (req : Prompt)
    (ex : Exchange) (s : Sending) (h : Idle s) :
    (∃ result s', runRequest cfg req ex s = some (result, s') ∧
      ((Settles (afterLookup cfg req ex s) s' ∧
          s'.inflight.fired.length = s'.client.pendingCount) ↔
        req.chunks = [] ∨
          (ex.lookup = .cutOff → cfg.mapper.objects req.chunks = []) ∧
            ∀ exist, ex.lookup.exist (cfg.mapper.objects req.chunks).length = some exist →
              FiresFlushed cfg (cfg.mapper.objects req.chunks).length exist ex)) ∧
    ∀ (W C : Type) [DecidableEq W] [DecidableEq C] (replay : ReplayConfig W C)
      (es : List (ReplayStep W C)) (t : Replay W C) (c : C) (job : KvJob), replay.run = cfg →
      Exec.run (replayStep replay) (.init replay) es = some t →
      (t.kv.conn c).pc = .running job →
        Idle (t.sends c) ∧ ∀ ex, (replayStep replay t (.run c ex)).isSome := by
  constructor
  · have hends := runRequest_ends hdepth req ex h
    generalize runRequest cfg req ex s = ran at hends
    cases hends with
    | empty hchunks =>
      refine ⟨_, s, rfl, ?_⟩
      rw [afterLookup, if_pos hchunks]
      exact ⟨fun _ => .inl hchunks, fun _ => ⟨rfl, (idle_steady h).inflight⟩⟩
    | lookupFails e hchunks hexist herror =>
      refine ⟨_, _, rfl, ?_⟩
      have hidle := lookup_idle h (cfg.mapper.objects req.chunks).length ex.firedAt ex.lookup
      simp only [hchunks, hexist, false_or, reduceCtorEq, false_implies, implies_true, and_true,
        Settles, afterLookup, if_false, true_and]
      cases hlookup : ex.lookup with
      | cutOff =>
        simp only [hlookup] at hidle
        simp [hidle.1, hidle.2, Client.pendingCount, h.wire, h.buffered]
      | _ =>
        simp only [hlookup] at hidle
        simpa [InFlightAligned] using (idle_steady hidle).inflight
    | done exist s' hchunks hlooked _ _ hidle hsettles hflushed =>
      refine ⟨_, s', rfl, ?_⟩
      rw [flushed_of_looked hlooked]
      exact ⟨fun _ => .inr hflushed, fun _ => ⟨hsettles, (idle_steady hidle).inflight⟩⟩
    | sendFails exist s' hchunks hlooked _ hinflight hsettles =>
      refine ⟨_, s', rfl, ?_⟩
      rw [flushed_of_looked hlooked, hsettles]
      exact ⟨fun hall => .inr hall.1, fun h => ⟨h.resolve_left hchunks, hinflight⟩⟩
  · rintro W C _ _ replay es t c job rfl hrun hpc
    exact replay_runs replay hdepth es t hrun hpc

theorem runRequest_settles_iff_answered :
    ∃ result s', runRequest threeObjects ⟨48, [7, 8, 9]⟩
        ⟨0, allExist, fun _ => answering, fun _ => answering⟩ .new = some (result, s') ∧
      ((Settles (afterLookup threeObjects ⟨48, [7, 8, 9]⟩
            ⟨0, allExist, fun _ => answering, fun _ => answering⟩ .new) s' ∧
          s'.inflight.fired.length = s'.client.pendingCount) ↔
        ([7, 8, 9] : List Nat) = [] ∨
          (allExist = .cutOff → threeObjects.mapper.objects [7, 8, 9] = []) ∧
            ∀ exist, allExist.exist 3 = some exist →
              FiresFlushed threeObjects 3 exist
                ⟨0, allExist, fun _ => answering, fun _ => answering⟩) :=
  (runRequest_settles_iff threeObjects (by decide) ⟨48, [7, 8, 9]⟩
    ⟨0, allExist, fun _ => answering, fun _ => answering⟩ .new idle_new).1

def thirdFails : Iteration :=
  ⟨0, fun k => if k = 2 then .failed else .sent false, true, some ⟨true, some true⟩⟩

/-- The third GET cannot be fired, with two buffered: three operations were tried, none is sent,
and five are counted. -/
theorem runRequest_counts_twice :
    ∃ s', runRequest threeObjects ⟨48, [7, 8, 9]⟩
        ⟨0, allExist, fun _ => thirdFails, fun _ => answering⟩ .new =
          some (.error .disconnect, s') ∧
      s'.tried = [.get 0, .get 1, .get 2] ∧ s'.client.wire = [] ∧
      s'.requestsSent = 3 + 2 ∧ s'.sendFailed = 3 ∧
      ¬ Settles (afterLookup threeObjects ⟨48, [7, 8, 9]⟩
        ⟨0, allExist, fun _ => thirdFails, fun _ => answering⟩ .new) s' :=
  ⟨_, rfl, rfl, rfl, rfl, rfl, by unfold Settles; decide⟩

end KvReplay
