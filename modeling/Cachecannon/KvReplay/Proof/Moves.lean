import Cachecannon.KvReplay.Proof.Conserve
import Cachecannon.KvReplay.Replay

/-!
# What the steps of a KV replay note

* `HandsOn`: what an iteration of a dispatcher does with the requests it has.
* `place_unique`: a request is in one place, read off request conservation.
* `Moves`: what a step does with the requests that dispatchers and connections have, by what it
  notes.
* `Advances`: what every step keeps, the order of the stamps in `returned` among it.
* `kvStep_spec`: every step is a `Moves` and an `Advances`.
-/

namespace KvReplay

open Ledger

variable {W C : Type}

/-! ## The dispatcher -/

/-- The requests a dispatcher has. -/
def KvDispatcher.held (d : KvDispatcher C) : List KvJob :=
  d.pending.toList ++ d.returned.map (·.1)

/-- The requests a connection has. -/
def ConnPc.jobs (pc : ConnPc) : List KvJob := pc.slotJobs ++ pc.runningJobs

/-- What a hand-back changes of a request: one of its two counters. -/
def Marks (bound : Nat) (job job' : KvJob) : HandBack → Prop
  | .unsent => job.deadHandovers < bound ∧ job'.deadHandovers = job.deadHandovers + 1 ∧
      job'.retried = job.retried
  | .lookupSent => job.retried = false ∧ job'.retried = true ∧
      job'.deadHandovers = job.deadHandovers

/-- The stamps of the requests handed back are ordered, and not of the future. -/
structure Stamps (d : KvDispatcher C) : Prop where
  ordered : (d.returned.map (·.2)).Pairwise (· ≤ ·)
  past : ∀ r ∈ d.returned, r.2 ≤ d.connectFailures

namespace KvDispatcher

variable {d : KvDispatcher C}

theorem pushReturned_stamps (h : Stamps d) (job : KvJob) : Stamps (d.pushReturned job) := by
  constructor
  · simp only [pushReturned, List.map_append, List.map_cons, List.map_nil, List.pairwise_append,
      List.mem_map, List.mem_singleton, List.pairwise_singleton, true_and]
    refine ⟨h.ordered, ?_⟩
    rintro _ ⟨r, hr, rfl⟩ _ rfl
    exact h.past r hr
  · intro r hr
    rcases List.mem_append.mp hr with hr | hr
    · exact h.past r hr
    · rw [List.mem_singleton.mp hr]
      exact Nat.le_refl _

theorem parkPending_stamps (h : Stamps d) (now : Nat) : Stamps (d.parkPending now) := by
  unfold parkPending
  split
  · split
    · exact pushReturned_stamps (d := { d with pending := none }) ⟨h.ordered, h.past⟩ _
    · exact h
  · exact h

theorem sublist_stamps {d' : KvDispatcher C} (h : Stamps d)
    (hsub : d'.returned.Sublist d.returned) (hfailures : d.connectFailures ≤ d'.connectFailures) :
    Stamps d' :=
  ⟨h.ordered.sublist (hsub.map _), fun r hr => (h.past r (hsub.subset hr)).trans hfailures⟩

theorem failReturned_sublist (d : KvDispatcher C) :
    d.failReturned.returned.Sublist d.returned := by
  unfold failReturned
  split
  · exact List.dropWhile_sublist _
  · exact List.Sublist.refl _

theorem giveBack_spec {d' : KvDispatcher C} {job : KvJob} {why : HandBack}
    (h : d.giveBack job why = some d') :
    ∃ job' : KvJob, job'.req = job.req ∧ d' = d.pushReturned job' ∧
      Marks (max d.connections 1) job job' why := by
  cases why with
  | unsent =>
    simp only [giveBack] at h
    split at h <;> cases h
    rename_i hbound
    exact ⟨{ job with deadHandovers := job.deadHandovers + 1 }, rfl, rfl,
      Nat.lt_of_not_le hbound, rfl, rfl⟩
  | lookupSent =>
    simp only [giveBack] at h
    split at h <;> cases h
    rename_i hretried
    exact ⟨{ job with retried := true }, rfl, rfl, by simpa using hretried, rfl, rfl⟩

theorem mem_held {job : KvJob} :
    job ∈ d.held ↔ d.pending = some job ∨ ∃ stamp, (job, stamp) ∈ d.returned := by
  simp [held]

theorem parkPending_held {job : KvJob} {now : Nat} (h : job ∈ (d.parkPending now).held) :
    job ∈ d.held := by
  unfold parkPending at h
  split at h
  · rename_i parked hpending
    split at h
    · rw [mem_held] at h ⊢
      rcases h with h | ⟨stamp, h⟩
      · cases h
      · rcases List.mem_append.mp h with h | h
        · exact .inr ⟨stamp, h⟩
        · left
          rw [hpending, (Prod.mk.inj (List.mem_singleton.mp h)).1]
    · exact h
  · exact h

theorem failReturned_held {job : KvJob} (h : job ∈ d.failReturned.held) : job ∈ d.held := by
  have hpending : d.failReturned.pending = d.pending := by
    unfold failReturned
    split <;> rfl
  rw [mem_held, hpending] at h
  rw [mem_held]
  rcases h with h | ⟨stamp, h⟩
  · exact .inl h
  · exact .inr ⟨stamp, d.failReturned_sublist.subset h⟩

end KvDispatcher

/-- A request of the channel just claimed. -/
def Fresh (channel : List Request) (job : KvJob) : Prop :=
  ∃ req ∈ channel, ∃ scheduled, job = .new req scheduled

/-- What an iteration does with the requests the dispatcher has. -/
structure HandsOn (channel : List Request) (d : KvDispatcher C) (out : Dispatched C) : Prop where
  held : ∀ job ∈ out.dispatch.held, job ∈ d.held ∨ Fresh channel job
  handed : ∀ handed, out.handed = some handed → handed.2 ∈ d.held
  connections : out.dispatch.connections = d.connections
  stamps : Stamps d → Stamps out.dispatch
  channel : out.channel.Sublist channel

/-- Nothing is handed, and `d'` has the requests of `d`. -/
theorem handsOn_none {channel : List Request} {d d' : KvDispatcher C} {failed : List KvJob}
    (hpending : d'.pending = d.pending) (hreturned : d'.returned = d.returned)
    (hconnections : d'.connections = d.connections)
    (hfailures : d'.connectFailures = d.connectFailures) :
    HandsOn channel d ⟨channel, d', none, failed⟩ where
  held job hjob := by
    rw [KvDispatcher.held, hpending, hreturned] at hjob
    exact .inl hjob
  handed _ h := nomatch h
  connections := hconnections
  stamps h := KvDispatcher.sublist_stamps h (by rw [hreturned]) hfailures.ge
  channel := List.Sublist.refl _

theorem handPending_handsOn (channel : List Request) (d : KvDispatcher C) (now : Nat)
    (failed : List KvJob) : HandsOn channel d (handPending channel d now failed) := by
  unfold handPending
  split
  · rename_i c waiting job hwaiting hpending
    split
    · refine ⟨fun job' hjob' => .inl ?_, fun handed hhanded => ?_, rfl,
        fun h => ⟨h.ordered, h.past⟩, List.Sublist.refl _⟩
      · rw [KvDispatcher.mem_held] at hjob' ⊢
        exact .inr (hjob'.resolve_left (by simp))
      · cases hhanded
        exact KvDispatcher.mem_held.mpr (.inl hpending)
    · exact handsOn_none rfl rfl rfl rfl
  · exact handsOn_none rfl rfl rfl rfl

theorem claimPending_handsOn (scheduledAt : Request → Option Nat) (disconnected : Bool)
    (channel : List Request) (d : KvDispatcher C) (now : Nat) (failed : List KvJob) :
    HandsOn channel d (claimPending scheduledAt disconnected channel d now failed) := by
  unfold claimPending
  split
  · split
    · rename_i req channel
      refine ⟨fun job hjob => ?_, fun handed h => ?_, rfl, fun h => ⟨h.ordered, h.past⟩,
        List.sublist_cons_self _ _⟩
      · rw [KvDispatcher.mem_held] at hjob
        rcases hjob with hnew | hreturned
        · cases hnew
          exact .inr ⟨req, List.mem_cons_self, _, rfl⟩
        · exact .inl (KvDispatcher.mem_held.mpr (.inr hreturned))
      · cases h
    · split
      · exact handsOn_none rfl rfl rfl rfl
      · exact handPending_handsOn [] d now failed
  · exact handPending_handsOn channel d now failed

theorem runDispatcher_handsOn (scheduledAt : Request → Option Nat) (disconnected : Bool)
    (channel : List Request) (d : KvDispatcher C) (nowHeld now : Nat) :
    HandsOn channel d (runDispatcher scheduledAt disconnected channel d nowHeld now) := by
  unfold runDispatcher
  split
  · rename_i c waiting job stamp returned hwaiting hreturned
    refine ⟨fun job' hjob' => .inl ?_, fun handed hhanded => ?_, rfl, fun h => ?_,
      List.Sublist.refl _⟩
    · rw [KvDispatcher.mem_held] at hjob' ⊢
      rcases hjob' with hpending | ⟨stamp', h⟩
      · exact .inl hpending
      · exact .inr ⟨stamp', by rw [hreturned]; exact List.mem_cons_of_mem _ h⟩
    · cases hhanded
      exact KvDispatcher.mem_held.mpr (.inr ⟨stamp, by simp [hreturned]⟩)
    · exact KvDispatcher.sublist_stamps h (by rw [hreturned]; exact List.sublist_cons_self _ _)
        (Nat.le_refl _)
  · have hclaim := claimPending_handsOn scheduledAt disconnected channel
      (d.parkPending nowHeld).failReturned now (d.parkPending nowHeld).failed
    have hconnections : (d.parkPending nowHeld).failReturned.connections = d.connections := by
      unfold KvDispatcher.failReturned KvDispatcher.parkPending
      split <;> split <;> (try split) <;> rfl
    have hfailures : (d.parkPending nowHeld).failReturned.connectFailures =
        (d.parkPending nowHeld).connectFailures := by
      unfold KvDispatcher.failReturned
      split <;> rfl
    have hheld : ∀ job, job ∈ (d.parkPending nowHeld).failReturned.held → job ∈ d.held :=
      fun _ h => KvDispatcher.parkPending_held (KvDispatcher.failReturned_held h)
    refine ⟨fun job hjob => (hclaim.held job hjob).imp_left (hheld job),
      fun handed h => hheld _ (hclaim.handed handed h), hclaim.connections.trans hconnections,
      fun h => hclaim.stamps ?_, hclaim.channel⟩
    exact KvDispatcher.sublist_stamps (KvDispatcher.parkPending_stamps h nowHeld)
      (KvDispatcher.failReturned_sublist _) hfailures.ge

/-! ## A request is in one place -/

variable {cfg : KvConfig W C}

section Places

variable {s : KvState W C}

theorem countBy_pos {α : Type} {f : α → Nat} {l : List α} {a : α} (h : a ∈ l) :
    1 ≤ countBy f (f a) l :=
  List.count_pos_iff.mpr (List.mem_map_of_mem h)

theorem held_place {v : W} {held : KvJob} (h : held ∈ (s.dispatch v).held) :
    1 ≤ occurrences s held.index (.pending v) ∨ 1 ≤ occurrences s held.index (.returned v) := by
  rcases List.mem_append.mp h with h | h
  · exact .inl (countBy_pos h)
  · exact .inr (countBy_pos h)

theorem jobs_place {c : C} {held : KvJob} (h : held ∈ (s.conn c).pc.jobs) :
    1 ≤ occurrences s held.index (.slot c) ∨ 1 ≤ occurrences s held.index (.running c) := by
  rcases List.mem_append.mp h with h | h
  · exact .inl (countBy_pos h)
  · exact .inr (countBy_pos h)

theorem marked_place {k : Nat} (h : k ∈ s.marked) :
    1 ≤ occurrences s k (.finished : Place W C) := List.count_pos_iff.mpr h

variable [Fintype W] [Fintype C]

theorem total_le_one (h : KvInv cfg s) (k : Nat) : total s k ≤ 1 := by
  rw [h.total_eq]
  exact List.nodup_iff_count_le_one.mp List.nodup_range k

theorem occurrences_le_total (s : KvState W C) (k : Nat) (p : Place W C) :
    occurrences s k p ≤ total s k := by
  rw [← sum_occurrences]
  exact Finset.single_le_sum (fun _ _ => Nat.zero_le _) (Finset.mem_univ p)

theorem place_unique (h : KvInv cfg s) {k : Nat} {p q : Place W C}
    (hp : 1 ≤ occurrences s k p) (hq : 1 ≤ occurrences s k q) : q = p := by
  have htotal := total_le_one h k
  rw [← sum_occurrences] at htotal
  exact eq_of_sum_le_one htotal hp hq

/-- The reader sent the request, and it has left the channel. -/
structure Taken (s : KvState W C) (k : Nat) : Prop where
  delivered : k < s.delivered
  channel : countBy Request.index k s.channel = 0

/-- A request of a dispatcher is not one that is in another place. -/
theorem held_ne (h : KvInv cfg s) {k : Nat} {p : Place W C} (hp : 1 ≤ occurrences s k p) {v : W}
    {held : KvJob} (hheld : held ∈ (s.dispatch v).held) (hpending : p ≠ .pending v)
    (hreturned : p ≠ .returned v) : held.index ≠ k := by
  rintro rfl
  rcases held_place hheld with hplace | hplace
  · exact hpending (place_unique h hplace hp)
  · exact hreturned (place_unique h hplace hp)

/-- A request of a connection is not one that is in another place. -/
theorem jobs_ne (h : KvInv cfg s) {k : Nat} {p : Place W C} (hp : 1 ≤ occurrences s k p) {c : C}
    {held : KvJob} (hheld : held ∈ (s.conn c).pc.jobs) (hslot : p ≠ .slot c)
    (hrunning : p ≠ .running c) : held.index ≠ k := by
  rintro rfl
  rcases jobs_place hheld with hplace | hplace
  · exact hslot (place_unique h hplace hp)
  · exact hrunning (place_unique h hplace hp)

theorem taken_of_place (h : KvInv cfg s) {k : Nat} {p : Place W C} (hp : 1 ≤ occurrences s k p)
    (hchannel : p ≠ .channel) : Taken s k := by
  constructor
  · have hle := occurrences_le_total s k p
    rw [h.total_eq] at hle
    exact List.mem_range.mp (List.count_pos_iff.mp (hp.trans hle))
  · by_contra hne
    have hpos : 1 ≤ occurrences s k (.channel : Place W C) := Nat.one_le_iff_ne_zero.mpr hne
    exact hchannel (place_unique h hpos hp)

end Places

/-! ## What a step moves -/

/-- Every request a dispatcher or a connection has after the step it had before, or the
dispatcher just claimed it. -/
structure Stays (s t : KvState W C) : Prop where
  held : ∀ v, ∀ job ∈ (t.dispatch v).held, job ∈ (s.dispatch v).held ∨ Fresh s.channel job
  jobs : ∀ c, ∀ job ∈ (t.conn c).pc.jobs, job ∈ (s.conn c).pc.jobs

theorem stays_same {s t : KvState W C} (hdispatch : t.dispatch = s.dispatch)
    (hconn : t.conn = s.conn) : Stays s t := by
  constructor
  · rw [hdispatch]
    exact fun _ _ h => .inl h
  · rw [hconn]
    exact fun _ _ h => h

theorem Stays.trans {s t u : KvState W C} (h : Stays s t) (h' : Stays t u)
    (hchannel : t.channel = s.channel) : Stays s u where
  held v job hjob := by
    rcases h'.held v job hjob with hold | hfresh
    · exact h.held v job hold
    · rw [hchannel] at hfresh
      exact .inr hfresh
  jobs c job hjob := h.jobs c job (h'.jobs c job hjob)

section Moves

variable [DecidableEq W] [DecidableEq C] {s t : KvState W C}

omit [DecidableEq C] in
theorem stays_setDispatch {v : W} {d : KvDispatcher C} (hd : d.held = (s.dispatch v).held) :
    Stays s (s.setDispatch v d) := by
  refine ⟨fun u job hjob => .inl ?_, fun _ _ h => h⟩
  by_cases hu : u = v
  · subst hu
    rw [← hd]
    simpa [KvState.setDispatch] using hjob
  · simpa [KvState.setDispatch, hu] using hjob

omit [DecidableEq W] in
theorem stays_setConn {c : C} {conn : KvConn}
    (hconn : ∀ job ∈ conn.pc.jobs, job ∈ (s.conn c).pc.jobs) : Stays s (s.setConn c conn) := by
  refine ⟨fun _ _ h => .inl h, fun e job hjob => ?_⟩
  by_cases he : e = c
  · subst he
    exact hconn job (by simpa [KvState.setConn] using hjob)
  · simpa [KvState.setConn, he] using hjob

theorem stays_set {v : W} {d : KvDispatcher C} {c : C} {conn : KvConn}
    (hd : d.held = (s.dispatch v).held) (hconn : conn.pc.jobs = []) :
    Stays s ((s.setDispatch v d).setConn c conn) :=
  (stays_setDispatch hd).trans (stays_setConn (by simp [hconn])) rfl

theorem stays_leave (cfg : KvConfig W C) (s : KvState W C) (c : C) : Stays s (leave cfg s c) :=
  stays_set rfl rfl

omit [DecidableEq W] in
theorem stays_finished {c : C} (job : KvJob) :
    Stays s ((s.markFinished [job]).setPc c .top) := by
  have htop : Stays (s.markFinished [job]) ((s.markFinished [job]).setPc c .top) :=
    stays_setConn (by simp [ConnPc.jobs, ConnPc.slotJobs, ConnPc.runningJobs])
  exact ⟨htop.held, htop.jobs⟩

/-- What a step does with the requests the dispatchers and connections have, by what it notes. -/
inductive Moves (cfg : KvConfig W C) (s t : KvState W C) : List (Note C) → Prop
  | stay (stays : Stays s t) : Moves cfg s t []
  | hand (c : C) (job : KvJob) (old : job ∈ (s.dispatch (cfg.worker c)).held)
      (slot : (t.conn c).pc = .waiting ⟨some job, true⟩)
      (held : ∀ v, ∀ job ∈ (t.dispatch v).held, job ∈ (s.dispatch v).held ∨ Fresh s.channel job)
      (jobs : ∀ e, e ≠ c → ∀ job ∈ (t.conn e).pc.jobs, job ∈ (s.conn e).pc.jobs) :
      Moves cfg s t [⟨c, job.index, .handed⟩]
  | back (c : C) (job job' : KvJob) (why : HandBack) (stamp : Nat)
      (old : job ∈ (s.conn c).pc.jobs) (req : job'.req = job.req)
      (marks : Marks (max (s.dispatch (cfg.worker c)).connections 1) job job' why)
      (returned : (t.dispatch (cfg.worker c)).returned =
        (s.dispatch (cfg.worker c)).returned ++ [(job', stamp)])
      (pending : (t.dispatch (cfg.worker c)).pending = (s.dispatch (cfg.worker c)).pending)
      (held : ∀ v, v ≠ cfg.worker c → (t.dispatch v).held = (s.dispatch v).held)
      (jobs : ∀ e, ∀ job ∈ (t.conn e).pc.jobs, job ∈ (s.conn e).pc.jobs) :
      Moves cfg s t [⟨c, job.index, .back why⟩]

theorem handBack_notes {c : C} {job : KvJob} (hjob : job ∈ (s.conn c).pc.jobs)
    (why : HandBack) : Moves cfg s (handBack cfg s c job why) (backNotes cfg s c job why) := by
  unfold handBack backNotes
  cases hgive : (s.dispatch (cfg.worker c)).giveBack job why with
  | none =>
    simp only [Option.isSome_none, Bool.false_eq_true, if_false]
    have hleave := stays_leave cfg (s.markFinished [job]) c
    exact .stay ⟨hleave.held, hleave.jobs⟩
  | some d =>
    obtain ⟨job', hreq, rfl, hmarks⟩ := KvDispatcher.giveBack_spec hgive
    simp only [Option.isSome_some, if_true]
    refine .back c job job' why (s.dispatch (cfg.worker c)).connectFailures hjob hreq hmarks ?_ ?_
      (fun v hv => ?_) fun e job hjob => ?_
    · simp [leave, KvState.setDispatch, KvState.setPc, KvDispatcher.pushReturned]
    · simp [leave, KvState.setDispatch, KvState.setPc, KvDispatcher.pushReturned]
    · simp [leave, KvState.setDispatch, KvState.setPc, hv]
    · exact (stays_leave cfg (s.setDispatch (cfg.worker c) _) c).jobs e job hjob

/-- An iteration of a dispatcher, noting the slot it completes. -/
theorem dispatched_notes {v : W} {out : Dispatched C} (h : SlotsOk cfg s)
    (hout : Dispatches s.channel (s.dispatch v) [] out)
    (hhands : HandsOn s.channel (s.dispatch v) out) :
    Moves cfg s (s.dispatched v out)
      (out.handed.map fun handed => ⟨handed.1, handed.2.index, .handed⟩).toList := by
  obtain ⟨channel, d, handed, failed⟩ := out
  have hheld : ∀ u, ∀ job ∈ ((((s.setChannel channel).setDispatch v d).markFinished
      failed).dispatch u).held, job ∈ (s.dispatch u).held ∨ Fresh s.channel job := by
    intro u job hjob
    by_cases hu : u = v
    · subst hu
      apply hhands.held job
      simpa [KvState.markFinished, KvState.setDispatch] using hjob
    · left
      simpa [KvState.markFinished, KvState.setDispatch, KvState.setChannel, hu] using hjob
  cases handed with
  | none => exact .stay ⟨hheld, fun _ _ h => h⟩
  | some handed =>
    obtain ⟨c, job⟩ := handed
    have hc : c ∈ (s.dispatch v).waiting := by simp [hout.waiting]
    have hworker := (h.waits v c hc).1
    simp only [KvState.dispatched, completeSlot_eq h hc, Option.map_some, Option.toList_some]
    refine .hand c job ?_ (by simp [KvState.setPc]) hheld fun e he job' hjob' => ?_
    · rw [hworker]
      exact hhands.handed _ rfl
    · simpa [KvState.setPc, KvState.markFinished, KvState.setDispatch, KvState.setChannel, he]
        using hjob'

end Moves

/-! ## What a step keeps -/

def DispatcherOk (cfg : KvConfig W C) (v : W) (d : KvDispatcher C) : Prop :=
  d.connections = cfg.connections v ∧ Stamps d

/-- What every step keeps, whatever it notes. -/
structure Advances [Fintype W] [Fintype C] (cfg : KvConfig W C) (s t : KvState W C) : Prop where
  kv : KvInv cfg t
  dispatchers : ∀ v, DispatcherOk cfg v (t.dispatch v)
  taken : ∀ k, Taken s k → Taken t k
  marked : ∀ k ∈ s.marked, k ∈ t.marked

section Advances

variable {s t : KvState W C}

theorem taken_mono (hdelivered : s.delivered ≤ t.delivered)
    (hchannel : t.channel.Sublist s.channel) (k : Nat) (h : Taken s k) : Taken t k where
  delivered := h.delivered.trans_le hdelivered
  channel := by
    have hle := (hchannel.map Request.index).count_le k
    have hzero := h.channel
    unfold countBy at *
    omega

/-- A step that sends no request. -/
theorem advances_of [Fintype W] [Fintype C] (hkv : KvInv cfg t)
    (hdispatchers : ∀ v, DispatcherOk cfg v (t.dispatch v)) (hdelivered : s.delivered = t.delivered)
    (hchannel : t.channel.Sublist s.channel) (hmarked : s.marked <+: t.marked) :
    Advances cfg s t :=
  ⟨hkv, hdispatchers, taken_mono hdelivered.le hchannel, fun _ hk => hmarked.subset hk⟩

variable [DecidableEq W] [DecidableEq C]

omit [DecidableEq C] in
theorem setDispatch_ok {v : W} {d : KvDispatcher C} (h : ∀ v, DispatcherOk cfg v (s.dispatch v))
    (hd : DispatcherOk cfg v d) : ∀ u, DispatcherOk cfg u ((s.setDispatch v d).dispatch u) :=
  (Function.forall_update_iff s.dispatch (DispatcherOk cfg)).mpr ⟨hd, fun u _ => h u⟩

theorem leave_ok {c : C} (h : ∀ v, DispatcherOk cfg v (s.dispatch v)) :
    ∀ u, DispatcherOk cfg u ((leave cfg s c).dispatch u) :=
  setDispatch_ok (v := cfg.worker c) h
    ⟨(h (cfg.worker c)).1, (h (cfg.worker c)).2.ordered, (h (cfg.worker c)).2.past⟩

theorem handBack_advances [Fintype W] [Fintype C] {c : C} {job : KvJob} {why : HandBack}
    (hkv : KvInv cfg (handBack cfg s c job why)) (h : ∀ v, DispatcherOk cfg v (s.dispatch v)) :
    Advances cfg s (handBack cfg s c job why) := by
  unfold handBack at hkv ⊢
  split at hkv
  · rename_i d hgive
    obtain ⟨job', -, rfl, -⟩ := KvDispatcher.giveBack_spec hgive
    have hok := h (cfg.worker c)
    refine advances_of hkv (leave_ok (setDispatch_ok h ⟨hok.1, ?_⟩)) rfl (List.Sublist.refl _)
      (List.prefix_refl _)
    exact KvDispatcher.pushReturned_stamps hok.2 job'
  · exact advances_of hkv (leave_ok (s := s.markFinished [job]) h) rfl (List.Sublist.refl _)
      (List.prefix_append _ _)

theorem dispatched_advances [Fintype W] [Fintype C] {v : W} {out : Dispatched C}
    (hkv : KvInv cfg (s.dispatched v out)) (h : ∀ v, DispatcherOk cfg v (s.dispatch v))
    (hslots : SlotsOk cfg s) (hout : Dispatches s.channel (s.dispatch v) [] out)
    (hhands : HandsOn s.channel (s.dispatch v) out) : Advances cfg s (s.dispatched v out) := by
  obtain ⟨channel, d, handed, failed⟩ := out
  have hok : DispatcherOk cfg v d :=
    ⟨hhands.connections.trans (h v).1, hhands.stamps (h v).2⟩
  have hset := setDispatch_ok (s := s.setChannel channel) h hok
  cases handed with
  | none => exact advances_of hkv hset rfl hhands.channel (List.prefix_append _ _)
  | some handed =>
    obtain ⟨c, job⟩ := handed
    have hc : c ∈ (s.dispatch v).waiting := by simp [hout.waiting]
    simp only [KvState.dispatched, completeSlot_eq hslots hc] at hkv ⊢
    exact advances_of hkv hset rfl hhands.channel (List.prefix_append _ _)

theorem send_taken [Fintype W] [Fintype C] (h : KvInv cfg s)
    (hstep : kvStep cfg s .send = some t) (k : Nat) (hk : Taken s k) : Taken t k := by
  simp only [kvStep] at hstep
  split at hstep
  · rename_i req hsending
    split at hstep <;> cases hstep
    have hindex := h.sending req hsending
    have hdelivered : s.delivered = req.index := by
      simp [KvState.delivered, hsending, ← hindex]
    have hlt := hk.delivered
    constructor
    · show k < s.sent - 0
      omega
    · show countBy Request.index k (s.channel ++ [req]) = 0
      rw [countBy_append, hk.channel, ← count_map_eq, List.map_singleton,
        List.count_singleton, if_neg (by simp; omega)]
  · cases hstep

/-- **What a step does** with the requests the dispatchers and connections have, and what it
keeps. -/
theorem kvStep_spec [Fintype W] [Fintype C] {e : KvStep W C} (h : KvInv cfg s)
    (hok : ∀ v, DispatcherOk cfg v (s.dispatch v)) (hstep : kvStep cfg s e = some t) :
    Moves cfg s t (e.notes cfg s) ∧ Advances cfg s t := by
  have hkv := kvStep_inv h hstep
  cases e with
  | read =>
    simp only [kvStep] at hstep
    split at hstep
    · rename_i hsending hreq
      split at hstep <;> cases hstep
      exact ⟨.stay (stays_same rfl rfl), advances_of hkv hok (by simp [KvState.delivered, hsending])
        (List.Sublist.refl _) (List.prefix_refl _)⟩
    · cases hstep
  | send =>
    have htaken := send_taken h hstep
    simp only [kvStep] at hstep
    split at hstep
    · split at hstep <;> cases hstep
      exact ⟨.stay (stays_same rfl rfl), hkv, hok, htaken, fun _ hk => hk⟩
    · cases hstep
  | stopReader | dropSender =>
    simp only [kvStep] at hstep
    split at hstep <;> cases hstep
    exact ⟨.stay (stays_same rfl rfl),
      advances_of hkv hok rfl (List.Sublist.refl _) (List.prefix_refl _)⟩
  | startAt instant =>
    cases hstep
    exact ⟨.stay (stays_same rfl rfl),
      advances_of hkv hok rfl (List.Sublist.refl _) (List.prefix_refl _)⟩
  | dispatch v nowHeld now =>
    simp only [kvStep] at hstep
    split at hstep
    · rename_i start hspawned hstart
      cases hstep
      have hout := runDispatcher_dispatches (cfg.scheduledAt start) s.disconnected s.channel
        (s.dispatch v) nowHeld now
      have hhands := runDispatcher_handsOn (cfg.scheduledAt start) s.disconnected s.channel
        (s.dispatch v) nowHeld now
      simp only [KvStep.notes, hspawned, hstart]
      exact ⟨dispatched_notes h.slots hout hhands,
        dispatched_advances hkv hok h.slots hout hhands⟩
    · rename_i hspawned hstart
      cases hstep
      simp only [KvStep.notes, hspawned, hstart]
      exact ⟨.stay (stays_same rfl rfl),
        advances_of hkv hok rfl (List.Sublist.refl _) (List.prefix_refl _)⟩
    · cases hstep
  | connectFailed c =>
    simp only [kvStep] at hstep
    split at hstep <;> cases hstep
    obtain ⟨hconnections, hstamps⟩ := hok (cfg.worker c)
    refine ⟨.stay (stays_setDispatch rfl), advances_of hkv (setDispatch_ok hok ⟨hconnections, ?_⟩)
      rfl (List.Sublist.refl _) (List.prefix_refl _)⟩
    exact KvDispatcher.sublist_stamps hstamps (List.Sublist.refl _) (Nat.le_succ _)
  | connect c =>
    simp only [kvStep] at hstep
    split at hstep <;> cases hstep
    obtain ⟨hconnections, hstamps⟩ := hok (cfg.worker c)
    exact ⟨.stay (stays_set rfl rfl), advances_of hkv
      (setDispatch_ok hok ⟨hconnections, hstamps.ordered, hstamps.past⟩) rfl
      (List.Sublist.refl _) (List.prefix_refl _)⟩
  | eof c =>
    simp only [kvStep] at hstep
    split at hstep <;> cases hstep
    obtain ⟨hconnections, hstamps⟩ := hok (cfg.worker c)
    refine ⟨.stay ((stays_setDispatch ?_).trans (stays_leave cfg _ c) rfl),
      advances_of hkv (leave_ok (setDispatch_ok hok ⟨?_, ?_⟩)) rfl (List.Sublist.refl _)
        (List.prefix_refl _)⟩
    · split <;> rfl
    · split <;> exact hconnections
    · split
      · exact hstamps
      · exact KvDispatcher.sublist_stamps hstamps (List.Sublist.refl _) (Nat.le_succ _)
  | ask c =>
    simp only [kvStep] at hstep
    split at hstep
    · split at hstep <;> cases hstep
      · exact ⟨.stay (stays_same rfl rfl),
          advances_of hkv hok rfl (List.Sublist.refl _) (List.prefix_refl _)⟩
      · obtain ⟨hconnections, hstamps⟩ := hok (cfg.worker c)
        exact ⟨.stay (stays_set rfl rfl), advances_of hkv
          (setDispatch_ok hok ⟨hconnections, hstamps.ordered, hstamps.past⟩) rfl
          (List.Sublist.refl _) (List.prefix_refl _)⟩
    · cases hstep
  | take c alive =>
    simp only [kvStep] at hstep
    split at hstep
    · rename_i job hpc
      cases job with
      | none =>
        cases hstep
        have hnotes : (KvStep.take (W := W) c alive).notes cfg s = [] := by
          cases alive <;> simp [KvStep.notes, hpc]
        rw [hnotes]
        exact ⟨.stay (stays_setConn (by simp [ConnPc.jobs, ConnPc.slotJobs, ConnPc.runningJobs])),
          advances_of hkv hok rfl (List.Sublist.refl _) (List.prefix_refl _)⟩
      | some job =>
        have hjob : job ∈ (s.conn c).pc.jobs := by simp [hpc, ConnPc.jobs, ConnPc.slotJobs]
        cases alive with
        | true =>
          cases hstep
          refine ⟨.stay (stays_setConn ?_),
            advances_of hkv hok rfl (List.Sublist.refl _) (List.prefix_refl _)⟩
          simp [hpc, ConnPc.jobs, ConnPc.slotJobs, ConnPc.runningJobs]
        | false =>
          cases hstep
          simp only [KvStep.notes, hpc]
          exact ⟨handBack_notes hjob .unsent, handBack_advances hkv hok⟩
    · cases hstep
  | done c result =>
    simp only [kvStep] at hstep
    split at hstep
    · rename_i job hpc
      have hjob : job ∈ (s.conn c).pc.jobs := by
        simp [hpc, ConnPc.jobs, ConnPc.slotJobs, ConnPc.runningJobs]
      split at hstep <;> cases hstep
      · simp only [KvStep.notes, hpc]
        exact ⟨handBack_notes hjob .lookupSent, handBack_advances hkv hok⟩
      · have hleave := stays_leave cfg (s.markFinished [job]) c
        exact ⟨.stay ⟨hleave.held, hleave.jobs⟩, advances_of hkv
          (leave_ok (s := s.markFinished [job]) hok) rfl (List.Sublist.refl _)
          (List.prefix_append _ _)⟩
      · exact ⟨.stay (stays_finished job),
          advances_of hkv hok rfl (List.Sublist.refl _) (List.prefix_append _ _)⟩
      · exact ⟨.stay (stays_finished job),
          advances_of hkv hok rfl (List.Sublist.refl _) (List.prefix_append _ _)⟩
    · cases hstep

end Advances

end KvReplay
