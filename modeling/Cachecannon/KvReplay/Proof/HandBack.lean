import Cachecannon.KvReplay.Proof.Moves
import Cachecannon.KvReplay.Proof.Send
import Cachecannon.Lib.Prefix

/-!
# Hand-backs of KV requests

How often a request was handed out and handed back is what it carries (`Logged`), wherever it is;
and no request with its index is elsewhere. `HandInv` is the invariant of the replay and
`replayStep_inv` its step lemma. `failed_eq_filter` is the front-only loop of `run_dispatcher`.
-/

namespace KvReplay

open Ledger

variable {W C : Type}

/-- **The front-only scan** fails exactly the requests with a stamp below `connectFailures`. -/
theorem failed_eq_filter {d : KvDispatcher C} (h : Stamps d) (hlive : d.live = 0) :
    d.failed = (d.returned.filter fun r => decide (r.2 < d.connectFailures)).map (·.1) ∧
      d.failReturned.returned =
        d.returned.filter fun r => !decide (r.2 < d.connectFailures) := by
  obtain ⟨htake, hdrop⟩ := Prefix.takeWhile_lt (f := fun r : KvJob × Nat => r.2)
    d.connectFailures h.ordered
  unfold KvDispatcher.failed KvDispatcher.failReturned
  rw [if_pos hlive, if_pos hlive]
  exact ⟨congrArg (List.map _) htake, hdrop⟩

/-! ## The log -/

/-- How often the request `index` met an event. -/
def times (log : List (Note C)) (index : Nat) (event : Event) : Nat :=
  log.countP fun n => decide (n.index = index ∧ n.event = event)

theorem times_append (log : List (Note C)) (n : Note C) (index : Nat) (event : Event) :
    times (log ++ [n]) index event =
      times log index event + if n.index = index ∧ n.event = event then 1 else 0 := by
  simp [times, List.countP_append, List.countP_singleton]

/-- What the log says of a request that worker `w` has, on a connection or not, is what the
request carries. -/
structure Logged (cfg : KvConfig W C) (log : List (Note C)) (w : W) (onConn : Bool)
    (job : KvJob) : Prop where
  handed : times log job.index .handed =
    job.deadHandovers + job.retried.toNat + onConn.toNat
  unsent : times log job.index (.back .unsent) = job.deadHandovers
  lookupSent : times log job.index (.back .lookupSent) = job.retried.toNat
  dead : job.deadHandovers ≤ max (cfg.connections w) 1
  worker : ∀ n ∈ log, n.index = job.index → cfg.worker n.conn = w

/-- The bounds for the request of `n`, of the worker it is on. -/
structure Within (cfg : KvConfig W C) (log : List (Note C)) (n : Note C) : Prop where
  handed : times log n.index .handed ≤ max (cfg.connections (cfg.worker n.conn)) 1 + 2
  unsent : times log n.index (.back .unsent) ≤ max (cfg.connections (cfg.worker n.conn)) 1
  lookupSent : times log n.index (.back .lookupSent) ≤ 1

variable {cfg : KvConfig W C} {log : List (Note C)} {w : W} {onConn : Bool} {job : KvJob}
  {n : Note C}

theorem Logged.within (h : Logged cfg log w onConn job) (hn : n ∈ log)
    (hindex : n.index = job.index) : Within cfg log n := by
  have hworker := h.worker n hn hindex
  have hdead := h.dead
  have hretried := Bool.toNat_le job.retried
  have honConn := Bool.toNat_le onConn
  constructor
  · rw [hindex, hworker, h.handed]
    omega
  · rw [hindex, hworker, h.unsent]
    exact hdead
  · rw [hindex, h.lookupSent]
    exact hretried

/-- A note on another request. -/
theorem Logged.other (h : Logged cfg log w onConn job) (hindex : job.index ≠ n.index) :
    Logged cfg (log ++ [n]) w onConn job := by
  have htimes : ∀ event, times (log ++ [n]) job.index event = times log job.index event :=
    fun event => by simp [times_append, hindex.symm]
  refine ⟨by rw [htimes, h.handed], by rw [htimes, h.unsent], by rw [htimes, h.lookupSent],
    h.dead, fun m hm hmi => ?_⟩
  rcases List.mem_append.mp hm with hm | hm
  · exact h.worker m hm hmi
  · rw [List.mem_singleton.mp hm] at hmi
    exact absurd hmi.symm hindex

theorem Within.other {m : Note C} (h : Within cfg log m) (hindex : m.index ≠ n.index) :
    Within cfg (log ++ [n]) m := by
  have htimes : ∀ event, times (log ++ [n]) m.index event = times log m.index event :=
    fun event => by simp [times_append, hindex.symm]
  exact ⟨by rw [htimes]; exact h.handed, by rw [htimes]; exact h.unsent,
    by rw [htimes]; exact h.lookupSent⟩

/-- A request that is new has no notes. -/
theorem logged_fresh {channel : List Request} (h : Fresh channel job)
    (hnone : ∀ m ∈ log, countBy Request.index m.index channel = 0) (w : W) :
    Logged cfg log w false job := by
  obtain ⟨req, hreq, scheduled, rfl⟩ := h
  have hindex : ∀ m ∈ log, m.index ≠ req.index := fun m hm hmi => by
    have hzero := hnone m hm
    rw [hmi, ← count_map_eq, List.count_eq_zero] at hzero
    exact hzero (List.mem_map_of_mem hreq)
  have htimes : ∀ event, times log req.index event = 0 := fun event => by
    rw [times, List.countP_eq_zero]
    intro m hm
    simp [hindex m hm]
  exact ⟨htimes _, htimes _, htimes _, Nat.zero_le _, fun m hm hmi => absurd hmi (hindex m hm)⟩

/-- A note of a connection of the worker. -/
theorem Logged.worker_note {c : C} (h : Logged cfg log (cfg.worker c) onConn job) (index : Nat)
    (event : Event) : ∀ m ∈ log ++ [⟨c, index, event⟩], m.index = job.index →
      cfg.worker m.conn = cfg.worker c := by
  intro m hm hmi
  rcases List.mem_append.mp hm with hm | hm
  · exact h.worker m hm hmi
  · rw [List.mem_singleton.mp hm]

/-- The request is handed to a connection of its worker. -/
theorem Logged.hand {c : C} (h : Logged cfg log (cfg.worker c) false job) :
    Logged cfg (log ++ [⟨c, job.index, .handed⟩]) (cfg.worker c) true job := by
  refine ⟨?_, ?_, ?_, h.dead, h.worker_note _ _⟩
  · simp [times_append, h.handed]
  · simp [times_append, h.unsent]
  · simp [times_append, h.lookupSent]

/-- The request tried an operation. -/
theorem Logged.tries {c : C} (h : Logged cfg log (cfg.worker c) true job) :
    Logged cfg (log ++ [⟨c, job.index, .tried⟩]) (cfg.worker c) true job := by
  refine ⟨?_, ?_, ?_, h.dead, h.worker_note _ _⟩
  · simp [times_append, h.handed]
  · simp [times_append, h.unsent]
  · simp [times_append, h.lookupSent]

theorem Logged.back {c : C} {job' : KvJob} {why : HandBack}
    (h : Logged cfg log (cfg.worker c) true job) (hreq : job'.req = job.req)
    (hmarks : Marks (max (cfg.connections (cfg.worker c)) 1) job job' why) :
    Logged cfg (log ++ [⟨c, job.index, .back why⟩]) (cfg.worker c) false job' := by
  have hindex : job'.index = job.index := congrArg Request.index hreq
  have hworker : ∀ m ∈ log ++ [⟨c, job.index, .back why⟩], m.index = job'.index →
      cfg.worker m.conn = cfg.worker c :=
    fun m hm hmi => h.worker_note _ _ m hm (hmi.trans hindex)
  have hdead := h.dead
  cases why with
  | unsent =>
    obtain ⟨hbound, hcount, hretried⟩ := hmarks
    refine ⟨?_, ?_, ?_, by omega, hworker⟩
    · simp only [hindex, times_append, h.handed, hcount, hretried]
      simp only [reduceCtorEq, and_false, if_false, Bool.toNat_true, Bool.toNat_false]
      omega
    · simp [hindex, times_append, h.unsent, hcount]
    · simp [hindex, times_append, h.lookupSent, hretried]
  | lookupSent =>
    obtain ⟨hfirst, hretried, hcount⟩ := hmarks
    refine ⟨?_, ?_, ?_, by omega, hworker⟩
    · simp [hindex, times_append, h.handed, hcount, hretried, hfirst]
    · simp [hindex, times_append, h.unsent, hcount]
    · simp [hindex, times_append, h.lookupSent, hretried, hfirst]

/-! ## The invariant -/

/-- `b` does not hand back what `a`, before it, tried an operation of. -/
def NotAfterTried (a b : Note C) : Prop :=
  a.event = .tried → b.index = a.index → ∀ why, b.event ≠ .back why

/-- **The invariant of the replay**, of its state and its log. -/
structure HandInv [Fintype W] [Fintype C] (cfg : KvConfig W C) (s : KvState W C)
    (log : List (Note C)) : Prop where
  kv : KvInv cfg s
  dispatchers : ∀ v, DispatcherOk cfg v (s.dispatch v)
  held : ∀ v, ∀ job ∈ (s.dispatch v).held, Logged cfg log v false job
  jobs : ∀ c, ∀ job ∈ (s.conn c).pc.jobs, Logged cfg log (cfg.worker c) true job
  taken : ∀ n ∈ log, Taken s n.index
  within : ∀ n ∈ log, Within cfg log n
  ordered : log.Pairwise NotAfterTried
  tried : ∀ n ∈ log, n.event = .tried → n.index ∈ s.marked

theorem handInv_init [Fintype W] [Fintype C] (cfg : KvConfig W C) :
    HandInv cfg (.init cfg) [] where
  kv := init_inv cfg
  dispatchers _ := ⟨rfl, List.Pairwise.nil, fun _ h => by cases h⟩
  held _ _ h := by cases h
  jobs _ _ h := by cases h
  taken _ h := by cases h
  within _ h := by cases h
  ordered := List.Pairwise.nil
  tried _ h := by cases h

section Inv

variable [Fintype W] [Fintype C] {s t : KvState W C}

/-- What was held before, or is fresh, is logged as it was. -/
theorem HandInv.stays (h : HandInv cfg s log) {v : W}
    (hjob : job ∈ (s.dispatch v).held ∨ Fresh s.channel job) : Logged cfg log v false job := by
  rcases hjob with hold | hfresh
  · exact h.held v job hold
  · exact logged_fresh hfresh (fun m hm => (h.taken m hm).channel) v

/-- A step that notes nothing. -/
theorem HandInv.stay (h : HandInv cfg s log) (ha : Advances cfg s t) (hstay : Stays s t) :
    HandInv cfg t log where
  kv := ha.kv
  dispatchers := ha.dispatchers
  held v job hjob := h.stays (hstay.held v job hjob)
  jobs c job hjob := h.jobs c job (hstay.jobs c job hjob)
  taken m hm := ha.taken _ (h.taken m hm)
  within := h.within
  ordered := h.ordered
  tried m hm hevent := ha.marked _ (h.tried m hm hevent)

/-- A step that notes `n`. -/
theorem HandInv.note (h : HandInv cfg s log) (ha : Advances cfg s t) (htaken : Taken t n.index)
    (hheld : ∀ v, ∀ job ∈ (t.dispatch v).held, Logged cfg (log ++ [n]) v false job)
    (hjobs : ∀ c, ∀ job ∈ (t.conn c).pc.jobs,
      Logged cfg (log ++ [n]) (cfg.worker c) true job)
    (hwithin : ∀ m ∈ log ++ [n], m.index = n.index → Within cfg (log ++ [n]) m)
    (hback : ∀ why, n.event = .back why → n.index ∉ s.marked)
    (htried : n.event = .tried → n.index ∈ t.marked) : HandInv cfg t (log ++ [n]) := by
  refine ⟨ha.kv, ha.dispatchers, hheld, hjobs, fun m hm => ?_, fun m hm => ?_, ?_,
    fun m hm hevent => ?_⟩
  · rcases List.mem_append.mp hm with hm | hm
    · exact ha.taken _ (h.taken m hm)
    · rw [List.mem_singleton.mp hm]
      exact htaken
  · by_cases hindex : m.index = n.index
    · exact hwithin m hm hindex
    · rcases List.mem_append.mp hm with hm | hm
      · exact (h.within m hm).other hindex
      · exact absurd (congrArg Note.index (List.mem_singleton.mp hm)) hindex
  · rw [List.pairwise_append]
    refine ⟨h.ordered, List.pairwise_singleton _ _, fun m hm m' hm' htried' hindex why hevent => ?_⟩
    rw [List.mem_singleton.mp hm'] at hindex hevent
    apply hback why hevent
    rw [hindex]
    exact h.tried m hm htried'
  · rcases List.mem_append.mp hm with hm | hm
    · exact ha.marked _ (h.tried m hm hevent)
    · rw [List.mem_singleton.mp hm] at hevent ⊢
      exact htried hevent

/-- A request that a connection has is not a finished one. -/
theorem jobs_not_marked (h : KvInv cfg s) {c : C} (hjob : job ∈ (s.conn c).pc.jobs) :
    job.index ∉ s.marked :=
  fun hmarked => jobs_ne h (marked_place hmarked) hjob (by simp) (by simp) rfl

/-- A request handed to a connection. -/
theorem HandInv.hand (h : HandInv cfg s log) (ha : Advances cfg s t) {c : C}
    (old : job ∈ (s.dispatch (cfg.worker c)).held)
    (slot : (t.conn c).pc = .waiting ⟨some job, true⟩)
    (held : ∀ v, ∀ job ∈ (t.dispatch v).held, job ∈ (s.dispatch v).held ∨ Fresh s.channel job)
    (jobs : ∀ e, e ≠ c → ∀ job ∈ (t.conn e).pc.jobs, job ∈ (s.conn e).pc.jobs) :
    HandInv cfg t (log ++ [⟨c, job.index, .handed⟩]) := by
  have hlogged := (h.held _ job old).hand
  have hplace : 1 ≤ occurrences t job.index (.slot c : Place W C) := by
    simp [occurrences, slot, ConnPc.slotJobs, countBy]
  refine h.note ha (taken_of_place ha.kv hplace (by simp)) (fun v other hother => ?_)
    (fun e other hother => ?_) (fun m hm hindex => hlogged.within hm hindex) (by simp) (by simp)
  · have hne := held_ne ha.kv hplace hother (by simp) (by simp)
    exact (h.stays (held v other hother)).other hne
  · by_cases he : e = c
    · subst he
      simp only [slot, ConnPc.jobs, ConnPc.slotJobs, ConnPc.runningJobs, Option.toList_some,
        List.append_nil, List.mem_singleton] at hother
      rw [hother]
      exact hlogged
    · have hne := jobs_ne ha.kv hplace hother (fun hslot => he (Place.slot.inj hslot).symm)
        (by simp)
      exact (h.jobs e other (jobs e he other hother)).other hne

/-- The request handed back is alone in `returned`. -/
theorem returned_ne (h : KvInv cfg t) {v : W} {returned : List (KvJob × Nat)} {new : KvJob}
    {stamp : Nat} (hreturned : (t.dispatch v).returned = returned ++ [(new, stamp)])
    {other : KvJob × Nat} (hother : other ∈ returned) : other.1.index ≠ new.index := by
  intro heq
  have hone := (occurrences_le_total t new.index (.returned v : Place W C)).trans
    (total_le_one h new.index)
  have hold : 1 ≤ countBy KvJob.index new.index (returned.map (·.1)) := by
    rw [← heq]
    exact countBy_pos (List.mem_map_of_mem hother)
  have hnew : 1 ≤ countBy KvJob.index new.index ([(new, stamp)].map (·.1)) :=
    countBy_pos (List.mem_singleton_self new)
  rw [occurrences, hreturned, List.map_append, countBy_append] at hone
  omega

/-- A request handed back. -/
theorem HandInv.back (h : HandInv cfg s log) (ha : Advances cfg s t) {c : C} {job' : KvJob}
    {why : HandBack} {stamp : Nat} (old : job ∈ (s.conn c).pc.jobs) (req : job'.req = job.req)
    (marks : Marks (max (s.dispatch (cfg.worker c)).connections 1) job job' why)
    (returned : (t.dispatch (cfg.worker c)).returned =
      (s.dispatch (cfg.worker c)).returned ++ [(job', stamp)])
    (pending : (t.dispatch (cfg.worker c)).pending = (s.dispatch (cfg.worker c)).pending)
    (held : ∀ v, v ≠ cfg.worker c → (t.dispatch v).held = (s.dispatch v).held)
    (jobs : ∀ e, ∀ job ∈ (t.conn e).pc.jobs, job ∈ (s.conn e).pc.jobs) :
    HandInv cfg t (log ++ [⟨c, job.index, .back why⟩]) := by
  have hindex : job'.index = job.index := congrArg Request.index req
  rw [(h.dispatchers (cfg.worker c)).1] at marks
  have hlogged := (h.jobs c job old).back req marks
  have hplace : 1 ≤ occurrences t job.index (.returned (cfg.worker c) : Place W C) := by
    rw [occurrences, returned, List.map_append, countBy_append, ← hindex]
    exact (countBy_pos (List.mem_singleton_self job')).trans (Nat.le_add_left _ _)
  refine h.note ha (taken_of_place ha.kv hplace (by simp)) (fun v other hother => ?_)
    (fun e other hother => ?_) (fun m hm hm' => hlogged.within hm (hm'.trans hindex.symm))
    (fun _ _ => jobs_not_marked h.kv old) (by simp)
  · by_cases hv : v = cfg.worker c
    · subst hv
      rw [KvDispatcher.mem_held, pending, returned] at hother
      rcases hother with hpending | ⟨stamp', hmem⟩
      · have hold := h.held _ other (KvDispatcher.mem_held.mpr (.inl hpending))
        refine hold.other fun heq => ?_
        rw [← pending] at hpending
        have hpos : 1 ≤ occurrences t other.index (.pending (cfg.worker c) : Place W C) := by
          rw [occurrences, hpending]
          exact countBy_pos (List.mem_singleton_self other)
        rw [heq] at hpos
        cases place_unique ha.kv hplace hpos
      · rcases List.mem_append.mp hmem with hmem | hmem
        · have hold := h.held _ other (KvDispatcher.mem_held.mpr (.inr ⟨stamp', hmem⟩))
          have hne := returned_ne ha.kv returned hmem
          rw [hindex] at hne
          exact hold.other hne
        · rw [(Prod.mk.inj (List.mem_singleton.mp hmem)).1]
          exact hlogged
    · have hne := held_ne ha.kv hplace hother (by simp) fun heq => hv (Place.returned.inj heq).symm
      rw [held v hv] at hother
      exact (h.held v other hother).other hne
  · have hne := jobs_ne ha.kv hplace hother (by simp) (by simp)
    exact (h.jobs e other (jobs e other hother)).other hne

/-- A request that tried an operation, and is finished. -/
theorem HandInv.tries (h : HandInv cfg s log) (ha : Advances cfg s t) {c : C}
    (old : job ∈ (s.conn c).pc.jobs) (hstay : Stays s t) (hmarked : job.index ∈ t.marked) :
    HandInv cfg t (log ++ [⟨c, job.index, .tried⟩]) := by
  have hlogged := (h.jobs c job old).tries
  have hplace := marked_place hmarked
  refine h.note ha (taken_of_place ha.kv hplace (by simp)) (fun v other hother => ?_)
    (fun e other hother => ?_) (fun m hm hindex => hlogged.within hm hindex) (by simp)
    fun _ => hmarked
  · have hne := held_ne ha.kv hplace hother (by simp) (by simp)
    exact (h.stays (hstay.held v other hother)).other hne
  · have hne := jobs_ne ha.kv hplace hother (by simp) (by simp)
    exact (h.jobs e other (hstay.jobs e other hother)).other hne

theorem HandInv.moves {notes : List (Note C)} (h : HandInv cfg s log) (ha : Advances cfg s t)
    (hmoves : Moves cfg s t notes) : HandInv cfg t (log ++ notes) := by
  cases hmoves with
  | stay hstay =>
    rw [List.append_nil]
    exact h.stay ha hstay
  | hand c job old slot held jobs => exact h.hand ha old slot held jobs
  | back c job job' why stamp old req marks returned pending held jobs =>
    exact h.back ha old req marks returned pending held jobs

end Inv

/-! ## The end of a request -/

theorem flush_error {s s' : Sending} {fired : Nat} {succeeds : Bool} {e : Failure}
    (h : s.flush fired succeeds = some (.error e, s')) : e = .disconnect := by
  unfold Sending.flush at h
  split at h
  · cases h
  · simp only at h
    split at h <;> cases h
    rfl

theorem andThen_error {α β : Type} {ran : Ran α} {next : α → Sending → Ran β} {e : Failure}
    {s' : Sending} (h : ran.andThen next = some (.error e, s')) :
    ran = some (.error e, s') ∨ ∃ a s, ran = some (.ok a, s) ∧ next a s = some (.error e, s') := by
  unfold Ran.andThen at h
  split at h
  · rename_i a s
    exact .inr ⟨a, s, rfl, h⟩
  · cases h
    exact .inl rfl
  · cases h

theorem recvReply_error {it : Iteration} {s s' : Sending} {e : Failure}
    (h : recvReply it s = some (.error e, s')) : e = .disconnect := by
  unfold recvReply at h
  split at h <;> cases h
  rfl

theorem turn_error {pipelineDepth : Nat} {it : Iteration} {next : List Op} {s s' : Sending}
    {e : Failure} (h : turn pipelineDepth it next s = some (.error e, s')) : e = .disconnect := by
  unfold turn at h
  split at h
  · cases h
    rfl
  · rcases andThen_error h with hflush | ⟨_, s₁, -, h⟩
    · exact flush_error hflush
    · rcases andThen_error h with hrecv | ⟨_, _, -, h⟩
      · exact recvReply_error hrecv
      · cases h

theorem opLoop_error {α : Type} {pipelineDepth : Nat} {onReply : Op → OpReply → α → α} :
    ∀ {left : Nat} {its : Nat → Iteration} {next : List Op} {s s' : Sending} {acc : α}
      {e : Failure}, opLoop pipelineDepth onReply left its next s acc = some (.error e, s') →
        e = .disconnect
  | 0, _, _, _, _, _, _, h => by cases h
  | _ + 1, _, _, _, _, _, _, h => by
    rw [opLoop] at h
    rcases andThen_error h with hturn | ⟨_, _, -, h⟩
    · exact turn_error hturn
    · exact opLoop_error h

theorem load_error {cfg : RunConfig} {objects : List Object} {its : Nat → Iteration} {o : Outcome}
    {s s' : Sending} {e : Failure} (h : load cfg objects its o s = some (.error e, s')) :
    e = .disconnect := by
  unfold load at h
  simp only at h
  split at h
  · rcases andThen_error h with hloop | ⟨_, _, -, h⟩
    · exact opLoop_error hloop
    · cases h
  · cases h

theorem store_error {cfg : RunConfig} {n : Nat} {exist : List Bool} {its : Nat → Iteration}
    {o : Outcome} {s s' : Sending} {e : Failure}
    (h : store cfg n exist its o s = some (.error e, s')) : e = .disconnect := by
  unfold store at h
  simp only at h
  split at h
  · rcases andThen_error h with hloop | ⟨_, _, -, h⟩
    · exact opLoop_error hloop
    · cases h
  · cases h

/-- A request ends as closed by its lookup only, before it tried anything. -/
theorem runRequest_closed {cfg : RunConfig} {req : Prompt} {ex : Exchange} {s s' : Sending}
    (h : runRequest cfg req ex s = some (.error .closed, s')) : s'.tried = s.tried := by
  unfold runRequest at h
  split at h
  · cases h
  · rcases andThen_error h with hlookup | ⟨exist, s₁, -, h⟩
    · have hafter := congrArg Prod.snd (Option.some.inj hlookup)
      rw [← show _ = s' from hafter]
      exact lookup_tried _ _ _ s
    · rcases andThen_error h with hload | ⟨o, s₂, -, h⟩
      · cases load_error hload
      · rcases andThen_error h with hstore | ⟨o', s₃, -, h⟩
        · cases store_error hstore
        · cases h

/-! ## The replay -/

section Replay

variable [DecidableEq W] [DecidableEq C] [Fintype W] [Fintype C]

omit [Fintype W] [Fintype C] in
/-- A request that does not end as closed is finished. -/
theorem done_marked {s t : KvState W C} {c : C} (hpc : (s.conn c).pc = .running job)
    {result : Except Failure Unit} (hresult : result ≠ .error .closed)
    (hstep : kvStep cfg s (.done c result) = some t) :
    job.index ∈ t.marked ∧ (KvStep.done (W := W) c result).notes cfg s = [] := by
  simp only [kvStep, hpc] at hstep
  split at hstep
  · exact absurd rfl hresult
  all_goals
    cases hstep
    exact ⟨List.mem_append_right _ (List.mem_singleton_self job.index), rfl⟩

omit [DecidableEq W] [Fintype W] [Fintype C] in
/-- The slots that wait are empty. -/
theorem complete_none {s : KvState W C} (h : SlotsOk cfg s) (w : W) (c : C) :
    (s.conn c).pc = .waiting .new ∧ c ∈ (s.dispatch w).waiting ∨ c ∉ (s.dispatch w).waiting := by
  by_cases hc : c ∈ (s.dispatch w).waiting
  · exact .inl ⟨(h.waits w c hc).2, hc⟩
  · exact .inr hc

omit [Fintype W] [Fintype C] in
/-- `close` completes empty slots. -/
theorem close_pc {s : KvState W C} (h : SlotsOk cfg s) (w : W) (c : C) :
    (∀ k, ((s.close w).conn c).pc.occurs k = (s.conn c).pc.occurs k) ∧
      ((s.close w).conn c).pc.jobs = (s.conn c).pc.jobs := by
  rcases complete_none h w c with ⟨hpc, hc⟩ | hc
  · simp [KvState.close, hc, hpc, ConnPc.complete, KvSlot.complete, KvSlot.new, ConnPc.jobs,
      ConnPc.slotJobs, ConnPc.runningJobs]
  · simp [KvState.close, hc]

omit [Fintype W] [Fintype C] in
theorem close_slots {s : KvState W C} (h : SlotsOk cfg s) (w : W) :
    SlotsOk cfg (s.close w) := by
  refine ⟨fun v => ?_, fun v c hc => ?_⟩
  · by_cases hv : v = w
    · subst hv
      simp [KvState.close, KvState.setDispatch]
    · simpa [KvState.close, KvState.setDispatch, hv] using h.nodup v
  · by_cases hv : v = w
    · subst hv
      simp [KvState.close, KvState.setDispatch] at hc
    · have hold : c ∈ (s.dispatch v).waiting := by
        simpa [KvState.close, KvState.setDispatch, hv] using hc
      obtain ⟨hworker, hpc⟩ := h.waits v c hold
      have hother : c ∉ (s.dispatch w).waiting := fun hw =>
        hv (hworker.symm.trans (h.waits w c hw).1)
      exact ⟨hworker, by simpa [KvState.close, hother] using hpc⟩

theorem close_moves {s : KvState W C} (h : SlotsOk cfg s) (w : W) :
    WorkerMoves cfg s (s.close w) := by
  refine ⟨close_slots h w, rfl, rfl, rfl, rfl, fun k => ?_⟩
  have hset := total_setDispatch k s w
    { s.dispatch w with closed := true, waiting := [] }
  have hconn : ∀ c, ((s.close w).conn c).pc.occurs k = (s.conn c).pc.occurs k :=
    fun c => (close_pc h w c).1 k
  have hsum := Finset.sum_congr rfl fun c (_ : c ∈ Finset.univ) => hconn c
  have hsame : total (s.close w) k =
      total (s.setDispatch w { s.dispatch w with closed := true, waiting := [] }) k := by
    unfold total
    rw [hsum]
    rfl
  rw [hsame]
  exact Nat.add_right_cancel hset

theorem close_inv {s : KvState W C} (h : HandInv cfg s log) (w : W) :
    HandInv cfg (s.close w) log := by
  have hok := h.dispatchers w
  refine h.stay (advances_of (h.kv.moves (close_moves h.kv.slots w))
    (setDispatch_ok h.dispatchers ⟨hok.1, hok.2.ordered, hok.2.past⟩) rfl (List.Sublist.refl _)
    (List.prefix_refl _)) ⟨?_, fun c job hjob => ?_⟩
  · have hstay := stays_setDispatch (s := s) (v := w)
      (d := { s.dispatch w with closed := true, waiting := [] }) rfl
    exact hstay.held
  · rwa [← (close_pc h.kv.slots w c).2]

theorem leave_inv {s : KvState W C} {c : C} (h : HandInv cfg s log)
    (hpc : (s.conn c).pc = .top) : HandInv cfg (leave cfg s c) log := by
  have hmoves : WorkerMoves cfg s (leave cfg s c) :=
    leave_moves h.kv.slots (by simp [hpc]) fun k => by simp [hpc]
  exact h.stay (advances_of (h.kv.moves hmoves) (leave_ok h.dispatchers) rfl
    (List.Sublist.refl _) (List.prefix_refl _)) (stays_leave cfg s c)

/-- **The step lemma.** -/
theorem replayStep_inv {cfg : ReplayConfig W C} {s t : Replay W C} {e : ReplayStep W C}
    (h : HandInv cfg.toKvConfig s.kv s.log) (hstep : replayStep cfg s e = some t) :
    HandInv cfg.toKvConfig t.kv t.log := by
  cases e with
  | work e =>
    simp only [replayStep] at hstep
    split at hstep
    · obtain ⟨kv, hkv, rfl⟩ := Option.map_eq_some_iff.mp hstep
      obtain ⟨hmoves, hadvances⟩ := kvStep_spec h.kv h.dispatchers hkv
      exact h.moves hadvances hmoves
    · cases hstep
  | run c ex =>
    simp only [replayStep] at hstep
    split at hstep
    · rename_i job hpc
      split at hstep
      · rename_i result after hrun
        obtain ⟨kv, hkv, rfl⟩ := Option.map_eq_some_iff.mp hstep
        obtain ⟨hmoves, hadvances⟩ := kvStep_spec h.kv h.dispatchers hkv
        have hjob : job ∈ (s.kv.conn c).pc.jobs := by
          simp [hpc, ConnPc.jobs, ConnPc.slotJobs, ConnPc.runningJobs]
        by_cases htried : after.tried = (s.sends c).tried
        · have hnone : triedNotes s c job after = [] := by simp [triedNotes, htried]
          simp only [hnone, List.append_nil]
          exact h.moves hadvances hmoves
        · have hclosed : result.map (fun _ => ()) ≠ .error .closed := by
            rintro hmap
            cases result with
            | ok o => cases hmap
            | error failure =>
              cases hmap
              exact htried (runRequest_closed hrun)
          obtain ⟨hmarked, hnotes⟩ := done_marked hpc hclosed hkv
          have hsome : triedNotes s c job after = [⟨c, job.index, .tried⟩] := by
            simp [triedNotes, htried]
          rw [hnotes] at hmoves
          cases hmoves with
          | stay hstay =>
            simp only [hsome, hnotes, List.append_nil]
            exact h.tries hadvances hjob hstay hmarked
      · cases hstep
    · cases hstep
  | stop =>
    cases hstep
    exact h
  | close w =>
    simp only [replayStep] at hstep
    split at hstep <;> cases hstep
    exact close_inv h w
  | quit c =>
    simp only [replayStep] at hstep
    split at hstep
    · rename_i hpc
      split at hstep <;> cases hstep
      exact leave_inv h hpc
    · cases hstep

/-- **Hand-backs are bounded and safe.** In every run, a request is handed to a connection at most
`max connections 1 + 2` times, and handed back at most `max connections 1` times unsent and once
with its lookup sent; it is not handed back after it tried a GET or SET; the stamps in `returned`
are ordered, and the front-only loop of a dispatcher with no connection live fails exactly the
requests whose stamp is below `connectFailures`. -/
theorem handBacks_bounded (cfg : ReplayConfig W C) (es : List (ReplayStep W C)) (s : Replay W C)
    (hrun : Exec.run (replayStep cfg) (.init cfg) es = some s) :
    (∀ n ∈ s.log,
      times s.log n.index .handed ≤ max (cfg.connections (cfg.worker n.conn)) 1 + 2 ∧
        times s.log n.index (.back .unsent) ≤ max (cfg.connections (cfg.worker n.conn)) 1 ∧
        times s.log n.index (.back .lookupSent) ≤ 1) ∧
      (s.log.Pairwise fun a b =>
        a.event = .tried → b.index = a.index → ∀ why, b.event ≠ .back why) ∧
      (∀ w, ((s.kv.dispatch w).returned.map (·.2)).Pairwise (· ≤ ·)) ∧
      ∀ w now d, d = (s.kv.dispatch w).parkPending now → d.live = 0 →
          d.failed = (d.returned.filter fun r => decide (r.2 < d.connectFailures)).map (·.1) ∧
            d.failReturned.returned =
              d.returned.filter fun r => !decide (r.2 < d.connectFailures) := by
  have h : HandInv cfg.toKvConfig s.kv s.log :=
    Exec.run_inv (I := fun s => HandInv cfg.toKvConfig s.kv s.log) replayStep_inv
      (handInv_init _) hrun
  refine ⟨fun n hn => ?_, h.ordered, fun w => (h.dispatchers w).2.ordered,
    fun w now d hd hlive => ?_⟩
  · have hwithin := h.within n hn
    exact ⟨hwithin.handed, hwithin.unsent, hwithin.lookupSent⟩
  · subst hd
    exact failed_eq_filter (KvDispatcher.parkPending_stamps (h.dispatchers w).2 now) hlive

end Replay

/-! ## A request handed back twice -/

def oneReplay : ReplayConfig Unit Unit where
  worker := id
  connections _ := 1
  spawned _ := true
  scheduledAt _ _ := none
  requests := [⟨0, 0⟩]
  requests_index := rfl
  run := threeObjects
  prompt _ := ⟨48, [7, 8, 9]⟩

/-- The connection is closed when the request reaches it; then while its EXISTS are unanswered;
the third time the request runs. -/
def oneReplayRun : List (ReplayStep Unit Unit) :=
  [.work .read, .work .send, .work .stopReader, .work (.startAt 0),
    .work (.connect ()), .work (.ask ()), .work (.dispatch () 0 0), .work (.dispatch () 0 0),
    .work (.take () false),
    .work (.connect ()), .work (.ask ()), .work (.dispatch () 0 0), .work (.take () true),
    .run () ⟨0, .connectionClosed, fun _ => answering, fun _ => answering⟩,
    .work (.connect ()), .work (.ask ()), .work (.dispatch () 0 0), .work (.take () true),
    .run () ⟨0, allExist, fun _ => answering, fun _ => answering⟩]

theorem handBacks_bounded_oneReplay : ∃ s,
    Exec.run (replayStep oneReplay) (.init oneReplay) oneReplayRun = some s ∧
      s.log.map Note.event = [.handed, .back .unsent, .handed, .back .lookupSent, .handed, .tried] ∧
      ∀ n ∈ s.log, times s.log n.index .handed ≤ 1 + 2 :=
  ⟨_, rfl, rfl, fun n hn => ((handBacks_bounded oneReplay oneReplayRun _ rfl).1 n hn).1⟩

end KvReplay
