import Cachecannon.Lib.Exec
import Cachecannon.Lib.Ledger
import Cachecannon.Worker.Routed

/-!
# No routed request is stranded

A push spends one wake, so the queue of a node stays served as long as every woken connection
takes a request (or finds the queue empty): while some connection sleeps on the queue, there are
at most as many requests queued as connections woken and not yet run (`Served.count`). A woken
connection breaks this when it returns (stopped, or closed while idle), or when its backfills
fill its pipeline or fail before it comes to the queue. `RoutedKeeps` rules these out, and
`no_stranded_request` is then the result over whole runs; `stranded_after_eof` is a run that
strands a request.

* `routedFire_pops`: a fire loop that comes to the queue takes a request.
* `push_served`, `pass_spec`, `poll_served`: the step lemmas.
-/

namespace Worker

/-! ## The fire loop -/

theorem routedFire_length_le (room : Nat) (turns : Nat → RoutedTurn) (s : RoutedFire) :
    (routedFire room turns s).2.requests.length ≤ s.requests.length := by
  induction room generalizing turns s with
  | zero => exact Nat.le_refl _
  | succ room ih =>
    rw [routedFire]
    split
    · split
      · exact ih _ _
      · exact Nat.le_refl _
    · split
      · exact Nat.le_refl _
      · rename_i key requests hr
        rw [hr, List.length_cons]
        split
        · exact Nat.le_succ_of_le (ih _ _)
        · exact Nat.le_succ _

/-- The fire loop comes to the node's queue before the pipeline is full: there is a turn at which
no backfill is sent, and the backfills sent before it all succeed. -/
def ComesToQueue (room : Nat) (turns : Nat → RoutedTurn) (backfills : Nat) : Prop :=
  ∃ i < room, (backfills ≤ i ∨ (turns i).funded = false) ∧
    ∀ j < i, (turns j).fire = .sent

theorem routedFire_pops {room : Nat} {turns : Nat → RoutedTurn} {s : RoutedFire}
    (h : ComesToQueue room turns s.backfill.length) (hr : s.requests ≠ []) :
    (routedFire room turns s).2.requests.length < s.requests.length := by
  induction room generalizing turns s with
  | zero =>
    obtain ⟨i, hi, -⟩ := h
    omega
  | succ room ih =>
    obtain ⟨i, hi, hturn, hsent⟩ := h
    rw [routedFire]
    split
    · rename_i hback
      simp only [Bool.and_eq_true, decide_eq_true_eq] at hback
      -- a backfill goes first, so the queue is reached at a later turn
      obtain ⟨i, rfl⟩ : ∃ k, i = k + 1 := by
        cases i with
        | zero =>
          rcases hturn with hturn | hturn
          · exact absurd (List.length_eq_zero_iff.1 (Nat.le_zero.1 hturn)) hback.1
          · rw [hback.2] at hturn
            cases hturn
        | succ k => exact ⟨k, rfl⟩
      rw [hsent 0 (by omega)]
      refine ih ⟨i, by omega, ?_, fun j hj => hsent (j + 1) (by omega)⟩ hr
      simp only [List.length_dropLast]
      exact hturn.imp_left fun hle => by omega
    · split
      · rename_i hnil
        exact absurd hnil hr
      · rename_i key requests hcons
        rw [hcons, List.length_cons]
        split
        · exact Nat.lt_succ_of_le (routedFire_length_le _ _ _)
        · exact Nat.lt_succ_self _

/-! ## The invariant -/

variable {C : Type} [DecidableEq C]

/-- A connection and its wait: a live entry is in the list, only a suspended connection has a live
entry or was woken, and never both, and one that waits has room for a batch. -/
structure ConnOk (cfg : RoutedConfig) (waiters : List (C × Nat)) (c : C) (v : RoutedConn) :
    Prop where
  listed : v.live = true → (c, v.entry) ∈ waiters
  waiting : v.wait = none → v.live = false ∧ v.woken = false
  asleep : v.live = true → v.woken = false
  room : v.wait = some .reply → cfg.batchSize ≤ cfg.pipelineDepth - v.pending
  idle : v.wait = some .idle → v.pending = 0

def Waits (cfg : RoutedConfig) (s : NodeState C) : Prop :=
  ∀ c, ConnOk cfg s.waiters c (s.conn c)

def wokenCount [Fintype C] (s : NodeState C) : Nat := ∑ c, (s.conn c).woken.toNat

def Sleeps (s : NodeState C) : Prop := ∃ c, (s.conn c).live = true

/-- **The invariant.** While some connection sleeps on the queue before it is closed, every queued
request has a woken connection coming for it. -/
structure Served [Fintype C] (cfg : RoutedConfig) (s : NodeState C) : Prop where
  waits : Waits cfg s
  count : s.closed = false → Sleeps s → s.requests.length ≤ wokenCount s

@[simp] theorem setConn_conn_self (s : NodeState C) (c : C) (v : RoutedConn) :
    (s.setConn c v).conn c = v := by simp [NodeState.setConn]

@[simp] theorem setConn_conn_ne (s : NodeState C) {c d : C} (v : RoutedConn) (h : d ≠ c) :
    (s.setConn c v).conn d = s.conn d := by simp [NodeState.setConn, h]

@[simp] theorem setConn_requests (s : NodeState C) (c : C) (v : RoutedConn) :
    (s.setConn c v).requests = s.requests := rfl

@[simp] theorem setConn_waiters (s : NodeState C) (c : C) (v : RoutedConn) :
    (s.setConn c v).waiters = s.waiters := rfl

theorem wokenCount_frame [Fintype C] {s t : NodeState C} {c : C}
    (h : ∀ d, d ≠ c → t.conn d = s.conn d) :
    wokenCount t + (s.conn c).woken.toNat = wokenCount s + (t.conn c).woken.toNat := by
  have hsum := Ledger.sum_map_update_add (fun v : RoutedConn => v.woken.toNat) s.conn c (t.conn c)
  have hconn : t.conn = Function.update s.conn c (t.conn c) := Function.eq_update_iff.2 ⟨rfl, h⟩
  rw [← hconn] at hsum
  exact hsum

/-- One connection changes, and the list keeps the other connections' live entries. -/
theorem Waits.set {cfg : RoutedConfig} {s t : NodeState C} (h : Waits cfg s) (c : C)
    {v : RoutedConn} (hconn : t.conn = s.conn)
    (hlisted : ∀ d, d ≠ c → (s.conn d).live = true → (d, (s.conn d).entry) ∈ t.waiters)
    (hv : ConnOk cfg t.waiters c v) : Waits cfg (t.setConn c v) := by
  intro d
  by_cases hd : d = c
  · subst hd
    simpa using hv
  · obtain ⟨-, hwaiting, hasleep, hroom, hidle⟩ := h d
    simp only [setConn_conn_ne _ _ hd, setConn_waiters, hconn]
    exact ⟨hlisted d hd, hwaiting, hasleep, hroom, hidle⟩

omit [DecidableEq C] in
theorem connOk_running {cfg : RoutedConfig} {waiters : List (C × Nat)} {c : C} {v : RoutedConn}
    (hwait : v.wait = none) (hlive : v.live = false) (hwoken : v.woken = false) :
    ConnOk cfg waiters c v := by
  constructor <;> simp [hwait, hlive, hwoken]

theorem Waits.endWait {cfg : RoutedConfig} {s : NodeState C} (h : Waits cfg s) (c : C) :
    Waits cfg (s.endWait c) :=
  h.set c rfl (fun d _ => (h d).listed) (connOk_running rfl rfl rfl)

theorem Waits.register {cfg : RoutedConfig} {s : NodeState C} (h : Waits cfg s) (c : C)
    (kind : WaitKind)
    (hroom : kind = .reply → cfg.batchSize ≤ cfg.pipelineDepth - (s.conn c).pending)
    (hidle : kind = .idle → (s.conn c).pending = 0) : Waits cfg (s.register cfg c kind) := by
  refine h.set c rfl (fun d _ hd => List.mem_append_left _ ?_) ?_
  · split
    · exact List.mem_filter.2 ⟨(h d).listed hd, by simp [NodeState.entryLive, hd]⟩
    · exact (h d).listed hd
  · constructor <;> simp
    · exact hroom
    · exact hidle

/-! ## Push -/

theorem wakeFirst_cases (s : NodeState C) (ws : List (C × Nat)) :
    ((∀ w ∈ ws, s.entryLive w = false) ∧ s.wakeFirst ws = { s with waiters := [] }) ∨
      ∃ pre w post, ws = pre ++ w :: post ∧ (∀ x ∈ pre, s.entryLive x = false) ∧
        s.entryLive w = true ∧ s.wakeFirst ws = { s with waiters := post }.setConn w.1
          { s.conn w.1 with live := false, woken := true } := by
  induction ws with
  | nil => exact .inl ⟨by simp, rfl⟩
  | cons w ws ih =>
    rw [NodeState.wakeFirst]
    by_cases hw : s.entryLive w = true
    · exact .inr ⟨[], w, ws, rfl, by simp, hw, by rw [if_pos hw]⟩
    · rw [if_neg hw]
      have hw' : s.entryLive w = false := by simpa using hw
      rcases ih with ⟨hdead, heq⟩ | ⟨pre, x, post, rfl, hpre, hx, heq⟩
      · exact .inl ⟨by simpa [hw'] using hdead, heq⟩
      · exact .inr ⟨w :: pre, x, post, rfl, by simpa [hw'] using hpre, hx, heq⟩

theorem push_served [Fintype C] {cfg : RoutedConfig} {s : NodeState C} (h : Served cfg s)
    (key : Nat) : Served cfg (s.push cfg key) := by
  unfold NodeState.push
  split
  · exact h
  rcases wakeFirst_cases { s with requests := s.requests ++ [key] } s.waiters with
    ⟨hdead, heq⟩ | ⟨pre, w, post, hws, hpre, hw, heq⟩
  · -- nobody sleeps
    have hnone : ∀ c, (s.conn c).live = false := by
      intro c
      by_contra hl
      have hl : (s.conn c).live = true := by simpa using hl
      have := hdead _ ((h.waits c).listed hl)
      simp [NodeState.entryLive, hl] at this
    rw [heq]
    refine ⟨fun c => ?_, fun _ ⟨c, hc⟩ => by simp [hnone c] at hc⟩
    obtain ⟨-, hwaiting, hasleep, hroom, hidle⟩ := h.waits c
    exact ⟨fun hc => by simp [hnone c] at hc, hwaiting, hasleep, hroom, hidle⟩
  · -- `w` is woken for this request
    simp only [NodeState.entryLive, Bool.and_eq_true, decide_eq_true_eq] at hw
    obtain ⟨hlive, hentry⟩ := hw
    obtain ⟨-, hwaiting, hasleep, hroom, hidle⟩ := h.waits w.1
    rw [heq]
    refine ⟨h.waits.set w.1 rfl (fun d hd hl => ?_) ⟨nofun, fun hn => ?_, nofun, hroom, hidle⟩,
      fun hopen _ => ?_⟩
    · have hmem := (h.waits d).listed hl
      rw [hws] at hmem
      rcases List.mem_append.1 hmem with hmem | hmem
      · have := hpre _ hmem
        simp [NodeState.entryLive, hl] at this
      · rcases List.mem_cons.1 hmem with hmem | hmem
        · exact absurd (congrArg Prod.fst hmem) hd
        · exact hmem
    · rw [(hwaiting hn).1] at hlive
      cases hlive
    · have hcount := h.count hopen ⟨w.1, hlive⟩
      have hsum := wokenCount_frame (s := s) (c := w.1)
        (t := { s with requests := s.requests ++ [key], waiters := post }.setConn w.1
          { s.conn w.1 with live := false, woken := true })
        fun d hd => setConn_conn_ne _ _ hd
      simp only [setConn_conn_self, hasleep hlive, Bool.toNat_false, Bool.toNat_true] at hsum
      simp only [setConn_requests, List.length_append, List.length_singleton]
      omega

/-! ## Running a task -/

/-- What one run of the task of `c` does: only `c` changes, requests are only taken off the queue,
and `c` sleeps afterwards only if it left the queue empty. -/
structure Ran (cfg : RoutedConfig) (c : C) (s t : NodeState C) : Prop where
  waits : Waits cfg t
  closed : t.closed = s.closed
  other : ∀ d, d ≠ c → t.conn d = s.conn d
  woken : (t.conn c).woken = false
  live : (t.conn c).live = true → t.requests = []
  requests : t.requests.length ≤ s.requests.length

omit [DecidableEq C] in
theorem Ran.trans {cfg : RoutedConfig} {c : C} {s t u : NodeState C} (h : Ran cfg c s t)
    (h' : Ran cfg c t u) : Ran cfg c s u :=
  ⟨h'.waits, h'.closed.trans h.closed, fun d hd => (h'.other d hd).trans (h.other d hd), h'.woken,
    h'.live, h'.requests.trans h.requests⟩

theorem Ran.served [Fintype C] {cfg : RoutedConfig} {c : C} {s t : NodeState C}
    (h : Ran cfg c s t) (hs : Served cfg s)
    (hpop : t.requests = [] ∨ t.requests.length + (s.conn c).woken.toNat ≤ s.requests.length) :
    Served cfg t := by
  refine ⟨h.waits, fun hopen ⟨d, hd⟩ => ?_⟩
  rcases hpop with hnil | hpop
  · simp [hnil]
  by_cases hdc : d = c
  · subst hdc
    simp [h.live hd]
  · rw [h.other d hdc] at hd
    have hcount := hs.count (h.closed.symm.trans hopen) ⟨d, hd⟩
    have hsum := wokenCount_frame h.other
    simp only [h.woken, Bool.toNat_false] at hsum
    omega

theorem ran_setConn {cfg : RoutedConfig} {s : NodeState C} (h : Waits cfg s) (c : C)
    {v : RoutedConn} {requests : List Nat} (hv : v.wait = none ∧ v.live = false ∧ v.woken = false)
    (hr : requests.length ≤ s.requests.length) :
    Ran cfg c s ({ s with requests }.setConn c v) := by
  obtain ⟨hwait, hlive, hwoken⟩ := hv
  exact ⟨h.set c rfl (fun d _ => (h d).listed) (connOk_running hwait hlive hwoken), rfl,
    fun d hd => setConn_conn_ne _ _ hd, by simpa using hwoken, by simp [hlive], hr⟩

theorem ran_register {cfg : RoutedConfig} {s : NodeState C} (h : Waits cfg s) (c : C)
    (kind : WaitKind) (hnil : s.requests = [])
    (hroom : kind = .reply → cfg.batchSize ≤ cfg.pipelineDepth - (s.conn c).pending)
    (hidle : kind = .idle → (s.conn c).pending = 0) : Ran cfg c s (s.register cfg c kind) :=
  ⟨h.register c kind hroom hidle, rfl, fun d hd => setConn_conn_ne _ _ hd,
    by simp [NodeState.register], fun _ => hnil, Nat.le_refl _⟩

theorem ran_endWait {cfg : RoutedConfig} {s : NodeState C} (h : Waits cfg s) (c : C) :
    Ran cfg c s (s.endWait c) :=
  ⟨h.endWait c, rfl, fun d hd => setConn_conn_ne _ _ hd, by simp [NodeState.endWait],
    by simp [NodeState.endWait], Nat.le_refl _⟩

omit [DecidableEq C] in
theorem ran_refl {cfg : RoutedConfig} {s : NodeState C} (h : Waits cfg s) {c : C}
    (hlive : (s.conn c).live = true → s.requests = []) (hwoken : (s.conn c).woken = false) :
    Ran cfg c s s := ⟨h, rfl, fun _ _ => rfl, hwoken, hlive, Nat.le_refl _⟩

theorem ran_enterWait {cfg : RoutedConfig} {s : NodeState C} (h : Waits cfg s) (c : C)
    (kind : WaitKind) (replyReady : Bool) (hrun : (s.conn c).wait = none)
    (hroom : kind = .reply → cfg.batchSize ≤ cfg.pipelineDepth - (s.conn c).pending)
    (hidle : kind = .idle → (s.conn c).pending = 0) :
    Ran cfg c s (enterWait cfg s c kind replyReady) := by
  obtain ⟨hlive, hwoken⟩ := (h c).waiting hrun
  unfold enterWait
  split
  · exact ran_refl h (by simp [hlive]) hwoken
  · rename_i hopen
    simp only [Bool.or_eq_true, decide_eq_true_eq, not_or, not_not] at hopen
    have hreg := ran_register h c kind hopen.2 hroom hidle
    split
    · exact hreg.trans (ran_endWait hreg.waits c)
    · exact hreg

theorem passFire_requests (cfg : RoutedConfig) (phase : Phase) (s : RoutedFire)
    (input : PassInput) : (passFire cfg phase s input).2.requests.length ≤ s.requests.length ∧
      (phase.sends = true → cfg.batchSize ≤ cfg.pipelineDepth - s.pending →
        ComesToQueue (cfg.pipelineDepth - s.pending) input.turns s.backfill.length →
        s.requests ≠ [] → (passFire cfg phase s input).2.requests.length < s.requests.length) := by
  have hflush : (passFire cfg phase s input).2.requests =
      (if phase.sends && cfg.batchSize ≤ cfg.pipelineDepth - s.pending then
          routedFire (cfg.pipelineDepth - s.pending) input.turns s
        else if phase = .prefill then (false, { s with pending := input.prefilled })
        else (false, s)).2.requests := by
    unfold passFire
    cases input.flush <;> rfl
  rw [hflush]
  constructor
  · split
    · exact routedFire_length_le _ _ _
    · split <;> exact Nat.le_refl _
  · intro hphase hbatch hcomes hne
    rw [if_pos (by simp [hphase, hbatch])]
    exact routedFire_pops hcomes hne

theorem ran_pass {cfg : RoutedConfig} {s : NodeState C} (h : Waits cfg s) (c : C)
    (input : PassInput) (hrun : (s.conn c).wait = none) : Ran cfg c s (pass cfg s c input) := by
  obtain ⟨hlive, hwoken⟩ := (h c).waiting hrun
  unfold pass
  simp only
  split
  · exact ran_setConn h c ⟨hrun, hlive, hwoken⟩ (Nat.le_refl _)
  · rcases hout : passFire cfg s.phase ⟨(s.conn c).pending, (s.conn c).backfill, s.requests⟩ input
      with ⟨sendFailed, out⟩
    have hlen := (passFire_requests cfg s.phase
      ⟨(s.conn c).pending, (s.conn c).backfill, s.requests⟩ input).1
    rw [hout] at hlen
    have hset : Ran cfg c s ({ s with requests := out.requests }.setConn c
        { s.conn c with pending := out.pending, backfill := out.backfill }) :=
      ran_setConn h c ⟨hrun, hlive, hwoken⟩ hlen
    simp only
    split
    · exact hset
    · split
      · rename_i hpending
        exact hset.trans (ran_enterWait hset.waits c .idle input.replyReady (by simpa using hrun)
          nofun (by simpa using hpending))
      · split
        · rename_i hroom
          simp only [Bool.and_eq_true, decide_eq_true_eq] at hroom
          exact hset.trans (ran_enterWait hset.waits c .reply input.replyReady (by simpa using hrun)
            (by simpa using hroom.1) nofun)
        · exact hset

/-- A pass that is not left at its top and comes to the queue takes a request off it. -/
theorem pass_pops {cfg : RoutedConfig} {s : NodeState C} (h : Waits cfg s) (c : C)
    (input : PassInput) (hrun : (s.conn c).wait = none) (hphase : s.phase.sends = true)
    (htop : ¬ ((s.conn c).pending = 0 ∧ input.alive = false))
    (hbatch : cfg.batchSize ≤ cfg.pipelineDepth - (s.conn c).pending)
    (hcomes : ComesToQueue (cfg.pipelineDepth - (s.conn c).pending) input.turns
      (s.conn c).backfill.length) (hne : s.requests ≠ []) :
    (pass cfg s c input).requests.length < s.requests.length := by
  obtain ⟨hlive, hwoken⟩ := (h c).waiting hrun
  have hstop : s.phase.shouldStop = false := by
    cases hp : s.phase <;> simp [hp, Phase.sends, Phase.shouldStop] at hphase ⊢
  have hstay : (s.phase.shouldStop || ((s.conn c).pending = 0 && !input.alive)) = false := by
    simpa [hstop] using htop
  have hpops := (passFire_requests cfg s.phase
    ⟨(s.conn c).pending, (s.conn c).backfill, s.requests⟩ input).2 hphase hbatch hcomes hne
  unfold pass
  simp only [hstay, Bool.false_eq_true, if_false]
  rcases hout : passFire cfg s.phase ⟨(s.conn c).pending, (s.conn c).backfill, s.requests⟩ input
    with ⟨sendFailed, out⟩
  rw [hout] at hpops
  have hset : Ran cfg c s ({ s with requests := out.requests }.setConn c
      { s.conn c with pending := out.pending, backfill := out.backfill }) :=
    ran_setConn h c ⟨hrun, hlive, hwoken⟩ (Nat.le_of_lt hpops)
  simp only
  split
  · exact hpops
  · split
    · rename_i hpending
      exact Nat.lt_of_le_of_lt (ran_enterWait hset.waits c .idle input.replyReady
        (by simpa using hrun) nofun (by simpa using hpending)).requests hpops
    · split
      · rename_i hroom
        simp only [Bool.and_eq_true, decide_eq_true_eq] at hroom
        exact Nat.lt_of_le_of_lt (ran_enterWait hset.waits c .reply input.replyReady
          (by simpa using hrun) (by simpa using hroom.1) nofun).requests hpops
      · exact hpops

theorem ran_poll {cfg : RoutedConfig} {s : NodeState C} (h : Waits cfg s) (c : C)
    (kind : WaitKind) (event : WaitEvent) (input : PassInput)
    (hwait : (s.conn c).wait = some kind) :
    Ran cfg c s (poll cfg s c kind event input) := by
  have hend := ran_endWait h c
  unfold poll
  split
  · exact hend.trans (ran_pass hend.waits c input (by simp [NodeState.endWait]))
  · rename_i hopen
    simp only [Bool.or_eq_true, decide_eq_true_eq, not_or, not_not] at hopen
    -- still registered, or registered again
    have hwaits : Ran cfg c s (if (s.conn c).live then s else s.register cfg c kind) := by
      split
      · rename_i hlive
        exact ran_refl h (fun _ => hopen.2) ((h c).asleep hlive)
      · exact ran_register h c kind hopen.2 (fun hk => (h c).room (hk ▸ hwait))
          fun hk => (h c).idle (hk ▸ hwait)
    simp only
    split
    · exact hwaits.trans (ran_endWait hwaits.waits c)
    · have hended := hwaits.trans (ran_endWait hwaits.waits c)
      exact hended.trans (ran_setConn hended.waits c (by simp [NodeState.endWait]) (Nat.le_refl _))
    · exact hwaits

/-- A woken connection that finds a request queued takes one: it does not return at the top of
its loop, and its backfills neither fill its pipeline nor fail before it comes to the queue. -/
def RoutedKeeps (cfg : RoutedConfig) (s : NodeState C) : RoutedStep C → Prop
  | .poll c _ input => (s.conn c).woken = true → s.requests ≠ [] →
      s.phase.sends = true ∧ ¬ ((s.conn c).pending = 0 ∧ input.alive = false) ∧
        ComesToQueue (cfg.pipelineDepth - (s.conn c).pending) input.turns
          (s.conn c).backfill.length
  | _ => True

theorem batchSize_le {cfg : RoutedConfig} (h : 0 < cfg.pipelineDepth) :
    cfg.batchSize ≤ cfg.pipelineDepth := by
  unfold RoutedConfig.batchSize
  omega

theorem poll_served [Fintype C] {cfg : RoutedConfig} {s : NodeState C} (h : Served cfg s) (c : C)
    (kind : WaitKind) (event : WaitEvent) (input : PassInput) (hwait : (s.conn c).wait = some kind)
    (hkeeps : RoutedKeeps cfg s (.poll c event input)) :
    Served cfg (poll cfg s c kind event input) := by
  have hran := ran_poll h.waits c kind event input hwait
  apply hran.served h
  by_cases hnil : s.requests = []
  · have := hran.requests
    rw [hnil] at this
    exact .inl (List.length_eq_zero_iff.1 (Nat.le_zero.1 this))
  refine .inr ?_
  cases hwoken : (s.conn c).woken with
  | false => simpa using hran.requests
  | true =>
    obtain ⟨hphase, htop, hcomes⟩ := hkeeps hwoken hnil
    have hbatch : cfg.batchSize ≤ cfg.pipelineDepth - (s.conn c).pending := by
      cases kind with
      | reply => exact (h.waits c).room hwait
      | idle =>
        obtain ⟨i, hi, -⟩ := hcomes
        rw [(h.waits c).idle hwait] at hi ⊢
        exact batchSize_le (by omega)
    have hend := ran_endWait h.waits c
    have hpops := pass_pops hend.waits c input (by simp [NodeState.endWait]) hphase
      (by simpa [NodeState.endWait] using htop) (by simpa [NodeState.endWait] using hbatch)
      (by simpa [NodeState.endWait] using hcomes) hnil
    unfold poll
    rw [if_pos (by simp [hnil])]
    exact hpops

theorem close_served [Fintype C] {cfg : RoutedConfig} {s : NodeState C} (h : Served cfg s) :
    Served cfg s.close := by
  refine ⟨fun c => ?_, nofun⟩
  obtain ⟨hlisted, hwaiting, hasleep, hroom, hidle⟩ := h.waits c
  by_cases hlive : (s.conn c).live = true
  · have hany : (s.waiters.any fun w => w.1 = c && s.entryLive w) = true :=
      List.any_eq_true.2 ⟨_, hlisted hlive, by simp [NodeState.entryLive, hlive]⟩
    have hwait : (s.conn c).wait ≠ none := fun hn => by
      rw [(hwaiting hn).1] at hlive
      cases hlive
    simp only [NodeState.close, hany, if_true]
    exact ⟨nofun, fun hn => absurd hn hwait, nofun, hroom, hidle⟩
  · have hany : (s.waiters.any fun w => w.1 = c && s.entryLive w) = false := by
      rw [List.any_eq_false]
      rintro w - hw
      simp only [Bool.and_eq_true, decide_eq_true_eq, NodeState.entryLive] at hw
      exact hlive (hw.1 ▸ hw.2.1)
    simp only [NodeState.close, hany, Bool.false_eq_true, if_false]
    exact ⟨fun hl => absurd hl hlive, hwaiting, hasleep, hroom, hidle⟩

theorem routedStep_served [Fintype C] {cfg : RoutedConfig} {s t : NodeState C} {e : RoutedStep C}
    (h : Served cfg s) (hkeeps : RoutedKeeps cfg s e) (hstep : routedStep cfg s e = some t) :
    Served cfg t := by
  -- a connection that is not suspended was not woken, so it owes no request
  have hrunning : ∀ {c t}, (s.conn c).wait = none → Ran cfg c s t → Served cfg t := by
    intro c t hrun hran
    refine hran.served h (.inr ?_)
    rw [((h.waits c).waiting hrun).2]
    simpa using hran.requests
  cases e with
  | push key =>
    simp only [routedStep] at hstep
    split at hstep <;> cases hstep
    exact push_served h key
  | close =>
    cases hstep
    exact close_served h
  | setPhase phase =>
    cases hstep
    exact ⟨h.waits, h.count⟩
  | poll c event input =>
    simp only [routedStep, Option.map_eq_some_iff] at hstep
    obtain ⟨kind, hwait, rfl⟩ := hstep
    exact poll_served h c kind event input hwait hkeeps
  | pass c input =>
    simp only [routedStep] at hstep
    split at hstep <;> cases hstep
    rename_i hrun
    exact hrunning hrun (ran_pass h.waits c input hrun)
  | reply c miss =>
    simp only [routedStep] at hstep
    split at hstep <;> cases hstep
    rename_i hrun
    exact hrunning hrun.1 (ran_setConn h.waits c
      ⟨hrun.1, (h.waits c).waiting hrun.1⟩ (Nat.le_refl _))
  | disconnect c =>
    simp only [routedStep] at hstep
    split at hstep <;> cases hstep
    rename_i hrun
    exact hrunning hrun.1 (ran_setConn h.waits c
      ⟨hrun.1, (h.waits c).waiting hrun.1⟩ (Nat.le_refl _))

omit [DecidableEq C] in
theorem init_served [Fintype C] (cfg : RoutedConfig) (phase : Phase) (backfill : C → List Nat) :
    Served cfg (NodeState.init phase backfill) :=
  ⟨fun _ => connOk_running rfl rfl rfl, fun _ ⟨_, hc⟩ => by cases hc⟩

/-- A request is queued, a connection sleeps on the queue, and no connection was woken for it and
has yet to run. -/
def Stranded (s : NodeState C) : Prop :=
  s.requests ≠ [] ∧ (∃ w ∈ s.waiters, s.entryLive w = true) ∧ ∀ c, (s.conn c).woken = false

instance [Fintype C] (s : NodeState C) : Decidable (Stranded s) :=
  inferInstanceAs (Decidable (_ ∧ _ ∧ _))

/-- **No stranded request.** In every run whose woken connections take a request when they run,
no state before the queue is closed strands a request. -/
theorem no_stranded_request [Fintype C] (cfg : RoutedConfig) (phase : Phase)
    (backfill : C → List Nat) (es : List (RoutedStep C)) (s : NodeState C)
    (hrun : Exec.run (routedStep cfg) (.init phase backfill) es = some s)
    (hkeeps : Exec.Meets (routedStep cfg) (RoutedKeeps cfg) (.init phase backfill) es)
    (hopen : s.closed = false) : ¬ Stranded s := by
  have hserved := Exec.run_inv_of routedStep_served (init_served cfg phase backfill) hkeeps hrun
  rintro ⟨hne, ⟨w, -, hw⟩, hnone⟩
  simp only [NodeState.entryLive, Bool.and_eq_true] at hw
  have hcount := hserved.count hopen ⟨w.1, hw.1⟩
  have hzero : wokenCount s = 0 := by simp [wokenCount, hnone]
  rw [hzero] at hcount
  exact hne (List.length_eq_zero_iff.1 (Nat.le_zero.1 hcount))

/-! ## Two connections that sleep -/

def twoConnections : RoutedConfig := ⟨1, none, 2⟩

def plainPass (alive : Bool) : PassInput where
  alive := alive
  prefilled := 0
  turns _ := ⟨true, .sent⟩
  flush := .sent
  recvReady := true
  replyReady := false

/-- Both connections go to sleep; a push wakes the first, which then runs. -/
def wokenRun (alive : Bool) : List (RoutedStep (Fin 2)) :=
  [.pass 0 (plainPass true), .pass 1 (plainPass true), .push 7,
    .poll 0 .nothing (plainPass alive)]

theorem no_stranded_request_woken : ∃ s,
    Exec.run (routedStep twoConnections) (.init .running fun _ => []) (wokenRun true) = some s ∧
      s.closed = false ∧ ¬ Stranded s := by
  refine ⟨_, rfl, rfl, no_stranded_request twoConnections .running (fun _ => []) (wokenRun true) _
    rfl ?_ rfl⟩
  refine ⟨trivial, fun _ h1 => ⟨trivial, fun _ h2 => ⟨trivial, fun _ h3 =>
    ⟨?_, fun _ _ => trivial⟩⟩⟩⟩
  cases h1
  cases h2
  cases h3
  exact fun _ _ => ⟨rfl, by decide, 0, by decide, .inl (by decide), by simp⟩

/-- The first connection was closed by its server while it slept. Its task takes the wake and
returns, and the request waits for a push that wakes the second. -/
theorem stranded_after_eof : ∃ s,
    Exec.run (routedStep twoConnections) (.init .running fun _ => []) (wokenRun false) = some s ∧
      s.closed = false ∧ Stranded s :=
  ⟨_, rfl, rfl, by decide⟩

end Worker
