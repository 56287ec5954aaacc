import Cachecannon.Admin.Model

/-!
# When the stop signal is lost

`notify_waiters` stores nothing, so the signal reaches a task that is in its `select!` and no
other, and is lost again if that `select!` then takes its other branch. `Moves` says what a step
can do, and `StopOk` names the steps that do neither of the two. A run of such steps never loses the
signal, and one with any other step does (`signal_step`); past the notification, every step then
brings the admin thread nearer to its end (`shutdown_step`) and there is one to take until the join
returns (`shutdown_enabled`).
-/

namespace Admin

variable {cfg : AdminConfig} {s s' : AdminState} {e : AdminStep}

/-- The task is in its `select!`, or past its loop. -/
def TaskPc.waits : TaskPc → Bool
  | .selecting _ | .finishing | .ended => true
  | .unspawned | .starting | .handling => false

/-- When `shutdown` notifies, every task of the running admin thread waits; and a task that was
notified does not take its other branch. -/
def StopOk (cfg : AdminConfig) (s : AdminState) : AdminStep → Prop
  | .notify => s.thread = .ended ∨ ∀ t, cfg.configured t = true → (s.task t).waits = true
  | .other t => s.task t ≠ .selecting true
  | _ => True

structure AdminInv (cfg : AdminConfig) (s : AdminState) : Prop where
  /-- Before the thread starts, and after it has ended, no task runs. -/
  idle : s.thread ≠ .awaiting → ∀ t, s.task t = .unspawned ∨ s.task t = .ended
  starting : s.thread = .starting → ∀ t, s.task t = .unspawned
  unconfigured : ∀ t, cfg.configured t = false → s.task t = .unspawned
  quiet : s.caller = .running → ∀ t, s.task t ≠ .selecting true
  returned : s.caller = .returned → s.thread = .ended

theorem adminInv_init (cfg : AdminConfig) : AdminInv cfg .init where
  idle _ _ := .inl rfl
  starting _ _ := rfl
  unconfigured _ _ := rfl
  quiet _ _ := by simp [AdminState.init]
  returned h := by cases h

/-- A task that is neither unspawned nor at its end is a configured one of a running thread. -/
theorem AdminInv.live (h : AdminInv cfg s) {t : AdminTask} (hspawned : s.task t ≠ .unspawned)
    (hend : s.task t ≠ .ended) : s.thread = .awaiting ∧ cfg.configured t = true := by
  constructor
  · by_contra hthread
    rcases h.idle hthread t with hun | hended
    · exact hspawned hun
    · exact hend hended
  · by_contra hcfg
    exact hspawned (h.unconfigured t (by simpa using hcfg))

theorem unnotified_notifyWaiters (pc : TaskPc) :
    (notifyWaiters pc).unnotified = !pc.waits := by
  cases pc <;> rfl

theorem allEnded_iff : allEnded cfg s = true ↔
    ∀ t, cfg.configured t = true → s.task t = .ended := by
  simp only [allEnded, List.all_cons, List.all_nil, Bool.and_true, Bool.and_eq_true,
    Bool.or_eq_true, Bool.not_eq_true', decide_eq_true_eq]
  constructor
  · rintro ⟨hserver, hrecorder⟩ t hcfg
    cases t with
    | prometheusServer => exact hserver.resolve_left (by simp [hcfg])
    | parquetRecorder => exact hrecorder.resolve_left (by simp [hcfg])
  · intro hall
    refine ⟨?_, ?_⟩
    · by_cases hcfg : cfg.configured .prometheusServer = true
      · exact .inr (hall _ hcfg)
      · exact .inl (by simpa using hcfg)
    · by_cases hcfg : cfg.configured .parquetRecorder = true
      · exact .inr (hall _ hcfg)
      · exact .inl (by simpa using hcfg)

theorem setTask_self (s : AdminState) (t : AdminTask) (pc : TaskPc) :
    (s.setTask t pc).task t = pc := by
  simp [AdminState.setTask]

theorem setTask_of_ne (s : AdminState) {t u : AdminTask} (hu : u ≠ t) (pc : TaskPc) :
    (s.setTask t pc).task u = s.task u := by
  simp [AdminState.setTask, hu]

/-! ## Steps -/

/-- What a step can do. -/
inductive Moves (cfg : AdminConfig) (s : AdminState) : AdminStep → AdminState → Prop
  | start (hthread : s.thread = .starting) :
    Moves cfg s (.start true) { s with
      thread := .awaiting, task := fun t => if cfg.configured t then .starting else .unspawned }
  | panic (hthread : s.thread = .starting) : Moves cfg s (.start false) { s with thread := .ended }
  | enter {t : AdminTask} (ok : Bool) (htask : s.task t = .starting) :
    Moves cfg s (.enter t ok) (s.setTask t (if ok then .selecting false else .ended))
  | other {t : AdminTask} {notified : Bool} (htask : s.task t = .selecting notified) :
    Moves cfg s (.other t) (s.setTask t .handling)
  | again {t : AdminTask} (htask : s.task t = .handling) :
    Moves cfg s (.again t) (s.setTask t (.selecting false))
  | stop {t : AdminTask} (htask : s.task t = .selecting true) :
    Moves cfg s (.stop t) (s.setTask t .finishing)
  | finish {t : AdminTask} (htask : s.task t = .finishing) :
    Moves cfg s (.finish t) (s.setTask t .ended)
  | threadEnds (hthread : s.thread = .awaiting) (hall : allEnded cfg s = true) :
    Moves cfg s .threadEnds { s with thread := .ended }
  | notify (hcaller : s.caller = .running) :
    Moves cfg s .notify { s with caller := .joining, task := fun t => notifyWaiters (s.task t) }
  | join (hcaller : s.caller = .joining) (hthread : s.thread = .ended) :
    Moves cfg s .join { s with caller := .returned }

theorem adminStep_moves (hstep : adminStep cfg s e = some s') : Moves cfg s e s' := by
  cases e with
  | start built =>
    simp only [adminStep] at hstep
    split at hstep
    · rename_i hthread
      cases built <;> cases hstep
      · exact .panic hthread
      · exact .start hthread
    · cases hstep
  | enter t ok =>
    simp only [adminStep] at hstep
    split at hstep <;> cases hstep
    rename_i htask
    exact .enter ok htask
  | other t =>
    simp only [adminStep] at hstep
    split at hstep <;> cases hstep
    rename_i htask
    exact .other htask
  | again t =>
    simp only [adminStep] at hstep
    split at hstep <;> cases hstep
    rename_i htask
    exact .again htask
  | stop t =>
    simp only [adminStep] at hstep
    split at hstep <;> cases hstep
    rename_i htask
    exact .stop htask
  | finish t =>
    simp only [adminStep] at hstep
    split at hstep <;> cases hstep
    rename_i htask
    exact .finish htask
  | threadEnds =>
    simp only [adminStep] at hstep
    split at hstep <;> cases hstep
    rename_i hguard
    obtain ⟨hthread, hall⟩ := hguard
    exact .threadEnds hthread hall
  | notify =>
    simp only [adminStep] at hstep
    split at hstep <;> cases hstep
    rename_i hcaller
    exact .notify hcaller
  | join =>
    simp only [adminStep] at hstep
    split at hstep <;> cases hstep
    rename_i hguard
    obtain ⟨hcaller, hthread⟩ := hguard
    exact .join hcaller hthread

/-- A task that is neither unspawned nor at its end moves to another place of its own. -/
theorem AdminInv.setTask (h : AdminInv cfg s) {t : AdminTask} {here pc : TaskPc}
    (htask : s.task t = here) (hlive : here ≠ .unspawned ∧ here ≠ .ended)
    (hpc : s.caller = .running → pc ≠ .selecting true) : AdminInv cfg (s.setTask t pc) := by
  subst htask
  obtain ⟨hthread, hcfg⟩ := h.live hlive.1 hlive.2
  refine ⟨fun hthread' => absurd hthread hthread', ?_, ?_, ?_, h.returned⟩
  · intro hstart
    rw [show (s.setTask t pc).thread = s.thread from rfl, hthread] at hstart
    cases hstart
  · intro u hu
    rw [setTask_of_ne s (by rintro rfl; rw [hcfg] at hu; cases hu)]
    exact h.unconfigured u hu
  · intro hrunning u
    by_cases hut : u = t
    · subst hut
      rw [setTask_self]
      exact hpc hrunning
    · rw [setTask_of_ne s hut]
      exact h.quiet hrunning u

/-- A task with no notification pending: `shutdown` has not notified, or the signal is lost. -/
theorem caller_of_not_lost (h : AdminInv cfg s) (hsafe : ¬ s.Lost cfg) {t : AdminTask}
    {here : TaskPc} (htask : s.task t = here) (hspawned : here ≠ .unspawned)
    (hun : here.unnotified = true) : s.caller = .running := by
  subst htask
  by_contra hcaller
  have hend : s.task t ≠ .ended := fun hended => by rw [hended] at hun; cases hun
  obtain ⟨hthread, hcfg⟩ := h.live hspawned hend
  exact hsafe ⟨hcaller, by rw [hthread]; decide, t, hcfg, hun⟩

theorem not_lost_of_running (hcaller : s.caller = .running) : ¬ s.Lost cfg :=
  fun hlost => hlost.1 hcaller

/-- A notified task moves on, past its loop. -/
theorem not_lost_setTask (hsafe : ¬ s.Lost cfg) {t : AdminTask} {pc : TaskPc}
    (hpc : pc.unnotified = false) : ¬ (s.setTask t pc).Lost cfg := by
  rintro ⟨hcaller, hthread, u, hcfg, hun⟩
  by_cases hut : u = t
  · subst hut
    rw [setTask_self, hpc] at hun
    cases hun
  · rw [setTask_of_ne s hut] at hun
    exact hsafe ⟨hcaller, hthread, u, hcfg, hun⟩

/-- The notification loses the signal when a task of the running thread does not wait. -/
theorem notify_lost_iff :
    ¬ AdminState.Lost cfg { s with
        caller := .joining, task := fun t => notifyWaiters (s.task t) } ↔
      StopOk cfg s .notify := by
  simp only [AdminState.Lost, StopOk, unnotified_notifyWaiters, Bool.not_eq_true']
  constructor
  · intro hnot
    by_cases hthread : s.thread = .ended
    · exact .inl hthread
    · refine .inr fun t ht => ?_
      by_contra hwaits
      exact hnot ⟨nofun, hthread, t, ht, by simpa using hwaits⟩
  · rintro (hthread | hall) ⟨-, hrunning, t, ht, hwaits⟩
    · exact hrunning hthread
    · rw [hall t ht] at hwaits
      cases hwaits

/-- The other branch of a `select!` loses the signal when its task was notified: the `Notified` is
dropped. -/
theorem other_lost_iff (h : AdminInv cfg s) (hsafe : ¬ s.Lost cfg) {t : AdminTask}
    {notified : Bool} (htask : s.task t = .selecting notified) :
    ¬ (s.setTask t .handling).Lost cfg ↔ StopOk cfg s (.other t) := by
  cases notified with
  | false =>
    have hcaller : s.caller = .running := caller_of_not_lost h hsafe htask nofun rfl
    refine iff_of_true (fun hlost => hlost.1 hcaller) ?_
    simp [StopOk, htask]
  | true =>
    obtain ⟨hthread, hcfg⟩ := h.live (t := t) (by simp [htask]) (by simp [htask])
    refine iff_of_false (not_not_intro ⟨fun hrunning => ?_, ?_, t, hcfg, ?_⟩) ?_
    · exact h.quiet hrunning t htask
    · rw [show (s.setTask t .handling).thread = s.thread from rfl, hthread]
      decide
    · rw [setTask_self]
      rfl
    · simp [StopOk, htask]

theorem moves_inv (h : AdminInv cfg s) (hmoves : Moves cfg s e s') : AdminInv cfg s' := by
  cases hmoves with
  | start hthread =>
    refine ⟨fun hn => absurd rfl hn, nofun, ?_, ?_, ?_⟩
    · intro t ht
      simp [ht]
    · intro _ t
      simp only
      split <;> simp
    · intro hret
      have hended := h.returned hret
      rw [hthread] at hended
      cases hended
  | panic hthread =>
    exact ⟨fun _ t => .inl (h.starting hthread t), nofun, h.unconfigured, h.quiet, fun _ => rfl⟩
  | enter ok htask => exact h.setTask htask (by decide) fun _ => by split <;> decide
  | other htask => exact h.setTask htask ⟨nofun, nofun⟩ fun _ => by decide
  | again htask => exact h.setTask htask (by decide) fun _ => by decide
  | stop htask => exact h.setTask htask (by decide) fun _ => by decide
  | finish htask => exact h.setTask htask (by decide) fun _ => by decide
  | threadEnds hthread hall =>
    refine ⟨fun _ t => ?_, nofun, h.unconfigured, h.quiet, fun _ => rfl⟩
    by_cases hcfg : cfg.configured t = true
    · exact .inr (allEnded_iff.1 hall t hcfg)
    · exact .inl (h.unconfigured t (by simpa using hcfg))
  | notify hcaller =>
    refine ⟨fun hn t => ?_, fun hst t => ?_, fun t ht => ?_, nofun, nofun⟩
    · rcases h.idle hn t with htask | htask
      · exact .inl (by simp [htask, notifyWaiters])
      · exact .inr (by simp [htask, notifyWaiters])
    · simp [h.starting hst t, notifyWaiters]
    · simp [h.unconfigured t ht, notifyWaiters]
  | join hcaller hthread =>
    exact ⟨h.idle, h.starting, h.unconfigured, nofun, fun _ => hthread⟩

/-- **The step lemma.** A step loses the signal exactly when it does not meet `StopOk`. -/
theorem signal_step (h : AdminInv cfg s) (hsafe : ¬ s.Lost cfg)
    (hstep : adminStep cfg s e = some s') :
    AdminInv cfg s' ∧ (¬ s'.Lost cfg ↔ StopOk cfg s e) := by
  have hmoves := adminStep_moves hstep
  refine ⟨moves_inv h hmoves, ?_⟩
  cases hmoves with
  | start hthread =>
    refine iff_of_true ?_ trivial
    rintro ⟨hcaller, -, t, hcfg, -⟩
    refine hsafe ⟨hcaller, by rw [hthread]; decide, t, hcfg, ?_⟩
    rw [h.starting hthread t]
    rfl
  | panic hthread => exact iff_of_true (fun hlost => hlost.2.1 rfl) trivial
  | enter ok htask =>
    have hcaller := caller_of_not_lost h hsafe htask (by decide) rfl
    exact iff_of_true (fun hlost => hlost.1 hcaller) trivial
  | other htask => exact other_lost_iff h hsafe htask
  | again htask =>
    have hcaller := caller_of_not_lost h hsafe htask (by decide) rfl
    exact iff_of_true (fun hlost => hlost.1 hcaller) trivial
  | stop htask => exact iff_of_true (not_lost_setTask hsafe rfl) trivial
  | finish htask => exact iff_of_true (not_lost_setTask hsafe rfl) trivial
  | threadEnds hthread hall => exact iff_of_true (fun hlost => hlost.2.1 rfl) trivial
  | notify hcaller => exact notify_lost_iff
  | join hcaller hthread => exact iff_of_true (fun hlost => hlost.2.1 hthread) trivial

/-! ## The join -/

def TaskPc.rank : TaskPc → Nat
  | .selecting _ => 2
  | .finishing => 1
  | .unspawned | .starting | .handling | .ended => 0

def ThreadPc.rank : ThreadPc → Nat
  | .starting => 2
  | .awaiting => 1
  | .ended => 0

def CallerPc.rank : CallerPc → Nat
  | .running => 2
  | .joining => 1
  | .returned => 0

/-- A bound on the steps from a state past the notification to the end of the join. -/
def AdminState.rank (s : AdminState) : Nat :=
  (s.task .prometheusServer).rank + (s.task .parquetRecorder).rank + s.thread.rank + s.caller.rank

/-- The invariant past the notification, the signal not being lost. -/
structure Stopping (cfg : AdminConfig) (s : AdminState) : Prop where
  inv : AdminInv cfg s
  kept : ¬ s.Lost cfg
  notified : s.caller ≠ .running

theorem rank_setTask {t : AdminTask} {pc : TaskPc} (hless : pc.rank < (s.task t).rank) :
    (s.setTask t pc).rank < s.rank := by
  cases t with
  | prometheusServer =>
    have hkept := setTask_of_ne s (show AdminTask.parquetRecorder ≠ .prometheusServer by decide) pc
    have hself := setTask_self s .prometheusServer pc
    simp only [AdminState.rank, hself, hkept]
    simp only [AdminState.setTask]
    omega
  | parquetRecorder =>
    have hkept := setTask_of_ne s (show AdminTask.prometheusServer ≠ .parquetRecorder by decide) pc
    have hself := setTask_self s .parquetRecorder pc
    simp only [AdminState.rank, hself, hkept]
    simp only [AdminState.setTask]
    omega

/-- **Past the notification** every step that keeps the signal brings the end nearer. -/
theorem shutdown_step (h : Stopping cfg s) (hok : StopOk cfg s e)
    (hstep : adminStep cfg s e = some s') : Stopping cfg s' ∧ s'.rank < s.rank := by
  obtain ⟨hinv, hkept, hnotified⟩ := h
  obtain ⟨hinv', hiff⟩ := signal_step hinv hkept hstep
  have hnext : s'.caller ≠ .running → s'.rank < s.rank → Stopping cfg s' ∧ s'.rank < s.rank :=
    fun hcaller hrank => ⟨⟨hinv', hiff.2 hok, hcaller⟩, hrank⟩
  -- a task with no notification pending would have lost the signal
  have hnone : ∀ {t here}, s.task t = here → here ≠ .unspawned → here.unnotified ≠ true :=
    fun htask hspawned hun => hnotified (caller_of_not_lost hinv hkept htask hspawned hun)
  cases adminStep_moves hstep with
  | start hthread =>
    have hun : ∀ t, s.task t = .unspawned := hinv.starting hthread
    have hnocfg : ∀ t, cfg.configured t = false := by
      intro t
      by_contra hcfg
      refine hkept ⟨hnotified, by rw [hthread]; decide, t, by simpa using hcfg, ?_⟩
      rw [hun t]
      rfl
    apply hnext hnotified
    simp [AdminState.rank, hthread, hun, hnocfg, ThreadPc.rank]
  | panic hthread =>
    apply hnext hnotified
    simp [AdminState.rank, hthread, ThreadPc.rank]
  | enter ok htask => exact absurd rfl (hnone htask nofun)
  | @other t notified htask =>
    cases notified with
    | false => exact absurd rfl (hnone htask nofun)
    | true => exact absurd htask hok
  | again htask => exact absurd rfl (hnone htask nofun)
  | stop htask => exact hnext hnotified (rank_setTask (by rw [htask]; decide))
  | finish htask => exact hnext hnotified (rank_setTask (by rw [htask]; decide))
  | threadEnds hthread hall =>
    apply hnext hnotified
    simp [AdminState.rank, hthread, ThreadPc.rank]
  | notify hcaller => exact absurd hcaller hnotified
  | join hcaller hthread =>
    apply hnext nofun
    simp [AdminState.rank, hcaller, CallerPc.rank]

/-- A task of the running thread that has not ended has a step to take. -/
theorem task_enabled (h : Stopping cfg s) (hthread : s.thread = .awaiting) {t : AdminTask}
    (hcfg : cfg.configured t = true) (hend : s.task t ≠ .ended) :
    ∃ e, StopOk cfg s e ∧ (adminStep cfg s e).isSome := by
  have hnot : (s.task t).unnotified = false := by
    by_contra hun
    exact h.kept ⟨h.notified, by rw [hthread]; decide, t, hcfg, by simpa using hun⟩
  cases htask : s.task t with
  | selecting notified =>
    cases notified with
    | false => simp [htask, TaskPc.unnotified] at hnot
    | true => exact ⟨.stop t, trivial, by simp [adminStep, htask]⟩
  | finishing => exact ⟨.finish t, trivial, by simp [adminStep, htask]⟩
  | ended => exact absurd htask hend
  | unspawned => simp [htask, TaskPc.unnotified] at hnot
  | starting => simp [htask, TaskPc.unnotified] at hnot
  | handling => simp [htask, TaskPc.unnotified] at hnot

/-- **Until the join returns** there is a step to take. -/
theorem shutdown_enabled (h : Stopping cfg s) :
    s.caller = .returned ∨ ∃ e, StopOk cfg s e ∧ (adminStep cfg s e).isSome := by
  cases hcaller : s.caller with
  | running => exact absurd hcaller h.notified
  | returned => exact .inl rfl
  | joining =>
    right
    cases hthread : s.thread with
    | starting => exact ⟨.start false, trivial, by simp [adminStep, hthread]⟩
    | ended => exact ⟨.join, trivial, by simp [adminStep, hthread, hcaller]⟩
    | awaiting =>
      by_cases hall : allEnded cfg s = true
      · exact ⟨.threadEnds, trivial, by simp [adminStep, hthread, hall]⟩
      · rw [allEnded_iff, not_forall] at hall
        obtain ⟨t, ht⟩ := hall
        rw [Classical.not_imp] at ht
        exact task_enabled h hthread ht.1 ht.2

/-- **The stop signal** is kept in every state of a run exactly when every step meets `StopOk`.
Past the notification the join of such a run does not wait for ever: it goes on for a bounded
number of steps, and has one to take until the join returns. -/
theorem stop_signal_iff (cfg : AdminConfig) (es : List AdminStep) {s : AdminState}
    (hrun : Exec.run (adminStep cfg) .init es = some s) :
    ((∀ t, Exec.Visits (adminStep cfg) .init es t → ¬ t.Lost cfg) ↔
        Exec.Meets (adminStep cfg) (StopOk cfg) .init es) ∧
      (Exec.Meets (adminStep cfg) (StopOk cfg) .init es → s.caller ≠ .running →
        ∃ n, ∀ es' s', Exec.run (adminStep cfg) s es' = some s' →
          Exec.Meets (adminStep cfg) (StopOk cfg) s es' →
          es'.length ≤ n ∧
            (s'.caller = .returned ∨ ∃ e, StopOk cfg s' e ∧ (adminStep cfg s' e).isSome)) := by
  have hinit : ¬ AdminState.Lost cfg .init := not_lost_of_running rfl
  refine ⟨Exec.visits_iff_meets signal_step (adminInv_init cfg) hinit hrun,
    fun hmeets hcaller => ⟨s.rank, fun es' s' hrun' hmeets' => ?_⟩⟩
  have hkeeps : ∀ {s s' : AdminState} {e}, AdminInv cfg s ∧ ¬ s.Lost cfg → StopOk cfg s e →
      adminStep cfg s e = some s' → AdminInv cfg s' ∧ ¬ s'.Lost cfg := by
    intro s s' e h hok hstep
    obtain ⟨hinv, hiff⟩ := signal_step h.1 h.2 hstep
    exact ⟨hinv, hiff.2 hok⟩
  have hsafe := Exec.run_inv_of hkeeps ⟨adminInv_init cfg, hinit⟩ hmeets hrun
  have hstopping : Stopping cfg s := ⟨hsafe.1, hsafe.2, hcaller⟩
  refine ⟨Exec.length_le_of_measure AdminState.rank shutdown_step hstopping hmeets' hrun', ?_⟩
  exact shutdown_enabled
    (Exec.run_inv_of (fun h hok hstep => (shutdown_step h hok hstep).1) hstopping hmeets' hrun')

/-- A run with both tasks, notified while both wait. -/
def keptRun : List AdminStep :=
  [.start true, .enter .prometheusServer true, .enter .parquetRecorder true,
    .other .parquetRecorder, .again .parquetRecorder, .notify, .stop .parquetRecorder]

theorem stop_signal_kept : ∃ s, Exec.run (adminStep ⟨true, true⟩) .init keptRun = some s ∧
    s.caller = .joining ∧ ¬ s.Lost ⟨true, true⟩ := by
  refine ⟨_, rfl, rfl, ?_⟩
  refine ((stop_signal_iff ⟨true, true⟩ keptRun rfl).1.2 ?_) _ ⟨keptRun, [], rfl, rfl⟩
  refine (Exec.meets_cons rfl).2 ⟨trivial, (Exec.meets_cons rfl).2 ⟨trivial, ?_⟩⟩
  refine (Exec.meets_cons rfl).2 ⟨trivial, (Exec.meets_cons rfl).2 ⟨nofun, ?_⟩⟩
  refine (Exec.meets_cons rfl).2 ⟨trivial, (Exec.meets_cons rfl).2 ⟨.inr ?_, ?_⟩⟩
  · rintro (_ | _) _ <;> rfl
  · exact (Exec.meets_cons rfl).2 ⟨trivial, trivial⟩

/-! ## A lost signal -/

/-- A task back in its loop after the only notification. -/
structure Missed (t : AdminTask) (s : AdminState) : Prop where
  caller : s.caller = .joining
  thread : s.thread = .awaiting
  task : s.task t = .handling ∨ s.task t = .selecting false

theorem Missed.setTask {t u : AdminTask} {pc : TaskPc} (h : Missed t s)
    (hpc : u = t → pc = .handling ∨ pc = .selecting false) : Missed t (s.setTask u pc) := by
  refine ⟨h.caller, h.thread, ?_⟩
  by_cases htu : t = u
  · subst htu
    rw [setTask_self]
    exact hpc rfl
  · rw [setTask_of_ne s htu]
    exact h.task

/-- A task that missed the notification stays in its loop: `notify_waiters` is called once. -/
theorem missed_step {t : AdminTask} (hcfg : cfg.configured t = true) (h : Missed t s)
    (hstep : adminStep cfg s e = some s') : Missed t s' := by
  have hstays : ∀ {u here}, s.task u = here → u = t →
      here = .handling ∨ here = .selecting false := by
    rintro u here rfl rfl
    exact h.task
  cases adminStep_moves hstep with
  | start hthread | panic hthread =>
    rw [h.thread] at hthread
    cases hthread
  | enter ok htask => exact h.setTask fun hut => by simpa using hstays htask hut
  | other htask => exact h.setTask fun _ => .inl rfl
  | again htask => exact h.setTask fun _ => .inr rfl
  | stop htask => exact h.setTask fun hut => by simpa using hstays htask hut
  | finish htask => exact h.setTask fun hut => by simpa using hstays htask hut
  | threadEnds hthread hall => simpa using hstays (allEnded_iff.1 hall t hcfg) rfl
  | notify hcaller =>
    rw [h.caller] at hcaller
    cases hcaller
  | join hcaller hthread =>
    rw [h.thread] at hthread
    cases hthread

/-- `shutdown` notifies while the recorder stages a snapshot. -/
def lostRun : List AdminStep :=
  [.start true, .enter .parquetRecorder true, .other .parquetRecorder, .notify,
    .again .parquetRecorder]

/-- The recorder is then in its loop with no notification pending, and the join never returns. -/
theorem stop_signal_lost : ∃ s, Exec.run (adminStep ⟨false, true⟩) .init lostRun = some s ∧
    s.Lost ⟨false, true⟩ ∧
      ∀ es s', Exec.run (adminStep ⟨false, true⟩) s es = some s' → s'.caller = .joining := by
  refine ⟨_, rfl, ⟨nofun, nofun, .parquetRecorder, rfl, rfl⟩, fun es s' hrun => ?_⟩
  have hmissed := Exec.run_inv (missed_step (t := .parquetRecorder) rfl)
    ⟨rfl, rfl, .inr rfl⟩ hrun
  exact hmissed.caller

end Admin
