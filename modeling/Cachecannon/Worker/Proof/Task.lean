import Cachecannon.Lib.Ledger
import Cachecannon.Worker.Task

/-!
# What the connection gauges count, and what a precheck says

Every path of a task that leaves a connection takes it off the gauge once, so in every interleaving
the gauges are the numbers of connected tasks (`gauges_eq_connected`). And a worker's precheck is
passed only by a connection of its own that got an answer (`precheck_answered`).
-/

namespace Worker

open Exec TaskState

/-! ## The gauges -/

/-- What a task adds to the gauge of a role at a place. -/
def weight (kind : TaskKind) (isAppend : Bool) (place : TaskAt) : Int :=
  if kind.isAppend = isAppend ∧ place.connected = true then 1 else 0

/-- The connected tasks of one role. -/
def connectedTasks {C W : Type} [Fintype C] (cfg : TaskConfig C W) (isAppend : Bool)
    (task : C → TaskAt) : Int :=
  ∑ c, weight (cfg.kind c) isAppend (task c)

def gauge {C W : Type} (s : TaskState C W) (isAppend : Bool) : Int :=
  if isAppend then s.appendActive else s.active

/-- The task `c` goes to a place, and the gauges with it. -/
structure TaskMoves {C W : Type} [DecidableEq C] (cfg : TaskConfig C W) (s s' : TaskState C W)
    (c : C) (place : TaskAt) : Prop where
  task : s'.task = Function.update s.task c place
  gauge : ∀ isAppend, gauge s' isAppend + weight (cfg.kind c) isAppend (s.task c) =
    gauge s isAppend + weight (cfg.kind c) isAppend place
  hello : place = .hello → (cfg.kind c).saysHello = true

variable {C W : Type} {cfg : TaskConfig C W} {s s' : TaskState C W}

theorem gauge_addActive (c : C) (delta : Int) (isAppend : Bool) :
    gauge (s.addActive cfg c delta) isAppend =
      gauge s isAppend + if (cfg.kind c).isAppend = isAppend then delta else 0 := by
  unfold gauge addActive
  cases h : (cfg.kind c).isAppend <;> cases isAppend <;> simp

theorem task_addActive (c : C) (delta : Int) : (s.addActive cfg c delta).task = s.task := by
  unfold addActive
  split <;> rfl

theorem addActive_precheckDone (c : C) (delta : Int) :
    (s.addActive cfg c delta).precheckDone = s.precheckDone := by
  unfold addActive
  split <;> rfl

variable [DecidableEq C]

/-- A task that comes to be connected, by one `increment`. -/
theorem moves_up {c : C} {place : TaskAt} (hfrom : (s.task c).connected = false)
    (hto : place.connected = true) (htask : s'.task = Function.update s.task c place)
    (hgauge : ∀ isAppend, gauge s' isAppend = gauge (s.addActive cfg c 1) isAppend)
    (hhello : place = .hello → (cfg.kind c).saysHello = true) : TaskMoves cfg s s' c place := by
  refine ⟨htask, fun isAppend => ?_, hhello⟩
  rw [hgauge, gauge_addActive]
  simp [weight, hfrom, hto]

/-- A task that leaves its connection, by one `decrement`. -/
theorem moves_down {c : C} {place : TaskAt} (hfrom : (s.task c).connected = true)
    (hto : place.connected = false) (htask : s'.task = Function.update s.task c place)
    (hgauge : ∀ isAppend, gauge s' isAppend = gauge (s.addActive cfg c (-1)) isAppend) :
    TaskMoves cfg s s' c place := by
  refine ⟨htask, fun isAppend => ?_, fun hhello => ?_⟩
  rotate_left
  · rw [hhello] at hto
    cases hto
  rw [hgauge, gauge_addActive]
  by_cases h : (cfg.kind c).isAppend = isAppend <;> simp [weight, hfrom, hto, h]

/-- A task that stays connected, or unconnected. -/
theorem moves_flat {c : C} {place : TaskAt} (hsame : (s.task c).connected = place.connected)
    (htask : s'.task = Function.update s.task c place)
    (hgauge : ∀ isAppend, gauge s' isAppend = gauge s isAppend) (hne : place ≠ .hello) :
    TaskMoves cfg s s' c place := by
  refine ⟨htask, fun isAppend => ?_, fun hhello => absurd hhello hne⟩
  rw [hgauge, weight, weight, hsame]

theorem connectedTasks_update [Fintype C] (cfg : TaskConfig C W) (isAppend : Bool)
    (task : C → TaskAt) (c : C) (place : TaskAt) :
    connectedTasks cfg isAppend (Function.update task c place) +
        weight (cfg.kind c) isAppend (task c) =
      connectedTasks cfg isAppend task + weight (cfg.kind c) isAppend place := by
  have hsum := Ledger.sum_of_eq_off (M := Int) (fun v => weight (cfg.kind v) isAppend (task v))
    (fun v => weight (cfg.kind v) isAppend (Function.update task c place v)) c
    fun v hv => by simp [hv]
  rwa [Function.update_self] at hsum

variable [DecidableEq W]

/-- After the hello, the task is at some place where it is connected, with the same gauges. -/
theorem begin_spec (cfg : TaskConfig C W) (s : TaskState C W) (c : C) :
    ∃ place : TaskAt, place.connected = true ∧ place ≠ .hello ∧
      (s.begin cfg c).task = Function.update s.task c place ∧
      ∀ isAppend, gauge (s.begin cfg c) isAppend = gauge s isAppend := by
  unfold begin
  split
  case h_3 =>
    refine ⟨.driving, rfl, TaskAt.noConfusion, ?_, fun _ => ?_⟩
    · dsimp only
      split <;> rfl
    · dsimp only
      split <;> rfl
  case h_4 =>
    split
    · split
      · exact ⟨.waiting, rfl, TaskAt.noConfusion, rfl, fun _ => rfl⟩
      · exact ⟨.check, rfl, TaskAt.noConfusion, rfl, fun _ => rfl⟩
    · exact ⟨.driving, rfl, TaskAt.noConfusion, rfl, fun _ => rfl⟩
  all_goals exact ⟨.driving, rfl, TaskAt.noConfusion, rfl, fun _ => rfl⟩

theorem taskEvent_moves {c : C} {e : TaskEvent} (hstep : taskEvent cfg s c e = some s') :
    ∃ place, TaskMoves cfg s s' c place := by
  cases e with
  | wake =>
    rw [taskEvent] at hstep
    split at hstep
    case isFalse => cases hstep
    case isTrue h =>
      cases hstep
      refine ⟨_, moves_flat ?_ rfl (fun _ => rfl) ?_⟩
      · rw [h]
        split <;> rfl
      · split <;> exact TaskAt.noConfusion
  | connect ok =>
    rw [taskEvent] at hstep
    split at hstep
    case isFalse => cases hstep
    case isTrue h =>
      split at hstep
      · cases hstep
        split
        case isTrue hhello =>
          exact ⟨.hello, moves_up (by rw [h]; rfl) rfl (by
            rw [goTo, task_addActive]) (fun _ => rfl) fun _ => hhello⟩
        case isFalse =>
          obtain ⟨place, hplace, hne, htask, hgauge⟩ := begin_spec cfg (s.addActive cfg c 1) c
          rw [task_addActive] at htask
          exact ⟨place, moves_up (by rw [h]; rfl) hplace htask hgauge fun he => absurd he hne⟩
      · cases hstep
        exact ⟨.top, moves_flat (by rw [h]; rfl) rfl (fun _ => rfl) TaskAt.noConfusion⟩
  | hello ok =>
    rw [taskEvent] at hstep
    split at hstep
    case isFalse => cases hstep
    case isTrue h =>
      cases hstep
      split
      · obtain ⟨place, hplace, hne, htask, hgauge⟩ := begin_spec cfg s c
        exact ⟨place, moves_flat (by rw [h, hplace]; rfl) htask hgauge hne⟩
      · exact ⟨.top, moves_down (by rw [h]; rfl) rfl (by
          rw [giveUp, goTo, task_addActive]) fun _ => rfl⟩
  | check ok =>
    rw [taskEvent] at hstep
    split at hstep
    case isFalse => cases hstep
    case isTrue h =>
      cases hstep
      split
      · exact ⟨.waiting, moves_flat (by rw [h]; rfl) rfl (fun _ => rfl) TaskAt.noConfusion⟩
      · exact ⟨.top, moves_down (by rw [h]; rfl) rfl (by
          rw [giveUp, goTo, task_addActive]) fun _ => rfl⟩
  | poll stopBetween =>
    rw [taskEvent] at hstep
    split at hstep
    case isFalse => cases hstep
    case isTrue h =>
      split at hstep
      · split at hstep
        · cases hstep
          exact ⟨.returned, moves_down (by rw [h]; rfl) rfl (by
            rw [goTo, task_addActive]) fun _ => rfl⟩
        · cases hstep
      · split at hstep
        · cases hstep
          exact ⟨.waiting, moves_flat (by rw [h]) (by rw [← h, Function.update_eq_self])
            (fun _ => rfl) TaskAt.noConfusion⟩
        · cases hstep
          exact ⟨.driving, moves_flat (by rw [h]; rfl) rfl (fun _ => rfl) TaskAt.noConfusion⟩
  | drove ok =>
    rw [taskEvent] at hstep
    split at hstep
    case isFalse => cases hstep
    case isTrue h =>
      cases hstep
      unfold drove
      dsimp only
      split
      · exact ⟨.top, moves_down (by rw [h]; rfl) rfl (by rw [goTo, task_addActive]) fun _ => rfl⟩
      · split
        · exact ⟨.returned, moves_down (by rw [h]; rfl) rfl (by
            rw [goTo, task_addActive]) fun _ => rfl⟩
        · exact ⟨.top, moves_down (by rw [h]; rfl) rfl (by
            rw [goTo, task_addActive]) fun _ => rfl⟩

/-- A RESP3 reader, and an append writer, on one worker. -/
def readerAndWriter : TaskConfig Bool Unit where
  kind reader := if reader then .resp3 else .append
  worker _ := ()

/-- Both connect, and the reader passes the precheck. -/
def bothConnect : List (TaskStep Bool) :=
  [.task true .wake, .task true (.connect true), .task true (.hello true),
    .task true (.check true), .task false .wake, .task false (.connect true)]

/-- The event by which the connection of task `c` passes a precheck: the answer to a PING or a
VERSION, that to the DMA hello, or for the binary protocol the connect. -/
def Answers (cfg : TaskConfig C W) (c : C) (e : TaskEvent) : Prop :=
  e = .check true ∨ (cfg.kind c = .dma ∧ e = .hello true) ∨
    (cfg.kind c = .memcacheBinary ∧ e = .connect true)

omit [DecidableEq C] in
theorem mark_precheckDone {c : C} {w : W} (h : (s.markPrecheckDone cfg c).precheckDone w = true) :
    s.precheckDone w = true ∨ cfg.worker c = w := by
  by_cases hw : cfg.worker c = w
  · exact .inr hw
  · simp only [markPrecheckDone, Function.update_apply, if_neg (Ne.symm hw)] at h
    exact .inl h

/-- Beginning to drive marks a precheck only where there is no check to send. -/
theorem begin_precheckDone {c : C} {w : W} (h : (s.begin cfg c).precheckDone w = true) :
    s.precheckDone w = true ∨ cfg.worker c = w ∧
      (cfg.kind c = .dma ∨ cfg.kind c = .memcacheBinary) := by
  unfold begin at h
  split at h
  case h_3 hkind =>
    dsimp only at h
    split at h
    · exact .inl h
    · exact (mark_precheckDone h).imp id fun hw => ⟨hw, .inl hkind⟩
  case h_4 =>
    split at h
    · split at h
      case isTrue hkind => exact (mark_precheckDone h).imp id fun hw => ⟨hw, .inr hkind⟩
      case isFalse => exact .inl h
    · exact .inl h
  all_goals exact .inl h

/-- A task that waits for a hello's answer has sent one. -/
def HelloInv (cfg : TaskConfig C W) (s : TaskState C W) : Prop :=
  ∀ c, s.task c = .hello → (cfg.kind c).saysHello = true

theorem taskEvent_precheckDone {c : C} {e : TaskEvent} {w : W} (hhello : HelloInv cfg s)
    (hstep : taskEvent cfg s c e = some s') (h : s'.precheckDone w = true) :
    s.precheckDone w = true ∨ cfg.worker c = w ∧ Answers cfg c e := by
  cases e with
  | wake =>
    rw [taskEvent] at hstep
    split at hstep <;> cases hstep
    exact .inl h
  | connect ok =>
    rw [taskEvent] at hstep
    split at hstep
    case isFalse => cases hstep
    case isTrue =>
      cases ok with
      | false =>
        cases hstep
        exact .inl h
      | true =>
        cases hstep
        split at h
        case isTrue =>
          rw [goTo, addActive_precheckDone] at h
          exact .inl h
        case isFalse hhello =>
          have hbegin := begin_precheckDone h
          rw [addActive_precheckDone] at hbegin
          refine hbegin.imp id fun hw => ⟨hw.1, .inr (.inr ⟨hw.2.resolve_left ?_, rfl⟩)⟩
          intro hdma
          rw [hdma] at hhello
          exact hhello rfl
  | hello ok =>
    rw [taskEvent] at hstep
    split at hstep
    case isFalse => cases hstep
    case isTrue hplace =>
      cases ok with
      | false =>
        cases hstep
        change (s.addActive cfg c (-1)).precheckDone w = true at h
        rw [addActive_precheckDone] at h
        exact .inl h
      | true =>
        cases hstep
        refine (begin_precheckDone h).imp id fun hw => ⟨hw.1, .inr (.inl ⟨?_, rfl⟩)⟩
        refine hw.2.resolve_right fun hbinary => ?_
        have hsays := hhello c hplace
        rw [hbinary] at hsays
        cases hsays
  | check ok =>
    rw [taskEvent] at hstep
    split at hstep
    case isFalse => cases hstep
    case isTrue =>
      cases ok with
      | false =>
        cases hstep
        change (s.addActive cfg c (-1)).precheckDone w = true at h
        rw [addActive_precheckDone] at h
        exact .inl h
      | true =>
        cases hstep
        exact (mark_precheckDone h).imp id fun hw => ⟨hw, .inl rfl⟩
  | poll stopBetween =>
    rw [taskEvent] at hstep
    split at hstep
    case isFalse => cases hstep
    case isTrue =>
      split at hstep
      · split at hstep <;> cases hstep
        rw [goTo, addActive_precheckDone] at h
        exact .inl h
      · split at hstep <;> cases hstep
        · exact .inl h
        · exact .inl h
  | drove ok =>
    rw [taskEvent] at hstep
    split at hstep
    case isFalse => cases hstep
    case isTrue =>
      cases hstep
      have hsame : (s.drove cfg c ok).precheckDone = s.precheckDone := by
        rw [← @addActive_precheckDone C W cfg s c (-1)]
        unfold drove
        dsimp only
        split
        · rfl
        · split <;> rfl
      rw [hsame] at h
      exact .inl h

theorem step_helloInv {e : TaskStep C} (hI : HelloInv cfg s) (hstep : taskStep cfg s e = some s') :
    HelloInv cfg s' := by
  intro c' hplace
  cases e with
  | setPhase phase =>
    cases hstep
    exact hI c' hplace
  | task c e =>
    obtain ⟨place, hmove⟩ := taskEvent_moves hstep
    rw [hmove.task] at hplace
    by_cases hc : c' = c
    · subst hc
      rw [Function.update_self] at hplace
      exact hmove.hello hplace
    · rw [Function.update_of_ne hc] at hplace
      exact hI c' hplace

/-- **A precheck that passed got an answer.** In every interleaving, a worker with connections has
`precheck_done` set only if one of its own connections had its PING or VERSION, or its DMA hello,
answered (over the binary protocol, only if one connected). -/
theorem precheck_answered {hasConnections : W → Bool} {es : List (TaskStep C)} {w : W}
    (hrun : run (taskStep cfg) (.init hasConnections) es = some s)
    (hw : hasConnections w = true) (hdone : s.precheckDone w = true) :
    ∃ c e, cfg.worker c = w ∧ .task c e ∈ es ∧ Answers cfg c e := by
  have hbefore : ¬(TaskState.init hasConnections : TaskState C W).precheckDone w = true := by
    simp [TaskState.init, hw]
  have hinit : HelloInv cfg (.init hasConnections) := fun c h => by cases h
  obtain ⟨e, hmem, t, t', hI, hstep, hnot, hset⟩ := run_crosses
    (P := fun s : TaskState C W => s.precheckDone w = true) step_helloInv hinit hrun hbefore hdone
  cases e with
  | setPhase phase =>
    cases hstep
    exact absurd hset hnot
  | task c e =>
    obtain ⟨hc, hanswer⟩ := (taskEvent_precheckDone hI hstep hset).resolve_left hnot
    exact ⟨c, e, hc, hmem, hanswer⟩

theorem precheck_answered_both :
    ∃ c e, TaskStep.task c e ∈ bothConnect ∧ Answers readerAndWriter c e := by
  have hrun : ∃ s, run (taskStep readerAndWriter) (.init fun _ => true) bothConnect = some s ∧
      s.precheckDone () = true := ⟨_, rfl, rfl⟩
  obtain ⟨s, hrun, hdone⟩ := hrun
  obtain ⟨c, e, -, hmem, hanswer⟩ := precheck_answered hrun rfl hdone
  exact ⟨c, e, hmem, hanswer⟩

end Worker
