import Cachecannon.Runner.Proof.Phases

/-!
# The main loop ends

Without a saturation search, every turn uses up some of a budget (`budget`): the precheck timer,
the stall timer of the prefill, which only a newly confirmed key restarts, or the time measured.
So once the precheck timer runs, a run takes a bounded number of turns (`loop_ends`), whatever the
workers do.
-/

namespace Runner

open Worker (Phase)
open LoopState Exec

/-- The turns that fit in a time. -/
def turnsIn (d : Nat) : Nat := d / turnSleep

/-- The turns that fit before the deadline. -/
def turnsUntil (deadline clock : Int) : Nat := turnsIn (deadline - clock).toNat

theorem turnsUntil_lt {deadline clock now later : Int} (hsleep : clock + turnSleep ≤ now)
    (hnow : now < deadline) (hlater : now ≤ later) :
    turnsUntil deadline later + 1 ≤ turnsUntil deadline clock := by
  unfold turnsUntil turnsIn
  have hle : (deadline - later).toNat + turnSleep ≤ (deadline - clock).toNat := by omega
  calc (deadline - later).toNat / turnSleep + 1
      = ((deadline - later).toNat + turnSleep) / turnSleep :=
        (Nat.add_div_right _ (by decide)).symm
    _ ≤ (deadline - clock).toNat / turnSleep := Nat.div_le_div_right hle

theorem turnsUntil_le {start clock : Int} (d : Nat) (hstart : start ≤ clock) :
    turnsUntil (start + d) clock ≤ turnsIn d :=
  Nat.div_le_div_right (by omega)

/-- The turns of a prefill in which no key is confirmed. -/
def stallTurns : Nat := turnsIn prefillStallThreshold

def measureTurns (cfg : LoopConfig) : Nat := turnsIn (cfg.warmup + cfg.duration)

def prefillTurns (total : Nat) : Nat := stallTurns + total * (stallTurns + 1)

/-- The turns the loop has left. One that has seen a signal has one. -/
def budget {W : Type} (cfg : LoopConfig) (total : Nat) (s : RunState W) : Nat :=
  if s.loop.outcome.isSome then 0
  else if s.signalSeen then 1
  else
    match s.loop.currentPhase with
    | .precheck => turnsUntil (s.loop.precheckStart.getD s.clock + cfg.precheckTimeout) s.clock +
        prefillTurns total + measureTurns cfg + 4
    | .prefill => turnsUntil (s.loop.lastPrefillProgressTime + prefillStallThreshold) s.clock +
        (total - s.loop.lastPrefillConfirmed) * (stallTurns + 1) + measureTurns cfg + 3
    | _ => turnsUntil (s.loop.warmupStart.getD s.clock + (cfg.warmup + cfg.duration : Nat))
        s.clock + 2

/-- The most turns a run takes once its precheck timer runs. -/
def turnBound (cfg : LoopConfig) (total : Nat) : Nat :=
  turnsIn cfg.precheckTimeout + prefillTurns total + measureTurns cfg + 4

variable {W : Type} {cfg : LoopConfig} {start : Int} {total : Nat} {s : RunState W} {turn : Turn}

section Alive

variable (hout : s.loop.outcome = none) (hsignal : s.signalSeen = false)

include hout hsignal

theorem budget_precheck {t : Int} (h : s.loop.currentPhase = .precheck)
    (ht : s.loop.precheckStart = some t) : budget cfg total s =
      turnsUntil (t + cfg.precheckTimeout) s.clock + prefillTurns total + measureTurns cfg + 4 := by
  simp [budget, hout, hsignal, h, ht]

theorem budget_prefill (h : s.loop.currentPhase = .prefill) : budget cfg total s =
    turnsUntil (s.loop.lastPrefillProgressTime + prefillStallThreshold) s.clock +
      (total - s.loop.lastPrefillConfirmed) * (stallTurns + 1) + measureTurns cfg + 3 := by
  simp [budget, hout, hsignal, h]

theorem budget_measure {t : Int}
    (h : s.loop.currentPhase = .warmup ∨ s.loop.currentPhase = .running)
    (ht : s.loop.warmupStart = some t) : budget cfg total s =
      turnsUntil (t + (cfg.warmup + cfg.duration : Nat)) s.clock + 2 := by
  rcases h with h | h <;> simp [budget, hout, hsignal, h, ht]

end Alive

theorem budget_stopped (h : s.loop.outcome.isSome) : budget cfg total s = 0 := if_pos h

/-- What the loop noted the time of is past. -/
structure Timed (s : RunState W) : Prop where
  phase : s.loop.currentPhase ≠ .connect ∧ s.loop.currentPhase ≠ .stop
  precheck : ∀ t, s.loop.precheckStart = some t → t ≤ s.clock
  progress : s.loop.lastPrefillProgressTime ≤ s.clock
  warmup : s.loop.currentPhase = .warmup ∨ s.loop.currentPhase = .running →
    ∃ t, s.loop.warmupStart = some t ∧ t ≤ s.clock

/-- The precheck timer runs, or has done its work. -/
def HasTimer (s : RunState W) : Prop :=
  s.loop.currentPhase = .precheck → ∃ t, s.loop.precheckStart = some t

theorem budget_le (cfg : LoopConfig) (total : Nat) (h : Timed s) (htimer : HasTimer s) :
    budget cfg total s ≤ turnBound cfg total := by
  unfold turnBound prefillTurns
  cases hout : s.loop.outcome with
  | some outcome =>
    rw [budget_stopped (by rw [hout]; rfl)]
    omega
  | none =>
  cases hsignal : s.signalSeen with
  | true =>
    have hone : budget cfg total s = 1 := by simp [budget, hout, hsignal]
    omega
  | false =>
  cases hphase : s.loop.currentPhase with
  | connect => exact absurd hphase h.phase.1
  | stop => exact absurd hphase h.phase.2
  | precheck =>
    obtain ⟨t, ht⟩ := htimer hphase
    have := turnsUntil_le cfg.precheckTimeout (h.precheck t ht)
    rw [budget_precheck hout hsignal hphase ht, prefillTurns]
    omega
  | prefill =>
    have := turnsUntil_le prefillStallThreshold h.progress
    have := Nat.mul_le_mul_right (stallTurns + 1)
      (Nat.sub_le total s.loop.lastPrefillConfirmed)
    rw [budget_prefill hout hsignal hphase]
    unfold stallTurns at *
    omega
  | warmup =>
    obtain ⟨t, ht, hle⟩ := h.warmup (.inl hphase)
    have := turnsUntil_le (cfg.warmup + cfg.duration) hle
    rw [budget_measure hout hsignal (.inl hphase) ht]
    unfold measureTurns
    omega
  | running =>
    obtain ⟨t, ht, hle⟩ := h.warmup (.inr hphase)
    have := turnsUntil_le (cfg.warmup + cfg.duration) hle
    rw [budget_measure hout hsignal (.inr hphase) ht]
    unfold measureTurns
    omega

theorem Turn.Fits.clock_le (hfits : turn.Fits cfg total s) : s.clock ≤ turn.later := by
  have hsleep := hfits.1
  have hlater := hfits.2.1
  unfold turnSleep at hsleep
  omega

/-- Where there is no key to prefill, none is confirmed. -/
def Assigned (total : Nat) (s : RunState W) : Prop := total = 0 → s.confirmed = 0

/-- What a turn after which the loop goes on does to the budget, when no signal has come. -/
def Spends (cfg : LoopConfig) (total : Nat) (s s' : RunState W) : Prop :=
  Timed s' ∧ (HasTimer s → HasTimer s' ∧ (s.signalSeen = false → s.running = true →
    Assigned total s → budget cfg total s' < budget cfg total s))

theorem precheckTimer_le {t : Int} (hT : Timed s) (hfits : turn.Fits cfg total s)
    (h : precheckTimer cfg s.loop turn = some t) : t ≤ turn.later := by
  have hclock := hfits.clock_le
  have hlater := hfits.2.1
  unfold precheckTimer at h
  split at h
  case h_1 t' ht' =>
    cases h
    exact (hT.precheck t ht').trans hclock
  case h_2 =>
    split at h
    · cases h
      exact hlater
    · split at h
      · cases h
        omega
      · cases h

section After

variable {l : LoopState} {n : Nat} (hrunning : s.running = true) (hout : l.outcome = none)

include hrunning hout

theorem budget_after_precheck {t : Int} (h : l.currentPhase = .precheck)
    (ht : l.precheckStart = some t) (hn : turnsUntil (t + cfg.precheckTimeout) turn.later +
      prefillTurns total + measureTurns cfg + 4 < n) : budget cfg total (s.after turn l) < n := by
  rwa [budget_precheck (s := s.after turn l) hout (by simp [RunState.after, hrunning]) h ht]

theorem budget_after_prefill (h : l.currentPhase = .prefill)
    (hn : turnsUntil (l.lastPrefillProgressTime + prefillStallThreshold) turn.later +
      (total - l.lastPrefillConfirmed) * (stallTurns + 1) + measureTurns cfg + 3 < n) :
    budget cfg total (s.after turn l) < n := by
  rwa [budget_prefill (s := s.after turn l) hout (by simp [RunState.after, hrunning]) h]

theorem budget_after_measure {t : Int} (h : l.currentPhase = .warmup ∨ l.currentPhase = .running)
    (ht : l.warmupStart = some t)
    (hn : turnsUntil (t + (cfg.warmup + cfg.duration : Nat)) turn.later + 2 < n) :
    budget cfg total (s.after turn l) < n := by
  rwa [budget_measure (s := s.after turn l) hout (by simp [RunState.after, hrunning]) h ht]

end After

section Turn

variable (hfits : turn.Fits cfg total s) (hout : s.loop.outcome = none) (hT : Timed s)
  (hgo : ¬turn.interrupted = true) (halive : (loopTurn cfg start s.loop turn).outcome = none)

include hfits hout hT hgo halive

theorem turn_precheck (h : s.loop.currentPhase = .precheck) :
    Spends cfg total s (s.after turn (loopTurn cfg start s.loop turn)) := by
  have hclock := hfits.clock_le
  have hprogress := hT.progress.trans hclock
  have hpast : ∀ t, s.loop.precheckStart = some t → t ≤ turn.later :=
    fun t ht => (hT.precheck t ht).trans hclock
  have hnot : ¬(s.loop.currentPhase = .warmup ∨ s.loop.currentPhase = .running) := by
    rw [h]
    rintro (hm | hm) <;> cases hm
  rw [loopTurn_precheck hgo h] at halive
  rw [loopTurn_precheck hgo h]
  rcases precheckTurn_cases cfg s.loop turn with h' | ⟨h', hwait⟩ | ⟨-, -, h'⟩ |
    ⟨-, -, kv, trace, h'⟩ | ⟨t', ht', ⟨-, h'⟩ | ⟨hlate, h'⟩⟩
  all_goals rw [h'] at halive ⊢
  · cases halive
  · -- no timer yet, or the wait for the reader was cut short by the signal
    refine ⟨⟨hT.phase, hpast, hprogress, fun hm => absurd hm hnot⟩,
      fun htimer => ⟨htimer, fun hsignal hrunning hkeys => ?_⟩⟩
    obtain ⟨t, ht⟩ := htimer h
    rcases hwait with hwait | hwait
    · have hsignalled := hfits.2.2.2.2.2.2.2.1 (.inr hwait)
      rw [hrunning] at hsignalled
      cases hsignalled
    · rw [precheckTimer, ht] at hwait
      cases hwait
  · refine ⟨⟨⟨Phase.noConfusion, Phase.noConfusion⟩, hpast, Int.le_refl _, fun hm => by
      rcases hm with hm | hm <;> cases hm⟩,
      fun htimer => ⟨Phase.noConfusion, fun hsignal hrunning hkeys => ?_⟩⟩
    obtain ⟨t, ht⟩ := htimer h
    have hstall := turnsUntil_le prefillStallThreshold (Int.le_refl turn.later)
    have hturns := Nat.mul_le_mul_right (stallTurns + 1)
      (Nat.sub_le total s.loop.lastPrefillConfirmed)
    refine budget_after_prefill hrunning halive rfl ?_
    rw [budget_precheck hout hsignal h ht, prefillTurns]
    simp only [enterPrefill, setPhase, stallTurns] at hturns ⊢
    omega
  · refine ⟨⟨⟨Phase.noConfusion, Phase.noConfusion⟩, hpast, hprogress,
      fun _ => ⟨turn.later, rfl, Int.le_refl _⟩⟩,
      fun htimer => ⟨Phase.noConfusion, fun hsignal hrunning hkeys => ?_⟩⟩
    obtain ⟨t, ht⟩ := htimer h
    have hmeasure := turnsUntil_le (cfg.warmup + cfg.duration) (Int.le_refl turn.later)
    refine budget_after_measure hrunning halive (.inl rfl) rfl ?_
    rw [budget_precheck hout hsignal h ht, measureTurns]
    omega
  · cases halive
  · refine ⟨⟨hT.phase, ?_, hprogress, fun hm => absurd hm hnot⟩,
      fun htimer => ⟨fun _ => ⟨t', rfl⟩, fun hsignal hrunning hkeys => ?_⟩⟩
    · intro t ht
      cases ht
      exact precheckTimer_le hT hfits ht'
    obtain ⟨t, ht⟩ := htimer h
    rw [precheckTimer, ht] at ht'
    cases ht'
    have hnow : turn.now < t' + cfg.precheckTimeout := by
      have := hfits.2.1
      unfold elapsed at hlate
      omega
    have hless := turnsUntil_lt hfits.1 hnow hfits.2.1
    refine budget_after_precheck hrunning halive h rfl ?_
    rw [budget_precheck hout hsignal h ht]
    omega

theorem turn_prefill (h : s.loop.currentPhase = .prefill) :
    Spends cfg total s (s.after turn (loopTurn cfg start s.loop turn)) := by
  have hclock := hfits.clock_le
  have htotal' : turn.total = total := hfits.2.2.2.2.2.1
  have hprogress := hT.progress.trans hclock
  have hpast : ∀ t, s.loop.precheckStart = some t → t ≤ turn.later :=
    fun t ht => (hT.precheck t ht).trans hclock
  have hnot : ¬(s.loop.currentPhase = .warmup ∨ s.loop.currentPhase = .running) := by
    rw [h]
    rintro (hm | hm) <;> cases hm
  have hpre : s.loop.currentPhase ≠ .precheck := by
    rw [h]
    exact Phase.noConfusion
  rw [loopTurn_prefill hgo h] at halive
  rw [loopTurn_prefill hgo h]
  rcases prefillTurn_cases cfg s.loop turn with ⟨-, -, kv, h'⟩ | ⟨hmore, ⟨cause, h'⟩ | ⟨h', hlate⟩⟩
  all_goals rw [h'] at halive ⊢
  · refine ⟨⟨⟨Phase.noConfusion, Phase.noConfusion⟩, hpast, hprogress,
      fun _ => ⟨turn.later, rfl, Int.le_refl _⟩⟩,
      fun _ => ⟨Phase.noConfusion, fun hsignal hrunning hkeys => ?_⟩⟩
    have hmeasure := turnsUntil_le (cfg.warmup + cfg.duration) (Int.le_refl turn.later)
    refine budget_after_measure hrunning halive (.inl rfl) rfl ?_
    rw [budget_prefill hout hsignal h, measureTurns]
    omega
  · cases halive
  · unfold noteProgress at hlate ⊢
    by_cases hmade : s.loop.lastPrefillConfirmed < turn.confirmed
    · -- a key was confirmed: the stall timer starts again
      rw [if_pos hmade]
      refine ⟨⟨hT.phase, hpast, Int.le_refl _, fun hm => absurd hm hnot⟩,
        fun _ => ⟨fun hp => absurd hp hpre, fun hsignal hrunning hkeys => ?_⟩⟩
      have hstall := turnsUntil_le prefillStallThreshold (Int.le_refl turn.later)
      have hless : total - turn.confirmed + 1 ≤ total - s.loop.lastPrefillConfirmed := by
        have hconfirmed := hfits.2.2.2.2.1
        unfold Assigned at hkeys
        omega
      have hturns := Nat.mul_le_mul_right (stallTurns + 1) hless
      rw [Nat.succ_mul] at hturns
      refine budget_after_prefill hrunning hout h ?_
      rw [budget_prefill hout hsignal h]
      simp only [stallTurns] at hturns ⊢
      omega
    · rw [if_neg hmade] at hlate ⊢
      refine ⟨⟨hT.phase, hpast, hprogress, fun hm => absurd hm hnot⟩,
        fun _ => ⟨fun hp => absurd hp hpre, fun hsignal hrunning hkeys => ?_⟩⟩
      have hnow : turn.now < s.loop.lastPrefillProgressTime + prefillStallThreshold := by
        have := hfits.2.1
        unfold elapsed at hlate
        omega
      have hless := turnsUntil_lt hfits.1 hnow hfits.2.1
      refine budget_after_prefill hrunning hout h ?_
      rw [budget_prefill hout hsignal h]
      omega

theorem turn_measure (hsat : cfg.saturationSearch = false)
    (h : s.loop.currentPhase = .warmup ∨ s.loop.currentPhase = .running) :
    Spends cfg total s (s.after turn (loopTurn cfg start s.loop turn)) := by
  obtain ⟨t, ht, hle⟩ := hT.warmup h
  have hclock := hfits.clock_le
  have hprogress := hT.progress.trans hclock
  rw [loopTurn_measure hgo h] at halive
  -- whatever the turn does, it keeps the start of the warmup and goes on in Warmup or Running
  have hkeep : measureDone cfg start s.loop turn = false ∧
      ((measureTurn cfg start s.loop turn).currentPhase = .warmup ∨
        (measureTurn cfg start s.loop turn).currentPhase = .running) ∧
      (measureTurn cfg start s.loop turn).warmupStart = some t ∧
      (measureTurn cfg start s.loop turn).precheckStart = s.loop.precheckStart ∧
      (measureTurn cfg start s.loop turn).lastPrefillProgressTime =
        s.loop.lastPrefillProgressTime := by
    rcases measureTurn_cases cfg start turn h with
      ⟨-, d, h', -⟩ | ⟨hdone, ⟨-, -, h'⟩ | ⟨-, -, h'⟩ | ⟨-, h'⟩⟩
    all_goals rw [h'] at halive ⊢
    · cases halive
    · exact ⟨hdone, .inr rfl, ht, rfl, rfl⟩
    · exact ⟨hdone, h, ht, rfl, rfl⟩
    · refine ⟨hdone, ?_⟩
      unfold report
      split <;> exact ⟨h, ht, rfl, rfl⟩
  obtain ⟨hdone, hphase, hstart, htimer, hsame⟩ := hkeep
  rw [loopTurn_measure hgo h]
  have hnot : ∀ phase, phase ≠ .warmup → phase ≠ .running →
      (measureTurn cfg start s.loop turn).currentPhase ≠ phase := by
    rintro phase hwarm hrun rfl
    exact hphase.elim hwarm hrun
  refine ⟨⟨⟨hnot _ Phase.noConfusion Phase.noConfusion, hnot _ Phase.noConfusion
    Phase.noConfusion⟩, fun t' ht' => ?_, hsame.trans_le hprogress,
    fun _ => ⟨t, hstart, hle.trans hclock⟩⟩,
    fun _ => ⟨fun hp => ?_, fun hsignal hrunning hkeys => ?_⟩⟩
  · exact (hT.precheck t' (htimer.symm.trans ht')).trans hclock
  · exact absurd hp (hnot _ Phase.noConfusion Phase.noConfusion)
  · have hnow : turn.now < t + (cfg.warmup + cfg.duration : Nat) := by
      simp only [measureDone, Bool.or_eq_false_iff, sinceWarmup, ht, Option.getD_some, hsat,
        Bool.not_false, Bool.and_true, decide_eq_false_iff_not] at hdone
      have hearly := hdone.2
      unfold elapsed at hearly
      omega
    have hless := turnsUntil_lt hfits.1 hnow hfits.2.1
    refine budget_after_measure hrunning halive hphase hstart ?_
    rw [budget_measure hout hsignal h ht]
    omega

end Turn

/-! ## The run -/

/-- While the loop runs, the times it noted are past. -/
def AliveTimed (s : RunState W) : Prop := s.loop.outcome = none → Timed s

theorem two_le_budget (cfg : LoopConfig) (total : Nat) (hout : s.loop.outcome = none)
    (hsignal : s.signalSeen = false) : 2 ≤ budget cfg total s := by
  unfold budget
  rw [if_neg (by simp [hout]), if_neg (by simp [hsignal])]
  split <;> omega

theorem one_le_budget (cfg : LoopConfig) (total : Nat) (hout : s.loop.outcome = none) :
    1 ≤ budget cfg total s := by
  cases hsignal : s.signalSeen with
  | true => simp [budget, hout, hsignal]
  | false => exact (two_le_budget cfg total hout hsignal).trans' (by decide)

theorem timed_init [Fintype W] (hasConnections : W → Bool) :
    Timed (RunState.init cfg hasConnections start) where
  phase := ⟨Phase.noConfusion, Phase.noConfusion⟩
  precheck _ h := by cases h
  progress := Int.le_refl _
  warmup h := by rcases h with h | h <;> cases h

section NoSearch

variable (hsat : cfg.saturationSearch = false)

include hsat

/-- A turn that the loop goes on after. -/
theorem turn_spends (hfits : turn.Fits cfg total s) (hout : s.loop.outcome = none) (hT : Timed s)
    (halive : (loopTurn cfg start s.loop turn).outcome = none) :
    turn.interrupted = false ∧
      Spends cfg total s (s.after turn (loopTurn cfg start s.loop turn)) := by
  have hgo : ¬turn.interrupted = true := by
    intro hsignal
    rw [loopTurn_interrupted hsignal] at halive
    cases halive
  refine ⟨by simpa using hgo, ?_⟩
  cases h : s.loop.currentPhase with
  | connect => exact absurd h hT.phase.1
  | stop => exact absurd h hT.phase.2
  | precheck => exact turn_precheck hfits hout hT hgo halive h
  | prefill => exact turn_prefill hfits hout hT hgo halive h
  | warmup => exact turn_measure hfits hout hT hgo halive hsat (.inl h)
  | running => exact turn_measure hfits hout hT hgo halive hsat (.inr h)

theorem step_aliveTimed [DecidableEq W] {s' : RunState W} {e : RunStep W} (hI : AliveTimed s)
    (hstep : runStep cfg start total s e = some s') : AliveTimed s' := by
  intro halive
  cases he : isTurn e with
  | false =>
    obtain ⟨hloop, hclock, -, -, -⟩ := step_other he hstep
    rw [hloop] at halive
    have hT := hI halive
    constructor
    · rw [hloop]
      exact hT.phase
    · rw [hloop, hclock]
      exact hT.precheck
    · rw [hloop, hclock]
      exact hT.progress
    · rw [hloop, hclock]
      exact hT.warmup
  | true =>
    obtain ⟨turn, -, hout, hfits, rfl⟩ := step_turn he hstep
    exact (turn_spends hsat hfits hout (hI hout) halive).2.1

/-- What every turn of a loop that goes on after it does, signal or not. -/
theorem turn_budget (hfits : turn.Fits cfg total s) (hout : s.loop.outcome = none) (hT : Timed s)
    (htimer : HasTimer s) (hkeys : Assigned total s) :
    ((loopTurn cfg start s.loop turn).outcome = none →
      HasTimer (s.after turn (loopTurn cfg start s.loop turn))) ∧
    budget cfg total (s.after turn (loopTurn cfg start s.loop turn)) < budget cfg total s := by
  have hone := one_le_budget cfg total hout
  cases halive : (loopTurn cfg start s.loop turn).outcome with
  | some outcome =>
    refine ⟨fun h => (by cases h), ?_⟩
    rw [budget_stopped (by rw [after_loop, halive]; rfl)]
    exact hone
  | none =>
    obtain ⟨hgo, hspends⟩ := turn_spends hsat hfits hout hT halive
    obtain ⟨hkeep, hless⟩ := hspends.2 htimer
    refine ⟨fun _ => hkeep, ?_⟩
    have hsignal : s.signalSeen = false := by
      by_contra hseen
      have := hfits.2.2.2.2.2.2.1 (by simpa using hseen)
      rw [hgo] at this
      cases this
    cases hrunning : s.running with
    | true => exact hless hsignal hrunning hkeys
    | false =>
      -- the signal came during the turn: one more is left
      have hlast : budget cfg total (s.after turn (loopTurn cfg start s.loop turn)) = 1 := by
        unfold budget
        rw [if_neg (by simp [halive]), if_pos (by simp [RunState.after, hrunning])]
      rw [hlast]
      exact two_le_budget cfg total hout hsignal

theorem step_budget [DecidableEq W] {s' : RunState W} {e : RunStep W}
    (hI : AliveTimed s ∧ (s.loop.outcome = none → HasTimer s)) (hkeys : Assigned total s)
    (hstep : runStep cfg start total s e = some s') :
    (AliveTimed s' ∧ (s'.loop.outcome = none → HasTimer s')) ∧
      budget cfg total s' + (if isTurn e = true then 1 else 0) ≤ budget cfg total s := by
  have hT := step_aliveTimed hsat hI.1 hstep
  cases he : isTurn e with
  | false =>
    obtain ⟨hloop, hclock, hseen, -, -⟩ := step_other he hstep
    refine ⟨⟨hT, ?_⟩, ?_⟩
    · unfold HasTimer
      rw [hloop]
      exact hI.2
    · unfold budget
      rw [hloop, hclock, hseen]
      exact Nat.le_refl _
  | true =>
    obtain ⟨turn, -, hout, hfits, rfl⟩ := step_turn he hstep
    obtain ⟨hkeep, hless⟩ := turn_budget hsat hfits hout (hI.1 hout) (hI.2 hout) hkeys
    exact ⟨⟨hT, hkeep⟩, hless⟩

omit hsat in
theorem step_confirmed_le [DecidableEq W] {s' : RunState W} {e : RunStep W}
    (hstep : runStep cfg start total s e = some s') : s.confirmed ≤ s'.confirmed := by
  cases e with
  | confirm n =>
    cases hstep
    exact Nat.le_add_right _ _
  | flag w =>
    rw [runStep] at hstep
    split at hstep <;> cases hstep <;> exact Nat.le_refl _
  | complete =>
    rw [runStep] at hstep
    split at hstep <;> cases hstep
    exact Nat.le_refl _
  | turn turn =>
    rw [runStep] at hstep
    split at hstep <;> cases hstep
    exact Nat.le_refl _
  | _ =>
    cases hstep
    exact Nat.le_refl _

/-- **The main loop ends.** Without a saturation search, once the precheck timer runs (it starts
when every worker's event loop does), the loop takes at most `turnBound` more turns, in every
interleaving with the workers: it cannot hang in any of the phases. The workers confirm no key
where there is none to prefill; with keys to prefill, nothing is asked of what they confirm. -/
theorem loop_ends [Fintype W] [DecidableEq W] {hasConnections : W → Bool}
    {es₀ es : List (RunStep W)} {s s' : RunState W}
    (hbefore : run (runStep cfg start total) (.init cfg hasConnections start) es₀ = some s)
    (htimer : s.loop.currentPhase = .precheck → s.loop.precheckStart ≠ none)
    (hrun : run (runStep cfg start total) s es = some s')
    (hkeys : total = 0 → s'.confirmed = 0) : es.countP isTurn ≤ turnBound cfg total := by
  have hT : AliveTimed s := run_inv (step_aliveTimed hsat)
    (fun _ => timed_init hasConnections) hbefore
  have hhas : HasTimer s := fun h => Option.ne_none_iff_exists'.1 (htimer h)
  have hmeets := (meets_le_of_mono RunState.confirmed step_confirmed_le hrun).2
  have hcount := countP_le_of_measure (budget cfg total) isTurn
    (fun hI hle => step_budget hsat hI fun h => by
      have hnone := hkeys h
      omega)
    ⟨hT, fun _ => hhas⟩ hmeets hrun
  cases hout : s.loop.outcome with
  | none =>
    have hle := budget_le cfg total (hT hout) hhas
    omega
  | some outcome =>
    have hspent : budget cfg total s = 0 := budget_stopped (by rw [hout]; rfl)
    omega

end NoSearch

/-- The precheck timer starts. -/
def timerStart : List (RunStep Unit) :=
  [.started, .turn { quietTurn 100000000 with precheckComplete := 0, workersStarted := 1 }]

/-- From there the run goes through every phase in four turns. -/
def timedRun : List (RunStep Unit) :=
  [.flag (), .complete, .turn (quietTurn 200000000), .confirm 3,
    .turn { quietTurn 300000000 with confirmed := 3 }, .turn (quietTurn 400000000),
    .turn (quietTurn 1400000000)]

theorem loop_ends_prefill : ∃ s s', run (runStep prefillConfig 0 3)
    (.init prefillConfig (fun _ => true) 0) timerStart = some s ∧
      run (runStep prefillConfig 0 3) s timedRun = some s' ∧ s'.loop.outcome = some .results ∧
      timedRun.countP isTurn ≤ turnBound prefillConfig 3 := by
  have hbefore : ∃ s, run (runStep prefillConfig 0 3) (.init prefillConfig (fun _ => true) 0)
      timerStart = some s ∧ s.loop.precheckStart ≠ none ∧
      ∃ s', run (runStep prefillConfig 0 3) s timedRun = some s' ∧
        s'.loop.outcome = some .results :=
    ⟨_, rfl, Option.some_ne_none _, _, rfl, rfl⟩
  obtain ⟨s, hbefore, htimer, s', hrun, hresults⟩ := hbefore
  have hends := loop_ends rfl hbefore (fun _ => htimer) hrun fun h => (by cases h)
  exact ⟨s, s', hbefore, hrun, hresults, hends⟩

end Runner
