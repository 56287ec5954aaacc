import Cachecannon.Runner.Loop

/-!
# What a turn of the main loop does

The loop stops, moves on to the next phase, or stays in its phase. One lemma for each phase says
which, and when.
-/

namespace Runner

open Worker (Phase)
open LoopState

variable {cfg : LoopConfig} {start : Int} {s : LoopState} {turn : Turn}

@[simp] theorem after_loop {W : Type} (s : RunState W) (loop : LoopState) :
    (s.after turn loop).loop = loop := rfl

@[simp] theorem after_clock {W : Type} (s : RunState W) (loop : LoopState) :
    (s.after turn loop).clock = turn.later := rfl

def isTurn {W : Type} : RunStep W → Bool
  | .turn _ => true
  | _ => false

/-- A step that is no turn leaves the main thread alone. -/
theorem step_other {W : Type} [DecidableEq W] {total : Nat} {s s' : RunState W} {e : RunStep W}
    (he : isTurn e = false) (hstep : runStep cfg start total s e = some s') :
    s'.loop = s.loop ∧ s'.clock = s.clock ∧ s'.signalSeen = s.signalSeen ∧
      s'.lastRead = s.lastRead ∧ s'.turnAt = s.turnAt := by
  cases e with
  | turn turn => cases he
  | flag w =>
    rw [runStep] at hstep
    split at hstep <;> cases hstep <;> exact ⟨rfl, rfl, rfl, rfl, rfl⟩
  | complete =>
    rw [runStep] at hstep
    split at hstep <;> cases hstep
    exact ⟨rfl, rfl, rfl, rfl, rfl⟩
  | _ =>
    cases hstep
    exact ⟨rfl, rfl, rfl, rfl, rfl⟩

/-- A step that is a turn. -/
theorem step_turn {W : Type} [DecidableEq W] {total : Nat} {s s' : RunState W} {e : RunStep W}
    (he : isTurn e = true) (hstep : runStep cfg start total s e = some s') :
    ∃ turn, e = .turn turn ∧ s.loop.outcome = none ∧ turn.Fits cfg total s ∧
      s' = s.after turn (loopTurn cfg start s.loop turn) := by
  cases e with
  | turn turn =>
    rw [runStep] at hstep
    split at hstep
    case isTrue hfits => exact ⟨turn, rfl, hfits.1, hfits.2, (Option.some.inj hstep).symm⟩
    case isFalse => cases hstep
  | _ => cases he

theorem elapsed_self (now : Int) : elapsed now now = 0 := by simp [elapsed]

theorem precheckTurn_cases (cfg : LoopConfig) (s : LoopState) (turn : Turn) :
    (precheckTurn cfg s turn = { s.stop .results with actualDuration := 0 }) ∨
    (precheckTurn cfg s turn = s ∧ (readAhead cfg turn = .interrupted ∨
      precheckTimer cfg s turn = none)) ∨
    (cfg.numThreads ≤ turn.precheckComplete ∧ cfg.prefillEnabled = true ∧
      precheckTurn cfg s turn = s.enterPrefill turn) ∨
    (cfg.numThreads ≤ turn.precheckComplete ∧ cfg.prefillEnabled = false ∧
      ∃ kv trace, precheckTurn cfg s turn =
        ((s.startKv kv turn.now).startTrace trace).enterWarmup turn) ∨
    ∃ t, precheckTimer cfg s turn = some t ∧
      ((cfg.precheckTimeout ≤ elapsed t turn.later ∧
        precheckTurn cfg s turn = { s with precheckStart := some t }.stop .precheckFailed) ∨
      (elapsed t turn.later < cfg.precheckTimeout ∧
        precheckTurn cfg s turn = { s with precheckStart := some t })) := by
  unfold precheckTurn
  split
  case isTrue hdone =>
    split
    case h_1 => exact .inl rfl
    case h_2 hwait => exact .inr (.inl ⟨rfl, .inl hwait⟩)
    case h_3 =>
      by_cases hprefill : cfg.prefillEnabled = true
      · exact .inr (.inr (.inl ⟨hdone, hprefill, by rw [if_pos hprefill]⟩))
      · rw [if_neg hprefill]
        exact .inr (.inr (.inr (.inl ⟨hdone, by simpa using hprefill, _, _, rfl⟩)))
  case isFalse =>
    split
    case h_1 htimer => exact .inr (.inl ⟨rfl, .inr htimer⟩)
    case h_2 t htimer =>
      refine .inr (.inr (.inr (.inr ⟨t, htimer, ?_⟩)))
      by_cases hlate : cfg.precheckTimeout ≤ elapsed t turn.later
      · exact .inl ⟨hlate, by simp only [if_pos hlate]⟩
      · exact .inr ⟨by omega, by simp only [if_neg hlate]⟩

theorem prefillTurn_cases (cfg : LoopConfig) (s : LoopState) (turn : Turn) :
    (0 < turn.total ∧ turn.total ≤ turn.confirmed ∧
      ∃ kv, prefillTurn cfg s turn = (s.startKv kv turn.now).enterWarmup turn) ∨
    (¬(0 < turn.total ∧ turn.total ≤ turn.confirmed) ∧
      ((∃ cause, prefillTurn cfg s turn = (s.noteProgress turn).stop (.prefillFailed cause)) ∨
      (prefillTurn cfg s turn = s.noteProgress turn ∧
        elapsed (s.noteProgress turn).lastPrefillProgressTime turn.later <
          prefillStallThreshold))) := by
  unfold prefillTurn
  by_cases hdone : 0 < turn.total ∧ turn.total ≤ turn.confirmed
  · rw [if_pos hdone]
    exact .inl ⟨hdone.1, hdone.2, _, rfl⟩
  · rw [if_neg hdone]
    refine .inr ⟨hdone, ?_⟩
    dsimp only
    split
    case isTrue => exact .inl ⟨_, rfl⟩
    case isFalse hlate =>
      refine .inr ⟨rfl, ?_⟩
      simp only [Bool.or_eq_true, decide_eq_true_eq, not_or] at hlate
      omega

theorem report_later (h : s.lastReport = turn.later) : s.report turn = s := by
  rw [LoopState.report, if_neg]
  rw [h, elapsed_self]
  decide

theorem measureTurn_cases (cfg : LoopConfig) (start : Int) (turn : Turn)
    (hphase : s.currentPhase = .warmup ∨ s.currentPhase = .running) :
    (measureDone cfg start s turn = true ∧ ∃ d, measureTurn cfg start s turn =
        { s.stop .results with actualDuration := s.runningStart.elim d (elapsed · turn.now) } ∧
      (d = 0 ∨ replaysDone cfg turn = false ∧ d = s.actualDuration)) ∨
    (measureDone cfg start s turn = false ∧
      ((s.currentPhase = .warmup ∧ cfg.warmup ≤ sinceWarmup start s turn ∧
        measureTurn cfg start s turn = s.enterRunning cfg turn) ∨
      (s.currentPhase = .warmup ∧ sinceWarmup start s turn < cfg.warmup ∧
        measureTurn cfg start s turn = s) ∨
      (s.currentPhase = .running ∧ measureTurn cfg start s turn = s.report turn))) := by
  unfold measureTurn
  by_cases hdone : measureDone cfg start s turn = true
  · refine .inl ⟨hdone, ?_⟩
    simp only [if_pos hdone]
    by_cases hreplay : replaysDone cfg turn = true
    · cases hrunning : s.runningStart with
      | none => exact ⟨0, by simp [hreplay], .inl rfl⟩
      | some t => exact ⟨0, rfl, .inl rfl⟩
    · refine ⟨s.actualDuration, ?_, .inr ⟨by simpa using hreplay, rfl⟩⟩
      rw [Bool.not_eq_true] at hreplay
      simp [hreplay]
  · refine .inr ⟨by simpa using hdone, ?_⟩
    simp only [if_neg hdone]
    rcases hphase with h | h
    · by_cases hwarm : cfg.warmup ≤ sinceWarmup start s turn
      · refine .inl ⟨h, hwarm, ?_⟩
        have henter : s.currentPhase = .warmup ∧ cfg.warmup ≤ sinceWarmup start s turn :=
          ⟨h, hwarm⟩
        rw [if_pos henter]
        exact (if_pos rfl).trans (report_later rfl)
      · refine .inr (.inl ⟨h, by omega, ?_⟩)
        have hstay : ¬(s.currentPhase = .warmup ∧ cfg.warmup ≤ sinceWarmup start s turn) :=
          fun hboth => hwarm hboth.2
        have hnot : s.currentPhase ≠ .running := by
          rw [h]
          exact Phase.noConfusion
        rw [if_neg hstay, if_neg hnot]
    · refine .inr (.inr ⟨h, ?_⟩)
      have hnot : ¬(s.currentPhase = .warmup ∧ cfg.warmup ≤ sinceWarmup start s turn) := by
        rintro ⟨hwarm, -⟩
        rw [h] at hwarm
        cases hwarm
      rw [if_neg hnot, if_pos h]

/-! ## The turn of each phase -/

theorem loopTurn_interrupted (h : turn.interrupted = true) : loopTurn cfg start s turn =
    { s.stop .results with actualDuration := s.runningStart.elim 0 (elapsed · turn.now) } :=
  if_pos h

section
variable (hsignal : ¬turn.interrupted = true)

include hsignal

theorem loopTurn_precheck (h : s.currentPhase = .precheck) :
    loopTurn cfg start s turn = precheckTurn cfg s turn := by
  rw [loopTurn, if_neg hsignal, h]

theorem loopTurn_prefill (h : s.currentPhase = .prefill) :
    loopTurn cfg start s turn = prefillTurn cfg s turn := by
  rw [loopTurn, if_neg hsignal, h]

theorem loopTurn_measure (h : s.currentPhase = .warmup ∨ s.currentPhase = .running) :
    loopTurn cfg start s turn = measureTurn cfg start s turn := by
  rw [loopTurn, if_neg hsignal]
  rcases h with h | h <;> rw [h]

end

end Runner
