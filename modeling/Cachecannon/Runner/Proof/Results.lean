import Cachecannon.Runner.Proof.Phases
import Mathlib.Algebra.BigOperators.Group.List.Basic
import Mathlib.Algebra.Order.Ring.Nat

/-!
# What a run reports

The baselines are taken once, as Running begins, and every later reading is at least as large. So
no difference in the samples or in the final report underflows, and the samples with the rest since
the last of them add up to the final report (`samples_add_up`), except for the connections that
fail between the two readings of their counter. A run that never got to Running reports no time,
unless one turn alone was longer than the measurement (`reported_duration`).
-/

namespace Runner

open Worker (Phase)
open LoopState Exec

/-- What a sample says of a counter, if it says anything. -/
def Sample.delta (sample : Sample) : Metric → Option Nat
  | .responsesReceived => some sample.responses
  | .requestErrors => some sample.errors
  | .connectionsFailed => some sample.connFailures
  | .cacheHits => some sample.hits
  | .cacheMisses => some sample.misses
  | _ => none

/-- The counters that the samples report. -/
def Metric.sampled (metric : Metric) : Bool :=
  metric ∈ [.responsesReceived, .requestErrors, .connectionsFailed, .cacheHits, .cacheMisses]

def sampledTotal (samples : List Sample) (metric : Metric) : Nat :=
  (samples.map fun sample => (sample.delta metric).getD 0).sum

theorem sampledTotal_append (samples : List Sample) (sample : Sample) (metric : Metric) :
    sampledTotal (samples ++ [sample]) metric =
      sampledTotal samples metric + (sample.delta metric).getD 0 := by
  simp [sampledTotal]

theorem lastReading_of_ne {turn : Turn} {metric : Metric} (h : metric ≠ .connectionsFailed) :
    turn.lastReading metric = turn.reading metric :=
  Function.update_of_ne h _ _

theorem lastReading_self (turn : Turn) :
    turn.lastReading .connectionsFailed = turn.connsFailedAgain :=
  Function.update_self _ _ _

variable {W : Type} {cfg : LoopConfig} {start : Int} {total : Nat} {s s' : RunState W}

/-- What the turn reads is no less than what the last one read. -/
theorem Turn.Fits.grows {turn : Turn} (h : turn.Fits cfg total s) (metric : Metric) :
    s.lastRead metric ≤ turn.reading metric := h.2.2.2.2.2.2.2.2.1 metric

theorem Turn.Fits.reads_again {turn : Turn} (h : turn.Fits cfg total s) (metric : Metric) :
    turn.reading metric ≤ turn.lastReading metric := by
  by_cases hmetric : metric = .connectionsFailed
  · rw [hmetric, lastReading_self]
    exact h.2.2.2.2.2.2.2.2.2
  · rw [lastReading_of_ne hmetric]

structure ReportInv (s : RunState W) : Prop where
  baseline_le : ∀ metric, s.loop.baseline metric ≤ s.loop.last metric
  last_le : ∀ metric, s.loop.last metric ≤ s.lastRead metric
  samples : ∀ metric, metric.sampled = true →
    s.loop.baseline metric + sampledTotal s.loop.samples metric ≤ s.loop.last metric
  samples_eq : ∀ metric, metric.sampled = true → metric ≠ .connectionsFailed →
    s.loop.baseline metric + sampledTotal s.loop.samples metric = s.loop.last metric
  running : s.loop.runningStart ≠ none ↔ s.loop.currentPhase = .running
  unrecorded : s.loop.runningStart = none →
    (∀ metric, s.loop.baseline metric = 0) ∧ s.loop.samples = []

theorem reportInv_init [Fintype W] (cfg : LoopConfig) (hasConnections : W → Bool) (start : Int) :
    ReportInv (RunState.init cfg hasConnections start) where
  baseline_le _ := Nat.le_refl _
  last_le _ := Nat.le_refl _
  samples _ _ := Nat.le_refl _
  samples_eq _ _ _ := rfl
  running := ⟨fun h => absurd rfl h, fun h => by cases h⟩
  unrecorded _ := ⟨fun _ => rfl, rfl⟩

/-- A turn that starts no measurement and prints no sample leaves the report as it is. -/
structure SameReport (s s' : LoopState) : Prop where
  baseline : s'.baseline = s.baseline
  last : s'.last = s.last
  samples : s'.samples = s.samples
  runningStart : s'.runningStart = s.runningStart
  running : s'.currentPhase = .running ↔ s.currentPhase = .running

theorem SameReport.inv {turn : Turn} {loop : LoopState} (h : SameReport s.loop loop)
    (hI : ReportInv s) (hfits : turn.Fits cfg total s) : ReportInv (s.after turn loop) := by
  refine ⟨?_, ?_, ?_, ?_, ?_, ?_⟩
  · rw [after_loop, h.baseline, h.last]
    exact hI.baseline_le
  · rw [after_loop, h.last]
    intro metric
    exact ((hI.last_le metric).trans (hfits.grows metric)).trans (hfits.reads_again metric)
  · rw [after_loop, h.baseline, h.last, h.samples]
    exact hI.samples
  · rw [after_loop, h.baseline, h.last, h.samples]
    exact hI.samples_eq
  · rw [after_loop, h.runningStart, h.running]
    exact hI.running
  · rw [after_loop, h.runningStart, h.baseline, h.samples]
    exact hI.unrecorded

/-- What a turn does to the report: nothing, or it begins one, or it adds a sample to it. -/
theorem loopTurn_report (start : Int) {s : LoopState} (turn : Turn)
    (hphase : s.currentPhase ∈ plan cfg) :
    SameReport s (loopTurn cfg start s turn) ∨
      (s.currentPhase = .warmup ∧ loopTurn cfg start s turn = s.enterRunning cfg turn) ∨
      (s.currentPhase = .running ∧ loopTurn cfg start s turn = s.report turn) := by
  by_cases hsignal : turn.interrupted = true
  · rw [loopTurn_interrupted hsignal]
    exact .inl ⟨rfl, rfl, rfl, rfl, Iff.rfl⟩
  cases h : s.currentPhase with
  | connect => rw [h] at hphase; simp [plan] at hphase
  | stop => rw [h] at hphase; simp [plan] at hphase
  | precheck =>
    rw [loopTurn_precheck hsignal h]
    rcases precheckTurn_cases cfg s turn with h' | ⟨h', -⟩ | ⟨-, -, h'⟩ | ⟨-, -, kv, trace, h'⟩ |
      ⟨t, -, ⟨-, h'⟩ | ⟨-, h'⟩⟩
    all_goals rw [h']; exact .inl ⟨rfl, rfl, rfl, rfl, by
      simp [stop, setPhase, enterPrefill, enterWarmup, startKv, startTrace, h]⟩
  | prefill =>
    have hprogress : SameReport s (s.noteProgress turn) := by
      unfold noteProgress
      split <;> exact ⟨rfl, rfl, rfl, rfl, Iff.rfl⟩
    rw [loopTurn_prefill hsignal h]
    rcases prefillTurn_cases cfg s turn with ⟨-, -, kv, h'⟩ | ⟨-, ⟨cause, h'⟩ | ⟨h', -⟩⟩
    all_goals rw [h']
    · exact .inl ⟨rfl, rfl, rfl, rfl, by simp [enterWarmup, h]⟩
    · exact .inl ⟨hprogress.baseline, hprogress.last, hprogress.samples, hprogress.runningStart,
        hprogress.running⟩
    · exact .inl hprogress
  | warmup =>
    rw [loopTurn_measure hsignal (.inl h)]
    rcases measureTurn_cases cfg start turn (.inl h) with
      ⟨-, d, h', -⟩ | ⟨-, ⟨-, -, h'⟩ | ⟨-, -, h'⟩ | ⟨hrunning, -⟩⟩
    · rw [h']
      exact .inl ⟨rfl, rfl, rfl, rfl, Iff.rfl⟩
    · exact .inr (.inl ⟨rfl, h'⟩)
    · rw [h']
      exact .inl ⟨rfl, rfl, rfl, rfl, Iff.rfl⟩
    · rw [h] at hrunning
      cases hrunning
  | running =>
    rw [loopTurn_measure hsignal (.inr h)]
    rcases measureTurn_cases cfg start turn (.inr h) with
      ⟨-, d, h', -⟩ | ⟨-, ⟨hwarm, -, -⟩ | ⟨hwarm, -, -⟩ | ⟨-, h'⟩⟩
    · rw [h']
      exact .inl ⟨rfl, rfl, rfl, rfl, Iff.rfl⟩
    · rw [h] at hwarm
      cases hwarm
    · rw [h] at hwarm
      cases hwarm
    · exact .inr (.inr ⟨rfl, h'⟩)

theorem enterRunning_inv {turn : Turn} (hI : ReportInv s) (hfits : turn.Fits cfg total s)
    (h : s.loop.currentPhase = .warmup) :
    ReportInv (s.after turn (s.loop.enterRunning cfg turn)) := by
  have hnone : s.loop.runningStart = none := by
    by_contra hsome
    have hrunning := hI.running.1 hsome
    rw [h] at hrunning
    cases hrunning
  have hempty : (s.loop.enterRunning cfg turn).samples = [] := (hI.unrecorded hnone).2
  refine ⟨hfits.reads_again, fun _ => Nat.le_refl _, fun metric _ => ?_, fun metric _ hne => ?_,
    ⟨fun _ => rfl, fun _ => Option.some_ne_none _⟩, fun h => (by cases h)⟩
  · rw [after_loop, hempty]
    exact hfits.reads_again metric
  · rw [after_loop, hempty]
    exact (lastReading_of_ne hne).symm

/-- A sample says of each of its counters how much it grew. -/
theorem report_delta {turn : Turn} {last : Metric → Nat} {metric : Metric}
    (hsampled : metric.sampled = true) : (Sample.delta {
      responses := turn.reading .responsesReceived - last .responsesReceived
      errors := turn.reading .requestErrors - last .requestErrors
      connFailures := turn.reading .connectionsFailed - last .connectionsFailed
      hits := turn.reading .cacheHits - last .cacheHits
      misses := turn.reading .cacheMisses - last .cacheMisses } metric).getD 0 =
        turn.reading metric - last metric := by
  cases metric with
  | responsesReceived | requestErrors | connectionsFailed | cacheHits | cacheMisses => rfl
  | _ => exact absurd hsampled (by decide)

theorem report_inv {turn : Turn} (hI : ReportInv s) (h : s.loop.currentPhase = .running)
    (hfits : turn.Fits cfg total s) : ReportInv (s.after turn (s.loop.report turn)) := by
  unfold report
  split
  case isFalse =>
    exact SameReport.inv ⟨rfl, rfl, rfl, rfl, Iff.rfl⟩ hI hfits
  case isTrue =>
    have hgrow : ∀ metric, s.loop.last metric ≤ turn.reading metric :=
      fun metric => (hI.last_le metric).trans (hfits.grows metric)
    refine ⟨fun metric => (hI.baseline_le metric).trans (hgrow metric), hfits.reads_again,
      fun metric hsampled => ?_, fun metric hsampled hne => ?_, hI.running,
      fun hnone => absurd hnone (hI.running.2 h)⟩
    all_goals have hgrow := hgrow metric
    all_goals simp only [after_loop, sampledTotal_append, report_delta hsampled]
    · have hbefore := hI.samples metric hsampled
      omega
    · have hbefore := hI.samples_eq metric hsampled hne
      omega

theorem step_reportInv [Fintype W] [DecidableEq W] {e : RunStep W}
    (hthreads : cfg.numThreads = Fintype.card W) (hI : PhaseInv cfg total s ∧ ReportInv s)
    (hstep : runStep cfg start total s e = some s') : PhaseInv cfg total s' ∧ ReportInv s' := by
  refine ⟨step_phaseInv hthreads hI.1 hstep, ?_⟩
  obtain ⟨hP, hR⟩ := hI
  cases he : isTurn e with
  | false =>
    obtain ⟨hloop, -, -, hread, -⟩ := step_other he hstep
    constructor
    · rw [hloop]
      exact hR.baseline_le
    · rw [hloop, hread]
      exact hR.last_le
    · rw [hloop]
      exact hR.samples
    · rw [hloop]
      exact hR.samples_eq
    · rw [hloop]
      exact hR.running
    · rw [hloop]
      exact hR.unrecorded
  | true =>
    obtain ⟨turn, -, -, hfits, rfl⟩ := step_turn he hstep
    rcases loopTurn_report start turn hP.phase with h | ⟨hwarm, h⟩ | ⟨hrunning, h⟩
    · exact h.inv hR hfits
    · rw [h]
      exact enterRunning_inv hR hfits hwarm
    · rw [h]
      exact report_inv hR hrunning hfits

/-- **The samples add up to the final report.** A run's readings of a counter only grow
(`Metrics.delta_between`), so no baseline and no earlier sample is above a later reading: the
subtractions do not underflow. And the samples a run has printed, with what came after the last of
them, are what the final report says. Of the connection failures they are at most that: those
between the baseline and the second reading of the counter are in no sample. -/
theorem samples_add_up [Fintype W] [DecidableEq W] {hasConnections : W → Bool}
    {es : List (RunStep W)} {final : Metric → Nat} (hthreads : cfg.numThreads = Fintype.card W)
    (hrun : run (runStep cfg start total) (.init cfg hasConnections start) es = some s)
    (hfinal : ∀ metric, s.lastRead metric ≤ final metric) :
    (∀ metric, s.loop.baseline metric ≤ s.loop.last metric ∧
      s.loop.last metric ≤ final metric) ∧
    ∀ metric, metric.sampled = true →
      sampledTotal s.loop.samples metric + (final metric - s.loop.last metric) ≤
        s.loop.results final metric ∧
      (metric ≠ .connectionsFailed →
        sampledTotal s.loop.samples metric + (final metric - s.loop.last metric) =
          s.loop.results final metric) := by
  have hinit := And.intro (phaseInv_init cfg total hasConnections start)
    (reportInv_init cfg hasConnections start)
  have hI := (run_inv (step_reportInv hthreads) hinit hrun).2
  have hle : ∀ metric, s.loop.last metric ≤ final metric :=
    fun metric => (hI.last_le metric).trans (hfinal metric)
  refine ⟨fun metric => ⟨hI.baseline_le metric, hle metric⟩, fun metric hsampled => ⟨?_, ?_⟩⟩
  all_goals have hle := hle metric
  all_goals unfold LoopState.results
  · have hsum := hI.samples metric hsampled
    omega
  · intro hne
    have hsum := hI.samples_eq metric hsampled hne
    omega

/-- Three seconds of measurement, without prefill. -/
def measureConfig : LoopConfig :=
  { prefillConfig with
    prefillEnabled := false
    duration := 3000000000 }

/-- `quietTurn`, with the counters at `count`, and at `again` when read once more. -/
def countingTurn (now : Int) (count again : Nat) : Turn :=
  { quietTurn now with
    reading := fun _ => count
    connsFailedAgain := again }

/-- Running from 0.2 s on, one sample a second later, and the end at 3.3 s. Two connections fail
as Running begins. -/
def measuredRun : List (RunStep Unit) :=
  [.flag (), .complete, .turn (quietTurn 100000000), .turn (countingTurn 200000000 5 7),
    .turn (countingTurn 1200000000 12 12), .turn (countingTurn 3300000000 20 20)]

theorem samples_add_up_measured : ∃ s, run (runStep measureConfig 0 3)
    (.init measureConfig (fun _ => true) 0) measuredRun = some s ∧
      s.loop.samples = [{
        responses := 7
        errors := 7
        connFailures := 5
        hits := 7
        misses := 7 }] ∧
      s.loop.last .connectionsFailed = 12 ∧
      7 + (25 - 12) = s.loop.results (fun _ => 25) .responsesReceived ∧
      5 + (25 - 12) ≤ s.loop.results (fun _ => 25) .connectionsFailed := by
  have hrun : ∃ s, run (runStep measureConfig 0 3) (.init measureConfig (fun _ => true) 0)
      measuredRun = some s ∧ (∀ metric, s.lastRead metric ≤ 25) ∧
      s.loop.samples = [⟨7, 7, 5, 7, 7⟩] ∧
      s.loop.last .responsesReceived = 12 ∧ s.loop.last .connectionsFailed = 12 :=
    ⟨_, rfl, by decide, rfl, rfl, rfl⟩
  obtain ⟨s, hrun, hread, hsamples, hlast, hlastFailed⟩ := hrun
  have hsum := (samples_add_up rfl hrun hread).2
  have hresponses := (hsum .responsesReceived rfl).2 Metric.noConfusion
  have hfailed := (hsum .connectionsFailed rfl).1
  rw [hsamples, hlast] at hresponses
  rw [hsamples, hlastFailed] at hfailed
  exact ⟨s, hrun, hsamples, hlastFailed, hresponses, hfailed⟩

/-! ## The reported duration -/

/-- A turn that begins less than the measured time after the one before it. -/
def InTime (cfg : LoopConfig) (s : RunState W) : RunStep W → Prop
  | .turn turn => turn.now < s.turnAt + cfg.duration
  | _ => True

/-- The duration that a run reports: of what it measured, or none. -/
def Reported (s : RunState W) : Prop :=
  s.loop.actualDuration = s.loop.runningStart.elim 0 (elapsed · s.turnAt)

structure DurationInv (cfg : LoopConfig) (s : RunState W) : Prop where
  alive : s.loop.outcome = none → s.loop.actualDuration = cfg.duration
  warmup : s.loop.outcome = none → s.loop.currentPhase = .warmup →
    ∃ t, s.loop.warmupStart = some t ∧ s.turnAt ≤ t + cfg.warmup
  saturation : s.loop.currentPhase ≠ .running → s.loop.saturationState = false
  reported : s.loop.outcome = some .results → Reported s

theorem not_running {phase : Phase} (hR : ReportInv s) (h : s.loop.currentPhase = phase)
    (hne : phase ≠ .running) : s.loop.currentPhase ≠ .running ∧ s.loop.runningStart = none := by
  have hphase : s.loop.currentPhase ≠ .running := by rwa [h]
  exact ⟨hphase, by_contra fun hsome => hphase (hR.running.1 hsome)⟩

theorem interrupted_durationInv {turn : Turn} (hD : DurationInv cfg s)
    (hsignal : turn.interrupted = true) :
    DurationInv cfg (s.after turn (loopTurn cfg start s.loop turn)) := by
  rw [loopTurn_interrupted hsignal]
  exact ⟨fun h => (by cases h), fun h => (by cases h), hD.saturation, fun _ => rfl⟩

section Turn

variable {turn : Turn} (hR : ReportInv s) (hD : DurationInv cfg s) (hfits : turn.Fits cfg total s)
  (hout : s.loop.outcome = none)

include hD hout

/-- A turn the loop goes on after, in a phase that is neither Warmup nor Running before it. -/
theorem after_durationInv {loop : LoopState} (hnot : s.loop.currentPhase ≠ .running)
    (hduration : loop.actualDuration = s.loop.actualDuration) (hloop : loop.outcome = none)
    (hsaturation : loop.saturationState = s.loop.saturationState)
    (hwarm : loop.currentPhase = .warmup →
      ∃ t, loop.warmupStart = some t ∧ turn.now ≤ t + cfg.warmup) :
    DurationInv cfg (s.after turn loop) where
  alive _ := hduration.trans (hD.alive hout)
  warmup _ := hwarm
  saturation _ := hsaturation.trans (hD.saturation hnot)
  reported h := by
    rw [after_loop, hloop] at h
    cases h

include hR hfits

theorem precheck_durationInv (hgo : ¬turn.interrupted = true)
    (h : s.loop.currentPhase = .precheck) :
    DurationInv cfg (s.after turn (loopTurn cfg start s.loop turn)) := by
  obtain ⟨hnot, hnone⟩ := not_running hR h Phase.noConfusion
  have hwarm : ¬s.loop.currentPhase = .warmup := by
    rw [h]
    exact Phase.noConfusion
  have hlater := hfits.2.1
  rw [loopTurn_precheck hgo h]
  rcases precheckTurn_cases cfg s.loop turn with h' | ⟨h', -⟩ | ⟨-, -, h'⟩ |
    ⟨-, -, kv, trace, h'⟩ | ⟨t, -, ⟨-, h'⟩ | ⟨-, h'⟩⟩
  all_goals rw [h']
  · refine ⟨fun h => (by cases h), fun h => (by cases h), hD.saturation, fun _ => ?_⟩
    change (0 : Nat) = s.loop.runningStart.elim 0 _
    rw [hnone]
    rfl
  · exact after_durationInv hD hout hnot rfl hout rfl fun hw => absurd hw hwarm
  · exact after_durationInv hD hout hnot rfl hout rfl Phase.noConfusion
  · exact after_durationInv hD hout hnot rfl hout rfl fun _ => ⟨turn.later, rfl, by omega⟩
  · exact ⟨fun h => (by cases h), fun h => (by cases h), hD.saturation, fun h => (by cases h)⟩
  · exact after_durationInv hD hout hnot rfl hout rfl fun hw => absurd hw hwarm

theorem prefill_durationInv (hgo : ¬turn.interrupted = true) (h : s.loop.currentPhase = .prefill) :
    DurationInv cfg (s.after turn (loopTurn cfg start s.loop turn)) := by
  obtain ⟨hnot, -⟩ := not_running hR h Phase.noConfusion
  have hwarm : ¬s.loop.currentPhase = .warmup := by
    rw [h]
    exact Phase.noConfusion
  have hlater := hfits.2.1
  rw [loopTurn_prefill hgo h]
  rcases prefillTurn_cases cfg s.loop turn with ⟨-, -, kv, h'⟩ | ⟨-, ⟨cause, h'⟩ | ⟨h', -⟩⟩
  all_goals rw [h']
  · exact after_durationInv hD hout hnot rfl hout rfl fun _ => ⟨turn.later, rfl, by omega⟩
  · refine ⟨fun h => (by cases h), fun h => (by cases h), ?_, fun h => (by cases h)⟩
    unfold noteProgress
    split <;> exact hD.saturation
  · unfold noteProgress
    split <;> exact after_durationInv hD hout hnot rfl hout rfl fun hw => absurd hw hwarm

theorem warmup_durationInv (hturn : s.turnAt ≤ s.clock) (hC : InTime cfg s (.turn turn))
    (hgo : ¬turn.interrupted = true) (h : s.loop.currentPhase = .warmup) :
    DurationInv cfg (s.after turn (loopTurn cfg start s.loop turn)) := by
  obtain ⟨hnot, hnone⟩ := not_running hR h Phase.noConfusion
  obtain ⟨t, ht, hle⟩ := hD.warmup hout h
  rw [loopTurn_measure hgo (.inl h)]
  rcases measureTurn_cases cfg start turn (.inl h) with
    ⟨hdone, d, h', hd⟩ | ⟨-, ⟨-, -, h'⟩ | ⟨-, hearly, h'⟩ | ⟨hrunning, -⟩⟩
  · -- without a replay that is done, only a turn this late could stop the loop
    have hzero : d = 0 := by
      apply hd.resolve_right
      rintro ⟨hreplay, -⟩
      simp only [measureDone, hD.saturation hnot, hreplay, Bool.false_and, Bool.false_or,
        Bool.and_eq_true, decide_eq_true_eq, sinceWarmup, ht, Option.getD_some] at hdone
      have hlate := hdone.1
      have hsleep := hfits.1
      unfold InTime at hC
      unfold elapsed at hlate
      omega
    rw [h', hnone]
    refine ⟨fun h => (by cases h), fun h => (by cases h), hD.saturation, fun _ => ?_⟩
    change d = s.loop.runningStart.elim 0 _
    rw [hnone, hzero]
    rfl
  · rw [h']
    exact ⟨fun _ => hD.alive hout, fun _ => Phase.noConfusion, fun hne => absurd rfl hne,
      fun hr => (by cases hout.symm.trans hr)⟩
  · rw [h']
    refine after_durationInv hD hout hnot rfl hout rfl fun _ => ⟨t, ht, ?_⟩
    rw [sinceWarmup, ht, Option.getD_some] at hearly
    unfold elapsed at hearly
    omega
  · rw [h] at hrunning
    cases hrunning

omit hfits in
theorem running_durationInv (hgo : ¬turn.interrupted = true) (h : s.loop.currentPhase = .running) :
    DurationInv cfg (s.after turn (loopTurn cfg start s.loop turn)) := by
  rw [loopTurn_measure hgo (.inr h)]
  rcases measureTurn_cases cfg start turn (.inr h) with
    ⟨-, d, h', -⟩ | ⟨-, ⟨hwarm, -, -⟩ | ⟨hwarm, -, -⟩ | ⟨-, h'⟩⟩
  · rw [h']
    refine ⟨fun h => (by cases h), fun h => (by cases h), hD.saturation, fun _ => ?_⟩
    obtain ⟨t, ht⟩ := Option.ne_none_iff_exists'.1 (hR.running.2 h)
    change s.loop.runningStart.elim d _ = s.loop.runningStart.elim 0 _
    rw [ht]
    rfl
  · rw [h] at hwarm
    cases hwarm
  · rw [h] at hwarm
    cases hwarm
  · have hnot : s.loop.currentPhase ≠ .warmup := by
      rw [h]
      exact Phase.noConfusion
    rw [h']
    unfold report
    split <;> exact ⟨fun _ => hD.alive hout, fun _ hw => absurd hw hnot, hD.saturation,
      fun hr => (by cases hout.symm.trans hr)⟩

end Turn

theorem step_durationInv [Fintype W] [DecidableEq W] {e : RunStep W}
    (hthreads : cfg.numThreads = Fintype.card W)
    (hI : (PhaseInv cfg total s ∧ ReportInv s) ∧ DurationInv cfg s ∧ s.turnAt ≤ s.clock)
    (hC : InTime cfg s e) (hstep : runStep cfg start total s e = some s') :
    (PhaseInv cfg total s' ∧ ReportInv s') ∧ DurationInv cfg s' ∧ s'.turnAt ≤ s'.clock := by
  refine ⟨step_reportInv hthreads hI.1 hstep, ?_⟩
  obtain ⟨⟨hP, hR⟩, hD, hle⟩ := hI
  cases he : isTurn e with
  | false =>
    obtain ⟨hloop, hclock, -, -, hturn⟩ := step_other he hstep
    refine ⟨?_, by rw [hturn, hclock]; exact hle⟩
    constructor
    · rw [hloop]
      exact hD.alive
    · rw [hloop, hturn]
      exact hD.warmup
    · rw [hloop]
      exact hD.saturation
    · unfold Reported
      rw [hloop, hturn]
      exact hD.reported
  | true =>
    obtain ⟨turn, rfl, hout, hfits, rfl⟩ := step_turn he hstep
    refine ⟨?_, hfits.2.1⟩
    by_cases hgo : turn.interrupted = true
    · exact interrupted_durationInv hD hgo
    have hphase := hP.phase
    cases h : s.loop.currentPhase with
    | connect => rw [h] at hphase; simp [plan] at hphase
    | stop => rw [h] at hphase; simp [plan] at hphase
    | precheck => exact precheck_durationInv hR hD hfits hout hgo h
    | prefill => exact prefill_durationInv hR hD hfits hout hgo h
    | warmup => exact warmup_durationInv hR hD hfits hout hle hC hgo h
    | running => exact running_durationInv hR hD hout hgo h

/-- **The duration a run reports is the time it measured.** In every run whose turns are less than
the measured time apart: the time since Running was published, or zero for a run that never got
there. -/
theorem reported_duration [Fintype W] [DecidableEq W] {hasConnections : W → Bool}
    {es : List (RunStep W)} (hthreads : cfg.numThreads = Fintype.card W)
    (hrun : run (runStep cfg start total) (.init cfg hasConnections start) es = some s)
    (htime : Meets (runStep cfg start total) (InTime cfg) (.init cfg hasConnections start) es)
    (hresults : s.loop.outcome = some .results) :
    s.loop.actualDuration = s.loop.runningStart.elim 0 (elapsed · s.turnAt) ∧
      (s.loop.runningStart = none ↔ .running ∉ s.loop.published) := by
  have hinit : DurationInv cfg (RunState.init cfg hasConnections start) :=
    ⟨fun _ => rfl, fun _ h => (by cases h), fun _ => rfl, fun h => (by cases h)⟩
  obtain ⟨⟨hP, hR⟩, hD, -⟩ := run_inv_of (step_durationInv hthreads)
    ⟨⟨phaseInv_init cfg total hasConnections start, reportInv_init cfg hasConnections start⟩, hinit,
      Int.le_refl _⟩ htime hrun
  refine ⟨hD.reported hresults, ?_⟩
  have hmem : .running ∈ s.loop.published ↔ s.loop.currentPhase = .running := by
    have hphase := hP.phase
    rw [hP.published, hresults]
    cases h : s.loop.currentPhase with
    | connect => rw [h] at hphase; simp [plan] at hphase
    | stop => rw [h] at hphase; simp [plan] at hphase
    | precheck => simp [upTo]
    | prefill => simp [upTo]
    | warmup => cases hprefill : cfg.prefillEnabled <;> simp [upTo, hprefill]
    | running => simp [upTo, plan]
  rw [hmem, ← hR.running, not_not]

theorem reported_duration_measured : ∃ s, run (runStep measureConfig 0 3)
    (.init measureConfig (fun _ => true) 0) measuredRun = some s ∧
      s.loop.actualDuration = 3100000000 := by
  have hrun : ∃ s, run (runStep measureConfig 0 3) (.init measureConfig (fun _ => true) 0)
      measuredRun = some s ∧ s.loop.outcome = some .results ∧
      s.loop.runningStart = some 200000000 ∧ s.turnAt = 3300000000 := ⟨_, rfl, rfl, rfl, rfl⟩
  obtain ⟨s, hrun, hresults, hstart, hturn⟩ := hrun
  have htime : Meets (runStep measureConfig 0 3) (InTime measureConfig)
      (.init measureConfig (fun _ => true) 0) measuredRun := by
    unfold measuredRun
    refine (meets_cons rfl).2 ⟨trivial, (meets_cons rfl).2 ⟨trivial, (meets_cons rfl).2
      ⟨?_, (meets_cons rfl).2 ⟨?_, (meets_cons rfl).2 ⟨?_, (meets_cons rfl).2 ⟨?_, trivial⟩⟩⟩⟩⟩⟩
    all_goals unfold InTime; decide
  have h := (reported_duration rfl hrun htime hresults).1
  rw [hstart, hturn] at h
  exact ⟨s, hrun, h⟩

end Runner
