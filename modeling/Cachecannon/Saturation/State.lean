import Cachecannon.Saturation.RateSearch

/-!
# The saturation search (`src/saturation.rs`, `SaturationSearchState`)

`check_and_advance` is called at every turn of the runner's loop. It waits for the drain and
sample windows, judges the window (throughput ratio, then the SLO's thresholds against the
*perceived* percentiles), records a step and drives the rate search. What the metrics say of a
window is an input (`Window`): the achieved rate and the percentiles of the service, perceived
and schedule-slip histograms over it. Times are in nanoseconds, latencies in microseconds, and
`f64` arithmetic is exact.
-/

namespace Saturation

structure SloThresholds where
  p50 : Option Nat
  p99 : Option Nat
  p999 : Option Nat
  deriving Repr, DecidableEq

structure Percentiles where
  p50 : ℚ
  p99 : ℚ
  p999 : ℚ
  deriving Repr, DecidableEq

structure Window where
  achieved : ℚ
  service : Percentiles
  perceived : Percentiles
  slipP99 : ℚ
  deriving Repr, DecidableEq

inductive PercentileLabel
  | p50
  | p99
  | p999
  deriving Repr, DecidableEq

/-- Why a window failed: the figures of the source's message. -/
inductive FailReason
  | throughput (ratio need : ℚ)
  | latency (label : PercentileLabel) (measured threshold : ℚ)
  deriving Repr, DecidableEq

/-- `[workload.saturation_search]`; `mul` is `((rate as f64) * step_multiplier) as u64`. -/
structure SaturationSearch where
  slo : SloThresholds
  startRate : Nat
  startRate_u64 : startRate < 2 ^ 64
  mul : Nat → Nat
  sampleWindow : Nat
  drainWindow : Nat
  maxRate : Nat
  maxRate_u64 : maxRate < 2 ^ 64
  minThroughputRatio : ℚ
  confirmFailures : Nat
  confirmFailures_u32 : confirmFailures < 2 ^ 32
  floorImprovementRatio : ℚ
  bisectTolerance : ℚ
  maxBisectSteps : Nat

/-- The rate search `SaturationSearchState::new` builds. -/
def SaturationSearch.rateConfig (cfg : SaturationSearch) : RateConfig ℚ where
  mul := cfg.mul
  maxRate := cfg.maxRate
  maxRate_u64 := cfg.maxRate_u64
  narrow := exactNarrow cfg.bisectTolerance
  maxBisectSteps := cfg.maxBisectSteps
  confirmFailures := cfg.confirmFailures
  confirmFailures_u32 := cfg.confirmFailures_u32
  floor := exactFloor cfg.floorImprovementRatio

structure SaturationStep where
  targetRate : Nat
  achievedRate : ℚ
  service : Percentiles
  sloPassed : Bool
  failReason : Option FailReason
  sloThresholdUs : Option ℚ
  sloPercentileLabel : PercentileLabel
  sloPercentileUs : ℚ
  perceivedSloUs : ℚ
  throughputRollover : Bool
  slipOnset : Bool
  sloBreach : Bool

structure SaturationSearchState where
  currentRate : Nat
  lastGoodRate : Option Nat
  search : RateSearch ℚ
  stepStart : Nat
  baselineAt : Option Nat
  prevAchieved : ℚ
  slipSeen : Bool
  breachSeen : Bool
  results : List SaturationStep
  completed : Bool

structure SaturationResults where
  maxCompliantRate : Option Nat
  steps : List SaturationStep
  latencyFloor : Bool

/-! ## Judging a window -/

/-- `Duration::as_micros() as f64`. -/
def asMicros (d : Nat) : ℚ := ((d / 1000 : Nat) : ℚ)

def thresholdReason (label : PercentileLabel) (slo : Option Nat) (us : ℚ) : Option FailReason :=
  slo.bind fun threshold =>
    if asMicros threshold < us then some (.latency label us (asMicros threshold)) else none

def sloFailReason (slo : SloThresholds) (p : Percentiles) : Option FailReason :=
  (thresholdReason .p50 slo.p50 p.p50).or <|
    (thresholdReason .p99 slo.p99 p.p99).or <| thresholdReason .p999 slo.p999 p.p999

def sloThresholdUs (slo : SloThresholds) : Option ℚ :=
  ((slo.p999.or slo.p99).or slo.p50).map asMicros

/-- The percentile of the SLO's highest configured threshold (p999 when there is none). -/
def sloPercentile (slo : SloThresholds) (p : Percentiles) : PercentileLabel × ℚ :=
  if slo.p999.isSome then (.p999, p.p999)
  else if slo.p99.isSome then (.p99, p.p99)
  else if slo.p50.isSome then (.p50, p.p50)
  else (.p999, p.p999)

def throughputOk (cfg : SaturationSearch) (rate : Nat) (w : Window) : Bool :=
  decide (cfg.minThroughputRatio ≤ w.achieved / (rate : ℚ))

/-- The verdict of a window measured at `rate`. -/
def sloPassed (cfg : SaturationSearch) (rate : Nat) (w : Window) : Bool :=
  throughputOk cfg rate w && (sloFailReason cfg.slo w.perceived).isNone

def failReason (cfg : SaturationSearch) (rate : Nat) (w : Window) : Option FailReason :=
  if sloPassed cfg rate w then none
  else if !throughputOk cfg rate w then
    some (.throughput (w.achieved / (rate : ℚ)) cfg.minThroughputRatio)
  else sloFailReason cfg.slo w.perceived

namespace SaturationSearchState

def new (cfg : SaturationSearch) (now : Nat) : SaturationSearchState where
  currentRate := cfg.startRate
  lastGoodRate := none
  search := .new cfg.startRate
  stepStart := now
  baselineAt := none
  prevAchieved := 0
  slipSeen := false
  breachSeen := false
  results := []
  completed := false

def step (cfg : SaturationSearch) (s : SaturationSearchState) (w : Window) : SaturationStep where
  targetRate := s.currentRate
  achievedRate := w.achieved
  service := w.service
  sloPassed := sloPassed cfg s.currentRate w
  failReason := failReason cfg s.currentRate w
  sloThresholdUs := sloThresholdUs cfg.slo
  sloPercentileLabel := (sloPercentile cfg.slo w.service).1
  sloPercentileUs := (sloPercentile cfg.slo w.service).2
  perceivedSloUs := (sloPercentile cfg.slo w.perceived).2
  throughputRollover := s.search.isClimbing && decide (0 < s.prevAchieved) &&
    decide (w.achieved < s.prevAchieved)
  slipOnset := !s.slipSeen && decide (1000 < w.slipP99)
  sloBreach := !sloPassed cfg s.currentRate w && !s.breachSeen

/-- The end of a window: record the step and drive the rate search. -/
def endWindow (cfg : SaturationSearch) (s : SaturationSearchState) (now : Nat) (w : Window) :
    SaturationSearchState :=
  let passed := sloPassed cfg s.currentRate w
  let s' := { s with
    results := s.results ++ [s.step cfg w]
    prevAchieved := w.achieved
    slipSeen := s.slipSeen || decide (1000 < w.slipP99)
    breachSeen := s.breachSeen || !passed }
  -- the floor test reads the *service* percentile, whatever the window failed for
  match s.search.advance cfg.rateConfig passed (sloPercentile cfg.slo w.service).2 with
  | (.done knee, search) => { s' with search, lastGoodRate := knee, completed := true }
  | (.probe next, search) =>
    { s' with search, currentRate := next, stepStart := now, baselineAt := none }

/-- Advance to the next step if it is time to; true when a step was completed. -/
def checkAndAdvance (cfg : SaturationSearch) (s : SaturationSearchState) (now : Nat) (w : Window) :
    Bool × SaturationSearchState :=
  if s.completed then (false, s)
  else
    match s.baselineAt with
    | none =>
      if now - s.stepStart < cfg.drainWindow then (false, s)
      else (false, { s with baselineAt := some now })
    | some t => if now - t < cfg.sampleWindow then (false, s) else (true, s.endWindow cfg now w)

def toResults (s : SaturationSearchState) : SaturationResults where
  maxCompliantRate := s.lastGoodRate
  steps := s.results
  latencyFloor := s.search.floorDetected

end SaturationSearchState

/-! ## Runs -/

/-- A saturation search with the windows it judged so far: the rate offered and what was
measured. -/
structure SaturationRun where
  state : SaturationSearchState
  windows : List (Nat × Window)

namespace SaturationRun

def start (cfg : SaturationSearch) (now : Nat) : SaturationRun := ⟨.new cfg now, []⟩

def call (cfg : SaturationSearch) (R : SaturationRun) (input : Nat × Window) : SaturationRun :=
  let out := R.state.checkAndAdvance cfg input.1 input.2
  ⟨out.2, if out.1 then R.windows ++ [(R.state.currentRate, input.2)] else R.windows⟩

def run (cfg : SaturationSearch) (now : Nat) (inputs : List (Nat × Window)) : SaturationRun :=
  inputs.foldl (call cfg) (start cfg now)

end SaturationRun

end Saturation
