import Mathlib.Algebra.Order.Field.Rat

/-!
# The rate search (`src/saturation.rs`, `RateSearch`)

The pure state machine behind the saturation search: a geometric climb to the first rate that
fails the SLO, then a bisection between the last rate that passed and the rate that failed.

The machine's floating-point operations are the fields of `RateConfig`, so that every result
holds whatever they return: the climb's product `mul`, the width test `narrow` and the tests of
the latency-floor detection (`FloorTest`). `u64` rates are `Nat`: no rate of a run exceeds
`max startRate maxRate` (`feed_sound`), so nothing wraps. The `u32` failure count is taken
modulo `2 ^ 32`, as the release profile's addition does.

A run of the search is `feed`: the runner measures the rate it was given, hands the verdict to
`advance` and stops at `done`.
-/

namespace Saturation

inductive SearchPhase
  | climb
  | bisect
  deriving Repr, DecidableEq

inductive SearchOutcome
  | probe (rate : Nat)
  | done (knee : Option Nat)
  deriving Repr, DecidableEq

/-- The floating-point tests of the latency-floor detection, for latencies of type `F`: `enabled`
is `floor_improvement_ratio > 0.0`, `usable` is `slo_latency_us.is_finite() && slo_latency_us >
0.0`, `positive` is `prev_us > 0.0`, and `flat` is `(prev_us - slo_latency_us) / prev_us <
floor_improvement_ratio`. -/
structure FloorTest (F : Type) where
  enabled : Bool
  usable : F → Bool
  positive : F → Bool
  flat : F → F → Bool

/-- The knobs of a search: the fields of the source's `RateSearch` that `new` sets for good. `mul`
is `((rate as f64) * step_multiplier) as u64`; `narrow lo hi` is `width <= bisect_tolerance`,
where `width` is `(hi - lo) / hi`, or zero when `hi` is. -/
structure RateConfig (F : Type) where
  mul : Nat → Nat
  maxRate : Nat
  maxRate_u64 : maxRate < 2 ^ 64
  narrow : Nat → Nat → Bool
  maxBisectSteps : Nat
  confirmFailures : Nat
  confirmFailures_u32 : confirmFailures < 2 ^ 32
  floor : FloorTest F

/-- The floor tests in exact arithmetic: every latency is finite. -/
def exactFloor (ratio : ℚ) : FloorTest ℚ where
  enabled := decide (0 < ratio)
  usable lat := decide (0 < lat)
  positive prev := decide (0 < prev)
  flat prev lat := decide ((prev - lat) / prev < ratio)

/-- The width test in exact arithmetic: `(hi - lo) / hi <= tolerance`. -/
def exactNarrow (tolerance : ℚ) (lo hi : Nat) : Bool :=
  decide ((if 0 < hi then ((hi - lo : Nat) : ℚ) / (hi : ℚ) else 0) ≤ tolerance)

structure RateSearch (F : Type) where
  phase : SearchPhase
  currentRate : Nat
  lastGood : Option Nat
  lo : Nat
  hi : Nat
  bisectSteps : Nat
  failuresAtRate : Nat
  lastConfirmedFail : Option (Nat × F)
  floorDetected : Bool

variable {F : Type}

namespace RateSearch

def new (startRate : Nat) : RateSearch F where
  phase := .climb
  currentRate := startRate
  lastGood := none
  lo := 0
  hi := 0
  bisectSteps := 0
  failuresAtRate := 0
  lastConfirmedFail := none
  floorDetected := false

def isClimbing (s : RateSearch F) : Bool := s.phase = .climb

/-- The rate between `lo` and `hi` to measure next: the midpoint, clamped off both ends. -/
def bisectProbe (s : RateSearch F) : SearchOutcome × RateSearch F :=
  let mid := s.lo + (s.hi - s.lo) / 2
  let mid := max (min (max mid (s.lo + 1)) (s.hi - 1)) 1
  (.probe mid, { s with currentRate := mid })

def saturatingDouble (r : Nat) : Nat := min (r * 2) (2 ^ 64 - 1)

/-- The floor test of `advance`: the last confirmed failure was at twice this rate or more, and
the latency did not improve enough since. -/
def atFloor (cfg : RateConfig F) (s : RateSearch F) (sloLatencyUs : F) : Bool :=
  match s.lastConfirmedFail with
  | some (prevRate, prevUs) =>
    decide (saturatingDouble s.currentRate ≤ prevRate) && cfg.floor.positive prevUs &&
      cfg.floor.flat prevUs sloLatencyUs
  | none => false

def notePass (s : RateSearch F) : RateSearch F :=
  { s with failuresAtRate := 0, lastGood := some s.currentRate, lastConfirmedFail := none }

/-- What a failed window does before the phases are looked at: `.inl` when `advance` returns
here (the rate is measured again, or the floor is reported), else the state it goes on with. -/
def noteFailure (cfg : RateConfig F) (s : RateSearch F) (sloLatencyUs : F) :
    (SearchOutcome × RateSearch F) ⊕ RateSearch F :=
  let failures := (s.failuresAtRate + 1) % 2 ^ 32
  if failures ≤ cfg.confirmFailures then
    .inl (.probe s.currentRate, { s with failuresAtRate := failures })
  else
    let s := { s with failuresAtRate := 0 }
    if s.lastGood.isNone && cfg.floor.enabled && cfg.floor.usable sloLatencyUs then
      if atFloor cfg s sloLatencyUs then
        .inl (.done none, { s with floorDetected := true })
      else .inr { s with lastConfirmedFail := some (s.currentRate, sloLatencyUs) }
    else .inr s

/-- The end of a bisection step: stop, or probe the new midpoint. -/
def bisectNext (cfg : RateConfig F) (s : RateSearch F) : SearchOutcome × RateSearch F :=
  if cfg.narrow s.lo s.hi || decide (cfg.maxBisectSteps ≤ s.bisectSteps) ||
      decide (s.hi - s.lo ≤ 1) then
    (.done (if 0 < s.lo then some s.lo else s.lastGood), s)
  else bisectProbe s

/-- The `match self.phase` of `advance`: a settled verdict moves the search on. -/
def settle (cfg : RateConfig F) (s : RateSearch F) (passed : Bool) :
    SearchOutcome × RateSearch F :=
  match s.phase with
  | .climb =>
    if !passed then
      bisectProbe { s with lo := s.lastGood.getD 0, hi := s.currentRate, phase := .bisect }
    else
      let next := cfg.mul s.currentRate
      if cfg.maxRate ≤ next then
        if cfg.maxRate ≤ s.currentRate then (.done s.lastGood, s)
        else (.probe cfg.maxRate, { s with currentRate := cfg.maxRate })
      else
        let rate := max next (s.currentRate + 1)
        (.probe rate, { s with currentRate := rate })
  | .bisect =>
    let s := if passed then { s with lo := s.currentRate } else { s with hi := s.currentRate }
    bisectNext cfg { s with bisectSteps := s.bisectSteps + 1 }

/-- Record the SLO result for the current rate and decide the next move. -/
def advance (cfg : RateConfig F) (s : RateSearch F) (passed : Bool) (sloLatencyUs : F) :
    SearchOutcome × RateSearch F :=
  if passed then settle cfg s.notePass true
  else
    match noteFailure cfg s sloLatencyUs with
    | .inl r => r
    | .inr s => settle cfg s false

end RateSearch

/-! ## Runs -/

/-- A run of the search: the windows measured so far (rate and verdict, in order), the outcome
last returned and the search's state. -/
structure SearchRun (F : Type) where
  log : List (Nat × Bool)
  last : SearchOutcome
  state : RateSearch F

namespace SearchRun

def start (startRate : Nat) : SearchRun F := ⟨[], .probe startRate, .new startRate⟩

/-- Measure the rate last returned (`window` gives the verdict and the latency at a rate) and
advance. A finished search measures nothing. -/
def measure (cfg : RateConfig F) (R : SearchRun F) (window : Nat → Bool × F) : SearchRun F :=
  match R.last with
  | .done _ => R
  | .probe r =>
    let out := R.state.advance cfg (window r).1 (window r).2
    ⟨R.log ++ [(r, (window r).1)], out.1, out.2⟩

def feed (cfg : RateConfig F) (R : SearchRun F) (windows : List (Nat → Bool × F)) : SearchRun F :=
  windows.foldl (measure cfg) R

def passed (R : SearchRun F) : List Nat := (R.log.filter (·.2)).map (·.1)

end SearchRun

end Saturation
