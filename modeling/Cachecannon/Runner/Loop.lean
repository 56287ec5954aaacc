import Cachecannon.Lib.Exec
import Cachecannon.Worker.Phase
import Mathlib.Data.Fintype.Pi

/-!
# The main loop (`src/runner.rs`, `run_benchmark_full`; `src/worker.rs`, `SharedState`)

The main thread sleeps 100 ms a turn, reads what the workers have published, and moves the run from
phase to phase. A turn reads the clock at its start (`now`) and again later (`later`, which stands
for every reading after the first). What it loads from an atomic may be older than the turn's end.

The append scheduler and the window of the saturation search run in the same turns
(`Worker.Append`, `Saturation.State`).
-/

namespace Runner

open Worker (Phase)

/-- `start.elapsed()`, read at `now`; an `Instant` counts nanoseconds, a `Duration` too. -/
def elapsed (start now : Int) : Nat := (now - start).toNat

/-- `thread::sleep(Duration::from_millis(100))` -/
def turnSleep : Nat := 100000000

/-- 30 s -/
def prefillStallThreshold : Nat := 30000000000

/-- 1 s -/
def reportInterval : Nat := 1000000000

/-- The counters whose totals the final report takes a baseline off. -/
inductive Metric
  | requestsSent | responsesReceived | requestErrors | requestTimeouts | connectionsFailed
  | cacheHits | cacheMisses | getCount | setCount | backfillSetCount | appendSetCount
  | bytesTx | bytesRx | requestsSendFailed | routedQueueDropped
  deriving Repr, DecidableEq

instance : Fintype Metric where
  elems := {.requestsSent, .responsesReceived, .requestErrors, .requestTimeouts,
    .connectionsFailed, .cacheHits, .cacheMisses, .getCount, .setCount, .backfillSetCount,
    .appendSetCount, .bytesTx, .bytesRx, .requestsSendFailed, .routedQueueDropped}
  complete metric := by cases metric <;> decide

structure LoopConfig where
  numThreads : Nat
  prefillEnabled : Bool
  warmup : Nat
  duration : Nat
  precheckTimeout : Nat
  prefillTimeout : Nat
  kvReplay : Bool
  traceReplay : Bool
  /-- `workload.saturation_search` is set, and there is a limiter for it to drive. -/
  saturationSearch : Bool
  ratelimiter : Bool
  deriving Repr, DecidableEq

/-- How `wait_read_ahead` and the checks after it end: the reader has read ahead, has failed, or a
signal came. -/
inductive ReadAhead
  | ready
  | failed
  | interrupted
  deriving Repr, DecidableEq

/-- What one turn reads. -/
structure Turn where
  interrupted : Bool
  now : Int
  later : Int
  precheckComplete : Nat
  workersStarted : Nat
  allFinished : Bool
  kvReadAhead : ReadAhead
  traceReadAhead : ReadAhead
  confirmed : Nat
  total : Nat
  connsActive : Int
  saturationDone : Bool
  kvDone : Bool
  traceDone : Bool
  reading : Metric → Nat
  /-- `CONNECTIONS_FAILED` is read once more where Running is entered, after the baselines. -/
  connsFailedAgain : Nat

/-- The last readings of the turn: a turn that reads no counter twice has one reading twice. -/
def Turn.lastReading (turn : Turn) : Metric → Nat :=
  Function.update turn.reading .connectionsFailed turn.connsFailedAgain

/-- `PrefillStallCause`, without the estimate of `TooSlow`. -/
inductive PrefillStallCause
  | noConnections
  | noResponses
  | stalled
  | tooSlow
  | unknown
  deriving Repr, DecidableEq

inductive Outcome
  | results
  | precheckFailed
  | prefillFailed (cause : PrefillStallCause)
  deriving Repr, DecidableEq

/-- The counts a printed sample is computed from. -/
structure Sample where
  responses : Nat
  errors : Nat
  connFailures : Nat
  hits : Nat
  misses : Nat
  deriving Repr, DecidableEq

structure LoopState where
  currentPhase : Phase
  /-- The phases stored by `set_phase`, in order: `SharedState::phase` is the last. -/
  published : List Phase
  precheckStart : Option Int
  prefillStart : Int
  lastPrefillConfirmed : Nat
  lastPrefillProgressTime : Int
  warmupStart : Option Int
  runningStart : Option Int
  saturationState : Bool
  /-- When the trace clocks were set off; a second start does nothing. -/
  kvStart : Option Int
  traceStarted : Bool
  baseline : Metric → Nat
  last : Metric → Nat
  lastReport : Int
  samples : List Sample
  actualDuration : Nat
  outcome : Option Outcome

namespace LoopState

/-- Before the first turn, at `start`. -/
def init (cfg : LoopConfig) (start : Int) : LoopState where
  currentPhase := .precheck
  published := [.precheck]
  precheckStart := none
  prefillStart := start
  lastPrefillConfirmed := 0
  lastPrefillProgressTime := start
  warmupStart := none
  runningStart := none
  saturationState := false
  kvStart := none
  traceStarted := false
  baseline _ := 0
  last _ := 0
  lastReport := start
  samples := []
  actualDuration := cfg.duration
  outcome := none

def setPhase (s : LoopState) (phase : Phase) : LoopState :=
  { s with published := s.published ++ [phase] }

/-- `set_phase(Phase::Stop)`, and out of the loop. -/
def stop (s : LoopState) (outcome : Outcome) : LoopState :=
  { s.setPhase .stop with outcome := some outcome }

/-- `kv.start_at(now)`, if there is a KV replay to start here. -/
def startKv (s : LoopState) (here : Bool) (now : Int) : LoopState :=
  { s with kvStart := if here then s.kvStart.or (some now) else s.kvStart }

/-- `t.start()`, if there is a trace replay to start here. -/
def startTrace (s : LoopState) (here : Bool) : LoopState :=
  { s with traceStarted := s.traceStarted || here }

def enterPrefill (s : LoopState) (turn : Turn) : LoopState :=
  { s.setPhase .prefill with
    currentPhase := .prefill
    prefillStart := turn.later
    lastPrefillProgressTime := turn.later }

def enterWarmup (s : LoopState) (turn : Turn) : LoopState :=
  { s.setPhase .warmup with
    currentPhase := .warmup
    warmupStart := some turn.later }

def enterRunning (cfg : LoopConfig) (s : LoopState) (turn : Turn) : LoopState :=
  let s :=
    { s.setPhase .running with
      currentPhase := .running
      runningStart := some turn.later
      lastReport := turn.later
      baseline := turn.reading
      last := turn.lastReading
      saturationState := cfg.saturationSearch && cfg.ratelimiter }
  (s.startKv cfg.kvReplay turn.later).startTrace cfg.traceReplay

/-- The progress that the stall detection sees. -/
def noteProgress (s : LoopState) (turn : Turn) : LoopState :=
  if s.lastPrefillConfirmed < turn.confirmed then
    { s with
      lastPrefillConfirmed := turn.confirmed
      lastPrefillProgressTime := turn.later }
  else s

/-- The periodic report. -/
def report (s : LoopState) (turn : Turn) : LoopState :=
  if reportInterval ≤ elapsed s.lastReport turn.later then
    { s with
      samples := s.samples ++ [{
        responses := turn.reading .responsesReceived - s.last .responsesReceived
        errors := turn.reading .requestErrors - s.last .requestErrors
        connFailures := turn.reading .connectionsFailed - s.last .connectionsFailed
        hits := turn.reading .cacheHits - s.last .cacheHits
        misses := turn.reading .cacheMisses - s.last .cacheMisses }]
      last := turn.reading
      lastReport := turn.later }
  else s

end LoopState

open LoopState

/-- The KV reader's read-ahead is awaited first, then the trace reader's. -/
def readAhead (cfg : LoopConfig) (turn : Turn) : ReadAhead :=
  match if cfg.kvReplay then turn.kvReadAhead else .ready with
  | .ready => if cfg.traceReplay then turn.traceReadAhead else .ready
  | waited => waited

/-- When the precheck timer starts: once every worker's event loop runs. If all threads are gone,
it is over at once. -/
def precheckTimer (cfg : LoopConfig) (s : LoopState) (turn : Turn) : Option Int :=
  match s.precheckStart with
  | some start => some start
  | none =>
    if cfg.numThreads ≤ turn.workersStarted then some turn.now
    else if turn.allFinished then some (turn.now - cfg.precheckTimeout)
    else none

def precheckTurn (cfg : LoopConfig) (s : LoopState) (turn : Turn) : LoopState :=
  if cfg.numThreads ≤ turn.precheckComplete then
    match readAhead cfg turn with
    | .failed => { s.stop .results with actualDuration := 0 }
    | .interrupted => s
    | .ready =>
      if cfg.prefillEnabled then s.enterPrefill turn
      else
        let s := s.startKv (cfg.kvReplay && cfg.warmup ≠ 0) turn.now
        (s.startTrace (cfg.traceReplay && cfg.warmup ≠ 0)).enterWarmup turn
  else
    match precheckTimer cfg s turn with
    | none => s
    | some start =>
      let s := { s with precheckStart := some start }
      if cfg.precheckTimeout ≤ elapsed start turn.later then s.stop .precheckFailed else s

def prefillStallCause (turn : Turn) (stalled : Bool) : PrefillStallCause :=
  if turn.connsActive = 0 then .noConnections
  else if turn.reading .bytesRx = 0 then .noResponses
  else if stalled then .stalled
  else if 0 < turn.confirmed ∧ turn.confirmed < turn.total then .tooSlow
  else .unknown

def prefillTurn (cfg : LoopConfig) (s : LoopState) (turn : Turn) : LoopState :=
  if 0 < turn.total ∧ turn.total ≤ turn.confirmed then
    (s.startKv (cfg.kvReplay && cfg.warmup ≠ 0) turn.now).enterWarmup turn
  else
    let s := s.noteProgress turn
    let stalled := decide (prefillStallThreshold ≤ elapsed s.lastPrefillProgressTime turn.later)
    let timedOut := decide (cfg.prefillTimeout ≠ 0 ∧
      cfg.prefillTimeout ≤ elapsed s.prefillStart turn.now)
    if stalled || timedOut then s.stop (.prefillFailed (prefillStallCause turn stalled)) else s

/-- A KV or trace replay whose requests have all finished. -/
def replaysDone (cfg : LoopConfig) (turn : Turn) : Bool :=
  (cfg.kvReplay && turn.kvDone) || (cfg.traceReplay && turn.traceDone)

def sinceWarmup (start : Int) (s : LoopState) (turn : Turn) : Nat :=
  elapsed (s.warmupStart.getD start) turn.now

/-- With a saturation search, the search decides when to end, not the clock. -/
def measureDone (cfg : LoopConfig) (start : Int) (s : LoopState) (turn : Turn) : Bool :=
  (s.saturationState && turn.saturationDone) || replaysDone cfg turn ||
    (decide (cfg.warmup + cfg.duration ≤ sinceWarmup start s turn) && !cfg.saturationSearch)

/-- A turn in Warmup or Running. -/
def measureTurn (cfg : LoopConfig) (start : Int) (s : LoopState) (turn : Turn) : LoopState :=
  let duration :=
    if replaysDone cfg turn && s.runningStart.isNone then 0 else s.actualDuration
  if measureDone cfg start s turn then
    { s.stop .results with actualDuration := s.runningStart.elim duration (elapsed · turn.now) }
  else
    let s :=
      if s.currentPhase = .warmup ∧ cfg.warmup ≤ sinceWarmup start s turn then
        s.enterRunning cfg turn
      else s
    if s.currentPhase = .running then s.report turn else s

/-- One turn of the loop, which began at `start`. -/
def loopTurn (cfg : LoopConfig) (start : Int) (s : LoopState) (turn : Turn) : LoopState :=
  if turn.interrupted then
    { s.stop .results with actualDuration := s.runningStart.elim 0 (elapsed · turn.now) }
  else
    match s.currentPhase with
    | .precheck => precheckTurn cfg s turn
    | .prefill => prefillTurn cfg s turn
    | _ => measureTurn cfg start s turn

/-- The final report of a counter, which read `final` after the workers were joined. -/
def LoopState.results (s : LoopState) (final : Metric → Nat) (metric : Metric) : Nat :=
  final metric - s.baseline metric

/-! ## The loop beside the workers -/

/-- The main thread, what the workers share with it, and the clock. `precheckFlag` is a worker's
`precheck_done` and `precheckDone` the shared count, which `flagged` workers are about to raise.
`turnAt` is the last turn's first reading of the clock and `clock` its last, `lastRead` what it
read of the counters, and `signalSeen` whether a signal had come by its end. -/
structure RunState (W : Type) where
  loop : LoopState
  running : Bool
  precheckFlag : W → Bool
  flagged : Nat
  precheckDone : Nat
  workersStarted : Nat
  confirmed : Nat
  turnAt : Int
  clock : Int
  lastRead : Metric → Nat
  signalSeen : Bool

variable {W : Type}

/-- A worker without connections passes the precheck as it is created. -/
def RunState.init [Fintype W] (cfg : LoopConfig) (hasConnections : W → Bool) (start : Int) :
    RunState W where
  loop := .init cfg start
  running := true
  precheckFlag w := !hasConnections w
  flagged := 0
  precheckDone := (Finset.univ.filter fun w => hasConnections w = false).card
  workersStarted := 0
  confirmed := 0
  turnAt := start
  clock := start
  lastRead _ := 0
  signalSeen := false

/-- A worker starts; a connection of worker `w` passes its precheck (`mark_precheck_done`, the
`compare_exchange`); a worker counts itself (`mark_precheck_complete`); workers confirm `n` more
prefill keys; a signal clears `running`; or the main thread takes a turn. -/
inductive RunStep (W : Type)
  | started
  | flag (w : W)
  | complete
  | confirm (n : Nat)
  | signal
  | turn (turn : Turn)

/-- What the turn reads, it reads after the last one and before it ends. -/
def Turn.Fits (cfg : LoopConfig) (total : Nat) (s : RunState W) (turn : Turn) : Prop :=
  s.clock + turnSleep ≤ turn.now ∧ turn.now ≤ turn.later ∧
    turn.precheckComplete ≤ s.precheckDone ∧ turn.workersStarted ≤ s.workersStarted ∧
    turn.confirmed ≤ s.confirmed ∧ turn.total = total ∧
    (s.signalSeen = true → turn.interrupted = true) ∧
    (turn.interrupted = true ∨ readAhead cfg turn = .interrupted → s.running = false) ∧
    (∀ metric, s.lastRead metric ≤ turn.reading metric) ∧
    turn.reading .connectionsFailed ≤ turn.connsFailedAgain

instance (cfg : LoopConfig) (total : Nat) (s : RunState W) (turn : Turn) :
    Decidable (turn.Fits cfg total s) :=
  inferInstanceAs (Decidable (_ ∧ _))

/-- The state after a turn that leaves the loop in `loop`. -/
def RunState.after (s : RunState W) (turn : Turn) (loop : LoopState) : RunState W :=
  { s with
    loop := loop
    turnAt := turn.now
    clock := turn.later
    lastRead := turn.lastReading
    signalSeen := !s.running }

/-- A step of a run whose loop began at `start`, with `total` keys to prefill. -/
def runStep [DecidableEq W] (cfg : LoopConfig) (start : Int) (total : Nat) (s : RunState W) :
    RunStep W → Option (RunState W)
  | .started => some { s with workersStarted := s.workersStarted + 1 }
  | .flag w =>
    if s.precheckFlag w then some s
    else some { s with
      precheckFlag := Function.update s.precheckFlag w true
      flagged := s.flagged + 1 }
  | .complete =>
    if 0 < s.flagged then some { s with
      flagged := s.flagged - 1
      precheckDone := s.precheckDone + 1 }
    else none
  | .confirm n => some { s with confirmed := s.confirmed + n }
  | .signal => some { s with running := false }
  | .turn turn =>
    if s.loop.outcome = none ∧ turn.Fits cfg total s then
      some (s.after turn (loopTurn cfg start s.loop turn))
    else none

end Runner
