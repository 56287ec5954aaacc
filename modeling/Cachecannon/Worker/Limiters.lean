import Cachecannon.Worker.Connections

/-!
# One limiter per worker (`src/limiters.rs`)

The total rate is split over the workers in proportion to their connections. A worker's share is
expressed as `rate * conns` requests per `total_conns` seconds, in units of 1/`SUB` of a request,
and the workers are staggered across a claim. `ratelimit::Ratelimiter` is a parameter: it has what
it was built with. `none` is the `expect` on its builder.
-/

namespace Worker

open Runner (saturatingMul)

/-- `SUB`: limiter units per request. -/
def sub : Nat := 1024

/-- `ratelimit::Ratelimiter` with states `L`, periods in seconds: it is built with a rate, a period
and a cap that are positive and at most a full bucket, and a change of its rate leaves its cap. -/
structure Ratelimiter (L : Type) where
  build : (rate period maxTokens initialAvailable : Nat) → Option L
  rate : L → Nat
  period : L → Nat
  maxTokens : L → Nat
  available : L → Nat
  setRatePer : L → (rate period : Nat) → L
  build_spec : ∀ {rate' period' cap initial}, 0 < rate' → 0 < period' → 0 < cap → initial ≤ cap →
    ∃ l, build rate' period' cap initial = some l ∧ rate l = rate' ∧ period l = period' ∧
      maxTokens l = cap ∧ available l = initial
  rate_setRatePer : ∀ l rate' period', rate (setRatePer l rate' period') = rate'
  period_setRatePer : ∀ l rate' period', period (setRatePer l rate' period') = period'
  maxTokens_setRatePer : ∀ l rate' period', maxTokens (setRatePer l rate' period') = maxTokens l

structure WorkerLimiter (L : Type) where
  inner : L
  claim : Nat
  start : Nat

structure WorkerLimiters (L : Type) where
  limiters : List (Option (WorkerLimiter L))
  weights : List Nat
  totalWeight : Nat
  rate : Nat

section

variable {L : Type} (lib : Ratelimiter L)

def WorkerLimiter.build (rate period burst stagger claim : Nat) (start : Option Nat) :
    Option (WorkerLimiter L) :=
  let cap := min (saturatingMul burst sub + stagger) (2 ^ 64 - 1)
  (lib.build (saturatingMul rate sub) period cap (min (start.getD cap) cap)).map fun inner =>
    ⟨inner, saturatingMul (max claim 1) sub, min (start.getD cap) cap⟩

/-- `ceil(rate * weight / total_weight)`, in `u128`. -/
def shareCeil (rate weight totalWeight : Nat) : Nat :=
  let num := rate * weight
  let den := max totalWeight 1
  (num + den - 1) / den % 2 ^ 64

/-- The limiters of the workers with these weights, `index` of which came before. -/
def buildLimiters (rate totalWeight active claim : Nat) :
    Nat → List Nat → Option (List (Option (WorkerLimiter L)))
  | _, [] => some []
  | index, w :: ws =>
    if w = 0 then (buildLimiters rate totalWeight active claim index ws).map (none :: ·)
    else do
      let burst := max (shareCeil rate w totalWeight) claim
      let stagger := index * claim * sub % 2 ^ 64 / active
      let limiter ← WorkerLimiter.build lib (saturatingMul rate w) totalWeight burst stagger claim
        (some stagger)
      let limiters ← buildLimiters rate totalWeight active claim (index + 1) ws
      return some limiter :: limiters

def WorkerLimiters.new (rate : Nat) (connections : List Nat) (claim : Nat) :
    Option (WorkerLimiters L) :=
  let totalWeight := max (connections.sum % 2 ^ 64) 1
  let active := max (connections.countP (0 < ·)) 1
  let claim := max claim 1
  (buildLimiters lib rate totalWeight active claim 0 connections).map fun limiters =>
    ⟨limiters, connections, totalWeight, rate⟩

def WorkerLimiter.setRatePer (l : WorkerLimiter L) (rate period : Nat) : WorkerLimiter L :=
  { l with inner := lib.setRatePer l.inner (saturatingMul rate sub) period }

/-- Change the total rate. Caps are left as they were built. -/
def WorkerLimiters.setRate (l : WorkerLimiters L) (rate : Nat) : WorkerLimiters L :=
  { l with
    limiters := l.limiters.zipWith
      (fun rl w => rl.map fun rl => rl.setRatePer lib (saturatingMul rate w) l.totalWeight)
      l.weights
    rate }

/-- Requests per second. -/
def WorkerLimiter.ratePerSecond (l : WorkerLimiter L) : ℚ :=
  (lib.rate l.inner : ℚ) / (sub : ℚ) / (lib.period l.inner : ℚ)

/-- Largest claim, in whole requests, the limiter can fund. -/
def WorkerLimiter.maxTokens (l : WorkerLimiter L) : Nat := lib.maxTokens l.inner / sub

end

end Worker
