import Mathlib.Data.Nat.Basic

/-!
# Run phases (`src/worker.rs`, `Phase`)
-/

namespace Worker

inductive Phase
  | connect
  | precheck
  | prefill
  | warmup
  | running
  | stop
  deriving Repr, DecidableEq

def Phase.shouldStop (phase : Phase) : Bool := phase = .stop

/-- Warmup or Running: the phases in which a connection sends its workload. -/
def Phase.sends (phase : Phase) : Bool := phase = .warmup || phase = .running

end Worker
