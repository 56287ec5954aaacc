import Cachecannon.Lib.Exec
import Cachecannon.Worker.Phase
import Cachecannon.Worker.Writers

/-!
# Prefill (`src/worker.rs`, `src/runner.rs`)

The runner partitions the key ids `0..count` over the endpoints' queues, the workers' connections
drain them, and the runner leaves Prefill once as many keys are confirmed as were assigned.
-/

namespace Worker

variable {E C W : Type} [DecidableEq E] [DecidableEq C] [DecidableEq W]

def buildPrefillQueues (route : Nat → E) (count : Nat) : E → List Nat :=
  (List.range count).foldl
    (fun queues key => Function.update queues (route key) (queues (route key) ++ [key]))
    fun _ => []

structure PrefillState (E C W : Type) extends WriteState E C W where
  phase : Phase
  total : Nat

/-- Prefill begins: no connection is up, and every worker has the slot table found at startup. -/
def PrefillState.init (cfg : WriterConfig E C W) (table : Nat → E) (count : Nat) :
    PrefillState E C W where
  queue := buildPrefillQueues (fun key => table (cfg.slotOf key)) count
  conn _ := .new
  table _ := table
  confirmed := 0
  acked := []
  phase := .prefill
  total := count

inductive PrefillStep (E C : Type)
  | conn (c : C) (e : WriterStep E)
  | runner

/-- The connection's fire loop sends keys only in Prefill; there, a worker that has confirmed its
share sends none. -/
def prefillAllows (phase : Phase) : WriterStep E → Bool
  | .begin writes => !writes || phase = .prefill
  | _ => true

def prefillStep (cfg : WriterConfig E C W) (s : PrefillState E C W) :
    PrefillStep E C → Option (PrefillState E C W)
  | .conn c e =>
    if prefillAllows s.phase e then
      (writerStep cfg s.toWriteState c e).map fun t => { s with toWriteState := t }
    else none
  | .runner =>
    if s.phase = .prefill ∧ 0 < s.total ∧ s.total ≤ s.confirmed then
      some { s with phase := .warmup }
    else some s

end Worker
