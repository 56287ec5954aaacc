import Cachecannon.TraceReplay.Model

/-!
# The order of a worker's sends (`src/tracereplay.rs`, `run`)

An iteration of `run` fills the pipeline and flushes with no await in between, and a worker's
connections run on one thread: from its first turn to its flush, the worker has one active
connection. `orderStep` restricts the steps of `TraceReplay.Model` to that, for runs in which no
connection fails. `onWire` is a ghost: the indices of the rows a worker's connections put on the
wire, in order.
-/

namespace TraceReplay

open Pipeline

variable {W C : Type} [DecidableEq W] [DecidableEq C]

structure OrderState (W C : Type) where
  base : TraceState W C
  active : W → Option C
  onWire : W → List Nat

def OrderState.init : OrderState W C := ⟨.init, fun _ => none, fun _ => []⟩

/-- The rows a connection put on the wire in a step: a send only appends to it. -/
def newOnWire (before after : Client Sent) : List Nat :=
  (sentRows (after.wire.drop before.wire.length)).map Row.index

/-- The thread of the connection's worker is free for it. -/
def OrderState.mayRun (cfg : TraceConfig W C) (s : OrderState W C) (c : C) : Prop :=
  s.active (cfg.worker c) = none ∨ s.active (cfg.worker c) = some c

instance (cfg : TraceConfig W C) (s : OrderState W C) (c : C) : Decidable (s.mayRun cfg c) :=
  inferInstanceAs (Decidable (_ ∨ _))

/-- A send of the connection `c` led to `base`; the worker's thread is then held by `active`. -/
def OrderState.afterSend (cfg : TraceConfig W C) (s : OrderState W C) (c : C)
    (active : Option C) (base : TraceState W C) : OrderState W C where
  base := base
  active := Function.update s.active (cfg.worker c) active
  onWire := Function.update s.onWire (cfg.worker c)
    (s.onWire (cfg.worker c) ++ newOnWire (s.base.conn c).client (base.conn c).client)

/-- A step of a run in which no connection fails. A reply and a new connection find the worker's
thread idle. -/
def orderStep (cfg : TraceConfig W C) (s : OrderState W C) (e : TraceStep C) :
    Option (OrderState W C) :=
  match e with
  | .read _ | .deliver | .stopReader =>
    (traceStep cfg s.base e).map fun base => { s with base }
  | .connect c | .reply c _ =>
    if s.active (cfg.worker c) = none then
      (traceStep cfg s.base e).map fun base => { s with base }
    else none
  | .fireTurn c _ _ =>
    if s.mayRun cfg c then (traceStep cfg s.base e).map (s.afterSend cfg c (some c)) else none
  | .flush c _ =>
    if s.mayRun cfg c then (traceStep cfg s.base e).map (s.afterSend cfg c none) else none
  | .fail _ => none

end TraceReplay
