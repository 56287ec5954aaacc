import Cachecannon.Lib.Exec
import Cachecannon.Worker.Prefill

/-!
# The transfer loop (`src/dma/connection.rs`, `run_transfers`)

A connection has one transfer out at a time. In Prefill it takes its keys from the queue of its
endpoint, which all workers share; otherwise it repairs its misses, or does what the workload says.
A step is what a connection does between two points where another thread can come in: the top of
the loop, the pacer's answer for a popped key, and the end of a transfer. What the pacer, the key
draws and the server answer is its input.
-/

namespace Dma

inductive Op
  | get
  | set
  | delete
  deriving Repr, DecidableEq

/-- Where a transfer's key came from. -/
inductive Source
  | prefill
  | backfill
  | workload
  deriving Repr, DecidableEq

structure Transfer where
  key : Nat
  op : Op
  source : Source
  deriving Repr, DecidableEq

inductive ConnAt
  /-- Down: before the connect, or after a disconnect. -/
  | down
  /-- At the top of the loop. -/
  | top
  /-- Between the pop of a key and the pacer's answer. -/
  | popped (key : Nat)
  | sent (transfer : Transfer)
  | returned
  deriving Repr, DecidableEq

/-- How a transfer ends: at its deadline, without a timer to bound it, with the bytes that moved
(for a read, a hit or a miss), with an error reply, or with a failure of the socket or the
fabric. -/
inductive TransferEnd
  | timedOut
  | noTimer
  | done (bytes : Nat) (hit : Bool)
  | errorReply
  | failed
  deriving Repr, DecidableEq

/-- `metrics`, those that `run_transfers` and `record_counters` count. -/
structure Counters where
  requestsSent : Nat
  responsesReceived : Nat
  requestErrors : Nat
  requestTimeouts : Nat
  cacheHits : Nat
  cacheMisses : Nat
  getCount : Nat
  setCount : Nat
  deleteCount : Nat
  bytesTx : Nat
  bytesRx : Nat
  deriving Repr, DecidableEq

structure TransferConfig (E C W : Type) where
  endpoint : C → E
  worker : C → W
  /-- `SharedWorkerState::prefill_total` -/
  prefillTotal : W → Nat
  pacer : Bool
  backfillOnMiss : Bool

structure TransferState (E C W : Type) where
  phase : Worker.Phase
  queue : E → List Nat
  conn : C → ConnAt
  /-- A task's backfill queue outlives its connections. The last one pushed is the first here. -/
  backfill : C → List Nat
  /-- `prefill_keys_confirmed` and `prefill_complete` of the shared state. -/
  keysConfirmed : Nat
  workersComplete : Nat
  /-- `prefill_confirmed` and `prefill_done` of each worker. -/
  prefillConfirmed : W → Nat
  prefillDone : W → Bool
  counters : Counters
  /-- The keys whose SET the server acknowledged. -/
  acked : List Nat
  /-- The SETs sent to repair a miss, and the transfers that had no timer. -/
  repairs : Nat
  untimed : Nat

inductive TransferEvent
  | connect
  /-- A turn from the top of the loop, with what the workload says: nothing, where no key was found
  or the limiter turned it away. -/
  | turn (draw : Option (Nat × Op))
  | paced (granted : Bool)
  | finish (how : TransferEnd)
  deriving Repr, DecidableEq

inductive TransferStep (C : Type)
  | setPhase (phase : Worker.Phase)
  | conn (c : C) (e : TransferEvent)
  deriving Repr, DecidableEq

variable {E C W : Type} [DecidableEq E] [DecidableEq C] [DecidableEq W]

namespace TransferState

def goTo (s : TransferState E C W) (c : C) (place : ConnAt) : TransferState E C W :=
  { s with conn := Function.update s.conn c place }

/-- `prefill_queues.push_front` -/
def pushFront (s : TransferState E C W) (e : E) (key : Nat) : TransferState E C W :=
  { s with queue := Function.update s.queue e (key :: s.queue e) }

/-- From `REQUESTS_SENT` on. -/
def send (s : TransferState E C W) (c : C) (transfer : Transfer) : TransferState E C W :=
  { s with
    counters := { s.counters with requestsSent := s.counters.requestsSent + 1 }
    repairs := s.repairs + if transfer.source = Source.backfill then 1 else 0 }.goTo c
      (.sent transfer)

/-- The top of the loop. -/
def turn (cfg : TransferConfig E C W) (s : TransferState E C W) (c : C)
    (draw : Option (Nat × Op)) : TransferState E C W :=
  if s.phase.shouldStop then s.goTo c .returned
  else if s.phase = .precheck then s
  else if s.phase = .prefill ∧ s.prefillDone (cfg.worker c) = false then
    match s.queue (cfg.endpoint c) with
    | [] => s
    | key :: rest =>
      { s with queue := Function.update s.queue (cfg.endpoint c) rest }.goTo c (.popped key)
  else
    match s.backfill c with
    | key :: rest =>
      { s with backfill := Function.update s.backfill c rest }.send c ⟨key, .set, .backfill⟩
    | [] =>
      match draw with
      | none => s
      | some (key, op) => s.send c ⟨key, op, .workload⟩

/-- The worker's part of `confirm_prefill_key`. -/
def confirmWorker (cfg : TransferConfig E C W) (s : TransferState E C W) (w : W) :
    TransferState E C W :=
  let confirmed := s.prefillConfirmed w + 1
  let s := { s with prefillConfirmed := Function.update s.prefillConfirmed w confirmed }
  if cfg.prefillTotal w ≤ confirmed ∧ 0 < cfg.prefillTotal w ∧ s.prefillDone w = false then
    { s with
      prefillDone := Function.update s.prefillDone w true
      workersComplete := s.workersComplete + 1 }
  else s

/-- `confirm_prefill_key` -/
def confirm (cfg : TransferConfig E C W) (s : TransferState E C W) (c : C) (key : Nat) :
    TransferState E C W :=
  { s with
    keysConfirmed := s.keysConfirmed + 1
    acked := s.acked ++ [key] }.confirmWorker cfg (cfg.worker c)

/-- `hit` of a result. -/
def hitOf (op : Op) : TransferEnd → Option Bool
  | .done _ hit => if op = .get then some hit else none
  | _ => none

def bytesOf : TransferEnd → Nat
  | .done bytes _ => bytes
  | _ => 0

/-- The byte counters, then `record_counters`. -/
def Counters.record (n : Counters) (op : Op) (how : TransferEnd) : Counters :=
  { n with
    responsesReceived := n.responsesReceived + 1
    requestErrors := n.requestErrors + if how = .errorReply then 1 else 0
    cacheHits := n.cacheHits + if hitOf op how = some true then 1 else 0
    cacheMisses := n.cacheMisses + if hitOf op how = some false then 1 else 0
    getCount := n.getCount + if op = .get then 1 else 0
    setCount := n.setCount + if op = .set then 1 else 0
    deleteCount := n.deleteCount + if op = .delete then 1 else 0
    bytesTx := n.bytesTx + if op = .set then bytesOf how else 0
    bytesRx := n.bytesRx + if op = .get then bytesOf how else 0 }

/-- An answer or a failure is counted, and a miss noted. -/
def answered (cfg : TransferConfig E C W) (s : TransferState E C W) (c : C) (transfer : Transfer)
    (how : TransferEnd) : TransferState E C W :=
  let miss := cfg.backfillOnMiss && hitOf transfer.op how = some false
  let keys := if miss then transfer.key :: s.backfill c else s.backfill c
  { s with
    counters := Counters.record s.counters transfer.op how
    backfill := Function.update s.backfill c keys }

/-- What follows an answer or a failure: a prefill key is confirmed or goes back. -/
def record (cfg : TransferConfig E C W) (s : TransferState E C W) (c : C) (transfer : Transfer)
    (how : TransferEnd) : TransferState E C W :=
  let s := s.answered cfg c transfer how
  if transfer.source = .prefill then
    match how with
    | .done _ _ => s.confirm cfg c transfer.key
    | _ => s.pushFront (cfg.endpoint c) transfer.key
  else s

/-- A transfer that came to no end: its connection is closed. -/
def lose (cfg : TransferConfig E C W) (s : TransferState E C W) (c : C) (transfer : Transfer) :
    TransferState E C W :=
  if transfer.source = .prefill then (s.pushFront (cfg.endpoint c) transfer.key).goTo c .down
  else s.goTo c .down

/-- The end of a transfer. Only an error reply leaves a connection that failed up. -/
def finish (cfg : TransferConfig E C W) (s : TransferState E C W) (c : C) (transfer : Transfer) :
    TransferEnd → TransferState E C W
  | .timedOut =>
    let n := s.counters
    { s with counters := { n with
        requestTimeouts := n.requestTimeouts + 1
        requestErrors := n.requestErrors + 1 } }.lose cfg c transfer
  | .noTimer => { s with untimed := s.untimed + 1 }.lose cfg c transfer
  | .failed => (s.record cfg c transfer .failed).goTo c .down
  | how => (s.record cfg c transfer how).goTo c .top

end TransferState

/-- What the connection `c` does. -/
def transferEvent (cfg : TransferConfig E C W) (s : TransferState E C W) (c : C) :
    TransferEvent → Option (TransferState E C W)
  | .connect => if s.conn c = .down then some (s.goTo c .top) else none
  | .turn draw => if s.conn c = .top then some (s.turn cfg c draw) else none
  | .paced granted =>
    match s.conn c with
    | .popped key =>
      if granted then some (s.send c ⟨key, .set, .prefill⟩)
      else if cfg.pacer then some ((s.pushFront (cfg.endpoint c) key).goTo c .top)
      else none
    | _ => none
  | .finish how =>
    match s.conn c with
    | .sent transfer => some (s.finish cfg c transfer how)
    | _ => none

def transferStep (cfg : TransferConfig E C W) (s : TransferState E C W) :
    TransferStep C → Option (TransferState E C W)
  | .setPhase phase => some { s with phase := phase }
  | .conn c e => transferEvent cfg s c e

/-- The queues are built, and no connection is up. -/
def TransferState.init (queue : E → List Nat) : TransferState E C W where
  phase := .connect
  queue := queue
  conn _ := .down
  backfill _ := []
  keysConfirmed := 0
  workersComplete := 0
  prefillConfirmed _ := 0
  prefillDone _ := false
  counters := ⟨0, 0, 0, 0, 0, 0, 0, 0, 0, 0, 0⟩
  acked := []
  repairs := 0
  untimed := 0

end Dma
