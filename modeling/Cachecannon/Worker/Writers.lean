import Cachecannon.Lib.Pipeline
import Mathlib.Logic.Function.Basic

/-!
# Connections that drain key queues (`src/worker.rs`)

Prefill and the append stream write keys the same way: per-endpoint queues of key ids shared by
all workers (`PrefillQueues`), and connections that pop a key, hand it on if their worker's slot
table routes it elsewhere, fire a SET and wait for the reply. This is the connection side of
`drive_resp_workload` in Prefill and of `drive_resp_append`, over any number of workers (`W`),
connections (`C`) and endpoints (`E`).

Workers run on threads of their own, and every queue has its own lock, so a step makes at most
one access to a queue or to the shared counter. A key popped is in the connection's hands
(`holding`) until it is handed on, put back or fired. What a connection does with data of its own
around a queue access is part of that step.

`acked` is a ghost: the ids whose SET the server acknowledged.
-/

namespace Worker

open Pipeline

/-- Where a connection is in its loop: at the top of an iteration, in its fire loop, there with a
key popped, past a fire loop left early, in `requeue_newest` with `n` keys to go after a failed
flush or a failed fire, past the flush with a reply awaited, disconnected and in
`requeue_drained_prefill` or `requeue_drained_append`, or not connected. -/
inductive WriterPc
  | top
  | firing
  | holding (key : Nat)
  | sending
  | requeueNewest (n : Nat) (flush : Bool)
  | flushed
  | draining
  | closed
  deriving Repr, DecidableEq

/-- A connection. A request in flight is a SET of a key of the queues, or another one; `writes`
says that this iteration's fire loop sends keys of the queues. -/
structure Writer where
  pc : WriterPc
  writes : Bool
  client : Client (Option Nat)
  inFlight : List Nat

def Writer.new : Writer := ⟨.closed, false, .new, []⟩

structure WriterConfig (E C W : Type) where
  pipelineDepth : Nat
  endpoint : C → E
  worker : C → W
  slotOf : Nat → Nat

/-- The queues by endpoint, the connections, each worker's slot table, the confirmed count and the
ids acknowledged (a ghost). -/
structure WriteState (E C W : Type) where
  queue : E → List Nat
  conn : C → Writer
  table : W → Nat → E
  confirmed : Nat
  acked : List Nat

variable {E C W : Type} [DecidableEq E] [DecidableEq C] [DecidableEq W]

namespace WriteState

def setConn (s : WriteState E C W) (c : C) (v : Writer) : WriteState E C W :=
  { s with conn := Function.update s.conn c v }

def setQueue (s : WriteState E C W) (e : E) (q : List Nat) : WriteState E C W :=
  { s with queue := Function.update s.queue e q }

def pushBack (s : WriteState E C W) (e : E) (key : Nat) : WriteState E C W :=
  s.setQueue e (s.queue e ++ [key])

def pushFront (s : WriteState E C W) (e : E) (key : Nat) : WriteState E C W :=
  s.setQueue e (key :: s.queue e)

def routeKey (cfg : WriterConfig E C W) (s : WriteState E C W) (c : C) (key : Nat) : E :=
  s.table (cfg.worker c) (cfg.slotOf key)

/-- `check_resp_redirect_parsed` on the worker of `c`: a `MOVED` of a slot to an endpoint. -/
def redirect (cfg : WriterConfig E C W) (s : WriteState E C W) (c : C) :
    Option (Nat × E) → WriteState E C W
  | some (slot, e) =>
    let table := Function.update (s.table (cfg.worker c)) slot e
    { s with table := Function.update s.table (cfg.worker c) table }
  | none => s

def confirm (s : WriteState E C W) (key : Nat) : WriteState E C W :=
  { s with confirmed := s.confirmed + 1, acked := s.acked ++ [key] }

end WriteState

/-- What a connection does in one step. `handOff` and `refuse` are for a key popped that routes to
another endpoint now, and one the pacer refuses; `requeueNewest` and `drain` put one key back; a
`reply` is to the oldest request and may carry a redirect. -/
inductive WriterStep (E : Type)
  | begin (writes : Bool)
  | eof
  | pop
  | handOff
  | refuse
  | fire (flushes : Bool)
  | failFire
  | fireOther (flushes : Bool)
  | failOther
  | flush
  | failFlush
  | requeueNewest
  | reply (success : Bool) (moved : Option (Nat × E))
  | sleep
  | disconnect
  | drain
  | connect

open WriteState in
def writerReply (cfg : WriterConfig E C W) (s : WriteState E C W) (c : C) (r : Option Nat)
    (success : Bool) : WriteState E C W :=
  let v := s.conn c
  let v := { v with pc := .top, client := v.client.reply }
  match r with
  | none => s.setConn c v
  | some key =>
    -- `in_flight.pop_front().or(result.key_id)`
    let front := v.inFlight.headD key
    let s := s.setConn c { v with inFlight := v.inFlight.tail }
    if success then s.confirm key else s.pushBack (cfg.endpoint c) front

open WriteState in
def writerStep (cfg : WriterConfig E C W) (s : WriteState E C W) (c : C) :
    WriterStep E → Option (WriteState E C W)
  | .begin writes =>
    let v := s.conn c
    if v.pc = .top then some (s.setConn c { v with pc := .firing, writes }) else none
  | .eof =>
    let v := s.conn c
    if v.pc = .top ∧ v.client.pendingCount = 0 then some (s.setConn c { v with pc := .draining })
    else none
  | .pop =>
    let v := s.conn c
    match s.queue (cfg.endpoint c) with
    | key :: rest =>
      if v.pc = .firing ∧ v.writes ∧ v.client.pendingCount < cfg.pipelineDepth then
        some ((s.setQueue (cfg.endpoint c) rest).setConn c { v with pc := .holding key })
      else none
    | [] => none
  | .handOff =>
    let v := s.conn c
    match v.pc with
    | .holding key =>
      if s.routeKey cfg c key ≠ cfg.endpoint c then
        some ((s.pushBack (s.routeKey cfg c key) key).setConn c { v with pc := .firing })
      else none
    | _ => none
  | .refuse =>
    let v := s.conn c
    match v.pc with
    | .holding key =>
      if s.routeKey cfg c key = cfg.endpoint c then
        some ((s.pushFront (cfg.endpoint c) key).setConn c { v with pc := .sending })
      else none
    | _ => none
  | .fire flushes =>
    let v := s.conn c
    match v.pc with
    | .holding key =>
      if s.routeKey cfg c key = cfg.endpoint c then
        some (s.setConn c { v with pc := .firing, client := v.client.fire (some key) flushes,
                                   inFlight := v.inFlight ++ [key] })
      else none
    | _ => none
  | .failFire =>
    let v := s.conn c
    match v.pc with
    | .holding key =>
      if s.routeKey cfg c key = cfg.endpoint c then
        let discarded := v.client.pendingCount - v.client.discard.pendingCount
        some ((s.pushFront (cfg.endpoint c) key).setConn c
          { v with pc := .requeueNewest discarded false, client := v.client.discard })
      else none
    | _ => none
  | .fireOther flushes =>
    let v := s.conn c
    if v.pc = .firing ∧ v.writes = false then
      some (s.setConn c { v with client := v.client.fire none flushes })
    else none
  | .failOther =>
    let v := s.conn c
    if v.pc = .firing ∧ v.writes = false then
      some (s.setConn c { v with pc := .sending, client := v.client.discard })
    else none
  | .flush =>
    let v := s.conn c
    if v.pc = .firing ∨ v.pc = .sending then
      some (s.setConn c { v with pc := .flushed, client := v.client.flush })
    else none
  | .failFlush =>
    let v := s.conn c
    if v.pc = .firing ∨ v.pc = .sending then
      let discarded := v.client.pendingCount - v.client.discard.pendingCount
      -- outside Prefill the requests discarded are not keys of the queues
      let pc := if v.writes then .requeueNewest discarded true else .flushed
      some (s.setConn c { v with pc, client := v.client.discard })
    else none
  | .requeueNewest =>
    let v := s.conn c
    match v.pc with
    | .requeueNewest 0 flush =>
      some (s.setConn c { v with pc := if flush then .flushed else .sending })
    | .requeueNewest (n + 1) flush =>
      match v.inFlight.getLast? with
      | some key => some ((s.pushFront (cfg.endpoint c) key).setConn c
          { v with pc := .requeueNewest n flush, inFlight := v.inFlight.dropLast })
      | none => some (s.setConn c { v with pc := .requeueNewest n flush })
    | _ => none
  | .reply success moved =>
    match (s.conn c).pc, (s.conn c).client.wire with
    | .flushed, r :: _ => some ((writerReply cfg s c r success).redirect cfg c moved)
    | _, _ => none
  | .sleep =>
    let v := s.conn c
    if v.pc = .flushed ∧ v.client.pendingCount = 0 then some (s.setConn c { v with pc := .top })
    else none
  | .disconnect =>
    let v := s.conn c
    if v.pc = .flushed then some (s.setConn c { v with pc := .draining }) else none
  | .drain =>
    let v := s.conn c
    if v.pc = .draining then
      match v.inFlight with
      | key :: rest => some ((s.pushBack (s.routeKey cfg c key) key).setConn c
          { v with inFlight := rest })
      | [] => some (s.setConn c { v with pc := .closed })
    else none
  | .connect =>
    let v := s.conn c
    if v.pc = .closed then some (s.setConn c { v with pc := .top, client := .new }) else none

end Worker
