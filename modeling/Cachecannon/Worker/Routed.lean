import Cachecannon.Worker.Tokens
import Mathlib.Logic.Function.Basic

/-!
# Routed dispatch (`src/worker.rs`, `RoutedQueues` and its users)

One node's queue of a worker, the dispatcher that pushes requests onto it and the connection
tasks of that node. All of them run on the worker's thread, so a step is one poll of a task: a
task runs from where it was suspended to where it is suspended next. Where a task would go on at
once without suspending, it is `pass`ed again in a later step, which only allows more
interleavings.

An entry of `waiters` is a connection and the number of the entry among those the connection
registered; it is live when it is the connection's newest and has not been woken, returned or
dropped since (`entryLive`). `woken` is set by the push that wakes a connection and cleared when
the connection's task runs.
-/

namespace Worker

def routedQueuePipelines : Nat := 16

def saturate (n : Nat) : Nat := min n (2 ^ 64 - 1)

structure RoutedConfig where
  pipelineDepth : Nat
  batch : Option Nat
  connections : Nat

namespace RoutedConfig

/-- `effective_batch_size` with `workload.routing = "routed"`. -/
def batchSize (cfg : RoutedConfig) : Nat :=
  max 1 (min (cfg.batch.getD 1) (max cfg.pipelineDepth 1))

def cap (cfg : RoutedConfig) : Nat :=
  saturate (saturate (cfg.connections * cfg.pipelineDepth) * routedQueuePipelines)

/-- `waiters` is compacted to its live entries when it reaches this length. -/
def waitersCap (cfg : RoutedConfig) : Nat := saturate (saturate (cfg.connections * 2) + 16)

end RoutedConfig

/-- The two waits of a routed connection: with nothing in flight, or with a reply pending
(`routed_wait_send_or_recv`). -/
inductive WaitKind
  | idle
  | reply
  deriving Repr, DecidableEq

/-- A connection task: the wait it is suspended in, the number of the newest entry it registered,
whether that entry is live, and whether a push woke the task and it has not run since. -/
structure RoutedConn where
  pending : Nat
  backfill : List Nat
  wait : Option WaitKind
  entry : Nat
  live : Bool
  woken : Bool
  deriving Repr, DecidableEq

structure NodeState (C : Type) where
  requests : List Nat
  waiters : List (C × Nat)
  closed : Bool
  phase : Phase
  conn : C → RoutedConn

variable {C : Type} [DecidableEq C]

namespace NodeState

def init (phase : Phase) (backfill : C → List Nat) : NodeState C where
  requests := []
  waiters := []
  closed := false
  phase := phase
  conn c := ⟨0, backfill c, none, 0, false, false⟩

def setConn (s : NodeState C) (c : C) (v : RoutedConn) : NodeState C :=
  { s with conn := Function.update s.conn c v }

def entryLive (s : NodeState C) (w : C × Nat) : Bool :=
  (s.conn w.1).live && (s.conn w.1).entry = w.2

/-- Take entries off the front up to the first live one, and wake it. -/
def wakeFirst (s : NodeState C) : List (C × Nat) → NodeState C
  | [] => { s with waiters := [] }
  | w :: ws =>
    if s.entryLive w then
      { s with waiters := ws }.setConn w.1 { s.conn w.1 with live := false, woken := true }
    else wakeFirst s ws

/-- `RoutedQueues::push`; a request funded while the queue is full is dropped. -/
def push (cfg : RoutedConfig) (s : NodeState C) (key : Nat) : NodeState C :=
  if cfg.cap ≤ s.requests.length then s
  else { s with requests := s.requests ++ [key] }.wakeFirst s.waiters

def close (s : NodeState C) : NodeState C :=
  { s with closed := true, waiters := [],
           conn := fun c =>
             if s.waiters.any fun w => w.1 = c && s.entryLive w then
               { s.conn c with live := false, woken := true }
             else s.conn c }

/-- Register an entry for the connection, which is then suspended in the wait. -/
def register (cfg : RoutedConfig) (s : NodeState C) (c : C) (kind : WaitKind) : NodeState C :=
  let waiters := if cfg.waitersCap ≤ s.waiters.length then s.waiters.filter s.entryLive
    else s.waiters
  let conn := s.conn c
  { s with waiters := waiters ++ [(c, conn.entry + 1)] }.setConn c
    { conn with wait := some kind, entry := conn.entry + 1, live := true, woken := false }

def endWait (s : NodeState C) (c : C) : NodeState C :=
  s.setConn c { s.conn c with wait := none, live := false, woken := false }

end NodeState

/-! ## The connection loop -/

/-- What a turn of the routed fire loop meets: whether the limiter has a token for a backfill,
and how the send ends. -/
structure RoutedTurn where
  funded : Bool
  fire : FireResult

structure RoutedFire where
  pending : Nat
  backfill : List Nat
  requests : List Nat

/-- The routed fire loop, with `room` for that many requests in the pipeline: backfills that the
limiter funds first, then requests of the node's queue. True when a send failed. -/
def routedFire : (room : Nat) → (Nat → RoutedTurn) → RoutedFire → Bool × RoutedFire
  | 0, _, s => (false, s)
  | room + 1, turns, s =>
    if s.backfill ≠ [] && (turns 0).funded then
      match (turns 0).fire with
      | .sent => routedFire room (fun i => turns (i + 1))
          { s with pending := s.pending + 1, backfill := s.backfill.dropLast }
      | .failed discarded => (true, { s with pending := s.pending - discarded })
    else
      match s.requests with
      | [] => (false, s)
      | _ :: requests =>
        match (turns 0).fire with
        | .sent => routedFire room (fun i => turns (i + 1))
            { s with pending := s.pending + 1, requests }
        | .failed discarded => (true, { s with pending := s.pending - discarded, requests })

/-- What a pass of the connection loop meets. `prefilled` is what the fire loop of Prefill leaves in
flight; `recvReady` says that `client.recv_ready()` is available, and `replyReady` that the reply
has started arriving. -/
structure PassInput where
  alive : Bool
  prefilled : Nat
  turns : Nat → RoutedTurn
  flush : FireResult
  recvReady : Bool
  replyReady : Bool

/-- `select` on the wait and the reply, and the idle wait: the queue is polled first. -/
def enterWait (cfg : RoutedConfig) (s : NodeState C) (c : C) (kind : WaitKind)
    (replyReady : Bool) : NodeState C :=
  if s.closed || s.requests ≠ [] then s
  else if kind = .reply && replyReady then (s.register cfg c kind).endWait c
  else s.register cfg c kind

def passFire (cfg : RoutedConfig) (phase : Phase) (s : RoutedFire) (input : PassInput) :
    Bool × RoutedFire :=
  let room := cfg.pipelineDepth - s.pending
  let out := if phase.sends && cfg.batchSize ≤ room then routedFire room input.turns s
    else if phase = .prefill then (false, { s with pending := input.prefilled })
    else (false, s)
  match input.flush with
  | .sent => out
  | .failed discarded => (out.1, { out.2 with pending := out.2.pending - discarded })

/-- One pass of the connection loop of `drive_resp_workload`, routed, of a connection that is not
suspended in a wait: from the top of the loop to its next wait, sleep or receive. -/
def pass (cfg : RoutedConfig) (s : NodeState C) (c : C) (input : PassInput) : NodeState C :=
  let conn := s.conn c
  -- stopped, or closed while idle: the function returns
  if s.phase.shouldStop || (conn.pending = 0 && !input.alive) then
    s.setConn c { conn with pending := 0 }
  else
    let (sendFailed, out) := passFire cfg s.phase ⟨conn.pending, conn.backfill, s.requests⟩ input
    let s := { s with requests := out.requests }.setConn c
      { conn with pending := out.pending, backfill := out.backfill }
    if !s.phase.sends || sendFailed then s
    else if out.pending = 0 then enterWait cfg s c .idle input.replyReady
    else if cfg.batchSize ≤ cfg.pipelineDepth - out.pending && input.recvReady then
      enterWait cfg s c .reply input.replyReady
    else s

/-- What else a suspended task finds when it is polled. -/
inductive WaitEvent
  | nothing
  | replyReady
  | expired
  deriving Repr, DecidableEq

def poll (cfg : RoutedConfig) (s : NodeState C) (c : C) (kind : WaitKind) (event : WaitEvent)
    (input : PassInput) : NodeState C :=
  if s.closed || s.requests ≠ [] then pass cfg (s.endWait c) c input
  else
    let s := if (s.conn c).live then s else s.register cfg c kind
    match kind, event with
    | .reply, .replyReady => s.endWait c
    | .reply, .expired =>
      let s := s.endWait c
      s.setConn c { s.conn c with pending := 0 }
    | _, _ => s

/-! ## Steps -/

inductive RoutedStep (C : Type)
  | push (key : Nat)
  | close
  | setPhase (phase : Phase)
  | poll (c : C) (event : WaitEvent) (input : PassInput)
  | pass (c : C) (input : PassInput)
  /-- A reply is received, with the key to backfill if it was a miss. -/
  | reply (c : C) (miss : Option Nat)
  | disconnect (c : C)

def routedStep (cfg : RoutedConfig) (s : NodeState C) : RoutedStep C → Option (NodeState C)
  | .push key => if s.closed then none else some (s.push cfg key)
  | .close => some s.close
  | .setPhase phase => some { s with phase }
  | .poll c event input => (s.conn c).wait.map fun kind => poll cfg s c kind event input
  | .pass c input => if (s.conn c).wait = none then some (pass cfg s c input) else none
  | .reply c miss =>
    let conn := s.conn c
    if conn.wait = none ∧ 0 < conn.pending then
      let backfill := if conn.backfill.length < backfillQueueCap then conn.backfill ++ miss.toList
        else conn.backfill
      some (s.setConn c { conn with pending := conn.pending - 1, backfill })
    else none
  | .disconnect c =>
    let conn := s.conn c
    if conn.wait = none ∧ 0 < conn.pending then some (s.setConn c { conn with pending := 0 })
    else none

end Worker
