import Cachecannon.Lib.Exec
import Cachecannon.Worker.Phase
import Mathlib.Logic.Function.Basic

/-!
# Connection tasks (`src/worker.rs`, `resp_connection_task`, `memcache_connection_task`,
`ping_connection_task`, `resp_append_task`; `src/dma/connection.rs`, `dma_connection_task`)

A task connects, says hello where the protocol does, checks the connection in Precheck, and drives
its workload until it fails or the run stops; then it connects again. All kinds of tasks are this
machine: they differ in the hello and in the check. A step is what a task does between two awaits.
-/

namespace Worker

/-- `resp3` and `append3` negotiate RESP3. -/
inductive TaskKind
  | resp
  | resp3
  | memcache
  | memcacheBinary
  | ping
  | dma
  | append
  | append3
  deriving Repr, DecidableEq

namespace TaskKind

/-- `HELLO 3`, or the handshake of `DmaClient::connect`, comes first. -/
def saysHello : TaskKind → Bool
  | .resp3 | .append3 | .dma => true
  | _ => false

/-- An append writer: it has its own gauge, and no part in the precheck. -/
def isAppend : TaskKind → Bool
  | .append | .append3 => true
  | _ => false

end TaskKind

inductive TaskAt
  /-- At the top of the loop, or asleep before it. -/
  | top
  | connecting
  | hello
  /-- A PING or VERSION is out. -/
  | check
  /-- The check has passed, Precheck has not ended. -/
  | waiting
  | driving
  | returned
  deriving Repr, DecidableEq

def TaskAt.connected : TaskAt → Bool
  | .hello | .check | .waiting | .driving => true
  | _ => false

structure TaskConfig (C W : Type) where
  kind : C → TaskKind
  worker : C → W

structure TaskState (C W : Type) where
  phase : Phase
  /-- `SharedWorkerState::precheck_done` -/
  precheckDone : W → Bool
  task : C → TaskAt
  /-- `CONNECTIONS_ACTIVE` and `APPEND_CONNECTIONS_ACTIVE` -/
  active : Int
  appendActive : Int
  /-- `CONNECTIONS_FAILED`, and the reasons `record_disconnect_reason` counts. -/
  failed : Nat
  disconnects : Nat

/-- How the await that the task is at ends: a wake-up at the top of the loop or in the wait for the
end of Precheck, a result of a connect, a hello or a check, or the end of the workload. In the wait
the phase is loaded twice; `stopBetween` when it became Stop between the loads. -/
inductive TaskEvent
  | wake
  | connect (ok : Bool)
  | hello (ok : Bool)
  | check (ok : Bool)
  | poll (stopBetween : Bool)
  | drove (ok : Bool)
  deriving Repr, DecidableEq

inductive TaskStep (C : Type)
  | setPhase (phase : Phase)
  | task (c : C) (e : TaskEvent)
  deriving Repr, DecidableEq

variable {C W : Type} [DecidableEq C] [DecidableEq W]

namespace TaskState

def goTo (s : TaskState C W) (c : C) (place : TaskAt) : TaskState C W :=
  { s with task := Function.update s.task c place }

/-- `increment`, `decrement` of the gauge that counts the task's connection. -/
def addActive (cfg : TaskConfig C W) (s : TaskState C W) (c : C) (delta : Int) : TaskState C W :=
  if (cfg.kind c).isAppend then { s with appendActive := s.appendActive + delta }
  else { s with active := s.active + delta }

def markPrecheckDone (cfg : TaskConfig C W) (s : TaskState C W) (c : C) : TaskState C W :=
  { s with precheckDone := Function.update s.precheckDone (cfg.worker c) true }

/-- The connection did not come up: it no longer counts, and the task sleeps. -/
def giveUp (cfg : TaskConfig C W) (s : TaskState C W) (c : C) : TaskState C W :=
  let s := s.addActive cfg c (-1)
  { s with failed := s.failed + 1 }.goTo c .top

/-- From the hello on. -/
def begin (cfg : TaskConfig C W) (s : TaskState C W) (c : C) : TaskState C W :=
  match cfg.kind c with
  | .append | .append3 => s.goTo c .driving
  | .dma =>
    let s := if s.precheckDone (cfg.worker c) then s else s.markPrecheckDone cfg c
    s.goTo c .driving
  | kind =>
    if s.phase = .precheck ∧ s.precheckDone (cfg.worker c) = false then
      -- the binary protocol has no VERSION to send
      if kind = .memcacheBinary then (s.markPrecheckDone cfg c).goTo c .waiting
      else s.goTo c .check
    else s.goTo c .driving

/-- The end of the workload. Only `dma_connection_task` goes on after an `Ok`, to its loop's top,
and does not count the reasons. -/
def drove (cfg : TaskConfig C W) (s : TaskState C W) (c : C) (ok : Bool) : TaskState C W :=
  let s := s.addActive cfg c (-1)
  if cfg.kind c = .dma then s.goTo c .top
  else if ok then s.goTo c .returned
  else { s with disconnects := s.disconnects + 1 }.goTo c .top

end TaskState

/-- What the task `c` does when its await ends. -/
def taskEvent (cfg : TaskConfig C W) (s : TaskState C W) (c : C) :
    TaskEvent → Option (TaskState C W)
  | .wake =>
    if s.task c = .top then
      some (s.goTo c (if s.phase.shouldStop then .returned else .connecting))
    else none
  | .connect ok =>
    if s.task c = .connecting then
      if ok then
        let s := s.addActive cfg c 1
        some (if (cfg.kind c).saysHello then s.goTo c .hello else s.begin cfg c)
      else
        some ({ s with
          failed := s.failed + 1
          disconnects := s.disconnects + 1 }.goTo c .top)
    else none
  | .hello ok =>
    if s.task c = .hello then some (if ok then s.begin cfg c else s.giveUp cfg c) else none
  | .check ok =>
    if s.task c = .check then
      some (if ok then (s.markPrecheckDone cfg c).goTo c .waiting else s.giveUp cfg c)
    else none
  | .poll stopBetween =>
    if s.task c = .waiting then
      if stopBetween then
        if s.phase.shouldStop then some ((s.addActive cfg c (-1)).goTo c .returned) else none
      else if s.phase = .precheck then some s
      else some (s.goTo c .driving)
    else none
  | .drove ok => if s.task c = .driving then some (s.drove cfg c ok) else none

def taskStep (cfg : TaskConfig C W) (s : TaskState C W) : TaskStep C → Option (TaskState C W)
  | .setPhase phase => some { s with phase := phase }
  | .task c e => taskEvent cfg s c e

/-- No task has connected yet; a worker without connections has passed the precheck. -/
def TaskState.init (hasConnections : W → Bool) : TaskState C W where
  phase := .precheck
  precheckDone w := !hasConnections w
  task _ := .top
  active := 0
  appendActive := 0
  failed := 0
  disconnects := 0

end Worker
