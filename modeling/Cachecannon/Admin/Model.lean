import Cachecannon.Lib.Exec
import Mathlib.Logic.Function.Basic

/-!
# The admin thread and its shutdown (`src/admin/mod.rs`)

`AdminServer::run` starts a thread that spawns up to two tasks and awaits them: the accept loop of
`serve_admin` and the snapshot loop of `run_parquet_recorder`. Each loop selects between its own
event and `stop_notify.notified()`. `AdminHandle::shutdown` calls `notify_waiters` once, which
completes the `Notified` futures that exist then and no others, and joins the thread.

A `Notified` exists while its task is in the `select!`. The branch that completes drops the other
futures, also a `Notified` that was notified; where both are ready, `select!` takes either.
-/

namespace Admin

inductive AdminTask
  | prometheusServer
  | parquetRecorder
  deriving Repr, DecidableEq

/-- Where a task is: not spawned, before its loop (binding the listener, opening the staging file),
in its `select!` with a `Notified` that was notified or not, in the body of the other branch, past
the loop (the final snapshot and the conversion), or at its end. -/
inductive TaskPc
  | unspawned
  | starting
  | selecting (notified : Bool)
  | handling
  | finishing
  | ended
  deriving Repr, DecidableEq

inductive ThreadPc
  | starting
  | awaiting
  | ended
  deriving Repr, DecidableEq

/-- The thread that holds the `AdminHandle`. -/
inductive CallerPc
  | running
  | joining
  | returned
  deriving Repr, DecidableEq

structure AdminConfig where
  listenAddr : Bool
  parquetPath : Bool
  deriving Repr, DecidableEq

def AdminConfig.configured (cfg : AdminConfig) : AdminTask → Bool
  | .prometheusServer => cfg.listenAddr
  | .parquetRecorder => cfg.parquetPath

structure AdminState where
  thread : ThreadPc
  task : AdminTask → TaskPc
  caller : CallerPc

def AdminState.init : AdminState := ⟨.starting, fun _ => .unspawned, .running⟩

def AdminState.setTask (s : AdminState) (t : AdminTask) (pc : TaskPc) : AdminState :=
  { s with task := Function.update s.task t pc }

/-- `start` builds the runtime and spawns the configured tasks, or panics; `enter` binds or opens,
or returns an error; `other` is a connection accepted or an interval passed, and `again` the next
turn of the loop; `stop` is the `notified()` branch. -/
inductive AdminStep
  | start (built : Bool)
  | enter (t : AdminTask) (ok : Bool)
  | other (t : AdminTask)
  | again (t : AdminTask)
  | stop (t : AdminTask)
  | finish (t : AdminTask)
  | threadEnds
  | notify
  | join
  deriving Repr, DecidableEq

def notifyWaiters : TaskPc → TaskPc
  | .selecting _ => .selecting true
  | pc => pc

def allEnded (cfg : AdminConfig) (s : AdminState) : Bool :=
  [AdminTask.prometheusServer, .parquetRecorder].all fun t =>
    !cfg.configured t || s.task t = .ended

def adminStep (cfg : AdminConfig) (s : AdminState) : AdminStep → Option AdminState
  | .start built =>
    if s.thread = .starting then
      if built then
        some { s with thread := .awaiting
                      task := fun t => if cfg.configured t then .starting else .unspawned }
      else some { s with thread := .ended }
    else none
  | .enter t ok =>
    if s.task t = .starting then some (s.setTask t (if ok then .selecting false else .ended))
    else none
  | .other t =>
    match s.task t with
    | .selecting _ => some (s.setTask t .handling)
    | _ => none
  | .again t => if s.task t = .handling then some (s.setTask t (.selecting false)) else none
  | .stop t => if s.task t = .selecting true then some (s.setTask t .finishing) else none
  | .finish t => if s.task t = .finishing then some (s.setTask t .ended) else none
  | .threadEnds =>
    if s.thread = .awaiting ∧ allEnded cfg s then some { s with thread := .ended } else none
  | .notify =>
    if s.caller = .running then
      some { s with caller := .joining, task := fun t => notifyWaiters (s.task t) }
    else none
  | .join =>
    if s.caller = .joining ∧ s.thread = .ended then some { s with caller := .returned } else none

/-- The task is in its loop, or has yet to enter it, with no notification pending. -/
def TaskPc.unnotified : TaskPc → Bool
  | .unspawned | .starting | .selecting false | .handling => true
  | .selecting true | .finishing | .ended => false

/-- The stop signal is lost: `shutdown` has notified, and a task of the running admin thread is not
going to leave its loop. -/
def AdminState.Lost (cfg : AdminConfig) (s : AdminState) : Prop :=
  s.caller ≠ .running ∧ s.thread ≠ .ended ∧
    ∃ t, cfg.configured t = true ∧ (s.task t).unnotified = true

end Admin
