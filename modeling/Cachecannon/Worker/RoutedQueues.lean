import Cachecannon.Worker.Routed
import Mathlib.Data.List.FinRange

/-!
# The wake list of a routed queue (`src/worker.rs`, `RoutedQueues`, `NodeWait`)

All nodes' queues of a worker, with the waits on them. An entry of `waiters` is shared by the list
and the wait that registered it, so the slots stand in a store, in the order they were registered,
and the list holds their places in it. Any task may poll or drop any wait at any time; a wait that
has returned is not polled again.

`woken`, `pushed` and `popped` are ghosts, and so is the `owner` of a slot: the slots woken, with
their wakers, the requests a node's queue took and gave, and the wait that registered the slot.
-/

namespace Worker

structure WaitSlot (W : Type) where
  live : Bool
  waker : W
  owner : Nat
  deriving Repr, DecidableEq

structure NodeQueue (R : Type) where
  requests : List R
  cap : Nat
  waiters : List Nat
  waitersCap : Nat
  pushed : List R
  popped : List R
  deriving Repr, DecidableEq

/-- A `RoutedQueues::wait`; `done` when it has returned or been dropped. -/
structure NodeWait (n : Nat) where
  node : Fin n
  slot : Option Nat
  done : Bool
  deriving Repr, DecidableEq

/-- The queues of `n` nodes. -/
structure RoutedQueues (n : Nat) (R W : Type) where
  nodes : Fin n → NodeQueue R
  closed : Bool
  slots : List (WaitSlot W)
  waits : List (NodeWait n)
  woken : List (Nat × W)

variable {n : Nat} {R W : Type}

namespace RoutedQueues

def new (connections : Fin n → Nat) (pipelineDepth : Nat) : RoutedQueues n R W where
  nodes node :=
    { requests := []
      cap := saturate (saturate (connections node * pipelineDepth) * routedQueuePipelines)
      waiters := []
      waitersCap := saturate (saturate (connections node * 2) + 16)
      pushed := []
      popped := [] }
  closed := false
  slots := []
  waits := []
  woken := []

def live (s : RoutedQueues n R W) (k : Nat) : Bool := s.slots[k]?.any (·.live)

def setNode (s : RoutedQueues n R W) (node : Fin n) (q : NodeQueue R) : RoutedQueues n R W :=
  { s with nodes := Function.update s.nodes node q }

/-- `slot.live.set(false)` -/
def kill (s : RoutedQueues n R W) (k : Nat) : RoutedQueues n R W :=
  { s with slots := s.slots.modify k fun slot => { slot with live := false } }

/-- `w.live.replace(false)` of a live entry, and `wake_by_ref`. -/
def wake (s : RoutedQueues n R W) (k : Nat) : RoutedQueues n R W :=
  { s.kill k with woken := s.woken ++ (s.slots[k]?.map fun slot => (k, slot.waker)).toList }

/-- Take entries off the front up to the first live one. -/
def popLive (live : Nat → Bool) : List Nat → Option Nat × List Nat
  | [] => (none, [])
  | k :: ks => if live k then (some k, ks) else popLive live ks

def push (s : RoutedQueues n R W) (node : Fin n) (r : R) : Bool × RoutedQueues n R W :=
  let q := s.nodes node
  if q.cap ≤ q.requests.length then (false, s)
  else
    let popped := popLive s.live q.waiters
    let s := s.setNode node
      { q with requests := q.requests ++ [r], waiters := popped.2, pushed := q.pushed ++ [r] }
    (true, match popped.1 with
      | some k => s.wake k
      | none => s)

def pop (s : RoutedQueues n R W) (node : Fin n) : Option R × RoutedQueues n R W :=
  let q := s.nodes node
  (q.requests.head?, s.setNode node
    { q with requests := q.requests.tail, popped := q.popped ++ q.requests.head?.toList })

def wait (s : RoutedQueues n R W) (node : Fin n) : RoutedQueues n R W :=
  { s with waits := s.waits ++ [⟨node, none, false⟩] }

/-- The entry of the wait, if it has one, is dead from here on. -/
def release (s : RoutedQueues n R W) (slot : Option Nat) : RoutedQueues n R W :=
  match slot with
  | some k => s.kill k
  | none => s

def register (s : RoutedQueues n R W) (w : Nat) (wait : NodeWait n) (waker : W) :
    RoutedQueues n R W :=
  let q := s.nodes wait.node
  let waiters := if q.waitersCap ≤ q.waiters.length then q.waiters.filter s.live else q.waiters
  let k := s.slots.length
  { s.setNode wait.node { q with waiters := waiters ++ [k] } with
    slots := s.slots ++ [⟨true, waker, w⟩]
    waits := s.waits.set w { wait with slot := some k } }

/-- `NodeWait::poll`: whether it is ready. `none` for a wait that is done. -/
def poll (s : RoutedQueues n R W) (w : Nat) (waker : W) : Option (Bool × RoutedQueues n R W) :=
  match s.waits[w]? with
  | none => none
  | some wait =>
    if wait.done then none
    else if s.closed || !(s.nodes wait.node).requests.isEmpty then
      some (true, { s.release wait.slot with
        waits := s.waits.set w { wait with slot := none, done := true } })
    else
      match wait.slot.filter s.live with
      | some k =>
        some (false, { s with slots := s.slots.modify k fun slot => { slot with waker } })
      | none => some (false, s.register w wait waker)

def drop (s : RoutedQueues n R W) (w : Nat) : Option (RoutedQueues n R W) :=
  match s.waits[w]? with
  | none => none
  | some wait =>
    if wait.done then none
    else some { s.release wait.slot with waits := s.waits.set w { wait with done := true } }

def close (s : RoutedQueues n R W) : RoutedQueues n R W :=
  let entries := (List.finRange n).flatMap fun node => (s.nodes node).waiters
  let s := entries.foldl (fun s k => if s.live k then s.wake k else s) s
  { s with closed := true, nodes := fun node => { s.nodes node with waiters := [] } }

/-- The waits on a node that have not returned or been dropped. -/
def concurrent (s : RoutedQueues n R W) (node : Fin n) : Nat :=
  s.waits.countP fun wait => !wait.done && wait.node = node

end RoutedQueues

inductive QueueOp (n : Nat) (R W : Type)
  | push (node : Fin n) (r : R)
  | pop (node : Fin n)
  | wait (node : Fin n)
  | poll (w : Nat) (waker : W)
  | drop (w : Nat)
  | close

/-- A call, with at most `connections` waits on a node at a time. -/
def queueStep (connections : Fin n → Nat) (s : RoutedQueues n R W) :
    QueueOp n R W → Option (RoutedQueues n R W)
  | .push node r => some (s.push node r).2
  | .pop node => some (s.pop node).2
  | .wait node => if s.concurrent node < connections node then some (s.wait node) else none
  | .poll w waker => (s.poll w waker).map (·.2)
  | .drop w => s.drop w
  | .close => some s.close

end Worker
