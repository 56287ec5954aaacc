import Cachecannon.Lib.Exec
import Mathlib.Data.List.Basic

/-!
# The token dispatcher (`src/worker.rs`, `TokenDispatcher`)

A connection that the limiter turned away queues a claim (`acquire`) and parks on it; the worker's
dispatcher task funds the claims in order from the limiter (`dispatch`), and releases them all when
the run stops (`drain`). A slot is shared by the queue and the connection that waits on it, so the
slots stand in a store, in the order they were created, and the queue holds their places in it.

The limiter is any object that debits what it grants and nothing else (`Limiter`). Everything on a
worker runs on one thread: an interleaving of its tasks is a sequence of `Op`s. `completions` and
`debited` are ghosts: the slots completed so far, with the `max_tokens` a funding attempt saw, and
the tokens that `dispatch` took from the limiter.
-/

namespace Worker

/-- What `try_wait_n` answers. `TryWaitError` is `#[non_exhaustive]`: `other` is a variant the
code does not know. Times are in nanoseconds. -/
inductive TryWait
  | ok
  | insufficient (wait : Nat)
  | exceedsCapacity
  | other
  deriving Repr, DecidableEq

/-- A rate limiter with states `L`: `try_wait_n` debits the tokens it grants, and nothing when it
refuses. -/
structure Limiter (L : Type) where
  maxTokens : L → Nat
  tryWaitN : L → Nat → TryWait × L
  debited : L → Nat
  debits : ∀ {rl rl' n}, tryWaitN rl n = (.ok, rl') → debited rl' = debited rl + n
  refuses : ∀ {rl rl' n e}, tryWaitN rl n = (e, rl') → e ≠ .ok → debited rl' = debited rl

/-- `IDLE_SLEEP_MIN`, 100 µs. -/
def idleSleepMin : Nat := 100000

structure TokenSlot (W : Type) where
  want : Nat
  granted : Nat
  done : Bool
  waker : Option W
  deriving Repr, DecidableEq

/-- A slot was completed: the `max_tokens` its funding was tried at, or `none` by `drain`. -/
structure Completion where
  slot : Nat
  cap : Option Nat
  deriving Repr, DecidableEq

structure TokenDispatcher (W : Type) where
  slots : List (TokenSlot W)
  queue : List Nat
  closed : Bool
  idle : Option W
  woken : List W
  completions : List Completion
  deriving Repr, DecidableEq

namespace TokenDispatcher

variable {L W : Type}

/-- `TokenDispatcher::default()`. -/
def init : TokenDispatcher W := ⟨[], [], false, none, [], []⟩

/-- The tokens granted to a slot. -/
def grant (d : TokenDispatcher W) (i : Nat) : Nat := (d.slots[i]?.map TokenSlot.granted).getD 0

def want (d : TokenDispatcher W) (i : Nat) : Nat := (d.slots[i]?.map TokenSlot.want).getD 0

/-- `TokenSlot::complete`: the waiting task is woken. -/
def complete (d : TokenDispatcher W) (i granted : Nat) (cap : Option Nat) : TokenDispatcher W :=
  { d with
    slots := d.slots.modify i fun slot => { slot with granted, done := true, waker := none }
    woken := d.woken ++ (d.slots[i]?.bind TokenSlot.waker).toList
    completions := d.completions ++ [⟨i, cap⟩] }

/-- `TokenWait::poll`, and what `acquire` returns when it is ready. -/
def poll (d : TokenDispatcher W) (i : Nat) (cx : W) : Option Nat × TokenDispatcher W :=
  match d.slots[i]? with
  | none => (none, d)
  | some slot =>
    if slot.done then (some slot.granted, d)
    else (none, { d with slots := d.slots.modify i fun slot => { slot with waker := some cx } })

/-- `acquire` up to its wait: the claim is queued, and an idle dispatcher task is woken. -/
def queueClaim (d : TokenDispatcher W) (want : Nat) : TokenDispatcher W :=
  { d with
    slots := d.slots ++ [⟨want, 0, false, none⟩]
    queue := d.queue ++ [d.slots.length]
    idle := none
    woken := d.woken ++ d.idle.toList }

/-- `acquire` up to its first poll: `some 0` when the dispatcher has closed. -/
def acquire (d : TokenDispatcher W) (want : Nat) (cx : W) : Option Nat × TokenDispatcher W :=
  if d.closed then (some 0, d) else (d.queueClaim want).poll d.slots.length cx

/-- The loop of `dispatch`, with the queue it has yet to serve. -/
def dispatchLoop (lim : Limiter L) :
    List Nat → TokenDispatcher W → L → Option Nat × TokenDispatcher W × L
  | [], d, rl => (none, { d with queue := [] }, rl)
  | i :: rest, d, rl =>
    let cap := lim.maxTokens rl
    let want := max (min (d.want i) cap) 1
    match lim.tryWaitN rl want with
    | (.ok, rl) => dispatchLoop lim rest (d.complete i want (some cap)) rl
    -- service is in order: the head keeps its place
    | (.insufficient wait, rl) => (some wait, { d with queue := i :: rest }, rl)
    | (.exceedsCapacity, rl) => dispatchLoop lim rest (d.complete i 0 (some cap)) rl
    | (.other, rl) => (some idleSleepMin, { d with queue := i :: rest }, rl)

/-- `dispatch`: how long to wait before the next call, `none` when the queue is empty. -/
def dispatch (lim : Limiter L) (d : TokenDispatcher W) (rl : L) :
    Option Nat × TokenDispatcher W × L :=
  dispatchLoop lim d.queue d rl

def claimPending (d : TokenDispatcher W) (cx : W) : Bool × TokenDispatcher W :=
  if d.queue ≠ [] then (true, d) else (false, { d with idle := some cx })

/-- `for slot in queue.drain(..)`. -/
def drainLoop : List Nat → TokenDispatcher W → TokenDispatcher W
  | [], d => { d with queue := [] }
  | i :: rest, d => drainLoop rest (d.complete i 0 none)

def drain (d : TokenDispatcher W) : TokenDispatcher W :=
  drainLoop d.queue { d with closed := true }

end TokenDispatcher

/-! ## Interleavings -/

/-- What the tasks of a worker do to its dispatcher. `limiter` is all that happens to the limiter
outside `dispatch`: time passes, a connection takes tokens itself, the rate or the capacity is
changed. -/
inductive DispatcherOp (L W : Type)
  | acquire (want : Nat) (cx : W)
  | poll (slot : Nat) (cx : W)
  | dispatch
  | claimPending (cx : W)
  | clearIdle
  | drain
  | limiter (rl : L)

structure DispatcherState (L W : Type) where
  d : TokenDispatcher W
  rl : L
  debited : Nat

variable {L W : Type}

def DispatcherState.init (rl : L) : DispatcherState L W := ⟨.init, rl, 0⟩

def dispatcherStep (lim : Limiter L) (s : DispatcherState L W) :
    DispatcherOp L W → Option (DispatcherState L W)
  | .acquire want cx => some { s with d := (s.d.acquire want cx).2 }
  | .poll slot cx =>
    if slot < s.d.slots.length then some { s with d := (s.d.poll slot cx).2 } else none
  | .dispatch =>
    let (_, d, rl) := s.d.dispatch lim s.rl
    some ⟨d, rl, s.debited + (lim.debited rl - lim.debited s.rl)⟩
  | .claimPending cx => some { s with d := (s.d.claimPending cx).2 }
  | .clearIdle => some { s with d := { s.d with idle := none } }
  | .drain => some { s with d := s.d.drain }
  | .limiter rl => some { s with rl }

end Worker
