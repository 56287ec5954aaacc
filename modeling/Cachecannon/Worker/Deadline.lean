import Cachecannon.Worker.InFlight

/-!
# The request timeout (`src/worker.rs`, `InFlight`, `recv_with_timeout`)

A connection's deadline timer outlives the receives: it is armed for the oldest request's deadline
and left running when the reply comes. The clock is read several times in a call, and never goes
back; `ringline::try_sleep` may find no free slot, and a sleep of `after` taken at the clock read
`start` is ready from `start + after` on. A receive that is pending holds the bookkeeping, so
nothing else changes it until the receive returns or is dropped.
-/

namespace Worker

/-- `ringline::SleepFuture` -/
structure SleepFuture where
  start : Nat
  after : Nat
  deriving Repr, DecidableEq

def SleepFuture.expiry (t : SleepFuture) : Nat := t.start + t.after

/-- `InFlight`, with its deadline timer. -/
structure TimedInFlight extends InFlight where
  timeout : Nat
  timer : Option SleepFuture
  deriving Repr, DecidableEq

namespace TimedInFlight

def new (timeout : Nat) : TimedInFlight := { InFlight.new with timeout, timer := none }

def pushQueued (v : TimedInFlight) (firedAt queuedNs : Nat) : TimedInFlight :=
  { v with toInFlight := v.toInFlight.pushQueued firedAt queuedNs }

def pop (v : TimedInFlight) : TimedInFlight := { v with toInFlight := v.toInFlight.pop.2 }

def forgetNewest (v : TimedInFlight) (n : Nat) : TimedInFlight :=
  { v with toInFlight := v.toInFlight.forgetNewest n }

/-- `arm`, at the clock read `now`: `none` when the timer pool has no free slot. -/
def arm (v : TimedInFlight) (now after : Nat) (slot : Bool) : Option TimedInFlight :=
  if slot then some { v with timer := some ⟨now, after⟩ } else none

/-- Time left before the oldest request in flight expires. -/
def remaining (v : TimedInFlight) (now : Nat) : Option Nat :=
  if v.timeout = 0 then none
  else v.fired.head?.map fun oldest => v.timeout - (now - oldest)

end TimedInFlight

/-! ## A receive -/

/-- A receive under way: `recv.await`, or the poll function. -/
inductive Recv
  | unbounded
  | bounded
  deriving Repr, DecidableEq

/-- Up to the first poll: the receive that is awaited, or `none` when no timer could be armed. -/
def recvWithTimeout (v : TimedInFlight) (now : Nat) (slot : Bool) :
    Option (Recv × TimedInFlight) :=
  match v.remaining now with
  | none => some (.unbounded, v)
  | some remaining =>
    if v.timer.isNone then (v.arm now remaining slot).map fun v => (.bounded, v)
    else some (.bounded, v)

/-- What a turn of the poll's loop finds: when it polls the timer, the clock read after it, and
whether a timer slot is free. -/
structure TimerTurn where
  polledAt : Nat
  now : Nat
  slot : Bool
  deriving Repr, DecidableEq

inductive Polled
  | received
  | pending
  /-- `Err(true)` -/
  | expired
  /-- `Err(false)` -/
  | noTimer
  deriving Repr, DecidableEq

/-- A poll's result. `armed` has the durations that the loop armed the timer for. -/
structure PollResult where
  polled : Polled
  inflight : TimedInFlight
  clock : Nat
  armed : List Nat
  deriving Repr, DecidableEq

/-- The loop of a poll whose reply is not there: `none` when there are fewer turns than it takes. -/
def pollTimer (clock : Nat) : List TimerTurn → TimedInFlight → Option PollResult
  | [], v =>
    match v.timer with
    | none => some ⟨.noTimer, v, clock, []⟩
    | some _ => none
  | turn :: turns, v =>
    match v.timer with
    | none => some ⟨.noTimer, v, clock, []⟩
    | some timer =>
      if turn.polledAt < timer.expiry then some ⟨.pending, v, turn.polledAt, []⟩
      else
        let v := { v with timer := none }
        match v.remaining turn.now with
        | some (left + 1) =>
          let r := pollTimer turn.now turns ((v.arm turn.now (left + 1) turn.slot).getD v)
          -- a slot that is not free is found by the next turn, which has no timer
          r.map fun r => { r with armed := if turn.slot then (left + 1) :: r.armed else r.armed }
        | _ => some ⟨.expired, v, turn.now, []⟩

/-- A poll of the receive. -/
def pollRecv (recv : Recv) (ready : Bool) (clock : Nat) (turns : List TimerTurn)
    (v : TimedInFlight) : Option PollResult :=
  if ready then some ⟨.received, v, clock, []⟩
  else
    match recv with
    | .unbounded => some ⟨.pending, v, clock, []⟩
    | .bounded => pollTimer clock turns v

/-! ## The calls on a connection -/

/-- A connection's bookkeeping, with the receive under way, this connection's part of
`REQUEST_TIMEOUTS` and `REQUEST_ERRORS`, the last clock read and the last fire time. -/
structure Receiver where
  inflight : TimedInFlight
  recv : Option Recv
  requestTimeouts : Nat
  requestErrors : Nat
  closed : Bool
  clock : Nat
  lastFired : Nat
  deriving Repr, DecidableEq

def Receiver.new (timeout : Nat) : Receiver where
  inflight := .new timeout
  recv := none
  requestTimeouts := 0
  requestErrors := 0
  closed := false
  clock := 0
  lastFired := 0

inductive Call
  | push (firedAt queuedNs : Nat)
  | pop
  | forgetNewest (n : Nat)
  | recv (now : Nat) (slot : Bool)
  | poll (ready : Bool) (turns : List TimerTurn)
  /-- The future of the receive is dropped. -/
  | drop
  deriving Repr, DecidableEq

/-- The clock reads of the turns, in order, none before `clock`. -/
def readsFrom (clock : Nat) : List TimerTurn → Bool
  | [] => true
  | turn :: turns => clock ≤ turn.polledAt && turn.polledAt ≤ turn.now && readsFrom turn.now turns

/-- What a poll that is ready leaves: on an expiry every request in flight has timed out. -/
def Receiver.finish (s : Receiver) (r : PollResult) : Receiver :=
  let s := { s with inflight := r.inflight, clock := r.clock }
  match r.polled with
  | .pending => s
  | .received => { s with recv := none }
  | .expired =>
    { s with
      recv := none
      requestTimeouts := s.requestTimeouts + r.inflight.fired.length
      requestErrors := s.requestErrors + r.inflight.fired.length
      closed := true }
  | .noTimer => { s with recv := none, closed := true }

/-- A call. The bookkeeping is borrowed while a receive is under way, fire times do not decrease
and neither do the clock reads. -/
def Receiver.step (s : Receiver) : Call → Option Receiver
  | .push firedAt queuedNs =>
    if s.recv = none ∧ s.lastFired ≤ firedAt then
      some { s with inflight := s.inflight.pushQueued firedAt queuedNs, lastFired := firedAt }
    else none
  | .pop => if s.recv = none then some { s with inflight := s.inflight.pop } else none
  | .forgetNewest n =>
    if s.recv = none then some { s with inflight := s.inflight.forgetNewest n } else none
  | .recv now slot =>
    if s.recv = none ∧ s.clock ≤ now then
      match recvWithTimeout s.inflight now slot with
      | some (recv, v) => some { s with inflight := v, recv := some recv, clock := now }
      | none => some { s with closed := true, clock := now }
    else none
  | .poll ready turns =>
    match s.recv with
    | some recv =>
      if readsFrom s.clock turns then
        (pollRecv recv ready s.clock turns s.inflight).map s.finish
      else none
    | none => none
  | .drop => some { s with recv := none }

end Worker
