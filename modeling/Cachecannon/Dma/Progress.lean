import Mathlib.Logic.Function.Basic

/-!
# The progress poller (`src/dma/fabric/progress.rs`)

`poll_loop` runs on a thread of its own and parks on `wakeup` while no transfer is in flight.
Any thread may call `drive`, drop the guards it returned, or drop the driver. A step is one atomic
operation, or one lock, unlock, wait or notify; waiting releases `park` in the same step.

`active` does not wrap: every live guard holds a clone of the `Arc`, whose count aborts the process
long before.
-/

namespace Dma

/-- Who holds `park`. -/
inductive Owner (T : Type)
  | poller
  | drive (t : T)
  | drop
  deriving Repr, DecidableEq

/-- Where a thread is in `drive`: not in it; past a `fetch_add` that returned 0, so it has to take
`park`; with `park`, before and after `notify_one`; about to return its guard. -/
inductive DrivePc
  | idle
  | waking
  | parked
  | notified
  | counted
  deriving Repr, DecidableEq

/-- Where `drop` of the driver is: not called, past the store of `shutdown`, with `park` before
and after `notify_one`, in `join`, at its end. -/
inductive DropPc
  | idle
  | stored
  | parked
  | notified
  | joining
  | dropped
  deriving Repr, DecidableEq

/-- Where `poll_loop` is. In `locking` it has to take `park`, on entry to its block or woken from
the wait; `activeCheck` and `shutdownCheck` are the two loads of the `while`, `parking` is before
`wait`, `leaving` past the loop with `park`; `stopCheck` is the test after the block. -/
inductive PollerPc
  | locking
  | activeCheck
  | shutdownCheck
  | parking
  | waiting
  | leaving
  | stopCheck
  | draining
  | returned
  deriving Repr, DecidableEq

structure Driver (T : Type) where
  active : Nat
  shutdown : Bool
  park : Option (Owner T)
  poller : PollerPc
  drive : T → DrivePc
  /-- The live guards. -/
  guards : Nat
  drop : DropPc

/-- `ProgressDriver::new`. -/
def Driver.new (T : Type) : Driver T where
  active := 0
  shutdown := false
  park := none
  poller := .locking
  drive := fun _ => .idle
  guards := 0
  drop := .idle

inductive DriverStep (T : Type)
  /-- `drive` -/
  | fetchAdd (t : T)
  | lockDrive (t : T)
  | notifyDrive (t : T)
  | unlockDrive (t : T)
  | returnGuard (t : T)
  /-- a guard drops -/
  | fetchSub
  /-- `drop` of the driver -/
  | storeShutdown
  | lockDrop
  | notifyDrop
  | unlockDrop
  | join
  /-- `poll_loop` -/
  | lockPoller
  | loadActive
  | loadShutdown
  | wait
  | unlockPoller
  | testShutdown
  | readQueue (entry : Bool)
  /-- a wakeup without a notification -/
  | spurious
  deriving Repr, DecidableEq

/-- `notify_one`: the poller is the only thread that waits. -/
def notifyOne : PollerPc → PollerPc
  | .waiting => .locking
  | pc => pc

variable {T : Type} [DecidableEq T]

def Driver.setDrive (s : Driver T) (t : T) (pc : DrivePc) : Driver T :=
  { s with drive := Function.update s.drive t pc }

def driverStep (s : Driver T) : DriverStep T → Option (Driver T)
  | .fetchAdd t =>
    if s.drive t = .idle then
      some { s.setDrive t (if s.active = 0 then .waking else .counted) with active := s.active + 1 }
    else none
  | .lockDrive t =>
    if s.drive t = .waking ∧ s.park = none then
      some { s.setDrive t .parked with park := some (.drive t) }
    else none
  | .notifyDrive t =>
    if s.drive t = .parked then
      some { s.setDrive t .notified with poller := notifyOne s.poller }
    else none
  | .unlockDrive t =>
    if s.drive t = .notified then some { s.setDrive t .counted with park := none } else none
  | .returnGuard t =>
    if s.drive t = .counted then some { s.setDrive t .idle with guards := s.guards + 1 } else none
  | .fetchSub =>
    if 0 < s.guards then some { s with guards := s.guards - 1, active := s.active - 1 } else none
  | .storeShutdown =>
    if s.drop = .idle then some { s with drop := .stored, shutdown := true } else none
  | .lockDrop =>
    if s.drop = .stored ∧ s.park = none then
      some { s with drop := .parked, park := some .drop }
    else none
  | .notifyDrop =>
    if s.drop = .parked then some { s with drop := .notified, poller := notifyOne s.poller }
    else none
  | .unlockDrop =>
    if s.drop = .notified then some { s with drop := .joining, park := none } else none
  | .join =>
    if s.drop = .joining ∧ s.poller = .returned then some { s with drop := .dropped } else none
  | .lockPoller =>
    if s.poller = .locking ∧ s.park = none then
      some { s with poller := .activeCheck, park := some .poller }
    else none
  | .loadActive =>
    if s.poller = .activeCheck then
      some { s with poller := if s.active = 0 then .shutdownCheck else .leaving }
    else none
  | .loadShutdown =>
    if s.poller = .shutdownCheck then
      some { s with poller := if s.shutdown then .leaving else .parking }
    else none
  | .wait =>
    if s.poller = .parking then some { s with poller := .waiting, park := none } else none
  | .unlockPoller =>
    if s.poller = .leaving then some { s with poller := .stopCheck, park := none } else none
  | .testShutdown =>
    if s.poller = .stopCheck then
      some { s with poller := if s.shutdown then .returned else .draining }
    else none
  | .readQueue entry =>
    if s.poller = .draining then some { s with poller := if entry then .draining else .locking }
    else none
  | .spurious => if s.poller = .waiting then some { s with poller := .locking } else none

end Dma
