import Cachecannon.Lib.Exec
import Mathlib.Logic.Function.Basic

/-!
# KV-cache replay (`src/kvreplay.rs`)

A reader thread sends trace requests into a bounded channel. One dispatcher task on each worker
claims them and hands them, through slots, to the worker's idle connections, which run them. A
connection found closed may hand its request back.

A worker is one thread, and all but the channel and the count of finished requests is its own.
So a step is what a task does between two awaits: an iteration of `run_dispatcher`
(`runDispatcher`), or of a connection the asking for a request (`next_job`), the taking of it, or
the end of a `run_request`. The reader counts a request and then sends it, in two steps.

`Request.index` is a ghost, the position of a request among those the reader sends, and so is
`marked`, the indices of the requests `mark_finished` was called for.
-/

namespace KvReplay

def readAhead : Nat := 16384

/-- A trace request, as far as the dispatcher reads it. -/
structure Request where
  timestamp : Int
  index : Nat
  deriving Repr, DecidableEq

structure KvJob where
  req : Request
  scheduled : Option Nat
  retried : Bool
  deadHandovers : Nat
  deriving Repr, DecidableEq

def KvJob.new (req : Request) (scheduled : Option Nat) : KvJob := ⟨req, scheduled, false, 0⟩

def KvJob.index (job : KvJob) : Nat := job.req.index

def KvJob.due (job : KvJob) (now : Nat) : Bool := job.scheduled.all (· ≤ now)

inductive HandBack
  | unsent
  | lookupSent
  deriving Repr, DecidableEq

/-- Why `run_request` failed: the request did, the connection did, or the connection was closed
before the server answered any operation of the request. -/
inductive Failure
  | request
  | disconnect
  | closed
  deriving Repr, DecidableEq

structure KvSlot where
  job : Option KvJob
  done : Bool
  deriving Repr, DecidableEq

def KvSlot.new : KvSlot := ⟨none, false⟩

def KvSlot.complete (slot : KvSlot) (job : Option KvJob) : KvSlot := { slot with job, done := true }

/-! ## The dispatcher of a worker -/

/-- `KvDispatcher`, and the locals `exhausted` and `pending` of its task. A slot in `waiting` is
named by the connection that waits on it, and a request handed back is stamped with
`connectFailures` as it was then. -/
structure KvDispatcher (C : Type) where
  waiting : List C
  closed : Bool
  returned : List (KvJob × Nat)
  connections : Nat
  live : Nat
  connectFailures : Nat
  exhausted : Bool
  pending : Option KvJob

variable {W C : Type}

/-- `start_dispatcher`: closed when the task could not be spawned. -/
def startDispatcher (connections : Nat) (spawned : Bool) : KvDispatcher C :=
  ⟨[], !spawned, [], connections, 0, 0, false, none⟩

namespace KvDispatcher

def pushReturned (d : KvDispatcher C) (job : KvJob) : KvDispatcher C :=
  { d with returned := d.returned ++ [(job, d.connectFailures)] }

/-- `give_back`: `none` when the request has used up its hand-backs. -/
def giveBack (d : KvDispatcher C) (job : KvJob) : HandBack → Option (KvDispatcher C)
  | .unsent =>
    if max d.connections 1 ≤ job.deadHandovers then none
    else some (d.pushReturned { job with deadHandovers := job.deadHandovers + 1 })
  | .lookupSent =>
    if job.retried then none else some (d.pushReturned { job with retried := true })

def noteConnectFailed (d : KvDispatcher C) : KvDispatcher C :=
  { d with connectFailures := d.connectFailures + 1 }

/-- A held request that is due while no connection is connected joins the handed-back ones. -/
def parkPending (d : KvDispatcher C) (now : Nat) : KvDispatcher C :=
  match d.pending with
  | some job => if d.live = 0 ∧ job.due now then { d with pending := none }.pushReturned job else d
  | none => d

def stale (d : KvDispatcher C) (r : KvJob × Nat) : Bool := decide (r.2 < d.connectFailures)

def failed (d : KvDispatcher C) : List KvJob :=
  if d.live = 0 then (d.returned.takeWhile d.stale).map (·.1) else []

def failReturned (d : KvDispatcher C) : KvDispatcher C :=
  if d.live = 0 then { d with returned := d.returned.dropWhile d.stale } else d

end KvDispatcher

/-- What an iteration of the dispatcher leaves: the channel, the dispatcher, the slot it
completed, and the requests it failed. -/
structure Dispatched (C : Type) where
  channel : List Request
  dispatch : KvDispatcher C
  handed : Option (C × KvJob)
  failed : List KvJob

def handPending (channel : List Request) (d : KvDispatcher C) (now : Nat) (failed : List KvJob) :
    Dispatched C :=
  match d.waiting, d.pending with
  | c :: waiting, some job =>
    if job.due now then ⟨channel, { d with waiting, pending := none }, some (c, job), failed⟩
    else ⟨channel, d, none, failed⟩
  | _, _ => ⟨channel, d, none, failed⟩

def claimPending (scheduledAt : Request → Option Nat) (disconnected : Bool)
    (channel : List Request) (d : KvDispatcher C) (now : Nat) (failed : List KvJob) :
    Dispatched C :=
  if d.waiting ≠ [] ∧ d.pending = none ∧ d.exhausted = false then
    match channel with
    | req :: channel =>
      ⟨channel, { d with pending := some (.new req (scheduledAt req)) }, none, failed⟩
    | [] =>
      if disconnected then ⟨[], { d with exhausted := true }, none, failed⟩
      else handPending [] d now failed
  else handPending channel d now failed

/-- **One iteration of `run_dispatcher`.** `nowHeld` and `now` are the two readings of the
clock. -/
def runDispatcher (scheduledAt : Request → Option Nat) (disconnected : Bool)
    (channel : List Request) (d : KvDispatcher C) (nowHeld now : Nat) : Dispatched C :=
  match d.waiting, d.returned with
  -- handed-back requests first
  | c :: waiting, (job, _) :: returned =>
    ⟨channel, { d with waiting, returned }, some (c, job), []⟩
  | _, _ =>
    let d := d.parkPending nowHeld
    claimPending scheduledAt disconnected channel d.failReturned now d.failed

/-! ## State -/

/-- A connection task is outside `drive`, at the top of its loop, in `next_job`, or in
`run_request`. -/
inductive ConnPc
  | connecting
  | top
  | waiting (slot : KvSlot)
  | running (job : KvJob)

structure KvConn where
  pc : ConnPc
  ranAny : Bool

/-- `spawned` says that a worker's dispatcher task could be spawned; `scheduledAt` is
`scheduled_at`, by the start of the clock. -/
structure KvConfig (W C : Type) where
  worker : C → W
  connections : W → Nat
  spawned : W → Bool
  scheduledAt : Nat → Request → Option Nat
  requests : List Request
  requests_index : requests.map Request.index = List.range requests.length

/-- `sent` is `reader.sent`, and `sending` the request the reader counted and is sending. -/
structure KvState (W C : Type) where
  sent : Nat
  sending : Option Request
  stopped : Bool
  disconnected : Bool
  channel : List Request
  start : Option Nat
  dispatch : W → KvDispatcher C
  conn : C → KvConn
  finished : Nat
  marked : List Nat

def KvState.init (cfg : KvConfig W C) : KvState W C where
  sent := 0
  sending := none
  stopped := false
  disconnected := false
  channel := []
  start := none
  dispatch w := startDispatcher (cfg.connections w) (cfg.spawned w)
  conn _ := ⟨.connecting, false⟩
  finished := 0
  marked := []

namespace KvState

/-- `is_finished`: the reader has stopped and every request it sent has finished. -/
def isFinished (s : KvState W C) : Bool := s.stopped && decide (s.sent ≤ s.finished)

def markFinished (s : KvState W C) (jobs : List KvJob) : KvState W C :=
  { s with finished := s.finished + jobs.length, marked := s.marked ++ jobs.map KvJob.index }

def setChannel (s : KvState W C) (channel : List Request) : KvState W C := { s with channel }

variable [DecidableEq W] [DecidableEq C]

def setDispatch (s : KvState W C) (w : W) (d : KvDispatcher C) : KvState W C :=
  { s with dispatch := Function.update s.dispatch w d }

def setPc (s : KvState W C) (c : C) (pc : ConnPc) : KvState W C :=
  { s with conn := Function.update s.conn c { s.conn c with pc } }

def setConn (s : KvState W C) (c : C) (conn : KvConn) : KvState W C :=
  { s with conn := Function.update s.conn c conn }

end KvState

/-! ## Steps -/

/-- The reader counts a request (`read`), which the channel then takes (`send`), stops, and drops
its end of the channel. A connection finds itself closed at the top of its loop (`eof`), begins
its wait for a request (`ask`), ends it, alive or not (`take`), or comes to the end of
`run_request` (`done`). -/
inductive KvStep (W C : Type)
  | read
  | send
  | stopReader
  | dropSender
  | startAt (instant : Nat)
  | dispatch (w : W) (nowHeld now : Nat)
  | connectFailed (c : C)
  | connect (c : C)
  | eof (c : C)
  | ask (c : C)
  | take (c : C) (alive : Bool)
  | done (c : C) (result : Except Failure Unit)

variable [DecidableEq W] [DecidableEq C]

def completeSlot (s : KvState W C) (handed : C × KvJob) : KvState W C :=
  match (s.conn handed.1).pc with
  | .waiting slot => s.setPc handed.1 (.waiting (slot.complete (some handed.2)))
  | _ => s

def KvState.dispatched (s : KvState W C) (w : W) (out : Dispatched C) : KvState W C :=
  let s := ((s.setChannel out.channel).setDispatch w out.dispatch).markFinished out.failed
  match out.handed with
  | some handed => completeSlot s handed
  | none => s

/-- The connection leaves `drive`: `Live` is dropped. -/
def leave (cfg : KvConfig W C) (s : KvState W C) (c : C) : KvState W C :=
  let d := s.dispatch (cfg.worker c)
  (s.setDispatch (cfg.worker c) { d with live := d.live - 1 }).setPc c .connecting

def handBack (cfg : KvConfig W C) (s : KvState W C) (c : C) (job : KvJob) (why : HandBack) :
    KvState W C :=
  match (s.dispatch (cfg.worker c)).giveBack job why with
  | some d => leave cfg (s.setDispatch (cfg.worker c) d) c
  | none => leave cfg (s.markFinished [job]) c

def kvStep (cfg : KvConfig W C) (s : KvState W C) : KvStep W C → Option (KvState W C)
  | .read =>
    match s.sending, cfg.requests.drop s.sent with
    | none, req :: _ =>
      if s.stopped then none else some { s with sending := some req, sent := s.sent + 1 }
    | _, _ => none
  | .send =>
    match s.sending with
    | some req =>
      if s.channel.length < readAhead then
        some { s.setChannel (s.channel ++ [req]) with sending := none }
      else none
    | none => none
  | .stopReader => if s.sending = none then some { s with stopped := true } else none
  | .dropSender => if s.stopped then some { s with disconnected := true } else none
  | .startAt instant => some { s with start := s.start <|> some instant }
  | .dispatch w nowHeld now =>
    match cfg.spawned w, s.start with
    | true, some start =>
      some (s.dispatched w (runDispatcher (cfg.scheduledAt start) s.disconnected s.channel
        (s.dispatch w) nowHeld now))
    -- before the clock starts it sleeps
    | true, none => some s
    | false, _ => none
  | .connectFailed c =>
    match (s.conn c).pc with
    | .connecting =>
      some (s.setDispatch (cfg.worker c) (s.dispatch (cfg.worker c)).noteConnectFailed)
    | _ => none
  | .connect c =>
    match (s.conn c).pc with
    | .connecting =>
      let d := s.dispatch (cfg.worker c)
      some ((s.setDispatch (cfg.worker c) { d with live := d.live + 1 }).setConn c ⟨.top, false⟩)
    | _ => none
  | .eof c =>
    match (s.conn c).pc with
    | .top =>
      let d := s.dispatch (cfg.worker c)
      let d := if (s.conn c).ranAny then d else d.noteConnectFailed
      some (leave cfg (s.setDispatch (cfg.worker c) d) c)
    | _ => none
  | .ask c =>
    match (s.conn c).pc with
    | .top =>
      let d := s.dispatch (cfg.worker c)
      -- without a dispatcher the connection sleeps and comes round again
      if d.closed then some s
      else
        some ((s.setDispatch (cfg.worker c) { d with waiting := d.waiting ++ [c] }).setPc c
          (.waiting .new))
    | _ => none
  | .take c alive =>
    match (s.conn c).pc with
    | .waiting ⟨job, true⟩ =>
      match job with
      | none => some (s.setPc c .top)
      | some job =>
        if alive then some (s.setConn c ⟨.running job, true⟩)
        else some (handBack cfg s c job .unsent)
    | _ => none
  | .done c result =>
    match (s.conn c).pc with
    | .running job =>
      match result with
      | .error .closed => some (handBack cfg s c job .lookupSent)
      | .error .disconnect => some (leave cfg (s.markFinished [job]) c)
      | .error .request | .ok () => some ((s.markFinished [job]).setPc c .top)
    | _ => none

end KvReplay
