import Cachecannon.Lib.Exec
import Cachecannon.Lib.Pipeline
import Mathlib.Logic.Function.Basic

/-!
# Trace replay (`src/tracereplay.rs`)

A reader thread sends the rows of a trace, in batches, into a bounded channel. Each worker claims
batches into a queue of its own (`CLAIMED`), and the worker's connections send rows off its front.
A row that could not be sent goes back to the front, the rows in flight on a connection that
fails are counted failed, and the rows its worker claimed go to a queue shared by all workers
(`returned`).

A connection's step is one turn of its fire loop (`next_row` to the send), its flush, a reply, or
the end of `drive`. All that a step touches is the worker's own, but for one take from `returned`
or the channel, or one put into `returned`, and the count of done rows, so a step is atomic. The
reader counts a batch and then sends it, in two steps.

`Row.index` is a ghost, the position of a row among those the reader sends; so are `answered` and
`failed`, the indices of the rows answered and of those counted failed.
-/

namespace TraceReplay

open Pipeline

def claimBatch : Nat := 64

def maxSendAttempts : Nat := 3

def readAheadBatches : Nat := 256

def backfillQueueCap : Nat := 1024

def zcValueThreshold : Nat := 4096

def sendSlotSize : Nat := 16448

def requestFraming : Nat := 64

def valuePoolSize : Nat := 1024 * 1024 * 1024

/-- Which unsent rows a send failure counts against `maxSendAttempts`. -/
inductive Charge
  | nothing
  | failed
  | all
  deriving Repr, DecidableEq

inductive RowOp
  | get
  | set
  | del
  deriving Repr, DecidableEq

structure Row where
  objId : Nat
  size : Nat
  op : RowOp
  failedSends : Nat
  index : Nat
  deriving Repr, DecidableEq

inductive Sent
  | row (row : Row)
  | backfill (objId size : Nat)
  deriving Repr, DecidableEq

/-! ## Sending again -/

/-- What `requeue` leaves: the requests still in flight, the rows put back and those given up. -/
structure Requeued where
  sent : List Sent
  unclaimed : List Row
  givenUp : List Row

def chargeRow (charge : Charge) (nDiscarded : Nat) (s : Sent × Nat) : Option Row :=
  match s.1 with
  | .row row =>
    let charged := match charge with
      | .nothing => false
      | .failed => decide (nDiscarded ≤ s.2)
      | .all => true
    some (if charged then { row with failedSends := row.failedSends + 1 } else row)
  | .backfill _ _ => none

/-- After a failed send: the `discarded` newest requests never left, and neither did `failed`. -/
def requeue (sent : List Sent) (discarded : Nat) (failed : Option Sent) (charge : Charge) :
    Requeued :=
  let keep := sent.length - discarded
  let nDiscarded := sent.length - keep
  let rows := (sent.drop keep ++ failed.toList).zipIdx.filterMap (chargeRow charge nDiscarded)
  { sent := sent.take keep
    unclaimed := rows.filter (·.failedSends < maxSendAttempts)
    givenUp := rows.filter fun row => !decide (row.failedSends < maxSendAttempts) }

/-- `requeue` after a failed flush made before `next` was fired: `next` goes back uncharged, after
the rows the flush discarded. -/
def requeueWithNext (sent : List Sent) (discarded : Nat) (next : Sent) (charge : Charge) :
    Requeued :=
  let out := requeue sent discarded none charge
  match next with
  | .row row => { out with unclaimed := out.unclaimed ++ [row] }
  | .backfill _ _ => out

/-- Whether the batch buffered so far must be flushed before the next request is added. -/
def mustFlushFirst (copied : Nat) (hasGuard : Bool) (nextCopied : Nat) (nextGuarded : Bool)
    (slot : Nat) : Bool :=
  decide (0 < copied) && (hasGuard || nextGuarded) && decide (slot < copied + nextCopied)

/-! ## State -/

/-- A connection. `running` is set while it is inside `run`. -/
structure TraceConn where
  running : Bool
  sent : List Sent
  client : Client Sent
  backfill : List (Nat × Nat)
  batchCopied : Nat
  batchGuard : Bool

def TraceConn.new : TraceConn := ⟨false, [], .new, [], 0, false⟩

/-- `rows` are the rows of the trace that are not skipped, in file order; `keyLen` is the length of
an object's key. -/
structure TraceConfig (W C : Type) where
  worker : C → W
  pipelineDepth : Nat
  backfillOnMiss : Bool
  keyLen : Nat → Nat
  rows : List Row
  rows_index : rows.map Row.index = List.range rows.length

/-- `readerSent` is `reader.sent`, and `sending` the batch the reader counted and is sending. -/
structure TraceState (W C : Type) where
  readerSent : Nat
  sending : List Row
  stopped : Bool
  channel : List (List Row)
  claimed : W → List Row
  returned : List Row
  conn : C → TraceConn
  done : Nat
  answered : List Nat
  failed : List Nat

variable {W C : Type} [DecidableEq W] [DecidableEq C]

def TraceState.init : TraceState W C where
  readerSent := 0
  sending := []
  stopped := false
  channel := []
  claimed _ := []
  returned := []
  conn _ := .new
  done := 0
  answered := []
  failed := []

/-- `is_finished`: the reader has stopped and as many rows are done as it sent. -/
def TraceState.isFinished (s : TraceState W C) : Bool :=
  s.stopped && decide (s.readerSent ≤ s.done)

/-! ## A connection's steps -/

/-- What a step of a connection works on: its worker's claimed rows, the shared queues and the
connection, and the rows it gives up. -/
structure View where
  claimed : List Row
  returned : List Row
  channel : List (List Row)
  conn : TraceConn
  givenUp : List Row

/-- `next_row`: from this worker's claimed rows, else a batch of returned rows, else a batch of
the reader's. -/
def nextRow (v : View) : Option Row × View :=
  match v.claimed with
  | row :: claimed => (some row, { v with claimed })
  | [] =>
    match v.returned with
    | [] =>
      match v.channel with
      | [] => (none, v)
      | batch :: channel => (batch.head?, { v with claimed := batch.tail, channel })
    | _ :: _ =>
      let claimed := v.returned.take claimBatch
      (claimed.head?, { v with claimed := claimed.tail, returned := v.returned.drop claimBatch })

/-- How a fire or flush ends: sent (a fire may flush the batch), or failed, outright or for
now. -/
inductive SendResult
  | sent (flushes : Bool)
  | failed (never : Bool)
  deriving Repr, DecidableEq

def View.requeued (v : View) (out : Requeued) : View :=
  { v with claimed := out.unclaimed ++ v.claimed, givenUp := v.givenUp ++ out.givenUp
           conn := { v.conn with sent := out.sent, client := v.conn.client.discard } }

/-- What a failed call discarded, by the client's count. -/
def discarded (cl : Client Sent) : Nat := cl.pendingCount - cl.discard.pendingCount

def View.flushed (v : View) : View :=
  { v with conn := { v.conn with client := v.conn.client.flush, batchCopied := 0
                                 batchGuard := false } }

def View.resetBatch (v : View) : View :=
  { v with conn := { v.conn with batchCopied := 0, batchGuard := false } }

def Sent.op : Sent → RowOp
  | .row r => r.op
  | .backfill _ _ => .set

def Sent.objId : Sent → Nat
  | .row r => r.objId
  | .backfill objId _ => objId

def Sent.size : Sent → Nat
  | .row r => r.size
  | .backfill _ size => size

def Sent.guarded (next : Sent) : Bool := next.op = .set && decide (zcValueThreshold ≤ next.size)

def Sent.copied (keyLen : Nat → Nat) (next : Sent) : Nat :=
  keyLen next.objId + requestFraming + if next.op = .set && !next.guarded then next.size else 0

def fireNext (keyLen : Nat → Nat) (v : View) (next : Sent) : SendResult → View
  | .sent flushes =>
    let conn := v.conn
    { v with conn := { conn with
        sent := conn.sent ++ [next]
        client := conn.client.fire next flushes
        batchCopied := conn.batchCopied + next.copied keyLen
        batchGuard := conn.batchGuard || next.guarded } }
  | .failed never =>
    v.requeued (requeue v.conn.sent (discarded v.conn.client) (some next)
      (if never then .failed else .nothing))

/-- Send `next`, after a flush if the batch has no room for it. -/
def sendNext (keyLen : Nat → Nat) (v : View) (next : Sent) (preFlush fire : SendResult) : View :=
  if mustFlushFirst v.conn.batchCopied v.conn.batchGuard (next.copied keyLen) next.guarded
      sendSlotSize then
    match preFlush with
    | .sent _ => fireNext keyLen v.flushed next fire
    | .failed never =>
      (v.requeued (requeueWithNext v.conn.sent (discarded v.conn.client) next
        (if never then .all else .nothing))).resetBatch
  else fireNext keyLen v next fire

def fireTurn (keyLen : Nat → Nat) (v : View) (preFlush fire : SendResult) : View :=
  match v.conn.backfill with
  | (objId, size) :: rest =>
    sendNext keyLen { v with conn := { v.conn with backfill := rest } } (.backfill objId size)
      preFlush fire
  | [] =>
    match nextRow v with
    | (some row, v) => sendNext keyLen v (.row row) preFlush fire
    | (none, v) => v

def flushTurn (v : View) : SendResult → View
  | .sent _ => v.flushed
  | .failed never =>
    (v.requeued (requeue v.conn.sent (discarded v.conn.client) none
      (if never then .all else .nothing))).resetBatch

def sentRows (sent : List Sent) : List Row :=
  sent.filterMap fun s => match s with
    | .row row => some row
    | .backfill _ _ => none

/-! ## Steps -/

/-- The reader counts a batch of `n` rows (`read`), which the channel then takes (`deliver`), and
stops at the end of the trace or a read error. `reply` is to the oldest request, a miss or not;
`fail` is the end of `drive`. -/
inductive TraceStep (C : Type)
  | read (n : Nat)
  | deliver
  | stopReader
  | connect (c : C)
  | fireTurn (c : C) (preFlush fire : SendResult)
  | flush (c : C) (result : SendResult)
  | reply (c : C) (miss : Bool)
  | fail (c : C)

def TraceState.view (cfg : TraceConfig W C) (s : TraceState W C) (c : C) : View where
  claimed := s.claimed (cfg.worker c)
  returned := s.returned
  channel := s.channel
  conn := s.conn c
  givenUp := []

/-- `note_given_up`, and the rest of what a step left. -/
def TraceState.setView (cfg : TraceConfig W C) (s : TraceState W C) (c : C) (v : View) :
    TraceState W C :=
  { s with claimed := Function.update s.claimed (cfg.worker c) v.claimed
           returned := v.returned
           channel := v.channel
           conn := Function.update s.conn c v.conn
           done := s.done + v.givenUp.length
           failed := s.failed ++ v.givenUp.map Row.index }

/-- A reply to a row: it is done, and a GET that missed may be backfilled. -/
def replyRow (cfg : TraceConfig W C) (conn : TraceConn) (row : Row) (miss : Bool) : TraceConn :=
  if cfg.backfillOnMiss && row.op = .get && miss && conn.backfill.length < backfillQueueCap &&
      row.size ≤ valuePoolSize then
    { conn with backfill := conn.backfill ++ [(row.objId, row.size)] }
  else conn

def traceStep (cfg : TraceConfig W C) (s : TraceState W C) :
    TraceStep C → Option (TraceState W C)
  | .read n =>
    if s.stopped = false ∧ s.sending = [] ∧ 0 < n ∧ n ≤ claimBatch ∧
        s.readerSent + n ≤ cfg.rows.length then
      some { s with sending := (cfg.rows.drop s.readerSent).take n, readerSent := s.readerSent + n }
    else none
  | .deliver =>
    if s.sending ≠ [] ∧ s.channel.length < readAheadBatches then
      some { s with channel := s.channel ++ [s.sending], sending := [] }
    else none
  | .stopReader => if s.sending = [] then some { s with stopped := true } else none
  | .connect c =>
    if (s.conn c).running = false then
      some { s with conn := Function.update s.conn c { TraceConn.new with running := true } }
    else none
  | .fireTurn c preFlush fire =>
    if (s.conn c).running ∧ (s.conn c).client.pendingCount < cfg.pipelineDepth then
      some (s.setView cfg c (fireTurn cfg.keyLen (s.view cfg c) preFlush fire))
    else none
  | .flush c result =>
    if (s.conn c).running then some (s.setView cfg c (flushTurn (s.view cfg c) result)) else none
  | .reply c miss =>
    let conn := s.conn c
    match conn.running, conn.client.wire, conn.sent with
    | true, answered :: _, request :: sent =>
      let conn := { conn with client := conn.client.reply, sent }
      match request with
      | .row row =>
        some { s with conn := Function.update s.conn c (replyRow cfg conn row miss)
                      done := s.done + 1
                      answered := s.answered ++ (sentRows [answered]).map Row.index }
      | .backfill _ _ => some { s with conn := Function.update s.conn c conn }
    | _, _, _ => none
  | .fail c =>
    if (s.conn c).running then
      let rows := sentRows (s.conn c).sent
      some { s with
        conn := Function.update s.conn c .new
        done := s.done + rows.length
        failed := s.failed ++ rows.map Row.index
        returned := s.claimed (cfg.worker c) ++ s.returned
        claimed := Function.update s.claimed (cfg.worker c) [] }
    else none

end TraceReplay
