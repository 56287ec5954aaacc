import Cachecannon.Lib.Codec
import Cachecannon.TraceReplay.Model

/-!
# The batches of a connection (`src/tracereplay.rs`, the fire loop of `run`)

What a connection buffers and hands to a flush, whatever requests it is given and whoever else
works on the trace. The client may flush a part of its buffer on its own at any time, and a fire
that fails may have failed in such a flush. `handed` is a ghost: the batches given to a flush, by
the loop or by the client, sent or refused.
-/

namespace TraceReplay

open Pipeline

structure BatchState where
  conn : TraceConn
  handed : List (List Sent)

/-- `preFlush` and `fire` are how the flush before a request and its fire end, `flush` is the
flush at the end of an iteration, and `clientFlush n` one of the client's own, of the `n` oldest
requests buffered. -/
inductive BatchStep
  | fire (next : Sent) (preFlush fire : SendResult)
  | flush (result : SendResult)
  | clientFlush (n : Nat)
  | reply
  deriving Repr, DecidableEq

def BatchState.new : BatchState := ⟨.new, []⟩

/-- A connection alone, without the queues it takes rows from. -/
def TraceConn.view (conn : TraceConn) : View := ⟨[], [], [], conn, []⟩

/-- The command that a fire adds to the buffer, in the Redis protocol. -/
def Sent.command (next : Sent) (key value : List UInt8) : List (List UInt8) :=
  match next.op with
  | .get => [Text.encode "GET".toList, key]
  | .set => [Text.encode "SET".toList, key, value]
  | .del => [Text.encode "DEL".toList, key]

/-- The bytes of it that are copied: all but a zero-copy value. -/
def Sent.wireCopied (next : Sent) (key value : List UInt8) : Nat :=
  (Codec.command.encode (next.command key value)).length -
    if next.guarded then value.length else 0

/-- The batches that sending `next` hands to a flush. -/
def handedNext (keyLen : Nat → Nat) (conn : TraceConn) (next : Sent) (preFlush fire : SendResult) :
    List (List Sent) :=
  let buffered := conn.client.buffered
  let handedFire (buffered : List Sent) : List (List Sent) :=
    match fire with
    | .sent false => []
    | .sent true | .failed _ => [buffered ++ [next]]
  if mustFlushFirst conn.batchCopied conn.batchGuard (next.copied keyLen) next.guarded
      sendSlotSize then
    match preFlush with
    | .sent _ => buffered :: handedFire []
    | .failed _ => [buffered]
  else handedFire buffered

def batchStep (keyLen : Nat → Nat) (s : BatchState) : BatchStep → Option BatchState
  | .fire next preFlush fire =>
    some { conn := (sendNext keyLen s.conn.view next preFlush fire).conn
           handed := s.handed ++ handedNext keyLen s.conn next preFlush fire }
  | .flush result =>
    some { conn := (flushTurn s.conn.view result).conn
           handed := s.handed ++ [s.conn.client.buffered] }
  | .clientFlush n =>
    let client := s.conn.client
    some { conn := { s.conn with client :=
            ⟨client.wire ++ client.buffered.take n, client.buffered.drop n⟩ }
           handed := s.handed ++ [client.buffered.take n] }
  | .reply => some { s with conn := { s.conn with client := s.conn.client.reply } }

end TraceReplay
