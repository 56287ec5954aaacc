import Cachecannon.Worker.Route

/-!
# From a reply to a result (`src/worker.rs`, `map_resp_op` and `map_respmeta`)

A RESP client hands back either the op it completed, with the value of a `GET`
(`workload.read_values`), or the header of the reply alone. Both become a `RequestResult`. The
`user_data` of a request carries its key id in the low bits and what the request is for in the
three upper ones.
-/

namespace Worker

def backfillMarker : UInt64 := (1 : UInt64) <<< 63

def prefillMarker : UInt64 := (1 : UInt64) <<< 62

def appendMarker : UInt64 := (1 : UInt64) <<< 61

def userDataIdMask : UInt64 := ~~~(backfillMarker ||| prefillMarker ||| appendMarker)

/-! ## Replies -/

/-- `ringline_redis::Error`: what the server answered, or a failure of the client's own. -/
inductive RedisError
  | redis (msg : List Char)
  | other
  deriving Repr, DecidableEq

/-- `ringline_redis::CompletedOp`, the kinds a workload fires. -/
inductive CompletedOp
  | get (result : Except RedisError (Option (List UInt8))) (userData latencyNs : UInt64)
  | set (result : Except RedisError Unit) (userData latencyNs : UInt64)
  | del (result : Except RedisError UInt64) (userData latencyNs : UInt64)

/-- `ringline_redis::OpKind`. -/
inductive OpKind
  | get
  | set
  | del
  deriving Repr, DecidableEq

/-- `ringline_redis::RespMeta`. -/
structure RespMeta where
  kind : OpKind
  success : Bool
  valueLen : Option Nat
  error : Option (List Char)
  userData : UInt64
  latencyNs : UInt64
  deriving Repr, DecidableEq

/-! ## Results -/

inductive RequestType
  | get
  | set
  | ping
  | delete
  | other
  deriving Repr, DecidableEq

structure RequestResult where
  id : UInt64
  success : Bool
  isErrorResponse : Bool
  latencyNs : UInt64
  ttfbNs : Option UInt64
  requestType : RequestType
  hit : Option Bool
  keyId : Option Nat
  backfill : Bool
  prefill : Bool
  append : Bool
  redirect : Option Redirect
  deriving Repr, DecidableEq

/-- `ValueReader` (`src/read_values.rs`): the fold of the checksums of the values read. -/
structure ValueReader where
  digest : BitVec 32
  deriving Repr, DecidableEq

def ValueReader.read (crc32c : List UInt8 → BitVec 32) (reader : ValueReader)
    (value : List UInt8) : ValueReader :=
  ⟨reader.digest.rotateLeft 1 ^^^ crc32c value⟩

def mapRespOp (crc32c : List UInt8 → BitVec 32) (op : CompletedOp) (reader : ValueReader) :
    RequestResult × ValueReader :=
  let (requestType, success, hit, userData, latencyNs, error, reader) :
      RequestType × Bool × Option Bool × UInt64 × UInt64 × Option RedisError × ValueReader :=
    match op with
    | .get (.ok (some value)) userData latencyNs =>
      (.get, true, some true, userData, latencyNs, none, reader.read crc32c value)
    | .get (.ok none) userData latencyNs =>
      (.get, true, some false, userData, latencyNs, none, reader)
    | .get (.error e) userData latencyNs => (.get, false, none, userData, latencyNs, some e, reader)
    | .set (.ok _) userData latencyNs => (.set, true, none, userData, latencyNs, none, reader)
    | .set (.error e) userData latencyNs => (.set, false, none, userData, latencyNs, some e, reader)
    | .del (.ok _) userData latencyNs => (.delete, true, none, userData, latencyNs, none, reader)
    | .del (.error e) userData latencyNs =>
      (.delete, false, none, userData, latencyNs, some e, reader)
  let (backfill, prefill, append, keyId) : Bool × Bool × Bool × Option Nat :=
    match requestType with
    | .get => (false, false, false, some (userData &&& userDataIdMask).toNat)
    | .set =>
      let backfill := userData &&& backfillMarker != 0
      let prefill := userData &&& prefillMarker != 0
      let append := userData &&& appendMarker != 0
      let keyId :=
        if prefill || append then some (userData &&& userDataIdMask).toNat else none
      (backfill, prefill, append, keyId)
    | _ => (false, false, false, none)
  let redirect := match error with
    | some (.redis msg) => parseRespRedirect msg
    | _ => none
  ({ id := 0
     success := success
     isErrorResponse := !success
     latencyNs := latencyNs
     ttfbNs := none
     requestType := requestType
     hit := hit
     keyId := keyId
     backfill := backfill
     prefill := prefill
     append := append
     redirect := redirect }, reader)

def mapRespmeta (reply : RespMeta) : RequestResult :=
  let requestType : RequestType := match reply.kind with
    | .get => .get
    | .set => .set
    | .del => .delete
  let hit := match reply.kind with
    | .get => if reply.success then some reply.valueLen.isSome else none
    | _ => none
  let (backfill, prefill, append, keyId) : Bool × Bool × Bool × Option Nat :=
    match reply.kind with
    | .get => (false, false, false, some (reply.userData &&& userDataIdMask).toNat)
    | .set =>
      let backfill := reply.userData &&& backfillMarker != 0
      let prefill := reply.userData &&& prefillMarker != 0
      let append := reply.userData &&& appendMarker != 0
      let keyId :=
        if prefill || append then some (reply.userData &&& userDataIdMask).toNat else none
      (backfill, prefill, append, keyId)
    | .del => (false, false, false, none)
  let redirect := reply.error.bind parseRespRedirect
  { id := 0
    success := reply.success
    isErrorResponse := !reply.success
    latencyNs := reply.latencyNs
    ttfbNs := none
    requestType := requestType
    hit := hit
    keyId := keyId
    backfill := backfill
    prefill := prefill
    append := append
    redirect := redirect }

/-! ## Requests -/

/-- The requests of the fire loops: of the workload itself, of a missed key, of the prefill, of the
append stream. A `SET` and a `DEL` of the workload carry no key id. -/
inductive FiredOp
  | get
  | set
  | del
  | backfill
  | prefill
  | append
  deriving Repr, DecidableEq

def FiredOp.kind : FiredOp → OpKind
  | .get => .get
  | .del => .del
  | .set | .backfill | .prefill | .append => .set

/-- The `user_data` of a request for `keyId`. -/
def FiredOp.userData (keyId : Nat) : FiredOp → UInt64
  | .get => UInt64.ofNat keyId
  | .set | .del => 0
  | .backfill => UInt64.ofNat keyId ||| backfillMarker
  | .prefill => UInt64.ofNat keyId ||| prefillMarker
  | .append => UInt64.ofNat keyId ||| appendMarker

end Worker
