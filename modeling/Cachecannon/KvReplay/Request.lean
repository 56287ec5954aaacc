import Cachecannon.KvReplay.Model
import Cachecannon.Lib.Pipeline
import Cachecannon.Lib.Prefix
import Cachecannon.Worker.InFlight

/-!
# One trace request (`src/kvreplay.rs`, `run_request`)

An EXISTS of every object in one pipeline, then a GET of every object of the prefix the lookup
hit, then a SET of every object the write rule stores. The GET loop and the SET loop are one
(`opLoop`): fill the pipeline, flush, receive a reply.

An operation names its object by `user_data`, the index. `tried` is a ghost: the GETs and SETs
given to the client. A function is `none` where `fired - discarded` would underflow.
-/

namespace KvReplay

open Pipeline

/-! ## The request -/

/-- An object of `kvtrace`. -/
structure Object where
  objId : Nat
  chunkIndex : Nat
  deriving Repr, DecidableEq

/-- `kvtrace::ObjectMapper`, with `sharding().ranks`. -/
structure ObjectMapper where
  objects : List Nat → List Object
  ranks : Nat

inductive WriteRule
  | setFromMiss
  | insertIfAbsent
  deriving Repr, DecidableEq

structure RunConfig where
  mapper : ObjectMapper
  chunkTokens : Nat
  writeRule : WriteRule
  pipelineDepth : Nat

/-- What `run_request` reads of a request. -/
structure Prompt where
  inputTokens : Nat
  chunks : List Nat
  deriving Repr, DecidableEq

structure Outcome where
  lookupHit : Nat
  hit : Nat
  cachedTokens : Nat
  newTokens : Nat
  fullHit : Bool
  gets : Nat
  getNil : Nat
  sets : Nat
  deriving Repr, DecidableEq

def Outcome.default : Outcome := ⟨0, 0, 0, 0, false, 0, 0, 0⟩

def lookupPrefix (exist : List Bool) (ranks : Nat) : Nat :=
  ((Prefix.chunks (max ranks 1) exist).takeWhile fun chunk => chunk.all id).length

/-- `saturating_mul`, at `u64`. -/
def saturatingMul (a b : Nat) : Nat := min (a * b) (2 ^ 64 - 1)

def cachedTokens (hitChunks chunkTokens inputTokens : Nat) : Nat :=
  let hit := saturatingMul hitChunks chunkTokens
  if inputTokens ≤ hit then inputTokens - 1 else hit

/-! ## The connection -/

inductive Op
  | get (userData : Nat)
  | set (userData : Nat)
  deriving Repr, DecidableEq

def Op.userData : Op → Nat
  | .get i | .set i => i

/-- What `map_respmeta` gives of a reply: `hit` is of a GET that succeeds. -/
structure OpReply where
  success : Bool
  hit : Option Bool
  deriving Repr, DecidableEq

/-- The client of a connection, its `InFlight`, and its part of `REQUESTS_SENT` and
`REQUESTS_SEND_FAILED`. -/
structure Sending where
  client : Client Op
  inflight : Worker.InFlight
  requestsSent : Nat
  sendFailed : Nat
  tried : List Op

/-- A fresh connection. -/
def Sending.new : Sending := ⟨.new, .new, 0, 0, []⟩

/-- What a part of `run_request` returns, and what it leaves. -/
abbrev Ran (α : Type) := Option (Except Failure α × Sending)

/-- The `?` operator. -/
def Ran.andThen {α β : Type} (ran : Ran α) (next : α → Sending → Ran β) : Ran β :=
  match ran with
  | some (.ok a, s) => next a s
  | some (.error e, s) => some (.error e, s)
  | none => none

namespace Sending

/-- `note_discarded`, the client having had `before` requests pending. -/
def noteDiscarded (s : Sending) (before : Nat) : Nat × Sending :=
  let discarded := before - s.client.pendingCount
  (discarded,
    { s with
      inflight := s.inflight.forgetNewest discarded
      sendFailed := s.sendFailed + discarded })

def noteFailedFire (s : Sending) (before : Nat) : Nat × Sending :=
  { s with sendFailed := s.sendFailed + 1 }.noteDiscarded before

def sendOne (s : Sending) (op : Op) (firedAt : Nat) (flushes : Bool) : Sending :=
  { s with
    client := s.client.fire op flushes
    inflight := s.inflight.push firedAt
    tried := s.tried ++ [op] }

/-- A fire that fails, after `fired` of the iteration that did not: all of these are counted. -/
def failOne (s : Sending) (op : Op) (fired : Nat) : Sending :=
  let before := s.client.pendingCount
  let s := { s with client := s.client.discard, tried := s.tried ++ [op] }
  let s := (s.noteFailedFire before).2
  { s with requestsSent := s.requestsSent + fired }

/-- `flush`: here those discarded are not counted. -/
def flush (s : Sending) (fired : Nat) (succeeds : Bool) : Ran Unit :=
  if succeeds then
    some (.ok (), { s with client := s.client.flush, requestsSent := s.requestsSent + fired })
  else
    let before := s.client.pendingCount
    let s := { s with client := s.client.discard }
    let (discarded, s) := s.noteDiscarded before
    if discarded ≤ fired then
      some (.error .disconnect, { s with requestsSent := s.requestsSent + (fired - discarded) })
    else none

/-- A reply: it is the oldest request's. -/
def received (s : Sending) : Sending :=
  { s with client := s.client.reply, inflight := s.inflight.pop.2 }

end Sending

/-! ## The loops -/

/-- An iteration of a loop: when it starts, how each fire goes, whether the flush succeeds, and
the reply, if one comes before the deadline and on a connection that works. -/
structure Iteration where
  firedAt : Nat
  fires : Nat → Worker.Fire
  flush : Bool
  recv : Option OpReply

/-- The inner loop, having fired `fired` requests: what is left to fire, or a fire failed. -/
def fireLoop (pipelineDepth : Nat) (it : Iteration) :
    List Op → Nat → Sending → Except Sending (List Op × Nat × Sending)
  | [], fired, s => .ok ([], fired, s)
  | op :: next, fired, s =>
    if s.client.pendingCount < pipelineDepth then
      match it.fires fired with
      | .sent flushes =>
        fireLoop pipelineDepth it next (fired + 1) (s.sendOne op it.firedAt flushes)
      | .failed => .error (s.failOne op fired)
    else .ok (op :: next, fired, s)

/-- The receive: a reply, and the operation it answers. -/
def recvReply (it : Iteration) (s : Sending) : Ran (Op × OpReply) :=
  match s.client.wire, it.recv with
  | op :: _, some reply => some (.ok (op, reply), s.received)
  | _, _ => some (.error .disconnect, s)

/-- An iteration. -/
def turn (pipelineDepth : Nat) (it : Iteration) (next : List Op) (s : Sending) :
    Ran (List Op × Op × OpReply) :=
  match fireLoop pipelineDepth it next 0 s with
  | .error s => some (.error .disconnect, s)
  | .ok (next, fired, s) =>
    (s.flush fired it.flush).andThen fun _ s =>
      (recvReply it s).andThen fun answered s => some (.ok (next, answered), s)

/-- **`while done < total`**, with `left` operations to be done and `next` of them to be fired.
`onReply` is what the loop does with a reply. -/
def opLoop {α : Type} (pipelineDepth : Nat) (onReply : Op → OpReply → α → α) :
    Nat → (Nat → Iteration) → List Op → Sending → α → Ran α
  | 0, _, _, s, acc => some (.ok acc, s)
  | left + 1, its, next, s, acc =>
    (turn pipelineDepth (its 0) next s).andThen fun turned s =>
      opLoop pipelineDepth onReply left (fun t => its (t + 1)) turned.1 s
        (onReply turned.2.1 turned.2.2 acc)

/-! ## Lookup -/

inductive ExistsReply
  | integer (c : Int)
  | other
  deriving Repr, DecidableEq

def ExistsReply.exist : ExistsReply → Option Bool
  | .integer c => some (decide (0 < c))
  | .other => none

/-- How `execute` ends: the deadline cuts it off, an error of the client, or a reply to each
EXISTS. -/
inductive LookupReply
  | cutOff
  | notConnected
  | io
  | redis
  | connectionClosed
  | failed
  | values (replies : Nat → ExistsReply)

/-- What the lookup says of each of `n` objects. -/
def LookupReply.exist (n : Nat) : LookupReply → Option (List Bool)
  | .values replies => (List.range n).mapM fun i => (replies i).exist
  | _ => none

def noteLookup (s : Sending) (n : Nat) : Sending := { s with requestsSent := s.requestsSent + n }

/-- **1. Lookup** of `n` objects. -/
def lookup (n firedAt : Nat) (reply : LookupReply) (s : Sending) :
    Except Failure (List Bool) × Sending :=
  let pushed := { s with inflight := (fun v => v.push firedAt)^[n] s.inflight }
  let s := { pushed with inflight := pushed.inflight.forgetNewest n }
  match reply with
  | .cutOff => (.error .disconnect, pushed)
  -- nothing was sent
  | .notConnected => (.error .closed, s)
  | .io => (.error .request, { s with sendFailed := s.sendFailed + n })
  | .redis => (.error .request, noteLookup s n)
  | .connectionClosed => (.error .closed, s)
  | .failed => (.error .disconnect, s)
  | .values _ =>
    match reply.exist n with
    | some exist => (.ok exist, noteLookup s n)
    | none => (.error .request, noteLookup s n)

/-! ## Load and store -/

def chunkOf (objects : List Object) (i : Nat) : Nat := (objects.map Object.chunkIndex).getD i 0

/-- A nil or an error. -/
def OpReply.bad (reply : OpReply) : Bool := !reply.success || reply.hit == some false

def onGet (objects : List Object) (op : Op) (reply : OpReply) (o : Outcome) : Outcome :=
  if reply.bad then
    { o with
      getNil := if reply.success then o.getNil + 1 else o.getNil
      hit := min o.hit (chunkOf objects op.userData) }
  else o

/-- **2. Load**: GET every object of the hit prefix. -/
def load (cfg : RunConfig) (objects : List Object) (its : Nat → Iteration) (o : Outcome)
    (s : Sending) : Ran Outcome :=
  let gets := o.lookupHit * cfg.mapper.ranks
  if 0 < gets then
    (opLoop cfg.pipelineDepth (onGet objects) gets its ((List.range gets).map .get) s o).andThen
      fun o s => some (.ok { o with gets }, s)
  else some (.ok o, s)

/-- Which of `n` objects to store, the hit prefix having `hit` of them. -/
def WriteRule.sets (hit n : Nat) (exist : List Bool) : WriteRule → List Nat
  | .setFromMiss => List.range' hit (n - hit)
  | .insertIfAbsent => (exist.zipIdx.filter fun e => !e.1).map (·.2)

/-- **3. Store.** -/
def store (cfg : RunConfig) (n : Nat) (exist : List Bool) (its : Nat → Iteration) (o : Outcome)
    (s : Sending) : Ran Outcome :=
  let sets := cfg.writeRule.sets (o.lookupHit * cfg.mapper.ranks) n exist
  if 0 < sets.length then
    (opLoop cfg.pipelineDepth (fun _ _ o => o) sets.length its (sets.map .set) s o).andThen
      fun o s => some (.ok { o with sets := sets.length }, s)
  else some (.ok o, s)

/-- The outcome between the lookup, which hit `hit` chunks, and the load. -/
def lookedUp (inputTokens hit : Nat) : Outcome :=
  { Outcome.default with newTokens := inputTokens, lookupHit := hit, hit }

def finish (cfg : RunConfig) (inputTokens : Nat) (o : Outcome) : Outcome :=
  let cached := cachedTokens o.hit cfg.chunkTokens inputTokens
  { o with
    cachedTokens := cached
    newTokens := inputTokens - cached
    fullHit := 0 < inputTokens && decide (inputTokens ≤ saturatingMul o.hit cfg.chunkTokens) }

/-- What the connection does during a request. -/
structure Exchange where
  firedAt : Nat
  lookup : LookupReply
  loads : Nat → Iteration
  stores : Nat → Iteration

/-- **`run_request`.** -/
def runRequest (cfg : RunConfig) (req : Prompt) (ex : Exchange) (s : Sending) : Ran Outcome :=
  if req.chunks = [] then some (.ok { Outcome.default with newTokens := req.inputTokens }, s)
  else
    let objects := cfg.mapper.objects req.chunks
    Ran.andThen (some (lookup objects.length ex.firedAt ex.lookup s)) fun exist s =>
      let o := lookedUp req.inputTokens (lookupPrefix exist cfg.mapper.ranks)
      (load cfg objects ex.loads o s).andThen fun o s =>
        (store cfg objects.length exist ex.stores o s).andThen fun o s =>
          some (.ok (finish cfg req.inputTokens o), s)

end KvReplay
