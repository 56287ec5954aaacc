import Cachecannon.Lib.Exec
import Cachecannon.Lib.Text
import Cachecannon.Worker.Address
import Mathlib.Algebra.BigOperators.Group.Finset.Basic
import Mathlib.Algebra.Field.Rat
import Mathlib.Data.List.Destutter
import Mathlib.Data.List.Sort

/-!
# The query phase of a search run (`src/search/phases.rs`)

One client runs the queries in order; several take the indices `0..total` from a shared counter,
each with one request in flight. A query's recall is the share of its `k` true neighbors among the
ids in the reply. Recalls are rational numbers here.

The counter does not wrap: `total` queries run before it comes near.
-/

namespace Search

/-- An element of a reply's array: a string of either kind, or anything else. -/
inductive Item
  | bulkString (bytes : List UInt8)
  | simpleString (bytes : List UInt8)
  | other
  deriving Repr, DecidableEq

inductive Reply
  | array (items : List Item)
  | error (bytes : List UInt8)
  | other
  deriving Repr, DecidableEq

inductive QueryError
  /-- Connecting or the command itself failed. -/
  | client (message : String)
  | server (bytes : List UInt8)
  | unexpectedReply
  | unexpectedElement
  /-- The key is not `doc:<integer>`. -/
  | notKey (bytes : List UInt8)
  deriving Repr, DecidableEq

/-! ## One query -/

/-- `i64::from_str`. -/
def parseI64 (s : List Char) : Option Int :=
  let (negative, digits) := match s with
    | '-' :: rest => (true, rest)
    | '+' :: rest => (false, rest)
    | _ => (false, s)
  if digits.isEmpty then none
  else do
    let ds ← digits.mapM (Worker.toDigit 10)
    let value : Int := if negative then -Worker.ofDigits 10 ds else Worker.ofDigits 10 ds
    if -2 ^ 63 ≤ value ∧ value < 2 ^ 63 then some value else none

/-- `KEY_PREFIX`. -/
def keyPrefix : List Char := ['d', 'o', 'c', ':']

/-- `String::from_utf8_lossy` of bytes that are not UTF-8 holds a replacement character, which no
key has. -/
def parseKey (bytes : List UInt8) : Except QueryError Int :=
  let id := do
    let key ← Text.decode bytes
    let rest ← key.dropPrefix? keyPrefix
    parseI64 rest
  match id with
  | some id => .ok id
  | none => .error (.notKey bytes)

def parseItem : Item → Except QueryError Int
  | .bulkString bytes | .simpleString bytes => parseKey bytes
  | .other => .error .unexpectedElement

/-- The ids, without the count the array begins with. -/
def parseKnnReply : Reply → Except QueryError (List Int)
  | .array items => (items.drop 1).mapM parseItem
  | .error bytes => .error (.server bytes)
  | .other => .error .unexpectedReply

/-- `sort_unstable` and `dedup`, and the ids found among the first `k` of `truth`. -/
def hits (k : Nat) (truth ids : List Int) : Nat :=
  let ids := (ids.insertionSort (· ≤ ·)).destutter (· ≠ ·)
  (ids.filter fun id => (truth.take k).any fun t => t = id).length

structure Job where
  k : Nat
  /-- The rows of `test`. -/
  rows : Nat
  neighbors : Nat → List Int
  queryLoops : Nat
  queryClients : Nat

def Job.total (job : Job) : Nat := job.rows * max job.queryLoops 1

def Job.clients (job : Job) : Nat := max job.queryClients 1

/-- The recall of query `qi` with this reply. -/
def queryRecall (job : Job) (qi : Nat) (reply : Reply) : Except QueryError ℚ := do
  let returnedIds ← parseKnnReply reply
  return (hits job.k (job.neighbors qi) returnedIds : ℚ) / job.k

/-- What came back for a query: its latency, and the reply or a failed command. -/
abbrev Answer := Nat × Except String Reply

def runOneQuery (job : Job) (qi : Nat) (answer : Answer) : Except QueryError (Nat × ℚ) :=
  match answer.2 with
  | .error message => .error (.client message)
  | .ok reply => do return (answer.1, ← queryRecall job qi reply)

structure QueryStats where
  queries : Nat
  latencies : List Nat
  meanRecall : ℚ
  deriving Repr, DecidableEq

def Job.stats (job : Job) (latencies : List Nat) (recallSum : ℚ) : QueryStats where
  queries := job.total
  latencies := latencies
  meanRecall := recallSum / job.total

/-! ## One client -/

/-- The loop over `indices`; `answer idx` is what comes back for index `idx`. -/
def queryLoop (job : Job) (answer : Nat → Answer) (indices : List Nat) :
    Except QueryError (List Nat × ℚ) :=
  indices.foldlM (fun acc idx => do
    let (latency, share) ← runOneQuery job (idx % job.rows) (answer idx)
    return (acc.1 ++ [latency], acc.2 + share)) ([], 0)

def singleClient (job : Job) (answer : Nat → Answer) : Except QueryError QueryStats := do
  let (latencies, recallSum) ← queryLoop job answer (List.range job.total)
  return job.stats latencies recallSum

/-! ## Several clients -/

/-- Where a query task is: connecting, about to take an index, waiting for the reply to one, at
the end of its loop, or returned with an error. -/
inductive ClientPc
  | connecting
  | dealing
  | waiting (idx : Nat)
  | finished
  | failed (error : QueryError)
  deriving Repr, DecidableEq

structure QueryClient where
  pc : ClientPc
  latencies : List Nat
  recallSum : ℚ
  deriving Repr, DecidableEq

structure QueryPhase (job : Job) where
  dealer : Nat
  client : Fin job.clients → QueryClient
  /-- The indices `run_one_query` was called with. -/
  calls : List Nat

def QueryPhase.init (job : Job) : QueryPhase job where
  dealer := 0
  client := fun _ => ⟨.connecting, [], 0⟩
  calls := []

inductive QueryStep (job : Job)
  | connect (c : Fin job.clients) (result : Except String Unit)
  /-- `fetch_add`, and the query of the index if there is one. -/
  | deal (c : Fin job.clients)
  | reply (c : Fin job.clients) (answer : Answer)

def QueryPhase.setClient {job : Job} (s : QueryPhase job) (c : Fin job.clients)
    (client : QueryClient) : QueryPhase job :=
  { s with client := Function.update s.client c client }

def queryStep (job : Job) (s : QueryPhase job) : QueryStep job → Option (QueryPhase job)
  | .connect c result =>
    if (s.client c).pc = .connecting then
      match result with
      | .ok () => some (s.setClient c { s.client c with pc := .dealing })
      | .error message => some (s.setClient c { s.client c with pc := .failed (.client message) })
    else none
  | .deal c =>
    if (s.client c).pc = .dealing then
      if job.total ≤ s.dealer then
        some { s.setClient c { s.client c with pc := .finished } with dealer := s.dealer + 1 }
      else
        some { s.setClient c { s.client c with pc := .waiting s.dealer } with
          dealer := s.dealer + 1
          calls := s.calls ++ [s.dealer] }
    else none
  | .reply c answer =>
    match (s.client c).pc with
    | .waiting idx =>
      match runOneQuery job (idx % job.rows) answer with
      | .error e => some (s.setClient c { s.client c with pc := .failed e })
      | .ok (latency, share) =>
        some (s.setClient c
          { pc := .dealing
            latencies := (s.client c).latencies ++ [latency]
            recallSum := (s.client c).recallSum + share })
    | _ => none

/-- The task's result, once it has one. -/
def QueryClient.outcome (c : QueryClient) : Option (Except QueryError (List Nat × ℚ)) :=
  match c.pc with
  | .finished => some (.ok (c.latencies, c.recallSum))
  | .failed e => some (.error e)
  | _ => none

/-- The handles are awaited in order, up to the first error. -/
def awaitHandles (acc : List Nat × ℚ) :
    List QueryClient → Option (Except QueryError (List Nat × ℚ))
  | [] => some (.ok acc)
  | c :: rest =>
    match c.outcome with
    | none => none
    | some (.error e) => some (.error e)
    | some (.ok (latencies, share)) => awaitHandles (acc.1 ++ latencies, acc.2 + share) rest

def QueryPhase.pooled {job : Job} (s : QueryPhase job) :
    Option (Except QueryError (List Nat × ℚ)) :=
  awaitHandles ([], 0) ((List.finRange job.clients).map s.client)

def QueryPhase.result {job : Job} (s : QueryPhase job) : Option (Except QueryError QueryStats) :=
  s.pooled.map fun pooled => do
    let (latencies, recallSum) ← pooled
    return job.stats latencies recallSum

end Search
