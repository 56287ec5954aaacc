import Cachecannon.Lib.Codec
import Cachecannon.Search.Query
import Mathlib.Data.List.AList

/-!
# Before the queries of a search run (`src/search/phases.rs`, `src/search/dataset.rs`)

The keys under the prefix are deleted, the rows of the dataset are loaded as hashes, in batches
that a send can carry, and the index is built. A run that reuses an index checks instead that it is
ready and that the number of keys is that of the rows.

The server is not under `src/`: it is whatever executes commands (`Server`), and
`Server.Documented` is what a run relies on. It may refuse any command, and a connection may break
with a part of a send done (`Link`). A wait for the scan or for the index has no bound, so the two
loops have fuel; a run that has used it up is still waiting.
-/

namespace Search

abbrev Key := List UInt8

def bytes (s : String) : List UInt8 := Text.encode s.toList

/-! ## The dataset -/

/-- The vectors to load: rows of 32-bit floats, here their bits. -/
structure Train where
  rows : List (List UInt32)
  ncols : Nat
  length_row : ∀ row ∈ rows, row.length = ncols

def f32LeBlob (row : List UInt32) : List UInt8 := row.flatMap Codec.word32.encode

/-- The arguments and the dataset. `atLeastOne` reads a float, and tells whether it is 1 or more. -/
structure LoadJob where
  train : Train
  metric : String
  loadBatch : Nat
  index : String
  m : Nat
  efConstruction : Nat
  atLeastOne : List UInt8 → Option Bool

/-! ## The server -/

inductive Stored
  | hash (fields : AList fun _ : List UInt8 => List UInt8)
  /-- A value of another type. -/
  | other

abbrev Keyspace := AList fun _ : Key => Stored

/-- An element of an array in a reply. `debug` is its `Debug` text. -/
inductive Element
  | bulkString (bytes : List UInt8)
  | simpleString (bytes : List UInt8)
  | integer (n : Int)
  | other (debug : List Char)
  deriving Repr, DecidableEq

inductive Value
  | bulkString (bytes : List UInt8)
  | simpleString (bytes : List UInt8)
  | integer (n : Int)
  | error (bytes : List UInt8)
  | array (items : List Element)
  | other
  deriving Repr, DecidableEq

/-- `SCRIPT` -/
def script : List UInt8 :=
  bytes ("local r = redis.call('SCAN', ARGV[1], 'MATCH', ARGV[2], 'COUNT', 1000) " ++
    "if #r[2] > 0 then redis.call('DEL', unpack(r[2])) end " ++
    "return r[1]")

/-- The server: what a command does to the keyspace, with its reply, and what a `SCAN` from a cursor
finds, with the next cursor. The number is that of the sends before. -/
structure Server where
  execute : Nat → Keyspace → List (List UInt8) → Keyspace × Value
  scan : Nat → List UInt8 → List UInt8 → Keyspace → List Key × List UInt8

def Server.executeAll (server : Server) (time : Nat) :
    Keyspace → List (List (List UInt8)) → Keyspace × List Value
  | ks, [] => (ks, [])
  | ks, command :: commands =>
    let (ks, value) := server.execute time ks command
    let (ks, values) := server.executeAll time ks commands
    (ks, value :: values)

/-- The commands in the bytes of a send. -/
def readCommands (bytes : List UInt8) : List (List (List UInt8)) :=
  (Codec.command.decodeAll bytes.length bytes).getD []

/-- How a send ends: with its replies, or with the connection broken after some of its commands
were done. -/
inductive Link
  | up
  | broken (message : String) (done : Nat)

/-- `sent` is a ghost, what was sent. -/
structure Session where
  keyspace : Keyspace
  sent : List (List UInt8)

def Server.roundTrip (server : Server) (link : Nat → Link)
    (requests : List (List (List UInt8))) (s : Session) : Session × Except String (List Value) :=
  let bytes := requests.flatMap Codec.command.encode
  let time := s.sent.length
  let sent := s.sent ++ [bytes]
  match link time with
  | .up =>
    let (keyspace, values) := server.executeAll time s.keyspace (readCommands bytes)
    (⟨keyspace, sent⟩, .ok values)
  | .broken message done =>
    let (keyspace, _) := server.executeAll time s.keyspace ((readCommands bytes).take done)
    (⟨keyspace, sent⟩, .error message)

/-! ## Cleanup -/

inductive LoadError
  | cleanup (message : String)
  | cleanupServer (bytes : List UInt8)
  | cleanupReply
  | rowTooLarge (ncols rowCost : Nat)
  | loadBatch (row : Nat) (message : String)
  | hset (bytes : List UInt8)
  | unsupportedMetric (metric : String)
  | create (message : String)
  | createServer (bytes : List UInt8)
  | info (message : String)
  | infoServer (bytes : List UInt8)
  | infoReply
  | notNumeric (text : List UInt8)
  | unsupportedServer
  | reuseServer (bytes : List UInt8)
  | reuseReply
  | notReady
  | dbSize (message : String)
  | dbSizeMismatch (n : Int) (rows : Nat)
  | dbSizeReply
  deriving Repr, DecidableEq

abbrev Outcome (α : Type) := Session × Except LoadError α

/-- How far a run is: it has an outcome, or is still waiting. -/
abbrev Progress := Session × Option (Except LoadError Unit)

def evalRequest (cursor pattern : List UInt8) : List (List UInt8) :=
  [bytes "EVAL", script, bytes "0", cursor, pattern]

def deletePrefix (server : Server) (link : Nat → Link) (keyPrefix : List UInt8) :
    Nat → List UInt8 → Session → Progress
  | 0, _, s => (s, none)
  | fuel + 1, cursor, s =>
    let pattern := keyPrefix ++ bytes "*"
    match server.roundTrip link [evalRequest cursor pattern] s with
    | (s, .error message) => (s, some (.error (.cleanup message)))
    | (s, .ok [.bulkString cursor]) | (s, .ok [.simpleString cursor]) =>
      if cursor = bytes "0" then (s, some (.ok ()))
      else deletePrefix server link keyPrefix fuel cursor s
    | (s, .ok [.error e]) => (s, some (.error (.cleanupServer e)))
    | (s, .ok _) => (s, some (.error .cleanupReply))

/-! ## Load -/

def loadBatchByteBudget : Nat := 256 * 1024

def hsetOverheadBytes : Nat := 64

def vectorField : List UInt8 := bytes "vec"

def prefixBytes : List UInt8 := Text.encode keyPrefix

def docKey (i : Nat) : Key := Text.encode (keyPrefix ++ Nat.toDigits 10 i)

def rowCost (train : Train) : Nat := 4 * train.ncols + prefixBytes.length + 20 + hsetOverheadBytes

/-- Rows per batch. -/
def LoadJob.batch (job : LoadJob) : Nat :=
  min (max job.loadBatch 1) (max (loadBatchByteBudget / rowCost job.train) 1)

def hsetRequest (train : Train) (i : Nat) : List (List UInt8) :=
  [bytes "HSET", docKey i, vectorField, f32LeBlob (train.rows.getD i [])]

def firstErrorReply (values : List Value) : Option (List UInt8) :=
  values.findSome? fun value =>
    match value with
    | .error e => some e
    | _ => none

/-- The loop from `row`; each turn sends a row at least. -/
def loadRows (server : Server) (link : Nat → Link) (job : LoadJob) :
    Nat → Nat → Session → Outcome Unit
  | 0, _, s => (s, .ok ())
  | fuel + 1, row, s =>
    if row < job.train.rows.length then
      let stop := min (row + job.batch) job.train.rows.length
      let requests := (List.range' row (stop - row)).map (hsetRequest job.train)
      match server.roundTrip link requests s with
      | (s, .error message) => (s, .error (.loadBatch row message))
      | (s, .ok replies) =>
        match firstErrorReply replies with
        | some e => (s, .error (.hset e))
        | none => loadRows server link job fuel stop s
    else (s, .ok ())

def loadPhase (server : Server) (link : Nat → Link) (job : LoadJob) (s : Session) :
    Outcome Unit :=
  let cost := rowCost job.train
  if loadBatchByteBudget < cost then (s, .error (.rowTooLarge job.train.ncols cost))
  else loadRows server link job job.train.rows.length 0 s

/-! ## The index -/

/-- The text of the first field of that name. A text that is not UTF-8 is not one the callers look
for, so it stays as it is. -/
def infoField (name : List UInt8) : List Element → Option (List UInt8)
  | fieldName :: value :: fields =>
    let found := match fieldName with
      | .bulkString b | .simpleString b => decide (b = name)
      | _ => false
    if found then
      match value with
      | .bulkString b | .simpleString b => some b
      | .integer i => some (bytes (toString i))
      | .other debug => some (Text.encode debug)
    else infoField name fields
  | _ => none

def indexReady (atLeastOne : List UInt8 → Option Bool) (fields : List Element) :
    Except LoadError Bool :=
  match infoField (bytes "state") fields, infoField (bytes "backfill_in_progress") fields,
      infoField (bytes "mutation_queue_size") fields with
  | some state, some backfill, some queue =>
    .ok (state = bytes "ready" && backfill = bytes "0" && queue = bytes "0")
  | _, _, _ =>
    match infoField (bytes "percent_indexed") fields with
    | none => .error .unsupportedServer
    | some pct =>
      match atLeastOne pct with
      | none => .error (.notNumeric pct)
      | some done =>
        let indexing := (infoField (bytes "indexing") fields).getD (bytes "0")
        .ok (done && indexing = bytes "0")

def infoRequest (job : LoadJob) : List (List UInt8) := [bytes "FT.INFO", bytes job.index]

def distanceMetricArg (metric : String) : Except LoadError (List UInt8) :=
  match metric with
  | "euclidean" => .ok (bytes "L2")
  | "angular" | "cosine" => .ok (bytes "COSINE")
  | other => .error (.unsupportedMetric other)

def createRequest (job : LoadJob) (metric : List UInt8) : List (List UInt8) :=
  [bytes "FT.CREATE", bytes job.index, bytes "ON", bytes "HASH", bytes "PREFIX", bytes "1",
    prefixBytes, bytes "SCHEMA", vectorField, bytes "VECTOR", bytes "HNSW", bytes "10",
    bytes "TYPE", bytes "FLOAT32", bytes "DIM", Codec.decimal job.train.ncols,
    bytes "DISTANCE_METRIC", metric, bytes "M", Codec.decimal job.m, bytes "EF_CONSTRUCTION",
    Codec.decimal job.efConstruction]

def pollInfo (server : Server) (link : Nat → Link) (job : LoadJob) : Nat → Session → Progress
  | 0, s => (s, none)
  | fuel + 1, s =>
    match server.roundTrip link [infoRequest job] s with
    | (s, .error message) => (s, some (.error (.info message)))
    | (s, .ok [.array fields]) =>
      match indexReady job.atLeastOne fields with
      | .error e => (s, some (.error e))
      | .ok true => (s, some (.ok ()))
      | .ok false => pollInfo server link job fuel s
    | (s, .ok [.error e]) => (s, some (.error (.infoServer e)))
    | (s, .ok _) => (s, some (.error .infoReply))

def indexPhase (server : Server) (link : Nat → Link) (job : LoadJob) (fuel : Nat)
    (s : Session) : Progress :=
  match distanceMetricArg job.metric with
  | .error e => (s, some (.error e))
  | .ok metric =>
    match server.roundTrip link [createRequest job metric] s with
    | (s, .ok [.error e]) => (s, some (.error (.createServer e)))
    | (s, .ok _) => pollInfo server link job fuel s
    | (s, .error message) => (s, some (.error (.create message)))

/-! ## The run, up to its queries -/

def dropRequest (job : LoadJob) : List (List UInt8) := [bytes "FT.DROPINDEX", bytes job.index]

/-- A run that builds the index. A missing index is no error, so what the drop replies is not
looked at. -/
def prepare (server : Server) (link : Nat → Link) (job : LoadJob) (fuel : Nat) (s : Session) :
    Progress :=
  let (s, _) := server.roundTrip link [dropRequest job] s
  match deletePrefix server link prefixBytes fuel (bytes "0") s with
  | (s, none) => (s, none)
  | (s, some (.error e)) => (s, some (.error e))
  | (s, some (.ok ())) =>
    match loadPhase server link job s with
    | (s, .error e) => (s, some (.error e))
    | (s, .ok ()) => indexPhase server link job fuel s

def verifyReusableIndex (server : Server) (link : Nat → Link) (job : LoadJob) (s : Session) :
    Outcome Unit :=
  match server.roundTrip link [infoRequest job] s with
  | (s, .error message) => (s, .error (.info message))
  | (s, .ok [.array fields]) =>
    match indexReady job.atLeastOne fields with
    | .error e => (s, .error e)
    | .ok false => (s, .error .notReady)
    | .ok true =>
      match server.roundTrip link [[bytes "DBSIZE"]] s with
      | (s, .error message) => (s, .error (.dbSize message))
      | (s, .ok [.integer n]) =>
        if n = job.train.rows.length then (s, .ok ())
        else (s, .error (.dbSizeMismatch n job.train.rows.length))
      | (s, .ok _) => (s, .error .dbSizeReply)
  | (s, .ok [.error e]) => (s, .error (.reuseServer e))
  | (s, .ok _) => (s, .error .reuseReply)

/-! ## What the server is relied on for -/

/-- The pattern of cleanup: any key under the prefix. -/
def docPattern : List UInt8 := prefixBytes ++ bytes "*"

/-- The keys that an iteration returns which finds the keyspace, at each send, as in `stores`, and
its last cursor. -/
def Server.iterate (server : Server) :
    List UInt8 → List (Nat × Keyspace) → List Key × List UInt8
  | cursor, [] => ([], cursor)
  | cursor, (time, ks) :: stores =>
    let (keys, next) := server.scan time cursor docPattern ks
    let (rest, last) := server.iterate next stores
    (keys ++ rest, last)

/-- The commands of a run, as the server documents them. `HSET` and the script may be refused, which
changes nothing. A scan gives keys of the pattern, and in an iteration from cursor 0 back to it each
key that was there all the time. -/
structure Server.Documented (server : Server) (job : LoadJob) : Prop where
  hset : ∀ {ks : Keyspace} {key : Key} {fields : AList fun _ : List UInt8 => List UInt8},
    (ks.lookup key = none ∧ fields = ∅ ∨ ks.lookup key = some (.hash fields)) →
    ∀ (time : Nat) (field value : List UInt8),
      (∃ e, server.execute time ks [bytes "HSET", key, field, value] = (ks, .error e)) ∨
        ∃ n, server.execute time ks [bytes "HSET", key, field, value] =
          (ks.insert key (.hash (fields.insert field value)), .integer n)
  eval : ∀ (time : Nat) (ks : Keyspace) (cursor : List UInt8),
    (∃ e, server.execute time ks (evalRequest cursor docPattern) = (ks, .error e)) ∨
      ∃ ks', server.execute time ks (evalRequest cursor docPattern) =
          (ks', .bulkString (server.scan time cursor docPattern ks).2) ∧
        ∀ key, ks'.lookup key =
          if key ∈ (server.scan time cursor docPattern ks).1 then none else ks.lookup key
  matching : ∀ time cursor ks, ∀ key ∈ (server.scan time cursor docPattern ks).1,
    prefixBytes <+: key
  full : ∀ stores, stores ≠ [] → (server.iterate (bytes "0") stores).2 = bytes "0" →
    ∀ key, prefixBytes <+: key → (∀ store ∈ stores, key ∈ store.2) →
      key ∈ (server.iterate (bytes "0") stores).1
  dropIndex : ∀ time ks, (server.execute time ks (dropRequest job)).1 = ks
  create : ∀ time ks metric, (server.execute time ks (createRequest job metric)).1 = ks
  info : ∀ time ks, (server.execute time ks (infoRequest job)).1 = ks
  dbSize : ∀ time ks,
    (∃ e, server.execute time ks [bytes "DBSIZE"] = (ks, .error e)) ∨
      server.execute time ks [bytes "DBSIZE"] = (ks, .integer ks.entries.length)

end Search
