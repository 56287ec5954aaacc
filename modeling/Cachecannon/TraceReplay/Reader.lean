import Cachecannon.TraceReplay.Model

/-!
# The trace's reader thread (`src/tracereplay.rs`, `spawn_reader`)

The thread reads the entries of the file, turns each into a row or skips it, and sends the rows in
batches, until the file ends or an entry cannot be read. A batch is counted, then sent; `stopped` is
set as the closure returns, before the channel is disconnected. The thread runs beside the
connections of the replay. The receiver lives as long as the replay does, so a send waits for room
and does not fail.
-/

namespace TraceReplay

/-- `cachetrace::TraceEntry` -/
structure TraceEntry where
  objId : Nat
  objSize : Nat
  op : Option Nat
  deriving Repr, DecidableEq

/-- What `cachetrace::Op` is for an op code. -/
inductive OpKind
  | delete
  | write
  | read
  | other
  deriving Repr, DecidableEq

def RowOp.fromTrace (opKind : Nat → OpKind) : Option Nat → Option RowOp
  | none => some .get
  | some code =>
    match opKind code with
    | .delete => some .del
    | .write => some .set
    | .read => some .get
    | .other => none

def Row.fromEntry (opKind : Nat → OpKind) (entry : TraceEntry) (maxValue index : Nat) :
    Option Row :=
  match RowOp.fromTrace opKind entry.op with
  | none => none
  | some op =>
    if op = .set ∧ maxValue < entry.objSize then none
    else some ⟨entry.objId, entry.objSize, op, 0, index⟩

/-- The rows to send, up to an entry that cannot be read, numbered from `index`. -/
def rowsFrom (opKind : Nat → OpKind) : (index : Nat) → List (Except String TraceEntry) → List Row
  | _, [] => []
  | _, .error _ :: _ => []
  | index, .ok entry :: entries =>
    match Row.fromEntry opKind entry valuePoolSize index with
    | some row => row :: rowsFrom opKind (index + 1) entries
    | none => rowsFrom opKind index entries

theorem fromEntry_index {opKind : Nat → OpKind} {entry : TraceEntry} {maxValue index : Nat}
    {row : Row} (h : Row.fromEntry opKind entry maxValue index = some row) : row.index = index := by
  unfold Row.fromEntry at h
  split at h
  · cases h
  · split at h <;> cases h
    rfl

theorem rowsFrom_index (opKind : Nat → OpKind) (index : Nat)
    (entries : List (Except String TraceEntry)) :
    (rowsFrom opKind index entries).map Row.index =
      List.range' index (rowsFrom opKind index entries).length := by
  induction entries generalizing index with
  | nil => rfl
  | cons entry entries ih =>
    cases entry with
    | error e => rfl
    | ok entry =>
      rw [rowsFrom]
      split
      · rename_i row hrow
        rw [List.map_cons, fromEntry_index hrow, ih, List.length_cons, List.range'_succ]
      · exact ih index

structure ReplayConfig (W C : Type) where
  worker : C → W
  pipelineDepth : Nat
  backfillOnMiss : Bool
  keyLen : Nat → Nat
  opKind : Nat → OpKind
  path : String
  entries : List (Except String TraceEntry)

def ReplayConfig.trace {W C : Type} (cfg : ReplayConfig W C) : TraceConfig W C where
  worker := cfg.worker
  pipelineDepth := cfg.pipelineDepth
  backfillOnMiss := cfg.backfillOnMiss
  keyLen := cfg.keyLen
  rows := rowsFrom cfg.opKind 0 cfg.entries
  rows_index := by rw [rowsFrom_index, List.range_eq_range']

/-! ## The thread -/

inductive ReaderPc
  | reading
  /-- A batch is to be counted in `sent`. -/
  | counting
  | sending
  /-- Past the loop and the last batch. -/
  | stopping
  | returned
  deriving Repr, DecidableEq

/-- `last` is set when the loop over the entries is over; `error` is `ReaderState::error`, and
`skipped` what the thread adds to `TRACE_ROWS_SKIPPED`. -/
structure Reader where
  pc : ReaderPc
  todo : List (Except String TraceEntry)
  batch : List Row
  last : Bool
  skipped : Nat
  error : Option String
  deriving Repr

structure ReplayState (W C : Type) where
  reader : Reader
  trace : TraceState W C

variable {W C : Type} [DecidableEq W] [DecidableEq C]

def ReplayConfig.message (cfg : ReplayConfig W C) (error : String) : String :=
  let path := cfg.path
  s!"trace_replay trace {path}: {error}"

/-- The end of the loop: what is left of a batch is sent. -/
def Reader.leave (r : Reader) : Reader :=
  { r with last := true, pc := if r.batch = [] then .stopping else .counting }

/-- The next entry; `index` is the number of rows counted before the batch. -/
def Reader.readEntry (cfg : ReplayConfig W C) (r : Reader) (index : Nat) : Reader :=
  match r.todo with
  | [] => r.leave
  | .error e :: todo => { r with todo, error := some (cfg.message e) }.leave
  | .ok entry :: todo =>
    match Row.fromEntry cfg.opKind entry valuePoolSize (index + r.batch.length) with
    | none => { r with todo, skipped := r.skipped + 1 }
    | some row =>
      let batch := r.batch ++ [row]
      { r with todo, batch, pc := if batch.length = claimBatch then .counting else .reading }

/-- One step of the thread; `none` where it waits for room in the channel, or has returned. -/
def readerStep (cfg : ReplayConfig W C) (s : ReplayState W C) : Option (ReplayState W C) :=
  let r := s.reader
  let trace := s.trace
  match r.pc with
  | .reading => some { s with reader := r.readEntry cfg trace.readerSent }
  | .counting =>
    some
      { reader := { r with batch := [], pc := .sending }
        trace := { trace with
          sending := r.batch
          readerSent := trace.readerSent + r.batch.length } }
  | .sending =>
    if trace.channel.length < readAheadBatches then
      some
        { reader := { r with pc := if r.last then .stopping else .reading }
          trace := { trace with channel := trace.channel ++ [trace.sending], sending := [] } }
    else none
  | .stopping =>
    some { reader := { r with pc := .returned }, trace := { trace with stopped := true } }
  | .returned => none

/-- The steps of the replay that are the reader's. -/
def TraceStep.ofReader : TraceStep C → Bool
  | .read _ | .deliver | .stopReader => true
  | _ => false

inductive ReplayStep (C : Type)
  | reader
  | conn (e : TraceStep C)

/-- The step of a connection that it is. -/
def ReplayStep.conn? : ReplayStep C → Option (TraceStep C)
  | .reader => none
  | .conn e => some e

def replayStep (cfg : ReplayConfig W C) (s : ReplayState W C) :
    ReplayStep C → Option (ReplayState W C)
  | .reader => readerStep cfg s
  | .conn e =>
    if e.ofReader then none
    else (traceStep cfg.trace s.trace e).map fun trace => { s with trace }

def ReplayState.init (cfg : ReplayConfig W C) : ReplayState W C where
  reader := ⟨.reading, cfg.entries, [], false, 0, none⟩
  trace := .init

/-! ## What the results report -/

/-- `TraceReplayResults::finished` -/
def ReplayState.finished (s : ReplayState W C) : Bool :=
  s.trace.isFinished && s.reader.error.isNone

/-- `TraceReplayResults::all_skipped` -/
def ReplayState.allSkipped (s : ReplayState W C) : Bool :=
  s.trace.readerSent = 0 && s.trace.stopped && s.reader.error.isNone

end TraceReplay
