import Cachecannon.KvReplay.Request

/-!
# The replay with its requests run (`src/kvreplay.rs`, `drive`)

`KvReplay.Model` takes the end of a request as given; here it is what `run_request` makes of it,
and the run may be stopped. `log` is a ghost: a slot completed with a request, a request handed
back, and a request that tried a GET or SET, by the connection.
-/

namespace KvReplay

variable {W C : Type}

inductive Event
  | handed
  | back (why : HandBack)
  | tried
  deriving Repr, DecidableEq

structure Note (C : Type) where
  conn : C
  index : Nat
  event : Event

/-- `prompt` is what `run_request` reads of the requests of the trace. -/
structure ReplayConfig (W C : Type) extends KvConfig W C where
  run : RunConfig
  prompt : Nat → Prompt

/-- `sends` is of the client a connection has, or last had. -/
structure Replay (W C : Type) where
  kv : KvState W C
  stopping : Bool
  sends : C → Sending
  log : List (Note C)

def Replay.init (cfg : ReplayConfig W C) : Replay W C where
  kv := .init cfg.toKvConfig
  stopping := false
  sends _ := .new
  log := []

/-- A connection runs a request (`run`) to its end. `should_stop` becomes true (`stop`), after
which a dispatcher closes (`close`), and a connection at the top of its loop leaves (`quit`). -/
inductive ReplayStep (W C : Type)
  | work (e : KvStep W C)
  | run (c : C) (ex : Exchange)
  | stop
  | close (w : W)
  | quit (c : C)

/-- What goes on when the run is being stopped. -/
def KvStep.goesOn (stopping : Bool) : KvStep W C → Bool
  | .dispatch .. | .ask _ | .eof _ => !stopping
  -- a request ends as `run_request` ends
  | .done .. => false
  | _ => true

def ConnPc.complete (job : Option KvJob) : ConnPc → ConnPc
  | .waiting slot => .waiting (slot.complete job)
  | pc => pc

variable [DecidableEq W] [DecidableEq C]

/-- A new client. -/
def KvStep.opens (sends : C → Sending) : KvStep W C → C → Sending
  | .connect c => Function.update sends c .new
  | _ => sends

def backNotes (cfg : KvConfig W C) (s : KvState W C) (c : C) (job : KvJob) (why : HandBack) :
    List (Note C) :=
  if ((s.dispatch (cfg.worker c)).giveBack job why).isSome then [⟨c, job.index, .back why⟩] else []

def KvStep.notes (cfg : KvConfig W C) (s : KvState W C) : KvStep W C → List (Note C)
  | .dispatch w nowHeld now =>
    match cfg.spawned w, s.start with
    | true, some start =>
      ((runDispatcher (cfg.scheduledAt start) s.disconnected s.channel (s.dispatch w) nowHeld
        now).handed.map fun handed => ⟨handed.1, handed.2.index, .handed⟩).toList
    | _, _ => []
  | .take c false =>
    match (s.conn c).pc with
    | .waiting ⟨some job, true⟩ => backNotes cfg s c job .unsent
    | _ => []
  | .done c (.error .closed) =>
    match (s.conn c).pc with
    | .running job => backNotes cfg s c job .lookupSent
    | _ => []
  | _ => []

/-- `KvDispatcher::close`. What the dispatcher holds goes no further. -/
def KvState.close (s : KvState W C) (w : W) : KvState W C :=
  let d := s.dispatch w
  { s.setDispatch w { d with closed := true, waiting := [] } with
    conn := fun c => if c ∈ d.waiting then { s.conn c with pc := (s.conn c).pc.complete none }
      else s.conn c }

def triedNotes (s : Replay W C) (c : C) (job : KvJob) (after : Sending) : List (Note C) :=
  if after.tried = (s.sends c).tried then [] else [⟨c, job.index, .tried⟩]

def replayStep (cfg : ReplayConfig W C) (s : Replay W C) :
    ReplayStep W C → Option (Replay W C)
  | .work e =>
    if e.goesOn s.stopping then
      (kvStep cfg.toKvConfig s.kv e).map fun kv =>
        { s with kv, sends := e.opens s.sends, log := s.log ++ e.notes cfg.toKvConfig s.kv }
    else none
  | .run c ex =>
    match (s.kv.conn c).pc with
    | .running job =>
      match runRequest cfg.run (cfg.prompt job.index) ex (s.sends c) with
      | some (result, after) =>
        let e : KvStep W C := .done c (result.map fun _ => ())
        (kvStep cfg.toKvConfig s.kv e).map fun kv =>
          { s with
            kv
            sends := Function.update s.sends c after
            log := s.log ++ triedNotes s c job after ++ e.notes cfg.toKvConfig s.kv }
      | none => none
    | _ => none
  | .stop => some { s with stopping := true }
  | .close w => if s.stopping && cfg.spawned w then some { s with kv := s.kv.close w } else none
  | .quit c =>
    match (s.kv.conn c).pc with
    | .top => if s.stopping then some { s with kv := leave cfg.toKvConfig s.kv c } else none
    | _ => none

end KvReplay
