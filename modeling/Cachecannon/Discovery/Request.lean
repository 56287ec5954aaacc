import Cachecannon.Discovery.Reply

/-!
# A request of auto discovery (`src/autodiscovery.rs`)

`request` collects reads until they make a reply. An `Exchange` is what the socket does meanwhile.
-/

namespace Discovery

inductive IoError
  | wouldBlock
  | timedOut
  | other
  deriving Repr, DecidableEq

def IoError.isTimeout : IoError → Bool
  | .wouldBlock | .timedOut => true
  | .other => false

inductive RequestError
  | io (e : IoError)
  | reply (e : DiscoveryError)
  | exceeded
  | incomplete (received : Nat)
  | closed
  deriving Repr, DecidableEq

/-- The size of the buffer of one read. -/
def readSize : Nat := 4096

/-- How the command is written (`written`, an error or not), the reads that give bytes, and what
ends them: an error, or the end of the stream. -/
structure Exchange where
  written : Option IoError
  reads : List (List UInt8)
  ending : Option IoError
  reads_fit : ∀ read ∈ reads, read ≠ [] ∧ read.length ≤ readSize

/-- The bytes that arrive. -/
def Exchange.bytes (exchange : Exchange) : List UInt8 := exchange.reads.flatten

/-- The loop of `request`, at the bytes received so far and the reads to come. -/
def receive (ending : Option IoError) (buf : List UInt8) (reads : List (List UInt8)) :
    Option (Except RequestError Response) :=
  match parseResponse buf with
  | none => none
  | some (.error e) => some (.error (.reply e))
  | some (.ok (some response)) => some (.ok response)
  | some (.ok none) =>
    if maxResponse < buf.length then some (.error .exceeded)
    else
      match reads with
      | [] =>
        match ending with
        | none => some (.error .closed)
        | some e =>
          if e.isTimeout ∧ buf ≠ [] then some (.error (.incomplete buf.length))
          else some (.error (.io e))
      | read :: reads => receive ending (buf ++ read) reads

def request (exchange : Exchange) : Option (Except RequestError Response) :=
  match exchange.written with
  | some e => some (.error (.io e))
  | none => receive exchange.ending [] exchange.reads

end Discovery
