import Cachecannon.Lib.Intern
import Cachecannon.Worker.Route

/-!
# The topology of a cluster (`src/cluster.rs`)

`build_topology` numbers the primaries of a `CLUSTER SLOTS` reply in the order they appear, and
fills the table that maps a slot to a primary's number. `resp_proto::SlotMap::from_cluster_slots`
is a parameter; `none` is a panic: a slot past the table, or an address that was not numbered.
-/

namespace Cluster

open Intern Worker

/-- `resp_proto::SLOT_COUNT` -/
def slotCount : Nat := 16384

/-- The sentinel `u16::MAX`: not yet assigned. -/
def unassigned : UInt16 := 0xFFFF

/-- `resp_proto::SlotRange`, with the address of its primary. -/
structure SlotRange where
  start : UInt16
  endSlot : UInt16
  address : List Char
  deriving Repr, DecidableEq

def SlotRange.slots (range : SlotRange) : List Nat :=
  List.range' range.start.toNat (range.endSlot.toNat + 1 - range.start.toNat)

/-- `resp_proto::Value`: an error with its text, or another reply. -/
inductive Value (ρ : Type)
  | error (msg : String)
  | reply (r : ρ)

def invalidAddress (range : SlotRange) : String :=
  "invalid primary address '" ++ String.ofList range.address ++
    "': invalid socket address syntax"

/-- Collect unique primary addresses and build the endpoint index. -/
def collectEndpoints : List SlotRange → Table SocketAddr → Except String (Table SocketAddr)
  | [], endpoints => .ok endpoints
  | range :: ranges, endpoints =>
    match parseSocketAddr range.address with
    | none => .error (invalidAddress range)
    | some addr => collectEndpoints ranges (endpoints.intern addr)

/-- `for slot in range.start..=range.end` -/
def assignSlots (idx : Nat) (slots : List Nat) (table : List UInt16) : Option (List UInt16) :=
  slots.foldlM (fun table slot => setSlot table slot idx) table

def fillTable (addrToIdx : List (SocketAddr × Nat)) :
    List SlotRange → List UInt16 → Option (Except String (List UInt16))
  | [], table => some (.ok table)
  | range :: ranges, table =>
    match parseSocketAddr range.address with
    | none => some (.error (invalidAddress range))
    | some addr => do
      let idx ← addrToIdx.lookup addr
      let table ← assignSlots idx range.slots table
      fillTable addrToIdx ranges table

def unmappedError (unmapped : Nat) : String :=
  "CLUSTER SLOTS response left " ++ toString unmapped ++ " of " ++ toString slotCount ++
    " hash slots unmapped (cluster is degraded or partially migrated); refusing to run with " ++
    "silent slot-0 fallback"

/-- From the ranges of a slot map to the primaries and the slot table. -/
def buildTables (ranges : List SlotRange) :
    Option (Except String (List SocketAddr × List UInt16)) :=
  match collectEndpoints ranges .empty with
  | .error e => some (.error e)
  | .ok endpoints => do
    match ← fillTable endpoints.index ranges (List.replicate slotCount unassigned) with
    | .error e => return .error e
    | .ok table =>
      let unmapped := table.count unassigned
      if 0 < unmapped then return .error (unmappedError unmapped)
      else return .ok (endpoints.items, table)

variable {ρ : Type} (fromClusterSlots : ρ → Option (List SlotRange))

def buildTopology (value : Value ρ) :
    Option (Except String (List SocketAddr × List UInt16)) :=
  match value with
  | .error msg => some (.error ("CLUSTER SLOTS returned error: " ++ msg))
  | .reply r =>
    match fromClusterSlots r with
    | none => some (.error "failed to parse CLUSTER SLOTS response as slot map")
    | some ranges =>
      if ranges.isEmpty then some (.error "CLUSTER SLOTS returned empty slot map")
      else buildTables ranges

end Cluster
