import Cachecannon.Lib.Exec
import Cachecannon.Worker.Address

/-!
# Routing and redirects (`src/worker.rs`)

A worker routes every key through its own slot table, when the target is a cluster, and moves a
slot of the table when a node answers `MOVED`. The table is indexed with the slot the node
named, so `checkRespRedirectParsed` is partial: `none` is the panic of an index out of bounds.

`resp_proto::hash_slot` and the ketama ring are parameters.
-/

namespace Worker

inductive RedirectKind
  | moved
  | ask
  deriving Repr, DecidableEq

structure Redirect where
  kind : RedirectKind
  slot : UInt16
  address : List Char
  deriving Repr, DecidableEq

/-- `splitn(2, ' ')`: the text up to the first space, and what follows it if there is one. -/
def splitSpace (s : List Char) : List Char × Option (List Char) :=
  (s.takeWhile (· ≠ ' '), (s.dropWhile (· ≠ ' ')).tail?)

def parseRespRedirect (msg : List Char) : Option Redirect := do
  let (kind, rest) ← match msg.dropPrefix? "MOVED ".toList with
    | some rest => some (RedirectKind.moved, rest)
    | none => (msg.dropPrefix? "ASK ".toList).map (RedirectKind.ask, ·)
  let parts := splitSpace rest
  let slot ← parseU16 parts.1
  let address ← parts.2
  return { kind, slot, address }

/-- What a worker routes with. -/
structure TaskSharedState where
  endpoints : List SocketAddr
  slotTable : Option (List UInt16)

/-- `table[slot] = idx as u16`, which panics out of bounds. -/
def setSlot (table : List UInt16) (slot idx : Nat) : Option (List UInt16) :=
  if slot < table.length then some (table.set slot (UInt16.ofNat idx)) else none

def checkRespRedirectParsed (redirect : Redirect) (state : TaskSharedState) :
    Option TaskSharedState :=
  if redirect.kind ≠ .moved then some state
  else
    match parseSocketAddr redirect.address, state.slotTable with
    | some addr, some table =>
      match state.endpoints.findIdx? (· = addr) with
      | some idx =>
        (setSlot table redirect.slot.toNat idx).map fun t => { state with slotTable := some t }
      | none => some state
    | _, _ => some state

/-- An error reply: a redirect is followed, any other message changes nothing. -/
def handleError (state : TaskSharedState) (msg : List Char) : Option TaskSharedState :=
  match parseRespRedirect msg with
  | some redirect => checkRespRedirectParsed redirect state
  | none => some state

/-- A sequence of error replies, up to the first panic. -/
def handleErrors (state : TaskSharedState) (msgs : List (List Char)) : Option TaskSharedState :=
  Exec.run handleError state msgs

section Routing

variable (hashSlot : List UInt8 → Nat) (ring : List UInt8 → Nat)

/-- Route a key using the supplied slot table or ring; `none` is an index out of bounds. -/
def routePartition (slotTable : Option (List UInt16)) (numEndpoints : Nat) (key : List UInt8) :
    Option Nat :=
  match slotTable with
  | some table => table[hashSlot key]?.map UInt16.toNat
  | none => if numEndpoints ≤ 1 then some 0 else some (ring key)

def routeKey (state : TaskSharedState) (key : List UInt8) : Option Nat :=
  routePartition hashSlot ring state.slotTable state.endpoints.length key

end Routing

end Worker
