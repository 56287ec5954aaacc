import Cachecannon.Lib.Text
import Cachecannon.Worker.IpAddr

/-!
# Replies of auto discovery (`src/autodiscovery.rs`)

What is read of a memcached server's reply to `config get cluster`. A slice out of range is a
panic, `none`. How a hostname resolves is a parameter.
-/

namespace Discovery

open Worker (IpAddr SocketAddr parseIpAddr parseUnsigned)

/-- `MAX_RESPONSE` -/
def maxResponse : Nat := 2 ^ 20

/-- The errors, with what their messages quote. -/
inductive DiscoveryError
  | notUtf8 (bytes : List UInt8)
  | badLength (header : List Char)
  | unexpectedHeader (header : List Char)
  | tooLong (len : Nat)
  | notEnd (len : Nat)
  | emptyConfiguration
  | badVersion (line : List Char)
  | noNodeList
  | noNodes
  | badNode (entry : List Char)
  | badPort (entry : List Char)
  | badIp (entry : List Char)
  | resolve (host : List Char)
  | noAddresses (host : List Char)
  deriving Repr, DecidableEq

inductive Response
  | config (body : List UInt8)
  | empty
  | error (line : List Char)
  deriving Repr, DecidableEq

structure ClusterConfig where
  version : Nat
  nodes : List SocketAddr
  deriving Repr, DecidableEq

/-! ## `parse_response` -/

/-- `buf.windows(2).position(|w| w == b"\r\n")` -/
def findCrlf : List UInt8 → Option Nat
  | a :: b :: rest => if a = 13 ∧ b = 10 then some 0 else (findCrlf (b :: rest)).map (· + 1)
  | _ => none

def trailer : List UInt8 := Text.encode "\r\nEND\r\n".toList

/-- What a header line says: a reply of that line alone, or the length of a data block. -/
inductive Header
  | line (response : Response)
  | block (len : Nat)
  deriving Repr, DecidableEq

def parseHeader (line : List UInt8) : Except DiscoveryError Header :=
  match Text.decode line with
  | none => .error (.notUtf8 line)
  | some header =>
    if header = "END".toList then .ok (.line .empty)
    else if header = "ERROR".toList || "CLIENT_ERROR".toList.isPrefixOf header ||
        "SERVER_ERROR".toList.isPrefixOf header then
      .ok (.line (.error header))
    else
      match Text.splitAsciiWhitespace header with
      | [kind, key, _, len] =>
        if kind = "CONFIG".toList ∧ key = "cluster".toList ∨ kind = "VALUE".toList then
          match parseUnsigned 64 len with
          | none => .error (.badLength header)
          | some len => if maxResponse < len then .error (.tooLong len) else .ok (.block len)
        else .error (.unexpectedHeader header)
      | _ => .error (.unexpectedHeader header)

def parseResponse (buf : List UInt8) : Option (Except DiscoveryError (Option Response)) :=
  match findCrlf buf with
  | none => some (.ok none)
  | some eol => do
    let line ← Text.slice buf 0 eol
    let rest ← Text.slice buf (eol + 2) buf.length
    match parseHeader line with
    | .error e => some (.error e)
    | .ok (.line response) => some (.ok (some response))
    | .ok (.block len) =>
      if rest.length < len + trailer.length then some (.ok none)
      else
        (Text.slice rest len (len + trailer.length)).bind fun after =>
          if after ≠ trailer then some (.error (.notEnd len))
          else (Text.slice rest 0 len).map fun body => .ok (some (.config body))

/-! ## `parse_config` -/

section Resolve

-- `to_socket_addrs` of a host and port, which may fail
variable (resolve : List Char → Nat → Option (List SocketAddr))

def parseNode (entry : List Char) : Except DiscoveryError SocketAddr :=
  match entry.splitOn '|' with
  | [host, ip, port] =>
    match parseUnsigned 16 port with
    | none => .error (.badPort entry)
    | some port =>
      if ip ≠ [] then
        match parseIpAddr ip with
        | none => .error (.badIp entry)
        | some ip => .ok (.new ip port)
      else
        match resolve host port with
        | none => .error (.resolve host)
        | some [] => .error (.noAddresses host)
        | some (addr :: _) => .ok addr
  | _ => .error (.badNode entry)

/-- The loop over the entries, at the nodes found so far. -/
def parseNodes : List SocketAddr → List (List Char) → Except DiscoveryError (List SocketAddr)
  | nodes, [] => .ok nodes
  | nodes, entry :: entries =>
    match parseNode resolve entry with
    | .error e => .error e
    | .ok addr => parseNodes (if nodes.contains addr then nodes else nodes ++ [addr]) entries

def parseConfig (body : List UInt8) : Except DiscoveryError ClusterConfig :=
  match Text.decode body with
  | none => .error (.notUtf8 body)
  | some body =>
    match ((Text.lines body).map Text.trim).filter (· ≠ []) with
    | [] => .error .emptyConfiguration
    | versionLine :: lines =>
      match parseUnsigned 64 versionLine with
      | none => .error (.badVersion versionLine)
      | some version =>
        match lines with
        | [] => .error .noNodeList
        | nodeLine :: _ =>
          match parseNodes resolve [] (Text.splitAsciiWhitespace nodeLine) with
          | .error e => .error e
          | .ok nodes => if nodes.isEmpty then .error .noNodes else .ok ⟨version, nodes⟩

end Resolve

end Discovery
