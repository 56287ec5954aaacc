import Cachecannon.Discovery.Reply

/-!
# What a configuration endpoint sends

A data block has a line with the version and a line with the nodes, and stands between a header
with its length and `END`.
-/

namespace Discovery

open Worker (IpAddr SocketAddr)

/-- `hostname|ip|port` -/
structure Node where
  host : List Char
  ip : IpAddr
  port : Nat
  host_plain : ∀ c ∈ host, Text.isWhitespace c = false ∧ c ≠ '|'
  ip_valid : ip.Valid
  port_lt : port < 2 ^ 16

def Node.addr (node : Node) : SocketAddr := .new node.ip node.port

def Node.text (node : Node) : List Char :=
  node.host ++ '|' :: (node.ip.display ++ '|' :: Nat.toDigits 10 node.port)

def nodesText (nodes : List Node) : List Char := List.intercalate [' '] (nodes.map Node.text)

/-- The data block of a configuration. -/
def blockText (version : UInt64) (nodes : List Node) : List Char :=
  Nat.toDigits 10 version.toNat ++ '\n' :: (nodesText nodes ++ ['\n'])

/-- A field of a header line. -/
structure Field where
  text : List Char
  text_ne : text ≠ []
  text_plain : ∀ c ∈ text, Text.isAsciiWhitespace c = false

/-- `CONFIG cluster <flags> <bytes>` or `VALUE <key> <flags> <bytes>`. -/
inductive BlockHeader
  | config (flags : Field)
  | value (key flags : Field)

def BlockHeader.fields : BlockHeader → List (List Char)
  | .config flags => ["CONFIG".toList, "cluster".toList, flags.text]
  | .value key flags => ["VALUE".toList, key.text, flags.text]

/-- The header line for a block of `len` bytes. -/
def BlockHeader.line (header : BlockHeader) (len : Nat) : List Char :=
  List.intercalate [' '] (header.fields ++ [Nat.toDigits 10 len])

def noFlags : BlockHeader := .config ⟨['0'], by simp, by simp; decide⟩

def crlf : List UInt8 := Text.encode "\r\n".toList

/-- A whole reply with a data block. -/
def reply (header : BlockHeader) (block : List UInt8) : List UInt8 :=
  Text.encode (header.line block.length) ++ crlf ++ block ++ trailer

end Discovery
