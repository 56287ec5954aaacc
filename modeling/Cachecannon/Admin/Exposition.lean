import Cachecannon.Lib.Codec
import Mathlib.Data.Char
import Mathlib.Data.List.Lex

/-!
# What the admin server serves (`src/admin/mod.rs`)

A request is one read; its line names a path, and the response is a body with its length. The path
of the metrics is served the registry in the Prometheus text format: a `HELP` and a `TYPE` line and
the samples of each metric. `/metrics/stream` is served by a loop of its own, and is not here.

A label set is the pairs of a map in the order it iterates, and a text is its characters. The
snapshot's encoding is an input.
-/

namespace Admin

abbrev Chars := List Char

/-! ## The registry -/

structure Bucket where
  start : UInt64
  stop : UInt64
  count : UInt64
  deriving Repr, DecidableEq

/-- `quantiles` is the ends of the buckets of the quantiles asked for, in order. -/
structure Histogram where
  quantiles : Option (List UInt64)
  buckets : List Bucket
  deriving Repr, DecidableEq

/-- A slot of a counter group that has metadata. -/
structure Slot where
  labels : List (Chars × Chars)
  value : Option UInt64
  deriving Repr, DecidableEq

/-- `histogram` is also a foreign metric that is one. -/
inductive MetricValue
  | counter (v : UInt64)
  | gauge (v : Int64)
  | counterGroup (slots : List Slot)
  | histogram (snapshot : Option Histogram)
  | other
  deriving Repr, DecidableEq

structure Metric where
  name : Chars
  description : Option Chars
  value : Option MetricValue
  deriving Repr, DecidableEq

/-! ## The text -/

def isNameChar (c : Char) : Bool := c.isAlphanum || c = '_' || c = ':'

def sanitizeName (name : Chars) : Chars := name.map fun c => if isNameChar c then c else '_'

def escapeLabelValue (value : Chars) : Chars :=
  value.flatMap fun c =>
    match c with
    | '\\' => ['\\', '\\']
    | '"' => ['\\', '"']
    | '\n' => ['\\', 'n']
    | c => [c]

def formatPair (pair : Chars × Chars) : Chars :=
  pair.1 ++ "=\"".toList ++ escapeLabelValue pair.2 ++ ['"']

def formatLabels (metadata : List (Chars × Chars)) : Chars :=
  if metadata = [] then []
  else
    let pairs := (metadata.map formatPair).mergeSort (· ≤ ·)
    ['{'] ++ List.intercalate [','] pairs ++ ['}']

def escapeHelp (description : Chars) : Chars :=
  description.flatMap fun c =>
    match c with
    | '\\' => ['\\', '\\']
    | '\n' => ['\\', 'n']
    | c => [c]

def writeHelp (name : Chars) (description : Option Chars) : Chars :=
  match description with
  | none => []
  | some desc =>
    if desc = [] then []
    else "# HELP ".toList ++ name ++ [' '] ++ escapeHelp desc ++ ['\n']

def writeType (name kind : Chars) : Chars :=
  "# TYPE ".toList ++ name ++ [' '] ++ kind ++ ['\n']

def formatNat (n : Nat) : Chars := Nat.toDigits 10 n

def formatInt (n : Int) : Chars :=
  if n < 0 then '-' :: formatNat n.natAbs else formatNat n.natAbs

/-- The quantiles, as they print. -/
def quantileTexts : List Chars :=
  ["0.5".toList, "0.9".toList, "0.95".toList, "0.99".toList, "0.999".toList, "0.9999".toList]

/-- Added up in a `u64`. -/
def Histogram.count (snapshot : Histogram) : Nat :=
  (snapshot.buckets.map fun bucket => bucket.count.toNat).sum % 2 ^ 64

/-- Each value counts as the middle of its bucket; added up in a `u128`. -/
def Histogram.sum (snapshot : Histogram) : Nat :=
  (snapshot.buckets.map fun bucket =>
    bucket.count.toNat * ((bucket.start.toNat + bucket.stop.toNat) / 2)).sum % 2 ^ 128

def Histogram.quantileRows (snapshot : Histogram) : List (Chars × UInt64) :=
  match snapshot.quantiles with
  | none => []
  | some ends => quantileTexts.zip ends

def writeHistogramSummary (name : Chars) (description : Option Chars) (snapshot : Histogram) :
    Chars :=
  writeHelp name description ++ writeType name "summary".toList ++
    (snapshot.quantileRows.flatMap fun (quantile, stop) =>
      name ++ "\x7bquantile=\"".toList ++ quantile ++ "\"\x7d ".toList ++ formatNat stop.toNat ++
        ['\n']) ++
    (name ++ "_count ".toList ++ formatNat snapshot.count ++ ['\n']) ++
    (name ++ "_sum ".toList ++ formatNat snapshot.sum ++ ['\n'])

/-- The order of the rows of a group. -/
def rowLe (a b : Chars × UInt64) : Bool :=
  decide (a.1 < b.1) || (a.1 = b.1 && decide (a.2 ≤ b.2))

def writeMetric (metric : Metric) : Chars :=
  let name := sanitizeName metric.name
  match metric.value with
  | none => []
  | some (.counter v) =>
    writeHelp name metric.description ++ writeType name "counter".toList ++
      (name ++ [' '] ++ formatNat v.toNat ++ ['\n'])
  | some (.gauge v) =>
    writeHelp name metric.description ++ writeType name "gauge".toList ++
      (name ++ [' '] ++ formatInt v.toInt ++ ['\n'])
  | some (.counterGroup slots) =>
    let rows := slots.filterMap fun slot => slot.value.map fun v => (formatLabels slot.labels, v)
    if rows = [] then []
    else
      writeHelp name metric.description ++ writeType name "counter".toList ++
        (rows.mergeSort rowLe).flatMap fun (labels, v) =>
          name ++ labels ++ [' '] ++ formatNat v.toNat ++ ['\n']
  | some (.histogram none) => []
  | some (.histogram (some snapshot)) => writeHistogramSummary name metric.description snapshot
  | some .other => []

def generatePrometheusOutput (metrics : List Metric) : Chars := metrics.flatMap writeMetric

/-! ## Requests and responses -/

/-- `str::split_once` -/
def splitOnce (c : Char) (s : Chars) : Option (Chars × Chars) :=
  if c ∈ s then some (s.takeWhile (· ≠ c), (s.dropWhile (· ≠ c)).tail) else none

/-- `str::split_whitespace` -/
def splitWhitespace (s : Chars) : List Chars := (s.splitOnP Text.isWhitespace).filter (· ≠ [])

/-- The path and the query of a request line. -/
def requestTarget (request : List UInt8) : Option (Chars × Chars) := do
  let line ← Text.decode (request.takeWhile (· ≠ 10))
  let target ← (splitWhitespace line)[1]?
  let (path, query) := (splitOnce '?' target).getD (target, [])
  if path.head? = some '/' then some (path, query) else none

inductive AdminBody
  | prometheus (text : Chars)
  | msgpack (bytes : List UInt8)
  | notFound
  | serverError
  deriving Repr, DecidableEq

/-- `snapshot` is the snapshot in msgpack, if it can be encoded. -/
def respond (metrics : List Metric) (snapshot : Option (List UInt8)) (path : Chars) : AdminBody :=
  if path = "/".toList ∨ path = "/metrics".toList then
    .prometheus (generatePrometheusOutput metrics)
  else if path = "/metrics/binary".toList then
    match snapshot with
    | some bytes => .msgpack bytes
    | none => .serverError
  else .notFound

def AdminBody.status : AdminBody → String
  | .prometheus _ | .msgpack _ => "200 OK"
  | .notFound => "404 Not Found"
  | .serverError => "500 Internal Server Error"

def AdminBody.contentType : AdminBody → String
  | .prometheus _ => "text/plain; version=0.0.4"
  | .msgpack _ => "application/msgpack"
  | .notFound | .serverError => "text/plain"

def AdminBody.bytes : AdminBody → List UInt8
  | .prometheus text => Text.encode text
  | .msgpack bytes => bytes
  | .notFound | .serverError => []

def httpResponse (body : AdminBody) : List UInt8 :=
  Text.encode ("HTTP/1.1 ".toList ++ body.status.toList ++ "\r\nContent-Type: ".toList ++
    body.contentType.toList ++ "\r\nContent-Length: ".toList ++ formatNat body.bytes.length ++
    "\r\nConnection: close\r\n\r\n".toList) ++ body.bytes

/-- The response to what was read; none where the stream takes over. -/
def serve (metrics : List Metric) (snapshot : Option (List UInt8)) (request : List UInt8) :
    Option (List UInt8) :=
  match requestTarget request with
  | none => some (httpResponse .notFound)
  | some (path, _) =>
    if path = "/metrics/stream".toList then none
    else some (httpResponse (respond metrics snapshot path))

/-! ## A scrape

The client's side, by the text format of Prometheus and by HTTP: a line of the text is read by
itself, a label value up to its closing quote, and the body by its length. -/

inductive Line
  | help (name text : Chars)
  | type (name kind : Chars)
  | sample (name : Chars) (labels : List (Chars × Chars)) (value : Int)
  deriving Repr, DecidableEq

def isLabelChar (c : Char) : Bool := c.isAlphanum || c = '_'

/-- A name, which does not begin with a digit. -/
def readName (isChar : Char → Bool) (s : Chars) : Option (Chars × Chars) :=
  match s.takeWhile isChar with
  | [] => none
  | c :: name => if c.isDigit then none else some (c :: name, s.dropWhile isChar)

def unescapeHelp : Chars → Chars
  | '\\' :: 'n' :: text => '\n' :: unescapeHelp text
  | '\\' :: '\\' :: text => '\\' :: unescapeHelp text
  | c :: text => c :: unescapeHelp text
  | [] => []

/-- A label value, up to its closing quote. -/
def readQuoted : Chars → Option (Chars × Chars)
  | '"' :: rest => some ([], rest)
  | '\\' :: 'n' :: rest => (readQuoted rest).map fun (value, rest) => ('\n' :: value, rest)
  | '\\' :: c :: rest => (readQuoted rest).map fun (value, rest) => (c :: value, rest)
  | c :: rest => (readQuoted rest).map fun (value, rest) => (c :: value, rest)
  | [] => none

/-- The pairs of a label set, up to its closing brace. -/
def readPairs : Nat → Chars → Option (List (Chars × Chars) × Chars)
  | 0, _ => none
  | fuel + 1, s => do
    let (key, s) ← readName isLabelChar s
    let s ← Codec.skip "=\"".toList s
    let (value, s) ← readQuoted s
    match s with
    | '}' :: rest => some ([(key, value)], rest)
    | ',' :: rest => do
      let (pairs, rest) ← readPairs fuel rest
      return ((key, value) :: pairs, rest)
    | _ => none

def readNat (s : Chars) : Option Nat :=
  if s ≠ [] ∧ s.all Char.isDigit then some (Nat.ofDigitChars 10 s 0) else none

def readInt : Chars → Option Int
  | '-' :: s => (readNat s).map fun n => -(n : Int)
  | s => (readNat s).map fun n => (n : Int)

def readSample (s : Chars) : Option Line := do
  let (name, s) ← readName isNameChar s
  match s with
  | '{' :: s => do
    let (labels, s) ← readPairs s.length s
    let value ← readInt (← Codec.skip [' '] s)
    return .sample name labels value
  | s => do
    let value ← readInt (← Codec.skip [' '] s)
    return .sample name [] value

def readComment (s : Chars) : Option (Chars × Chars) := do
  let (name, s) ← readName isNameChar s
  return (name, ← Codec.skip [' '] s)

def readLine (line : Chars) : Option Line :=
  match Codec.skip "# HELP ".toList line, Codec.skip "# TYPE ".toList line with
  | some s, _ => (readComment s).map fun (name, text) => .help name (unescapeHelp text)
  | none, some s => (readComment s).map fun (name, kind) => .type name kind
  | none, none => readSample line

structure Sample where
  name : Chars
  labels : List (Chars × Chars)
  value : Int
  deriving Repr, DecidableEq

structure Family where
  name : Chars
  help : Option Chars
  kind : Chars
  samples : List Sample
  deriving Repr, DecidableEq

/-- The families of the lines, and the samples before the first. -/
def collect : List Line → Option (List Sample × List Family)
  | [] => some ([], [])
  | .sample name labels value :: lines => do
    let (samples, families) ← collect lines
    return (⟨name, labels, value⟩ :: samples, families)
  | .type name kind :: lines => do
    let (samples, families) ← collect lines
    return ([], ⟨name, none, kind, samples⟩ :: families)
  | .help name text :: lines => do
    match ← collect lines with
    | ([], family :: families) =>
      if family.name = name ∧ family.help = none then
        some ([], { family with help := some text } :: families)
      else none
    | _ => none

/-- The lines of a text that ends with one. -/
def textLines : Chars → Option (List Chars)
  | [] => some []
  | s => if (s.splitOn '\n').getLast? = some [] then some (s.splitOn '\n').dropLast else none

def readFamilies (text : Chars) : Option (List Family) := do
  let lines ← (← textLines text).mapM readLine
  match ← collect lines with
  | ([], families) => some families
  | _ => none

structure Response where
  status : Chars
  contentType : Chars
  body : List UInt8
  deriving Repr, DecidableEq

/-- A line of a head, and what follows it. -/
def readHeadLine : List UInt8 → Option (List UInt8 × List UInt8)
  | 13 :: 10 :: rest => some ([], rest)
  | byte :: rest => (readHeadLine rest).map fun (line, rest) => (byte :: line, rest)
  | [] => none

/-- The lines of a head, up to the empty one. -/
def readHead : Nat → List UInt8 → Option (List Chars × List UInt8)
  | 0, _ => none
  | fuel + 1, bytes => do
    let (line, rest) ← readHeadLine bytes
    if line = [] then some ([], rest)
    else do
      let line ← Text.decode line
      let (lines, rest) ← readHead fuel rest
      return (line :: lines, rest)

def headField (name : String) (lines : List Chars) : Option Chars :=
  lines.findSome? (Codec.skip (name ++ ": ").toList)

def readResponse (bytes : List UInt8) : Option Response := do
  let (lines, rest) ← readHead bytes.length bytes
  let status ← Codec.skip "HTTP/1.1 ".toList (← lines.head?)
  let contentType ← headField "Content-Type" lines
  let length ← readNat (← headField "Content-Length" lines)
  if rest.length = length then some ⟨status, contentType, rest⟩ else none

end Admin
