import Cachecannon.Config.Model
import Mathlib.Algebra.Order.Ring.Nat

/-!
# `Config::validate` (`src/config/mod.rs`)

Validation is a sequence of checks, and its error is that of the first one that refuses. A check
is its condition and its message, in the order of the source.

Rounding to `f64` and the text of an `f64` are parameters (`F64Format`), as is whether the build has
the `dma` feature.
-/

namespace Config

inductive ConfigError
  | io (text : String)
  | parse (text : String)
  | validation (text : String)
  deriving Repr, DecidableEq

/-- The nearest `f64` of a rational, and how Rust prints one: in full, and with no decimals. -/
structure F64Format where
  round : ℚ → ℚ
  display : F64 → String
  displayWhole : ℚ → String

/-- Numbers as they are, and the text of none. -/
def F64Format.exact : F64Format where
  round := id
  display _ := ""
  displayWhole _ := ""

structure Check where
  refused : Bool
  message : String
  deriving Repr, DecidableEq

/-- The message of the first check that refuses. -/
def firstRefused : List Check → Except ConfigError Unit
  | [] => .ok ()
  | check :: checks =>
    if check.refused then .error (.validation check.message) else firstRefused checks

def maxZipfTheta : ℚ := 10

/-- `runner::VALUE_POOL_SIZE` -/
def valuePoolSize : Nat := 1024 * 1024 * 1024

def isPowerOfTwo (n : Nat) : Bool := n ≠ 0 && 2 ^ n.log2 = n

def Protocol.debug : Protocol → String
  | .resp => "Resp"
  | .resp3 => "Resp3"
  | .memcache => "Memcache"
  | .memcacheBinary => "MemcacheBinary"
  | .ping => "Ping"
  | .dma => "Dma"

def Protocol.isResp (p : Protocol) : Bool := p = .resp || p = .resp3

def Protocol.isMemcache (p : Protocol) : Bool := p = .memcache || p = .memcacheBinary

/-- `Duration::as_secs_f64` -/
def asSecsF64 (fmt : F64Format) (nanos : Nat) : ℚ :=
  fmt.round (fmt.round (nanos / 10 ^ 9 : Nat) +
    fmt.round (fmt.round (nanos % 10 ^ 9 : Nat) / fmt.round (10 ^ 9)))

section Sections

variable (fmt : F64Format) (cfg : Config)

def prefillPaceChecks : List Check :=
  match cfg.workload.prefillRateLimit.filter (0 < ·) with
  | some rate =>
    if cfg.workload.prefill && cfg.workload.prefillTimeout ≠ 0 then
      let count := cfg.workload.keyspace.count
      let needed := fmt.round (fmt.round count / fmt.round rate)
      let timeout := asSecsF64 fmt cfg.workload.prefillTimeout
      [⟨timeout < needed,
        "prefill of " ++ toString count ++ " keys at prefill_rate_limit = " ++ toString rate ++
        " takes about " ++ fmt.displayWhole needed ++ "s, longer than prefill_timeout (" ++
        fmt.displayWhole timeout ++ "s); raise prefill_timeout or set it to \"0s\""⟩]
    else []
  | none => []

def targetChecks : List Check :=
  [⟨cfg.target.endpoints.isEmpty, "endpoints must be specified"⟩,
    ⟨cfg.general.threads = 0, "threads must be >= 1"⟩] ++
  if cfg.target.autoDiscovery then
    [⟨cfg.target.cluster, "target.auto_discovery and target.cluster cannot both be set"⟩,
      ⟨!cfg.target.protocol.isMemcache,
        "target.auto_discovery requires protocol memcache or memcache-binary, got " ++
        cfg.target.protocol.debug⟩]
  else []

def recvChecks : List Check :=
  (match cfg.general.recvRingSize with
    | some ringSize =>
      [⟨ringSize = 0, "recv_ring_size must be >= 1"⟩,
        ⟨!isPowerOfTwo ringSize,
          "recv_ring_size must be a power of two (got " ++ toString ringSize ++ ")"⟩]
    | none => []) ++
  [⟨cfg.general.recvBufferSize = some 0, "recv_buffer_size must be >= 1"⟩]

def tlsChecks : List Check :=
  let target := cfg.target
  [⟨target.tlsCertFile.isSome && target.tlsKeyFile.isNone,
      "tls_cert_file requires tls_key_file (the client key for mutual TLS)"⟩,
    ⟨target.tlsCertFile.isNone && target.tlsKeyFile.isSome,
      "tls_key_file requires tls_cert_file (the client certificate chain)"⟩,
    ⟨!target.tls &&
        (target.tlsCaFile.isSome || target.tlsCertFile.isSome || target.tlsKeyFile.isSome),
      "tls_ca_file / tls_cert_file / tls_key_file require tls = true"⟩]

def dmaChecks (dmaFeature : Bool) : List Check :=
  if cfg.target.protocol ≠ .dma then []
  else if !dmaFeature then
    [⟨true, "protocol = \"dma\" requires a build with --features dma (needs libfabric)"⟩]
  else
    [⟨cfg.connection.pipelineDepth ≠ 1,
        "protocol = \"dma\" currently runs one transfer per connection; set " ++
        "connection.pipeline_depth = 1 (got " ++ toString cfg.connection.pipelineDepth ++
        ") and raise connections for concurrency"⟩,
      ⟨cfg.workload.append.isSome, "protocol = \"dma\" does not support [workload.append]"⟩] ++
    match cfg.dmaBufferCapacity with
    | some capacity =>
      [⟨capacity < cfg.workload.valuesLength,
        "dma.buffer_capacity (" ++ toString capacity ++ ") must hold workload.values.length (" ++
        toString cfg.workload.valuesLength ++ ")"⟩]
    | none => []

def respModuleChecks : List Check :=
  match cfg.respModule with
  | .none => []
  | .largeObj =>
    let refuse (refused : Bool) (why : String) : Check :=
      ⟨refused, "resp.module = \"largeobj\" " ++ why⟩
    [refuse (!cfg.target.protocol.isResp) "applies to protocol = \"resp\" or \"resp3\" only",
      refuse cfg.workload.append.isSome "does not support [workload.append]",
      refuse cfg.workload.kvReplay.isSome "does not support [workload.kv_replay]"]

def keyspaceChecks : List Check :=
  let keyspace := cfg.workload.keyspace
  [⟨cfg.connection.totalConnections = 0, "connections must be >= 1"⟩,
    ⟨cfg.workload.valuesLength = 0, "workload.values.length must be >= 1"⟩,
    ⟨keyspace.format = .uuid && keyspace.length ≠ 36,
      "keyspace.format = uuid requires keyspace.length = 36"⟩] ++
  if keyspace.distribution = .zipf then
    let theta := keyspace.zipfTheta
    [⟨!theta.isFinite || theta.le (.finite 0) || F64.lt (.finite maxZipfTheta) theta,
      "keyspace.zipf_theta must be in (0, " ++ fmt.display (.finite maxZipfTheta) ++ "] (got " ++
      fmt.display theta ++ ")"⟩]
  else []

def allocationChecks : List Check :=
  if cfg.connection.endpointAllocation = .keyShare then
    let endpoints := cfg.target.endpoints.length
    [⟨cfg.workload.keyspace.distribution ≠ .zipf,
        "connection.endpoint_allocation = \"key_share\" requires " ++
        "keyspace.distribution = \"zipf\""⟩,
      ⟨1 < endpoints && cfg.connection.totalConnections < endpoints,
        "connection.endpoint_allocation = \"key_share\" requires connections >= " ++
        toString endpoints ++ ", the number of endpoints (validation runs before keys are " ++
        "assigned, so it counts endpoints that may own none)"⟩]
  else []

def routedChecks : List Check :=
  if cfg.workload.routing = .routed then
    let bad (refused : Bool) (why : String) : Check := ⟨refused, "routing = \"routed\" " ++ why⟩
    [bad (cfg.workload.rateLimit.getD 0 = 0 && cfg.workload.saturationSearch.isNone)
        ("needs workload.rate_limit > 0 or [workload.saturation_search]; " ++
          "closed-loop routing is not supported yet"),
      bad (!(cfg.target.protocol.isResp || cfg.target.protocol.isMemcache))
        "needs a RESP or memcache protocol",
      bad cfg.workload.kvReplay.isSome
        "does not apply to [workload.kv_replay], which sets its own requests",
      bad cfg.workload.traceReplay
        "does not apply to [workload.trace_replay], which sets its own requests",
      bad (cfg.connection.endpointAllocation = .keyShare)
        ("cannot be combined with connection.endpoint_allocation = \"key_share\"; " ++
          "routing already gives each node its key share of the rate")]
  else []

def recencyChecks : List Check :=
  let keyspace := cfg.workload.keyspace
  let isRecency := keyspace.distribution = .recency
  [⟨cfg.workload.append.isNone && isRecency,
      "keyspace.distribution = \"recency\" requires a [workload.append] section " ++
      "(it supplies the batch size the hot window is measured in)"⟩,
    ⟨cfg.workload.append.isSome && !isRecency,
      "[workload.append] requires keyspace.distribution = \"recency\" " ++
      "(the stationary distributions cannot follow a growing keyspace)"⟩] ++
  if isRecency then
    [⟨keyspace.hotGenerations = 0, "keyspace.hot_generations must be >= 1"⟩,
      ⟨!keyspace.hotDecay.isFinite || keyspace.hotDecay.le (.finite 0) ||
          F64.lt (.finite 1) keyspace.hotDecay,
        "keyspace.hot_decay must be in (0, 1] (got " ++ fmt.display keyspace.hotDecay ++ ")"⟩,
      ⟨!keyspace.hotFraction.isFinite ||
          !(F64.le (.finite 0) keyspace.hotFraction && keyspace.hotFraction.le (.finite 1)),
        "keyspace.hot_fraction must be in [0, 1] (got " ++ fmt.display keyspace.hotFraction ++
        ")"⟩,
      ⟨keyspace.count = 0, "keyspace.count must be >= 1 with distribution = \"recency\""⟩]
  else []

def appendChecks : List Check :=
  match cfg.workload.append with
  | none => []
  | some append =>
    let endpoints := cfg.target.endpoints.length
    [⟨append.batch = 0, "append.batch must be >= 1"⟩,
      ⟨append.every = 0, "append.every must be > 0"⟩,
      ⟨append.connections = 0, "append.connections must be >= 1"⟩,
      ⟨append.pipelineDepth = 0, "append.pipeline_depth must be >= 1"⟩,
      ⟨cfg.target.protocol = .ping,
        "[workload.append] needs a protocol with SET (resp, resp3, memcache, " ++
        "memcache-binary); ping has none"⟩,
      ⟨1 < endpoints && append.connections < endpoints,
        "append.connections (" ++ toString append.connections ++
        ") must be >= the number of endpoints (" ++ toString endpoints ++ ") so every " ++
        "node's append queue has a writer draining it"⟩]

def valueChecks : List Check :=
  let commands := cfg.workload.commands
  [⟨cfg.workload.readValues && cfg.target.protocol = .ping,
      "workload.read_values needs a protocol with GET (resp, resp3, memcache, " ++
      "memcache-binary); ping has none"⟩,
    ⟨cfg.workload.readValues && cfg.target.protocol = .dma,
      "workload.read_values does not apply to protocol = \"dma\"; use " ++
      "dma.checksum = true to checksum each value a GET returns"⟩,
    ⟨valuePoolSize < cfg.workload.valuesLength,
      "workload.values.length (" ++ toString cfg.workload.valuesLength ++
      ") exceeds the value pool size (" ++ toString valuePoolSize ++ ")"⟩,
    ⟨cfg.timestampsMode = .software,
      "timestamps.mode = \"software\" (kernel SO_TIMESTAMPING) was removed: ringline " ++
      "no longer has a kernel receive-timestamp mode. Use \"userspace\" or omit " ++
      "the key; latency is timed with the userspace clock"⟩,
    ⟨commands.get = 0 && commands.set = 0 && commands.delete = 0,
      "at least one command ratio (get, set, delete) must be > 0"⟩]

/-- The options a replay cannot be combined with, by the names its message gives them. -/
def exclusions (bad : Bool → String → Check) (options : List (Bool × String)) : List Check :=
  options.map fun option => bad option.1 ("cannot be combined with " ++ option.2)

def singleEndpoint (bad : Bool → String → Check) : Check :=
  bad (cfg.target.cluster || 1 < cfg.target.endpoints.length)
    "needs a single endpoint; cluster and multi-endpoint routing are not supported"

def kvReplayChecks : List Check :=
  match cfg.workload.kvReplay with
  | none => []
  | some kv =>
    let w := cfg.workload
    let bad (refused : Bool) (why : String) : Check := ⟨refused, "workload.kv_replay: " ++ why⟩
    [bad (kv.modelConfig.isSome && kv.kvBytesPerToken.isSome)
        "set model_config or kv_bytes_per_token, not both",
      bad (kv.modelConfig.isNone && kv.kvBytesPerToken.isNone)
        "one of model_config or kv_bytes_per_token is required",
      bad (kv.modelConfig.isNone && kv.kvBytesPerToken = some 0)
        "kv_bytes_per_token must be >= 1",
      bad (kv.kvDtype.isSome && kv.modelConfig.isNone) "kv_dtype applies only with model_config",
      bad (kv.mla && kv.modelConfig.isSome)
        "mla applies only with kv_bytes_per_token; a model_config says it itself",
      bad (!kv.speedup.isFinite || kv.speedup.lt (.finite 0))
        ("speedup must be finite and >= 0 (0 = closed loop), got " ++ fmt.display kv.speedup),
      bad (kv.tp ≠ 1)
        ("tp must be 1, got " ++ toString kv.tp ++
          ": tensor parallelism needs one connection per rank, " ++
          "which kv_replay does not do yet (cachecannon#214)"),
      bad (cfg.connection.pipelineDepth = 0) "needs connection.pipeline_depth >= 1",
      bad (!cfg.target.protocol.isResp)
        "needs protocol resp or resp3 (it issues EXISTS, GET and SET)",
      singleEndpoint cfg bad] ++
    exclusions bad
      [(w.rateLimit.any (0 < ·), "rate_limit"),
        (w.saturationSearch.isSome, "[workload.saturation_search]"),
        (w.prefill, "prefill"),
        (w.backfillOnMiss, "backfill_on_miss"),
        (w.readValues, "read_values"),
        (w.append.isSome, "[workload.append]")]

def traceReplayChecks : List Check :=
  if cfg.workload.traceReplay then
    let w := cfg.workload
    let bad (refused : Bool) (why : String) : Check := ⟨refused, "workload.trace_replay: " ++ why⟩
    [bad (!cfg.target.protocol.isResp) "needs protocol resp or resp3",
      singleEndpoint cfg bad] ++
    exclusions bad
      [(w.saturationSearch.isSome, "[workload.saturation_search]"),
        (w.prefill, "prefill"),
        (w.readValues, "read_values"),
        (w.append.isSome, "[workload.append]"),
        (w.kvReplay.isSome, "[workload.kv_replay]")]
  else []

def saturationChecks : List Check :=
  match cfg.workload.saturationSearch with
  | none => []
  | some sat =>
    [⟨sat.startRate = 0, "saturation_search.start_rate must be > 0"⟩,
      ⟨sat.stepMultiplier.le (.finite 1), "saturation_search.step_multiplier must be > 1.0"⟩,
      ⟨!(F64.le (.finite 0) sat.minThroughputRatio && sat.minThroughputRatio.le (.finite 1)),
        "saturation_search.min_throughput_ratio must be between 0.0 and 1.0"⟩,
      ⟨sat.sloP50.isNone && sat.sloP99.isNone && sat.sloP999.isNone,
        "saturation_search.slo must have at least one threshold (p50, p99, or p999)"⟩]

/-- All checks of `Config::validate`, in order. -/
def checks (dmaFeature : Bool) : List Check :=
  [targetChecks cfg, prefillPaceChecks fmt cfg, recvChecks cfg, tlsChecks cfg,
    dmaChecks cfg dmaFeature, respModuleChecks cfg, keyspaceChecks fmt cfg, allocationChecks cfg,
    routedChecks cfg, recencyChecks fmt cfg, appendChecks cfg, valueChecks cfg,
    kvReplayChecks fmt cfg, traceReplayChecks cfg, saturationChecks cfg].flatten

def validate (dmaFeature : Bool) : Except ConfigError Unit :=
  firstRefused (checks fmt cfg dmaFeature)

end Sections

/-! ## Accepted configurations -/

/-- **A configuration is accepted** exactly when no check refuses it. -/
theorem firstRefused_ok_iff (checks : List Check) :
    firstRefused checks = .ok () ↔ ∀ check ∈ checks, check.refused = false := by
  induction checks with
  | nil => simp [firstRefused]
  | cons check checks ih =>
    simp only [firstRefused, List.forall_mem_cons]
    cases check.refused with
    | true => simp
    | false => simpa using ih

section Accepted

variable {fmt : F64Format} {cfg : Config} {dmaFeature : Bool}
  (h : validate fmt cfg dmaFeature = .ok ())

include h

/-- The checks of a section of an accepted configuration do not refuse. -/
theorem accepted (part : List Check)
    (hpart : part ∈ [targetChecks cfg, prefillPaceChecks fmt cfg, recvChecks cfg, tlsChecks cfg,
      dmaChecks cfg dmaFeature, respModuleChecks cfg, keyspaceChecks fmt cfg, allocationChecks cfg,
      routedChecks cfg, recencyChecks fmt cfg, appendChecks cfg, valueChecks cfg,
      kvReplayChecks fmt cfg, traceReplayChecks cfg, saturationChecks cfg]) :
    ∀ check ∈ part, check.refused = false := fun check hcheck =>
  (firstRefused_ok_iff _).1 h check (List.mem_flatten.2 ⟨part, hpart, hcheck⟩)

/-- A `uuid` key has the length of a UUID. -/
theorem accepted_uuid (huuid : cfg.workload.keyspace.format = .uuid) :
    cfg.workload.keyspace.length = 36 := by
  have hpart := accepted h (keyspaceChecks fmt cfg) (by simp)
  simp only [keyspaceChecks, List.forall_mem_append, List.forall_mem_cons] at hpart
  simpa [huuid] using hpart.1.2.2.1

theorem accepted_threads : 1 ≤ cfg.general.threads := by
  have hpart := accepted h (targetChecks cfg) (by simp)
  simp only [targetChecks, List.forall_mem_append, List.forall_mem_cons] at hpart
  exact Nat.pos_of_ne_zero (by simpa using hpart.1.2.1)

theorem accepted_connections : 1 ≤ cfg.connection.totalConnections := by
  have hpart := accepted h (keyspaceChecks fmt cfg) (by simp)
  simp only [keyspaceChecks, List.forall_mem_append, List.forall_mem_cons] at hpart
  exact Nat.pos_of_ne_zero (by simpa using hpart.1.1)

/-- Routed requests do not go with connections by key share. -/
theorem accepted_routed (hrouted : cfg.workload.routing = .routed) :
    cfg.connection.endpointAllocation ≠ .keyShare := by
  have hpart := accepted h (routedChecks cfg) (by simp)
  simp only [routedChecks, hrouted, if_true, List.forall_mem_cons] at hpart
  simpa using hpart.2.2.2.2.1

/-- An append stream has a writer, and its protocol has a SET for it. -/
theorem accepted_append {append : Append} (happend : cfg.workload.append = some append) :
    1 ≤ append.connections ∧ cfg.target.protocol ≠ .ping ∧ cfg.target.protocol ≠ .dma := by
  have hpart := accepted h (appendChecks cfg) (by simp)
  have hdma := accepted h (dmaChecks cfg dmaFeature) (by simp)
  simp only [appendChecks, happend, List.forall_mem_cons] at hpart
  obtain ⟨-, -, hconnections, -, hping, -⟩ := hpart
  refine ⟨Nat.pos_of_ne_zero (by simpa using hconnections), by simpa using hping,
    fun hprotocol => ?_⟩
  cases dmaFeature with
  | false => simp [dmaChecks, hprotocol] at hdma
  | true => simp [dmaChecks, hprotocol, happend] at hdma

/-- A recency distribution has an append batch, and its parameters are those its sampler asserts. -/
theorem accepted_recency (hrecency : cfg.workload.keyspace.distribution = .recency) :
    let keyspace := cfg.workload.keyspace
    (∃ append, cfg.workload.append = some append ∧ 1 ≤ append.batch) ∧
      1 ≤ keyspace.hotGenerations ∧
      (∃ decay, keyspace.hotDecay = .finite decay ∧ 0 < decay ∧ decay ≤ 1) ∧
      (∃ fraction, keyspace.hotFraction = .finite fraction ∧ 0 ≤ fraction ∧ fraction ≤ 1) ∧
      1 ≤ keyspace.count := by
  have hpart := accepted h (recencyChecks fmt cfg) (by simp)
  simp only [recencyChecks, hrecency, decide_true, if_true, Bool.and_true, List.forall_mem_append,
    List.forall_mem_cons] at hpart
  obtain ⟨⟨hsome, -⟩, hgenerations, hdecay, hfraction, hcount, -⟩ := hpart
  obtain ⟨append, happend⟩ := Option.isSome_iff_exists.1 (by simpa using hsome)
  have hbatch := accepted h (appendChecks cfg) (by simp)
  simp only [appendChecks, happend, List.forall_mem_cons] at hbatch
  refine ⟨⟨append, happend, Nat.pos_of_ne_zero (by simpa using hbatch.1)⟩,
    Nat.pos_of_ne_zero (by simpa using hgenerations), ?_, ?_,
    Nat.pos_of_ne_zero (by simpa using hcount)⟩
  · cases hq : cfg.workload.keyspace.hotDecay with
    | finite decay =>
      exact ⟨decay, rfl, by
        simpa [hq, F64.isFinite, F64.le, F64.lt, Rat.not_le, Rat.not_lt] using hdecay⟩
    | nan | negInf | posInf => simp [hq, F64.isFinite] at hdecay
  · cases hq : cfg.workload.keyspace.hotFraction with
    | finite fraction => exact ⟨fraction, rfl, by simpa [hq, F64.isFinite, F64.le] using hfraction⟩
    | nan | negInf | posInf => simp [hq, F64.isFinite] at hfraction

/-- The exponent of a zipf distribution is positive. -/
theorem accepted_zipf (hzipf : cfg.workload.keyspace.distribution = .zipf) :
    ∃ theta, cfg.workload.keyspace.zipfTheta = .finite theta ∧ 0 < theta := by
  have hpart := accepted h (keyspaceChecks fmt cfg) (by simp)
  simp only [keyspaceChecks, hzipf, if_true, List.forall_mem_append, List.forall_mem_cons] at hpart
  have htheta := hpart.2.1
  cases hq : cfg.workload.keyspace.zipfTheta with
  | finite theta =>
    simp only [hq, F64.isFinite, F64.le, F64.lt, Bool.or_eq_false_iff, decide_eq_false_iff_not,
      Rat.not_le] at htheta
    exact ⟨theta, rfl, htheta.1.2⟩
  | nan | negInf | posInf => simp [hq, F64.isFinite] at htheta

end Accepted

/-- One endpoint and one connection, and nothing that is optional. -/
def minimal : Config where
  general := ⟨1, none, none⟩
  target := ⟨[.v4 [127, 0, 0, 1] 6379], .resp, false, none, none, none, false, false⟩
  connection := ⟨1, none, 1, .even, none⟩
  workload := {
    rateLimit := none
    prefillRateLimit := none
    prefill := false
    prefillTimeout := 0
    backfillOnMiss := false
    routing := .pinned
    readValues := false
    keyspace := ⟨16, 1000000, .uniform, .finite 1, .hex, 24, .finite 1, .finite 1⟩
    commands := ⟨80, 20, 0⟩
    valuesLength := 64
    saturationSearch := none
    append := none
    kvReplay := none
    traceReplay := false }
  timestampsMode := .userspace
  dmaBufferCapacity := none
  respModule := .none

end Config
