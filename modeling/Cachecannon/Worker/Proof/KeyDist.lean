import Cachecannon.Config.Validate
import Cachecannon.Worker.KeyDist
import Cachecannon.Worker.Proof.Recency

/-!
# Which accepted configurations can run

Validation bounds what the samplers assert, but for the size of the keyspace (`recency` apart), the
depth of the pipelines and the capacity of the generation weights; and it lets a prefill be asked of
a protocol whose tasks confirm no key (`accepted_runs_iff`).
-/

namespace Keydist

open Config (F64)
open Worker (RecencyDraw tryRandomRange vecFits)

variable {lib : ZipfDist} {fmt : Config.F64Format} {cfg : Config} {dmaFeature : Bool}

theorem Recency.new_eq {batch generations : Nat} {decay fraction : ℚ} (hbatch : 1 ≤ batch)
    (hgenerations : 1 ≤ generations) (hdecay : 0 < decay ∧ decay ≤ 1)
    (hfraction : 0 ≤ fraction ∧ fraction ≤ 1) :
    Recency.new batch generations (.finite decay) (.finite fraction) =
      if vecFits 8 generations then some ⟨batch, generations⟩ else none := by
  simp [Recency.new, hbatch, hgenerations, F64.isFinite, F64.lt, F64.le, hdecay, hfraction]

/-- The sampler draws ids below its size. -/
def Samples (dist : KeyDist lib) (head : Nat) : Prop :=
  ∀ draw, ∃ id < dist.len head, dist.sample head draw = some id

theorem samples_uniform {n : Nat} (head : Nat) :
    Samples (.uniform n : KeyDist lib) head ↔ 0 < n := by
  constructor
  · intro h
    obtain ⟨id, hid, -⟩ := h ⟨false, 0, 0⟩
    exact Nat.lt_of_le_of_lt (Nat.zero_le id) hid
  · intro hn draw
    refine ⟨Worker.randomRange 0 n draw.offset, ?_, Worker.tryRandomRange_eq _ hn⟩
    exact Worker.randomRange_lt hn

theorem samples_zipf {n : Nat} {theta : F64} {inner : lib.Inner} (hn : 0 < n) (head : Nat) :
    Samples (.zipf n theta inner) head := by
  intro draw
  refine ⟨_, ?_, rfl⟩
  simp only [KeyDist.len]
  omega

theorem samples_recency {r : Worker.Recency} {head : Nat} (hhead : 0 < head) :
    Samples (.recency r : KeyDist lib) head := fun draw =>
  ⟨r.sample head draw, r.sample_lt hhead draw, r.trySample_eq head draw⟩

/-- What a run needs of its configuration: a sampler that draws an id at every head from the
keyspace on, room for a batch on an idle connection, and a prefill that its tasks can confirm. -/
structure CanRun (lib : ZipfDist) (cfg : Config) : Prop where
  samples : ∃ dist, KeyDist.fromWorkload lib cfg.workload = some dist ∧
    ∀ head, cfg.workload.keyspace.count ≤ head → Samples dist head
  fires : ∀ dispatcher s, s.pending = 0 → Worker.wantFire (Runner.loopConfig cfg dispatcher) s
  prefills : cfg.workload.prefill → ∃ confirmed ≤ Runner.confirmable cfg,
    Runner.leavesPrefill (Runner.prefillKeysTotal cfg) confirmed

theorem wantFire_iff (cfg : Config) : (∀ dispatcher s, s.pending = 0 →
    Worker.wantFire (Runner.loopConfig cfg dispatcher) s) ↔ 1 ≤ cfg.connection.pipelineDepth := by
  constructor
  · intro h
    have hroom : cfg.effectiveBatchSize ≤ cfg.connection.pipelineDepth - 0 :=
      of_decide_eq_true (h false (.init []) rfl)
    have hpos := Runner.effectiveBatchSize_pos cfg
    omega
  · intro hdepth dispatcher s hpending
    simp only [Worker.wantFire, Runner.loopConfig, Config.effectiveBatchSize, hpending,
      decide_eq_true_eq]
    omega

theorem prefills_iff (hprefill : cfg.workload.prefill = true) :
    (∃ confirmed ≤ Runner.confirmable cfg,
      Runner.leavesPrefill (Runner.prefillKeysTotal cfg) confirmed) ↔
    1 ≤ cfg.workload.keyspace.count ∧ cfg.target.protocol ≠ .ping := by
  simp only [Runner.leavesPrefill, Runner.confirmable, Runner.prefillKeysTotal, hprefill, if_true,
    Bool.and_eq_true, decide_eq_true_eq]
  constructor
  · rintro ⟨confirmed, hle, hpos, hall⟩
    refine ⟨hpos, fun hping => ?_⟩
    rw [hping, Runner.drainsPrefill, if_neg Bool.false_ne_true] at hle
    exact absurd (hpos.trans_le (hall.trans hle)) (Nat.lt_irrefl 0)
  · rintro ⟨hcount, hping⟩
    have hdrains : Runner.drainsPrefill cfg.target.protocol = true := by
      cases hprotocol : cfg.target.protocol <;> first | rfl | exact absurd hprotocol hping
    exact ⟨_, by rw [hdrains, if_pos rfl], hcount, le_rfl⟩

theorem samples_iff (h : cfg.validate fmt dmaFeature = .ok ()) :
    (∃ dist, KeyDist.fromWorkload lib cfg.workload = some dist ∧
      ∀ head, cfg.workload.keyspace.count ≤ head → Samples dist head) ↔
    1 ≤ cfg.workload.keyspace.count ∧ (cfg.workload.keyspace.distribution = .recency →
      vecFits 8 cfg.workload.keyspace.hotGenerations) := by
  cases hdist : cfg.workload.keyspace.distribution with
  | uniform =>
    have hnew : KeyDist.fromWorkload lib cfg.workload =
        some (.uniform cfg.workload.keyspace.count) := by
      simp [KeyDist.fromWorkload, hdist]
    constructor
    · rintro ⟨dist, hdist', hall⟩
      obtain rfl := Option.some.inj (hnew.symm.trans hdist')
      exact ⟨(samples_uniform _).1 (hall _ le_rfl), fun hrecency => by cases hrecency⟩
    · rintro ⟨hcount, -⟩
      exact ⟨_, hnew, fun head _ => (samples_uniform head).2 hcount⟩
  | zipf =>
    obtain ⟨theta, htheta, hpos⟩ := Config.accepted_zipf h hdist
    constructor
    · rintro ⟨dist, hnew, -⟩
      simp only [KeyDist.fromWorkload, hdist, Zipfian.new] at hnew
      split at hnew
      · exact ⟨‹_›, fun hrecency => by cases hrecency⟩
      · cases hnew
    · rintro ⟨hcount, -⟩
      have hsome := lib.new_isSome _ theta (lib.one_le_asF64 _ hcount) hpos.le
      obtain ⟨inner, hinner⟩ := Option.isSome_iff_exists.1 hsome
      have hnew : KeyDist.fromWorkload lib cfg.workload =
          some (.zipf cfg.workload.keyspace.count (.finite theta) inner) := by
        simp [KeyDist.fromWorkload, hdist, htheta, Zipfian.new, hcount, hinner]
      exact ⟨_, hnew, fun head _ => samples_zipf hcount head⟩
  | recency =>
    obtain ⟨⟨append, happend, hbatch⟩, hgenerations, ⟨decay, hdecay, hdecayBounds⟩,
      ⟨fraction, hfraction, hfractionBounds⟩, hcount⟩ := Config.accepted_recency h hdist
    have hnew : KeyDist.fromWorkload lib cfg.workload =
        if vecFits 8 cfg.workload.keyspace.hotGenerations then
          some (.recency ⟨append.batch, cfg.workload.keyspace.hotGenerations⟩)
        else none := by
      simp only [KeyDist.fromWorkload, hdist, happend, hdecay, hfraction, Option.map_some,
        Option.bind_some, Recency.new_eq hbatch hgenerations hdecayBounds hfractionBounds]
      split <;> rfl
    rw [hnew]
    constructor
    · rintro ⟨dist, hdist', -⟩
      split at hdist'
      · exact ⟨hcount, fun _ => ‹_›⟩
      · cases hdist'
    · rintro ⟨-, hfits⟩
      exact ⟨_, if_pos (hfits rfl), fun head hhead => samples_recency (hcount.trans hhead)⟩

/-- **Accepted configurations.** One can run exactly when its keyspace and its pipelines are not
empty, the weights of its generations fit in a `Vec`, and a prefill is not asked of `ping`. -/
theorem accepted_runs_iff (lib : ZipfDist) (fmt : Config.F64Format) (cfg : Config)
    (dmaFeature : Bool) (h : cfg.validate fmt dmaFeature = .ok ()) :
    CanRun lib cfg ↔ 1 ≤ cfg.workload.keyspace.count ∧ 1 ≤ cfg.connection.pipelineDepth ∧
      (cfg.workload.keyspace.distribution = .recency →
        vecFits 8 cfg.workload.keyspace.hotGenerations) ∧
      (cfg.workload.prefill → cfg.target.protocol ≠ .ping) := by
  constructor
  · intro hrun
    obtain ⟨hcount, hfits⟩ := (samples_iff h).1 hrun.samples
    exact ⟨hcount, (wantFire_iff cfg).1 hrun.fires, hfits,
      fun hprefill => ((prefills_iff hprefill).1 (hrun.prefills hprefill)).2⟩
  · rintro ⟨hcount, hdepth, hfits, hping⟩
    exact ⟨(samples_iff h).2 ⟨hcount, hfits⟩, (wantFire_iff cfg).2 hdepth,
      fun hprefill => (prefills_iff hprefill).2 ⟨hcount, hping hprefill⟩⟩

/-- Exact casts, and a sampler that gives every rank. -/
def exactZipf : ZipfDist where
  Inner := ℚ
  asF64 n := n
  one_le_asF64 n h := by exact_mod_cast h
  new n s := if 1 ≤ n ∧ F64.le (.finite 0) s then some n else none
  new_isSome n s hn hs := by simp [F64.le, hn, hs]
  sample n seed := .finite (1 + (seed % n.floor.toNat : Nat))

/-- The defaults of a configuration with a prefill. -/
def prefilled : Config :=
  { Config.minimal with workload := { Config.minimal.workload with prefill := true } }

theorem accepted_runs_minimal : CanRun exactZipf prefilled :=
  (accepted_runs_iff exactZipf .exact prefilled false rfl).2
    ⟨by decide, by decide, nofun, fun _ => by decide⟩

/-- An empty keyspace, pipelines of no depth and a prefill over `ping` are accepted, and none of
them can run. -/
theorem accepted_not_runs :
    let empty : Config := { Config.minimal with workload := { Config.minimal.workload with
      keyspace := { Config.minimal.workload.keyspace with count := 0 } } }
    let noDepth : Config := { Config.minimal with connection := { Config.minimal.connection with
      pipelineDepth := 0 } }
    let ping : Config := { prefilled with target := { prefilled.target with protocol := .ping } }
    (empty.validate .exact false = .ok () ∧ ¬ CanRun exactZipf empty) ∧
      (noDepth.validate .exact false = .ok () ∧ ¬ CanRun exactZipf noDepth) ∧
      ping.validate .exact false = .ok () ∧ ¬ CanRun exactZipf ping := by
  refine ⟨⟨rfl, fun hrun => ?_⟩, ⟨rfl, fun hrun => ?_⟩, rfl, fun hrun => ?_⟩
  · obtain ⟨dist, hnew, hall⟩ := hrun.samples
    obtain rfl := Option.some.inj hnew
    exact absurd ((samples_uniform 0).1 (hall 0 le_rfl)) (by decide)
  · exact absurd ((wantFire_iff _).1 hrun.fires) (by decide)
  · exact ((prefills_iff rfl).1 (hrun.prefills rfl)).2 rfl

end Keydist
