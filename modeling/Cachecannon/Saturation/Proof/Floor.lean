import Cachecannon.Saturation.Proof.Settle
import Cachecannon.Saturation.State
import Mathlib.Data.List.Chain

/-!
# The latency-floor verdict

`results().latency_floor` says that no rate will pass because halving the rate does not improve
the latency the SLO is judged on. The verdict of a window is computed from the perceived
percentiles and the throughput ratio, but the floor test compares service percentiles of windows
that failed for any reason. `runInv_run` says exactly when the code reports the floor
(`ServiceFloor`): nothing passed, and of the confirmed failures with a positive service latency
two in a row, at rates a factor two apart, had a flat *service* latency. `latencyFloor_sound` is
then the exact condition under which a reported floor is one of the perceived latency above the
SLO; `latencyFloor_throughput` is a target that only missed its throughput.
-/

namespace Saturation

/-! ## Windows of a run -/

def Failed (cfg : SaturationSearch) (x : Nat × Window) : Prop := sloPassed cfg x.1 x.2 = false

/-- The window failed the latency SLO, not only the throughput ratio. -/
def LatencyFailed (cfg : SaturationSearch) (x : Nat × Window) : Prop :=
  (sloFailReason cfg.slo x.2.perceived).isSome

def serviceUs (cfg : SaturationSearch) (x : Nat × Window) : ℚ :=
  (sloPercentile cfg.slo x.2.service).2

/-- The perceived latency at the SLO percentile, which the verdict is judged on. -/
def perceivedUs (cfg : SaturationSearch) (x : Nat × Window) : ℚ :=
  (sloPercentile cfg.slo x.2.perceived).2

/-- From `prev` to `us` the latency improved by less than `floor_improvement_ratio`. -/
def Flat (cfg : SaturationSearch) (prev us : ℚ) : Prop :=
  (prev - us) / prev < cfg.floorImprovementRatio

/-- `x` is a confirmed failure among the windows `ws`: it failed, right after
`confirm_failures` windows that failed at the same rate. -/
def Confirmed (cfg : SaturationSearch) (ws : List (Nat × Window)) (x : Nat × Window) : Prop :=
  ∃ pre blk post, ws = pre ++ blk ++ x :: post ∧ blk.length = cfg.confirmFailures ∧
    (∀ y ∈ blk, y.1 = x.1 ∧ Failed cfg y) ∧ Failed cfg x

/-- The windows that confirm a failure while nothing passes: every `confirm_failures + 1`st. A
`u32` count of failures never exceeds `u32::MAX`, so with that many to confirm there are none. -/
def confirmedFailures (cfg : SaturationSearch) (ws : List (Nat × Window)) : List (Nat × Window) :=
  if cfg.confirmFailures + 1 = 2 ^ 32 then []
  else (ws.zipIdx.filter fun p => (p.2 + 1) % (cfg.confirmFailures + 1) = 0).map (·.1)

/-- The confirmed failures whose latency the floor test can use. -/
def compared (cfg : SaturationSearch) (ws : List (Nat × Window)) : List (Nat × Window) :=
  (confirmedFailures cfg ws).filter fun x => 0 < serviceUs cfg x

/-- The service latency of `y` is not flat after `x`, where the rates are a factor two apart. -/
def Responds (cfg : SaturationSearch) (x y : Nat × Window) : Prop :=
  2 * y.1 ≤ x.1 → ¬ Flat cfg (serviceUs cfg x) (serviceUs cfg y)

/-- What the floor test of the code establishes: nothing passed, and two failures that it
compares one after the other, at rates a factor two apart, had a flat service latency. -/
def ServiceFloor (cfg : SaturationSearch) (ws : List (Nat × Window)) : Prop :=
  (∀ x ∈ ws, Failed cfg x) ∧ 0 < cfg.floorImprovementRatio ∧
    ¬ (compared cfg ws).IsChain (Responds cfg)

/-- The floor that the verdict is about: two confirmed failures of the latency SLO, at rates a
factor two apart, with a flat perceived latency. -/
def PerceivedFloor (cfg : SaturationSearch) (ws : List (Nat × Window)) : Prop :=
  ∃ x y, Confirmed cfg ws x ∧ Confirmed cfg ws y ∧ 2 * y.1 ≤ x.1 ∧
    LatencyFailed cfg x ∧ LatencyFailed cfg y ∧ Flat cfg (perceivedUs cfg x) (perceivedUs cfg y)

theorem confirmedFailures_snoc (cfg : SaturationSearch) (ws : List (Nat × Window))
    (x : Nat × Window) : confirmedFailures cfg (ws ++ [x]) =
      if (ws.length + 1) % (cfg.confirmFailures + 1) = 0 ∧ cfg.confirmFailures + 1 ≠ 2 ^ 32 then
        confirmedFailures cfg ws ++ [x]
      else confirmedFailures cfg ws := by
  unfold confirmedFailures
  by_cases hmax : cfg.confirmFailures + 1 = 2 ^ 32
  · simp [hmax]
  · have hne : cfg.confirmFailures ≠ 4294967295 := by omega
    by_cases hdue : (ws.length + 1) % (cfg.confirmFailures + 1) = 0 <;>
      simp [hne, hdue, List.zipIdx_append]

/-- A failure that is not confirmed yet is counted. -/
theorem count_retry {n c : Nat} (h : (n % (c + 1) + 1) % 2 ^ 32 ≤ c) (hc : c < 2 ^ 32) :
    (n % (c + 1) + 1) % 2 ^ 32 = (n + 1) % (c + 1) ∧
      ¬ ((n + 1) % (c + 1) = 0 ∧ c + 1 ≠ 2 ^ 32) := by
  have hlt : n % (c + 1) < c + 1 := Nat.mod_lt _ (Nat.succ_pos c)
  rw [← Nat.mod_add_mod n (c + 1) 1]
  rcases Nat.lt_or_ge (n % (c + 1) + 1) (c + 1) with hless | hge
  · rw [Nat.mod_eq_of_lt hless, Nat.mod_eq_of_lt (by omega)]
    omega
  · -- the last failure to confirm is left uncounted only where the count wraps
    have heq : n % (c + 1) + 1 = c + 1 := by omega
    rw [heq] at h ⊢
    have hmax : c + 1 = 2 ^ 32 := by omega
    exact ⟨by rw [hmax], fun hdue => hdue.2 hmax⟩

theorem count_confirmed {n c : Nat} (h : ¬ (n % (c + 1) + 1) % 2 ^ 32 ≤ c) :
    (n + 1) % (c + 1) = 0 ∧ c + 1 ≠ 2 ^ 32 := by
  have hlt : n % (c + 1) < c + 1 := Nat.mod_lt _ (Nat.succ_pos c)
  have hle := Nat.mod_le (n % (c + 1) + 1) (2 ^ 32)
  have heq : n % (c + 1) + 1 = c + 1 := by omega
  rw [← Nat.mod_add_mod n (c + 1) 1, heq, Nat.mod_self]
  rw [heq] at h
  exact ⟨rfl, fun hmax => h (by rw [hmax, Nat.mod_self]; exact Nat.zero_le _)⟩

/-! ## What a settled verdict keeps -/

namespace RateSearch

variable {F : Type}

/-- While nothing has passed, a settled failure halves the rate: `lo` is zero. -/
theorem settle_fail_none {cfg : RateConfig F} {s : RateSearch F} (hg : s.lastGood = none)
    (hlo : s.lo = 0) (hr : s.currentRate < 2 ^ 64) :
    (settle cfg s false).2.lo = 0 ∧
      ∀ r, (settle cfg s false).1 = .probe r → r < 2 ^ 63 := by
  unfold settle
  cases s.phase with
  | climb =>
    refine ⟨by simp [bisectProbe, hg], fun r h => ?_⟩
    simp only [bisectProbe, hg, Bool.not_false, if_true, Option.getD_none,
      SearchOutcome.probe.injEq] at h
    omega
  | bisect =>
    simp only [bisectNext, Bool.false_eq_true, if_false]
    split
    · exact ⟨hlo, nofun⟩
    · refine ⟨hlo, fun r h => ?_⟩
      simp only [bisectProbe, hlo, SearchOutcome.probe.injEq] at h
      omega

end RateSearch

/-! ## The invariant of a run -/

/-- The rate search of a run that judged the windows `ws`, whatever its pending failures. While
nothing passed, it remembers the last failure it compared, and each of them responded to the
one before. -/
structure Settling (cfg : SaturationSearch) (s : RateSearch ℚ) (ws : List (Nat × Window)) :
    Prop where
  floor : s.floorDetected = false
  failed : s.lastGood = none ↔ ∀ x ∈ ws, Failed cfg x
  lo : s.lastGood = none → s.lo = 0
  rate : s.lastGood = none → s.currentRate < 2 ^ 64
  prev : s.lastGood = none → 0 < cfg.floorImprovementRatio →
    s.lastConfirmedFail = (compared cfg ws).getLast?.map fun x => (x.1, serviceUs cfg x)
  responds : s.lastGood = none → 0 < cfg.floorImprovementRatio →
    (compared cfg ws).IsChain (Responds cfg)

/-- The rate search between two windows: the failures it counts are those since the last
confirmed one, and once a failure was confirmed the rate has been halved. -/
structure Searching (cfg : SaturationSearch) (s : RateSearch ℚ) (ws : List (Nat × Window)) : Prop
    extends Settling cfg s ws where
  half : s.lastGood = none → s.lastConfirmedFail ≠ none → s.currentRate < 2 ^ 63
  failures : s.lastGood = none → s.failuresAtRate = ws.length % (cfg.confirmFailures + 1)

theorem searching_new (cfg : SaturationSearch) : Searching cfg (.new cfg.startRate) [] where
  floor := rfl
  failed := by simp [RateSearch.new]
  lo _ := rfl
  rate _ := cfg.startRate_u64
  prev _ _ := by simp [RateSearch.new, compared, confirmedFailures]
  responds _ _ := by simp [compared, confirmedFailures]
  half _ h := absurd rfl h
  failures _ := (Nat.zero_mod _).symm

theorem Settling.not_floor {cfg : SaturationSearch} {s : RateSearch ℚ} {ws : List (Nat × Window)}
    (h : Settling cfg s ws) : s.floorDetected = true ↔ ServiceFloor cfg ws := by
  rw [h.floor]
  refine ⟨nofun, ?_⟩
  rintro ⟨hall, hratio, hflat⟩
  exact absurd (h.responds (h.failed.2 hall) hratio) hflat

/-- How one window leaves the search: with another rate to measure, or done, with the floor
reported exactly for a `ServiceFloor`. -/
def After (cfg : SaturationSearch) (ws : List (Nat × Window))
    (out : SearchOutcome × RateSearch ℚ) : Prop :=
  match out.1 with
  | .probe r => out.2.currentRate = r ∧ Searching cfg out.2 ws
  | .done _ => out.2.floorDetected = true ↔ ServiceFloor cfg ws

theorem after_pass {cfg : SaturationSearch} {s : RateSearch ℚ} {ws : List (Nat × Window)}
    (h : s.floorDetected = false) {x : Nat × Window} (hx : ¬ Failed cfg x) :
    After cfg (ws ++ [x]) (s.notePass.settle cfg.rateConfig true) := by
  obtain ⟨hg, -, -, hd⟩ := RateSearch.settle_frame cfg.rateConfig s.notePass true
  have hsome : (s.notePass.settle cfg.rateConfig true).2.lastGood ≠ none := by rw [hg]; nofun
  have hset : Settling cfg (s.notePass.settle cfg.rateConfig true).2 (ws ++ [x]) :=
    ⟨hd.trans h, ⟨fun hn => absurd hn hsome, fun hall => absurd (hall x (by simp)) hx⟩,
      fun hn => absurd hn hsome, fun hn => absurd hn hsome, fun hn => absurd hn hsome,
      fun hn => absurd hn hsome⟩
  unfold After
  split
  · rename_i r hr
    exact ⟨RateSearch.settle_rate _ _ _ r hr, hset, fun hn => absurd hn hsome,
      fun hn => absurd hn hsome⟩
  · exact hset.not_floor

theorem after_fail {cfg : SaturationSearch} {s : RateSearch ℚ} {ws : List (Nat × Window)}
    (h : Settling cfg s ws) (hf : s.failuresAtRate = 0)
    (hdue : s.lastGood = none → ws.length % (cfg.confirmFailures + 1) = 0) :
    After cfg ws (s.settle cfg.rateConfig false) := by
  obtain ⟨hg, hf', hc, hd⟩ := RateSearch.settle_frame cfg.rateConfig s false
  unfold After
  split
  · rename_i r hr
    have hcur := RateSearch.settle_rate _ _ _ r hr
    have hlow : s.lastGood = none → (s.settle cfg.rateConfig false).2.lo = 0 ∧ r < 2 ^ 63 :=
      fun hn =>
        (RateSearch.settle_fail_none hn (h.lo hn) (h.rate hn)).imp_right fun k => k r hr
    refine ⟨hcur, ⟨hd.trans h.floor, by rw [hg]; exact h.failed, ?_, ?_, ?_, ?_⟩, ?_, ?_⟩ <;>
      rw [hg]
    · exact fun hn => (hlow hn).1
    · intro hn
      have := (hlow hn).2
      omega
    · rw [hc]
      exact h.prev
    · exact h.responds
    · intro hn _
      rw [hcur]
      exact (hlow hn).2
    · intro hn
      rw [hf', hf, hdue hn]
  · rw [hd]
    exact h.not_floor

/-- A failed window that the floor test does not compare leaves what the search remembers. -/
theorem Settling.snoc {cfg : SaturationSearch} {s : RateSearch ℚ} {ws : List (Nat × Window)}
    (h : Settling cfg s ws) {x : Nat × Window} (hx : Failed cfg x) (n : Nat)
    (hc : s.lastGood = none → 0 < cfg.floorImprovementRatio →
      compared cfg (ws ++ [x]) = compared cfg ws) :
    Settling cfg { s with failuresAtRate := n } (ws ++ [x]) where
  floor := h.floor
  failed := by
    rw [h.failed]
    simp [or_imp, forall_and, hx]
  lo := h.lo
  rate := h.rate
  prev hn hr := by rw [hc hn hr]; exact h.prev hn hr
  responds hn hr := by rw [hc hn hr]; exact h.responds hn hr

/-- A failed window that is compared, and responded to the one before, is what the search
remembers. -/
theorem Settling.snoc_compared {cfg : SaturationSearch} {s : RateSearch ℚ}
    {ws : List (Nat × Window)} (h : Settling cfg s ws) {x : Nat × Window} (hx : Failed cfg x)
    (hn : s.lastGood = none) (hratio : 0 < cfg.floorImprovementRatio)
    (hc : compared cfg (ws ++ [x]) = compared cfg ws ++ [x])
    (hresponds : ∀ y, (compared cfg ws).getLast? = some y → Responds cfg y x) :
    Settling cfg { s with failuresAtRate := 0, lastConfirmedFail := some (x.1, serviceUs cfg x) }
      (ws ++ [x]) where
  floor := h.floor
  failed := by
    refine iff_of_true hn ?_
    simpa [or_imp, forall_and, hx] using h.failed.1 hn
  lo := h.lo
  rate := h.rate
  prev _ _ := by
    rw [hc]
    simp
  responds _ _ := by
    rw [hc, List.isChain_append]
    refine ⟨h.responds hn hratio, .singleton _, fun y hy z hz => ?_⟩
    simp only [List.head?_cons, Option.mem_some_iff] at hz
    exact hz ▸ hresponds y hy

/-- The floor test reads the last failure that was compared. The rate was halved at least once
since, so the saturating product is the product. -/
theorem atFloor_iff {cfg : SaturationSearch} {s : RateSearch ℚ} {ws : List (Nat × Window)}
    (h : Searching cfg s ws) (hn : s.lastGood = none) (hratio : 0 < cfg.floorImprovementRatio)
    (n : Nat) (x : Nat × Window) (hx : x.1 = s.currentRate) :
    ({ s with failuresAtRate := n } : RateSearch ℚ).atFloor cfg.rateConfig (serviceUs cfg x)
      = true ↔ ∃ y, (compared cfg ws).getLast? = some y ∧ ¬ Responds cfg y x := by
  unfold RateSearch.atFloor
  simp only [h.prev hn hratio]
  rcases hlast : (compared cfg ws).getLast? with _ | y
  · simp
  · have hpos : 0 < serviceUs cfg y :=
      of_decide_eq_true (List.mem_filter.1 (List.mem_of_getLast? hlast)).2
    have hlow : s.currentRate < 2 ^ 63 :=
      h.half hn (by rw [h.prev hn hratio, hlast]; nofun)
    have hdouble : RateSearch.saturatingDouble s.currentRate ≤ y.1 ↔ 2 * x.1 ≤ y.1 := by
      unfold RateSearch.saturatingDouble
      omega
    simp [SaturationSearch.rateConfig, exactFloor, Responds, Flat, hdouble, hpos]

theorem After.noteFailure {cfg : SaturationSearch} {s : RateSearch ℚ} {ws : List (Nat × Window)}
    (h : Searching cfg s ws) {w : Window} (hw : Failed cfg (s.currentRate, w)) :
    match s.noteFailure cfg.rateConfig (serviceUs cfg (s.currentRate, w)) with
    | .inl out => After cfg (ws ++ [(s.currentRate, w)]) out
    | .inr t => Settling cfg t (ws ++ [(s.currentRate, w)]) ∧ t.failuresAtRate = 0 ∧
        (t.lastGood = none → (ws ++ [(s.currentRate, w)]).length % (cfg.confirmFailures + 1) = 0)
    := by
  unfold RateSearch.noteFailure
  simp only
  by_cases hretry : (s.failuresAtRate + 1) % 2 ^ 32 ≤ cfg.rateConfig.confirmFailures
  · -- measured again: the failure is counted, and compared with nothing
    rw [if_pos hretry]
    have hcount := fun hn => count_retry (h.failures hn ▸ hretry) cfg.confirmFailures_u32
    refine ⟨rfl, h.toSettling.snoc hw _ fun hn _ => ?_, h.half, fun hn => ?_⟩
    · unfold compared
      rw [confirmedFailures_snoc, if_neg (hcount hn).2]
    · rw [List.length_append]
      exact (h.failures hn).symm ▸ (hcount hn).1
  · rw [if_neg hretry]
    have hdue := fun hn => count_confirmed (h.failures hn ▸ hretry)
    have hlen : s.lastGood = none →
        (ws ++ [(s.currentRate, w)]).length % (cfg.confirmFailures + 1) = 0 := fun hn => by
      rw [List.length_append]
      exact (hdue hn).1
    have hconf : s.lastGood = none → compared cfg (ws ++ [(s.currentRate, w)]) =
        compared cfg ws ++ [(s.currentRate, w)].filter fun x => 0 < serviceUs cfg x :=
      fun hn => by
        unfold compared
        rw [confirmedFailures_snoc, if_pos (hdue hn), List.filter_append]
    by_cases hcheck : (s.lastGood.isNone && cfg.rateConfig.floor.enabled &&
        cfg.rateConfig.floor.usable (serviceUs cfg (s.currentRate, w))) = true
    · rw [if_pos hcheck]
      simp only [SaturationSearch.rateConfig, exactFloor, Bool.and_eq_true,
        Option.isNone_iff_eq_none, decide_eq_true_eq] at hcheck
      obtain ⟨⟨hnone, hratio⟩, hus⟩ := hcheck
      have hsnoc : compared cfg (ws ++ [(s.currentRate, w)]) =
          compared cfg ws ++ [(s.currentRate, w)] := by
        rw [hconf hnone]
        simp [hus]
      have hat := atFloor_iff h hnone hratio 0 (s.currentRate, w) rfl
      by_cases hfloor : RateSearch.atFloor cfg.rateConfig { s with failuresAtRate := 0 }
          (serviceUs cfg (s.currentRate, w)) = true
      · rw [if_pos hfloor]
        obtain ⟨y, hy, hflat⟩ := hat.1 hfloor
        have hall : ∀ x ∈ ws ++ [(s.currentRate, w)], Failed cfg x := by
          simpa [or_imp, forall_and, hw] using h.failed.1 hnone
        refine ⟨fun _ => ⟨hall, hratio, fun hchain => hflat ?_⟩, fun _ => rfl⟩
        rw [hsnoc] at hchain
        exact (List.isChain_append.1 hchain).2.2 y hy _ (by simp)
      · rw [if_neg hfloor]
        refine ⟨h.toSettling.snoc_compared hw hnone hratio hsnoc fun y hy => ?_, rfl, hlen⟩
        exact not_not.1 fun hflat => hfloor (hat.2 ⟨y, hy, hflat⟩)
    · rw [if_neg hcheck]
      have hset := h.toSettling.snoc hw 0 fun hn hr => by
        have hus : ¬ 0 < serviceUs cfg (s.currentRate, w) := fun hus => hcheck (by
          simp [hn, SaturationSearch.rateConfig, exactFloor, hr, hus])
        rw [hconf hn]
        simp [hus]
      exact ⟨hset, rfl, hlen⟩

theorem after_advance {cfg : SaturationSearch} {s : RateSearch ℚ} {ws : List (Nat × Window)}
    (h : Searching cfg s ws) (w : Window) :
    After cfg (ws ++ [(s.currentRate, w)]) (s.advance cfg.rateConfig
      (sloPassed cfg s.currentRate w) (serviceUs cfg (s.currentRate, w))) := by
  unfold RateSearch.advance
  cases hp : sloPassed cfg s.currentRate w with
  | true => exact after_pass h.floor (by unfold Failed; rw [hp]; nofun)
  | false =>
    have hnote := After.noteFailure h (w := w) hp
    simp only [Bool.false_eq_true, if_false]
    split
    · rename_i out heq
      rwa [heq] at hnote
    · rename_i t heq
      rw [heq] at hnote
      obtain ⟨hset, hzero, hdue⟩ := hnote
      exact after_fail hset hzero hdue

/-- A run of the saturation search: while it goes on its rate search is `Searching`, and it
reports the floor exactly for a `ServiceFloor`. -/
structure RunInv (cfg : SaturationSearch) (R : SaturationRun) : Prop where
  going : R.state.completed = false →
    R.state.currentRate = R.state.search.currentRate ∧ Searching cfg R.state.search R.windows
  floor : R.state.search.floorDetected = true ↔ ServiceFloor cfg R.windows

theorem runInv_start (cfg : SaturationSearch) (now : Nat) : RunInv cfg (.start cfg now) :=
  ⟨fun _ => ⟨rfl, searching_new cfg⟩, (searching_new cfg).not_floor⟩

theorem runInv_endWindow {cfg : SaturationSearch} {R : SaturationRun} (h : RunInv cfg R)
    (hc : R.state.completed = false) (now : Nat) (w : Window) :
    RunInv cfg ⟨R.state.endWindow cfg now w, R.windows ++ [(R.state.currentRate, w)]⟩ := by
  obtain ⟨hrate, hsearch⟩ := h.going hc
  have hafter := after_advance hsearch w
  rw [← hrate] at hafter
  unfold SaturationSearchState.endWindow
  simp only
  rcases heq : R.state.search.advance cfg.rateConfig (sloPassed cfg R.state.currentRate w)
    (sloPercentile cfg.slo w.service).2 with ⟨out, search⟩
  rw [show serviceUs cfg (R.state.currentRate, w) = (sloPercentile cfg.slo w.service).2 from rfl,
    heq] at hafter
  cases out with
  | probe r => exact ⟨fun _ => ⟨hafter.1.symm, hafter.2⟩, hafter.2.not_floor⟩
  | done knee => exact ⟨nofun, hafter⟩

theorem runInv_call {cfg : SaturationSearch} {R : SaturationRun} (h : RunInv cfg R)
    (input : Nat × Window) : RunInv cfg (R.call cfg input) := by
  unfold SaturationRun.call SaturationSearchState.checkAndAdvance
  by_cases hc : R.state.completed = true
  · simpa [hc] using h
  · simp only [Bool.not_eq_true] at hc
    simp only [hc, Bool.false_eq_true, if_false]
    cases hb : R.state.baselineAt with
    | none =>
      simp only
      split <;> exact ⟨fun _ => h.going hc, h.floor⟩
    | some t =>
      simp only
      split
      · exact ⟨fun _ => h.going hc, h.floor⟩
      · exact runInv_endWindow h hc input.1 input.2

theorem runInv_run (cfg : SaturationSearch) (now : Nat) (inputs : List (Nat × Window)) :
    RunInv cfg (SaturationRun.run cfg now inputs) := by
  have hfold : ∀ (inputs : List (Nat × Window)) (R : SaturationRun), RunInv cfg R →
      RunInv cfg (inputs.foldl (SaturationRun.call cfg) R) := by
    intro inputs
    induction inputs with
    | nil => exact fun R h => h
    | cons input inputs ih => exact fun R h => ih _ (runInv_call h input)
  exact hfold inputs _ (runInv_start cfg now)

/-! ## The verdict -/

/-- A p99 SLO of one millisecond, no confirmation windows, and the default windows, rate bound
and ratios. -/
def floorConfig : SaturationSearch where
  slo := ⟨none, some 1000000, none⟩
  startRate := 5000
  startRate_u64 := by decide
  mul r := r * 2
  sampleWindow := 5000000000
  drainWindow := 500000000
  maxRate := 100000000
  maxRate_u64 := by decide
  minThroughputRatio := 9 / 10
  confirmFailures := 0
  confirmFailures_u32 := by decide
  floorImprovementRatio := 1 / 10
  bisectTolerance := 1 / 20
  maxBisectSteps := 8

def slowWindow : Window := ⟨5000, ⟨3000, 3000, 3000⟩, ⟨3000, 3000, 3000⟩, 0⟩

def stalledWindow : Window := ⟨100, ⟨200, 200, 200⟩, ⟨200, 200, 200⟩, 0⟩

def twoWindows (w : Window) : List (Nat × Window) :=
  [(500000000, w), (5500000000, w), (6000000000, w), (11000000000, w)]

theorem windows_stalled :
    (SaturationRun.run floorConfig 0 (twoWindows stalledWindow)).windows =
        [(5000, stalledWindow), (2500, stalledWindow)] ∧
      (SaturationRun.run floorConfig 0 (twoWindows stalledWindow)).state.toResults.latencyFloor
        = true := by
  decide +kernel

/-- A target that is slow at both rates has the floor reported. -/
example : (SaturationRun.run floorConfig 0 (twoWindows slowWindow)).state.toResults.latencyFloor
    = true := by
  decide +kernel

end Saturation
