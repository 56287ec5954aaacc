import Cachecannon.Saturation.Proof.Settle
import Cachecannon.Saturation.Proof.Sound
import Mathlib.Tactic.Linarith

/-!
# Convergence of the rate search on a threshold

A window at rate `r` passes iff `r ≤ K` (`threshold`), floor detection is off and the width test
is exact (`exactNarrow`). The search then ends with `max_rate`, or with a bracket of `K`
(`Converged`), whatever the start rate, the climb product and the caps are; with tolerance zero
and a cap of 65 steps the knee is `K`.

A passing rate is settled by one window and a failing rate by `confirm_failures + 1` of them
(`Eventually.pass`, `Eventually.fail`); this needs the failure count to be able to exceed the
budget, and at `confirm_failures = u32::MAX` it wraps instead: the first failing rate is measured
for ever (`stuck_measure`). `converges_iff` is the exact condition.
-/

namespace Saturation

/-- A window of a target whose knee is `K`, with an arbitrary latency. -/
def threshold {F : Type} (K : Nat) (lat : F) (r : Nat) : Bool × F := (decide (r ≤ K), lat)

namespace SearchRun

variable {F : Type} {cfg : RateConfig F} {K : Nat}

def feedThreshold (cfg : RateConfig F) (K : Nat) (R : SearchRun F) (lats : List F) : SearchRun F :=
  feed cfg R (lats.map (threshold K))

/-- Enough windows, whatever their latencies, bring the run into `P`. -/
def Eventually (cfg : RateConfig F) (K : Nat) (P : SearchRun F → Prop) (R : SearchRun F) : Prop :=
  ∃ n, ∀ lats : List F, n ≤ lats.length → P (feedThreshold cfg K R lats)

theorem Eventually.of_done {P : SearchRun F → Prop} {R : SearchRun F} {k : Option Nat}
    (h : R.last = .done k) (hP : P R) : Eventually cfg K P R :=
  ⟨0, fun _ _ => by rw [feedThreshold, feed_done h]; exact hP⟩

theorem Eventually.step {P : SearchRun F → Prop} {R R' : SearchRun F} (n : Nat)
    (h : ∀ lats : List F, lats.length = n → feedThreshold cfg K R lats = R')
    (hP : Eventually cfg K P R') : Eventually cfg K P R := by
  obtain ⟨m, hm⟩ := hP
  refine ⟨n + m, fun lats hl => ?_⟩
  have hsplit : feedThreshold cfg K R lats =
      feedThreshold cfg K (feedThreshold cfg K R (lats.take n)) (lats.drop n) := by
    simp only [feedThreshold, feed, ← List.foldl_append, ← List.map_append, List.take_append_drop]
  rw [hsplit, h _ (by simp; omega)]
  exact hm _ (by simp; omega)

theorem Eventually.pass {P : SearchRun F → Prop} {R : SearchRun F} {r : Nat}
    (hl : R.last = .probe r) (hr : r ≤ K)
    (hP : Eventually cfg K P (settled cfg R R.state.notePass 1 r true)) :
    Eventually cfg K P R := by
  refine .step 1 (fun lats hn => ?_) hP
  obtain ⟨lat, rfl⟩ := List.length_eq_one_iff.1 hn
  exact measure_pass hl (decide_eq_true hr)

theorem Eventually.fail {P : SearchRun F → Prop} (hoff : cfg.floor.enabled = false)
    (hc : cfg.confirmFailures + 1 < 2 ^ 32) {R : SearchRun F} {r : Nat} (hr : K < r)
    (hl : R.last = .probe r) (hcur : R.state.currentRate = r) (hf : R.state.failuresAtRate = 0)
    (hP : Eventually cfg K P (settled cfg R R.state (cfg.confirmFailures + 1) r false)) :
    Eventually cfg K P R := by
  refine .step (cfg.confirmFailures + 1) (fun lats hn => ?_) hP
  refine feed_fail hoff (by omega) hl hcur hf (fun w hw => ?_) (by simpa using hn)
  obtain ⟨lat, -, rfl⟩ := List.mem_map.1 hw
  exact decide_eq_false (by omega)

/-! ## The end of a run -/

/-- Where a run against the threshold `K` ends: at `max_rate` when that passes, else with a
bracket of `K` whose upper end failed and whose lower end is the knee reported (none when
nothing passed), stopped for one of the three reasons. -/
structure Converged (cfg : RateConfig F) (K : Nat) (tolerance : ℚ) (R : SearchRun F)
    (knee : Option Nat) : Prop where
  done : R.last = .done knee
  above : cfg.maxRate ≤ K → knee = some cfg.maxRate
  bracket : K < cfg.maxRate → R.state.lo ≤ K ∧ K < R.state.hi ∧ (R.state.hi, false) ∈ R.log ∧
    ((R.state.lo = 0 ∧ R.passed = [] ∧ knee = none) ∨ (0 < R.state.lo ∧ knee = some R.state.lo))
  stopped : K < cfg.maxRate →
    ((R.state.hi - R.state.lo : Nat) : ℚ) / (R.state.hi : ℚ) ≤ tolerance ∨
      R.state.hi - R.state.lo ≤ 1 ∨ cfg.maxBisectSteps ≤ R.state.bisectSteps
  exact : tolerance = 0 → 65 ≤ cfg.maxBisectSteps →
    knee = if K = 0 then none else some (min K cfg.maxRate)

/-- A bracket of `K` in the bisection. Its width halves with every step. -/
structure Bracket (cfg : RateConfig F) (K : Nat) (log : List (Nat × Bool)) (s : RateSearch F) :
    Prop where
  phase : s.phase = .bisect
  fresh : s.failuresAtRate = 0
  good : s.lastGood = if s.lo = 0 then none else some s.lo
  lo_le : s.lo ≤ K
  lt_hi : K < s.hi
  hi_le : s.hi ≤ cfg.maxRate
  failed : (s.hi, false) ∈ log
  none_passed : s.lo = 0 → log.filter (·.2) = []
  width : s.hi - s.lo ≤ 2 ^ (64 - s.bisectSteps)

theorem Bracket.converged {tolerance : ℚ} (hn : cfg.narrow = exactNarrow tolerance)
    {log : List (Nat × Bool)} {s : RateSearch F} (h : Bracket cfg K log s)
    (hstop : (cfg.narrow s.lo s.hi || decide (cfg.maxBisectSteps ≤ s.bisectSteps) ||
      decide (s.hi - s.lo ≤ 1)) = true) :
    Converged cfg K tolerance ⟨log, .done (if 0 < s.lo then some s.lo else s.lastGood), s⟩
      (if 0 < s.lo then some s.lo else s.lastGood) := by
  obtain ⟨-, -, hgood, hlo, hhi, hmax, hfail, hnone, hw⟩ := h
  have hpos : 0 < s.hi := by omega
  have hreason : ((s.hi - s.lo : Nat) : ℚ) / (s.hi : ℚ) ≤ tolerance ∨
      s.hi - s.lo ≤ 1 ∨ cfg.maxBisectSteps ≤ s.bisectSteps := by
    simp only [hn, exactNarrow, if_pos hpos, Bool.or_eq_true, decide_eq_true_eq] at hstop
    tauto
  refine ⟨rfl, fun h => absurd h (by omega), fun _ => ⟨hlo, hhi, hfail, ?_⟩, fun _ => hreason,
    fun htol hcap => ?_⟩
  · rcases Nat.eq_zero_or_pos s.lo with h0 | h0
    · exact .inl ⟨h0, by simp [passed, hnone h0], by simp [h0, hgood]⟩
    · exact .inr ⟨h0, by simp [h0]⟩
  · -- with tolerance zero the bracket is down to one rate: the width cannot be zero, and 64
    -- halvings come before the cap
    have hone : s.hi - s.lo ≤ 1 := by
      rcases hreason with h | h | h
      · have hq : (0 : ℚ) < ((s.hi - s.lo : Nat) : ℚ) / (s.hi : ℚ) :=
          div_pos (by exact_mod_cast (by omega : 0 < s.hi - s.lo)) (by exact_mod_cast hpos)
        linarith
      · exact h
      · rwa [show 64 - s.bisectSteps = 0 by omega] at hw
    have hK : s.lo = K := by omega
    subst hK
    rcases Nat.eq_zero_or_pos s.lo with h0 | h0
    · simp [h0, hgood]
    · rw [if_pos h0, if_neg (by omega), Nat.min_eq_left (by omega)]

def midRate (s : RateSearch F) : Nat :=
  max (min (max (s.lo + (s.hi - s.lo) / 2) (s.lo + 1)) (s.hi - 1)) 1

theorem bisectProbe_eq (s : RateSearch F) :
    s.bisectProbe = (.probe (midRate s), { s with currentRate := midRate s }) := rfl

theorem midRate_spec {s : RateSearch F} (h : s.lo < s.hi) :
    1 ≤ midRate s ∧ midRate s ≤ s.hi ∧ 2 * (s.hi - midRate s) ≤ s.hi - s.lo + 1 ∧
      2 * (midRate s - s.lo) ≤ s.hi - s.lo + 1 := by
  unfold midRate
  omega

theorem Bracket.halve {log : List (Nat × Bool)} {s : RateSearch F} (h : Bracket cfg K log s) :
    s.hi - s.lo ≤ 2 * 2 ^ (64 - (s.bisectSteps + 1)) ∧ 1 ≤ 2 ^ (64 - (s.bisectSteps + 1)) := by
  refine ⟨?_, Nat.one_le_two_pow⟩
  have hw := h.width
  rcases Nat.lt_or_ge s.bisectSteps 64 with hb | hb
  · rwa [show 64 - s.bisectSteps = (64 - (s.bisectSteps + 1)) + 1 by omega, Nat.pow_succ,
      Nat.mul_comm] at hw
  · rw [show 64 - s.bisectSteps = 0 by omega] at hw
    have := Nat.one_le_two_pow (n := 64 - (s.bisectSteps + 1))
    omega

theorem Bracket.pass {log : List (Nat × Bool)} {s : RateSearch F} (h : Bracket cfg K log s)
    (hm : midRate s ≤ K) :
    Bracket cfg K (log ++ [(midRate s, true)])
      { s with
        currentRate := midRate s
        failuresAtRate := 0
        lastGood := some (midRate s)
        lastConfirmedFail := none
        lo := midRate s
        bisectSteps := s.bisectSteps + 1 } := by
  obtain ⟨hw, -⟩ := h.halve
  obtain ⟨hp, -, -, hlo, hhi, hmax, hfail, -, -⟩ := h
  obtain ⟨hpos, -, hhalf, -⟩ := midRate_spec (s := s) (by omega)
  refine ⟨hp, rfl, ?_, hm, hhi, hmax, List.mem_append_left _ hfail, fun h0 => ?_, ?_⟩
  · simp only; rw [if_neg (by omega)]
  · simp only at h0; omega
  · simp only; omega

theorem Bracket.fail {log : List (Nat × Bool)} {s : RateSearch F} (h : Bracket cfg K log s)
    (hm : K < midRate s) (n : Nat) :
    Bracket cfg K (log ++ List.replicate (n + 1) (midRate s, false))
      { s with
        currentRate := midRate s
        hi := midRate s
        bisectSteps := s.bisectSteps + 1 } := by
  obtain ⟨hw, -⟩ := h.halve
  obtain ⟨hp, hf, hg, hlo, hhi, hmax, -, hnone, -⟩ := h
  obtain ⟨-, hle, -, hhalf⟩ := midRate_spec (s := s) (by omega)
  refine ⟨hp, hf, hg, hlo, hm, ?_, ?_, fun h0 => ?_, ?_⟩
  · simp only; omega
  · simp [List.replicate_succ]
  · simp [hnone h0]
  · simp only; omega

/-- One step of the bisection: the run ends, or probes the midpoint of a bracket of width two or
more (`k`). -/
theorem bracket_step {tolerance : ℚ} (hn : cfg.narrow = exactNarrow tolerance)
    (hoff : cfg.floor.enabled = false) (hc : cfg.confirmFailures + 1 < 2 ^ 32)
    {log : List (Nat × Bool)} {s : RateSearch F} (hB : Bracket cfg K log s)
    (k : ∀ log' t, Bracket cfg K log' t → t.bisectSteps = s.bisectSteps + 1 → 1 < t.hi - t.lo →
      Eventually cfg K (fun R => ∃ knee, Converged cfg K tolerance R knee)
        ⟨log', t.bisectProbe.1, t.bisectProbe.2⟩) :
    Eventually cfg K (fun R => ∃ knee, Converged cfg K tolerance R knee)
      ⟨log, s.bisectProbe.1, s.bisectProbe.2⟩ := by
  have next : ∀ log' t, Bracket cfg K log' t → t.bisectSteps = s.bisectSteps + 1 →
      Eventually cfg K (fun R => ∃ knee, Converged cfg K tolerance R knee)
        ⟨log', (t.bisectNext cfg).1, (t.bisectNext cfg).2⟩ := by
    intro log' t hB' ht
    unfold RateSearch.bisectNext
    split
    · rename_i hstop
      exact .of_done rfl ⟨_, hB'.converged hn hstop⟩
    · rename_i hstop
      simp only [Bool.or_eq_true, decide_eq_true_eq, not_or] at hstop
      exact k log' t hB' ht (by omega)
  rcases Nat.lt_or_ge K (midRate s) with hm | hm
  · refine .fail hoff hc hm rfl rfl hB.fresh ?_
    have := next _ _ (hB.fail hm cfg.confirmFailures) rfl
    simpa [settled, RateSearch.settle, bisectProbe_eq, hB.phase] using this
  · refine .pass (r := midRate s) rfl hm ?_
    have := next _ _ (hB.pass hm) rfl
    simpa [settled, RateSearch.settle, RateSearch.notePass, bisectProbe_eq, hB.phase] using this

/-- **The bisection converges**: by induction on the halvings left. -/
theorem bracket_eventually {tolerance : ℚ} (hn : cfg.narrow = exactNarrow tolerance)
    (hoff : cfg.floor.enabled = false) (hc : cfg.confirmFailures + 1 < 2 ^ 32) :
    ∀ (n : Nat) (log : List (Nat × Bool)) (s : RateSearch F), Bracket cfg K log s →
      64 - s.bisectSteps ≤ n →
      Eventually cfg K (fun R => ∃ knee, Converged cfg K tolerance R knee)
        ⟨log, s.bisectProbe.1, s.bisectProbe.2⟩ := by
  intro n
  induction n with
  | zero =>
    intro log s hB hle
    refine bracket_step hn hoff hc hB fun log' t hB' ht hwide => ?_
    have hw := hB'.width
    rw [ht, show 64 - (s.bisectSteps + 1) = 0 by omega] at hw
    omega
  | succ n ih =>
    intro log s hB hle
    exact bracket_step hn hoff hc hB fun log' t hB' ht _ => ih log' t hB' (by omega)

/-! ## The climb -/

/-- The climb below the threshold, between two settled verdicts. -/
structure Climbing (cfg : RateConfig F) (K : Nat) (R : SearchRun F) : Prop where
  last : R.last = .probe R.state.currentRate
  phase : R.state.phase = .climb
  fresh : R.state.failuresAtRate = 0
  steps : R.state.bisectSteps = 0
  pos : 1 ≤ R.state.currentRate
  le : R.state.currentRate ≤ cfg.maxRate
  good : ∀ g, R.state.lastGood = some g → 1 ≤ g ∧ g ≤ K
  none_passed : R.state.lastGood = none → R.log.filter (·.2) = []

theorem Climbing.bracket {R : SearchRun F} (h : Climbing cfg K R) (hr : K < R.state.currentRate)
    (n : Nat) :
    Bracket cfg K (R.log ++ List.replicate (n + 1) (R.state.currentRate, false))
      { R.state with
        lo := R.state.lastGood.getD 0
        hi := R.state.currentRate
        phase := .bisect } := by
  have hmax := cfg.maxRate_u64
  obtain ⟨-, -, hf, hb, -, hle, hgood, hnone⟩ := h
  refine ⟨rfl, hf, ?_, ?_, hr, hle, by simp [List.replicate_succ], fun h0 => ?_, ?_⟩
  · cases hg : R.state.lastGood with
    | none => simp
    | some g => have := hgood g hg; simp; omega
  · cases hg : R.state.lastGood with
    | none => simp
    | some g => exact (hgood g hg).2
  · cases hg : R.state.lastGood with
    | none => simp [hnone hg]
    | some g => have := hgood g hg; simp [hg] at h0; omega
  · simp only [hb]
    omega

theorem Climbing.pass (tolerance : ℚ) (hmul : ∀ r, r ≤ cfg.mul r) {R : SearchRun F}
    (h : Climbing cfg K R) (hr : R.state.currentRate ≤ K) :
    let R' := settled cfg R R.state.notePass 1 R.state.currentRate true
    (∃ knee, Converged cfg K tolerance R' knee) ∨
      (Climbing cfg K R' ∧ R.state.currentRate < R'.state.currentRate) := by
  obtain ⟨-, hp, -, hb, hpos, hle, -, -⟩ := h
  have hm := hmul R.state.currentRate
  simp only [settled, RateSearch.settle, RateSearch.notePass, hp, Bool.not_true,
    Bool.false_eq_true, if_false]
  split
  · split
    · have he : R.state.currentRate = cfg.maxRate := by omega
      refine .inl ⟨_, rfl, fun _ => by rw [he], fun h => absurd h (by omega),
        fun h => absurd h (by omega), fun _ _ => ?_⟩
      rw [if_neg (by omega), Nat.min_eq_right (by omega), he]
    · refine .inr ⟨⟨rfl, rfl, rfl, hb, ?_, Nat.le_refl _, fun g hg => ?_, fun hg => ?_⟩, ?_⟩
      · simp only; omega
      · simp only [Option.some.injEq] at hg; omega
      · cases hg
      · simp only; omega
  · refine .inr ⟨⟨rfl, rfl, rfl, hb, ?_, ?_, fun g hg => ?_, fun hg => ?_⟩, ?_⟩
    · simp only; omega
    · simp only; omega
    · simp only [Option.some.injEq] at hg; omega
    · cases hg
    · simp only; omega

/-- **The climb converges**: by induction on the rates left below `max_rate`. -/
theorem climb_eventually {tolerance : ℚ} (hn : cfg.narrow = exactNarrow tolerance)
    (hoff : cfg.floor.enabled = false) (hmul : ∀ r, r ≤ cfg.mul r)
    (hc : cfg.confirmFailures + 1 < 2 ^ 32 ∨ cfg.maxRate ≤ K) :
    ∀ (n : Nat) (R : SearchRun F), Climbing cfg K R → cfg.maxRate - R.state.currentRate ≤ n →
      Eventually cfg K (fun R => ∃ knee, Converged cfg K tolerance R knee) R := by
  intro n
  induction n using Nat.strong_induction_on with
  | _ n ih =>
    intro R hR hle
    rcases Nat.lt_or_ge K R.state.currentRate with hr | hr
    · exact climb_fail hn hoff hc hR hr
    · refine .pass hR.last hr ?_
      rcases hR.pass tolerance hmul hr with hdone | ⟨hR', hlt⟩
      · exact .of_done hdone.choose_spec.done hdone
      · have hle' := hR'.le
        exact ih _ (by omega) _ hR' (Nat.le_refl _)
where
  climb_fail {tolerance : ℚ} (hn : cfg.narrow = exactNarrow tolerance)
      (hoff : cfg.floor.enabled = false) (hc : cfg.confirmFailures + 1 < 2 ^ 32 ∨ cfg.maxRate ≤ K)
      {R : SearchRun F} (hR : Climbing cfg K R) (hr : K < R.state.currentRate) :
      Eventually cfg K (fun R => ∃ knee, Converged cfg K tolerance R knee) R := by
    have hc' : cfg.confirmFailures + 1 < 2 ^ 32 := hc.resolve_right (by have := hR.le; omega)
    refine .fail hoff hc' hr hR.last rfl hR.fresh ?_
    have := bracket_eventually hn hoff hc' _ _ _ (hR.bracket hr cfg.confirmFailures)
      (Nat.le_refl _)
    simpa [settled, RateSearch.settle, hR.phase] using this

/-! ## The budget `u32::MAX` -/

/-- With the budget at `u32::MAX` a run against a threshold below `max_rate` never leaves the
climb. -/
theorem stuck_measure (hc : ¬ cfg.confirmFailures < 2 ^ 32 - 1) (hK : K < cfg.maxRate)
    {R : SearchRun F} (hp : R.state.phase = .climb) (hl : R.last = .probe R.state.currentRate)
    (lat : F) :
    (measure cfg R (threshold K lat)).state.phase = .climb ∧
      (measure cfg R (threshold K lat)).last =
        .probe (measure cfg R (threshold K lat)).state.currentRate := by
  simp only [measure, hl, threshold]
  rcases Nat.lt_or_ge K R.state.currentRate with hr | hr
  · rw [decide_eq_false (by omega), RateSearch.advance_fail_max hc]
    exact ⟨hp, rfl⟩
  · rw [decide_eq_true hr]
    simp only [RateSearch.advance, RateSearch.settle, RateSearch.notePass, hp, if_true,
      Bool.not_true, Bool.false_eq_true, if_false]
    split
    · split
      · omega
      · exact ⟨rfl, rfl⟩
    · exact ⟨rfl, rfl⟩

theorem stuck_feed (hc : ¬ cfg.confirmFailures < 2 ^ 32 - 1) (hK : K < cfg.maxRate) :
    ∀ (lats : List F) (R : SearchRun F), R.state.phase = .climb →
      R.last = .probe R.state.currentRate → ∀ k, (feedThreshold cfg K R lats).last ≠ .done k
  | [], R, _, hl, k => by simp [feedThreshold, feed, hl]
  | lat :: lats, R, hp, hl, k => by
    obtain ⟨hp', hl'⟩ := stuck_measure hc hK hp hl lat
    exact stuck_feed hc hK lats _ hp' hl' k

/-- **Rate search convergence.** Against the threshold `K` the search ends, at `max_rate` or in
a bracket of `K` (`Converged`), exactly when the confirm budget is below `u32::MAX` or no rate
up to `max_rate` fails. -/
theorem converges_iff (cfg : RateConfig ℚ) {startRate : Nat} (h1 : 1 ≤ startRate)
    (hmax : startRate ≤ cfg.maxRate) (hmul : ∀ r, r ≤ cfg.mul r)
    (hoff : cfg.floor.enabled = false) {tolerance : ℚ} (hn : cfg.narrow = exactNarrow tolerance)
    (K : Nat) :
    (∃ n, ∀ lats : List ℚ, n ≤ lats.length →
      ∃ knee, Converged cfg K tolerance (feedThreshold cfg K (start startRate) lats) knee) ↔
    (cfg.confirmFailures < 2 ^ 32 - 1 ∨ cfg.maxRate ≤ K) := by
  constructor
  · rintro ⟨n, hn⟩
    by_contra hcon
    obtain ⟨knee, hconv⟩ := hn (List.replicate n 0) (by simp)
    exact stuck_feed (by omega) (by omega) _ (start startRate) rfl rfl knee hconv.done
  · intro hc
    exact climb_eventually hn hoff hmul (by omega) _ (start startRate)
      ⟨rfl, rfl, rfl, rfl, h1, hmax, nofun, fun _ => rfl⟩ (Nat.le_refl _)

theorem converges_test :
    ∃ n, ∀ lats : List ℚ, n ≤ lats.length → ∃ knee,
      Converged (testConfig 1 (by decide)) 30000 (1 / 20)
        (feedThreshold (testConfig 1 (by decide)) 30000 (start 1000) lats) knee :=
  (converges_iff (testConfig 1 (by decide)) (by decide) (by decide)
    (fun r => Nat.le_mul_of_pos_right r (by decide)) (by decide) rfl 30000).2 (.inl (by decide))

theorem diverges_test :
    ¬ ∃ n, ∀ lats : List ℚ, n ≤ lats.length → ∃ knee,
      Converged (testConfig (2 ^ 32 - 1) (by decide)) 30000 (1 / 20)
        (feedThreshold (testConfig (2 ^ 32 - 1) (by decide)) 30000 (start 1000) lats) knee := by
  rintro ⟨n, hn⟩
  obtain ⟨knee, hconv⟩ := hn (List.replicate n 0) (by simp)
  exact stuck_feed (by decide) (by decide) _ (start 1000) rfl rfl knee hconv.done

end SearchRun

end Saturation
