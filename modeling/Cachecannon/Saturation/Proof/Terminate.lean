import Cachecannon.Saturation.Proof.Settle
import Cachecannon.Saturation.Proof.Sound

/-!
# Termination of the rate search

Whatever the windows say, the search ends: a climb that passes moves to a higher rate, up to
`max_rate`; a settled bisection step counts against the step cap; and a rate is measured again
at most `confirm_failures` times before its failure is settled. `fuel` adds the three up and
every call of `advance` that asks for another window spends some of it (`advance_fuel`).

A failure is settled when the `u32` count exceeds the budget, which a budget of `u32::MAX` never
lets happen: a rate that keeps failing is measured for ever (`stuck_fail`). `terminates_iff` is
the exact condition.
-/

namespace Saturation

variable {F : Type} {cfg : RateConfig F}

namespace RateSearch

/-- A bound on the verdicts the search can still settle. -/
def movesLeft (cfg : RateConfig F) (s : RateSearch F) : Nat :=
  match s.phase with
  | .climb => cfg.maxRate - s.currentRate + (cfg.maxBisectSteps + 2)
  | .bisect => cfg.maxBisectSteps - s.bisectSteps + 1

/-- A bound on the windows the search can still ask for. -/
def fuel (cfg : RateConfig F) (s : RateSearch F) : Nat :=
  movesLeft cfg s * (cfg.confirmFailures + 1) + (cfg.confirmFailures - s.failuresAtRate)

/-- What a call that asks for another window leaves: less fuel, and a count within the budget. -/
def Spends (cfg : RateConfig F) (s : RateSearch F) (out : SearchOutcome × RateSearch F) : Prop :=
  ∀ r, out.1 = .probe r →
    out.2.failuresAtRate ≤ cfg.confirmFailures ∧ fuel cfg out.2 < fuel cfg s

/-- A settled verdict that leaves fewer moves spends fuel: the failure count starts anew. -/
theorem fuel_lt_of_moves {s t : RateSearch F} (hmoves : movesLeft cfg t < movesLeft cfg s) :
    fuel cfg t < fuel cfg s := by
  have hmul : (movesLeft cfg t + 1) * (cfg.confirmFailures + 1) ≤
      movesLeft cfg s * (cfg.confirmFailures + 1) := Nat.mul_le_mul_right _ hmoves
  rw [Nat.add_mul, Nat.one_mul] at hmul
  unfold fuel
  omega

theorem bisectNext_moves {s : RateSearch F} (hp : s.phase = .bisect) {r : Nat}
    (hprobe : (bisectNext cfg s).1 = .probe r) :
    s.bisectSteps < cfg.maxBisectSteps ∧
      movesLeft cfg (bisectNext cfg s).2 = cfg.maxBisectSteps - s.bisectSteps + 1 := by
  unfold bisectNext at hprobe ⊢
  split at hprobe
  · cases hprobe
  · rename_i hstop
    rw [if_neg hstop]
    simp only [Bool.or_eq_true, decide_eq_true_eq, not_or] at hstop
    obtain ⟨⟨-, hcap⟩, -⟩ := hstop
    exact ⟨by omega, by simp [bisectProbe, movesLeft, hp]⟩

/-- **A settled verdict** that does not end the search leaves fewer moves. -/
theorem settle_moves (hmul : ∀ r, r ≤ cfg.mul r) (s : RateSearch F) (passed : Bool) {r : Nat}
    (hprobe : (settle cfg s passed).1 = .probe r) :
    movesLeft cfg (settle cfg s passed).2 < movesLeft cfg s := by
  have hm := hmul s.currentRate
  unfold settle at hprobe ⊢
  cases hp : s.phase with
  | climb =>
    simp only [hp] at hprobe ⊢
    cases passed with
    | false =>
      simp only [Bool.not_false, if_true, bisectProbe, movesLeft, hp]
      omega
    | true =>
      simp only [Bool.not_true, Bool.false_eq_true, if_false] at hprobe ⊢
      split at hprobe
      · split at hprobe
        · cases hprobe
        · rename_i hmax hcur
          rw [if_pos hmax, if_neg hcur]
          simp only [movesLeft, hp]
          omega
      · rename_i hmax
        rw [if_neg hmax]
        simp only [movesLeft, hp]
        omega
  | bisect =>
    simp only [hp] at hprobe ⊢
    cases passed with
    | false =>
      obtain ⟨hcap, hmoves⟩ := bisectNext_moves (by simp) hprobe
      rw [hmoves]
      simp only [Bool.false_eq_true, if_false, movesLeft, hp] at hcap ⊢
      omega
    | true =>
      obtain ⟨hcap, hmoves⟩ := bisectNext_moves (by simp) hprobe
      rw [hmoves]
      simp only [if_true, movesLeft, hp] at hcap ⊢
      omega

theorem settle_spends (hmul : ∀ r, r ≤ cfg.mul r) {s t : RateSearch F} (passed : Bool)
    (hmoves : movesLeft cfg t = movesLeft cfg s) (hcount : t.failuresAtRate = 0) :
    Spends cfg s (settle cfg t passed) := by
  intro r hprobe
  obtain ⟨-, hsame, -⟩ := settle_frame cfg t passed
  exact ⟨by omega, fuel_lt_of_moves (hmoves ▸ settle_moves hmul t passed hprobe)⟩

/-- What a failure that is not settled at once leaves: the rate is measured again with one more
failure counted, or the floor is reported. -/
theorem noteFailure_spends (hc : cfg.confirmFailures < 2 ^ 32 - 1) {s : RateSearch F}
    (hcount : s.failuresAtRate ≤ cfg.confirmFailures) (lat : F) :
    match noteFailure cfg s lat with
    | .inl out => Spends cfg s out
    | .inr t => movesLeft cfg t = movesLeft cfg s ∧ t.failuresAtRate = 0 := by
  have hmod : (s.failuresAtRate + 1) % 2 ^ 32 = s.failuresAtRate + 1 :=
    Nat.mod_eq_of_lt (by omega)
  unfold noteFailure
  simp only [hmod]
  by_cases hretry : s.failuresAtRate + 1 ≤ cfg.confirmFailures
  · rw [if_pos hretry]
    intro r _
    refine ⟨hretry, ?_⟩
    simp only [fuel, movesLeft]
    omega
  · rw [if_neg hretry]
    by_cases hfloor : (s.lastGood.isNone && cfg.floor.enabled && cfg.floor.usable lat) = true
    · rw [if_pos hfloor]
      split
      · rename_i out hout
        split at hout
        · cases hout
          intro r hprobe
          cases hprobe
        · cases hout
      · rename_i t hout
        split at hout
        · cases hout
        · cases hout
          exact ⟨rfl, rfl⟩
    · rw [if_neg hfloor]
      exact ⟨rfl, rfl⟩

/-- **The step lemma.** A call of `advance` ends the search or spends fuel. -/
theorem advance_fuel (hmul : ∀ r, r ≤ cfg.mul r) (hc : cfg.confirmFailures < 2 ^ 32 - 1)
    {s : RateSearch F} (hcount : s.failuresAtRate ≤ cfg.confirmFailures) (passed : Bool)
    (lat : F) : Spends cfg s (advance cfg s passed lat) := by
  unfold advance
  cases passed with
  | true =>
    rw [if_pos rfl]
    exact settle_spends hmul true rfl rfl
  | false =>
    rw [if_neg (by decide)]
    have hnote := noteFailure_spends hc hcount lat
    split
    · rename_i out heq
      rwa [heq] at hnote
    · rename_i t heq
      rw [heq] at hnote
      exact settle_spends hmul false hnote.1 hnote.2

end RateSearch

namespace SearchRun

/-! ## Runs -/

/-- A run on a sequence of verdicts and latencies, after `n` windows. -/
def feedFirst (cfg : RateConfig F) (R : SearchRun F) (windows : Nat → Bool × F) (n : Nat) :
    SearchRun F :=
  feed cfg R ((List.range n).map fun i _ => windows i)

/-- **The run lemma.** As many windows as there is fuel end a run, whatever they say. -/
theorem feed_done_of_fuel (hmul : ∀ r, r ≤ cfg.mul r) (hc : cfg.confirmFailures < 2 ^ 32 - 1) :
    ∀ (windows : List (Nat → Bool × F)) (R : SearchRun F),
      R.state.failuresAtRate ≤ cfg.confirmFailures → R.state.fuel cfg < windows.length →
      ∃ knee, (feed cfg R windows).last = .done knee := by
  intro windows
  induction windows with
  | nil => exact fun R _ hlen => absurd hlen (by simp)
  | cons window windows ih =>
    intro R hcount hlen
    cases hlast : R.last with
    | done knee =>
      refine ⟨knee, ?_⟩
      rw [feed_done hlast]
      exact hlast
    | probe r =>
      have hspends := RateSearch.advance_fuel hmul hc hcount (window r).1 (window r).2
      rw [feed_cons, measure_probe hlast]
      cases hout : (R.state.advance cfg (window r).1 (window r).2).1 with
      | done knee => exact ⟨knee, by rw [feed_done rfl]⟩
      | probe r' =>
        obtain ⟨hcount', hless⟩ := hspends r' hout
        apply ih _ hcount'
        simp only [List.length_cons] at hlen ⊢
        omega

theorem stuck_fail (hc : ¬ cfg.confirmFailures < 2 ^ 32 - 1) (lats : List F) :
    ∀ {R : SearchRun F} {r : Nat}, R.last = .probe r → R.state.currentRate = r →
      (feed cfg R (lats.map fun lat _ => (false, lat))).last = .probe r := by
  induction lats with
  | nil => exact fun hlast _ => hlast
  | cons lat lats ih =>
    intro R r hlast hrate
    rw [List.map_cons, feed_cons, measure_probe hlast, RateSearch.advance_fail_max hc]
    exact ih (congrArg _ hrate) hrate

theorem stuck_feedFirst (hc : ¬ cfg.confirmFailures < 2 ^ 32 - 1) (startRate : Nat) (lat : F)
    (n : Nat) : (feedFirst cfg (start startRate) (fun _ => (false, lat)) n).last =
      .probe startRate := by
  have hstuck := stuck_fail hc ((List.range n).map fun _ => lat) (R := start startRate) rfl rfl
  rwa [List.map_map] at hstuck

/-- **Rate search termination.** The search ends on every sequence of verdicts and latencies
exactly when the confirm budget is below `u32::MAX`. -/
theorem terminates_iff [Nonempty F] (cfg : RateConfig F) (hmul : ∀ r, r ≤ cfg.mul r)
    (startRate : Nat) :
    (∀ windows : Nat → Bool × F, ∃ n knee,
      (feedFirst cfg (start startRate) windows n).last = .done knee) ↔
    cfg.confirmFailures < 2 ^ 32 - 1 := by
  constructor
  · intro hall
    by_contra hc
    obtain ⟨lat⟩ := ‹Nonempty F›
    obtain ⟨n, knee, hdone⟩ := hall fun _ => (false, lat)
    rw [stuck_feedFirst hc] at hdone
    cases hdone
  · intro hc windows
    refine ⟨(start startRate : SearchRun F).state.fuel cfg + 1, ?_⟩
    exact feed_done_of_fuel hmul hc _ _ (Nat.zero_le _) (by simp)

/-- The source's test configuration, started above its `max_rate`. -/
theorem terminates_aboveMax : ∃ n knee, (feedFirst (testConfig 3 (by decide)) (start 2000000)
    (fun _ => (false, 0)) n).last = .done knee :=
  (terminates_iff (testConfig 3 (by decide)) (fun r => Nat.le_mul_of_pos_right r (by decide))
    2000000).2 (by decide) _

theorem endless_failures : ¬ ∀ windows : Nat → Bool × ℚ, ∃ n knee,
    (feedFirst (testConfig (2 ^ 32 - 1) (by decide)) (start 1000) windows n).last =
      .done knee := by
  intro hall
  obtain ⟨n, knee, hdone⟩ := hall fun _ => (false, 0)
  rw [stuck_feedFirst (by decide)] at hdone
  cases hdone

end SearchRun

end Saturation
