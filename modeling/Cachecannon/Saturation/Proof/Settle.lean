import Cachecannon.Saturation.RateSearch

/-!
# Settling a verdict

What `settle` leaves alone, and how many windows it takes to get there. With floor detection off
a rate that fails is measured again while the count is within the budget (`feed_retries`), and
the failure after that settles it (`feed_fail`). A budget of `u32::MAX` is never exceeded by the
`u32` count (`noteFailure_max`).
-/

namespace Saturation

variable {F : Type}

namespace RateSearch

theorem bisectNext_frame (cfg : RateConfig F) (s : RateSearch F) :
    (bisectNext cfg s).2.lastGood = s.lastGood ∧
      (bisectNext cfg s).2.failuresAtRate = s.failuresAtRate ∧
      (bisectNext cfg s).2.lastConfirmedFail = s.lastConfirmedFail ∧
      (bisectNext cfg s).2.floorDetected = s.floorDetected := by
  unfold bisectNext
  split <;> exact ⟨rfl, rfl, rfl, rfl⟩

theorem settle_frame (cfg : RateConfig F) (s : RateSearch F) (passed : Bool) :
    (settle cfg s passed).2.lastGood = s.lastGood ∧
      (settle cfg s passed).2.failuresAtRate = s.failuresAtRate ∧
      (settle cfg s passed).2.lastConfirmedFail = s.lastConfirmedFail ∧
      (settle cfg s passed).2.floorDetected = s.floorDetected := by
  unfold settle
  cases s.phase with
  | climb =>
    cases passed with
    | false => exact ⟨rfl, rfl, rfl, rfl⟩
    | true =>
      simp only [Bool.not_true, Bool.false_eq_true, if_false]
      split
      · split <;> exact ⟨rfl, rfl, rfl, rfl⟩
      · exact ⟨rfl, rfl, rfl, rfl⟩
  | bisect =>
    cases passed with
    | false => exact bisectNext_frame cfg _
    | true => exact bisectNext_frame cfg _

theorem settle_rate (cfg : RateConfig F) (s : RateSearch F) (passed : Bool) :
    ∀ r, (settle cfg s passed).1 = .probe r → (settle cfg s passed).2.currentRate = r := by
  have next : ∀ t : RateSearch F, ∀ r, (bisectNext cfg t).1 = .probe r →
      (bisectNext cfg t).2.currentRate = r := by
    intro t
    unfold bisectNext
    split
    · nofun
    · rintro r ⟨⟩; rfl
  unfold settle
  cases s.phase with
  | climb =>
    cases passed with
    | false => rintro r ⟨⟩; rfl
    | true =>
      simp only [Bool.not_true, Bool.false_eq_true, if_false]
      split
      · split
        · nofun
        · rintro r ⟨⟩; rfl
      · rintro r ⟨⟩; rfl
  | bisect => exact next _

theorem advance_pass (cfg : RateConfig F) (s : RateSearch F) (lat : F) :
    advance cfg s true lat = settle cfg s.notePass true := rfl

section Failures

variable {cfg : RateConfig F}

theorem noteFailure_off (hoff : cfg.floor.enabled = false) (s : RateSearch F) (lat : F) :
    noteFailure cfg s lat =
      if (s.failuresAtRate + 1) % 2 ^ 32 ≤ cfg.confirmFailures then
        .inl (.probe s.currentRate, { s with failuresAtRate := (s.failuresAtRate + 1) % 2 ^ 32 })
      else .inr { s with failuresAtRate := 0 } := by
  simp [noteFailure, hoff]

theorem advance_fail (hoff : cfg.floor.enabled = false) (s : RateSearch F) (lat : F) :
    advance cfg s false lat =
      if (s.failuresAtRate + 1) % 2 ^ 32 ≤ cfg.confirmFailures then
        (.probe s.currentRate, { s with failuresAtRate := (s.failuresAtRate + 1) % 2 ^ 32 })
      else settle cfg { s with failuresAtRate := 0 } false := by
  unfold advance
  rw [if_neg (by decide), noteFailure_off hoff]
  by_cases hretry : (s.failuresAtRate + 1) % 2 ^ 32 ≤ cfg.confirmFailures
  · rw [if_pos hretry, if_pos hretry]
  · rw [if_neg hretry, if_neg hretry]

/-- A state with `n` more failures counted. -/
def countFailures (s : RateSearch F) (n : Nat) : RateSearch F :=
  { s with failuresAtRate := s.failuresAtRate + n }

theorem advance_retry (hoff : cfg.floor.enabled = false) {s : RateSearch F}
    (hcount : s.failuresAtRate < cfg.confirmFailures) (lat : F) :
    advance cfg s false lat = (.probe s.currentRate, s.countFailures 1) := by
  have hu32 := cfg.confirmFailures_u32
  have hmod : (s.failuresAtRate + 1) % 2 ^ 32 = s.failuresAtRate + 1 := Nat.mod_eq_of_lt (by omega)
  rw [advance_fail hoff, hmod, if_pos (by omega)]
  rfl

theorem advance_confirmed (hoff : cfg.floor.enabled = false)
    (hc : cfg.confirmFailures < 2 ^ 32 - 1) {s : RateSearch F}
    (hcount : s.failuresAtRate = cfg.confirmFailures) (lat : F) :
    advance cfg s false lat = settle cfg { s with failuresAtRate := 0 } false := by
  have hmod : (s.failuresAtRate + 1) % 2 ^ 32 = s.failuresAtRate + 1 := Nat.mod_eq_of_lt (by omega)
  rw [advance_fail hoff, hmod, if_neg (by omega)]

/-- With the budget at `u32::MAX` the count never exceeds it, and a failure is never settled. -/
theorem noteFailure_max (hc : ¬ cfg.confirmFailures < 2 ^ 32 - 1) (s : RateSearch F) (lat : F) :
    noteFailure cfg s lat = .inl (.probe s.currentRate,
      { s with failuresAtRate := (s.failuresAtRate + 1) % 2 ^ 32 }) := by
  have hle : (s.failuresAtRate + 1) % 2 ^ 32 ≤ cfg.confirmFailures := by omega
  unfold noteFailure
  simp only
  rw [if_pos hle]

theorem advance_fail_max (hc : ¬ cfg.confirmFailures < 2 ^ 32 - 1) (s : RateSearch F) (lat : F) :
    advance cfg s false lat = (.probe s.currentRate,
      { s with failuresAtRate := (s.failuresAtRate + 1) % 2 ^ 32 }) := by
  unfold advance
  rw [if_neg (by decide), noteFailure_max hc]

end Failures

end RateSearch

namespace SearchRun

variable {cfg : RateConfig F} {R : SearchRun F} {r : Nat}

theorem feed_cons (R : SearchRun F) (w : Nat → Bool × F) (ws : List (Nat → Bool × F)) :
    feed cfg R (w :: ws) = feed cfg (measure cfg R w) ws := rfl

theorem feed_done {k : Option Nat} (h : R.last = .done k) (windows : List (Nat → Bool × F)) :
    feed cfg R windows = R := by
  induction windows with
  | nil => rfl
  | cons w ws ih =>
    rw [feed_cons, show measure cfg R w = R by simp [measure, h], ih]

theorem feed_append (R : SearchRun F) (ws ws' : List (Nat → Bool × F)) :
    feed cfg R (ws ++ ws') = feed cfg (feed cfg R ws) ws' := List.foldl_append

theorem measure_probe (hlast : R.last = .probe r) (window : Nat → Bool × F) :
    measure cfg R window = ⟨R.log ++ [(r, (window r).1)],
      (R.state.advance cfg (window r).1 (window r).2).1,
      (R.state.advance cfg (window r).1 (window r).2).2⟩ := by
  simp only [measure, hlast]

/-- The run after the verdict `v` was settled at the rate `r`, by `n` windows. -/
def settled (cfg : RateConfig F) (R : SearchRun F) (s : RateSearch F) (n r : Nat) (v : Bool) :
    SearchRun F :=
  ⟨R.log ++ List.replicate n (r, v), (s.settle cfg v).1, (s.settle cfg v).2⟩

theorem measure_pass (hlast : R.last = .probe r) {window : Nat → Bool × F}
    (hpass : (window r).1 = true) :
    measure cfg R window = settled cfg R R.state.notePass 1 r true := by
  rw [measure_probe hlast, hpass, RateSearch.advance_pass]
  rfl

theorem measure_retry (hoff : cfg.floor.enabled = false) (hlast : R.last = .probe r)
    (hrate : R.state.currentRate = r) (hcount : R.state.failuresAtRate < cfg.confirmFailures)
    {window : Nat → Bool × F} (hfail : (window r).1 = false) :
    measure cfg R window = ⟨R.log ++ [(r, false)], .probe r, R.state.countFailures 1⟩ := by
  rw [measure_probe hlast, hfail, RateSearch.advance_retry hoff hcount, hrate]

/-- Failures within the budget: the rate is measured again and nothing but the count changes. -/
theorem feed_retries (hoff : cfg.floor.enabled = false) :
    ∀ (ws : List (Nat → Bool × F)) (R : SearchRun F), R.last = .probe r →
      R.state.currentRate = r → (∀ w ∈ ws, (w r).1 = false) →
      R.state.failuresAtRate + ws.length ≤ cfg.confirmFailures →
      feed cfg R ws = ⟨R.log ++ List.replicate ws.length (r, false), .probe r,
        R.state.countFailures ws.length⟩ := by
  intro ws
  induction ws with
  | nil =>
    intro R hlast _ _ _
    simp [feed, ← hlast, RateSearch.countFailures]
  | cons w ws ih =>
    intro R hlast hrate hfail hlen
    rw [List.length_cons] at hlen
    have hmeasure := measure_retry hoff hlast hrate (by omega) (hfail w (by simp))
    have hrest := ih ⟨R.log ++ [(r, false)], .probe r, R.state.countFailures 1⟩ rfl hrate
      (fun w' hw' => hfail w' (List.mem_cons_of_mem _ hw'))
      (by simp only [RateSearch.countFailures]; omega)
    rw [feed_cons, hmeasure, hrest]
    simp only [RateSearch.countFailures, List.length_cons, List.replicate_succ, List.append_assoc,
      List.cons_append, List.nil_append, Nat.add_assoc, Nat.add_comm 1]

/-- **A failure is settled** by one more window than the budget has. -/
theorem feed_fail (hoff : cfg.floor.enabled = false) (hc : cfg.confirmFailures < 2 ^ 32 - 1)
    (hlast : R.last = .probe r) (hrate : R.state.currentRate = r)
    (hcount : R.state.failuresAtRate = 0) {ws : List (Nat → Bool × F)}
    (hfail : ∀ w ∈ ws, (w r).1 = false) (hlen : ws.length = cfg.confirmFailures + 1) :
    feed cfg R ws = settled cfg R R.state (cfg.confirmFailures + 1) r false := by
  obtain ⟨ws, w, rfl⟩ := List.eq_nil_or_concat ws |>.resolve_left (by rintro rfl; simp at hlen)
  simp only [List.concat_eq_append, List.length_append, List.length_singleton,
    Nat.add_right_cancel_iff] at hlen hfail ⊢
  have hretries := feed_retries hoff ws R hlast hrate
    (fun w' hw' => hfail w' (List.mem_append_left _ hw')) (by omega)
  rw [feed_append, hretries, feed_cons, measure_probe rfl, hfail w (by simp),
    RateSearch.advance_confirmed hoff hc (by simp only [RateSearch.countFailures]; omega)]
  have hstate : { R.state.countFailures ws.length with failuresAtRate := 0 } = R.state := by
    rw [← hcount]
    rfl
  rw [hstate, hlen]
  simp [settled, feed, List.replicate_succ']

end SearchRun

end Saturation
