import Cachecannon.Saturation.RateSearch

/-!
# Soundness of the rate search over whole runs

`feed_sound`: whatever the windows of a run say, the knee reported is the highest rate that
passed, the bisection's bracket is never inverted and every rate asked for is in range.

The invariant is `Live`: `last_good` is the highest rate that passed; in the climb the current
rate is above it; in the bisection `lo` is `last_good` (zero when nothing passed) and the current
rate is between `lo` and `hi`. One lemma per move of the machine (`bisectProbe_out`,
`bisectNext_out`, `settle_pass`, `settle_fail`) gives the spec of `advance` (`advance_out`), and
the run lemma follows by induction on the windows.
-/

namespace Saturation

variable {F : Type}

/-- `o` is the highest element of `ps`, if there is one. -/
def Highest : Option Nat → List Nat → Prop
  | none, ps => ps = []
  | some k, ps => k ∈ ps ∧ ∀ p ∈ ps, p ≤ k

theorem Highest.snoc {o : Option Nat} {ps : List Nat} {r : Nat} (h : Highest o ps)
    (hr : ∀ g, o = some g → g ≤ r) : Highest (some r) (ps ++ [r]) := by
  refine ⟨by simp, fun p hp => ?_⟩
  rcases List.mem_append.1 hp with hp | hp
  · cases o with
    | none => rw [Highest] at h; simp [h] at hp
    | some g => exact Nat.le_trans (h.2 p hp) (hr g rfl)
  · exact Nat.le_of_eq (by simpa using hp)

theorem Highest.isSome_iff {o : Option Nat} {ps : List Nat} (h : Highest o ps) :
    o.isSome ↔ ∃ p, p ∈ ps := by
  cases o with
  | none => rw [Highest] at h; simp [h]
  | some k => exact ⟨fun _ => ⟨k, h.1⟩, fun _ => rfl⟩

/-- The search between two windows, when the windows so far passed at the rates `ps`. -/
structure Live (cfg : RateConfig F) (startRate : Nat) (s : RateSearch F) (ps : List Nat) :
    Prop where
  pos : 1 ≤ s.currentRate
  le : s.currentRate ≤ max startRate cfg.maxRate
  good : Highest s.lastGood ps
  climb : s.phase = .climb → ∀ g, s.lastGood = some g → g < s.currentRate
  bisect : s.phase = .bisect → s.lo = s.lastGood.getD 0 ∧ s.lo ≤ s.currentRate ∧
    s.currentRate ≤ s.hi ∧ s.hi ≤ max startRate cfg.maxRate

/-- What a call of `advance` returns: a live search at the rate it asks for, or the highest rate
that passed. -/
def Out (cfg : RateConfig F) (startRate : Nat) (ps : List Nat)
    (out : SearchOutcome × RateSearch F) : Prop :=
  match out.1 with
  | .probe r => out.2.currentRate = r ∧ Live cfg startRate out.2 ps
  | .done knee => Highest knee ps ∧ (out.2.phase = .bisect → out.2.lo ≤ out.2.hi)

namespace RateSearch

variable {cfg : RateConfig F} {startRate : Nat} {s : RateSearch F} {ps : List Nat}

theorem bisectProbe_out (hp : s.phase = .bisect) (hg : Highest s.lastGood ps)
    (hlo : s.lo = s.lastGood.getD 0) (hlt : s.lo < s.hi)
    (hhi : s.hi ≤ max startRate cfg.maxRate) : Out cfg startRate ps (bisectProbe s) := by
  refine ⟨rfl, ?_, ?_, hg, ?_, fun _ => ⟨hlo, ?_, ?_, hhi⟩⟩
  · exact Nat.le_max_right _ _
  · show max (min (max (s.lo + (s.hi - s.lo) / 2) (s.lo + 1)) (s.hi - 1)) 1 ≤ _
    omega
  · intro hc; rw [show (bisectProbe s).2.phase = s.phase from rfl, hp] at hc; cases hc
  · show s.lo ≤ max (min (max (s.lo + (s.hi - s.lo) / 2) (s.lo + 1)) (s.hi - 1)) 1
    omega
  · show max (min (max (s.lo + (s.hi - s.lo) / 2) (s.lo + 1)) (s.hi - 1)) 1 ≤ s.hi
    omega

theorem bisectNext_out (hp : s.phase = .bisect) (hg : Highest s.lastGood ps)
    (hlo : s.lo = s.lastGood.getD 0) (hle : s.lo ≤ s.hi)
    (hhi : s.hi ≤ max startRate cfg.maxRate) : Out cfg startRate ps (bisectNext cfg s) := by
  unfold bisectNext
  split
  · refine ⟨?_, fun _ => hle⟩
    cases hl : s.lastGood with
    | none => simpa [hlo, hl] using hl ▸ hg
    | some g =>
      rw [hl] at hlo hg
      simp only [hlo, Option.getD_some]
      split <;> exact hg
  · rename_i hstop
    simp only [Bool.or_eq_true, decide_eq_true_eq, not_or] at hstop
    exact bisectProbe_out hp hg hlo (by omega) hhi

theorem settle_pass (hmul : ∀ r, r ≤ cfg.mul r) (h : Live cfg startRate s ps) :
    Out cfg startRate (ps ++ [s.currentRate]) (settle cfg s.notePass true) := by
  obtain ⟨hpos, hle, hgood, hclimb, hbisect⟩ := h
  have hg : ∀ g, s.lastGood = some g → g ≤ s.currentRate := by
    intro g hs
    cases hp : s.phase with
    | climb => exact Nat.le_of_lt (hclimb hp g hs)
    | bisect => obtain ⟨hlo, hl, -⟩ := hbisect hp; simp only [hs, Option.getD_some] at hlo; omega
  have hgood' := hgood.snoc hg
  have hm := hmul s.currentRate
  unfold settle notePass
  cases hp : s.phase with
  | climb =>
    simp only [Bool.not_true, Bool.false_eq_true, if_false]
    split
    · split
      · exact ⟨hgood', fun hc => by simp at hc⟩
      · refine ⟨rfl, ?_, Nat.le_max_right _ _, hgood', fun _ g hs => ?_, fun hc => ?_⟩
        · simp only; omega
        · simp only [Option.some.injEq] at hs ⊢; omega
        · simp at hc
    · refine ⟨rfl, ?_, ?_, hgood', fun _ g hs => ?_, fun hc => ?_⟩
      · simp only; omega
      · simp only; omega
      · simp only [Option.some.injEq] at hs ⊢; omega
      · simp at hc
  | bisect =>
    obtain ⟨-, -, hch, hhi⟩ := hbisect hp
    exact bisectNext_out (by simp) (by simpa using hgood') (by simp) (by simpa using hch)
      (by simpa using hhi)

theorem settle_fail (h : Live cfg startRate s ps) : Out cfg startRate ps (settle cfg s false) := by
  obtain ⟨hpos, hle, hgood, hclimb, hbisect⟩ := h
  unfold settle
  cases hp : s.phase with
  | climb =>
    have hlt : s.lastGood.getD 0 < s.currentRate := by
      cases hs : s.lastGood with
      | none => exact hpos
      | some g => exact hclimb hp g hs
    exact bisectProbe_out rfl hgood rfl hlt hle
  | bisect =>
    obtain ⟨hlo, hl, -, -⟩ := hbisect hp
    exact bisectNext_out (by simp) (by simpa using hgood) (by simpa using hlo)
      (by simpa using hl) (by simpa using hle)

/-- A failed window either ends the call (a retry, or the floor while nothing passed) or settles
the failure in a search that is still live. -/
theorem noteFailure_out (h : Live cfg startRate s ps) (lat : F) :
    match noteFailure cfg s lat with
    | .inl out => Out cfg startRate ps out
    | .inr t => Live cfg startRate t ps := by
  obtain ⟨hpos, hle, hgood, hclimb, hbisect⟩ := h
  unfold noteFailure
  simp only
  split
  · rename_i out heq
    split at heq
    · cases heq; exact ⟨rfl, hpos, hle, hgood, hclimb, hbisect⟩
    · split at heq
      · rename_i hnone
        split at heq
        · cases heq
          simp only [Bool.and_eq_true, Option.isNone_iff_eq_none] at hnone
          refine ⟨by simpa [hnone.1.1] using hgood, fun hc => ?_⟩
          obtain ⟨-, hl, hh, -⟩ := hbisect hc
          exact Nat.le_trans hl hh
        · cases heq
      · cases heq
  · rename_i t heq
    split at heq
    · cases heq
    · split at heq
      · split at heq
        · cases heq
        · cases heq; exact ⟨hpos, hle, hgood, hclimb, hbisect⟩
      · cases heq; exact ⟨hpos, hle, hgood, hclimb, hbisect⟩

/-- **The spec of `advance`** on a live search. -/
theorem advance_out (hmul : ∀ r, r ≤ cfg.mul r) (h : Live cfg startRate s ps) (passed : Bool)
    (lat : F) : Out cfg startRate (if passed then ps ++ [s.currentRate] else ps)
      (advance cfg s passed lat) := by
  unfold advance
  cases passed with
  | true => exact settle_pass hmul h
  | false =>
    have hn := noteFailure_out h lat
    simp only [Bool.false_eq_true, if_false]
    split <;> rename_i heq <;> rw [heq] at hn
    · exact hn
    · exact settle_fail hn

end RateSearch

namespace SearchRun

variable {cfg : RateConfig F} {startRate : Nat}

theorem passed_snoc (log : List (Nat × Bool)) (r : Nat) (v : Bool) (o : SearchOutcome)
    (s : RateSearch F) :
    passed ⟨log ++ [(r, v)], o, s⟩ =
      if v then (log.filter (·.2)).map (·.1) ++ [r] else (log.filter (·.2)).map (·.1) := by
  cases v <;> simp [passed]

def Sound (cfg : RateConfig F) (startRate : Nat) (R : SearchRun F) : Prop :=
  Out cfg startRate R.passed (R.last, R.state)

theorem sound_start (h : 1 ≤ startRate) : Sound cfg startRate (start startRate) := by
  refine ⟨rfl, h, Nat.le_max_left _ _, ?_, fun _ g hg => ?_, fun hc => ?_⟩
  · show Highest none _; simp [Highest, passed, start]
  · cases hg
  · cases hc

theorem sound_measure (hmul : ∀ r, r ≤ cfg.mul r) {R : SearchRun F} (h : Sound cfg startRate R)
    (window : Nat → Bool × F) : Sound cfg startRate (measure cfg R window) := by
  obtain ⟨log, last, s⟩ := R
  cases last with
  | done k => exact h
  | probe r =>
    obtain ⟨hr, hlive⟩ := h
    have := RateSearch.advance_out hmul hlive (window r).1 (window r).2
    simp only at hr
    rw [hr] at this
    unfold Sound
    simp only [measure, passed_snoc]
    exact this

theorem sound_feed (hmul : ∀ r, r ≤ cfg.mul r) (windows : List (Nat → Bool × F)) :
    ∀ {R : SearchRun F}, Sound cfg startRate R → Sound cfg startRate (feed cfg R windows) := by
  induction windows with
  | nil => exact fun h => h
  | cons w ws ih => exact fun h => ih (sound_measure hmul h w)

/-- **Rate search soundness.** For every run of the search: when it is done, its knee is the
highest rate at which a window passed (none exactly when no window passed); in the bisection
`lo ≤ hi`; every rate asked for is at least one and at most `max startRate maxRate`. -/
theorem feed_sound (cfg : RateConfig F) (hmul : ∀ r, r ≤ cfg.mul r) {startRate : Nat}
    (hs : 1 ≤ startRate) (windows : List (Nat → Bool × F)) :
    let R := feed cfg (start startRate) windows
    (∀ knee, R.last = .done knee → (knee.isSome ↔ ∃ r, r ∈ R.passed) ∧
      ∀ k, knee = some k → k ∈ R.passed ∧ ∀ r ∈ R.passed, r ≤ k) ∧
    (R.state.phase = .bisect → R.state.lo ≤ R.state.hi) ∧
    (∀ r, R.last = .probe r → 1 ≤ r ∧ r ≤ max startRate cfg.maxRate) := by
  intro R
  have h : Sound cfg startRate R := sound_feed hmul windows (sound_start hs)
  unfold Sound Out at h
  refine ⟨fun knee hk => ?_, fun hp => ?_, fun r hr => ?_⟩
  · simp only [hk] at h
    refine ⟨h.1.isSome_iff, fun k hks => ?_⟩
    subst hks
    exact h.1
  · cases hl : R.last with
    | done k => simp only [hl] at h; exact h.2 hp
    | probe r =>
      simp only [hl] at h
      obtain ⟨-, hb, hh, -⟩ := h.2.bisect hp
      exact Nat.le_trans hb hh
  · simp only [hr] at h
    obtain ⟨rfl, hlive⟩ := h
    exact ⟨hlive.pos, hlive.le⟩

/-- The configuration of the source's tests: from 1000 by doubling up to 1000000, eight bisection
steps to five percent. -/
def testConfig (confirmFailures : Nat) (h : confirmFailures < 2 ^ 32) : RateConfig ℚ where
  mul r := r * 2
  maxRate := 1000000
  maxRate_u64 := by decide
  narrow := exactNarrow (1 / 20)
  maxBisectSteps := 8
  confirmFailures := confirmFailures
  confirmFailures_u32 := h
  floor := exactFloor 0

theorem feed_sound_test :
    let R := feed (testConfig 0 (by decide)) (start 1000)
      (List.replicate 20 fun r => (decide (r ≤ 30000), 0))
    R.last = .done (some 30000) ∧ 30000 ∈ R.passed ∧ ∀ r ∈ R.passed, r ≤ 30000 := by
  intro R
  have hd : R.last = .done (some 30000) := by decide +kernel
  exact ⟨hd, ((feed_sound (testConfig 0 (by decide))
    (fun r => Nat.le_mul_of_pos_right r (by decide)) (by decide) _).1 _ hd).2 _ rfl⟩

end SearchRun

end Saturation
