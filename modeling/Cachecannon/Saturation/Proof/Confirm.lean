import Cachecannon.Saturation.Proof.Terminate

/-!
# Confirmation is transparent

Two runs against one oracle, which gives every rate a fixed verdict. The first has no confirm
budget and sees the oracle's verdicts. The second has the budget `c`, and before each verdict it
settles it sees spurious failures: at most `c` where the oracle passes, and `c + 1` failures in
all where it fails (`Noise`). With floor detection off the two settle the same verdicts at the
same rates and end with the same knee (`Transparent`).

After every settled verdict the two searches are in the same state (`Lockstep`), because a
settled verdict clears the failure count and a retry changes nothing else (`block_settles`,
`lockstep_step`). A failure is not settled under the budget `u32::MAX`, so there the runs agree
exactly when the climb meets no failing rate (`ClimbRate`): `transparent_iff`.
-/

namespace Saturation

variable {F : Type}

/-- The same search with no confirm budget. -/
def RateConfig.unconfirmed (cfg : RateConfig F) : RateConfig F :=
  { cfg with
    confirmFailures := 0
    confirmFailures_u32 := Nat.zero_lt_of_lt cfg.confirmFailures_u32 }

/-! ## The climb -/

/-- The rate after `r` in a climb that goes on. -/
def climbNext (cfg : RateConfig F) (r : Nat) : Nat :=
  if cfg.maxRate ≤ cfg.mul r then cfg.maxRate else max (cfg.mul r) (r + 1)

def climbEnds (cfg : RateConfig F) (r : Nat) : Prop := cfg.maxRate ≤ cfg.mul r ∧ cfg.maxRate ≤ r

/-- `x` is a rate of the climb from `r`, which goes on as long as rates pass. -/
inductive ClimbRate (cfg : RateConfig F) : Nat → Nat → Prop
  | here (r : Nat) : ClimbRate cfg r r
  | next {r x : Nat} (h : ¬ climbEnds cfg r) (hx : ClimbRate cfg (climbNext cfg r) x) :
    ClimbRate cfg r x

theorem settle_climb (cfg : RateConfig F) (s : RateSearch F) (hp : s.phase = .climb) :
    (climbEnds cfg s.currentRate → s.settle cfg true = (.done s.lastGood, s)) ∧
      (¬ climbEnds cfg s.currentRate → s.settle cfg true =
        (.probe (climbNext cfg s.currentRate),
          { s with currentRate := climbNext cfg s.currentRate })) := by
  simp only [RateSearch.settle, hp, Bool.not_true, Bool.false_eq_true, if_false, climbEnds,
    climbNext]
  refine ⟨fun h => ?_, fun h => ?_⟩
  · rw [if_pos h.1, if_pos h.2]
  · by_cases hmax : cfg.maxRate ≤ cfg.mul s.currentRate
    · rw [if_pos hmax, if_neg fun hcur => h ⟨hmax, hcur⟩, if_pos hmax]
    · rw [if_neg hmax, if_neg hmax]

namespace SearchRun

/-! ## Settled verdicts -/

/-- Whether `advance` settles the verdict of a window, or measures the rate again. -/
def settles (cfg : RateConfig F) (s : RateSearch F) (passed : Bool) : Bool :=
  passed || decide (cfg.confirmFailures < (s.failuresAtRate + 1) % 2 ^ 32)

/-- The verdicts a run settles, with their rates, as it is fed `windows`. -/
def settledVerdicts (cfg : RateConfig F) : SearchRun F → List (Nat → Bool × F) → List (Nat × Bool)
  | _, [] => []
  | R, window :: windows =>
    match R.last with
    | .done _ => []
    | .probe r =>
      (if settles cfg R.state (window r).1 then [(r, (window r).1)] else []) ++
        settledVerdicts cfg (measure cfg R window) windows

/-- The first run's windows: the oracle's verdicts, with any latencies. -/
def oracleWindows (oracle : Nat → Bool) (lats : List F) : List (Nat → Bool × F) :=
  lats.map fun lat r => (oracle r, lat)

/-- What the second run sees at a rate it measures: how many spurious failures come first if the
rate passes, and the latencies. -/
structure Noise (F : Type) where
  spurious : Nat
  lats : Nat → F

def failures (lats : Nat → F) (n : Nat) : List (Nat → Bool × F) :=
  (List.range n).map fun i _ => (false, lats i)

def Noise.windows (oracle : Nat → Bool) (c : Nat) (noise : Noise F) (r : Nat) :
    List (Nat → Bool × F) :=
  if oracle r then
    failures noise.lats noise.spurious ++ [fun _ => (true, noise.lats noise.spurious)]
  else failures noise.lats (c + 1)

/-- The second run's windows, one block for each verdict. -/
def noisyWindows (cfg : RateConfig F) (oracle : Nat → Bool) :
    SearchRun F → List (Noise F) → List (Nat → Bool × F)
  | _, [] => []
  | R, noise :: blocks =>
    match R.last with
    | .done _ => []
    | .probe r =>
      noise.windows oracle cfg.confirmFailures r ++
        noisyWindows cfg oracle
          (feed cfg R (noise.windows oracle cfg.confirmFailures r)) blocks

/-- Two runs from `R`, as many blocks of the second as windows of the first: they settle the same
verdicts at the same rates, and end (or go on) with the same outcome. -/
def Transparent (cfg : RateConfig F) (oracle : Nat → Bool) (R : SearchRun F) : Prop :=
  ∀ (lats : List F) (blocks : List (Noise F)), blocks.length = lats.length →
    (∀ noise ∈ blocks, noise.spurious ≤ cfg.confirmFailures) →
    settledVerdicts cfg R (noisyWindows cfg oracle R blocks) =
        settledVerdicts cfg.unconfirmed R (oracleWindows oracle lats) ∧
      (feed cfg R (noisyWindows cfg oracle R blocks)).last =
        (feed cfg.unconfirmed R (oracleWindows oracle lats)).last

variable {cfg : RateConfig F} {oracle : Nat → Bool} {R : SearchRun F} {r : Nat}

theorem settledVerdicts_append (ws ws' : List (Nat → Bool × F)) : ∀ R : SearchRun F,
    settledVerdicts cfg R (ws ++ ws') =
      settledVerdicts cfg R ws ++ settledVerdicts cfg (feed cfg R ws) ws' := by
  induction ws with
  | nil => exact fun R => rfl
  | cons w ws ih =>
    intro R
    rw [List.cons_append, feed_cons]
    cases hlast : R.last with
    | done knee =>
      have hdone : ∀ vs : List (Nat → Bool × F), settledVerdicts cfg R vs = [] := by
        intro vs
        cases vs with
        | nil => rfl
        | cons v vs => simp only [settledVerdicts, hlast]
      rw [← feed_cons, feed_done hlast, hdone, hdone, hdone]
      rfl
    | probe r =>
      simp only [settledVerdicts, hlast]
      rw [ih, List.append_assoc]

theorem settledVerdicts_one (hlast : R.last = .probe r) (w : Nat → Bool × F) :
    settledVerdicts cfg R [w] = if settles cfg R.state (w r).1 then [(r, (w r).1)] else [] := by
  simp [settledVerdicts, hlast]

theorem settledVerdicts_retries (hoff : cfg.floor.enabled = false) :
    ∀ (ws : List (Nat → Bool × F)) (R : SearchRun F), R.last = .probe r →
      R.state.currentRate = r → (∀ w ∈ ws, (w r).1 = false) →
      R.state.failuresAtRate + ws.length ≤ cfg.confirmFailures →
      settledVerdicts cfg R ws = [] := by
  intro ws
  induction ws with
  | nil => exact fun _ _ _ _ _ => rfl
  | cons w ws ih =>
    intro R hlast hrate hfail hlen
    have hu32 := cfg.confirmFailures_u32
    rw [List.length_cons] at hlen
    have hw := hfail w (by simp)
    have hretry : settles cfg R.state false = false := by
      have hmod : (R.state.failuresAtRate + 1) % 2 ^ 32 = R.state.failuresAtRate + 1 :=
        Nat.mod_eq_of_lt (by omega)
      simp only [settles, hmod, Bool.false_or, decide_eq_false_iff_not]
      omega
    have hrest := ih ⟨R.log ++ [(r, false)], .probe r, R.state.countFailures 1⟩ rfl hrate
      (fun w' hw' => hfail w' (List.mem_cons_of_mem _ hw'))
      (by simp only [RateSearch.countFailures]; omega)
    simp only [settledVerdicts, hlast, hw, hretry, Bool.false_eq_true, if_false, List.nil_append]
    rw [measure_retry hoff hlast hrate (by omega) hw, hrest]

/-- What a run that settled the oracle's verdict at `r`, from the state `s`, has come to. -/
structure Settles (cfg : RateConfig F) (oracle : Nat → Bool) (s : RateSearch F) (r : Nat)
    (R : SearchRun F) : Prop where
  last : R.last = ((if oracle r then s.notePass else s).settle cfg (oracle r)).1
  state : R.state = ((if oracle r then s.notePass else s).settle cfg (oracle r)).2

theorem mem_failures {lats : Nat → F} {n : Nat} : ∀ w ∈ failures lats n, (w r).1 = false := by
  intro w hw
  obtain ⟨i, -, rfl⟩ := List.mem_map.1 hw
  rfl

theorem length_failures (lats : Nat → F) (n : Nat) : (failures lats n).length = n := by
  simp [failures]

theorem block_pass (hoff : cfg.floor.enabled = false) (hlast : R.last = .probe r)
    (hrate : R.state.currentRate = r) (hcount : R.state.failuresAtRate = 0)
    (hpass : oracle r = true) {noise : Noise F} (hnoise : noise.spurious ≤ cfg.confirmFailures) :
    Settles cfg oracle R.state r (feed cfg R (noise.windows oracle cfg.confirmFailures r)) ∧
      settledVerdicts cfg R (noise.windows oracle cfg.confirmFailures r) = [(r, oracle r)] := by
  have hlen : R.state.failuresAtRate + (failures noise.lats noise.spurious).length ≤
      cfg.confirmFailures := by rw [length_failures]; omega
  have hretries := feed_retries hoff _ R hlast hrate mem_failures hlen
  rw [Noise.windows, if_pos hpass, feed_append, settledVerdicts_append, hretries,
    settledVerdicts_retries hoff _ R hlast hrate mem_failures hlen, feed_cons,
    measure_pass rfl rfl, settledVerdicts_one rfl, hpass]
  -- a pass clears the count, whatever it was
  exact ⟨⟨by rw [if_pos hpass, hpass]; rfl, by rw [if_pos hpass, hpass]; rfl⟩, rfl⟩

theorem block_fail (hoff : cfg.floor.enabled = false) (hc : cfg.confirmFailures < 2 ^ 32 - 1)
    (hlast : R.last = .probe r) (hrate : R.state.currentRate = r)
    (hcount : R.state.failuresAtRate = 0) (hfail : oracle r = false) (noise : Noise F) :
    Settles cfg oracle R.state r (feed cfg R (noise.windows oracle cfg.confirmFailures r)) ∧
      settledVerdicts cfg R (noise.windows oracle cfg.confirmFailures r) = [(r, oracle r)] := by
  have hlen : R.state.failuresAtRate + (failures noise.lats cfg.confirmFailures).length ≤
      cfg.confirmFailures := by rw [length_failures]; omega
  have hsplit : failures noise.lats (cfg.confirmFailures + 1) =
      failures noise.lats cfg.confirmFailures ++
        [fun _ => (false, noise.lats cfg.confirmFailures)] := by
    simp [failures, List.range_succ]
  rw [Noise.windows, if_neg (by simp [hfail])]
  refine ⟨?_, ?_⟩
  · rw [feed_fail hoff hc hlast hrate hcount mem_failures (length_failures _ _)]
    exact ⟨by rw [if_neg (by simp [hfail]), hfail]; rfl,
      by rw [if_neg (by simp [hfail]), hfail]; rfl⟩
  · rw [hsplit, settledVerdicts_append, feed_retries hoff _ R hlast hrate mem_failures hlen,
      settledVerdicts_retries hoff _ R hlast hrate mem_failures hlen, settledVerdicts_one rfl,
      length_failures, hfail]
    simp [settles, RateSearch.countFailures, hcount]
    omega

/-- A window of the first run settles its verdict. -/
theorem window_settles (hoff : cfg.floor.enabled = false) (oracle : Nat → Bool)
    (hlast : R.last = .probe r) (hrate : R.state.currentRate = r)
    (hcount : R.state.failuresAtRate = 0) (lat : F) :
    Settles cfg oracle R.state r (measure cfg.unconfirmed R fun r => (oracle r, lat)) ∧
      settledVerdicts cfg.unconfirmed R [fun r => (oracle r, lat)] = [(r, oracle r)] := by
  rw [settledVerdicts_one hlast]
  cases hv : oracle r with
  | true =>
    rw [measure_pass hlast hv]
    exact ⟨⟨by rw [if_pos hv, hv]; rfl, by rw [if_pos hv, hv]; rfl⟩, rfl⟩
  | false =>
    have hmeasure : measure cfg.unconfirmed R (fun r => (oracle r, lat)) =
        settled cfg.unconfirmed R R.state 1 r false := by
      have hoff' : cfg.unconfirmed.floor.enabled = false := hoff
      have hfail : ∀ w ∈ [fun r => (oracle r, lat)], (w r).1 = false := by simp [hv]
      exact feed_fail hoff' (show 0 < 2 ^ 32 - 1 by decide) hlast hrate hcount hfail rfl
    rw [hmeasure]
    refine ⟨⟨by rw [if_neg (by simp [hv]), hv]; rfl, by rw [if_neg (by simp [hv]), hv]; rfl⟩, ?_⟩
    simp [settles, hcount, RateConfig.unconfirmed]

/-! ## Lockstep -/

/-- The two runs between two settled verdicts. -/
structure Lockstep (A B : SearchRun F) : Prop where
  last : B.last = A.last
  state : B.state = A.state
  rate : ∀ r, A.last = .probe r → A.state.currentRate = r
  count : A.state.failuresAtRate = 0

theorem Settles.lockstep {s : RateSearch F} {A B : SearchRun F} (hcount : s.failuresAtRate = 0)
    (hA : Settles cfg oracle s r A) (hB : Settles cfg oracle s r B) : Lockstep A B where
  last := hB.last.trans hA.last.symm
  state := hB.state.trans hA.state.symm
  rate x hx := by
    rw [hA.state]
    exact RateSearch.settle_rate cfg _ _ x (hA.last.symm.trans hx)
  count := by
    rw [hA.state, (RateSearch.settle_frame cfg _ _).2.1]
    cases oracle r
    · exact hcount
    · rfl

/-- The verdicts the oracle gives from the state `s` on can all be settled: the budget can be
exceeded, or the climb meets no failing rate. -/
def Settleable (cfg : RateConfig F) (oracle : Nat → Bool) (s : RateSearch F) : Prop :=
  cfg.confirmFailures < 2 ^ 32 - 1 ∨
    s.phase = .climb ∧ ∀ x, ClimbRate cfg s.currentRate x → oracle x = true

theorem block_settles (hoff : cfg.floor.enabled = false) (hlast : R.last = .probe r)
    (hrate : R.state.currentRate = r) (hcount : R.state.failuresAtRate = 0)
    (hok : Settleable cfg oracle R.state) {noise : Noise F}
    (hnoise : noise.spurious ≤ cfg.confirmFailures) :
    Settles cfg oracle R.state r (feed cfg R (noise.windows oracle cfg.confirmFailures r)) ∧
      settledVerdicts cfg R (noise.windows oracle cfg.confirmFailures r) = [(r, oracle r)] := by
  cases hv : oracle r with
  | true => exact hv ▸ block_pass hoff hlast hrate hcount hv hnoise
  | false =>
    rcases hok with hc | ⟨-, hclimb⟩
    · exact hv ▸ block_fail hoff hc hlast hrate hcount hv noise
    · rw [hclimb r (hrate ▸ .here _)] at hv
      cases hv

theorem Settleable.next {s : RateSearch F} {A : SearchRun F} (hok : Settleable cfg oracle s)
    (hrate : s.currentRate = r) (hA : Settles cfg oracle s r A) {x : Nat}
    (hlast : A.last = .probe x) : Settleable cfg oracle A.state := by
  rcases hok with hc | ⟨hphase, hclimb⟩
  · exact .inl hc
  · have hv : oracle r = true := hclimb r (hrate ▸ .here _)
    obtain ⟨hends, hnext⟩ := settle_climb cfg s.notePass hphase
    obtain ⟨hAlast, hAstate⟩ := hA
    rw [if_pos hv, hv] at hAlast hAstate
    by_cases hend : climbEnds cfg s.currentRate
    · rw [hends hend, hlast] at hAlast
      cases hAlast
    · rw [hnext hend] at hAstate
      rw [hAstate]
      exact .inr ⟨hphase, fun y hy => hclimb y (.next hend hy)⟩

/-- **The run lemma.** Runs in lockstep stay in lockstep. -/
theorem lockstep_transparent (hoff : cfg.floor.enabled = false) (lats : List F) :
    ∀ (A B : SearchRun F) (blocks : List (Noise F)), Lockstep A B →
      ((∃ r, A.last = .probe r) → Settleable cfg oracle A.state) →
      blocks.length = lats.length → (∀ noise ∈ blocks, noise.spurious ≤ cfg.confirmFailures) →
      settledVerdicts cfg B (noisyWindows cfg oracle B blocks) =
          settledVerdicts cfg.unconfirmed A (oracleWindows oracle lats) ∧
        (feed cfg B (noisyWindows cfg oracle B blocks)).last =
          (feed cfg.unconfirmed A (oracleWindows oracle lats)).last := by
  induction lats with
  | nil =>
    intro A B blocks hAB _ hlen _
    obtain rfl := List.length_eq_zero_iff.1 hlen
    exact ⟨rfl, hAB.last⟩
  | cons lat lats ih =>
    intro A B blocks hAB hok hlen hnoise
    obtain ⟨noise, blocks, rfl⟩ := List.exists_cons_of_length_eq_add_one hlen
    cases hlast : A.last with
    | done knee =>
      have hB : B.last = .done knee := hAB.last.trans hlast
      simp only [noisyWindows, hB, oracleWindows, List.map_cons, settledVerdicts, hlast]
      exact ⟨trivial, by rw [feed_done hlast, hlast]; exact hB⟩
    | probe r =>
      have hB : B.last = .probe r := hAB.last.trans hlast
      have hrate := hAB.rate r hlast
      have hokA := hok ⟨r, hlast⟩
      obtain ⟨hsA, hvA⟩ := window_settles hoff oracle hlast hrate hAB.count lat
      obtain ⟨hsB, hvB⟩ := block_settles hoff hB (hAB.state ▸ hrate) (hAB.state ▸ hAB.count)
        (hAB.state ▸ hokA) (hnoise noise (by simp))
      rw [hAB.state] at hsB
      obtain ⟨hverdicts, houtcome⟩ := ih _ _ blocks (hsA.lockstep hAB.count hsB)
        (fun ⟨_, hx⟩ => hokA.next hrate hsA hx) (by simpa using hlen)
        (fun noise' hn => hnoise noise' (List.mem_cons_of_mem _ hn))
      have hfirst : oracleWindows oracle (lat :: lats) =
          [fun r => (oracle r, lat)] ++ oracleWindows oracle lats := rfl
      have hsecond : noisyWindows cfg oracle B (noise :: blocks) =
          noise.windows oracle cfg.confirmFailures r ++
            noisyWindows cfg oracle (feed cfg B (noise.windows oracle cfg.confirmFailures r))
              blocks := by
        simp only [noisyWindows, hB]
      rw [hfirst, hsecond, settledVerdicts_append, settledVerdicts_append, feed_append,
        feed_append, hvA, hvB]
      exact ⟨congrArg _ hverdicts, houtcome⟩

/-! ## The budget `u32::MAX` -/

theorem settledVerdicts_max (hc : ¬ cfg.confirmFailures < 2 ^ 32 - 1) :
    ∀ (ws : List (Nat → Bool × F)) (R : SearchRun F), R.last = .probe r →
      R.state.currentRate = r → (∀ w ∈ ws, (w r).1 = false) → settledVerdicts cfg R ws = [] := by
  intro ws
  induction ws with
  | nil => exact fun _ _ _ _ => rfl
  | cons w ws ih =>
    intro R hlast hrate hfail
    have hw := hfail w (by simp)
    have hretry : settles cfg R.state false = false := by
      simp only [settles, Bool.false_or, decide_eq_false_iff_not]
      omega
    simp only [settledVerdicts, hlast, hw, hretry, Bool.false_eq_true, if_false, List.nil_append]
    rw [measure_probe hlast, hw, RateSearch.advance_fail_max hc]
    exact ih _ (congrArg _ hrate) hrate fun w' hw' => hfail w' (List.mem_cons_of_mem _ hw')

/-- Transparency from `R` is transparency from the run after a rate that passes. -/
theorem Transparent.pass (h : Transparent cfg oracle R) (lat : F) (hlast : R.last = .probe r)
    (hpass : oracle r = true) :
    Transparent cfg oracle (settled cfg R R.state.notePass 1 r true) := by
  intro lats blocks hlen hnoise
  obtain ⟨hverdicts, houtcome⟩ := h (lat :: lats) (⟨0, fun _ => lat⟩ :: blocks) (by simp [hlen])
    (by simpa using hnoise)
  have hfirst : oracleWindows oracle (lat :: lats) =
      [fun r => (oracle r, lat)] ++ oracleWindows oracle lats := rfl
  have hblock : Noise.windows oracle cfg.confirmFailures ⟨0, fun _ => lat⟩ r =
      [fun _ => (true, lat)] := by
    rw [Noise.windows, if_pos hpass]
    rfl
  have hstep : feed cfg R [fun _ => (true, lat)] = settled cfg R R.state.notePass 1 r true :=
    measure_pass hlast rfl
  have hstep' : feed cfg.unconfirmed R [fun r => (oracle r, lat)] =
      settled cfg R R.state.notePass 1 r true :=
    measure_pass hlast hpass
  have hsecond : noisyWindows cfg oracle R (⟨0, fun _ => lat⟩ :: blocks) =
      [fun _ => (true, lat)] ++
        noisyWindows cfg oracle (settled cfg R R.state.notePass 1 r true) blocks := by
    simp only [noisyWindows, hlast]
    rw [hblock, hstep]
  rw [hfirst, hsecond, settledVerdicts_append, settledVerdicts_append, hstep, hstep',
    settledVerdicts_one hlast, settledVerdicts_one hlast, hpass] at hverdicts
  rw [hfirst, hsecond, feed_append, feed_append, hstep, hstep'] at houtcome
  exact ⟨List.append_cancel_left hverdicts, houtcome⟩

/-- A climb that meets a failing rate is not transparent under the budget `u32::MAX`: the second
run never settles the failure. -/
theorem climb_not_transparent (hoff : cfg.floor.enabled = false)
    (hc : ¬ cfg.confirmFailures < 2 ^ 32 - 1) (lat : F) {x : Nat} (hfail : oracle x = false)
    (hx : ClimbRate cfg r x) :
    ∀ R : SearchRun F, R.last = .probe r → R.state.currentRate = r → R.state.phase = .climb →
      R.state.failuresAtRate = 0 → ¬ Transparent cfg oracle R := by
  have hstuck : ∀ {r} (R : SearchRun F), R.last = .probe r → R.state.currentRate = r →
      R.state.failuresAtRate = 0 → oracle r = false → ¬ Transparent cfg oracle R := by
    intro r R hlast hrate hcount hv htrans
    obtain ⟨hverdicts, -⟩ := htrans [lat] [⟨0, fun _ => lat⟩] rfl (by simp)
    have hnone : settledVerdicts cfg R (noisyWindows cfg oracle R [⟨0, fun _ => lat⟩]) = [] := by
      simp only [noisyWindows, hlast, List.append_nil, Noise.windows, hv, Bool.false_eq_true,
        if_false]
      exact settledVerdicts_max hc _ R hlast hrate mem_failures
    obtain ⟨-, hone⟩ := window_settles hoff oracle hlast hrate hcount lat
    rw [hnone] at hverdicts
    have hempty : [] = [(r, oracle r)] := hverdicts.trans hone
    cases hempty
  induction hx with
  | here r => exact fun R hlast hrate _ hcount => hstuck R hlast hrate hcount hfail
  | @next r x hend hx ih =>
    intro R hlast hrate hphase hcount htrans
    cases hv : oracle r with
    | false => exact hstuck R hlast hrate hcount hv htrans
    | true =>
      obtain ⟨-, hnext⟩ := settle_climb cfg R.state.notePass hphase
      have hgo := hnext (show ¬ climbEnds cfg R.state.currentRate by rwa [hrate])
      refine ih hfail (settled cfg R R.state.notePass 1 r true) ?_ ?_ ?_ ?_
        (htrans.pass lat hlast hv)
      all_goals simp only [settled, hgo]
      · simp only [RateSearch.notePass, hrate]
      · simp only [RateSearch.notePass, hrate]
      · exact hphase
      · rfl

/-- **Confirmation is transparent** exactly when the budget is below `u32::MAX` or the climb meets
no failing rate. The runs of a search whose climb product is at least the rate then end, with the
same knee. -/
theorem transparent_iff [Nonempty F] (cfg : RateConfig F) (hoff : cfg.floor.enabled = false)
    (oracle : Nat → Bool) (startRate : Nat) :
    (Transparent cfg oracle (start startRate) ∧
      ((∀ r, r ≤ cfg.mul r) → ∃ n, ∀ (lats : List F) (blocks : List (Noise F)), n ≤ lats.length →
        blocks.length = lats.length →
        (∀ noise ∈ blocks, noise.spurious ≤ cfg.confirmFailures) → ∃ knee,
          (feed cfg.unconfirmed (start startRate) (oracleWindows oracle lats)).last = .done knee ∧
          (feed cfg (start startRate) (noisyWindows cfg oracle (start startRate) blocks)).last =
            .done knee)) ↔
    (cfg.confirmFailures < 2 ^ 32 - 1 ∨
      ∀ r, ClimbRate cfg startRate r → oracle r = true) := by
  constructor
  · rintro ⟨htrans, -⟩
    by_contra hcon
    simp only [not_or, not_forall] at hcon
    obtain ⟨hc, x, hx, hfail⟩ := hcon
    obtain ⟨lat⟩ := ‹Nonempty F›
    exact climb_not_transparent hoff hc lat (by simpa using hfail) hx (start startRate) rfl rfl rfl
      rfl htrans
  · intro hok
    have htrans : Transparent cfg oracle (start startRate) := fun lats blocks hlen hnoise =>
      lockstep_transparent hoff lats (start startRate) (start startRate) blocks
        ⟨rfl, rfl, fun _ hr => SearchOutcome.probe.inj hr, rfl⟩
        (fun _ => hok.imp_right fun hclimb => ⟨rfl, hclimb⟩) hlen hnoise
    refine ⟨htrans, fun hmul => ⟨(start startRate : SearchRun F).state.fuel cfg.unconfirmed + 1,
      fun lats blocks hn hlen hnoise => ?_⟩⟩
    have hmul' : ∀ r, r ≤ cfg.unconfirmed.mul r := hmul
    obtain ⟨knee, hdone⟩ := feed_done_of_fuel hmul' (show 0 < 2 ^ 32 - 1 by decide)
      (oracleWindows oracle lats) (start startRate) (Nat.zero_le _)
      (by rw [oracleWindows, List.length_map]; exact hn)
    exact ⟨knee, hdone, (htrans lats blocks hlen hnoise).2.trans hdone⟩

theorem transparent_test :
    Transparent (testConfig 2 (by decide)) (fun r => decide (r ≤ 30000)) (start 1000) :=
  ((transparent_iff (testConfig 2 (by decide)) (by decide) (fun r => decide (r ≤ 30000)) 1000).2
    (.inl (by decide))).1

/-- The first rate fails, and under the budget `u32::MAX` the failure is never settled. -/
theorem not_transparent_test :
    ¬ Transparent (testConfig (2 ^ 32 - 1) (by decide)) (fun r => decide (r ≤ 500)) (start 1000) :=
  climb_not_transparent (by decide) (by decide) 0 (show _ = false by decide) (.here 1000)
    (start 1000) rfl rfl rfl rfl

end SearchRun

end Saturation
