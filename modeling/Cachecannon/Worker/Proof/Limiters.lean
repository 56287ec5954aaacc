import Cachecannon.Worker.Limiters
import Mathlib.Algebra.BigOperators.Ring.Finset
import Mathlib.Algebra.Order.BigOperators.Group.List
import Mathlib.Algebra.Order.Field.Basic
import Mathlib.Data.List.Forall2
import Mathlib.Data.List.ReduceOption
import Mathlib.Tactic.FieldSimp

/-!
# The split of the rate is exact

`Splits` is what holds of a worker and its limiter: the limiter counts `rate * conns` requests per
`total` seconds, its cap covers a claim, and a worker without connections has none. It is built so
(`buildLimiters_spec`) and a change of the rate keeps it (`splits_setRate`), so the shares always
sum to the current rate. At the start the limiters hold their staggers, which are apart from each
other as long as a claim has a unit for each active worker.
-/

namespace Worker

open Runner (saturatingMul)

variable {L : Type} {lib : Ratelimiter L}

/-- A worker with `w` connections and its limiter. -/
def Splits (lib : Ratelimiter L) (rate totalWeight claim : Nat) (w : Nat) :
    Option (WorkerLimiter L) → Prop
  | none => w = 0
  | some l => 0 < w ∧ lib.rate l.inner = rate * w * sub ∧ lib.period l.inner = totalWeight ∧
    claim * sub ≤ lib.maxTokens l.inner ∧ l.claim = claim * sub

/-- No product of the split overflows, and a claim has a unit for each active worker. -/
structure SplitFits (connections : List Nat) (claim : Nat) : Prop where
  total_pos : 0 < connections.sum
  total : connections.sum < 2 ^ 64
  claim_pos : 1 ≤ claim
  claim_units : claim * sub < 2 ^ 64
  stagger : ∀ index < connections.countP (0 < ·), index * claim * sub < 2 ^ 64
  active : connections.countP (0 < ·) ≤ 1024 * claim

structure RateFits (connections : List Nat) (rate : Nat) : Prop where
  pos : 1 ≤ rate
  fits : ∀ w ∈ connections, rate * w * sub < 2 ^ 64

/-- What the limiters hold, in worker order. -/
def holdings (lib : Ratelimiter L) (limiters : List (Option (WorkerLimiter L))) : List Nat :=
  limiters.reduceOption.map fun l => lib.available l.inner

theorem saturatingMul_eq {a b : Nat} (h : a * b < 2 ^ 64) : saturatingMul a b = a * b :=
  min_eq_left (Nat.le_sub_one_of_lt h)

/-- The rate of a worker in units: neither product overflows. -/
theorem saturatingMul_rate {rate w : Nat} (h : rate * w * sub < 2 ^ 64) :
    saturatingMul (saturatingMul rate w) sub = rate * w * sub := by
  have hle : rate * w ≤ rate * w * sub := Nat.le_mul_of_pos_right _ (by decide)
  rw [saturatingMul_eq (hle.trans_lt h), saturatingMul_eq h]

/-! ## Building the limiters -/

section Build

variable {rate totalWeight claim : Nat}

/-- A worker's limiter, which starts with its stagger: less than a claim. -/
theorem build_splits (lib : Ratelimiter L) {w stagger : Nat} (hrate : 1 ≤ rate) (hw : 0 < w)
    (hfits : rate * w * sub < 2 ^ 64) (htotal : 0 < totalWeight) (hclaim : 1 ≤ claim)
    (hclaim' : claim * sub < 2 ^ 64) (hstagger : stagger < claim * sub) :
    ∃ l : WorkerLimiter L, WorkerLimiter.build lib (saturatingMul rate w) totalWeight
        (max (shareCeil rate w totalWeight) claim) stagger claim (some stagger) = some l ∧
      Splits lib rate totalWeight claim w (some l) ∧ lib.available l.inner = stagger := by
  have hburst : claim * sub ≤
      saturatingMul (max (shareCeil rate w totalWeight) claim) sub := by
    refine le_min (Nat.mul_le_mul_right _ (le_max_right _ _)) ?_
    exact Nat.le_sub_one_of_lt hclaim'
  obtain ⟨cap, hcap⟩ : ∃ cap, cap = min
      (saturatingMul (max (shareCeil rate w totalWeight) claim) sub + stagger) (2 ^ 64 - 1) :=
    ⟨_, rfl⟩
  have hcovers : claim * sub ≤ cap := by
    rw [hcap]
    exact le_min (hburst.trans (Nat.le_add_right _ _)) (Nat.le_sub_one_of_lt hclaim')
  have hpos : 0 < rate * w * sub := Nat.mul_pos (Nat.mul_pos hrate hw) (by decide)
  have hstart : min stagger cap = stagger := min_eq_left (hstagger.le.trans hcovers)
  obtain ⟨inner, hinner, hrate', hperiod, hmax, havailable⟩ := @Ratelimiter.build_spec L lib
    (rate * w * sub) totalWeight cap stagger hpos htotal (by omega) (hstagger.le.trans hcovers)
  refine ⟨⟨inner, claim * sub, stagger⟩, ?_, ⟨hw, hrate', hperiod, ?_, rfl⟩, havailable⟩
  · simp only [WorkerLimiter.build, Option.getD_some, saturatingMul_rate hfits, ← hcap, hstart,
      hinner, Option.map_some, max_eq_left hclaim, saturatingMul_eq hclaim']
  · rw [hmax]
    exact hcovers

theorem stagger_lt {index active : Nat} (hclaim : 1 ≤ claim) (hindex : index < active) :
    index * claim * sub / active < claim * sub := by
  apply Nat.div_lt_of_lt_mul
  rw [Nat.mul_assoc]
  exact Nat.mul_lt_mul_of_pos_right hindex (Nat.mul_pos hclaim (by decide))

/-- The limiters of the workers from `index` on. -/
theorem buildLimiters_spec (lib : Ratelimiter L) {ws : List Nat} (active index : Nat)
    (hrate : 1 ≤ rate) (hfits : ∀ w ∈ ws, rate * w * sub < 2 ^ 64) (htotal : 0 < totalWeight)
    (hclaim : 1 ≤ claim) (hclaim' : claim * sub < 2 ^ 64)
    (hactive : index + ws.countP (0 < ·) ≤ active)
    (hstagger : ∀ i < active, i * claim * sub < 2 ^ 64) :
    ∃ limiters, buildLimiters lib rate totalWeight active claim index ws = some limiters ∧
      List.Forall₂ (Splits lib rate totalWeight claim) ws limiters ∧
      holdings lib limiters =
        (List.range' index (ws.countP (0 < ·))).map fun i => i * claim * sub / active := by
  induction ws generalizing index with
  | nil => exact ⟨[], rfl, .nil, rfl⟩
  | cons w ws ih =>
    have hrest : ∀ w ∈ ws, rate * w * sub < 2 ^ 64 :=
      fun w hw => hfits w (List.mem_cons_of_mem _ hw)
    rcases Nat.eq_zero_or_pos w with rfl | hw
    · rw [List.countP_cons_of_neg (by simp)] at hactive ⊢
      obtain ⟨limiters, hrun, hsplits, hstarts⟩ := ih index hrest hactive
      refine ⟨none :: limiters, ?_, .cons rfl hsplits, hstarts⟩
      rw [buildLimiters, if_pos rfl, hrun, Option.map_some]
    · rw [List.countP_cons_of_pos (by simpa using hw)] at hactive ⊢
      obtain ⟨limiters, hrun, hsplits, hstarts⟩ := ih (index + 1) hrest (by omega)
      have hstart : index * claim * sub / active < claim * sub := stagger_lt hclaim (by omega)
      obtain ⟨l, hbuild, hsplit, havailable⟩ := build_splits lib hrate hw
        (hfits w List.mem_cons_self) htotal hclaim hclaim' hstart
      refine ⟨some l :: limiters, ?_, .cons hsplit hsplits, ?_⟩
      · rw [buildLimiters, if_neg hw.ne']
        simp only [Nat.mod_eq_of_lt (hstagger index (by omega)), hbuild, hrun,
          Option.bind_eq_bind, Option.bind_some, Option.pure_def]
      · rw [holdings, List.reduceOption_cons_of_some, List.map_cons, ← holdings, hstarts,
          havailable, List.range'_succ, List.map_cons]

end Build

/-! ## The split -/

/-- The limiters of a run, at the current rate. -/
structure SplitOk (lib : Ratelimiter L) (connections : List Nat) (claim rate : Nat)
    (l : WorkerLimiters L) : Prop where
  weights : l.weights = connections
  total : l.totalWeight = connections.sum
  current : l.rate = rate
  splits : List.Forall₂ (Splits lib rate connections.sum claim) connections l.limiters

variable {connections : List Nat} {claim rate : Nat}

theorem new_splits (lib : Ratelimiter L) (h : SplitFits connections claim)
    (hrate : RateFits connections rate) :
    ∃ l : WorkerLimiters L, WorkerLimiters.new lib rate connections claim = some l ∧
      SplitOk lib connections claim rate l ∧
      holdings lib l.limiters =
        (List.range' 0 (connections.countP (0 < ·))).map fun i =>
          i * claim * sub / max (connections.countP (0 < ·)) 1 := by
  have htotal : max (connections.sum % 2 ^ 64) 1 = connections.sum := by
    rw [Nat.mod_eq_of_lt h.total]
    exact max_eq_left h.total_pos
  have hclaim : max claim 1 = claim := max_eq_left h.claim_pos
  have hstagger : ∀ i < max (connections.countP (0 < ·)) 1, i * claim * sub < 2 ^ 64 := by
    intro i hi
    rcases Nat.eq_zero_or_pos i with rfl | hpos
    · rw [Nat.zero_mul, Nat.zero_mul]
      decide
    · exact h.stagger i (by omega)
  obtain ⟨limiters, hrun, hsplits, hstarts⟩ := buildLimiters_spec lib
    (max (connections.countP (0 < ·)) 1) 0 hrate.pos hrate.fits h.total_pos h.claim_pos
    h.claim_units (by omega) hstagger
  refine ⟨⟨limiters, connections, connections.sum, rate⟩, ?_, ⟨rfl, rfl, rfl, hsplits⟩, hstarts⟩
  simp only [WorkerLimiters.new, htotal, hclaim, hrun, Option.map_some]

/-- A change of the rate re-splits it, and leaves the caps. -/
theorem splits_setRate {rate' total : Nat} {ws : List Nat}
    {limiters : List (Option (WorkerLimiter L))}
    (h : List.Forall₂ (Splits lib rate total claim) ws limiters)
    (hfits : ∀ w ∈ ws, rate' * w * sub < 2 ^ 64) :
    List.Forall₂ (Splits lib rate' total claim) ws (limiters.zipWith
      (fun rl w => rl.map fun rl => rl.setRatePer lib (saturatingMul rate' w) total) ws) := by
  induction h with
  | nil => exact .nil
  | @cons w rl ws limiters hsplit _ ih =>
    refine .cons ?_ (ih fun w hw => hfits w (List.mem_cons_of_mem _ hw))
    cases rl with
    | none => exact hsplit
    | some rl =>
      obtain ⟨hpos, -, -, hcap, hclaim⟩ := hsplit
      refine ⟨hpos, ?_, lib.period_setRatePer _ _ _, ?_, hclaim⟩
      · rw [← saturatingMul_rate (hfits w List.mem_cons_self)]
        exact lib.rate_setRatePer _ _ _
      · show claim * sub ≤ lib.maxTokens (lib.setRatePer rl.inner _ _)
        rw [lib.maxTokens_setRatePer]
        exact hcap

theorem splitOk_setRate {rate' : Nat} {l : WorkerLimiters L}
    (h : SplitOk lib connections claim rate l) (hrate : RateFits connections rate') :
    SplitOk lib connections claim rate' (l.setRate lib rate') where
  weights := h.weights
  total := h.total
  current := rfl
  splits := by
    show List.Forall₂ _ connections (l.limiters.zipWith _ l.weights)
    rw [h.weights, h.total]
    exact splits_setRate h.splits hrate.fits

theorem splitOk_setRates {rates : List Nat} {l : WorkerLimiters L}
    (h : SplitOk lib connections claim rate l) (hrates : ∀ r ∈ rates, RateFits connections r) :
    SplitOk lib connections claim (rates.getLastD rate)
      (rates.foldl (fun l rate => l.setRate lib rate) l) := by
  induction rates generalizing l rate with
  | nil => exact h
  | cons r rates ih =>
    rw [List.foldl_cons, List.getLastD_cons]
    exact ih (splitOk_setRate h (hrates r List.mem_cons_self))
      fun r hr => hrates r (List.mem_cons_of_mem _ hr)

/-! ## The shares -/

/-- Requests per second of a worker, which may have no limiter. -/
def shareRate (lib : Ratelimiter L) (rl : Option (WorkerLimiter L)) : ℚ :=
  (rl.map fun l => l.ratePerSecond lib).getD 0

theorem shareRate_eq {total w : Nat} {rl : Option (WorkerLimiter L)}
    (h : Splits lib rate total claim w rl) : shareRate lib rl = rate * w / total := by
  cases rl with
  | none =>
    obtain rfl : w = 0 := h
    simp [shareRate]
  | some l =>
    obtain ⟨-, hrate, hperiod, -, -⟩ := h
    have hsub : (sub : ℚ) ≠ 0 := by norm_num [sub]
    show (lib.rate l.inner : ℚ) / sub / lib.period l.inner = _
    rw [hrate, hperiod, Nat.cast_mul, Nat.cast_mul, mul_div_assoc, div_self hsub, mul_one]

/-- The shares sum to the rate. -/
theorem sum_shareRate {total : Nat} {ws : List Nat} {limiters : List (Option (WorkerLimiter L))}
    (h : List.Forall₂ (Splits lib rate total claim) ws limiters) :
    (limiters.map (shareRate lib)).sum = rate * ws.sum / total := by
  induction h with
  | nil => simp
  | cons hsplit _ ih =>
    rw [List.map_cons, List.sum_cons, List.sum_cons, ih, shareRate_eq hsplit, Nat.cast_add,
      mul_add, add_div]

/-- Staggers that are a unit apart or more. -/
theorem staggers_increasing {active : Nat} (hactive : active ≤ 1024 * claim) :
    ((List.range' 0 active).map fun i => i * claim * sub / max active 1).Pairwise (· < ·) := by
  rw [List.pairwise_map]
  refine (List.pairwise_lt_range' (s := 0) (n := active)).imp_of_mem fun {i j} hi hj hlt => ?_
  have hpos : 0 < max active 1 := by omega
  have hone : max active 1 ≤ claim * sub := by
    rw [List.mem_range'_1] at hi
    rw [sub, Nat.mul_comm]
    omega
  calc i * claim * sub / max active 1
      < i * claim * sub / max active 1 + 1 := Nat.lt_succ_self _
    _ = (i * claim * sub + max active 1) / max active 1 := (Nat.add_div_right _ hpos).symm
    _ ≤ (i * claim * sub + claim * sub) / max active 1 :=
        Nat.div_le_div_right (Nat.add_le_add_left hone _)
    _ = (i + 1) * claim * sub / max active 1 := by rw [Nat.add_mul, Nat.one_mul, Nat.add_mul]
    _ ≤ j * claim * sub / max active 1 :=
        Nat.div_le_div_right (Nat.mul_le_mul_right _ (Nat.mul_le_mul_right _ hlt))

/-- **The split of the rate over the workers**, after any changes of the rate. -/
theorem limiters_split (lib : Ratelimiter L) {rates : List Nat} (h : SplitFits connections claim)
    (hrate : RateFits connections rate) (hrates : ∀ r ∈ rates, RateFits connections r) :
    ∃ l : WorkerLimiters L, WorkerLimiters.new lib rate connections claim = some l ∧
      ((holdings lib l.limiters).Pairwise (· < ·) ∧
        ∀ start ∈ holdings lib l.limiters, start < claim * sub) ∧
      ∀ l', rates.foldl (fun l rate => l.setRate lib rate) l = l' →
        l'.rate = rates.getLastD rate ∧ l'.limiters.length = connections.length ∧
        (l'.limiters.map (shareRate lib)).sum = l'.rate ∧
        ∀ i w : Nat, connections[i]? = some w →
          (w = 0 → l'.limiters[i]? = some none) ∧
          (0 < w → ∃ rl : WorkerLimiter L, l'.limiters[i]? = some (some rl) ∧
            rl.ratePerSecond lib = l'.rate * w / connections.sum ∧ 0 < lib.rate rl.inner ∧
            rl.claim = claim * sub ∧ rl.claim ≤ lib.maxTokens rl.inner ∧
            claim ≤ rl.maxTokens lib) := by
  obtain ⟨l, hnew, hok, hstarts⟩ := new_splits lib h hrate
  refine ⟨l, hnew, ?_, ?_⟩
  · rw [hstarts]
    refine ⟨staggers_increasing h.active, fun start hstart => ?_⟩
    obtain ⟨i, hi, rfl⟩ := List.mem_map.1 hstart
    rw [List.mem_range'_1] at hi
    exact stagger_lt h.claim_pos (by omega)
  · rintro l' rfl
    have hlast : RateFits connections (rates.getLastD rate) :=
      List.forall_mem_cons.2 ⟨hrate, hrates⟩ _ List.getLastD_mem_cons
    have hok' := splitOk_setRates hok hrates
    have htotal : (connections.sum : ℚ) ≠ 0 := by exact_mod_cast h.total_pos.ne'
    refine ⟨hok'.current, hok'.splits.length_eq.symm, ?_, fun i w hw => ?_⟩
    · rw [sum_shareRate hok'.splits, hok'.current, mul_div_assoc, div_self htotal, mul_one]
    · obtain ⟨hi, hget⟩ := List.getElem?_eq_some_iff.1 hw
      have hi' : i < (rates.foldl (fun l rate => l.setRate lib rate) l).limiters.length := by
        rw [← hok'.splits.length_eq]
        exact hi
      have hsplit := (List.forall₂_iff_get.1 hok'.splits).2 i hi hi'
      rw [List.get_eq_getElem, List.get_eq_getElem, hget] at hsplit
      rw [List.getElem?_eq_getElem hi', hok'.current]
      generalize (rates.foldl (fun l rate => l.setRate lib rate) l).limiters[i] = rl at hsplit ⊢
      cases rl with
      | none => exact ⟨fun _ => rfl, fun hpos => absurd hsplit hpos.ne'⟩
      | some rl =>
        have hshare := shareRate_eq hsplit
        obtain ⟨hpos, hunits, -, hcap, hclaim⟩ := hsplit
        refine ⟨fun hzero => by omega, fun _ => ⟨rl, rfl, hshare, ?_, hclaim, ?_, ?_⟩⟩
        · rw [hunits]
          exact Nat.mul_pos (Nat.mul_pos hlast.pos hpos) (by decide)
        · rw [hclaim]
          exact hcap
        · exact (Nat.le_div_iff_mul_le (by decide)).2 hcap

/-- A limiter that is what it was built with. -/
structure Built where
  rate : Nat
  period : Nat
  maxTokens : Nat
  available : Nat

def builtLimiter : Ratelimiter Built where
  build rate period maxTokens initialAvailable :=
    if initialAvailable ≤ maxTokens then some ⟨rate, period, maxTokens, initialAvailable⟩ else none
  rate := Built.rate
  period := Built.period
  maxTokens := Built.maxTokens
  available := Built.available
  setRatePer l rate period := { l with rate, period }
  build_spec := by
    intro rate period cap initial _ _ _ hle
    exact ⟨⟨rate, period, cap, initial⟩, if_pos hle, rfl, rfl, rfl, rfl⟩
  rate_setRatePer _ _ _ := rfl
  period_setRatePer _ _ _ := rfl
  maxTokens_setRatePer _ _ _ := rfl

/-- Three connections over two of three workers, in claims of 4: 10 requests per second, then 20. -/
theorem limiters_split_uneven :
    SplitFits [2, 0, 1] 4 ∧ RateFits [2, 0, 1] 10 ∧ (∀ r ∈ [20], RateFits [2, 0, 1] r) ∧
      ∃ l, WorkerLimiters.new builtLimiter 10 [2, 0, 1] 4 = some l ∧
        ((l.setRate builtLimiter 20).limiters.map (shareRate builtLimiter)).sum = (20 : Nat) := by
  have hfits : SplitFits [2, 0, 1] 4 :=
    ⟨by decide, by decide, by decide, by decide, by decide, by decide⟩
  have hrate : RateFits [2, 0, 1] 10 := ⟨by decide, by decide⟩
  have hrates : ∀ r ∈ [20], RateFits [2, 0, 1] r := by
    intro r hr
    obtain rfl := List.mem_singleton.1 hr
    exact ⟨by decide, by decide⟩
  obtain ⟨l, hnew, -, hrun⟩ := limiters_split builtLimiter hfits hrate hrates
  exact ⟨hfits, hrate, hrates, l, hnew, (hrun _ rfl).2.2.1⟩

end Worker
