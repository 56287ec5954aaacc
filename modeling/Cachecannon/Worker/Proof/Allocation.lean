import Cachecannon.Worker.Proof.KeyShare
import Mathlib.Algebra.BigOperators.Ring.Finset
import Mathlib.Algebra.Order.Group.Unbundled.Abs
import Mathlib.Tactic.Linarith

/-!
# How far the connections are from the key shares

When every share is worth at least one connection, the counts start at the floors, which do not
exceed `total`, so only the first loop runs. As long as connections are missing, the largest gap
is positive; the count it raises was below its target and ends less than 1 above it
(`Near.raise`).
-/

namespace Worker

/-! ## The largest gap -/

theorem le_foldl_max {α : Type} (key : α → ℚ) {x y : α} {xs : List α} (hy : y ∈ x :: xs) :
    key y ≤ key (xs.foldl (fun best z => if key z < key best then best else z) x) := by
  induction xs generalizing x y with
  | nil =>
    obtain rfl := List.mem_singleton.1 hy
    exact le_rfl
  | cons z xs ih =>
    rw [List.foldl_cons]
    -- the better of the first two bounds both
    have hbest : key x ≤ key (if key z < key x then x else z) ∧
        key z ≤ key (if key z < key x then x else z) := by
      split
      · exact ⟨le_rfl, le_of_lt ‹_›⟩
      · exact ⟨le_of_not_gt ‹_›, le_rfl⟩
    have hfirst := ih (x := if key z < key x then x else z) List.mem_cons_self
    rcases List.mem_cons.1 hy with rfl | hy
    · exact hbest.1.trans hfirst
    · rcases List.mem_cons.1 hy with rfl | hy
      · exact hbest.2.trans hfirst
      · exact ih (List.mem_cons_of_mem _ hy)

theorem le_of_maxBy {α : Type} {key : α → ℚ} {xs : List α} {x y : α}
    (h : maxBy key xs = some x) (hy : y ∈ xs) : key y ≤ key x := by
  cases xs with
  | nil => cases h
  | cons z xs =>
    obtain rfl := Option.some.inj h
    exact le_foldl_max key hy

theorem sum_le_of_getD {l l' : List ℚ} (hlen : l.length = l'.length)
    (h : ∀ e, l.getD e 0 ≤ l'.getD e 0) : l.sum ≤ l'.sum := by
  induction l generalizing l' with
  | nil =>
    obtain rfl := List.length_eq_zero_iff.1 hlen.symm
    exact le_rfl
  | cons x l ih =>
    cases l' with
    | nil => cases hlen
    | cons x' l' =>
      rw [List.sum_cons, List.sum_cons]
      apply add_le_add
      · exact h 0
      · exact ih (Nat.succ.inj hlen) fun e => h (e + 1)

theorem getD_map_cast (count : List Nat) (e : Nat) :
    (count.map (Nat.cast : Nat → ℚ)).getD e 0 = count.getD e 0 := by
  simp only [List.getD_eq_getElem?_getD, List.getElem?_map]
  cases count[e]? <;> simp

/-! ## Counts near their targets -/

/-- Every count is less than 1 from its target. -/
def Near (target : List ℚ) (count : List Nat) : Prop :=
  ∀ e, -1 < gap target count e ∧ gap target count e < 1

variable {shares : List ℚ} {total : Nat}

theorem getD_target (shares : List ℚ) (total e : Nat) :
    (shares.map (· * (total : ℚ))).getD e 0 = shares.getD e 0 * total := by
  simp only [List.getD_eq_getElem?_getD, List.getElem?_map]
  cases shares[e]? <;> simp

theorem sum_target (shares : List ℚ) (total : Nat) :
    (shares.map (· * (total : ℚ))).sum = shares.sum * total := by
  have hmul := List.sum_map_mul_right shares (fun share => share) (total : ℚ)
  rwa [List.map_id'] at hmul

/-- The floor of a share that is worth a connection. -/
theorem floorCounts_getD (hworth : ∀ e, 0 < shares.getD e 0 → 1 ≤ shares.getD e 0 * total)
    (hnonneg : ∀ share ∈ shares, 0 ≤ share) (e : Nat) :
    ((floorCounts shares total).getD e 0 : ℚ) ≤ shares.getD e 0 * total ∧
      shares.getD e 0 * total < (floorCounts shares total).getD e 0 + 1 := by
  have hworth := hworth e
  simp only [floorCounts, List.getD_eq_getElem?_getD, List.getElem?_map] at hworth ⊢
  cases hshare : shares[e]? with
  | none => simp
  | some share =>
    rw [hshare] at hworth
    simp only [Option.getD_some, Option.map_some] at hworth ⊢
    by_cases hpos : 0 < share
    · have hone := hworth hpos
      have hfloor : 1 ≤ (share * (total : ℚ)).floor := Rat.le_floor_iff.2 (by exact_mod_cast hone)
      have hnat :
          (((share * (total : ℚ)).floor.toNat : Nat) : ℚ) = (share * (total : ℚ)).floor := by
        rw [← Int.cast_natCast, Int.toNat_of_nonneg (by omega)]
      have hnext := Rat.lt_floor_add_one (share * (total : ℚ))
      rw [Int.cast_add, Int.cast_one] at hnext
      rw [if_pos hpos, max_eq_left (by omega), hnat]
      exact ⟨Rat.floor_le _, hnext⟩
    · obtain rfl : share = 0 :=
        le_antisymm (le_of_not_gt hpos) (hnonneg share (List.mem_of_getElem? hshare))
      simp

theorem sum_floorCounts_le (hworth : ∀ e, 0 < shares.getD e 0 → 1 ≤ shares.getD e 0 * total)
    (hnonneg : ∀ share ∈ shares, 0 ≤ share) (hsum : shares.sum = 1) :
    (floorCounts shares total).sum ≤ total := by
  have hle : ((floorCounts shares total).map (Nat.cast : Nat → ℚ)).sum ≤
      (shares.map (· * (total : ℚ))).sum := by
    refine sum_le_of_getD (by simp [floorCounts]) fun e => ?_
    rw [getD_map_cast, getD_target]
    exact (floorCounts_getD hworth hnonneg e).1
  rw [sum_target, hsum, one_mul, ← Nat.cast_list_sum] at hle
  exact_mod_cast hle

/-- While connections are missing, some endpoint that owns keys is below its target. -/
theorem gap_pos_of_maxBy {count : List Nat} {e : Nat} (hok : CountsOk shares count)
    (hsum : shares.sum = 1) (hless : count.sum < total)
    (he : maxBy (gap (shares.map (· * (total : ℚ))) count) (liveEndpoints shares) = some e) :
    0 < gap (shares.map (· * (total : ℚ))) count e := by
  by_contra hnot
  have hgap : ∀ e', (shares.map (· * (total : ℚ))).getD e' 0 ≤ (count.getD e' 0 : ℚ) := by
    intro e'
    by_cases hlive : e' ∈ liveEndpoints shares
    · have hle := (le_of_maxBy he hlive).trans (not_lt.1 hnot)
      exact sub_nonpos.1 hle
    · -- an endpoint that owns no keys has target 0
      have hzero : shares.getD e' 0 ≤ 0 := by
        rw [List.getD_eq_getElem?_getD]
        cases hshare : shares[e']? with
        | none => exact le_rfl
        | some share =>
          rw [mem_liveEndpoints, List.getD_eq_getElem?_getD, hshare] at hlive
          obtain ⟨hlt, -⟩ := List.getElem?_eq_some_iff.1 hshare
          exact not_lt.1 fun hpos => hlive ⟨hlt, hpos⟩
      rw [getD_target]
      exact (mul_nonpos_of_nonpos_of_nonneg hzero (Nat.cast_nonneg total)).trans
        (Nat.cast_nonneg _)
  have htotal : (shares.map (· * (total : ℚ))).sum ≤ (count.map (Nat.cast : Nat → ℚ)).sum := by
    refine sum_le_of_getD (by simp [hok.length]) fun e' => ?_
    rw [getD_map_cast]
    exact hgap e'
  rw [sum_target, hsum, one_mul, ← Nat.cast_list_sum] at htotal
  have htotal : total ≤ count.sum := by exact_mod_cast htotal
  omega

theorem gap_modify {target : List ℚ} {count : List Nat} {e : Nat} (he : e < count.length)
    (e' : Nat) :
    gap target (count.modify e (· + 1)) e' =
      if e = e' then gap target count e' - 1 else gap target count e' := by
  rw [gap, getD_modify he]
  split
  · rename_i heq
    subst heq
    rw [gap, Nat.cast_add, Nat.cast_one, sub_add_eq_sub_sub]
  · rfl

/-- The loop that raises counts keeps them near their targets. -/
theorem Near.raise {left : Nat} {count count' : List Nat} (hok : CountsOk shares count)
    (hsum : shares.sum = 1)
    (hleft : count.sum + left = total) (hnear : Near (shares.map (· * (total : ℚ))) count)
    (h : raiseCounts (shares.map (· * (total : ℚ))) (liveEndpoints shares) left count =
      some count') : Near (shares.map (· * (total : ℚ))) count' := by
  induction left generalizing count with
  | zero =>
    obtain rfl := Option.some.inj h
    exact hnear
  | succ left ih =>
    obtain ⟨e, he, hrest⟩ := Option.bind_eq_some_iff.1 h
    have hpos := gap_pos_of_maxBy hok hsum (by omega) he
    have hmem : e ∈ liveEndpoints shares := by
      obtain ⟨e₀, hmem, he₀⟩ := exists_maxBy (gap (shares.map (· * (total : ℚ))) count)
        (show liveEndpoints shares ≠ [] by rintro hnil; rw [hnil] at he; cases he)
      rw [he] at he₀
      obtain rfl := Option.some.inj he₀
      exact hmem
    obtain ⟨hlt, hlive⟩ := mem_liveEndpoints.1 hmem
    rw [← hok.length] at hlt
    have hmod := sum_modify hlt (· + 1)
    refine ih (hok.modify hlt ((hok.pos_iff e).2 hlive) (f := (· + 1)) (Nat.succ_pos _))
      (by omega) ?_ hrest
    intro e'
    rw [gap_modify hlt]
    split
    · rename_i heq
      subst heq
      exact ⟨by linarith, by linarith [(hnear e).2]⟩
    · exact hnear e'

theorem floorCounts_near (hworth : ∀ e, 0 < shares.getD e 0 → 1 ≤ shares.getD e 0 * total)
    (hnonneg : ∀ share ∈ shares, 0 ≤ share) :
    Near (shares.map (· * (total : ℚ))) (floorCounts shares total) := by
  intro e
  obtain ⟨hle, hlt⟩ := floorCounts_getD hworth hnonneg e
  rw [gap, getD_target]
  exact ⟨by linarith, by linarith⟩

/-! ## The connections of an endpoint -/

/-- The slots of one endpoint. -/
theorem count_endpoint_slots (c first e : Nat) :
    (((List.range c).map fun k : Nat => ((k + 1 / 2 : ℚ) / (c : ℚ), first)).map (·.2)).count e =
      if first = e then c else 0 := by
  rw [List.map_map, show ((fun p : ℚ × Nat => p.2) ∘ fun k : Nat =>
      ((k + 1 / 2 : ℚ) / (c : ℚ), first)) = fun _ => first from rfl,
    List.map_const', List.length_range, List.count_replicate]
  simp

/-- The slots of the endpoints from `first` on. -/
theorem count_slots_from (count : List Nat) (first e : Nat) :
    (((count.zipIdx first).flatMap fun p =>
      (List.range p.1).map fun k : Nat => ((k + 1 / 2 : ℚ) / (p.1 : ℚ), p.2)).map (·.2)).count e =
        if first ≤ e then count.getD (e - first) 0 else 0 := by
  induction count generalizing first with
  | nil => simp
  | cons c count ih =>
    rw [List.zipIdx_cons, List.flatMap_cons, List.map_append, List.count_append, ih,
      count_endpoint_slots]
    rcases lt_trichotomy first e with hlt | rfl | hgt
    · obtain ⟨k, rfl⟩ : ∃ k, e = first + 1 + k := ⟨e - (first + 1), by omega⟩
      rw [if_neg (by omega), if_pos (by omega), if_pos (by omega), Nat.zero_add,
        Nat.add_sub_cancel_left, show first + 1 + k - first = k + 1 by omega,
        List.getD_cons_succ]
    · simp
    · rw [if_neg (by omega), if_neg (by omega), if_neg (by omega)]

/-- As many connections as the endpoint's count. -/
theorem count_slots (count : List Nat) (e : Nat) :
    ((slots count).map (·.2)).count e = count.getD e 0 :=
  (count_slots_from count 0 e).trans (by simp)

theorem count_sorted_slots (count : List Nat) (e : Nat) :
    (((slots count).mergeSort slotLe).map (·.2)).count e = count.getD e 0 := by
  rw [← count_slots count e]
  exact ((List.mergeSort_perm (slots count) slotLe).map _).count_eq e

/-- Shares that sum to 1 are not all 0. -/
theorem liveEndpoints_ne_nil (hsum : shares.sum = 1) : liveEndpoints shares ≠ [] := by
  intro hnil
  have hle : shares.sum ≤ (shares.map fun _ => (0 : ℚ)).sum := by
    refine sum_le_of_getD (List.length_map _).symm fun e => ?_
    have hnone : e ∉ liveEndpoints shares := by
      rw [hnil]
      exact List.not_mem_nil
    rw [mem_liveEndpoints] at hnone
    simp only [List.getD_eq_getElem?_getD, List.getElem?_map] at hnone ⊢
    cases hshare : shares[e]? with
    | none => exact le_rfl
    | some share =>
      obtain ⟨hlt, -⟩ := List.getElem?_eq_some_iff.1 hshare
      rw [hshare] at hnone
      exact not_lt.1 fun hpos => hnone ⟨hlt, hpos⟩
  rw [hsum, List.map_const', List.sum_replicate, nsmul_zero] at hle
  exact absurd hle (by norm_num)

/-- With a connection for each endpoint that owns keys, the counts are near their targets if every
share is worth a connection. -/
theorem exists_counts (hnonneg : ∀ share ∈ shares, 0 ≤ share) (hsum : shares.sum = 1)
    (hle : (liveEndpoints shares).length ≤ total) :
    ∃ count, CountsOk shares count ∧ count.sum = total ∧
      ((∀ e, 0 < shares.getD e 0 → 1 ≤ shares.getD e 0 * total) →
        Near (shares.map (· * (total : ℚ))) count) ∧
      keyShareEndpoints shares total =
        if vecFits 16 total then some (((slots count).mergeSort slotLe).map (·.2)) else none := by
  obtain ⟨raised, count, hraise, hlower, hok, htotal, heq⟩ :=
    keyShareEndpoints_eq (liveEndpoints_ne_nil hsum) hle
  refine ⟨count, hok, htotal, fun hworth => ?_, heq⟩
  -- the floors do not exceed the total, so no count is lowered
  have hfloors := sum_floorCounts_le hworth hnonneg hsum
  rw [Nat.sub_eq_zero_of_le hfloors] at hlower
  obtain rfl := Option.some.inj hlower
  exact (floorCounts_near hworth hnonneg).raise (floorCounts_ok shares total) hsum (by omega) hraise

/-- **The allocation by key share.** No choice of an endpoint fails, and there are exactly `total`
connections (up to the `Vec` that holds them). -/
theorem keyShareEndpoints_allocates (hnonneg : ∀ share ∈ shares, 0 ≤ share)
    (hsum : shares.sum = 1) (total : Nat) :
    ∃ assignment,
      keyShareEndpoints shares total =
        (if vecFits (if total < (liveEndpoints shares).length then 8 else 16) total then
          some assignment else none) ∧
      assignment.length = total ∧ (∀ e ∈ assignment, e < shares.length) ∧
      ((liveEndpoints shares).length ≤ total →
        (∀ e, 0 < shares.getD e 0 → e ∈ assignment) ∧
        (∀ e, shares.getD e 0 = 0 → e ∉ assignment) ∧
        ((∀ e, 0 < shares.getD e 0 → 1 ≤ shares.getD e 0 * total) →
          ∀ e, |(assignment.count e : ℚ) - shares.getD e 0 * total| < 1)) := by
  rcases Nat.lt_or_ge total (liveEndpoints shares).length with hlt | hle
  · obtain ⟨pool, hpool, heq⟩ := keyShareEndpoints_few (.inr hlt)
    obtain rfl := hpool (liveEndpoints_ne_nil hsum)
    refine ⟨(List.range total).map fun i =>
      (liveEndpoints shares).getD (i % (liveEndpoints shares).length) 0, ?_, by simp,
      fun e he => ?_, fun hle => by omega⟩
    · rw [heq, if_pos hlt]
    · obtain ⟨i, -, rfl⟩ := List.mem_map.1 he
      have hi : i % (liveEndpoints shares).length < (liveEndpoints shares).length :=
        Nat.mod_lt i (by omega)
      rw [List.getD_eq_getElem?_getD, List.getElem?_eq_getElem hi]
      exact (mem_liveEndpoints.1 (List.getElem_mem hi)).1
  · obtain ⟨count, hok, htotal, hnear, heq⟩ := exists_counts hnonneg hsum hle
    have hmem (e : Nat) :
        e ∈ ((slots count).mergeSort slotLe).map (·.2) ↔ 0 < shares.getD e 0 := by
      rw [← List.count_pos_iff, count_sorted_slots]
      exact hok.pos_iff e
    refine ⟨((slots count).mergeSort slotLe).map (·.2), ?_, ?_, fun e he => ?_, fun _ =>
      ⟨fun e => (hmem e).2, fun e hzero he => ?_, fun hworth e => ?_⟩⟩
    · rw [heq, if_neg (Nat.not_lt.2 hle)]
    · rw [List.length_map, List.length_mergeSort, slots_length, htotal]
    · have hpos := (hmem e).1 he
      by_contra hlen
      rw [List.getD_eq_getElem?_getD, List.getElem?_eq_none (not_lt.1 hlen)] at hpos
      exact absurd hpos (lt_irrefl 0)
    · have hpos := (hmem e).1 he
      rw [hzero] at hpos
      exact absurd hpos (lt_irrefl 0)
    · obtain ⟨hlow, hhigh⟩ := hnear hworth e
      rw [gap, getD_target] at hlow hhigh
      rw [count_sorted_slots]
      exact abs_lt.2 ⟨by linarith, by linarith⟩

/-- Three connections over two endpoints of equal share, and one that owns no keys. -/
theorem keyShareEndpoints_allocates_halves :
    (∀ share ∈ [(1 / 2 : ℚ), 0, 1 / 2], 0 ≤ share) ∧ [(1 / 2 : ℚ), 0, 1 / 2].sum = 1 ∧
      ∃ assignment, keyShareEndpoints [1 / 2, 0, 1 / 2] 3 = some assignment ∧
        assignment.length = 3 ∧ ∀ e ∈ assignment, e < 3 := by
  have hnonneg : ∀ share ∈ [(1 / 2 : ℚ), 0, 1 / 2], 0 ≤ share := by norm_num
  have hsum : [(1 / 2 : ℚ), 0, 1 / 2].sum = 1 := by norm_num
  obtain ⟨assignment, heq, hlength, hvalid, -⟩ := keyShareEndpoints_allocates hnonneg hsum 3
  refine ⟨hnonneg, hsum, assignment, heq.trans (if_pos ?_), hlength, hvalid⟩
  split <;> rfl

end Worker
