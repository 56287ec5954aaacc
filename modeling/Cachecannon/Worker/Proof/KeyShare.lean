import Cachecannon.Lib.Ledger
import Cachecannon.Worker.Connections
import Mathlib.Algebra.Order.BigOperators.Group.List

/-!
# Connections by key share

`key_share_endpoints` starts from counts that are at least 1 for the endpoints that own keys, and
moves them one connection at a time until they sum to `total`. `CountsOk` is what the two loops
keep: an endpoint has connections exactly when it owns keys. Neither loop panics while there are at
least as many connections as endpoints that own keys (`raiseCounts_spec`, `lowerCounts_spec`).
-/

namespace Worker

/-! ## Choosing an endpoint -/

section Choice

variable {α : Type}

/-- A fold that keeps one of two elements ends with one of the list. -/
theorem foldl_choice_mem {choose : α → α → α} (h : ∀ a b, choose a b = a ∨ choose a b = b)
    (x : α) (xs : List α) : xs.foldl choose x ∈ x :: xs := by
  induction xs generalizing x with
  | nil => simp
  | cons y ys ih =>
    rw [List.foldl_cons]
    have hmem := ih (choose x y)
    rcases h x y with hx | hy
    · rw [hx] at hmem ⊢
      rcases List.mem_cons.1 hmem with heq | hmem
      · exact List.mem_cons.2 (.inl heq)
      · exact List.mem_cons_of_mem _ (List.mem_cons_of_mem _ hmem)
    · rw [hy] at hmem ⊢
      exact List.mem_cons_of_mem _ hmem

theorem exists_maxBy (key : α → ℚ) {xs : List α} (h : xs ≠ []) :
    ∃ x ∈ xs, maxBy key xs = some x := by
  cases xs with
  | nil => exact absurd rfl h
  | cons x xs =>
    refine ⟨_, foldl_choice_mem (fun a b => ?_) x xs, rfl⟩
    split
    · exact .inl rfl
    · exact .inr rfl

theorem exists_minBy (key : α → ℚ) {xs : List α} (h : xs ≠ []) :
    ∃ x ∈ xs, minBy key xs = some x := by
  cases xs with
  | nil => exact absurd rfl h
  | cons x xs =>
    refine ⟨_, foldl_choice_mem (fun a b => ?_) x xs, rfl⟩
    split
    · exact .inr rfl
    · exact .inl rfl

end Choice

/-! ## Counts -/

theorem getD_modify {e : Nat} {count : List Nat} (he : e < count.length) (f : Nat → Nat)
    (e' : Nat) :
    (count.modify e f).getD e' 0 = if e = e' then f (count.getD e 0) else count.getD e' 0 := by
  simp only [List.getD_eq_getElem?_getD, List.getElem?_modify]
  by_cases h : e = e'
  · subst h
    simp [List.getElem?_eq_getElem he]
  · simp [h]

theorem sum_modify {e : Nat} {count : List Nat} (he : e < count.length) (f : Nat → Nat) :
    (count.modify e f).sum + count.getD e 0 = count.sum + f (count.getD e 0) := by
  induction count generalizing e with
  | nil => exact absurd he (Nat.not_lt_zero e)
  | cons c count ih =>
    cases e with
    | zero =>
      simp only [List.modify_zero_cons, List.sum_cons, List.getD_cons_zero]
      omega
    | succ e =>
      have := ih (Nat.lt_of_succ_lt_succ he)
      simp only [List.modify_succ_cons, List.sum_cons, List.getD_cons_succ]
      omega

/-- Counts of which some sum to more than there are of them have one above 1. -/
theorem exists_one_lt {count : List Nat} (h : count.countP (0 < ·) < count.sum) :
    ∃ e < count.length, 1 < count.getD e 0 := by
  induction count with
  | nil => exact absurd h (Nat.not_lt_zero _)
  | cons c count ih =>
    by_cases hc : 1 < c
    · exact ⟨0, by simp, by simpa using hc⟩
    · have htail : count.countP (0 < ·) < count.sum := by
        rw [List.countP_cons, List.sum_cons] at h
        split at h <;> simp at * <;> omega
      obtain ⟨e, he, hlt⟩ := ih htail
      exact ⟨e + 1, by simpa using he, by simpa using hlt⟩

/-- An endpoint has connections exactly when it owns keys. -/
structure CountsOk (shares : List ℚ) (count : List Nat) : Prop where
  length : count.length = shares.length
  pos_iff : ∀ e, 0 < count.getD e 0 ↔ 0 < shares.getD e 0

theorem floorCounts_ok (shares : List ℚ) (total : Nat) :
    CountsOk shares (floorCounts shares total) where
  length := List.length_map _
  pos_iff e := by
    simp only [floorCounts, List.getD_eq_getElem?_getD, List.getElem?_map]
    cases shares[e]? with
    | none => simp
    | some share =>
      by_cases h : 0 < share
      · simp [h]
      · simp [h]

theorem CountsOk.live_length {shares : List ℚ} {count : List Nat} (h : CountsOk shares count) :
    (liveEndpoints shares).length = count.countP (0 < ·) := by
  rw [← Ledger.length_filter_range count 0, liveEndpoints, h.length]
  apply congrArg List.length
  apply List.filter_congr
  intro e _
  simp only [h.pos_iff e]

/-- Counts stay so when one of an endpoint that owns keys changes and does not drop to 0. -/
theorem CountsOk.modify {shares : List ℚ} {count : List Nat} (h : CountsOk shares count) {e : Nat}
    (he : e < count.length) (hlive : 0 < count.getD e 0) {f : Nat → Nat}
    (hf : 0 < f (count.getD e 0)) : CountsOk shares (count.modify e f) where
  length := by rw [List.length_modify, h.length]
  pos_iff e' := by
    rw [getD_modify he]
    split
    · rename_i heq
      subst heq
      exact iff_of_true hf ((h.pos_iff e).1 hlive)
    · exact h.pos_iff e'

theorem mem_liveEndpoints {shares : List ℚ} {e : Nat} :
    e ∈ liveEndpoints shares ↔ e < shares.length ∧ 0 < shares.getD e 0 := by
  simp [liveEndpoints]

/-- **The loop that raises counts** gives an endpoint that owns keys one more each time. -/
theorem raiseCounts_spec {shares : List ℚ} (target : List ℚ) (hlive : liveEndpoints shares ≠ [])
    (left : Nat) {count : List Nat} (h : CountsOk shares count) :
    ∃ count', raiseCounts target (liveEndpoints shares) left count = some count' ∧
      CountsOk shares count' ∧ count'.sum = count.sum + left := by
  induction left generalizing count with
  | zero => exact ⟨count, rfl, h, rfl⟩
  | succ left ih =>
    obtain ⟨e, hmem, he⟩ := exists_maxBy (gap target count) hlive
    obtain ⟨hlt, hpos⟩ := mem_liveEndpoints.1 hmem
    rw [← h.length] at hlt
    obtain ⟨count', hrun, hok, hsum⟩ :=
      ih (h.modify hlt ((h.pos_iff e).2 hpos) (f := (· + 1)) (Nat.succ_pos _))
    refine ⟨count', by simp [raiseCounts, he, hrun], hok, ?_⟩
    have := sum_modify hlt (· + 1)
    omega

/-- **The loop that lowers counts** finds one above 1 each time, as long as there is a connection
for each endpoint that owns keys. -/
theorem lowerCounts_spec {shares : List ℚ} (target : List ℚ) (left : Nat) {count : List Nat}
    (h : CountsOk shares count) (hsum : (liveEndpoints shares).length + left ≤ count.sum) :
    ∃ count', lowerCounts target left count = some count' ∧
      CountsOk shares count' ∧ count'.sum + left = count.sum := by
  induction left generalizing count with
  | zero => exact ⟨count, rfl, h, rfl⟩
  | succ left ih =>
    have hlive := h.live_length
    obtain ⟨e₀, hlt₀, hone₀⟩ : ∃ e < count.length, 1 < count.getD e 0 := exists_one_lt (by omega)
    have hne : (List.range count.length).filter (1 < count.getD · 0) ≠ [] :=
      List.ne_nil_of_mem (List.mem_filter.2 ⟨List.mem_range.2 hlt₀, by simpa using hone₀⟩)
    obtain ⟨e, hmem, he⟩ := exists_minBy (gap target count) hne
    obtain ⟨hlt, hone⟩ : e < count.length ∧ 1 < count.getD e 0 := by simpa using hmem
    have hmod := sum_modify hlt (· - 1)
    obtain ⟨count', hrun, hok, hsum'⟩ :=
      ih (h.modify hlt (by omega) (f := (· - 1)) (by omega)) (by omega)
    exact ⟨count', by simp only [lowerCounts, he, Option.bind_eq_bind, Option.bind_some, hrun], hok,
      by omega⟩

/-! ## The connections in order -/

theorem slots_length (count : List Nat) : (slots count).length = count.sum := by
  have hfrom : ∀ (count : List Nat) (first : Nat), ((count.zipIdx first).flatMap fun p =>
      (List.range p.1).map fun k : Nat => ((k + 1 / 2 : ℚ) / (p.1 : ℚ), p.2)).length =
        count.sum := by
    intro count
    induction count with
    | nil => intro first; rfl
    | cons c count ih =>
      intro first
      rw [List.zipIdx_cons, List.flatMap_cons, List.length_append, ih, List.sum_cons,
        List.length_map, List.length_range]
  exact hfrom count 0

/-- An endpoint is in the order when it has a connection. -/
theorem mem_slots {count : List Nat} {e : Nat} (h : 0 < count.getD e 0) :
    ∃ position, (position, e) ∈ slots count := by
  rw [List.getD_eq_getElem?_getD] at h
  cases hc : count[e]? with
  | none => simp [hc] at h
  | some c =>
    rw [hc, Option.getD_some] at h
    have hmem : (c, e) ∈ count.zipIdx := List.mem_zipIdx_iff_getElem?.2 hc
    have hfirst : (((0 : Nat) + 1 / 2 : ℚ) / c, e) ∈
        (List.range c).map fun k : Nat => ((k + 1 / 2 : ℚ) / c, e) :=
      List.mem_map.2 ⟨0, List.mem_range.2 h, rfl⟩
    exact ⟨_, List.mem_flatMap.2 ⟨(c, e), hmem, hfirst⟩⟩

/-- With a connection for each endpoint that owns keys, the loops end with counts that sum to
`total`. -/
theorem keyShareEndpoints_eq {shares : List ℚ} {total : Nat} (hlive : liveEndpoints shares ≠ [])
    (hle : (liveEndpoints shares).length ≤ total) :
    ∃ raised count,
      raiseCounts (shares.map (· * (total : ℚ))) (liveEndpoints shares)
        (total - (floorCounts shares total).sum) (floorCounts shares total) = some raised ∧
      lowerCounts (shares.map (· * (total : ℚ))) ((floorCounts shares total).sum - total) raised =
        some count ∧
      CountsOk shares count ∧ count.sum = total ∧ keyShareEndpoints shares total =
        if vecFits 16 total then some (((slots count).mergeSort slotLe).map (·.2)) else none := by
  have hok := floorCounts_ok shares total
  obtain ⟨raised, hraise, hraised, hsum⟩ := raiseCounts_spec (shares.map (· * (total : ℚ))) hlive
    (total - (floorCounts shares total).sum) hok
  obtain ⟨count, hlower, hcount, hsum'⟩ := lowerCounts_spec (shares.map (· * (total : ℚ)))
    ((floorCounts shares total).sum - total) hraised (by omega)
  refine ⟨raised, count, hraise, hlower, hcount, by omega, ?_⟩
  have hcond : ((liveEndpoints shares).isEmpty || decide (total < (liveEndpoints shares).length)) =
      false := by
    simpa [Nat.not_lt] using And.intro hlive hle
  simp only [keyShareEndpoints, hcond, Bool.false_eq_true, if_false, hraise, hlower,
    Option.bind_eq_bind, Option.bind_some]

/-- With fewer, endpoints go round robin. -/
theorem keyShareEndpoints_few {shares : List ℚ} {total : Nat}
    (h : liveEndpoints shares = [] ∨ total < (liveEndpoints shares).length) :
    ∃ pool : List Nat, (liveEndpoints shares ≠ [] → pool = liveEndpoints shares) ∧
      keyShareEndpoints shares total = if vecFits 8 total then
        some ((List.range total).map fun i => pool.getD (i % pool.length) 0) else none := by
  have hcond : ((liveEndpoints shares).isEmpty || decide (total < (liveEndpoints shares).length)) =
      true := by
    simpa using h
  refine ⟨if (liveEndpoints shares).isEmpty then List.range (max shares.length 1)
    else liveEndpoints shares, fun hlive => if_neg (by simpa using hlive), ?_⟩
  simp only [keyShareEndpoints, hcond, if_true]

/-- **The assignment by key share** has an endpoint for every connection, and a connection for every
endpoint that owns keys if there are enough. -/
theorem keyShareEndpoints_spec {shares : List ℚ} {total : Nat} {assignment : List Nat}
    (h : keyShareEndpoints shares total = some assignment) :
    assignment.length = total ∧
      ((liveEndpoints shares).length ≤ total → ∀ e, 0 < shares.getD e 0 → e ∈ assignment) := by
  by_cases hfew : liveEndpoints shares = [] ∨ total < (liveEndpoints shares).length
  · obtain ⟨pool, -, heq⟩ := keyShareEndpoints_few hfew
    rw [heq] at h
    split at h <;> cases h
    refine ⟨by simp, fun hle e he => ?_⟩
    have hmem : e ∈ liveEndpoints shares := by
      refine mem_liveEndpoints.2 ⟨?_, he⟩
      by_contra hlen
      rw [List.getD_eq_getElem?_getD, List.getElem?_eq_none (by omega)] at he
      exact absurd he (lt_irrefl 0)
    rcases hfew with hnil | hlt
    · rw [hnil] at hmem
      cases hmem
    · omega
  · obtain ⟨hlive, hle⟩ := not_or.1 hfew
    obtain ⟨-, count, -, -, hok, hsum, heq⟩ := keyShareEndpoints_eq hlive (Nat.le_of_not_lt hle)
    rw [heq] at h
    split at h <;> cases h
    refine ⟨by rw [List.length_map, List.length_mergeSort, slots_length, hsum], fun _ e he => ?_⟩
    obtain ⟨position, hmem⟩ := mem_slots ((hok.pos_iff e).2 he)
    exact List.mem_map.2 ⟨(position, e), List.mem_mergeSort.2 hmem, rfl⟩

theorem vecFits_of_le {size size' len : Nat} (h : vecFits size' len) (hle : size ≤ size') :
    vecFits size len := by
  have hmul := Nat.mul_le_mul_right len hle
  simp only [vecFits, decide_eq_true_eq] at h ⊢
  omega

theorem keyShareEndpoints_isSome (shares : List ℚ) {total : Nat} (h : vecFits 16 total) :
    (keyShareEndpoints shares total).isSome := by
  by_cases hfew : liveEndpoints shares = [] ∨ total < (liveEndpoints shares).length
  · obtain ⟨pool, -, heq⟩ := keyShareEndpoints_few hfew
    rw [heq, if_pos (vecFits_of_le h (by decide))]
    rfl
  · obtain ⟨hlive, hle⟩ := not_or.1 hfew
    obtain ⟨-, count, -, -, -, -, heq⟩ := keyShareEndpoints_eq hlive (Nat.le_of_not_lt hle)
    rw [heq, if_pos h]
    rfl

/-! ## Shares -/

/-- An endpoint that owns keys has a positive share. -/
theorem endpointShares_pos {weight : UInt32 → ℚ} (hweight : ∀ id, 0 < weight id)
    {keys : List (List UInt32)} {e : Nat} {ids : List UInt32} (hids : keys[e]? = some ids)
    (hne : ids ≠ []) : 0 < (endpointShares weight keys).getD e 0 := by
  have hnonneg : ∀ share ∈ keys.map fun ids => (ids.map weight).sum, 0 ≤ share := by
    intro share hshare
    obtain ⟨ids, -, rfl⟩ := List.mem_map.1 hshare
    apply List.sum_nonneg
    intro w hw
    obtain ⟨id, -, rfl⟩ := List.mem_map.1 hw
    exact (hweight id).le
  have hpos : 0 < (ids.map weight).sum := by
    refine List.sum_pos _ (fun w hw => ?_) (by simpa using hne)
    obtain ⟨id, -, rfl⟩ := List.mem_map.1 hw
    exact hweight id
  have htotal : 0 < (keys.map fun ids => (ids.map weight).sum).sum := by
    refine lt_of_lt_of_le hpos (List.single_le_sum hnonneg _ ?_)
    exact List.mem_map.2 ⟨ids, List.mem_of_getElem? hids, rfl⟩
  simp only [endpointShares, List.getD_eq_getElem?_getD, List.getElem?_map, hids, Option.map_some,
    Option.getD_some]
  exact div_pos hpos htotal

end Worker
