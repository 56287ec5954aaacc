import Mathlib.Algebra.Order.Ring.Nat
import Mathlib.Data.List.Range

/-!
# Splitting a range evenly

`total` items are split over `parts` parts as evenly as can be: each gets `total / parts` items, and
the first `total % parts` one more. The parts are contiguous slices of `0..total`, in order
(`flatMap_slices`). When the items go round robin over `n` owners, a slice of `n` items has every
owner (`exists_mod_eq`).
-/

namespace Split

def share (total parts i : Nat) : Nat :=
  if i < total % parts then total / parts + 1 else total / parts

def start (total parts i : Nat) : Nat :=
  if i < total % parts then i * (total / parts + 1)
  else total % parts * (total / parts + 1) + (i - total % parts) * (total / parts)

variable {total parts : Nat}

theorem start_zero : start total parts 0 = 0 := by
  unfold start
  split
  · rw [Nat.zero_mul]
  · rename_i h
    rw [Nat.eq_zero_of_not_pos h]
    simp

/-- A part starts where the one before it ends. -/
theorem start_succ (i : Nat) :
    start total parts (i + 1) = start total parts i + share total parts i := by
  unfold start share
  rcases Nat.lt_trichotomy (i + 1) (total % parts) with h | h | h
  · rw [if_pos h, if_pos (by omega), if_pos (by omega), Nat.add_mul, Nat.one_mul]
  · -- the last of the parts with one more
    rw [if_neg (by omega), if_pos (by omega), if_pos (by omega), ← h, Nat.sub_self, Nat.zero_mul,
      Nat.add_zero, Nat.add_mul, Nat.one_mul]
  · rw [if_neg (by omega), if_neg (by omega), if_neg (by omega),
      show i + 1 - total % parts = i - total % parts + 1 by omega, Nat.add_mul _ 1, Nat.one_mul,
      Nat.add_assoc]

theorem start_parts (hparts : 0 < parts) : start total parts parts = total := by
  unfold start
  have hlt := Nat.mod_lt total hparts
  have hdiv := Nat.div_add_mod total parts
  rw [if_neg (by omega), Nat.mul_add, Nat.mul_one, Nat.sub_mul]
  have hle : total % parts * (total / parts) ≤ parts * (total / parts) :=
    Nat.mul_le_mul_right _ hlt.le
  omega

theorem flatMap_slices_start (i : Nat) :
    ((List.range i).flatMap fun j =>
      List.range' (start total parts j) (share total parts j)) =
        List.range (start total parts i) := by
  induction i with
  | zero => simp [start_zero]
  | succ i ih =>
    rw [List.range_succ, List.flatMap_append, ih, start_succ, List.flatMap_singleton,
      List.range_eq_range', List.range_eq_range']
    have happend := List.range'_append_1 (s := 0) (m := start total parts i)
      (n := share total parts i)
    rw [Nat.zero_add] at happend
    exact happend

/-- **The parts tile the range**, in order. -/
theorem flatMap_slices (hparts : 0 < parts) :
    ((List.range parts).flatMap fun i =>
      List.range' (start total parts i) (share total parts i)) = List.range total := by
  rw [flatMap_slices_start, start_parts hparts]

/-- Every item is in a part. -/
theorem exists_slice (hparts : 0 < parts) {k : Nat} (hk : k < total) :
    ∃ i < parts, start total parts i ≤ k ∧ k < start total parts i + share total parts i := by
  have hmem : k ∈ List.range total := List.mem_range.2 hk
  rw [← flatMap_slices hparts, List.mem_flatMap] at hmem
  obtain ⟨i, hi, hk⟩ := hmem
  exact ⟨i, List.mem_range.1 hi, List.mem_range'_1.1 hk⟩

theorem start_mono {i j : Nat} (h : i ≤ j) : start total parts i ≤ start total parts j := by
  induction h with
  | refl => exact Nat.le_refl _
  | step _ ih =>
    rw [start_succ]
    omega

theorem start_add_share_le (hparts : 0 < parts) {i : Nat} (hi : i < parts) :
    start total parts i + share total parts i ≤ total := by
  have hmono : start total parts (i + 1) ≤ start total parts parts := start_mono hi
  rwa [start_succ, start_parts hparts] at hmono

/-- No part is larger than the first. -/
theorem share_le_first (i : Nat) : share total parts i ≤ share total parts 0 := by
  unfold share
  split <;> split <;> omega

/-- A part has `n` items when there are `n` for each. -/
theorem le_share {n : Nat} (hparts : 0 < parts) (h : parts * n ≤ total) (i : Nat) :
    n ≤ share total parts i := by
  have hdiv : n ≤ total / parts := (Nat.le_div_iff_mul_le hparts).2 (by rwa [Nat.mul_comm])
  unfold share
  split <;> omega

/-- `n` items in a row have every residue modulo `n`. -/
theorem exists_mod_eq {n e : Nat} (he : e < n) (first : Nat) :
    ∃ k, first ≤ k ∧ k < first + n ∧ k % n = e := by
  have hn : 0 < n := by omega
  have hmod := Nat.mod_lt first hn
  have hdiv := Nat.div_add_mod first n
  -- in this round of `n`, or else in the next
  by_cases hle : first % n ≤ e
  · refine ⟨n * (first / n) + e, by omega, by omega, ?_⟩
    rw [Nat.mul_add_mod, Nat.mod_eq_of_lt he]
  · refine ⟨n * (first / n + 1) + e, ?_, ?_, ?_⟩
    · rw [Nat.mul_add]
      omega
    · rw [Nat.mul_add]
      omega
    · rw [Nat.mul_add_mod, Nat.mod_eq_of_lt he]

end Split
