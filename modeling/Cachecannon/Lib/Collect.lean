import Mathlib.Algebra.Order.BigOperators.Group.List

/-!
# Reading a growing total one cell at a time

The cells only grow, and a reader adds them up one after the other while they do. What it has is
no state the cells ever were in, but it lies between the total when it started and the total when
it is done (`Between`).
-/

namespace Collect

variable {ι M : Type*} [AddCommMonoid M]

def total (cells : ι → M) (l : List ι) : M := (l.map cells).sum

@[simp] theorem total_nil (cells : ι → M) : total cells [] = 0 := rfl

@[simp] theorem total_cons (cells : ι → M) (i : ι) (l : List ι) :
    total cells (i :: l) = cells i + total cells l := rfl

@[simp] theorem total_append (cells : ι → M) (l l' : List ι) :
    total cells (l ++ l') = total cells l + total cells l' := by
  simp [total]

variable [PartialOrder M]

theorem total_mono [IsOrderedAddMonoid M] {cells cells' : ι → M} (h : ∀ i, cells i ≤ cells' i)
    (l : List ι) : total cells l ≤ total cells' l :=
  List.sum_le_sum fun i _ => h i

/-- A reader that has the cells of `read` summed up in `acc`: it missed nothing that was there when
it started, at `start`, and counted nothing that is not there now. -/
structure Between (start now : ι → M) (read : List ι) (acc : M) : Prop where
  le_now : ∀ i, start i ≤ now i
  lower : total start read ≤ acc
  upper : acc ≤ total now read

variable {start now now' : ι → M} {read : List ι} {acc : M}

theorem between_start (start : ι → M) : Between start start [] 0 :=
  ⟨fun _ => le_rfl, le_rfl, le_rfl⟩

variable [IsOrderedAddMonoid M]

theorem Between.grow (h : Between start now read acc) (hgrow : ∀ i, now i ≤ now' i) :
    Between start now' read acc :=
  ⟨fun i => (h.le_now i).trans (hgrow i), h.lower, h.upper.trans (total_mono hgrow read)⟩

theorem Between.load (h : Between start now read acc) (i : ι) :
    Between start now (read ++ [i]) (acc + now i) := by
  refine ⟨h.le_now, ?_, ?_⟩
  · rw [total_append, total_cons, total_nil, add_zero]
    exact add_le_add h.lower (h.le_now i)
  · rw [total_append, total_cons, total_nil, add_zero]
    exact add_le_add h.upper le_rfl

end Collect
