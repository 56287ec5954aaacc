import Mathlib.Algebra.Order.BigOperators.Group.Finset
import Mathlib.Data.Fintype.BigOperators

/-!
# What many places hold together

`countBy` counts an item among its carriers, and `sum_map_update_add` is the total when one place
changes. `ExactlyOne` says of the occurrences of
one item that they are a single one, which `exactlyOne_of_sum` reads off the total. A place that
has no item more often than there is has each once when it has as many as there are
(`count_eq_one_of_covered`).
-/

namespace Ledger

variable {ι M : Type*} [Fintype ι] [DecidableEq ι] [AddCommMonoid M]

theorem sum_update_add (f : ι → M) (i : ι) (v : M) :
    (∑ j, Function.update f i v j) + f i = (∑ j, f j) + v := by
  rw [Finset.sum_update_of_mem (Finset.mem_univ i), ← Finset.add_sum_erase _ f (Finset.mem_univ i),
    Finset.erase_eq, add_comm v, add_comm (f i), add_assoc, add_assoc, add_comm (f i) v]

/-- The total when one place changed. -/
theorem sum_of_eq_off (f f' : ι → M) (i : ι) (h : ∀ j, j ≠ i → f' j = f j) :
    (∑ j, f' j) + f i = (∑ j, f j) + f' i := by
  rw [← sum_update_add f i (f' i)]
  congr 2
  funext j
  by_cases hj : j = i
  · subst hj
    rw [Function.update_self]
  · rw [Function.update_of_ne hj, h j hj]

/-- The total of what the places hold, after one of them changed. -/
theorem sum_map_update_add {α : Type*} (g : α → M) (f : ι → α) (i : ι) (v : α) :
    (∑ j, g (Function.update f i v j)) + g (f i) = (∑ j, g (f j)) + g v := by
  rw [← sum_update_add (fun j => g (f j)) i (g v)]
  congr 2
  funext j
  by_cases hj : j = i
  · subst hj; simp
  · simp [hj]

section CountBy

variable {α β : Type*} [DecidableEq β] (f : α → β) (b : β)

/-- How often the item `b` occurs, `f` naming the items of a list. -/
def countBy (l : List α) : Nat := (l.map f).count b

theorem count_map_eq (l : List α) : (l.map f).count b = countBy f b l := rfl

@[simp] theorem countBy_nil : countBy f b [] = 0 := rfl

@[simp] theorem countBy_append (l l' : List α) :
    countBy f b (l ++ l') = countBy f b l + countBy f b l' := by
  simp [countBy]

theorem countBy_cons (a : α) (l : List α) :
    countBy f b (a :: l) = countBy f b [a] + countBy f b l := countBy_append f b [a] l

theorem countBy_perm {l l' : List α} (h : l.Perm l') : countBy f b l = countBy f b l' :=
  (h.map f).count_eq b

end CountBy

/-- The number of elements with a property, counted over the indices. -/
theorem length_filter_range {α : Type*} (l : List α) (d : α) (p : α → Bool) :
    ((List.range l.length).filter fun i => p (l.getD i d)).length = l.countP p := by
  have hmap : (List.range l.length).map (l.getD · d) = l := by
    apply List.ext_getElem (by simp)
    intro i _ hi
    simp [List.getD_eq_getElem?_getD, hi]
  rw [← List.countP_eq_length_filter]
  conv_rhs => rw [← hmap, List.countP_map]
  rfl

/-- The item occurs once in one place and nowhere else. -/
def ExactlyOne {π : Type*} (occurrences : π → Nat) : Prop :=
  ∃ p, occurrences p = 1 ∧ ∀ q, q ≠ p → occurrences q = 0

theorem exactlyOne_of_sum {π : Type*} [Fintype π] {occurrences : π → Nat}
    (h : ∑ p, occurrences p = 1) : ExactlyOne occurrences := by
  classical
  obtain ⟨p, -, hp⟩ := Finset.exists_ne_zero_of_sum_ne_zero (by rw [h]; exact one_ne_zero)
  have hsplit := Finset.add_sum_erase _ occurrences (Finset.mem_univ p)
  rw [h] at hsplit
  refine ⟨p, by omega, fun q hq => ?_⟩
  have hle := Finset.single_le_sum (f := occurrences) (fun _ _ => Nat.zero_le _)
    (Finset.mem_erase.2 ⟨hq, Finset.mem_univ q⟩)
  omega

/-- An item that occurs at most once is not in two places. -/
theorem eq_of_sum_le_one {π : Type*} [Fintype π] {occurrences : π → Nat}
    (h : ∑ p, occurrences p ≤ 1) {p q : π} (hp : 1 ≤ occurrences p) (hq : 1 ≤ occurrences q) :
    q = p := by
  classical
  by_contra hne
  have hsplit := Finset.add_sum_erase _ occurrences (Finset.mem_univ p)
  have hle := Finset.single_le_sum (f := occurrences) (fun _ _ => Nat.zero_le _)
    (Finset.mem_erase.2 ⟨hne, Finset.mem_univ q⟩)
  omega

section Covered

variable {α : Type*} [DecidableEq α] {l items : List α} (hcount : ∀ a, l.count a ≤ items.count a)

include hcount

theorem length_le_of_covered : l.length ≤ items.length :=
  (List.subperm_ext_iff.2 fun a _ => hcount a).length_le

/-- A list of at least as many items as there are, none of them twice, has each once. -/
theorem count_eq_one_of_covered (hnodup : items.Nodup) (hlen : items.length ≤ l.length) {a : α}
    (ha : a ∈ items) : l.count a = 1 := by
  have hperm : l.Perm items :=
    (List.subperm_ext_iff.2 fun a _ => hcount a).perm_of_length_le hlen
  rw [hperm.count_eq]
  exact List.count_eq_one_of_mem hnodup ha

end Covered

theorem count_range {n k : Nat} (h : k < n) : (List.range n).count k = 1 :=
  List.count_eq_one_of_mem List.nodup_range (List.mem_range.2 h)

end Ledger
