import Mathlib.Data.List.Nodup
import Mathlib.Data.List.Perm.Basic

/-!
# Numbering elements in the order they are first seen

An element gets the next number when it is seen for the first time. `Ok seen t`: the table has
the elements of `seen`, each once, in order of first appearance, and its index is the inverse of
its list of items.
-/

namespace Intern

variable {α : Type*} [DecidableEq α]

structure Table (α : Type*) where
  items : List α
  index : List (α × Nat)

namespace Table

def empty : Table α := ⟨[], []⟩

def intern (t : Table α) (a : α) : Table α :=
  if (t.index.lookup a).isSome then t
  else ⟨t.items ++ [a], (a, t.items.length) :: t.index⟩

structure Ok (seen : List α) (t : Table α) : Prop where
  order : t.items.Pairwise fun a b => seen.idxOf a < seen.idxOf b
  mem : ∀ a, a ∈ t.items ↔ a ∈ seen
  lookup : ∀ a i, t.index.lookup a = some i ↔ t.items[i]? = some a

variable {seen : List α} {t : Table α} {a : α}

theorem ok_empty : (empty : Table α).Ok [] where
  order := List.Pairwise.nil
  mem := fun _ => Iff.rfl
  lookup := fun a i => by simp [empty]

theorem Ok.lookup_isSome (h : t.Ok seen) (a : α) : (t.index.lookup a).isSome ↔ a ∈ seen := by
  rw [← h.mem, List.mem_iff_getElem?, Option.isSome_iff_exists]
  exact exists_congr fun i => h.lookup a i

theorem Ok.intern (h : t.Ok seen) (a : α) : (t.intern a).Ok (seen ++ [a]) := by
  have horder : t.items.Pairwise fun x y => (seen ++ [a]).idxOf x < (seen ++ [a]).idxOf y := by
    refine h.order.imp_of_mem fun hx hy hlt => ?_
    rwa [List.idxOf_append_of_mem ((h.mem _).1 hx),
      List.idxOf_append_of_mem ((h.mem _).1 hy)]
  rw [Table.intern]
  by_cases ha : a ∈ seen
  · rw [if_pos ((h.lookup_isSome a).2 ha)]
    refine ⟨horder, fun x => ?_, h.lookup⟩
    rw [h.mem, List.mem_append, List.mem_singleton]
    refine ⟨Or.inl, ?_⟩
    rintro (hx | rfl)
    · exact hx
    · exact ha
  · rw [if_neg (mt (h.lookup_isSome a).1 ha)]
    refine ⟨?_, fun x => ?_, fun x i => ?_⟩
    · refine List.pairwise_append.2 ⟨horder, List.pairwise_singleton _ _, fun x hx y hy => ?_⟩
      have hx := (h.mem x).1 hx
      obtain rfl := List.mem_singleton.1 hy
      rw [List.idxOf_append_of_mem hx, List.idxOf_append_of_notMem ha]
      exact Nat.lt_of_lt_of_le (List.idxOf_lt_length_of_mem hx) (Nat.le_add_right _ _)
    · rw [List.mem_append, List.mem_append, h.mem]
    · rw [List.lookup_cons, List.getElem?_append]
      have hnot : ∀ i, t.items[i]? ≠ some a := fun i hi =>
        ha ((h.mem a).1 (List.mem_of_getElem? hi))
      by_cases hxa : x = a
      · subst hxa
        simp only [beq_self_eq_true, Option.some.injEq]
        constructor
        · rintro rfl
          simp
        · intro hi
          split at hi
          · exact absurd hi (hnot i)
          · obtain ⟨hlt, -⟩ := List.getElem?_eq_some_iff.1 hi
            rw [List.length_singleton] at hlt
            omega
      · rw [show (x == a) = false from beq_eq_false_iff_ne.2 hxa]
        rw [h.lookup]
        split
        · exact Iff.rfl
        · rename_i hge
          rw [List.getElem?_eq_none (Nat.le_of_not_lt hge)]
          refine ⟨nofun, fun hi => ?_⟩
          have hmem := List.mem_of_getElem? hi
          rw [List.mem_singleton] at hmem
          exact absurd hmem hxa

theorem Ok.nodup (h : t.Ok seen) : t.items.Nodup :=
  h.order.imp fun hlt heq => by
    rw [heq] at hlt
    exact Nat.lt_irrefl _ hlt

theorem Ok.length_le (h : t.Ok seen) : t.items.length ≤ seen.length :=
  (List.subperm_of_subset h.nodup fun a ha => (h.mem a).1 ha).length_le

end Table

end Intern
