import Mathlib.Data.List.TakeWhile
import Mathlib.Order.Bounds.Basic

/-!
# Prefixes of a list

The longest prefix that satisfies a predicate throughout, of a list (`takeWhile`) and of its
chunks (`chunkPrefix_isGreatest`); and the prefix of an ordered list below a bound, which has
every element below it (`takeWhile_lt`).
-/

namespace Prefix

variable {α : Type*}

/-- `l` cut into chunks of one size, the last of which may be shorter. -/
def chunks (size : Nat) (l : List α) : List (List α) :=
  (List.range ((l.length + size - 1) / size)).map fun c => (l.drop (c * size)).take size

theorem length_chunks (size : Nat) (l : List α) :
    (chunks size l).length = (l.length + size - 1) / size := by
  simp [chunks]

theorem take_succ_chunks {size c : Nat} {l : List α} (h : c < (chunks size l).length) :
    (chunks size l).take (c + 1) =
      (chunks size l).take c ++ [(l.drop (c * size)).take size] := by
  rw [List.take_add_one, List.getElem?_eq_getElem h]
  simp [chunks]

/-- The first `c` chunks are the first `c * size` elements. -/
theorem all_take_chunks (size : Nat) (p : α → Bool) (l : List α) :
    ∀ c ≤ (chunks size l).length,
      (∀ chunk ∈ (chunks size l).take c, chunk.all p = true) ↔ ∀ a ∈ l.take (c * size), p a = true
  | 0, _ => by simp
  | c + 1, h => by
    have ih := all_take_chunks size p l c (Nat.le_of_succ_le h)
    rw [take_succ_chunks h, Nat.succ_mul, List.take_add, List.forall_mem_append,
      List.forall_mem_append, ih, List.forall_mem_singleton, List.all_eq_true]

theorem take_length_takeWhile (p : α → Bool) (l : List α) :
    l.take (l.takeWhile p).length = l.takeWhile p :=
  (List.prefix_iff_eq_take.mp (List.takeWhile_prefix p)).symm

/-- `takeWhile` is the longest prefix of which every element satisfies `p`. -/
theorem length_takeWhile_isGreatest (p : α → Bool) (l : List α) :
    IsGreatest {c | c ≤ l.length ∧ ∀ a ∈ l.take c, p a = true} (l.takeWhile p).length := by
  constructor
  · refine ⟨(List.takeWhile_prefix p).length_le, fun a ha => ?_⟩
    rw [take_length_takeWhile] at ha
    exact List.mem_takeWhile_imp ha
  · rintro c ⟨hc, hall⟩
    have hhead : l.take c = (l.take c).takeWhile p := (List.takeWhile_eq_self_iff.mpr hall).symm
    have hle : (l.take c).takeWhile p <+: l.takeWhile p := by
      conv_rhs => rw [← List.take_append_drop c l]
      rw [List.takeWhile_append_of_pos hall, ← hhead]
      exact List.prefix_append _ _
    have hlen := hle.length_le
    rwa [← hhead, List.length_take, Nat.min_eq_left hc] at hlen

/-- **The chunks before the first one with an element that fails `p`.** -/
theorem chunkPrefix_isGreatest (size : Nat) (p : α → Bool) (l : List α) :
    IsGreatest {c | c ≤ (l.length + size - 1) / size ∧ ∀ a ∈ l.take (c * size), p a = true}
      ((chunks size l).takeWhile fun chunk => chunk.all p).length := by
  have hgreatest := length_takeWhile_isGreatest (fun chunk : List α => chunk.all p) (chunks size l)
  have hsets : {c | c ≤ (chunks size l).length ∧
        ∀ chunk ∈ (chunks size l).take c, chunk.all p = true} =
      {c | c ≤ (l.length + size - 1) / size ∧ ∀ a ∈ l.take (c * size), p a = true} := by
    ext c
    show c ≤ (chunks size l).length ∧ _ ↔ c ≤ (l.length + size - 1) / size ∧ _
    rw [← length_chunks]
    exact and_congr_right fun hc => all_take_chunks size p l c hc
  rwa [← hsets]

/-! ## An ordered list -/

section Ordered

variable {β : Type*} [LinearOrder β] {f : α → β}

/-- Of a list ordered by `f`, a scan from the front finds everything below `b`, and leaves
everything else. -/
theorem takeWhile_lt (b : β) :
    ∀ {l : List α}, (l.map f).Pairwise (· ≤ ·) →
      (l.takeWhile fun a => decide (f a < b)) = l.filter (fun a => decide (f a < b)) ∧
        (l.dropWhile fun a => decide (f a < b)) = l.filter (fun a => !decide (f a < b))
  | [], _ => ⟨rfl, rfl⟩
  | a :: l, h => by
    obtain ⟨hhead, htail⟩ := List.pairwise_cons.mp h
    obtain ⟨htake, hdrop⟩ := takeWhile_lt b htail
    by_cases hab : f a < b
    · simp [hab, htake, hdrop]
    · have hrest : ∀ x ∈ l, ¬ f x < b := fun x hx hxb =>
        hab ((hhead (f x) (List.mem_map_of_mem hx)).trans_lt hxb)
      have hnone : l.filter (fun x => decide (f x < b)) = [] :=
        List.filter_eq_nil_iff.mpr fun x hx => by simpa using hrest x hx
      have hall : l.filter (fun x => !decide (f x < b)) = l :=
        List.filter_eq_self.mpr fun x hx => by simpa using hrest x hx
      simp [hab, hnone, hall]

end Ordered

end Prefix
