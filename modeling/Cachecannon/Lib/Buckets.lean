import Mathlib.Data.List.Basic

/-!
# Distributing items over buckets

A loop takes items one by one, finds the bucket of each and appends it there. `none` is a bucket
that is not there. `distribute_eq` says what it leaves: each bucket has its items, in order;
`distribute_map` that the buckets do not depend on what the items are kept as.
-/

namespace Buckets

variable {ι α : Type*}

def pushBack (buckets : List (List α)) (bucket : Nat) (x : α) : Option (List (List α)) :=
  if bucket < buckets.length then some (buckets.modify bucket (· ++ [x])) else none

def distributeInto (route : ι → Option Nat) (f : ι → α) (buckets : List (List α))
    (items : List ι) : Option (List (List α)) :=
  items.foldlM (fun buckets i => (route i).bind (pushBack buckets · (f i))) buckets

/-- The items over `n` empty buckets, each item `i` as `f i`. -/
def distribute (route : ι → Option Nat) (f : ι → α) (n : Nat) (items : List ι) :
    Option (List (List α)) :=
  distributeInto route f (List.replicate n []) items

theorem distributeInto_eq {route : ι → Option Nat} {r : ι → Nat} {n : Nat} (f : ι → α)
    (hroute : ∀ i, route i = some (r i) ∧ r i < n) (items : List ι) :
    ∀ buckets : List (List α), buckets.length = n →
      distributeInto route f buckets items =
        some (buckets.mapIdx fun e bucket => bucket ++ (items.filter (r · = e)).map f) := by
  induction items with
  | nil =>
    intro buckets _
    apply congrArg some
    apply List.ext_getElem?
    intro e
    simp
  | cons i items ih =>
    intro buckets hlen
    obtain ⟨hi, hlt⟩ := hroute i
    have hpush : (route i).bind (pushBack buckets · (f i)) =
        some (buckets.modify (r i) (· ++ [f i])) := by
      simp [hi, pushBack, hlen, hlt]
    have hstep := ih (buckets.modify (r i) (· ++ [f i])) (by simpa using hlen)
    simp only [distributeInto, List.foldlM_cons, hpush] at hstep ⊢
    refine hstep.trans (congrArg some ?_)
    -- the bucket of `i` gets it ahead of the items that follow
    refine List.ext_getElem? fun e => ?_
    simp only [List.getElem?_mapIdx, List.getElem?_modify]
    cases buckets[e]? with
    | none => rfl
    | some bucket =>
      by_cases he : r i = e
      · simp [he]
      · simp [he]

/-- **What `distribute` leaves**: each bucket has its items, in order. -/
theorem distribute_eq {route : ι → Option Nat} {r : ι → Nat} {n : Nat} (f : ι → α)
    (hroute : ∀ i, route i = some (r i) ∧ r i < n) (items : List ι) :
    distribute route f n items =
      some ((List.range n).map fun e => (items.filter (r · = e)).map f) := by
  rw [distribute, distributeInto_eq f hroute items _ List.length_replicate]
  apply congrArg some
  apply List.ext_getElem?
  intro e
  rcases Nat.lt_or_ge e n with he | he
  · simp [he]
  · simp [Nat.not_lt.2 he]

theorem length_distribute {route : ι → Option Nat} {f : ι → α} {n : Nat} {items : List ι}
    {buckets : List (List α)} (h : distribute route f n items = some buckets) :
    buckets.length = n := by
  have hinto : ∀ first : List (List α), distributeInto route f first items = some buckets →
      buckets.length = first.length := by
    clear h
    induction items with
    | nil =>
      intro first h
      cases h
      rfl
    | cons i items ih =>
      intro first h
      simp only [distributeInto, List.foldlM_cons, Option.bind_eq_bind,
        Option.bind_eq_some_iff] at h ih
      obtain ⟨next, ⟨bucket, -, hpush⟩, hrest⟩ := h
      rw [ih next hrest]
      unfold pushBack at hpush
      split at hpush <;> cases hpush
      exact List.length_modify _ _ _
  simpa using hinto _ h

/-- Items distributed as other values go to the same buckets. -/
theorem distribute_map {β : Type*} (route : ι → Option Nat) (f : ι → α) (g : α → β) (n : Nat)
    (items : List ι) :
    distribute route (fun i => g (f i)) n items =
      (distribute route f n items).map fun buckets => buckets.map (List.map g) := by
  have hpush : ∀ (buckets : List (List α)) (bucket : Nat) (x : α),
      pushBack (buckets.map (List.map g)) bucket (g x) =
        (pushBack buckets bucket x).map fun buckets => buckets.map (List.map g) := by
    intro buckets bucket x
    simp only [pushBack, List.length_map]
    split
    · apply congrArg some
      apply List.ext_getElem?
      intro e
      simp only [List.getElem?_modify, List.getElem?_map]
      cases buckets[e]? with
      | none => rfl
      | some ids => by_cases he : bucket = e <;> simp [he]
    · rfl
  have hinto : ∀ buckets : List (List α),
      distributeInto route (fun i => g (f i)) (buckets.map (List.map g)) items =
        (distributeInto route f buckets items).map fun buckets => buckets.map (List.map g) := by
    induction items with
    | nil => intro buckets; rfl
    | cons i items ih =>
      intro buckets
      simp only [distributeInto, List.foldlM_cons] at ih ⊢
      cases route i with
      | none => rfl
      | some bucket =>
        simp only [Option.bind_some, hpush]
        cases pushBack buckets bucket (f i) with
        | none => rfl
        | some buckets' => exact ih buckets'
  simpa [distribute] using hinto (List.replicate n [])

end Buckets
