import Cachecannon.Lib.Collect
import Cachecannon.Lib.Ledger
import Cachecannon.Metrics.Counter
import Mathlib.Algebra.BigOperators.Fin

/-!
# What a sharded counter reads

`value` loads 256 atomics while other threads add to them, so it is no snapshot. With totals below
2^64 it is between the total before its first load and the total after its last
(`reading_between`), so a baseline subtracted from a later reading never underflows, and the
difference is what was added in between up to the adds beside the two calls (`delta_between`).
-/

namespace Metrics

open Exec

def cells (group : CounterGroup) (slot : Fin slots) (shard : Fin numShards) : Nat :=
  group.shards shard slot

/-- The total of the slot, over the integers. -/
def CounterGroup.total (group : CounterGroup) (slot : Fin slots) : Nat :=
  Collect.total (cells group slot) (List.finRange numShards)

theorem wrappingAdd_of_lt {a b : Nat} (h : a + b < 2 ^ 64) : wrappingAdd a b = a + b :=
  Nat.mod_eq_of_lt h

/-! ## Adds -/

theorem cells_add_self (group : CounterGroup) (shard : Fin numShards) (slot : Fin slots)
    (value : Nat) : cells (group.add shard slot value) slot =
      Function.update (cells group slot) shard (wrappingAdd (cells group slot shard) value) := by
  funext shard'
  by_cases h : shard' = shard
  · subst h
    simp [cells, CounterGroup.add]
  · simp [cells, CounterGroup.add, h]

theorem cells_add_ne (group : CounterGroup) (shard : Fin numShards) {slot slot' : Fin slots}
    (value : Nat) (hne : slot' ≠ slot) :
    cells (group.add shard slot' value) slot = cells group slot := by
  funext shard'
  by_cases h : shard' = shard
  · subst h
    simp [cells, CounterGroup.add, Function.update_of_ne hne.symm]
  · simp [cells, CounterGroup.add, h]

theorem cell_le_total (group : CounterGroup) (slot : Fin slots) (shard : Fin numShards) :
    cells group slot shard ≤ group.total slot :=
  List.single_le_sum (fun _ _ => Nat.zero_le _) _
    (List.mem_map_of_mem (f := cells group slot) (List.mem_finRange shard))

theorem total_eq_sum (group : CounterGroup) (slot : Fin slots) :
    group.total slot = ∑ shard, cells group slot shard :=
  (Fin.sum_univ_def _).symm

theorem total_new (slot : Fin slots) : CounterGroup.new.total slot = 0 := by
  rw [total_eq_sum]
  exact Finset.sum_eq_zero fun _ _ => rfl

section Add

variable {group : CounterGroup} {shard : Fin numShards} {slot : Fin slots} {value : Nat}

theorem cells_add_grow (hfit : group.total slot + value < 2 ^ 64) (shard' : Fin numShards) :
    cells group slot shard' ≤ cells (group.add shard slot value) slot shard' := by
  have hcell := cell_le_total group slot shard
  rw [cells_add_self, wrappingAdd_of_lt (by omega)]
  by_cases h : shard' = shard
  · subst h
    rw [Function.update_self]
    exact Nat.le_add_right _ _
  · rw [Function.update_of_ne h]

theorem total_add (hfit : group.total slot + value < 2 ^ 64) :
    (group.add shard slot value).total slot = group.total slot + value := by
  have hcell := cell_le_total group slot shard
  have hsum := Ledger.sum_update_add (cells group slot) shard (cells group slot shard + value)
  rw [total_eq_sum, cells_add_self, wrappingAdd_of_lt (by omega)]
  rw [← total_eq_sum] at hsum
  omega

end Add

/-! ## A step, and a run -/

variable {R : Type}

theorem added_cons (slot : Fin slots) (e : MetricStep R) (es : List (MetricStep R)) :
    added slot (e :: es) = e.added slot + added slot es := rfl

theorem added_append (slot : Fin slots) (es es' : List (MetricStep R)) :
    added slot (es ++ es') = added slot es + added slot es' := by
  simp [added]

theorem added_start (r : R) (slot : Fin slots) (es : List (MetricStep R)) :
    added slot (.start r slot :: es) = added slot es := Nat.zero_add _

theorem added_loads (r : R) (slot : Fin slots) (n : Nat) :
    added slot (List.replicate n (.load r)) = 0 := by
  simp [added, MetricStep.added]

theorem noStart_loads (r r' : R) (n : Nat) : NoStart r (List.replicate n (.load r')) := by
  intro slot hmem
  cases List.eq_of_mem_replicate hmem

variable [DecidableEq R]

/-- What a step does to the total and to the cells of a slot that does not overflow. -/
theorem step_grow {s s' : MetricState R} {e : MetricStep R} {slot : Fin slots}
    (hfit : s.group.total slot + e.added slot < 2 ^ 64) (hstep : metricStep s e = some s') :
    s'.group.total slot = s.group.total slot + e.added slot ∧
      ∀ shard, cells s.group slot shard ≤ cells s'.group slot shard := by
  cases e with
  | add shard slot' value =>
    cases hstep
    by_cases h : slot' = slot
    · subst h
      simp only [MetricStep.added, if_true] at hfit ⊢
      exact ⟨total_add hfit, cells_add_grow hfit⟩
    · simp only [MetricStep.added, if_neg h, Nat.add_zero]
      rw [CounterGroup.total, cells_add_ne _ _ _ h]
      exact ⟨rfl, fun _ => Nat.le_refl _⟩
  | start r slot' =>
    cases hstep
    exact ⟨(Nat.add_zero _).symm, fun _ => Nat.le_refl _⟩
  | load r =>
    rw [metricStep] at hstep
    split at hstep
    · cases hstep
    · obtain ⟨reading, -, rfl⟩ := Option.map_eq_some_iff.1 hstep
      exact ⟨(Nat.add_zero _).symm, fun _ => Nat.le_refl _⟩

theorem run_total {es : List (MetricStep R)} {s s' : MetricState R} {slot : Fin slots}
    (hfit : s.group.total slot + added slot es < 2 ^ 64) (hrun : run metricStep s es = some s') :
    s'.group.total slot = s.group.total slot + added slot es := by
  induction es generalizing s with
  | nil =>
    cases hrun
    exact (Nat.add_zero _).symm
  | cons e es ih =>
    rw [added_cons] at hfit
    rw [run_cons, Option.bind_eq_some_iff] at hrun
    obtain ⟨t, ht, hrun⟩ := hrun
    have hfit' : s.group.total slot + e.added slot < 2 ^ 64 := by omega
    obtain ⟨htotal, -⟩ := step_grow hfit' ht
    have hrest := ih (by omega) hrun
    rw [hrest, htotal, added_cons]
    omega

/-! ## A reading -/

/-- The call of thread `r` under way, the cells being `start` when it began. -/
def ReadInv (r : R) (slot : Fin slots) (start : Fin numShards → Nat) (s : MetricState R) : Prop :=
  ∃ reading, s.reading r = some reading ∧ reading.slot = slot ∧ reading.loaded ≤ numShards ∧
    Collect.Between start (cells s.group slot)
      ((List.finRange numShards).take reading.loaded) reading.acc

theorem take_finRange_succ {n k : Nat} (h : k < n) :
    (List.finRange n).take (k + 1) = (List.finRange n).take k ++ [⟨k, h⟩] := by
  rw [List.take_succ_eq_append_getElem (by simpa using h)]
  simp

theorem loadShard_between {group : CounterGroup} {slot : Fin slots} {start : Fin numShards → Nat}
    {reading reading' : Reading} (hfit : group.total slot < 2 ^ 64) (hslot : reading.slot = slot)
    (hbetween : Collect.Between start (cells group slot)
      ((List.finRange numShards).take reading.loaded) reading.acc)
    (hload : loadShard group reading = some reading') :
    reading'.slot = slot ∧ reading'.loaded ≤ numShards ∧
      Collect.Between start (cells group slot)
        ((List.finRange numShards).take reading'.loaded) reading'.acc := by
  rw [loadShard] at hload
  split at hload
  case isFalse => cases hload
  case isTrue h =>
    cases hload
    have hnext := hbetween.load ⟨reading.loaded, h⟩
    -- the shards loaded so far hold no more than all of them
    have hpart : Collect.total (cells group slot)
        ((List.finRange numShards).take (reading.loaded + 1)) ≤ group.total slot := by
      have hsplit := Collect.total_append (cells group slot)
        ((List.finRange numShards).take (reading.loaded + 1))
        ((List.finRange numShards).drop (reading.loaded + 1))
      rw [List.take_append_drop] at hsplit
      rw [CounterGroup.total, hsplit]
      exact Nat.le_add_right _ _
    rw [← take_finRange_succ h] at hnext
    have hacc : reading.acc + group.shards ⟨reading.loaded, h⟩ slot < 2 ^ 64 :=
      (hnext.upper.trans hpart).trans_lt hfit
    refine ⟨hslot, h, ?_⟩
    rw [hslot, wrappingAdd_of_lt hacc]
    exact hnext

theorem step_readInv {s s' : MetricState R} {e : MetricStep R} {r : R} {slot : Fin slots}
    {start : Fin numShards → Nat} (hI : ReadInv r slot start s)
    (hfit : s.group.total slot + e.added slot < 2 ^ 64) (hno : ∀ slot', e ≠ .start r slot')
    (hstep : metricStep s e = some s') : ReadInv r slot start s' := by
  obtain ⟨reading, hreading, hslot, hloaded, hbetween⟩ := hI
  obtain ⟨-, hgrow⟩ := step_grow hfit hstep
  cases e with
  | add shard slot' value =>
    cases hstep
    exact ⟨reading, hreading, hslot, hloaded, hbetween.grow hgrow⟩
  | start r' slot' =>
    cases hstep
    have hne : r ≠ r' := by
      rintro rfl
      exact hno slot' rfl
    refine ⟨reading, ?_, hslot, hloaded, hbetween⟩
    rw [← hreading]
    exact Function.update_of_ne hne _ _
  | load r' =>
    rw [metricStep] at hstep
    split at hstep
    · cases hstep
    rename_i reading' hreading'
    obtain ⟨next, hload, rfl⟩ := Option.map_eq_some_iff.1 hstep
    by_cases h : r' = r
    · subst h
      rw [hreading] at hreading'
      cases hreading'
      have hfit' : s.group.total slot < 2 ^ 64 := by omega
      exact ⟨next, Function.update_self .., loadShard_between hfit' hslot hbetween hload⟩
    · refine ⟨reading, ?_, hslot, hloaded, hbetween⟩
      rw [← hreading]
      exact Function.update_of_ne (Ne.symm h) _ _

theorem run_readInv {es : List (MetricStep R)} {s s' : MetricState R} {r : R} {slot : Fin slots}
    {start : Fin numShards → Nat} (hI : ReadInv r slot start s)
    (hfit : s.group.total slot + added slot es < 2 ^ 64) (hno : NoStart r es)
    (hrun : run metricStep s es = some s') : ReadInv r slot start s' := by
  induction es generalizing s with
  | nil =>
    cases hrun
    exact hI
  | cons e es ih =>
    rw [added_cons] at hfit
    rw [run_cons, Option.bind_eq_some_iff] at hrun
    obtain ⟨t, ht, hrun⟩ := hrun
    have hfit' : s.group.total slot + e.added slot < 2 ^ 64 := by omega
    obtain ⟨htotal, -⟩ := step_grow hfit' ht
    have hne : ∀ slot', e ≠ .start r slot' := fun slot' he => hno slot' (he ▸ List.mem_cons_self)
    refine ih (step_readInv hI hfit' hne ht) (by omega) ?_ hrun
    exact fun slot' hmem => hno slot' (List.mem_cons_of_mem e hmem)

/-- A finished call: what it returned is between the totals around it. -/
theorem reading_total {es : List (MetricStep R)} {s s' : MetricState R} {r : R} {slot : Fin slots}
    {reading : Reading} (hfit : s.group.total slot + added slot es < 2 ^ 64) (hno : NoStart r es)
    (hrun : run metricStep s (.start r slot :: es) = some s')
    (hreading : s'.reading r = some reading) (hdone : reading.done) :
    s.group.total slot ≤ reading.acc ∧ reading.acc ≤ s'.group.total slot := by
  rw [run_cons] at hrun
  have hI : ReadInv r slot (cells s.group slot)
      { s with reading := Function.update s.reading r (some ⟨slot, 0, 0⟩) } :=
    ⟨_, Function.update_self .., rfl, Nat.zero_le _, Collect.between_start _⟩
  obtain ⟨reading', hreading', -, -, hbetween⟩ := run_readInv hI hfit hno hrun
  rw [hreading] at hreading'
  cases hreading'
  have hall : (List.finRange numShards).take reading.loaded = List.finRange numShards :=
    List.take_of_length_le (by rw [List.length_finRange, hdone])
  rw [hall] at hbetween
  exact ⟨hbetween.lower, hbetween.upper⟩

/-! ## A call that nothing runs beside -/

theorem run_add (group : CounterGroup) (reading : R → Option Reading) (shard : Fin numShards)
    (slot : Fin slots) (value : Nat) (es : List (MetricStep R)) :
    run metricStep ⟨group, reading⟩ (.add shard slot value :: es) =
      run metricStep ⟨group.add shard slot value, reading⟩ es := run_cons ..

theorem run_start (group : CounterGroup) (reading : R → Option Reading) (r : R)
    (slot : Fin slots) (es : List (MetricStep R)) :
    run metricStep ⟨group, reading⟩ (.start r slot :: es) =
      run metricStep ⟨group, Function.update reading r (some ⟨slot, 0, 0⟩)⟩ es := run_cons ..

theorem take_succ_foldl {α β : Type} (f : β → α → β) (b : β) {l : List α} {k : Nat}
    (h : k < l.length) : (l.take (k + 1)).foldl f b = f ((l.take k).foldl f b) l[k] := by
  rw [List.take_succ_eq_append_getElem h, List.foldl_append]
  rfl

def sumShards (group : CounterGroup) (slot : Fin slots) (k : Nat) : Nat :=
  ((List.finRange numShards).take k).foldl
    (fun acc shard => wrappingAdd acc (group.shards shard slot)) 0

theorem loads_from (group : CounterGroup) (r : R) (slot : Fin slots) (n : Nat) :
    ∀ {k : Nat} {reading : R → Option Reading}, k + n ≤ numShards →
      reading r = some ⟨slot, k, sumShards group slot k⟩ →
      ∃ reading', run metricStep ⟨group, reading⟩ (List.replicate n (.load r)) =
          some ⟨group, reading'⟩ ∧
        reading' r = some ⟨slot, k + n, sumShards group slot (k + n)⟩ := by
  induction n with
  | zero => exact fun _ hreading => ⟨_, rfl, hreading⟩
  | succ n ih =>
    intro k reading hk hreading
    have hload : metricStep ⟨group, reading⟩ (.load r) = some ⟨group, Function.update reading r
        (some ⟨slot, k + 1, sumShards group slot (k + 1)⟩)⟩ := by
      have hlt : k < numShards := by omega
      rw [sumShards, take_succ_foldl _ _ (by simpa using hlt)]
      simp [metricStep, hreading, loadShard, hlt, sumShards]
    obtain ⟨reading', hrun, hreading'⟩ := ih (k := k + 1) (by omega) (Function.update_self ..)
    refine ⟨reading', ?_, ?_⟩
    · rw [List.replicate_succ, run_cons, hload]
      exact hrun
    · rw [hreading', Nat.add_right_comm, Nat.add_assoc]

/-- The 256 loads of a call in one go return `CounterGroup.value`. -/
theorem loads_alone (group : CounterGroup) {reading : R → Option Reading} {r : R}
    {slot : Fin slots} (hreading : reading r = some ⟨slot, 0, 0⟩) :
    ∃ reading', run metricStep ⟨group, reading⟩ (List.replicate numShards (.load r)) =
        some ⟨group, reading'⟩ ∧
      reading' r = some ⟨slot, numShards, group.value slot⟩ := by
  obtain ⟨reading', hrun, hreading'⟩ :=
    loads_from group r slot numShards (Nat.le_of_eq (Nat.zero_add _)) hreading
  refine ⟨reading', hrun, ?_⟩
  rw [hreading', Nat.zero_add, sumShards, List.take_of_length_le (by simp)]
  rfl

/-- No `value` call before the first. -/
def MetricState.init : MetricState R := ⟨.new, fun _ => none⟩

theorem run_init_total {es : List (MetricStep R)} {s : MetricState R} {slot : Fin slots}
    (hfit : added slot es < 2 ^ 64) (hrun : run metricStep .init es = some s) :
    s.group.total slot = added slot es := by
  have hzero : (MetricState.init : MetricState R).group.total slot = 0 := total_new slot
  have htotal := run_total (by rw [hzero, Nat.zero_add]; exact hfit) hrun
  rwa [hzero, Nat.zero_add] at htotal

/-- A call that started after `es₀` and returns after `es`. -/
theorem reading_bounds {es₀ es : List (MetricStep R)} {s s' : MetricState R} {r : R}
    {slot : Fin slots} {reading : Reading} (hfit : added slot es₀ + added slot es < 2 ^ 64)
    (htotal : s.group.total slot = added slot es₀)
    (hrun : run metricStep s (.start r slot :: es) = some s') (hno : NoStart r es)
    (hreading : s'.reading r = some reading) (hdone : reading.done) :
    s'.group.total slot = added slot es₀ + added slot es ∧
      added slot es₀ ≤ reading.acc ∧ reading.acc ≤ added slot es₀ + added slot es := by
  rw [← htotal] at hfit ⊢
  have hend := run_total (by rw [added_start]; exact hfit) hrun
  obtain ⟨hlower, hupper⟩ := reading_total hfit hno hrun hreading hdone
  rw [added_start] at hend
  rw [hend] at hupper
  exact ⟨hend, hlower, hupper⟩

/-- **A `value` call returns between what had been added to the counter when it started and what
has been added when it returns**, whatever the other threads do to this and to other counters of
the group meanwhile. -/
theorem reading_between {es₀ es : List (MetricStep R)} {s s' : MetricState R} {r : R}
    {slot : Fin slots} {reading : Reading} (hfit : added slot (es₀ ++ es) < 2 ^ 64)
    (hbefore : run metricStep .init es₀ = some s)
    (hrun : run metricStep s (.start r slot :: es) = some s') (hno : NoStart r es)
    (hreading : s'.reading r = some reading) (hdone : reading.done) :
    added slot es₀ ≤ reading.acc ∧ reading.acc ≤ added slot (es₀ ++ es) := by
  rw [added_append] at hfit ⊢
  have htotal := run_init_total (Nat.lt_of_le_of_lt (Nat.le_add_right _ _) hfit) hbefore
  exact (reading_bounds hfit htotal hrun hno hreading hdone).2

/-- Two adds before the call and one beside it. -/
theorem reading_between_adds :
    12 ≤ (((CounterGroup.new.add 0 2 5).add 3 2 7).add 1 2 4).value 2 ∧
      (((CounterGroup.new.add 0 2 5).add 3 2 7).add 1 2 4).value 2 ≤ 16 := by
  obtain ⟨reading', hloads, hreading'⟩ :=
    loads_alone (((CounterGroup.new.add 0 2 5).add 3 2 7).add 1 2 4)
      (Function.update_self () (some (⟨2, 0, 0⟩ : Reading)) fun _ => none)
  generalize (((CounterGroup.new.add 0 2 5).add 3 2 7).add 1 2 4).value 2 = v at hreading' ⊢
  have hbefore : run metricStep (.init : MetricState Unit) [.add 0 2 5, .add 3 2 7] =
      some ⟨(CounterGroup.new.add 0 2 5).add 3 2 7, fun _ => none⟩ := rfl
  have hrun : run metricStep ⟨(CounterGroup.new.add 0 2 5).add 3 2 7, fun _ => none⟩
      (.start () 2 :: .add 1 2 4 :: List.replicate numShards (.load ())) =
        some ⟨((CounterGroup.new.add 0 2 5).add 3 2 7).add 1 2 4, reading'⟩ := by
    rw [run_start, run_add]
    exact hloads
  have hno : NoStart () (.add 1 2 4 :: List.replicate numShards (.load ())) := by
    intro slot hmem
    rcases List.mem_cons.1 hmem with h | h
    · cases h
    · exact noStart_loads () () _ slot h
  have hadded₀ : added 2 ([.add 0 2 5, .add 3 2 7] : List (MetricStep Unit)) = 12 := rfl
  have hadded : added 2 (.add 1 2 4 :: List.replicate numShards (.load ())) = 4 := by
    rw [added_cons, added_loads]
    rfl
  have hfit : added 2 ([.add 0 2 5, .add 3 2 7] ++
      (.add 1 2 4 :: List.replicate numShards (.load ()))) < 2 ^ 64 := by
    rw [added_append, hadded, hadded₀]
    decide
  have h := reading_between hfit hbefore hrun hno hreading' rfl
  rw [added_append, hadded, hadded₀] at h
  exact ⟨h.1, h.2⟩

/-- **A baseline never underflows a later reading of its counter**: a second call, of this or of
another thread, returns no less than the first if it starts after it. What the subtraction gives
counts every add between the two calls, and none that came before the first or after the second. -/
theorem delta_between {es₀ es₁ es₂ es₃ : List (MetricStep R)} {s₀ s₁ s₂ s₃ : MetricState R}
    {r r' : R} {slot : Fin slots} {base now : Reading}
    (hfit : added slot (es₀ ++ es₁ ++ es₂ ++ es₃) < 2 ^ 64)
    (hbefore : run metricStep .init es₀ = some s₀)
    (hbase : run metricStep s₀ (.start r slot :: es₁) = some s₁) (hno : NoStart r es₁)
    (hbaseAcc : s₁.reading r = some base) (hbaseDone : base.done)
    (hbetween : run metricStep s₁ es₂ = some s₂)
    (hnow : run metricStep s₂ (.start r' slot :: es₃) = some s₃) (hno' : NoStart r' es₃)
    (hnowAcc : s₃.reading r' = some now) (hnowDone : now.done) :
    base.acc ≤ now.acc ∧ added slot es₂ ≤ now.acc - base.acc ∧
      now.acc - base.acc ≤ added slot (es₁ ++ es₂ ++ es₃) := by
  simp only [added_append] at hfit ⊢
  have hfit₀ : added slot es₀ < 2 ^ 64 := by omega
  have htotal₀ := run_init_total hfit₀ hbefore
  obtain ⟨htotal₁, hlower, hupper⟩ :=
    reading_bounds (by omega) htotal₀ hbase hno hbaseAcc hbaseDone
  have hfit₂ : s₁.group.total slot + added slot es₂ < 2 ^ 64 := by omega
  have htotal₂ := run_total hfit₂ hbetween
  rw [htotal₁, ← added_append, ← added_append] at htotal₂
  obtain ⟨-, hlower', hupper'⟩ :=
    reading_bounds (by simp only [added_append]; omega) htotal₂ hnow hno' hnowAcc hnowDone
  simp only [added_append] at hlower' hupper'
  omega

/-- A baseline, one add after it and the reading it is subtracted from. -/
theorem delta_between_add :
    ((CounterGroup.new.add 0 2 5).add 1 2 4).value 2 -
      (CounterGroup.new.add 0 2 5).value 2 = 4 := by
  obtain ⟨base, hbaseLoads, hbase⟩ := loads_alone (CounterGroup.new.add 0 2 5)
    (Function.update_self () (some (⟨2, 0, 0⟩ : Reading)) fun _ => none)
  obtain ⟨now, hnowLoads, hnow⟩ := loads_alone ((CounterGroup.new.add 0 2 5).add 1 2 4)
    (Function.update_self () (some (⟨2, 0, 0⟩ : Reading)) base)
  generalize (CounterGroup.new.add 0 2 5).value 2 = b at hbase ⊢
  generalize ((CounterGroup.new.add 0 2 5).add 1 2 4).value 2 = v at hnow ⊢
  have hbefore : run metricStep (.init : MetricState Unit) [.add 0 2 5] =
      some ⟨CounterGroup.new.add 0 2 5, fun _ => none⟩ := rfl
  have hrun : run metricStep ⟨CounterGroup.new.add 0 2 5, fun _ => none⟩
      (.start () 2 :: List.replicate numShards (.load ())) =
        some ⟨CounterGroup.new.add 0 2 5, base⟩ := by
    rw [run_start]
    exact hbaseLoads
  have hadd : run metricStep ⟨CounterGroup.new.add 0 2 5, base⟩ [.add 1 2 4] =
      some ⟨(CounterGroup.new.add 0 2 5).add 1 2 4, base⟩ := rfl
  have hrun' : run metricStep ⟨(CounterGroup.new.add 0 2 5).add 1 2 4, base⟩
      (.start () 2 :: List.replicate numShards (.load ())) =
        some ⟨(CounterGroup.new.add 0 2 5).add 1 2 4, now⟩ := by
    rw [run_start]
    exact hnowLoads
  have hno := noStart_loads () () numShards
  have hadded₀ : added 2 ([.add 0 2 5] : List (MetricStep Unit)) = 5 := rfl
  have hadded : added 2 ([.add 1 2 4] : List (MetricStep Unit)) = 4 := rfl
  have hfit : added 2 ([.add 0 2 5] ++ List.replicate numShards (.load ()) ++ [.add 1 2 4] ++
      List.replicate numShards (.load ())) < 2 ^ 64 := by
    rw [added_append, added_append, added_append, added_loads, hadded₀, hadded]
    decide
  have h := delta_between hfit hbefore hrun hno hbase rfl hadd hrun' hno hnow rfl
  rw [added_append, added_append, added_loads, hadded] at h
  exact Nat.le_antisymm h.2.2 h.2.1

end Metrics
