import Cachecannon.KvReplay.Recorded
import Cachecannon.Lib.Ledger

/-!
# Recorded rows are in the results

A request is counted before its row's flag is read, and the baseline is read before Running is
published. So of the rows a worker has written as recorded, at most one, the one it had counted
and not written when the baseline was read, is missing from the results (`recorded_le_requests`).
-/

namespace KvReplay

open Exec
open Worker (Phase)

variable {W S : Type} [Fintype W] [DecidableEq S]

/-- The workers of a shard that have counted a request and not written its row. -/
def pending (shardOf : W → S) (counted : W → Bool) (i : S) : Nat :=
  ∑ w, if shardOf w = i ∧ counted w = true then 1 else 0

/-- The recorded rows of a shard's workers. -/
def recordedOn (shardOf : W → S) (recorded : W → Nat) (i : S) : Nat :=
  ∑ w, if shardOf w = i then recorded w else 0

/-- The workers of a shard. -/
def workersOn (shardOf : W → S) (i : S) : Nat := ∑ w, if shardOf w = i then 1 else 0

section Sums

variable (shardOf : W → S) (i : S)

theorem pending_le (counted : W → Bool) : pending shardOf counted i ≤ workersOn shardOf i := by
  refine Finset.sum_le_sum fun w _ => ?_
  by_cases h : shardOf w = i
  · by_cases hw : counted w = true <;> simp [h, hw]
  · simp [h]

variable [DecidableEq W]

theorem pending_count {counted : W → Bool} {w : W} (h : counted w = false) :
    pending shardOf (Function.update counted w true) i =
      pending shardOf counted i + if shardOf w = i then 1 else 0 := by
  have hsum := Ledger.sum_of_eq_off (M := Nat)
    (fun v => if shardOf v = i ∧ counted v = true then 1 else 0)
    (fun v => if shardOf v = i ∧ Function.update counted w true v = true then 1 else 0) w
    fun v hv => by simp [hv]
  simp only [Function.update_self, h, Bool.false_eq_true, and_false, if_false, and_true,
    Nat.add_zero] at hsum
  exact hsum

theorem pending_row {counted : W → Bool} {w : W} (h : counted w = true) :
    pending shardOf (Function.update counted w false) i + (if shardOf w = i then 1 else 0) =
      pending shardOf counted i := by
  have hsum := Ledger.sum_of_eq_off (M := Nat)
    (fun v => if shardOf v = i ∧ counted v = true then 1 else 0)
    (fun v => if shardOf v = i ∧ Function.update counted w false v = true then 1 else 0) w
    fun v hv => by simp [hv]
  simp only [Function.update_self, h, Bool.false_eq_true, and_false, if_false, and_true,
    Nat.add_zero] at hsum
  exact hsum

theorem recordedOn_row (recorded : W → Nat) (w : W) (n : Nat) :
    recordedOn shardOf (Function.update recorded w (recorded w + n)) i =
      recordedOn shardOf recorded i + if shardOf w = i then n else 0 := by
  have hsum := Ledger.sum_of_eq_off (M := Nat)
    (fun v => if shardOf v = i then recorded v else 0)
    (fun v => if shardOf v = i then Function.update recorded w (recorded w + n) v else 0) w
    fun v hv => by simp [hv]
  simp only [Function.update_self] at hsum
  unfold recordedOn
  split at hsum <;> rename_i hshard <;> simp only [hshard, if_true, if_false] at hsum ⊢ <;> omega

end Sums

/-- What holds of the shard `i`: until its baseline is read no row is recorded on it, and from then
on it has all the recorded rows but those of workers that had counted already. -/
structure RecordInv (shardOf : W → S) (s : RecordState W S) (i : S) : Prop where
  early : s.phase = .warmup ∨ s.base i = none → recordedOn shardOf s.recorded i = 0
  loaded : s.phase = .running → s.base i ≠ none
  base : ∀ b, s.base i = some b → b ≤ s.shard i ∧
    b + recordedOn shardOf s.recorded i + pending shardOf s.counted i ≤
      s.shard i + workersOn shardOf i
  final : ∀ n, s.final i = some n → s.phase = .stop ∧ ∀ b, s.base i = some b →
    b ≤ n ∧ b + recordedOn shardOf s.recorded i ≤ n + workersOn shardOf i

theorem recordInv_init (shardOf : W → S) (i : S) : RecordInv shardOf .init i where
  early _ := Finset.sum_eq_zero fun w _ => by simp [RecordState.init]
  loaded h := by cases h
  base b h := by cases h
  final n h := by cases h

section Totals

variable [Fintype S]

theorem sum_recordedOn (shardOf : W → S) (recorded : W → Nat) :
    ∑ i, recordedOn shardOf recorded i = ∑ w, recorded w := by
  unfold recordedOn
  rw [Finset.sum_comm]
  exact Finset.sum_congr rfl fun w _ => by simp

theorem sum_workersOn (shardOf : W → S) : ∑ i, workersOn shardOf i = Fintype.card W := by
  unfold workersOn
  rw [Finset.sum_comm]
  simp

end Totals

variable [Fintype S] [DecidableEq W]

theorem step_recordInv {shardOf : W → S} {s s' : RecordState W S} {e : RecordStep W S}
    (hI : ∀ i, RecordInv shardOf s i) (hstep : recordStep shardOf s e = some s') :
    ∀ i, RecordInv shardOf s' i := by
  intro i
  have hi := hI i
  cases e with
  | count w =>
    rw [recordStep] at hstep
    split at hstep
    case isTrue => cases hstep
    case isFalse h =>
      cases hstep
      refine ⟨hi.early, hi.loaded, fun b hb => ?_, hi.final⟩
      obtain ⟨hle, hrec⟩ := hi.base b hb
      simp only [pending_count shardOf i (by simpa using h)]
      by_cases hw : shardOf w = i
      · subst hw
        simp only [Function.update_self, if_true]
        omega
      · rw [Function.update_of_ne (Ne.symm hw), if_neg hw]
        omega
  | row w =>
    rw [recordStep] at hstep
    split at hstep
    case isFalse => cases hstep
    case isTrue h =>
      cases hstep
      have hpending := pending_row shardOf i h
      by_cases hrunning : s.phase = .running
      · refine ⟨fun hearly => ?_, hi.loaded, fun b hb => ?_, fun n hn => ?_⟩
        · rcases hearly with hwarm | hbase
          · cases hrunning.symm.trans hwarm
          · exact absurd hbase (hi.loaded hrunning)
        · obtain ⟨hle, hrec⟩ := hi.base b hb
          refine ⟨hle, ?_⟩
          simp only [recordedOn_row, hrunning, if_true]
          split at hpending <;> rename_i hw <;> simp only [hw, if_true, if_false] <;> omega
        · cases hrunning.symm.trans (hi.final n hn).1
      · simp only [if_neg hrunning, Nat.add_zero, Function.update_eq_self]
        refine ⟨hi.early, hi.loaded, fun b hb => ?_, hi.final⟩
        obtain ⟨hle, hrec⟩ := hi.base b hb
        refine ⟨hle, ?_⟩
        simp only
        omega
  | loadBase j =>
    rw [recordStep] at hstep
    split at hstep
    case isFalse => cases hstep
    case isTrue h =>
      cases hstep
      obtain ⟨hwarm, hnone⟩ := h
      have hzero := hi.early (.inl hwarm)
      refine ⟨fun _ => hzero, fun hr => (by cases hwarm.symm.trans hr), fun b hb => ?_,
        fun n hn => (by cases hwarm.symm.trans (hi.final n hn).1)⟩
      by_cases hj : i = j
      · subst hj
        simp only [Function.update_self, Option.some.injEq] at hb
        subst hb
        have := pending_le shardOf i s.counted
        simp only
        omega
      · dsimp only at hb
        rw [Function.update_of_ne hj] at hb
        exact hi.base b hb
  | running =>
    rw [recordStep] at hstep
    split at hstep
    case isFalse => cases hstep
    case isTrue h =>
      cases hstep
      have hzero := hi.early (.inl h.1)
      exact ⟨fun _ => hzero, fun _ => h.2 i, hi.base,
        fun n hn => (by cases h.1.symm.trans (hi.final n hn).1)⟩
  | stop =>
    cases hstep
    refine ⟨fun hearly => hi.early (.inr ?_), fun h => (by cases h), hi.base,
      fun n hn => ⟨rfl, (hi.final n hn).2⟩⟩
    exact hearly.resolve_left Phase.noConfusion
  | loadFinal j =>
    rw [recordStep] at hstep
    split at hstep
    case isFalse => cases hstep
    case isTrue h =>
      cases hstep
      refine ⟨hi.early, hi.loaded, hi.base, fun n hn => ?_⟩
      by_cases hj : i = j
      · subst hj
        simp only [Function.update_self, Option.some.injEq] at hn
        subst hn
        refine ⟨h.1, fun b hb => ?_⟩
        obtain ⟨hle, hrec⟩ := hi.base b hb
        exact ⟨hle, by simp only; omega⟩
      · dsimp only at hn
        rw [Function.update_of_ne hj] at hn
        exact hi.final n hn

/-- **A row marked `recorded` is in the results**, but for at most one row of each worker: the one
of a request it had counted, and not written, when the baseline of its shard was read. In every
interleaving of the workers' counting and writing with the main thread's loads of the shards, for a
run that published Running and read all the shards again after Stop. -/
theorem recorded_le_requests {shardOf : W → S} {es : List (RecordStep W S)}
    {s : RecordState W S} (hrun : run (recordStep shardOf) .init es = some s)
    (hbase : ∀ i, s.base i ≠ none) (hfinal : ∀ i, s.final i ≠ none) :
    (∑ i, (s.base i).getD 0) ≤ ∑ i, (s.final i).getD 0 ∧
      ∑ w, s.recorded w ≤ s.requests + Fintype.card W := by
  have hI := run_inv (I := fun s => ∀ i, RecordInv shardOf s i) step_recordInv
    (recordInv_init shardOf) hrun
  have hshard : ∀ i, (s.base i).getD 0 ≤ (s.final i).getD 0 ∧
      (s.base i).getD 0 + recordedOn shardOf s.recorded i ≤
        (s.final i).getD 0 + workersOn shardOf i := by
    intro i
    obtain ⟨b, hb⟩ := Option.ne_none_iff_exists'.1 (hbase i)
    obtain ⟨n, hn⟩ := Option.ne_none_iff_exists'.1 (hfinal i)
    rw [hb, hn]
    exact ((hI i).final n hn).2 b hb
  have hle := Finset.sum_le_sum fun i (_ : i ∈ Finset.univ) => (hshard i).1
  have hsum := Finset.sum_le_sum fun i (_ : i ∈ Finset.univ) => (hshard i).2
  rw [Finset.sum_add_distrib, Finset.sum_add_distrib, sum_recordedOn, sum_workersOn] at hsum
  refine ⟨hle, ?_⟩
  unfold RecordState.requests
  omega

/-- The bound is met: the request is counted before the baseline, and its row is recorded. -/
theorem recorded_le_requests_counted_before : ∃ s : RecordState Unit Unit,
    run (recordStep id) .init
      [.count (), .loadBase (), .running, .row (), .stop, .loadFinal ()] = some s ∧
    s.requests = 0 ∧ s.recorded () ≤ 0 + 1 := by
  have hrun : ∃ s : RecordState Unit Unit, run (recordStep id) .init
      [.count (), .loadBase (), .running, .row (), .stop, .loadFinal ()] = some s ∧
      (∀ i, s.base i ≠ none) ∧ (∀ i, s.final i ≠ none) ∧ s.requests = 0 :=
    ⟨_, rfl, by decide, by decide, rfl⟩
  obtain ⟨s, hrun, hbase, hfinal, hrequests⟩ := hrun
  have h := (recorded_le_requests hrun hbase hfinal).2
  rw [hrequests] at h
  exact ⟨s, hrun, hrequests, by simpa using h⟩

end KvReplay
