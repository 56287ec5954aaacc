import Cachecannon.Worker.Prefill
import Cachecannon.Worker.Proof.Writers

/-!
# Prefill conservation

Every key id of `0..count` is at all times in one endpoint's queue, in flight on one connection,
confirmed once, or in the hands of the one connection that popped it (`prefill_conserved`). So no
more keys are confirmed than there are, and the runner leaves Prefill only when every key was
acknowledged. `prefill_key_in_hand` is the moment between a pop and what follows it, when the key
is in none of the first three.
-/

namespace Worker

open Ledger

variable {E C W : Type}

/-! ## Places -/

/-- Where a key id can be. -/
inductive Place (E C : Type)
  | queue (e : E)
  | inFlight (c : C)
  | confirmed
  /-- Popped by the connection, and not yet handed on, put back or fired. -/
  | hand (c : C)

def Place.isHand : Place E C → Bool
  | .hand _ => true
  | _ => false

def Place.equiv : E ⊕ C ⊕ C ⊕ Unit ≃ Place E C where
  toFun
    | .inl e => .queue e
    | .inr (.inl c) => .inFlight c
    | .inr (.inr (.inl c)) => .hand c
    | .inr (.inr (.inr ())) => .confirmed
  invFun
    | .queue e => .inl e
    | .inFlight c => .inr (.inl c)
    | .hand c => .inr (.inr (.inl c))
    | .confirmed => .inr (.inr (.inr ()))
  left_inv := by rintro (e | c | c | ⟨⟩) <;> rfl
  right_inv := by rintro (e | c | _ | c) <;> rfl

instance [Fintype E] [Fintype C] : Fintype (Place E C) := .ofEquiv _ Place.equiv

/-- How often the id `k` occurs in a place. -/
def occurrences (s : WriteState E C W) (k : Nat) : Place E C → Nat
  | .queue e => (s.queue e).count k
  | .inFlight c => (s.conn c).inFlight.count k
  | .confirmed => s.acked.count k
  | .hand c => (s.conn c).hand.count k

theorem sum_occurrences [Fintype E] [Fintype C] (s : WriteState E C W) (k : Nat) :
    ∑ p, occurrences s k p = total s k := by
  rw [← Place.equiv.sum_comp]
  simp only [Fintype.sum_sum_type, Place.equiv, Equiv.coe_fn_mk, occurrences, total, Writer.occurs,
    Finset.sum_add_distrib, Finset.univ_unique, Finset.sum_singleton]
  omega

theorem exactlyOne_of_total [Fintype E] [Fintype C] {s : WriteState E C W} {k : Nat}
    (h : total s k = 1) : ExactlyOne (occurrences s k) :=
  exactlyOne_of_sum ((sum_occurrences s k).trans h)

/-! ## The invariant -/

variable [DecidableEq E] [DecidableEq C] [DecidableEq W]

omit [DecidableEq C] [DecidableEq W] in
theorem sum_buildPrefillQueues [Fintype E] (route : Nat → E) (count k : Nat) :
    ∑ e, (buildPrefillQueues route count e).count k = (List.range count).count k := by
  have hfold : ∀ (keys : List Nat) (queues : E → List Nat),
      ∑ e, ((keys.foldl (fun queues key =>
        Function.update queues (route key) (queues (route key) ++ [key])) queues) e).count k =
          (∑ e, (queues e).count k) + keys.count k := by
    intro keys
    induction keys with
    | nil => simp
    | cons key keys ih =>
      intro queues
      have hpush := sum_map_update_add (List.count k) queues (route key)
        (queues (route key) ++ [key])
      rw [List.foldl_cons, ih]
      simp only [List.count_append, List.count_cons, List.count_nil] at hpush ⊢
      omega
  simpa [buildPrefillQueues] using hfold (List.range count) fun _ => []

structure PrefillInv [Fintype E] [Fintype C] (count : Nat) (s : PrefillState E C W) : Prop where
  conns : ∀ c, WriterOk (s.conn c)
  total_eq : ∀ k, Worker.total s.toWriteState k = (List.range count).count k
  counted : s.confirmed = s.acked.length
  keys : s.total = count
  left : s.phase ≠ .prefill → count ≤ s.acked.length

omit [DecidableEq C] [DecidableEq W] in
theorem init_prefillInv [Fintype E] [Fintype C] (cfg : WriterConfig E C W) (table : Nat → E)
    (count : Nat) : PrefillInv count (PrefillState.init cfg table count) where
  conns _ := rfl
  total_eq k := by
    simp [Worker.total, PrefillState.init, sum_buildPrefillQueues, Writer.occurs, Writer.hand,
      Writer.new]
  counted := rfl
  keys := rfl
  left h := absurd rfl h

theorem prefillStep_inv [Fintype E] [Fintype C] {cfg : WriterConfig E C W} {count : Nat}
    {s t : PrefillState E C W} {e : PrefillStep E C} (h : PrefillInv count s)
    (hstep : prefillStep cfg s e = some t) : PrefillInv count t := by
  cases e with
  | conn c e =>
    simp only [prefillStep] at hstep
    split at hstep
    · rw [Option.map_eq_some_iff] at hstep
      obtain ⟨u, hu, rfl⟩ := hstep
      obtain ⟨_, _, _, heff⟩ := writerStep_effect (h.conns c) hu
      refine ⟨heff.conn_ok h.conns, fun k => (heff.total_eq k).trans (h.total_eq k), ?_, h.keys,
        fun hp => (h.left hp).trans heff.acked.length_le⟩
      have := heff.counted
      have := h.counted
      simp only
      omega
    · cases hstep
  | runner =>
    simp only [prefillStep] at hstep
    split at hstep <;> cases hstep
    · rename_i hdone
      refine ⟨h.conns, h.total_eq, h.counted, h.keys, fun _ => ?_⟩
      have := h.keys
      have := h.counted
      simp only
      omega
    · exact h

omit [DecidableEq E] [DecidableEq C] [DecidableEq W] in
theorem PrefillInv.acked_le [Fintype E] [Fintype C] {count : Nat} {s : PrefillState E C W}
    (h : PrefillInv count s) (k : Nat) : s.acked.count k ≤ (List.range count).count k := by
  rw [← h.total_eq k]
  exact Nat.le_add_left _ _

/-- **Prefill conservation.** In every run, each key id is in one endpoint's queue, in flight on
one connection, confirmed once, or in the hands of one connection between its pop and what
follows it; in one of the first three whenever no connection has a key in its hands. No more keys
are confirmed than assigned, and the runner leaves Prefill only when all were acknowledged. -/
theorem prefill_conserved [Fintype E] [Fintype C] (cfg : WriterConfig E C W) (table : Nat → E)
    (count : Nat) (es : List (PrefillStep E C)) (s : PrefillState E C W)
    (hrun : Exec.run (prefillStep cfg) (.init cfg table count) es = some s) :
    (∀ k < count, ExactlyOne (occurrences s.toWriteState k)) ∧
      ((∀ c, (s.conn c).hand = []) → ∀ k < count, ∃ p : Place E C, p.isHand = false ∧
        occurrences s.toWriteState k p = 1 ∧ ∀ q, q ≠ p → occurrences s.toWriteState k q = 0) ∧
      s.confirmed = s.acked.length ∧ s.confirmed ≤ s.total ∧
      (s.phase ≠ .prefill → ∀ k < count, occurrences s.toWriteState k .confirmed = 1) := by
  have h : PrefillInv count s := Exec.run_inv prefillStep_inv (init_prefillInv cfg table count) hrun
  have hone : ∀ k < count, ExactlyOne (occurrences s.toWriteState k) := fun k hk =>
    exactlyOne_of_total ((h.total_eq k).trans (count_range hk))
  refine ⟨hone, fun hhands k hk => ?_, h.counted, ?_, fun hleft k hk => ?_⟩
  · obtain ⟨p, hp, hothers⟩ := hone k hk
    refine ⟨p, ?_, hp, hothers⟩
    cases p with
    | hand c => simp [occurrences, hhands c] at hp
    | queue e => rfl
    | inFlight c => rfl
    | confirmed => rfl
  · have hlen := length_le_of_covered h.acked_le
    rw [List.length_range] at hlen
    rw [h.counted, h.keys]
    exact hlen
  · exact count_eq_one_of_covered h.acked_le List.nodup_range
      (by rw [List.length_range]; exact h.left hleft) (List.mem_range.2 hk)

/-! ## Runs -/

/-- Two endpoints, one connection to each, on one worker. -/
def twoWriters : WriterConfig Bool Bool Unit := ⟨2, id, fun _ => (), id⟩

/-- The second of the three keys cannot be fired, and both go back to the queue. -/
def failedFireRun : List (WriterStep Bool) :=
  [.connect, .begin true, .pop, .fire false, .pop, .failFire, .requeueNewest, .requeueNewest,
    .flush, .sleep]

/-- The first key has moved to the other endpoint; the connection breaks with the others in flight,
and hands the first one over when it is back. -/
def handOverRun : List (WriterStep Bool) :=
  [.begin true, .pop, .fire false, .pop, .fire false, .flush, .reply false (some (0, true)),
    .begin true, .pop, .fire false, .flush, .disconnect, .drain, .drain, .drain,
    .connect, .begin true, .pop, .handOff, .pop, .fire false, .pop, .fire false, .flush,
    .reply true none, .begin true, .flush, .reply true none]

def otherWriterRun : List (WriterStep Bool) :=
  [.connect, .begin true, .pop, .fire true, .flush, .reply true none]

def threeKeyRun : List (PrefillStep Bool Bool) :=
  (failedFireRun ++ handOverRun).map (.conn false) ++ otherWriterRun.map (.conn true) ++ [.runner]

theorem prefill_conserved_threeKeys : ∃ s,
    Exec.run (prefillStep twoWriters) (.init twoWriters (fun _ => false) 3) threeKeyRun = some s ∧
      s.acked = [1, 2, 0] ∧ s.phase = .warmup ∧
      ∀ k < 3, occurrences s.toWriteState k .confirmed = 1 := by
  have hrun : (Exec.run (prefillStep twoWriters) (.init twoWriters (fun _ => false) 3)
      threeKeyRun).map (fun s => (s.acked, s.phase)) = some ([1, 2, 0], .warmup) := by
    decide +kernel
  obtain ⟨s, hs, hends⟩ := Option.map_eq_some_iff.1 hrun
  obtain ⟨hacked, hphase⟩ := Prod.mk.inj hends
  refine ⟨s, hs, hacked, hphase, ?_⟩
  exact (prefill_conserved twoWriters _ 3 threeKeyRun s hs).2.2.2.2 (by rw [hphase]; decide)

def oneWriter : WriterConfig Unit Unit Unit := ⟨1, id, id, id⟩

def popRun : List (PrefillStep Unit Unit) :=
  [.conn () .connect, .conn () (.begin true), .conn () .pop]

/-- Right after its pop the key is in no queue, not in flight and not confirmed. -/
theorem prefill_key_in_hand : ∃ s,
    Exec.run (prefillStep oneWriter) (.init oneWriter (fun _ => ()) 1) popRun = some s ∧
      ¬ ∃ p : Place Unit Unit, p.isHand = false ∧ occurrences s.toWriteState 0 p = 1 := by
  refine ⟨_, rfl, ?_⟩
  rintro ⟨p, hp, hocc⟩
  cases p with
  | hand c => cases hp
  | queue e =>
    cases e
    exact absurd hocc (by decide)
  | inFlight c =>
    cases c
    exact absurd hocc (by decide)
  | confirmed => exact absurd hocc (by decide)

end Worker
