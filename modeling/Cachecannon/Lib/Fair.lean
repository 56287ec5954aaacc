import Cachecannon.Lib.Exec
import Mathlib.Order.SuccPred.Basic

/-!
# Endless runs and fairness

A schedule is a run without end: at each time one event happens, or nothing does. A set of events
is weakly fair in it when it does not stay enabled for ever without one of them happening, and
strongly fair when it is not even enabled again and again without. `leads_of_weak` and
`leads_of_rank` are the rules for reaching a goal.
-/

namespace Fair

variable {σ ε : Type*} {step : σ → ε → Option σ}

structure Schedule (step : σ → ε → Option σ) where
  state : Nat → σ
  event : Nat → Option ε
  next : ∀ n, (∃ e, event n = some e ∧ step (state n) e = some (state (n + 1))) ∨
    (event n = none ∧ state (n + 1) = state n)

def Enabled (step : σ → ε → Option σ) (A : ε → Prop) (s : σ) : Prop :=
  ∃ e, A e ∧ (step s e).isSome

namespace Schedule

variable (r : Schedule step)

def Occurs (A : ε → Prop) (n : Nat) : Prop := ∃ e, r.event n = some e ∧ A e

def WeaklyFair (A : ε → Prop) : Prop :=
  ∀ n, (∀ m, n ≤ m → Enabled step A (r.state m)) → ∃ m, n ≤ m ∧ r.Occurs A m

def StronglyFair (A : ε → Prop) : Prop :=
  ∀ n, (∀ m, n ≤ m → ∃ k, m ≤ k ∧ Enabled step A (r.state k)) → ∃ m, n ≤ m ∧ r.Occurs A m

variable {r}

/-- What every step keeps holds from any time it holds on. -/
theorem inv_of_step {I : σ → Prop} (hstep : ∀ {s e s'}, I s → step s e = some s' → I s') {n m : Nat}
    (h : I (r.state n)) (hle : n ≤ m) : I (r.state m) := by
  induction m, hle using Nat.le_induction with
  | base => exact h
  | succ m _ ih =>
    rcases r.next m with ⟨e, -, hnext⟩ | ⟨-, hnext⟩
    · exact hstep ih hnext
    · rwa [hnext]

/-- **Weak fairness.** Suppose a step out of `P` leads to `Q`, an event of `A` leads from `P` to
`Q`, and `A` is enabled in `P`. Then a schedule in `P` comes to `Q`. -/
theorem leads_of_weak {A : ε → Prop} {P Q : σ → Prop} (hfair : r.WeaklyFair A)
    (hstep : ∀ {s e s'}, P s → step s e = some s' → P s' ∨ Q s')
    (hA : ∀ {s e s'}, P s → A e → step s e = some s' → Q s')
    (henabled : ∀ {s}, P s → Enabled step A s) {n : Nat} (h : P (r.state n)) :
    ∃ m, n ≤ m ∧ Q (r.state m) := by
  by_contra hnever
  push Not at hnever
  have hstays : ∀ m, n ≤ m → P (r.state m) := by
    intro m hle
    induction m, hle using Nat.le_induction with
    | base => exact h
    | succ m hle ih =>
      rcases r.next m with ⟨e, -, hnext⟩ | ⟨-, hnext⟩
      · exact (hstep ih hnext).resolve_right (hnever (m + 1) (by omega))
      · rwa [hnext]
  obtain ⟨m, hle, e, hevent, he⟩ := hfair n fun m hle => henabled (hstays m hle)
  rcases r.next m with ⟨e', hevent', hnext⟩ | ⟨hnone, -⟩
  · obtain rfl := Option.some.inj (hevent.symm.trans hevent')
    exact hnever (m + 1) (by omega) (hA (hstays m hle) he hnext)
  · rw [hevent] at hnone
    cases hnone

/-- **A rank.** In `I` no step raises `μ` and the events of `A` lower it. If from any time in `I`
an event of `A` happens later or the schedule comes to `Q`, then it comes to `Q`. -/
theorem leads_of_rank {A : ε → Prop} {I Q : σ → Prop} (μ : σ → Nat)
    (hstep : ∀ {s e s'}, I s → step s e = some s' → I s' ∧ μ s' ≤ μ s)
    (hA : ∀ {s e s'}, I s → A e → step s e = some s' → μ s' < μ s)
    (hoccurs : ∀ n, I (r.state n) → ∃ m, n ≤ m ∧ (Q (r.state m) ∨ r.Occurs A m))
    {n : Nat} (h : I (r.state n)) : ∃ m, n ≤ m ∧ Q (r.state m) := by
  induction hk : μ (r.state n) using Nat.strongRecOn generalizing n with
  | ind k ih =>
    rcases hoccurs n h with ⟨m, hle, hQ | ⟨e, hevent, he⟩⟩
    · exact ⟨m, hle, hQ⟩
    · have hm : I (r.state m) ∧ μ (r.state m) ≤ k :=
        inv_of_step (I := fun s => I s ∧ μ s ≤ k)
          (fun hs hnext => ⟨(hstep hs.1 hnext).1, (hstep hs.1 hnext).2.trans hs.2⟩)
          ⟨h, hk.le⟩ hle
      rcases r.next m with ⟨e', hevent', hnext⟩ | ⟨hnone, -⟩
      · obtain rfl := Option.some.inj (hevent.symm.trans hevent')
        have hlt := hA hm.1 he hnext
        obtain ⟨m', hle', hQ⟩ := ih _ (by omega) (hstep hm.1 hnext).1 rfl
        exact ⟨m', by omega, hQ⟩
      · rw [hevent] at hnone
        cases hnone

/-! ## A run that stops -/

section Stop

variable (s₀ : σ) (es : List ε)

theorem run_take_isSome (hrun : (Exec.run step s₀ es).isSome) (n : Nat) :
    (Exec.run step s₀ (es.take n)).isSome := by
  rw [← List.take_append_drop n es, Exec.run_append] at hrun
  by_contra hnone
  rw [Bool.not_eq_true, Option.isSome_eq_false_iff, Option.isNone_iff_eq_none] at hnone
  simp [hnone] at hrun

/-- The events of `es`, and nothing after them. -/
def ofRun (hrun : (Exec.run step s₀ es).isSome) : Schedule step where
  state n := (Exec.run step s₀ (es.take n)).get (run_take_isSome s₀ es hrun n)
  event n := es[n]?
  next n := by
    cases hevent : es[n]? with
    | none =>
      rw [List.getElem?_eq_none_iff] at hevent
      simp [List.take_of_length_le hevent, List.take_of_length_le (by omega : es.length ≤ n + 1)]
    | some e =>
      refine .inl ⟨e, rfl, ?_⟩
      have hsome := run_take_isSome s₀ es hrun n
      have hsome' := run_take_isSome s₀ es hrun (n + 1)
      rw [Option.isSome_iff_exists] at hsome hsome'
      obtain ⟨t, ht⟩ := hsome
      obtain ⟨t', ht'⟩ := hsome'
      simp only [ht, ht', Option.get_some]
      rw [List.take_add_one, hevent, Option.toList_some, Exec.run_append, ht] at ht'
      simpa [Exec.run] using ht'

variable {s₀ es} {hrun : (Exec.run step s₀ es).isSome}

theorem ofRun_state {n : Nat} (hn : es.length ≤ n) :
    (ofRun s₀ es hrun).state n = (Exec.run step s₀ es).get hrun := by
  simp [ofRun, List.take_of_length_le hn]

/-- What is not enabled at the end is treated fairly. -/
theorem ofRun_stronglyFair {A : ε → Prop}
    (hend : ¬ Enabled step A ((Exec.run step s₀ es).get hrun)) :
    (ofRun s₀ es hrun).StronglyFair A := by
  intro n hoften
  obtain ⟨k, hk, henabled⟩ := hoften (max n es.length) (le_max_left _ _)
  rw [ofRun_state (by omega)] at henabled
  exact absurd henabled hend

theorem StronglyFair.weaklyFair {r : Schedule step} {A : ε → Prop} (h : r.StronglyFair A) :
    r.WeaklyFair A :=
  fun n hall => h n fun m hle => ⟨m, le_rfl, hall m hle⟩

end Stop

end Schedule

end Fair
