import Mathlib.Data.List.Basic

/-!
# Runs of a partial step function

`step s e` is the state after the event `e`, or `none` when `e` cannot happen in `s`. A run is a
list of events. `run_inv` is the invariant rule; `run_inv_of` is the rule for the runs whose
steps all meet a condition, and `run_crosses` finds the step that brought something about.
`visits_iff_meets` is for a condition that tells exactly which steps leave the safe states, and
`length_le_of_measure` bounds a run by what every step spends (`countP_le_of_measure`, its steps of
one kind).
-/

namespace Exec

variable {σ ε : Type*} (step : σ → ε → Option σ)

/-- The state after the events `es`, each of which can happen when it does. -/
def run (s : σ) (es : List ε) : Option σ := es.foldlM step s

variable {step}

@[simp] theorem run_cons (s : σ) (e : ε) (es : List ε) :
    run step s (e :: es) = (step s e).bind (run step · es) := by
  simp [run, List.foldlM_cons]

theorem run_append (s : σ) (es es' : List ε) :
    run step s (es ++ es') = (run step s es).bind (run step · es') := by
  simp [run, List.foldlM_append]

/-- **The invariant rule.** What every step keeps, every run keeps. -/
theorem run_inv {I : σ → Prop} (hstep : ∀ {s e s'}, I s → step s e = some s' → I s') {es : List ε}
    {s s' : σ} (h : I s) (hrun : run step s es = some s') : I s' := by
  induction es generalizing s with
  | nil =>
    cases hrun
    exact h
  | cons e es ih =>
    rw [run_cons, Option.bind_eq_some_iff] at hrun
    obtain ⟨t, ht, hrun⟩ := hrun
    exact ih (hstep h ht) hrun

/-- What holds after a run and not before it, some step of the run brought about, from a state
that the invariant holds of. -/
theorem run_crosses {I P : σ → Prop} (hstep : ∀ {s e s'}, I s → step s e = some s' → I s')
    {es : List ε} {s s' : σ} (h : I s) (hrun : run step s es = some s') (hbefore : ¬P s)
    (hafter : P s') : ∃ e ∈ es, ∃ t t', I t ∧ step t e = some t' ∧ ¬P t ∧ P t' := by
  induction es generalizing s with
  | nil =>
    cases hrun
    exact absurd hafter hbefore
  | cons e es ih =>
    rw [run_cons, Option.bind_eq_some_iff] at hrun
    obtain ⟨t, ht, hrun⟩ := hrun
    by_cases hP : P t
    · exact ⟨e, List.mem_cons_self, s, t, h, ht, hbefore, hP⟩
    · obtain ⟨e', hmem, hcross⟩ := ih (hstep h ht) hrun hP
      exact ⟨e', List.mem_cons_of_mem e hmem, hcross⟩

/-- Every step of the run meets the condition `C`, which may look at the state before it. -/
def Meets (step : σ → ε → Option σ) (C : σ → ε → Prop) : σ → List ε → Prop
  | _, [] => True
  | s, e :: es => C s e ∧ ∀ s', step s e = some s' → Meets step C s' es

theorem meets_cons {C : σ → ε → Prop} {s s' : σ} {e : ε} {es : List ε}
    (hstep : step s e = some s') :
    Meets step C s (e :: es) ↔ C s e ∧ Meets step C s' es := by
  rw [Meets]
  refine and_congr_right fun _ => ⟨fun h => h s' hstep, fun h t ht => ?_⟩
  rw [hstep] at ht
  cases ht
  exact h

theorem run_inv_of {I : σ → Prop} {C : σ → ε → Prop}
    (hstep : ∀ {s e s'}, I s → C s e → step s e = some s' → I s') {es : List ε} {s s' : σ}
    (h : I s) (hC : Meets step C s es) (hrun : run step s es = some s') : I s' := by
  induction es generalizing s with
  | nil =>
    cases hrun
    exact h
  | cons e es ih =>
    rw [run_cons, Option.bind_eq_some_iff] at hrun
    obtain ⟨t, ht, hrun⟩ := hrun
    exact ih (hstep h hC.1 ht) (hC.2 t ht) hrun

/-- What no step lowers is, before every step of a run, at most what it is after the run. -/
theorem meets_le_of_mono (f : σ → Nat) (hmono : ∀ {s e s'}, step s e = some s' → f s ≤ f s')
    {es : List ε} {s s' : σ} (hrun : run step s es = some s') :
    f s ≤ f s' ∧ Meets step (fun t _ => f t ≤ f s') s es := by
  induction es generalizing s with
  | nil =>
    cases hrun
    exact ⟨Nat.le_refl _, trivial⟩
  | cons e es ih =>
    rw [run_cons, Option.bind_eq_some_iff] at hrun
    obtain ⟨t, ht, hrun⟩ := hrun
    obtain ⟨hle, hmeets⟩ := ih hrun
    have hfirst := Nat.le_trans (hmono ht) hle
    exact ⟨hfirst, (meets_cons ht).2 ⟨hfirst, hmeets⟩⟩

/-- The run passes through `t`. -/
def Visits (step : σ → ε → Option σ) (s : σ) (es : List ε) (t : σ) : Prop :=
  ∃ es₁ es₂, es = es₁ ++ es₂ ∧ run step s es₁ = some t

theorem visits_cons {s s' t : σ} {e : ε} {es : List ε} (hstep : step s e = some s') :
    Visits step s (e :: es) t ↔ t = s ∨ Visits step s' es t := by
  constructor
  · rintro ⟨es₁, es₂, hes, hrun⟩
    cases es₁ with
    | nil =>
      cases hrun
      exact .inl rfl
    | cons e₁ es₁ =>
      obtain ⟨rfl, rfl⟩ := List.cons.inj hes
      rw [run_cons, hstep] at hrun
      exact .inr ⟨es₁, es₂, rfl, hrun⟩
  · rintro (rfl | ⟨es₁, es₂, rfl, hrun⟩)
    · exact ⟨[], e :: es, rfl, rfl⟩
    · refine ⟨e :: es₁, es₂, rfl, ?_⟩
      rw [run_cons, hstep]
      exact hrun

/-- **The exact safety rule.** From a safe state, a step leads to a safe one exactly when it meets
`C`. So a run stays in safe states exactly when all of its steps meet `C`. -/
theorem visits_iff_meets {I P : σ → Prop} {C : σ → ε → Prop}
    (hstep : ∀ {s e s'}, I s → P s → step s e = some s' → I s' ∧ (P s' ↔ C s e))
    {es : List ε} {s s' : σ} (h : I s) (hP : P s) (hrun : run step s es = some s') :
    (∀ t, Visits step s es t → P t) ↔ Meets step C s es := by
  induction es generalizing s with
  | nil =>
    refine ⟨fun _ => trivial, fun _ t ht => ?_⟩
    obtain ⟨es₁, es₂, hes, hvisit⟩ := ht
    obtain ⟨rfl, -⟩ := List.append_eq_nil_iff.1 hes.symm
    cases hvisit
    exact hP
  | cons e es ih =>
    rw [run_cons, Option.bind_eq_some_iff] at hrun
    obtain ⟨u, hu, hrun⟩ := hrun
    obtain ⟨hIu, hPu⟩ := hstep h hP hu
    rw [meets_cons hu]
    constructor
    · intro hall
      have hsafe : P u := hall u ((visits_cons hu).2 (.inr ⟨[], es, rfl, rfl⟩))
      refine ⟨hPu.1 hsafe, (ih hIu hsafe hrun).1 fun t ht => ?_⟩
      exact hall t ((visits_cons hu).2 (.inr ht))
    · rintro ⟨hC, hmeets⟩ t ht
      rcases (visits_cons hu).1 ht with rfl | ht
      · exact hP
      · exact (ih hIu (hPu.2 hC) hrun).2 hmeets t ht

theorem length_le_of_measure {I : σ → Prop} {C : σ → ε → Prop} (μ : σ → Nat)
    (hstep : ∀ {s e s'}, I s → C s e → step s e = some s' → I s' ∧ μ s' < μ s) {es : List ε}
    {s s' : σ} (h : I s) (hC : Meets step C s es) (hrun : run step s es = some s') :
    es.length ≤ μ s := by
  induction es generalizing s with
  | nil => exact Nat.zero_le _
  | cons e es ih =>
    rw [run_cons, Option.bind_eq_some_iff] at hrun
    obtain ⟨u, hu, hrun⟩ := hrun
    obtain ⟨hIu, hless⟩ := hstep h hC.1 hu
    have hrest := ih hIu (hC.2 u hu) hrun
    rw [List.length_cons]
    omega

/-- The same for the steps of one kind, when the others spend nothing or more. -/
theorem countP_le_of_measure {I : σ → Prop} {C : σ → ε → Prop} (μ : σ → Nat) (p : ε → Bool)
    (hstep : ∀ {s e s'}, I s → C s e → step s e = some s' →
      I s' ∧ μ s' + (if p e = true then 1 else 0) ≤ μ s) {es : List ε} {s s' : σ} (h : I s)
    (hC : Meets step C s es) (hrun : run step s es = some s') : es.countP p + μ s' ≤ μ s := by
  induction es generalizing s with
  | nil =>
    cases hrun
    simp
  | cons e es ih =>
    rw [run_cons, Option.bind_eq_some_iff] at hrun
    obtain ⟨u, hu, hrun⟩ := hrun
    obtain ⟨hIu, hless⟩ := hstep h hC.1 hu
    have hrest := ih hIu (hC.2 u hu) hrun
    rw [List.countP_cons]
    omega

/-- **The balance rule.** Each step moves the balance of `credit` and `debit` by what it loses,
and loses nothing exactly when it meets `C`. So a run that starts balanced ends balanced exactly
when all of its steps meet `C`. -/
theorem run_balance_iff {I : σ → Prop} {C : σ → ε → Prop} (credit debit : σ → Nat)
    (hstep : ∀ {s e s'}, I s → step s e = some s' → I s' ∧
      ∃ loss, credit s' + debit s = credit s + debit s' + loss ∧ (loss = 0 ↔ C s e))
    {es : List ε} {s s' : σ} (h : I s) (hbal : credit s = debit s)
    (hrun : run step s es = some s') : credit s' = debit s' ↔ Meets step C s es := by
  -- losses add up: generalise to a run that starts with some lost already
  have hlost : ∀ (es : List ε) (s : σ) (k : Nat), I s → credit s = debit s + k →
      run step s es = some s' →
        ∃ k', credit s' = debit s' + k + k' ∧ (k' = 0 ↔ Meets step C s es) := by
    intro es
    induction es with
    | nil =>
      intro s k _ hk hrun
      cases hrun
      exact ⟨0, by omega, by simp [Meets]⟩
    | cons e es ih =>
      intro s k hs hk hrun
      rw [run_cons, Option.bind_eq_some_iff] at hrun
      obtain ⟨t, ht, hrun⟩ := hrun
      obtain ⟨hI, loss, hloss, hC⟩ := hstep hs ht
      obtain ⟨k', hk', hmeets⟩ := ih t (k + loss) hI (by omega) hrun
      refine ⟨loss + k', by omega, ?_⟩
      rw [meets_cons ht, ← hC, ← hmeets]
      omega
  obtain ⟨k, hk, hmeets⟩ := hlost es s 0 h (by omega) hrun
  rw [← hmeets]
  omega

end Exec
