import Cachecannon.Worker.Tokens

/-!
# Rate-limit tokens are kept or spent

A loop is `Conserved` when the tokens debited and granted are those it tried to send a request
with and those it still carries. Both loops move tokens correctly as long as the fire loop ends
with its budget spent; what an early exit leaves is dropped (in the trace replay, unless rows ran
out), and so is what a connection carries when it returns. `WorkloadKeeps` and `TraceKeeps` say
on an iteration's inputs that nothing is dropped; `tokens_conserved_iff` is the result over whole
runs.

* `fireLoop_spec`: what the fire loop does to the budget, from the kinds of its turns.
* `workload_ledger`, `trace_ledger`: what one iteration loses.
-/

namespace Worker

open Budget

variable {τ : Type}

/-- The tokens taken from the limiter are those spent on a request and those still held. -/
def Conserved (s : LoopState) : Prop := s.debited + s.granted = s.tried + s.carriedTokens

instance (s : LoopState) : Decidable (Conserved s) := inferInstanceAs (Decidable (_ = _))

/-- From `s` to `s'`, `loss` tokens were dropped. -/
def Ledger (s s' : LoopState) (loss : Nat) : Prop :=
  s'.debited + s'.granted + (s.tried + s.carriedTokens) =
    s.debited + s.granted + (s'.tried + s'.carriedTokens) + loss

/-! ## The fire loop -/

/-- What a turn does: its kind is a function of its input and of whether a backfill is queued,
and it touches no token but the one it spends. -/
structure TurnSpec (body : LoopState → τ → Turn × LoopState) (kind : Nat → τ → Turn) : Prop where
  kind_eq : ∀ s t, (body s t).1 = kind s.backfill.length t
  frame : ∀ s t, (body s t).2.carriedTokens = s.carriedTokens ∧
    (body s t).2.debited = s.debited ∧ (body s t).2.granted = s.granted
  sent : ∀ s t, (body s t).1 = .sent → (body s t).2.tried = s.tried + 1 ∧
    (body s t).2.pending = s.pending + 1 ∧ (body s t).2.backfill.length = s.backfill.length - 1
  failed : ∀ s t, (body s t).1 = .failed → (body s t).2.tried = s.tried + 1
  left : ∀ s t, (body s t).1 = .empty ∨ (body s t).1 = .refused → (body s t).2.tried = s.tried

def kinds (kind : Nat → τ → Turn) (queued : Nat) (turns : Nat → τ) (i : Nat) : Turn :=
  kind (queued - i) (turns i)

theorem kinds_succ (kind : Nat → τ → Turn) (queued : Nat) (turns : Nat → τ) :
    (fun i => kinds kind queued turns (i + 1)) =
      kinds kind (queued - 1) (fun i => turns (i + 1)) := by
  funext i
  simp only [kinds, Nat.sub_sub, Nat.add_comm]

/-- With room in the pipeline for its budget, the fire loop leaves the `rest` of it. -/
theorem fireLoop_spec (cfg : LoopConfig) {body : LoopState → τ → Turn × LoopState}
    {kind : Nat → τ → Turn} (h : TurnSpec body kind) (turns : Nat → τ) (budget : Nat)
    (s : LoopState) (hroom : s.pending + budget ≤ cfg.pipelineDepth) :
    ∃ s', fireLoop cfg body turns budget s = (rest (kinds kind s.backfill.length turns) budget,
        exit (kinds kind s.backfill.length turns) budget, s') ∧
      s'.tried = s.tried + tried (kinds kind s.backfill.length turns) budget ∧
      s'.carriedTokens = s.carriedTokens ∧ s'.debited = s.debited ∧ s'.granted = s.granted := by
  induction budget generalizing turns s with
  | zero => exact ⟨s, rfl, rfl, rfl, rfl, rfl⟩
  | succ budget ih =>
    have hk : kinds kind s.backfill.length turns 0 = (body s (turns 0)).1 := by
      rw [h.kind_eq]
      rfl
    obtain ⟨hcarried, hdebited, hgranted⟩ := h.frame s (turns 0)
    have hsent := h.sent s (turns 0)
    have hfailed := h.failed s (turns 0)
    have hleft := h.left s (turns 0)
    rw [fireLoop, if_pos (by omega)]
    simp only [rest, exit, tried, hk]
    rcases hbody : body s (turns 0) with ⟨turn, s₁⟩
    simp only [hbody] at hcarried hdebited hgranted hsent hfailed hleft
    cases turn with
    | sent =>
      obtain ⟨ht, hp, hb⟩ := hsent rfl
      obtain ⟨s', hs', htried, hc, hd, hg⟩ := ih (fun i => turns (i + 1)) s₁ (by omega)
      simp only [kinds_succ, ← hb]
      exact ⟨s', hs', by omega, hc.trans hcarried, hd.trans hdebited, hg.trans hgranted⟩
    | failed => exact ⟨s₁, rfl, hfailed rfl, hcarried, hdebited, hgranted⟩
    | empty => exact ⟨s₁, rfl, hleft (.inl rfl), hcarried, hdebited, hgranted⟩
    | refused => exact ⟨s₁, rfl, hleft (.inr rfl), hcarried, hdebited, hgranted⟩

/-! ## An iteration around its fire loop -/

theorem tokenBudget_spec {cfg : LoopConfig} {s : LoopState} {it : Iteration τ} {budget : Nat}
    {starved : Bool} {s₁ : LoopState} (hbatch : s.carriedTokens ≤ cfg.batchSize)
    (h : tokenBudget cfg s it = (budget, starved, s₁)) :
    budget ≤ cfg.batchSize ∧ s₁.carriedTokens = 0 ∧ s₁.tried = s.tried ∧
      s₁.granted = s.granted ∧ s₁.debited + s.carriedTokens = s.debited + budget ∧
      s₁.pending = s.pending ∧ s₁.backfill = s.backfill ∧ (starved = true → budget = 0) := by
  unfold tokenBudget at h
  split at h
  · cases h
    exact ⟨hbatch, rfl, rfl, rfl, rfl, rfl, rfl, nofun⟩
  · rename_i hcarried
    have h0 : s.carriedTokens = 0 := by omega
    simp only at h
    split at h
    · cases h
      exact ⟨Nat.min_le_left _ _, h0, rfl, rfl, by simp only [h0, Nat.add_zero], rfl, rfl,
        nofun⟩
    · cases h
      exact ⟨Nat.zero_le _, h0, rfl, rfl, by omega, rfl, rfl, fun _ => rfl⟩

theorem acquire_le (cfg : LoopConfig) (answer : Acquire) : acquire cfg answer ≤ cfg.batchSize := by
  have := cfg.batchSize_pos
  cases answer <;> simp only [acquire] <;> omega

theorem flushAll_frame (s : LoopState) (flush : FireResult) :
    (flushAll s flush).carriedTokens = s.carriedTokens ∧ (flushAll s flush).tried = s.tried ∧
      (flushAll s flush).debited = s.debited ∧ (flushAll s flush).granted = s.granted := by
  cases flush <;> exact ⟨rfl, rfl, rfl, rfl⟩

theorem leave_ledger (s : LoopState) : Ledger s s.leave s.carriedTokens := by
  simp only [Ledger, LoopState.leave]
  omega

/-- After the flush, tokens are lost only by a connection that fails while it carries some. An
`acquire` never finds any carried. -/
theorem await_ledger {cfg : LoopConfig} {hold : Nat → Nat → Nat} (hhold : ∀ n, hold 0 n = n)
    {it : Iteration τ} {starved : Bool} {s s' : LoopState}
    (hstarved : starved = true → s.carriedTokens = 0) (hbatch : s.carriedTokens ≤ cfg.batchSize)
    (h : await cfg hold it starved s = some s') : s'.carriedTokens ≤ cfg.batchSize ∧
      Ledger s s' (if it.ending = .disconnect then s.carriedTokens else 0) := by
  unfold await at h
  split at h
  · split at h
    · rename_i answer hend
      split at h
      · rename_i hacq
        have h0 := hstarved (by simp only [Bool.and_eq_true] at hacq; exact hacq.1)
        cases h
        simp only [Ledger, hend, h0, hhold, reduceCtorEq, if_false]
        exact ⟨acquire_le cfg answer, by omega⟩
      · cases h
    · rename_i hend
      split at h
      · cases h
      · cases h
        simp only [Ledger, hend, reduceCtorEq, if_false]
        exact ⟨hbatch, by omega⟩
    · cases h
    · cases h
  · split at h
    · rename_i miss hend
      cases h
      simp only [Ledger, hend, reduceCtorEq, if_false]
      exact ⟨hbatch, by omega⟩
    · rename_i hend
      cases h
      rw [if_pos hend]
      exact ⟨Nat.zero_le _, leave_ledger s⟩
    · cases h
    · cases h

theorem idle_ledger {cfg : LoopConfig} {hold : Nat → Nat → Nat} (hhold : ∀ n, hold 0 n = n)
    {it : Iteration τ} {s t s' : LoopState} (ht : t.carriedTokens = s.carriedTokens ∧
      t.tried = s.tried ∧ t.debited = s.debited ∧ t.granted = s.granted)
    (hbatch : s.carriedTokens ≤ cfg.batchSize)
    (h : await cfg hold it false (flushAll t it.flush) = some s') :
    s'.carriedTokens ≤ cfg.batchSize ∧ ∃ loss, Ledger s s' loss ∧
      (loss = 0 ↔ (it.ending = .disconnect → s.carriedTokens = 0)) := by
  obtain ⟨hf1, hf2, hf3, hf4⟩ := flushAll_frame t it.flush
  obtain ⟨hbatch', hledger⟩ := await_ledger hhold
    (fun hstarved : false = true => by cases hstarved) (by omega) h
  refine ⟨hbatch', if it.ending = .disconnect then s.carriedTokens else 0, ?_, by simp⟩
  simp only [Ledger, hf1, ht.1] at hledger ⊢
  omega

/-! ## The workload loop -/

/-- The kind of a turn of the workload's fire loop, with `queued` backfills before it. -/
def workloadKind (cfg : WorkloadConfig) (queued : Nat) (t : WorkloadTurn) : Turn :=
  if queued = 0 ∧ pickKey cfg t = none then .empty
  else
    match t.fire with
    | .sent => .sent
    | .failed _ => .failed

theorem workload_turnSpec (cfg : WorkloadConfig) :
    TurnSpec (workloadTurn cfg) (workloadKind cfg) := by
  -- a turn is a send, of a backfill or of a key, or finds no key
  have hcases : ∀ s t, (workloadKind cfg s.backfill.length t = .empty ∧
        workloadTurn cfg s t = (.empty, s)) ∨
      ∃ rest, rest.length = s.backfill.length - 1 ∧ workloadTurn cfg s t = fireOne s rest t.fire ∧
        workloadKind cfg s.backfill.length t = (fireOne s rest t.fire).1 := by
    intro s t
    have hfire : ∀ rest, (match t.fire with | .sent => Turn.sent | .failed _ => Turn.failed) =
        (fireOne s rest t.fire).1 := fun rest => by cases t.fire <;> rfl
    by_cases hb : s.backfill = []
    · cases hp : pickKey cfg t with
      | none => exact .inl (by simp [workloadKind, workloadTurn, hb, hp])
      | some key =>
        exact .inr ⟨s.backfill, by simp [hb], by simp [workloadTurn, hb, hp],
          by simp [workloadKind, hb, hp, hfire s.backfill]⟩
    · exact .inr ⟨s.backfill.dropLast, List.length_dropLast, by simp [workloadTurn, hb],
        by simp [workloadKind, hb, hfire s.backfill.dropLast]⟩
  constructor
  all_goals
    intro s t
    rcases hcases s t with ⟨hk, heq⟩ | ⟨rest, hlen, heq, hk⟩
    · simp [heq, hk]
    · cases hf : t.fire <;> simp [heq, hk, hf, fireOne, hlen]

def workloadKinds (cfg : WorkloadConfig) (s : LoopState) (it : Iteration WorkloadTurn) :
    Nat → Turn :=
  kinds (workloadKind cfg) s.backfill.length it.turns

/-- The iteration drops no token: it does not return with tokens carried, and if it fires, each
turn it comes to finds a key, and only the last token's send fails. -/
def WorkloadKeeps (cfg : WorkloadConfig) (s : LoopState) (it : Iteration WorkloadTurn) : Prop :=
  if returnsAtTop s it then s.carriedTokens = 0
  else if it.phase.sends && wantFire cfg.toLoopConfig s then
    ∀ i < (tokenBudget cfg.toLoopConfig s it).1, Reached (workloadKinds cfg s it) i →
      workloadKinds cfg s it i ≠ .empty ∧
        (workloadKinds cfg s it i = .failed → i + 1 = (tokenBudget cfg.toLoopConfig s it).1)
  else it.ending = .disconnect → s.carriedTokens = 0

theorem workloadKind_ne_refused (cfg : WorkloadConfig) (queued : Nat) (t : WorkloadTurn) :
    workloadKind cfg queued t ≠ .refused := by
  unfold workloadKind
  split
  · nofun
  · split <;> nofun

theorem workload_ledger {cfg : WorkloadConfig} {s s' : LoopState} {it : Iteration WorkloadTurn}
    (hbatch : s.carriedTokens ≤ cfg.batchSize) (h : driveRespWorkload cfg s it = some s') :
    s'.carriedTokens ≤ cfg.batchSize ∧ ∃ loss, Ledger s s' loss ∧
      (loss = 0 ↔ WorkloadKeeps cfg s it) := by
  unfold driveRespWorkload at h
  unfold WorkloadKeeps
  split at h
  · cases h
  split at h
  · rename_i htop
    cases h
    rw [if_pos htop]
    exact ⟨Nat.zero_le _, _, leave_ledger s, Iff.rfl⟩
  rename_i htop
  rw [if_neg htop]
  split at h
  · rename_i hfires
    rw [if_pos hfires]
    simp only [Bool.and_eq_true, wantFire, decide_eq_true_eq] at hfires
    rcases hbudget : tokenBudget cfg.toLoopConfig s it with ⟨budget, starved, s₁⟩
    obtain ⟨hle, hcarried, htried, hgranted, hdebited, hpending, hback, -⟩ :=
      tokenBudget_spec hbatch hbudget
    have hpos := cfg.batchSize_pos
    obtain ⟨s₂, hloop, htried₂, hcarried₂, hdebited₂, hgranted₂⟩ :=
      fireLoop_spec cfg.toLoopConfig (workload_turnSpec cfg) it.turns budget s₁
        (by omega)
    rw [hback] at hloop htried₂
    rw [hbudget] at h
    simp only [hloop] at h
    obtain ⟨hf1, hf2, hf3, hf4⟩ := flushAll_frame s₂ it.flush
    have h0 : (flushAll s₂ it.flush).carriedTokens = 0 := by omega
    obtain ⟨hbatch', hledger⟩ := await_ledger (fun _ => rfl) (fun _ => h0) (by omega) h
    have hspent := tried_add_rest (workloadKinds cfg s it) budget
    refine ⟨hbatch', rest (workloadKinds cfg s it) budget, ?_, ?_⟩
    · simp only [Ledger, h0, ite_self] at hledger ⊢
      simp only [workloadKinds] at hspent ⊢
      omega
    · rw [rest_eq_zero_iff]
      simp only [workloadKinds, kinds, workloadKind_ne_refused, ne_eq, not_false_eq_true, true_and]
  · rename_i hfires
    rw [if_neg hfires]
    split at h
    · exact idle_ledger (fun _ => rfl) (t := { s with pending := it.prefilled })
        ⟨rfl, rfl, rfl, rfl⟩ hbatch h
    · exact idle_ledger (fun _ => rfl) ⟨rfl, rfl, rfl, rfl⟩ hbatch h

/-! ## The trace replay loop -/

/-- The kind of a turn of the trace replay's fire loop, with `queued` backfills before it. -/
def traceKind (queued : Nat) (t : TraceTurn) : Turn :=
  if queued = 0 ∧ t.next ≠ .row then .empty
  else
    match t.preFlush, t.fire with
    | .failed _, _ => .refused
    | .sent, .sent => .sent
    | .sent, .failed _ => .failed

theorem trace_turnSpec : TurnSpec traceTurn traceKind := by
  have hcases : ∀ s t, (traceKind s.backfill.length t = .empty ∧ traceTurn s t = (.empty, s)) ∨
      ∃ rest, rest.length = s.backfill.length - 1 ∧ traceTurn s t = traceFire s rest t ∧
        traceKind s.backfill.length t = (traceFire s rest t).1 := by
    intro s t
    have hfire : ∀ rest, (match t.preFlush, t.fire with
        | .failed _, _ => Turn.refused
        | .sent, .sent => Turn.sent
        | .sent, .failed _ => Turn.failed) = (traceFire s rest t).1 := fun rest => by
      unfold traceFire
      cases t.preFlush <;> cases t.fire <;> rfl
    rcases hb : s.backfill with _ | ⟨key, rest⟩
    · cases hn : t.next with
      | row => exact .inr ⟨[], rfl, by simp [traceTurn, hb, hn], by simp [traceKind, hn, hfire []]⟩
      | notReady => exact .inl (by simp [traceKind, traceTurn, hb, hn])
      | exhausted => exact .inl (by simp [traceKind, traceTurn, hb, hn])
    · exact .inr ⟨rest, by simp, by simp [traceTurn, hb], by simp [traceKind, hfire rest]⟩
  constructor
  all_goals
    intro s t
    rcases hcases s t with ⟨hk, heq⟩ | ⟨rest, hlen, heq, hk⟩
    · simp [heq, hk]
    · cases hp : t.preFlush <;> cases hf : t.fire <;>
        simp [heq, hk, hp, hf, traceFire, fireOne, hlen]

def traceKinds (s : LoopState) (it : Iteration TraceTurn) : Nat → Turn :=
  kinds traceKind s.backfill.length it.turns

/-- The iteration drops no token: it does not return with tokens carried, and if it fires, no
flush before a send fails, only the last token's send fails, and the connection does not fail
when rows ran out before the budget. -/
def TraceKeeps (cfg : LoopConfig) (s : LoopState) (it : Iteration TraceTurn) : Prop :=
  if returnsAtTop s it then s.carriedTokens = 0
  else if it.phase.sends && wantFire cfg s && it.started then
    ∀ i < (tokenBudget cfg s it).1, Reached (traceKinds s it) i →
      traceKinds s it i ≠ .refused ∧
        (traceKinds s it i = .failed → i + 1 = (tokenBudget cfg s it).1) ∧
        (it.ending = .disconnect → traceKinds s it i ≠ .empty)
  else it.ending = .disconnect → s.carriedTokens = 0

def traceHeld (turns : Nat → Turn) (budget : Nat) : Nat :=
  if exit turns budget = some .empty then rest turns budget else 0

theorem traceHeld_le (turns : Nat → Turn) (budget : Nat) :
    traceHeld turns budget ≤ rest turns budget := by
  unfold traceHeld
  split <;> omega

/-- What is lost of a budget is nothing exactly when `TraceKeeps` says so of the turns. -/
theorem traceLoss_iff (turns : Nat → Turn) (budget : Nat) (disconnect : Prop)
    [Decidable disconnect] :
    rest turns budget - traceHeld turns budget +
        (if disconnect then traceHeld turns budget else 0) = 0 ↔
      ∀ i < budget, Reached turns i → turns i ≠ .refused ∧ (turns i = .failed → i + 1 = budget) ∧
        (disconnect → turns i ≠ .empty) := by
  have hle := traceHeld_le turns budget
  have hsplit : (∀ i < budget, Reached turns i → turns i ≠ .refused ∧
      (turns i = .failed → i + 1 = budget) ∧ (disconnect → turns i ≠ .empty)) ↔
      (rest turns budget = 0 ∨ exit turns budget = some .empty) ∧
        (disconnect → exit turns budget ≠ some .empty) := by
    rw [rest_or_empty_iff, exit_ne_empty_iff]
    constructor
    · exact fun h => ⟨fun i hi hr => ⟨(h i hi hr).1, (h i hi hr).2.1⟩,
        fun hd i hi hr => (h i hi hr).2.2 hd⟩
    · exact fun h i hi hr => ⟨(h.1 i hi hr).1, (h.1 i hi hr).2, fun hd => h.2 hd i hi hr⟩
  have hpos := rest_pos_of_exit_empty turns budget
  rw [hsplit]
  unfold traceHeld at hle ⊢
  by_cases he : exit turns budget = some .empty
  · have := hpos he
    by_cases hd : disconnect
    · simp only [he, hd, if_true, ne_eq, not_true_eq_false, imp_false, and_false, iff_false]
      omega
    · simp [he, hd]
  · simp [he]

theorem carryLeft_spec (s : LoopState) (turns : Nat → Turn) (budget : Nat)
    (h : s.carriedTokens = 0) :
    (carryLeft (rest turns budget) (exit turns budget) s).carriedTokens = traceHeld turns budget ∧
      (carryLeft (rest turns budget) (exit turns budget) s).tried = s.tried ∧
      (carryLeft (rest turns budget) (exit turns budget) s).debited = s.debited ∧
      (carryLeft (rest turns budget) (exit turns budget) s).granted = s.granted := by
  have hpos := rest_pos_of_exit_empty turns budget
  unfold traceHeld carryLeft
  by_cases he : exit turns budget = some .empty
  · simp [he, hpos he, h]
  · simp [he, h]

theorem trace_ledger {cfg : LoopConfig} {s s' : LoopState} {it : Iteration TraceTurn}
    (hbatch : s.carriedTokens ≤ cfg.batchSize) (h : traceReplayRun cfg s it = some s') :
    s'.carriedTokens ≤ cfg.batchSize ∧ ∃ loss, Ledger s s' loss ∧
      (loss = 0 ↔ TraceKeeps cfg s it) := by
  unfold traceReplayRun at h
  unfold TraceKeeps
  split at h
  · cases h
  split at h
  · rename_i htop
    cases h
    rw [if_pos htop]
    exact ⟨Nat.zero_le _, _, leave_ledger s, Iff.rfl⟩
  rename_i htop
  rw [if_neg htop]
  split at h
  · rename_i hfires
    rw [if_pos hfires]
    simp only [Bool.and_eq_true, wantFire, decide_eq_true_eq] at hfires
    rcases hbudget : tokenBudget cfg s it with ⟨budget, starved, s₁⟩
    obtain ⟨hle, hcarried, htried, hgranted, hdebited, hpending, hback, hstarved⟩ :=
      tokenBudget_spec hbatch hbudget
    have hpos := cfg.batchSize_pos
    obtain ⟨s₂, hloop, htried₂, hcarried₂, hdebited₂, hgranted₂⟩ :=
      fireLoop_spec cfg trace_turnSpec it.turns budget s₁ (by omega)
    rw [hback] at hloop htried₂
    rw [hbudget] at h
    simp only [hloop] at h
    obtain ⟨hcarried₃, htried₃, hdebited₃, hgranted₃⟩ :=
      carryLeft_spec s₂ (traceKinds s it) budget (by omega)
    have hheld := traceHeld_le (traceKinds s it) budget
    have hspent := tried_add_rest (traceKinds s it) budget
    have hloss := traceLoss_iff (traceKinds s it) budget (it.ending = .disconnect)
    simp only [traceKinds] at hcarried₃ htried₃ hdebited₃ hgranted₃ hheld hspent
    generalize carryLeft _ _ s₂ = s₃ at h hcarried₃ htried₃ hdebited₃ hgranted₃
    obtain ⟨hf1, hf2, hf3, hf4⟩ := flushAll_frame s₃ it.flush
    obtain ⟨hbatch', hledger⟩ := await_ledger Nat.zero_add
      (fun hs => by have := hstarved hs; omega) (by omega) h
    refine ⟨hbatch', _, ?_, hloss⟩
    simp only [Ledger, hf1, hcarried₃] at hledger ⊢
    simp only [traceKinds]
    omega
  · rename_i hfires
    rw [if_neg hfires]
    exact idle_ledger Nat.zero_add ⟨rfl, rfl, rfl, rfl⟩ hbatch h

/-! ## Whole runs -/

/-- **Token conservation.** In every run of the workload loop and of the trace replay loop, the
tokens debited and granted are those spent on a request and those still carried exactly when
every iteration keeps its tokens. -/
theorem tokens_conserved_iff (cfg : WorkloadConfig) (traceCfg : LoopConfig)
    (backfill : List Nat) :
    (∀ (its : List (Iteration WorkloadTurn)) (s : LoopState),
      Exec.run (driveRespWorkload cfg) (.init backfill) its = some s →
        (Conserved s ↔
          Exec.Meets (driveRespWorkload cfg) (WorkloadKeeps cfg) (.init backfill) its)) ∧
    ∀ (its : List (Iteration TraceTurn)) (s : LoopState),
      Exec.run (traceReplayRun traceCfg) (.init []) its = some s →
        (Conserved s ↔
          Exec.Meets (traceReplayRun traceCfg) (TraceKeeps traceCfg) (.init []) its) := by
  constructor
  · intro its s hrun
    exact Exec.run_balance_iff (I := fun s => s.carriedTokens ≤ cfg.batchSize)
      (fun s => s.debited + s.granted) (fun s => s.tried + s.carriedTokens)
      workload_ledger (Nat.zero_le _) rfl hrun
  · intro its s hrun
    exact Exec.run_balance_iff (I := fun s => s.carriedTokens ≤ traceCfg.batchSize)
      (fun s => s.debited + s.granted) (fun s => s.tried + s.carriedTokens)
      trace_ledger (Nat.zero_le _) rfl hrun

/-! ## Two iterations -/

def twoEndpoints : WorkloadConfig where
  pipelineDepth := 4
  batchSize := 4
  batchSize_pos := by decide
  dispatcher := true
  numEndpoints := 2
  endpointIdx := 0
  keyDist := .global

def fundedIteration (endpoint : Nat) (ending : Ending) : Iteration WorkloadTurn where
  phase := .running
  alive := true
  started := true
  prefilled := 0
  maxTokens := 16
  funds := true
  turns _ := ⟨fun i => i, none, fun _ => endpoint, .sent⟩
  flush := .sent
  ending := ending

/-- The trace's rows ran out after one row: three tokens are carried. -/
def traceIteration : Iteration TraceTurn where
  phase := .running
  alive := true
  started := true
  prefilled := 0
  maxTokens := 16
  funds := true
  turns i := ⟨if i = 0 then .row else .notReady, .sent, .sent⟩
  flush := .sent
  ending := .reply none

theorem tokens_conserved_running :
    Exec.Meets (driveRespWorkload twoEndpoints) (WorkloadKeeps twoEndpoints) (.init [])
      [fundedIteration 0 (.reply none)] ∧
    Exec.Meets (traceReplayRun twoEndpoints.toLoopConfig) (TraceKeeps twoEndpoints.toLoopConfig)
      (.init []) [traceIteration] :=
  ⟨((tokens_conserved_iff twoEndpoints twoEndpoints.toLoopConfig []).1
      [fundedIteration 0 (.reply none)] ⟨3, [], 0, 4, 0, 4, false⟩ (by decide)).1 (by decide),
    ((tokens_conserved_iff twoEndpoints twoEndpoints.toLoopConfig []).2 [traceIteration]
      ⟨0, [], 3, 4, 0, 1, false⟩ (by decide)).1 (by decide)⟩

/-- No key drawn routes here: the loop is left without a request, and the four tokens funded for
it are gone. -/
theorem tokens_dropped : Exec.run (driveRespWorkload twoEndpoints) (.init [])
      [fundedIteration 1 .sleep] = some ⟨0, [], 0, 4, 0, 0, false⟩ ∧
    ¬ Conserved ⟨0, [], 0, 4, 0, 0, false⟩ := by
  decide

end Worker
