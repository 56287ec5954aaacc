import Cachecannon.Runner.Proof.Loop
import Mathlib.Data.Finset.Card

/-!
# The phases of a run

The main thread publishes the phases of its plan in order, each once, and Stop after them exactly
when the loop has ended (`run_phases`). It measures nothing before every worker has passed the
precheck and every key is confirmed (`measures_after_precheck_and_prefill`).
-/

namespace Runner

open Worker (Phase)
open LoopState Exec

/-- The phases of a run that is not cut short, before Stop. -/
def plan (cfg : LoopConfig) : List Phase :=
  .precheck :: (if cfg.prefillEnabled then [.prefill] else []) ++ [.warmup, .running]

/-- The part of the plan up to the phase. -/
def upTo (cfg : LoopConfig) : Phase → List Phase
  | .prefill => [.precheck, .prefill]
  | .warmup => .precheck :: (if cfg.prefillEnabled then [.prefill] else []) ++ [.warmup]
  | .running => plan cfg
  | _ => [.precheck]

theorem upTo_prefix {cfg : LoopConfig} {phase : Phase} (h : phase ∈ plan cfg) :
    upTo cfg phase <+: plan cfg := by
  cases phase with
  | connect => simp [plan] at h
  | precheck => exact List.prefix_append [Phase.precheck] _
  | prefill =>
    cases hprefill : cfg.prefillEnabled with
    | false => simp [plan, hprefill] at h
    | true => simp [plan, upTo, hprefill]
  | warmup => exact ⟨[.running], by simp [plan, upTo]⟩
  | running => exact List.prefix_refl _
  | stop => simp [plan] at h

theorem plan_nodup (cfg : LoopConfig) : (plan cfg).Nodup := by
  unfold plan
  cases cfg.prefillEnabled <;> decide

/-- A turn publishes `phases`, and goes to `phase`. -/
structure Goes (s s' : LoopState) (phase : Phase) (phases : List Phase) : Prop where
  phase : s'.currentPhase = phase
  published : s'.published = s.published ++ phases

/-- What a turn does to the phase. -/
theorem loopTurn_phase {cfg : LoopConfig} (start : Int) {s : LoopState} (turn : Turn)
    (hphase : s.currentPhase ∈ plan cfg) :
    (Goes s (loopTurn cfg start s turn) s.currentPhase [.stop] ∧
      (loopTurn cfg start s turn).outcome.isSome) ∨
    ((loopTurn cfg start s turn).outcome = s.outcome ∧
      (Goes s (loopTurn cfg start s turn) s.currentPhase [] ∨
      (s.currentPhase = .precheck ∧ cfg.numThreads ≤ turn.precheckComplete ∧
        cfg.prefillEnabled = true ∧ Goes s (loopTurn cfg start s turn) .prefill [.prefill]) ∨
      (s.currentPhase = .precheck ∧ cfg.numThreads ≤ turn.precheckComplete ∧
        cfg.prefillEnabled = false ∧ Goes s (loopTurn cfg start s turn) .warmup [.warmup]) ∨
      (s.currentPhase = .prefill ∧ 0 < turn.total ∧ turn.total ≤ turn.confirmed ∧
        Goes s (loopTurn cfg start s turn) .warmup [.warmup]) ∨
      (s.currentPhase = .warmup ∧ Goes s (loopTurn cfg start s turn) .running [.running]))) := by
  by_cases hsignal : turn.interrupted = true
  · rw [loopTurn_interrupted hsignal]
    exact .inl ⟨⟨rfl, rfl⟩, rfl⟩
  cases h : s.currentPhase with
  | connect => rw [h] at hphase; simp [plan] at hphase
  | stop => rw [h] at hphase; simp [plan] at hphase
  | precheck =>
    rw [loopTurn_precheck hsignal h]
    rcases precheckTurn_cases cfg s turn with h' | ⟨h', -⟩ | ⟨hall, hprefill, h'⟩ |
      ⟨hall, hprefill, kv, trace, h'⟩ | ⟨t, -, ⟨-, h'⟩ | ⟨-, h'⟩⟩
    all_goals rw [h']
    · exact .inl ⟨⟨h, rfl⟩, rfl⟩
    · exact .inr ⟨rfl, .inl ⟨h, (List.append_nil _).symm⟩⟩
    · exact .inr ⟨rfl, .inr (.inl ⟨rfl, hall, hprefill, rfl, rfl⟩)⟩
    · exact .inr ⟨rfl, .inr (.inr (.inl ⟨rfl, hall, hprefill, rfl, rfl⟩))⟩
    · exact .inl ⟨⟨h, rfl⟩, rfl⟩
    · exact .inr ⟨rfl, .inl ⟨h, (List.append_nil _).symm⟩⟩
  | prefill =>
    have hprogress : (s.noteProgress turn).currentPhase = s.currentPhase ∧
        (s.noteProgress turn).published = s.published ∧
        (s.noteProgress turn).outcome = s.outcome := by
      unfold noteProgress
      split <;> exact ⟨rfl, rfl, rfl⟩
    rw [loopTurn_prefill hsignal h]
    rcases prefillTurn_cases cfg s turn with ⟨hpos, hall, kv, h'⟩ | ⟨-, ⟨cause, h'⟩ | ⟨h', -⟩⟩
    all_goals rw [h']
    · exact .inr ⟨rfl, .inr (.inr (.inr (.inl ⟨rfl, hpos, hall, rfl, rfl⟩)))⟩
    · refine .inl ⟨⟨hprogress.1.trans h, ?_⟩, rfl⟩
      rw [← hprogress.2.1]
      rfl
    · exact .inr ⟨hprogress.2.2, .inl ⟨hprogress.1.trans h,
        hprogress.2.1.trans (List.append_nil _).symm⟩⟩
  | warmup =>
    rw [loopTurn_measure hsignal (.inl h)]
    rcases measureTurn_cases cfg start turn (.inl h) with
      ⟨-, d, h', -⟩ | ⟨-, ⟨-, -, h'⟩ | ⟨-, -, h'⟩ | ⟨hrunning, -⟩⟩
    · rw [h']
      exact .inl ⟨⟨h, rfl⟩, rfl⟩
    · rw [h']
      exact .inr ⟨rfl, .inr (.inr (.inr (.inr ⟨rfl, rfl, rfl⟩)))⟩
    · rw [h']
      exact .inr ⟨rfl, .inl ⟨h, (List.append_nil _).symm⟩⟩
    · rw [h] at hrunning
      cases hrunning
  | running =>
    have hreport : (s.report turn).currentPhase = s.currentPhase ∧
        (s.report turn).published = s.published ∧ (s.report turn).outcome = s.outcome := by
      unfold report
      split <;> exact ⟨rfl, rfl, rfl⟩
    rw [loopTurn_measure hsignal (.inr h)]
    rcases measureTurn_cases cfg start turn (.inr h) with
      ⟨-, d, h', -⟩ | ⟨-, ⟨hwarm, -, -⟩ | ⟨hwarm, -, -⟩ | ⟨-, h'⟩⟩
    · rw [h']
      exact .inl ⟨⟨h, rfl⟩, rfl⟩
    · rw [h] at hwarm
      cases hwarm
    · rw [h] at hwarm
      cases hwarm
    · rw [h']
      exact .inr ⟨hreport.2.2, .inl ⟨hreport.1.trans h,
        hreport.2.1.trans (List.append_nil _).symm⟩⟩

/-! ## The run -/

variable {W : Type} [Fintype W]

structure PhaseInv (cfg : LoopConfig) (total : Nat) (s : RunState W) : Prop where
  phase : s.loop.currentPhase ∈ plan cfg
  published : s.loop.published = upTo cfg s.loop.currentPhase ++
    if s.loop.outcome.isSome then [.stop] else []
  flags : s.precheckDone + s.flagged = (Finset.univ.filter fun w => s.precheckFlag w = true).card
  prechecked : s.loop.currentPhase ≠ .precheck →
    Fintype.card W ≤ (Finset.univ.filter fun w => s.precheckFlag w = true).card
  prefilled : s.loop.currentPhase = .warmup ∨ s.loop.currentPhase = .running →
    cfg.prefillEnabled = true → 0 < total ∧ total ≤ s.confirmed

theorem phaseInv_init (cfg : LoopConfig) (total : Nat) (hasConnections : W → Bool) (start : Int) :
    PhaseInv cfg total (RunState.init cfg hasConnections start) where
  phase := List.mem_cons_self
  published := rfl
  flags := by simp [RunState.init]
  prechecked h := absurd rfl h
  prefilled h := by rcases h with h | h <;> cases h

variable [DecidableEq W]

theorem card_flag {flag : W → Bool} {w : W} (h : ¬flag w = true) :
    (Finset.univ.filter fun v => Function.update flag w true v = true).card =
      (Finset.univ.filter fun v => flag v = true).card + 1 := by
  have hinsert : (Finset.univ.filter fun v => Function.update flag w true v = true) =
      insert w (Finset.univ.filter fun v => flag v = true) := by
    ext v
    by_cases hv : v = w
    · subst hv
      simp
    · simp [hv]
  rw [hinsert, Finset.card_insert_of_notMem (by simpa using h)]

theorem step_phaseInv {cfg : LoopConfig} {start : Int} {total : Nat} {s s' : RunState W}
    {e : RunStep W} (hthreads : cfg.numThreads = Fintype.card W) (hI : PhaseInv cfg total s)
    (hstep : runStep cfg start total s e = some s') : PhaseInv cfg total s' := by
  cases e with
  | started =>
    cases hstep
    exact ⟨hI.phase, hI.published, hI.flags, hI.prechecked, hI.prefilled⟩
  | flag w =>
    rw [runStep] at hstep
    split at hstep
    case isTrue =>
      cases hstep
      exact hI
    case isFalse h =>
      cases hstep
      have hcard := card_flag h
      refine ⟨hI.phase, hI.published, ?_, fun hphase => ?_, hI.prefilled⟩
      · have := hI.flags
        simp only [hcard]
        omega
      · have := hI.prechecked hphase
        simp only [hcard]
        omega
  | complete =>
    rw [runStep] at hstep
    split at hstep
    case isTrue h =>
      cases hstep
      refine ⟨hI.phase, hI.published, ?_, hI.prechecked, hI.prefilled⟩
      have := hI.flags
      simp only
      omega
    case isFalse => cases hstep
  | confirm n =>
    cases hstep
    refine ⟨hI.phase, hI.published, hI.flags, hI.prechecked, fun hphase hprefill => ?_⟩
    have := hI.prefilled hphase hprefill
    exact ⟨this.1, by simp only; omega⟩
  | signal =>
    cases hstep
    exact ⟨hI.phase, hI.published, hI.flags, hI.prechecked, hI.prefilled⟩
  | turn turn =>
    rw [runStep] at hstep
    split at hstep
    case isFalse => cases hstep
    case isTrue hfits =>
    cases hstep
    obtain ⟨halive, -, -, hcomplete, -, hconfirmed, htotal, -⟩ := hfits
    have hpub := hI.published
    rw [halive] at hpub
    simp only [Option.isSome_none, Bool.false_eq_true, if_false, List.append_nil] at hpub
    have hall : cfg.numThreads ≤ turn.precheckComplete →
        Fintype.card W ≤ (Finset.univ.filter fun w => s.precheckFlag w = true).card := by
      have := hI.flags
      omega
    rcases loopTurn_phase start turn hI.phase with ⟨⟨hphase, hpub'⟩, hstop⟩ |
      ⟨hout, ⟨hphase, hpub'⟩ | ⟨hfrom, hdone, hprefill, hphase, hpub'⟩ |
        ⟨hfrom, hdone, hprefill, hphase, hpub'⟩ | ⟨hfrom, hpos, hfull, hphase, hpub'⟩ |
        ⟨hfrom, hphase, hpub'⟩⟩
    · -- the loop stops
      refine ⟨by rw [after_loop, hphase]; exact hI.phase, ?_, hI.flags, ?_, ?_⟩
      · rw [after_loop, hpub', hpub, hphase, hstop, if_pos rfl]
      · rw [after_loop, hphase]
        exact hI.prechecked
      · rw [after_loop, hphase]
        exact hI.prefilled
    all_goals rw [halive] at hout
    · -- it stays in its phase
      refine ⟨by rw [after_loop, hphase]; exact hI.phase, ?_, hI.flags, ?_, ?_⟩
      · simp [hpub', hpub, hphase, hout]
      · rw [after_loop, hphase]
        exact hI.prechecked
      · rw [after_loop, hphase]
        exact hI.prefilled
    · -- Precheck to Prefill
      refine ⟨by simp [hphase, plan, hprefill], ?_, hI.flags, fun _ => hall hdone, ?_⟩
      · simp [hpub', hpub, hphase, hfrom, hout, upTo]
      · rw [after_loop, hphase]
        rintro (h | h) <;> cases h
    · -- Precheck to Warmup
      refine ⟨by simp [hphase, plan], ?_, hI.flags, fun _ => hall hdone, ?_⟩
      · simp [hpub', hpub, hphase, hfrom, hout, upTo, hprefill]
      · rw [hprefill]
        exact fun _ h => by cases h
    · -- Prefill to Warmup
      have hprefill : cfg.prefillEnabled = true := by
        have hmem := hI.phase
        rw [hfrom] at hmem
        by_contra hoff
        simp [plan, hoff] at hmem
      refine ⟨by simp [hphase, plan], ?_, hI.flags, fun _ => hI.prechecked ?_, fun _ _ => ?_⟩
      · simp [hpub', hpub, hphase, hfrom, hout, upTo, hprefill]
      · rw [hfrom]
        exact Phase.noConfusion
      · exact ⟨htotal ▸ hpos, by rw [htotal] at hfull; exact hfull.trans hconfirmed⟩
    · -- Warmup to Running
      refine ⟨by simp [hphase, plan], ?_, hI.flags, fun _ => hI.prechecked ?_, fun _ => ?_⟩
      · simp [hpub', hpub, hphase, hfrom, hout, upTo, plan]
      · rw [hfrom]
        exact Phase.noConfusion
      · exact hI.prefilled (.inl hfrom)

theorem run_phaseInv {cfg : LoopConfig} {start : Int} {total : Nat} {hasConnections : W → Bool}
    {es : List (RunStep W)} {s : RunState W} (hthreads : cfg.numThreads = Fintype.card W)
    (hrun : run (runStep cfg start total) (.init cfg hasConnections start) es = some s) :
    PhaseInv cfg total s :=
  run_inv (step_phaseInv hthreads) (phaseInv_init cfg total hasConnections start) hrun

/-- **The phases of a run.** In every interleaving of the main thread with the workers, what it has
published is the beginning of the plan up to its current phase, each phase once, followed by Stop
exactly when the loop has ended. -/
theorem run_phases {cfg : LoopConfig} {start : Int} {total : Nat} {hasConnections : W → Bool}
    {es : List (RunStep W)} {s : RunState W} (hthreads : cfg.numThreads = Fintype.card W)
    (hrun : run (runStep cfg start total) (.init cfg hasConnections start) es = some s) :
    ∃ visited, visited <+: plan cfg ∧ visited.getLast? = some s.loop.currentPhase ∧
      s.loop.published = visited ++ (if s.loop.outcome.isSome then [.stop] else []) ∧
      s.loop.published.Nodup := by
  have hI := run_phaseInv hthreads hrun
  have hupTo := upTo_prefix hI.phase
  refine ⟨upTo cfg s.loop.currentPhase, hupTo, ?_, hI.published, ?_⟩
  · have hphase := hI.phase
    cases h : s.loop.currentPhase with
    | connect => rw [h] at hphase; simp [plan] at hphase
    | stop => rw [h] at hphase; simp [plan] at hphase
    | precheck => rfl
    | prefill => rfl
    | warmup => cases hprefill : cfg.prefillEnabled <;> simp [upTo, hprefill]
    | running => cases hprefill : cfg.prefillEnabled <;> simp [upTo, plan, hprefill]
  · have hnodup := hupTo.sublist.nodup (plan_nodup cfg)
    have hstop : Phase.stop ∉ plan cfg := by simp [plan]
    rw [hI.published, List.nodup_append]
    refine ⟨hnodup, by split <;> simp, fun phase hmem phase' hmem' heq => ?_⟩
    subst heq
    split at hmem'
    · obtain rfl := List.mem_singleton.1 hmem'
      exact hstop (hupTo.subset hmem)
    · simp at hmem'

/-- A turn that finds nothing done. -/
def quietTurn (now : Int) : Turn where
  interrupted := false
  now := now
  later := now
  precheckComplete := 1
  workersStarted := 0
  allFinished := false
  kvReadAhead := .ready
  traceReadAhead := .ready
  confirmed := 0
  total := 3
  connsActive := 0
  saturationDone := false
  kvDone := false
  traceDone := false
  reading _ := 0
  connsFailedAgain := 0

/-- Three keys to prefill, no warmup, and a second of measurement. -/
def prefillConfig : LoopConfig where
  numThreads := 1
  prefillEnabled := true
  warmup := 0
  duration := 1000000000
  precheckTimeout := 5000000000
  prefillTimeout := 0
  kvReplay := false
  traceReplay := false
  saturationSearch := false
  ratelimiter := false

/-- A run through every phase. -/
def wholeRun : List (RunStep Unit) :=
  [.flag (), .complete, .turn (quietTurn 100000000), .confirm 3,
    .turn { quietTurn 200000000 with confirmed := 3 }, .turn (quietTurn 300000000),
    .turn (quietTurn 1300000000)]

theorem wholeRun_runs : ∃ s, run (runStep prefillConfig 0 3)
    (.init prefillConfig (fun _ => true) 0) wholeRun = some s ∧
      s.loop.currentPhase = .running ∧ s.loop.outcome = some .results ∧
      s.loop.published = [.precheck, .prefill, .warmup, .running, .stop] :=
  ⟨_, rfl, rfl, rfl, rfl⟩

theorem run_phases_wholeRun : ∃ s visited, run (runStep prefillConfig 0 3)
    (.init prefillConfig (fun _ => true) 0) wholeRun = some s ∧
      visited <+: plan prefillConfig ∧ visited.getLast? = some .running ∧
      s.loop.published = visited ++ [.stop] ∧
      s.loop.published = [.precheck, .prefill, .warmup, .running, .stop] ∧
      s.loop.published.Nodup := by
  obtain ⟨s, hrun, hphase, hstop, hpublished⟩ := wholeRun_runs
  obtain ⟨visited, hprefix, hlast, hvisited, hnodup⟩ := run_phases rfl hrun
  rw [hphase] at hlast
  rw [hstop] at hvisited
  exact ⟨s, visited, hrun, hprefix, hlast, hvisited, hpublished, hnodup⟩

/-- **Nothing is sent before its time.** Prefill and Warmup are published only once every worker
has passed its precheck; and Warmup, after a prefill, only once every key is confirmed. -/
theorem measures_after_precheck_and_prefill {cfg : LoopConfig} {start : Int} {total : Nat}
    {hasConnections : W → Bool} {es : List (RunStep W)} {s : RunState W}
    (hthreads : cfg.numThreads = Fintype.card W)
    (hrun : run (runStep cfg start total) (.init cfg hasConnections start) es = some s) :
    (.prefill ∈ s.loop.published ∨ .warmup ∈ s.loop.published → ∀ w, s.precheckFlag w = true) ∧
      (.warmup ∈ s.loop.published → cfg.prefillEnabled = true →
        0 < total ∧ total ≤ s.confirmed) := by
  have hI := run_phaseInv hthreads hrun
  have hmem : ∀ phase, phase ≠ .stop → phase ∈ s.loop.published →
      phase ∈ upTo cfg s.loop.currentPhase := by
    intro phase hne h
    rw [hI.published, List.mem_append] at h
    refine h.resolve_right fun h => ?_
    split at h
    · exact hne (List.mem_singleton.1 h)
    · cases h
  constructor
  · intro h w
    have hpast : s.loop.currentPhase ≠ .precheck := by
      intro hphase
      rw [hphase] at hmem
      rcases h with h | h
      · exact absurd (hmem _ Phase.noConfusion h) (by simp [upTo])
      · exact absurd (hmem _ Phase.noConfusion h) (by simp [upTo])
    have hcard := hI.prechecked hpast
    have huniv := Finset.eq_univ_of_card _
      (Nat.le_antisymm (Finset.card_le_univ _) hcard)
    have hw := Finset.mem_univ w
    rw [← huniv] at hw
    exact (Finset.mem_filter.1 hw).2
  · intro h hprefill
    refine hI.prefilled ?_ hprefill
    have hphase := hI.phase
    have hmem := hmem _ Phase.noConfusion h
    cases hcur : s.loop.currentPhase with
    | connect => rw [hcur] at hphase; simp [plan] at hphase
    | stop => rw [hcur] at hphase; simp [plan] at hphase
    | precheck => rw [hcur] at hmem; simp [upTo] at hmem
    | prefill => rw [hcur] at hmem; simp [upTo] at hmem
    | warmup => exact .inl rfl
    | running => exact .inr rfl

theorem measures_after_precheck_and_prefill_wholeRun : ∃ s, run (runStep prefillConfig 0 3)
    (.init prefillConfig (fun _ => true) 0) wholeRun = some s ∧ s.precheckFlag () = true ∧
      3 ≤ s.confirmed := by
  obtain ⟨s, hrun, -, -, hpublished⟩ := wholeRun_runs
  obtain ⟨hflags, hfull⟩ := measures_after_precheck_and_prefill rfl hrun
  have hwarm : .warmup ∈ s.loop.published := by
    rw [hpublished]
    decide
  exact ⟨s, hrun, hflags (.inr hwarm) (), (hfull hwarm rfl).2⟩

end Runner
